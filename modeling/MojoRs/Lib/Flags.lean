/-
MojoRs/Lib/Flags.lean

A 32-bit word as a set of flags: `w &&& c` reads the flags in `c`, `w ||| b`
sets the flags in `b` and `w &&& ~~~b` clears them.  Setting or clearing flags
leaves the others as they are.

Main results: `or_and_of_disjoint`, `andNot_and_of_disjoint`, `and_flag`.
-/
import Mathlib.Algebra.Ring.Nat

namespace MojoRs.Lib

variable {w a b c : UInt32}

theorem or_and_distrib (w b c : UInt32) : (w ||| b) &&& c = (w &&& c) ||| (b &&& c) :=
  UInt32.eq_of_toBitVec_eq BitVec.and_or_distrib_right

theorem and_or_distrib (w b c : UInt32) : w &&& (b ||| c) = (w &&& b) ||| (w &&& c) :=
  UInt32.eq_of_toBitVec_eq BitVec.and_or_distrib_left

/-- Setting flags does not change others. -/
theorem or_and_of_disjoint (h : b &&& c = 0) : (w ||| b) &&& c = w &&& c := by
  rw [or_and_distrib, h, UInt32.or_zero]

theorem not_and_of_disjoint (h : b &&& c = 0) : ~~~b &&& c = c := by
  apply UInt32.eq_of_toBitVec_eq
  apply BitVec.eq_of_getElem_eq
  intro i hi
  have hbit := congrArg (fun x : UInt32 => x.toBitVec[i]) h
  simp only [UInt32.toBitVec_and, UInt32.toBitVec_not, BitVec.getElem_and, BitVec.getElem_not]
    at hbit ⊢
  cases hb : b.toBitVec[i] with
  | false => rw [Bool.not_false, Bool.true_and]
  | true =>
      rw [hb, Bool.true_and] at hbit
      rw [Bool.not_true, Bool.false_and, hbit]
      simp

/-- Clearing flags does not change others. -/
theorem andNot_and_of_disjoint (h : b &&& c = 0) : (w &&& ~~~b) &&& c = w &&& c := by
  rw [UInt32.and_assoc, not_and_of_disjoint h]

/-- Flags that are set are set one by one. -/
theorem and_eq_of_subset (h : w &&& c = c) (hb : c &&& b = b) : w &&& b = b := by
  rw [← hb, ← UInt32.and_assoc, h]

/-- A single flag is clear or set. -/
theorem and_flag (k : Nat) (hc : c.toBitVec = BitVec.twoPow 32 k) :
    w &&& c = 0 ∨ w &&& c = c := by
  by_cases hw : w.toBitVec.getLsbD k
  · right
    apply UInt32.eq_of_toBitVec_eq
    rw [UInt32.toBitVec_and, hc, BitVec.and_twoPow, if_pos hw]
  · left
    apply UInt32.eq_of_toBitVec_eq
    rw [UInt32.toBitVec_and, hc, BitVec.and_twoPow, if_neg hw]
    rfl

end MojoRs.Lib
