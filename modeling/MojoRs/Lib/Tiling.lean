/-
MojoRs/Lib/Tiling.lean

Intervals that follow one another.  `Tiles first len n as m` says that the
intervals of `as` lead from `n` to `m`, each beginning where the one before it
ends; an interval may be empty.  Then they are pairwise disjoint, and together
they are all from `n` up to `m`.

Main results: `Tiles.mem_iff`, `Tiles.pairwise_disjoint`.
-/
import Mathlib.Order.CompletePartialOrder
import Mathlib.Order.Interval.Set.Disjoint
import Mathlib.Data.List.Chain

namespace MojoRs.Lib

variable {α : Type} (first len : α → Nat)

/-- The intervals lead from a number to another. -/
def Tiles : Nat → List α → Nat → Prop
  | n, [], m => n = m
  | n, a :: as, m => first a = n ∧ Tiles (n + len a) as m

namespace Tiles

variable {first len : α → Nat} {n m : Nat} {as : List α}

theorem le (h : Tiles first len n as m) : n ≤ m := by
  induction as generalizing n with
  | nil => exact Nat.le_of_eq h
  | cons a as ih => exact Nat.le_trans (Nat.le_add_right n (len a)) (ih h.2)

/-- Together they are all between the two. -/
theorem mem_iff (h : Tiles first len n as m) (k : Nat) :
    (∃ a ∈ as, k ∈ Set.Ico (first a) (first a + len a)) ↔ n ≤ k ∧ k < m := by
  induction as generalizing n with
  | nil =>
      obtain rfl : n = m := h
      constructor
      · rintro ⟨a, ha, -⟩
        exact absurd ha List.not_mem_nil
      · exact fun hk => absurd hk.2 (Nat.not_lt.mpr hk.1)
  | cons a as ih =>
      obtain ⟨rfl, hrest⟩ := h
      have hle := hrest.le
      rw [List.exists_mem_cons_iff, ih hrest, Set.mem_Ico]
      omega

theorem pairwise_disjoint (h : Tiles first len n as m) :
    as.Pairwise fun a b =>
      Disjoint (Set.Ico (first a) (first a + len a)) (Set.Ico (first b) (first b + len b)) := by
  induction as generalizing n with
  | nil => exact List.Pairwise.nil
  | cons a as ih =>
      obtain ⟨rfl, hrest⟩ := h
      refine List.pairwise_cons.mpr ⟨fun b hb => ?_, ih hrest⟩
      rw [Set.disjoint_left]
      intro k hk hb'
      have hk' := ((hrest.mem_iff k).mp ⟨b, hb, hb'⟩).1
      exact absurd hk.2 (Nat.not_lt.mpr hk')

theorem isChain (h : Tiles first len n as m) :
    as.IsChain fun a b => first a + len a = first b := by
  induction as generalizing n with
  | nil => exact List.IsChain.nil
  | cons a as ih =>
      obtain ⟨rfl, hrest⟩ := h
      cases as with
      | nil => exact List.IsChain.singleton a
      | cons b as => exact List.IsChain.cons_cons hrest.1.symm (ih hrest)

end Tiles

end MojoRs.Lib
