/-
MojoRs/Ipcz/LinkStateAtomics.lean

The status word of a shared `RouterLinkState`, one compare-exchange at a time.
Each operation of `link_memory.rs` is a loop that carries an expected value and
what it wants to store; a failed compare-exchange, spurious or not, hands it
the word as it is.  `LocalLinkState` of `router.rs` does the same on a word
that nobody else changes.

An attempt is `Ready` if its compare-exchange, should it succeed, does to the
word what the local operation does.  Every attempt of every loop is ready, so
every completed operation is a local one applied at a single point.

Routing works on the record of flags that a word stands for (`LinkStatus`), one
operation at a time.  It may: a run of the threads is a run of the operations on
records, in the order in which they completed (`replayRecord_exec`).

Main results: `step_atomic`, `replay_exec`, `replayRecord_exec`,
`status_refines_local`.
-/
import MojoRs.Lib.Flags
import MojoRs.Lib.Run
import MojoRs.Ipcz.LinkMemory

namespace MojoRs.Ipcz

open Lib
open Function (update)

/-! ### Status bits -/

namespace RouterLinkStatus

/-- The stable bit of a side. -/
def sideStable : LinkSide → UInt32
  | .a => 1
  | .b => 2

/-- The stable bits of both sides. -/
def stable : UInt32 := 3

/-- The waiting bit of a side. -/
def sideWaiting : LinkSide → UInt32
  | .a => 4
  | .b => 8

/-- The lock bit of a side. -/
def lockedBySide : LinkSide → UInt32
  | .a => 16
  | .b => 32

/-- The lock bits of both sides. -/
def lockedByEither : UInt32 := 48

/-- No two lock bits are set. -/
def AtMostOneLock (w : UInt32) : Prop :=
  w &&& lockedBySide .a = 0 ∨ w &&& lockedBySide .b = 0

instance (w : UInt32) : Decidable (AtMostOneLock w) := inferInstanceAs (Decidable (_ ∨ _))

variable (w : UInt32) (side s : LinkSide)

theorem stable_or_clear : w &&& sideStable side = 0 ∨ w &&& sideStable side = sideStable side := by
  cases side
  · exact and_flag 0 rfl
  · exact and_flag 1 rfl

theorem and_stable_eq :
    w &&& stable = stable ↔ w &&& sideStable side ≠ 0 ∧ w &&& sideStable side.opposite ≠ 0 := by
  constructor
  · intro h
    rw [and_eq_of_subset h (by cases side <;> rfl), and_eq_of_subset h (by cases side <;> rfl)]
    cases side <;> exact ⟨by decide, by decide⟩
  · rintro ⟨h, h'⟩
    have hsplit : stable = sideStable side ||| sideStable side.opposite := by cases side <;> rfl
    rw [hsplit, and_or_distrib, (stable_or_clear w side).resolve_left h,
      (stable_or_clear w side.opposite).resolve_left h']

theorem and_lockedByEither_eq_zero :
    w &&& lockedByEither = 0 ↔ w &&& lockedBySide .a = 0 ∧ w &&& lockedBySide .b = 0 := by
  have hsplit : lockedByEither = lockedBySide .a ||| lockedBySide .b := rfl
  rw [hsplit, and_or_distrib, UInt32.or_eq_zero_iff]

end RouterLinkStatus

open RouterLinkStatus

/-! ### Local link states -/

/-- The operations on a link state. -/
inductive LinkOp
  | setSideStable
  | tryLock
  | unlock
  | resetWaitingBit
  deriving DecidableEq, Repr

/-- Where an attempt to lock gives up. -/
def lockRefused (side : LinkSide) (expected : UInt32) : Prop :=
  expected &&& lockedByEither ≠ 0 ∨ expected &&& sideStable side = 0

instance (side : LinkSide) (expected : UInt32) : Decidable (lockRefused side expected) :=
  inferInstanceAs (Decidable (_ ∨ _))

/-- The bit to try next: the waiting bit as long as the other side is not
stable, the lock bit once it is. -/
def nextLockBit (side : LinkSide) (expected desiredBit : UInt32) : UInt32 :=
  if desiredBit = lockedBySide side ∧ expected &&& sideStable side.opposite = 0 then
    sideWaiting side
  else if desiredBit = sideWaiting side ∧ expected &&& stable = stable then lockedBySide side
  else desiredBit

/-- Where there is no waiting bit to reset. -/
def resetRefused (side : LinkSide) (expected : UInt32) : Prop :=
  expected &&& stable ≠ stable ∨ expected &&& sideWaiting side = 0 ∨
    expected &&& lockedByEither ≠ 0

instance (side : LinkSide) (expected : UInt32) : Decidable (resetRefused side expected) :=
  inferInstanceAs (Decidable (_ ∨ _))

namespace LocalLinkState

/-- At most `n` iterations of the loop of `LocalLinkState::try_lock`. -/
def tryLockLoop (side : LinkSide) (status expected desiredBit : UInt32) :
    Nat → Option (Bool × UInt32)
  | 0 => none
  | n + 1 =>
      if status = expected then some (desiredBit = lockedBySide side, status ||| desiredBit)
      else if lockRefused side status then some (false, status)
      else tryLockLoop side status status (nextLockBit side status desiredBit) n

/-- `try_lock`: the loop goes round at most twice. -/
def tryLock (side : LinkSide) (status : UInt32) : Option (Bool × UInt32) :=
  tryLockLoop side status stable (lockedBySide side) 2

/-- `set_side_stable`. -/
def setSideStable (side : LinkSide) (status : UInt32) : UInt32 :=
  if status &&& sideStable side = 0 then status ||| sideStable side else status

/-- `unlock`. -/
def unlock (side : LinkSide) (status : UInt32) : UInt32 := status &&& ~~~lockedBySide side

/-- `reset_waiting_bit`. -/
def resetWaitingBit (side : LinkSide) (status : UInt32) : Bool × UInt32 :=
  if resetRefused side status then (false, status)
  else (true, status &&& ~~~sideWaiting side)

end LocalLinkState

namespace LinkOp

/-- What the local operation returns and leaves. -/
def onLocal (side : LinkSide) (status : UInt32) : LinkOp → Option (Option Bool × UInt32)
  | setSideStable => some (none, LocalLinkState.setSideStable side status)
  | tryLock => (LocalLinkState.tryLock side status).map fun res => (some res.1, res.2)
  | unlock => some (none, LocalLinkState.unlock side status)
  | resetWaitingBit =>
      let res := LocalLinkState.resetWaitingBit side status
      some (some res.1, res.2)

/-- The bits that an operation may change. -/
def bits (side : LinkSide) : LinkOp → UInt32
  | setSideStable => sideStable side
  | tryLock => lockedBySide side ||| sideWaiting side
  | unlock => lockedBySide side
  | resetWaitingBit => sideWaiting side

end LinkOp

section Local

variable {side s : LinkSide} {w w' : UInt32} {r : Option Bool} {op : LinkOp}

theorem sideWaiting_ne_lockedBySide (side : LinkSide) : sideWaiting side ≠ lockedBySide side := by
  cases side <;> decide

/-- What the bit to try next comes to, from either bit. -/
theorem nextLockBit_eq {d : UInt32} (hrefused : ¬lockRefused side w)
    (hd : d = lockedBySide side ∨ d = sideWaiting side) :
    nextLockBit side w d =
      if w &&& sideStable side.opposite = 0 then sideWaiting side else lockedBySide side := by
  have hne := sideWaiting_ne_lockedBySide side
  simp only [lockRefused, not_or] at hrefused
  have hstable : w &&& stable = stable ↔ w &&& sideStable side.opposite ≠ 0 :=
    (and_stable_eq w side).trans (and_iff_right hrefused.2)
  unfold nextLockBit
  by_cases hother : w &&& sideStable side.opposite = 0
  · rw [if_pos hother]
    obtain rfl | rfl := hd
    · exact if_pos ⟨rfl, hother⟩
    · rw [if_neg (fun h => hne h.1), if_neg (fun h => hstable.mp h.2 hother)]
  · rw [if_neg hother]
    obtain rfl | rfl := hd
    · rw [if_neg (fun h => hother h.2), if_neg (fun h => hne h.1.symm)]
    · rw [if_neg (fun h => hne h.1), if_pos ⟨rfl, hstable.mpr hother⟩]

/-- The loop ends in its second iteration at the latest. -/
theorem LocalLinkState.tryLock_eq (side : LinkSide) (w : UInt32) :
    LocalLinkState.tryLock side w = some
      (if lockRefused side w then (false, w)
        else if w &&& sideStable side.opposite = 0 then (false, w ||| sideWaiting side)
        else (true, w ||| lockedBySide side)) := by
  show LocalLinkState.tryLockLoop side w stable (lockedBySide side) 2 = _
  by_cases hw : w = stable
  · subst hw
    cases side <;> rfl
  · rw [LocalLinkState.tryLockLoop, if_neg hw]
    by_cases hrefused : lockRefused side w
    · rw [if_pos hrefused, if_pos hrefused]
    · rw [if_neg hrefused, if_neg hrefused, LocalLinkState.tryLockLoop, if_pos rfl,
        nextLockBit_eq hrefused (Or.inl rfl)]
      by_cases hother : w &&& sideStable side.opposite = 0
      · rw [if_pos hother, if_pos hother, decide_eq_false (sideWaiting_ne_lockedBySide side)]
      · rw [if_neg hother, if_neg hother, decide_eq_true rfl]

/-- What an operation does to the word. -/
inductive LocalStep (side : LinkSide) (w : UInt32) : LinkOp → UInt32 → Prop
  | unchanged (op : LinkOp) : LocalStep side w op w
  | marked : LocalStep side w .setSideStable (w ||| sideStable side)
  | waits : ¬lockRefused side w → w &&& sideStable side.opposite = 0 →
      LocalStep side w .tryLock (w ||| sideWaiting side)
  | locked : ¬lockRefused side w → w &&& sideStable side.opposite ≠ 0 →
      LocalStep side w .tryLock (w ||| lockedBySide side)
  | unlocked : LocalStep side w .unlock (w &&& ~~~lockedBySide side)
  | reset : LocalStep side w .resetWaitingBit (w &&& ~~~sideWaiting side)

theorem localStep_of_onLocal (h : op.onLocal side w = some (r, w')) : LocalStep side w op w' := by
  cases op with
  | setSideStable =>
      injection h with h
      injection h with _ h
      rw [← h, LocalLinkState.setSideStable]
      split_ifs
      · exact .marked
      · exact .unchanged _
  | tryLock =>
      rw [LinkOp.onLocal, LocalLinkState.tryLock_eq] at h
      split_ifs at h with hrefused hother
      · cases h
        exact .unchanged _
      · cases h
        exact .waits hrefused hother
      · cases h
        exact .locked hrefused hother
  | unlock =>
      cases h
      exact .unlocked
  | resetWaitingBit =>
      injection h with h
      injection h with _ h
      rw [← h]
      show LocalStep side w _ (LocalLinkState.resetWaitingBit side w).2
      rw [LocalLinkState.resetWaitingBit]
      split_ifs
      · exact .unchanged _
      · exact .reset

/-- An operation changes bits of its own only. -/
theorem LocalStep.bits (h : LocalStep side w op w') :
    w' &&& ~~~op.bits side = w &&& ~~~op.bits side := by
  cases h with
  | unchanged op => rfl
  | marked => exact or_and_of_disjoint (by cases side <;> rfl)
  | waits => exact or_and_of_disjoint (by cases side <;> rfl)
  | locked => exact or_and_of_disjoint (by cases side <;> rfl)
  | unlocked => exact andNot_and_of_disjoint (by cases side <;> rfl)
  | reset => exact andNot_and_of_disjoint (by cases side <;> rfl)

/-- A lock bit is gained only where both sides are stable and neither holds the
lock, and by the side that tries to lock. -/
theorem LocalStep.gains_lock (h : LocalStep side w op w') (hw : w &&& lockedBySide s = 0)
    (hw' : w' &&& lockedBySide s ≠ 0) :
    s = side ∧ w &&& stable = stable ∧ w &&& lockedByEither = 0 := by
  have hclear {b : UInt32} (hb : b &&& lockedBySide s = 0) : (w ||| b) &&& lockedBySide s = 0 := by
    rw [or_and_of_disjoint hb, hw]
  have hkeep {b : UInt32} : (w &&& b) &&& lockedBySide s = 0 := by
    rw [UInt32.and_assoc, UInt32.and_comm b, ← UInt32.and_assoc, hw, UInt32.zero_and]
  cases h with
  | unchanged op => exact absurd hw hw'
  | marked => exact absurd (hclear (by cases side <;> cases s <;> rfl)) hw'
  | waits => exact absurd (hclear (by cases side <;> cases s <;> rfl)) hw'
  | locked hrefused hother =>
      simp only [lockRefused, not_or, not_not] at hrefused
      refine ⟨?_, (and_stable_eq w side).mpr ⟨hrefused.2, hother⟩, hrefused.1⟩
      by_contra hs
      exact hw' (hclear (by cases side <;> cases s <;> first | rfl | exact absurd rfl hs))
  | unlocked => exact absurd hkeep hw'
  | reset => exact absurd hkeep hw'

/-- A second lock bit is never set. -/
theorem LocalStep.atMostOneLock (h : LocalStep side w op w') (hw : AtMostOneLock w) :
    AtMostOneLock w' := by
  by_cases ha : w' &&& lockedBySide .a = 0
  · exact Or.inl ha
  · right
    by_contra hb
    -- one of the two bits is new, so neither was set before
    have hnew : w &&& lockedByEither = 0 := by
      obtain hw | hw := hw
      · exact (h.gains_lock hw ha).2.2
      · exact (h.gains_lock hw hb).2.2
    obtain ⟨hwa, hwb⟩ := (and_lockedByEither_eq_zero w).mp hnew
    cases (h.gains_lock hwa ha).1.trans (h.gains_lock hwb hb).1.symm

end Local

/-! ### Words as records -/

namespace LinkStatus

/-- The record that a word stands for. -/
def ofWord (w : UInt32) : LinkStatus where
  stable s := w &&& sideStable s ≠ 0
  waiting s := w &&& sideWaiting s ≠ 0
  locked s := w &&& lockedBySide s ≠ 0

variable {w : UInt32} {side : LinkSide}

/-- Setting the flag of one side. -/
theorem decide_or_update {f : LinkSide → UInt32} (side : LinkSide) (hown : f side &&& f side ≠ 0)
    (hother : f side &&& f side.opposite = 0) :
    (fun s => decide ((w ||| f side) &&& f s ≠ 0)) =
      update (fun s => decide (w &&& f s ≠ 0)) side true := by
  funext s
  by_cases hs : s = side
  · subst hs
    rw [Function.update_self, or_and_distrib]
    exact decide_eq_true fun h => hown (UInt32.or_eq_zero_iff.mp h).2
  · obtain rfl : s = side.opposite := by cases s <;> cases side <;> first | rfl | exact absurd rfl hs
    rw [Function.update_of_ne hs, or_and_of_disjoint hother]

/-- Clearing the flag of one side. -/
theorem decide_andNot_update {f : LinkSide → UInt32} (side : LinkSide)
    (hown : ~~~f side &&& f side = 0) (hother : f side &&& f side.opposite = 0) :
    (fun s => decide ((w &&& ~~~f side) &&& f s ≠ 0)) =
      update (fun s => decide (w &&& f s ≠ 0)) side false := by
  funext s
  by_cases hs : s = side
  · subst hs
    rw [Function.update_self, UInt32.and_assoc, hown, UInt32.and_zero]
    rfl
  · obtain rfl : s = side.opposite := by cases s <;> cases side <;> first | rfl | exact absurd rfl hs
    rw [Function.update_of_ne hs, andNot_and_of_disjoint hother]

/-- Setting flags of another kind. -/
theorem decide_or_of_disjoint {f : LinkSide → UInt32} {b : UInt32} (h : ∀ s, b &&& f s = 0) :
    (fun s => decide ((w ||| b) &&& f s ≠ 0)) = fun s => decide (w &&& f s ≠ 0) := by
  funext s
  rw [or_and_of_disjoint (h s)]

/-- Clearing flags of another kind. -/
theorem decide_andNot_of_disjoint {f : LinkSide → UInt32} {b : UInt32} (h : ∀ s, b &&& f s = 0) :
    (fun s => decide ((w &&& ~~~b) &&& f s ≠ 0)) = fun s => decide (w &&& f s ≠ 0) := by
  funext s
  rw [andNot_and_of_disjoint (h s)]

theorem ofWord_setSideStable (side : LinkSide) (w : UInt32) :
    ofWord (LocalLinkState.setSideStable side w) = (ofWord w).setSideStable side := by
  rw [LocalLinkState.setSideStable]
  split_ifs with h
  · simp only [ofWord, setSideStable, LinkStatus.mk.injEq]
    refine ⟨decide_or_update side ?_ ?_, decide_or_of_disjoint fun s => ?_,
      decide_or_of_disjoint fun s => ?_⟩
    · cases side <;> decide
    · cases side <;> rfl
    · cases side <;> cases s <;> rfl
    · cases side <;> cases s <;> rfl
  · have htrue : true = (ofWord w).stable side := (decide_eq_true h).symm
    rw [setSideStable, htrue, Function.update_eq_self]

theorem ofWord_unlock (side : LinkSide) (w : UInt32) :
    ofWord (LocalLinkState.unlock side w) = (ofWord w).unlock side := by
  simp only [LocalLinkState.unlock, ofWord, unlock, LinkStatus.mk.injEq]
  refine ⟨decide_andNot_of_disjoint fun s => ?_, decide_andNot_of_disjoint fun s => ?_,
    decide_andNot_update side ?_ ?_⟩
  · cases side <;> cases s <;> rfl
  · cases side <;> cases s <;> rfl
  · cases side <;> rfl
  · cases side <;> rfl

theorem ofWord_or_sideWaiting (side : LinkSide) (w : UInt32) :
    ofWord (w ||| sideWaiting side) =
      { ofWord w with waiting := update (ofWord w).waiting side true } := by
  simp only [ofWord, LinkStatus.mk.injEq]
  refine ⟨decide_or_of_disjoint fun s => ?_, decide_or_update side ?_ ?_,
    decide_or_of_disjoint fun s => ?_⟩
  · cases side <;> cases s <;> rfl
  · cases side <;> decide
  · cases side <;> rfl
  · cases side <;> cases s <;> rfl

theorem ofWord_or_lockedBySide (side : LinkSide) (w : UInt32) :
    ofWord (w ||| lockedBySide side) =
      { ofWord w with locked := update (ofWord w).locked side true } := by
  simp only [ofWord, LinkStatus.mk.injEq]
  refine ⟨decide_or_of_disjoint fun s => ?_, decide_or_of_disjoint fun s => ?_,
    decide_or_update side ?_ ?_⟩
  · cases side <;> cases s <;> rfl
  · cases side <;> cases s <;> rfl
  · cases side <;> decide
  · cases side <;> rfl

theorem ofWord_andNot_sideWaiting (side : LinkSide) (w : UInt32) :
    ofWord (w &&& ~~~sideWaiting side) =
      { ofWord w with waiting := update (ofWord w).waiting side false } := by
  simp only [ofWord, LinkStatus.mk.injEq]
  refine ⟨decide_andNot_of_disjoint fun s => ?_, decide_andNot_update side ?_ ?_,
    decide_andNot_of_disjoint fun s => ?_⟩
  · cases side <;> cases s <;> rfl
  · cases side <;> rfl
  · cases side <;> rfl
  · cases side <;> cases s <;> rfl

theorem locked_ofWord : ((ofWord w).locked .a ∨ (ofWord w).locked .b) ↔ w &&& lockedByEither ≠ 0 := by
  simp only [ofWord, decide_eq_true_eq, ne_eq, and_lockedByEither_eq_zero, not_and_or]

theorem ofWord_tryLock (side : LinkSide) (w : UInt32) :
    (LocalLinkState.tryLock side w).map (fun res => (res.1, ofWord res.2)) =
      some ((ofWord w).tryLock side) := by
  have hrefused : ((ofWord w).locked .a ∨ (ofWord w).locked .b ∨ ¬(ofWord w).stable side) ↔
      lockRefused side w := by
    rw [← or_assoc, locked_ofWord, lockRefused]
    simp [ofWord]
  have hother : ¬(ofWord w).stable side.opposite ↔ w &&& sideStable side.opposite = 0 := by
    simp [ofWord]
  rw [LocalLinkState.tryLock_eq, tryLock]
  simp only [hrefused, hother]
  show some _ = some _
  split_ifs
  · rfl
  · exact congrArg (fun st => some (false, st)) (ofWord_or_sideWaiting side w)
  · exact congrArg (fun st => some (true, st)) (ofWord_or_lockedBySide side w)

theorem ofWord_resetWaitingBit (side : LinkSide) (w : UInt32) :
    ((LocalLinkState.resetWaitingBit side w).1, ofWord (LocalLinkState.resetWaitingBit side w).2) =
      (ofWord w).resetWaitingBit side := by
  have hrefused : (¬(ofWord w).stable .a ∨ ¬(ofWord w).stable .b ∨ ¬(ofWord w).waiting side ∨
      (ofWord w).locked .a ∨ (ofWord w).locked .b) ↔ resetRefused side w := by
    have hstable : w &&& RouterLinkStatus.stable ≠ RouterLinkStatus.stable ↔
        ¬(ofWord w).stable .a ∨ ¬(ofWord w).stable .b := by
      rw [ne_eq, and_stable_eq w .a, not_and_or]
      simp [ofWord, LinkSide.opposite]
    rw [← or_assoc, locked_ofWord, resetRefused, hstable]
    simp [ofWord]
  rw [LocalLinkState.resetWaitingBit, resetWaitingBit]
  simp only [hrefused]
  split_ifs
  · rfl
  · rw [ofWord_andNot_sideWaiting]

/-- The operations on records, as routing uses them. -/
def onRecord (side : LinkSide) (st : LinkStatus) : LinkOp → Option Bool × LinkStatus
  | .setSideStable => (none, st.setSideStable side)
  | .tryLock => ((some (st.tryLock side).1), (st.tryLock side).2)
  | .unlock => (none, st.unlock side)
  | .resetWaitingBit => (some (st.resetWaitingBit side).1, (st.resetWaitingBit side).2)

/-- Each operation does to the record what the local one does to the word. -/
theorem ofWord_onLocal (op : LinkOp) (side : LinkSide) (w : UInt32) :
    (op.onLocal side w).map (fun res => (res.1, ofWord res.2)) =
      some ((ofWord w).onRecord side op) := by
  cases op with
  | setSideStable => exact congrArg (fun st => some (none, st)) (ofWord_setSideStable side w)
  | tryLock =>
      have hlock := congrArg (Option.map fun res => (some res.1, res.2)) (ofWord_tryLock side w)
      rw [Option.map_map] at hlock
      rw [LinkOp.onLocal, Option.map_map]
      exact hlock
  | unlock => exact congrArg (fun st => some (none, st)) (ofWord_unlock side w)
  | resetWaitingBit =>
      exact congrArg (fun res => some (some res.1, res.2)) (ofWord_resetWaitingBit side w)

end LinkStatus

/-! ### Compare-exchange loops -/

/-- An operation that runs: the word that its next compare-exchange expects,
and its `desired_bit` or, for the operations that clear a bit, its `desired`
word. -/
structure LinkAttempt where
  op : LinkOp
  side : LinkSide
  expected : UInt32
  desired : UInt32
  deriving DecidableEq

namespace LinkAttempt

/-- The first attempt of each loop. -/
def first (op : LinkOp) (side : LinkSide) : LinkAttempt :=
  match op with
  | .setSideStable => ⟨op, side, 0, sideStable side⟩
  | .tryLock => ⟨op, side, stable, lockedBySide side⟩
  | .unlock => ⟨op, side, stable ||| lockedBySide side, stable⟩
  | .resetWaitingBit => ⟨op, side, stable ||| sideWaiting side, stable⟩

/-- What a successful compare-exchange stores. -/
def new (a : LinkAttempt) : UInt32 :=
  match a.op with
  | .setSideStable | .tryLock => a.expected ||| a.desired
  | .unlock | .resetWaitingBit => a.desired

/-- What the operation returns after a successful compare-exchange. -/
def result (a : LinkAttempt) : Option Bool :=
  match a.op with
  | .tryLock => some (a.desired = lockedBySide a.side)
  | .resetWaitingBit => some true
  | .setSideStable | .unlock => none

/-- What it returns where it gives up. -/
def gaveUp (a : LinkAttempt) : Option Bool :=
  match a.op with
  | .tryLock | .resetWaitingBit => some false
  | .setSideStable | .unlock => none

/-- After a failed compare-exchange: what to try next, if it does not give
up. -/
def retry (a : LinkAttempt) (actual : UInt32) : Option UInt32 :=
  match a.op with
  | .setSideStable => if actual &&& a.desired ≠ 0 then none else some a.desired
  | .tryLock =>
      if lockRefused a.side actual then none else some (nextLockBit a.side actual a.desired)
  | .unlock =>
      if actual &&& lockedBySide a.side = 0 then none
      else some (actual &&& ~~~lockedBySide a.side)
  | .resetWaitingBit =>
      if resetRefused a.side actual then none else some (actual &&& ~~~sideWaiting a.side)

/-- The bit that the loops which set one carry. -/
def KnowsBit (a : LinkAttempt) : Prop :=
  match a.op with
  | .setSideStable => a.desired = sideStable a.side
  | .tryLock => a.desired = lockedBySide a.side ∨ a.desired = sideWaiting a.side
  | .unlock | .resetWaitingBit => True

/-- If the compare-exchange succeeds, it does what the local operation does. -/
structure Ready (a : LinkAttempt) : Prop where
  bit : a.KnowsBit
  onLocal : a.op.onLocal a.side a.expected = some (a.result, a.new)

theorem first_ready (op : LinkOp) (side : LinkSide) : (first op side).Ready := by
  cases op with
  | setSideStable => exact ⟨rfl, by cases side <;> rfl⟩
  | tryLock => exact ⟨Or.inl rfl, by cases side <;> rfl⟩
  | unlock => exact ⟨trivial, by cases side <;> rfl⟩
  | resetWaitingBit => exact ⟨trivial, by cases side <;> rfl⟩

variable {a : LinkAttempt} {actual d : UInt32}

theorem Ready.retry (ha : a.Ready) (h : a.retry actual = some d) :
    ({ a with expected := actual, desired := d } : LinkAttempt).Ready := by
  obtain ⟨op, side, expected, desired⟩ := a
  obtain ⟨hbit, -⟩ := ha
  cases op with
  | setSideStable =>
      simp only [LinkAttempt.retry, Option.ite_none_left_eq_some, not_not] at h
      obtain ⟨hclear, hd⟩ := h
      cases hd
      obtain rfl : d = sideStable side := hbit
      refine ⟨rfl, ?_⟩
      show some (none, LocalLinkState.setSideStable side actual) = _
      rw [LocalLinkState.setSideStable, if_pos hclear]
      rfl
  | tryLock =>
      simp only [LinkAttempt.retry, Option.ite_none_left_eq_some] at h
      obtain ⟨hrefused, hd⟩ := h
      rw [nextLockBit_eq hrefused hbit] at hd
      cases hd
      constructor
      · show _ = _ ∨ _ = _
        split_ifs
        · exact Or.inr rfl
        · exact Or.inl rfl
      · show (LocalLinkState.tryLock side actual).map _ = some (some (decide (_ = _)), actual ||| _)
        rw [LocalLinkState.tryLock_eq, if_neg hrefused]
        split_ifs
        · rw [decide_eq_false (sideWaiting_ne_lockedBySide side)]
          rfl
        · rw [decide_eq_true rfl]
          rfl
  | unlock =>
      simp only [LinkAttempt.retry, Option.ite_none_left_eq_some] at h
      cases h.2
      exact ⟨trivial, rfl⟩
  | resetWaitingBit =>
      simp only [LinkAttempt.retry, Option.ite_none_left_eq_some] at h
      obtain ⟨hrefused, hd⟩ := h
      cases hd
      refine ⟨trivial, ?_⟩
      show some (some (LocalLinkState.resetWaitingBit side actual).1, _) = _
      rw [LocalLinkState.resetWaitingBit, if_neg hrefused]
      rfl

/-- Where an operation gives up, the local one changes nothing. -/
theorem Ready.gaveUp (ha : a.Ready) (h : a.retry actual = none) :
    a.op.onLocal a.side actual = some (a.gaveUp, actual) := by
  obtain ⟨op, side, expected, desired⟩ := a
  obtain ⟨hbit, -⟩ := ha
  cases op with
  | setSideStable =>
      obtain rfl : desired = sideStable side := hbit
      simp only [LinkAttempt.retry, ite_eq_left_iff, not_not, reduceCtorEq, imp_false] at h
      show some (none, LocalLinkState.setSideStable side actual) = _
      rw [LocalLinkState.setSideStable, if_neg h]
      rfl
  | tryLock =>
      simp only [LinkAttempt.retry, ite_eq_left_iff, not_not, reduceCtorEq, imp_false] at h
      show (LocalLinkState.tryLock side actual).map _ = _
      rw [LocalLinkState.tryLock_eq, if_pos h]
      rfl
  | unlock =>
      simp only [LinkAttempt.retry, ite_eq_left_iff, not_not, reduceCtorEq, imp_false] at h
      show some (none, actual &&& ~~~lockedBySide side) = some (none, actual)
      rw [UInt32.and_comm, not_and_of_disjoint (UInt32.and_comm _ _ ▸ h)]
  | resetWaitingBit =>
      simp only [LinkAttempt.retry, ite_eq_left_iff, not_not, reduceCtorEq, imp_false] at h
      show some (some (LocalLinkState.resetWaitingBit side actual).1, _) = _
      rw [LocalLinkState.resetWaitingBit, if_pos h]
      rfl

end LinkAttempt

/-! ### Threads on one word -/

variable {θ : Type} [DecidableEq θ]

/-- A completed operation. -/
structure CompletedOp (θ : Type) where
  thread : θ
  op : LinkOp
  side : LinkSide
  result : Option Bool
  deriving DecidableEq

/-- The word, what each thread runs, and the operations completed so far. -/
structure SharedLinkState (θ : Type) where
  status : UInt32
  running : θ → Option LinkAttempt
  completed : List (CompletedOp θ)

/-- What can happen next. -/
inductive LinkMove (θ : Type)
  | start (t : θ) (op : LinkOp) (side : LinkSide)
  | compareExchange (t : θ) (spurious : Bool)
  deriving DecidableEq, Repr

namespace SharedLinkState

/-- No operation running. -/
def init (status : UInt32) : SharedLinkState θ := ⟨status, fun _ => none, []⟩

/-- Thread `t` returns `result` from `a` and leaves the word at `status`. -/
def finish (s : SharedLinkState θ) (t : θ) (a : LinkAttempt) (result : Option Bool)
    (status : UInt32) : SharedLinkState θ where
  status := status
  running := update s.running t none
  completed := s.completed ++ [⟨t, a.op, a.side, result⟩]

/-- One load or compare-exchange of a thread. -/
def step (s : SharedLinkState θ) : LinkMove θ → SharedLinkState θ
  | .start t op side =>
      match s.running t with
      | none => { s with running := update s.running t (some (.first op side)) }
      | some _ => s
  | .compareExchange t spurious =>
      match s.running t with
      | none => s
      | some a =>
          if s.status = a.expected ∧ spurious = false then s.finish t a a.result a.new
          else
            match a.retry s.status with
            | none => s.finish t a a.gaveUp s.status
            | some d =>
                let next := { a with expected := s.status, desired := d }
                { s with running := update s.running t (some next) }

/-- Every attempt is ready. -/
def Ready (s : SharedLinkState θ) : Prop := ∀ t a, s.running t = some a → a.Ready

/-- Nothing happens to the word, or one thread completes its operation: the
local operation, applied to the word at this moment, returns the result and
leaves the new word. -/
def Atomic (s s' : SharedLinkState θ) : Prop :=
  s'.status = s.status ∧ s'.completed = s.completed ∨
    ∃ t a result, s.running t = some a ∧ s' = s.finish t a result s'.status ∧
      a.op.onLocal a.side s.status = some (result, s'.status)

/-- The completed operations, one by one on a word of their own: the word they
leave, if they return what they are recorded to have returned. -/
def replay (status : UInt32) : List (CompletedOp θ) → Option UInt32
  | [] => some status
  | c :: cs => do
      let res ← c.op.onLocal c.side status
      if res.1 = c.result then replay res.2 cs else none

variable {s s' : SharedLinkState θ} {status : UInt32} {side : LinkSide}

theorem Ready.set (hs : s.Ready) (t : θ) {o : Option LinkAttempt} (ho : ∀ a ∈ o, a.Ready)
    (status : UInt32) (completed : List (CompletedOp θ)) :
    (⟨status, update s.running t o, completed⟩ : SharedLinkState θ).Ready := by
  intro t' a h
  dsimp only at h
  by_cases ht : t' = t
  · subst ht
    rw [Function.update_self] at h
    exact ho a h
  · rw [Function.update_of_ne ht] at h
    exact hs t' a h

omit [DecidableEq θ] in
theorem init_ready (status : UInt32) : (init status : SharedLinkState θ).Ready := by
  intro t a h
  cases h

theorem step_ready (hs : s.Ready) (m : LinkMove θ) : (s.step m).Ready := by
  cases m with
  | start t op side =>
      rw [step]
      split
      · apply hs.set t
        rintro a ⟨rfl⟩
        exact LinkAttempt.first_ready op side
      · exact hs
  | compareExchange t spurious =>
      rw [step]
      split
      · exact hs
      next a ha =>
        split_ifs
        · exact hs.set t (o := none) (by simp) _ _
        · split
          · exact hs.set t (o := none) (by simp) _ _
          next d hd =>
            apply hs.set t
            rintro a' ⟨rfl⟩
            exact (hs t a ha).retry hd

theorem step_atomic (hs : s.Ready) (m : LinkMove θ) : s.Atomic (s.step m) := by
  cases m with
  | start t op side =>
      left
      rw [step]
      split <;> exact ⟨rfl, rfl⟩
  | compareExchange t spurious =>
      rw [step]
      split
      · exact Or.inl ⟨rfl, rfl⟩
      next a ha =>
        split_ifs with heq
        · refine Or.inr ⟨t, a, a.result, ha, rfl, ?_⟩
          rw [heq.1]
          exact (hs t a ha).onLocal
        · split
          next hgave => exact Or.inr ⟨t, a, a.gaveUp, ha, rfl, (hs t a ha).gaveUp hgave⟩
          · exact Or.inl ⟨rfl, rfl⟩

omit [DecidableEq θ] in
theorem replay_append (status : UInt32) (cs cs' : List (CompletedOp θ)) :
    replay status (cs ++ cs') = (replay status cs).bind fun w => replay w cs' := by
  induction cs generalizing status with
  | nil => rfl
  | cons c cs ih =>
      rw [List.cons_append, replay, replay]
      cases c.op.onLocal c.side status with
      | none => rfl
      | some res =>
          show (if _ then _ else _) = (if _ then _ else _ : Option UInt32).bind _
          split_ifs
          · exact ih res.2
          · rfl

/-- A step that is atomic is replayed. -/
theorem Atomic.replay (h : s.Atomic s') (hs : replay status s.completed = some s.status) :
    SharedLinkState.replay status s'.completed = some s'.status := by
  obtain ⟨hstatus, hcompleted⟩ | ⟨t, a, result, -, hfinish, honLocal⟩ := h
  · rw [hstatus, hcompleted, hs]
  · have hcompleted : s'.completed = s.completed ++ [⟨t, a.op, a.side, result⟩] := by
      rw [hfinish]
      rfl
    rw [hcompleted, replay_append, hs]
    show (a.op.onLocal a.side s.status).bind _ = _
    rw [honLocal]
    exact if_pos rfl

/-- The operation of an atomic step. -/
theorem Atomic.localStep (h : s.Atomic s') :
    s'.status = s.status ∨
      ∃ t a, s.running t = some a ∧ LocalStep a.side s.status a.op s'.status := by
  obtain ⟨hstatus, -⟩ | ⟨t, a, result, ha, -, honLocal⟩ := h
  · exact Or.inl hstatus
  · exact Or.inr ⟨t, a, ha, localStep_of_onLocal honLocal⟩

theorem exec_ready (status : UInt32) (moves : List (LinkMove θ)) :
    (exec step (init status : SharedLinkState θ) moves).Ready :=
  (always_of_step (P := Ready) (fun _ m hs => step_ready hs m) (init_ready status) moves).last

/-- Every run of the threads is a run of the local operations, in the order in
which they completed. -/
theorem replay_exec (status : UInt32) (moves : List (LinkMove θ)) :
    replay status (exec step (init status : SharedLinkState θ) moves).completed =
      some (exec step (init status : SharedLinkState θ) moves).status := by
  have hinv := always_of_step
    (P := fun s : SharedLinkState θ => s.Ready ∧ replay status s.completed = some s.status)
    (fun s m hs => ⟨step_ready hs.1 m, (step_atomic hs.1 m).replay hs.2⟩)
    ⟨init_ready status, rfl⟩ moves
  exact hinv.last.2

/-- The completed operations, one by one on a record. -/
def replayRecord (st : LinkStatus) : List (CompletedOp θ) → Option LinkStatus
  | [] => some st
  | c :: cs =>
      let res := st.onRecord c.side c.op
      if res.1 = c.result then replayRecord res.2 cs else none

omit [DecidableEq θ] in
theorem replayRecord_ofWord {w : UInt32} {cs : List (CompletedOp θ)}
    (h : replay status cs = some w) : replayRecord (.ofWord status) cs = some (.ofWord w) := by
  induction cs generalizing status with
  | nil => exact congrArg (Option.map LinkStatus.ofWord) h
  | cons c cs ih =>
      have hrecord := LinkStatus.ofWord_onLocal c.op c.side status
      rw [replay] at h
      cases honLocal : c.op.onLocal c.side status with
      | none =>
          rw [honLocal] at h
          cases h
      | some res =>
          rw [honLocal] at h hrecord
          have h : (if res.1 = c.result then replay res.2 cs else none) = some w := h
          rw [replayRecord, ← Option.some.inj hrecord]
          split_ifs at h ⊢
          exact ih h

/-- Every run of the threads is a run of the operations on records. -/
theorem replayRecord_exec (status : UInt32) (moves : List (LinkMove θ)) :
    replayRecord (.ofWord status) (exec step (init status : SharedLinkState θ) moves).completed =
      some (.ofWord (exec step (init status : SharedLinkState θ) moves).status) :=
  replayRecord_ofWord (replay_exec status moves)

/-- Two lock bits are never set if they were not at the start. -/
theorem exec_atMostOneLock (h : AtMostOneLock status) (moves : List (LinkMove θ)) :
    AtMostOneLock (exec step (init status : SharedLinkState θ) moves).status := by
  have hinv := always_of_step
    (P := fun s : SharedLinkState θ => s.Ready ∧ AtMostOneLock s.status)
    (fun s m hs => ⟨step_ready hs.1 m, ?_⟩) ⟨init_ready status, h⟩ moves
  · exact hinv.last.2
  · obtain hsame | ⟨t, a, -, hstep⟩ := (step_atomic hs.1 m).localStep
    · rw [hsame]
      exact hs.2
    · exact hstep.atMostOneLock hs.2

/-- Whatever the word was at the start, every step of every run is atomic; a
lock bit is gained only on a stable unlocked link, an operation changes bits of
its own only, and the completed operations replay as local ones. -/
theorem status_refines_local (status : UInt32) (moves : List (LinkMove θ)) (m : LinkMove θ) :
    let s : SharedLinkState θ := exec step (init status) moves
    let s' := s.step m
    s.Atomic s' ∧ replay status s.completed = some s.status ∧
      (∀ side, s.status &&& lockedBySide side = 0 → s'.status &&& lockedBySide side ≠ 0 →
        s.status &&& stable = stable ∧ s.status &&& lockedByEither = 0) ∧
      (s'.status = s.status ∨ ∃ t a, s.running t = some a ∧
        s'.status &&& ~~~a.op.bits a.side = s.status &&& ~~~a.op.bits a.side) ∧
      (AtMostOneLock status → AtMostOneLock s.status) := by
  intro s s'
  have hatomic : s.Atomic s' := step_atomic (exec_ready status moves) m
  refine ⟨hatomic, replay_exec status moves, ?_, ?_, fun h => exec_atMostOneLock h moves⟩
  · intro side hw hw'
    obtain hsame | ⟨t, a, -, hstep⟩ := hatomic.localStep
    · rw [hsame] at hw'
      exact absurd hw hw'
    · exact (hstep.gains_lock hw hw').2
  · obtain hsame | ⟨t, a, ha, hstep⟩ := hatomic.localStep
    · exact Or.inl hsame
    · exact Or.inr ⟨t, a, ha, hstep.bits⟩

/-- Both sides try to lock a stable link, one of them after a spurious
failure. -/
def lockRace : List (LinkMove LinkSide) :=
  [.start .a .tryLock .a, .start .b .tryLock .b, .compareExchange .a true, .compareExchange .b false]

theorem lockRace_refines :
    replay stable (exec step (init stable) lockRace).completed = some (stable ||| 32) ∧
      AtMostOneLock (exec step (init stable) lockRace).status := by
  obtain ⟨-, hreplay, -, -, hlock⟩ := status_refines_local stable lockRace (.compareExchange .a false)
  exact ⟨hreplay, hlock (by decide)⟩

/-- A word that starts with both lock bits keeps them. -/
theorem bothLocked_stays :
    ¬AtMostOneLock (exec step (init (stable ||| lockedByEither)) lockRace).status := by
  decide

end SharedLinkState

end MojoRs.Ipcz
