/-
MojoRs/Ipcz/SequencedQueue.lean

The parcel queue as a sequenced queue (`ParcelQueue` in `router.rs`): any
pushes, pops and final lengths, in any order, from any starting number.

A run keeps, beside the queue, the parcels that were pushed and those that were
popped.  The queue is in sequence when it pops consecutive numbers, each with
the first parcel that was pushed under it, and knows how far it has received
without a gap; numbers have to fit the 64 bits of the code's counters.  It
answers properly when it refuses what it has received already, what stands at
or behind the final length, and a second or too short final length.

Main results:
* `currentSequenceLength_spec` — the end of the contiguous span;
* `sequenced_iff` — a run is in sequence and properly answered just if no parcel
  is pushed while one of its number is waiting, or behind the final length, and
  no final length is set over another one or over parcels that are waiting.
-/
import Mathlib.Data.List.Perm.Subperm
import Mathlib.Data.List.Nodup
import MojoRs.Ipcz.Router
import MojoRs.Lib.Run

namespace MojoRs.Ipcz

open Lib

/-! ### The contiguous span -/

namespace ParcelMap

theorem le_spanEnd (m : ParcelMap) (fuel n : Nat) : n ≤ m.spanEnd fuel n := by
  induction fuel generalizing n with
  | zero => exact Nat.le_refl n
  | succ fuel ih =>
      rw [spanEnd]
      split
      · exact Nat.le_trans (Nat.le_succ n) (ih (n + 1))
      · exact Nat.le_refl n

/-- Every number of the span has a parcel. -/
theorem isSome_of_lt_spanEnd (m : ParcelMap) {fuel n k : Nat} (hk : n ≤ k)
    (hlt : k < m.spanEnd fuel n) : (m.get? k).isSome := by
  induction fuel generalizing n with
  | zero => exact absurd hlt (Nat.not_lt.mpr hk)
  | succ fuel ih =>
      rw [spanEnd] at hlt
      split at hlt
      · rename_i hn
        rcases Nat.eq_or_lt_of_le hk with rfl | hk
        · exact hn
        · exact ih hk hlt
      · exact absurd hlt (Nat.not_lt.mpr hk)

/-- The span stops at a gap, or when the fuel is spent. -/
theorem spanEnd_stops (m : ParcelMap) (fuel n : Nat) :
    m.spanEnd fuel n = n + fuel ∨ m.get? (m.spanEnd fuel n) = none := by
  induction fuel generalizing n with
  | zero => exact .inl rfl
  | succ fuel ih =>
      rw [spanEnd]
      split
      · refine (ih (n + 1)).imp_left fun h => h.trans ?_
        rw [Nat.add_assoc, Nat.add_comm 1]
      · rename_i hn
        exact .inr (Option.not_isSome_iff_eq_none.mp hn)

theorem mem_of_get? {m : ParcelMap} {n : Nat} {p : Parcel} (h : m.get? n = some p) :
    p ∈ m ∧ p.sequenceNumber = n :=
  ⟨List.mem_of_find?_eq_some h, by simpa using List.find?_some h⟩

theorem isSome_get?_iff {m : ParcelMap} {n : Nat} :
    (m.get? n).isSome ↔ ∃ p ∈ m, p.sequenceNumber = n := by
  simp [get?]

theorem isSome_get?_insert {p : Parcel} {m : ParcelMap} {n : Nat} :
    ((insert p m).get? n).isSome ↔ n = p.sequenceNumber ∨ (m.get? n).isSome := by
  rw [get?_insert]
  split
  · rename_i h
    simp [h]
  · rename_i h
    simp [Ne.symm h]

/-- A map of `k` parcels does not fill `k + 1` numbers. -/
theorem exists_gap (m : ParcelMap) (n : Nat) : ∃ k, n ≤ k ∧ k ≤ n + m.length ∧ m.get? k = none := by
  by_contra hfull
  have hall : ∀ k, n ≤ k → k ≤ n + m.length → (m.get? k).isSome := by
    intro k h₁ h₂
    by_contra hk
    exact hfull ⟨k, h₁, h₂, Option.not_isSome_iff_eq_none.mp hk⟩
  have hsub : List.range' n (m.length + 1) ⊆ m.map (·.sequenceNumber) := by
    intro k hk
    obtain ⟨h₁, h₂⟩ := List.mem_range'_1.mp hk
    obtain ⟨p, hp, rfl⟩ := isSome_get?_iff.mp (hall k h₁ (by omega))
    exact List.mem_map_of_mem hp
  have hlen := (List.subperm_of_subset (List.nodup_range' ..) hsub).length_le
  rw [List.length_range', List.length_map] at hlen
  exact absurd hlen (Nat.not_le.mpr (Nat.lt_succ_self _))

end ParcelMap

namespace ParcelQueue

/-- `get_current_sequence_length` is the end of the span that begins at the
current number. -/
theorem currentSequenceLength_spec (q : ParcelQueue) :
    q.current ≤ q.currentSequenceLength ∧
      (∀ k, q.current ≤ k → k < q.currentSequenceLength → (q.buffer.get? k).isSome) ∧
      q.buffer.get? q.currentSequenceLength = none := by
  refine ⟨q.buffer.le_spanEnd _ _, fun k h₁ h₂ => q.buffer.isSome_of_lt_spanEnd h₁ h₂, ?_⟩
  refine (q.buffer.spanEnd_stops _ _).elim (fun hend => ?_) id
  -- all the fuel was spent on parcels, so that none is left
  obtain ⟨k, h₁, h₂, hk⟩ := q.buffer.exists_gap q.current
  rcases Nat.eq_or_lt_of_le h₂ with rfl | hlt
  · rw [currentSequenceLength, hend]
    exact hk
  · have hsome := q.buffer.isSome_of_lt_spanEnd h₁ (hend ▸ hlt)
    rw [hk] at hsome
    cases hsome

/-- With `n`, every number from the current one to the last of 64 bits has a
parcel. -/
def FillsUp (q : ParcelQueue) (n : Nat) : Prop :=
  ∀ k, q.current ≤ k → k < 2 ^ 64 → k = n ∨ (q.buffer.get? k).isSome

/-- A parcel more keeps the span within 64 bits unless it fills it up. -/
theorem fits_insert_iff (q : ParcelQueue) (p : Parcel) :
    ({ q with buffer := ParcelMap.insert p q.buffer } : ParcelQueue).currentSequenceLength <
        2 ^ 64 ↔ ¬ q.FillsUp p.sequenceNumber := by
  obtain ⟨hle, hspan, hend⟩ := ParcelQueue.currentSequenceLength_spec
    { q with buffer := ParcelMap.insert p q.buffer }
  constructor
  · intro hlt hfull
    have hsome := ParcelMap.isSome_get?_insert.mpr (hfull _ hle hlt)
    rw [hend] at hsome
    cases hsome
  · intro hfull
    by_contra hlt
    exact hfull fun k h₁ h₂ => ParcelMap.isSome_get?_insert.mp (hspan k h₁ (by omega))

theorem pop_eq {q q' : ParcelQueue} {p : Parcel} (h : q.pop = some (p, q')) :
    q.buffer.get? q.current = some p ∧
      q' = { q with current := q.current + 1, buffer := q.buffer.erase q.current } := by
  unfold pop at h
  cases hbuf : q.buffer.get? q.current with
  | none =>
      rw [hbuf] at h
      cases h
  | some p' =>
      rw [hbuf] at h
      cases h
      exact ⟨rfl, rfl⟩

theorem pop_length {q q' : ParcelQueue} {p : Parcel} (h : q.pop = some (p, q')) :
    q'.buffer.length + 1 ≤ q.buffer.length := by
  obtain ⟨hbuf, rfl⟩ := pop_eq h
  obtain ⟨hmem, hnum⟩ := ParcelMap.mem_of_get? hbuf
  exact List.length_filter_lt_length_iff_exists.mpr ⟨p, hmem, by simp [hnum]⟩

/-- A pop receives nothing. -/
theorem currentSequenceLength_pop {q q' : ParcelQueue} {p : Parcel} (h : q.pop = some (p, q')) :
    q'.currentSequenceLength ≤ q.currentSequenceLength := by
  obtain ⟨hbuf, rfl⟩ := pop_eq h
  obtain ⟨-, hspan, -⟩ := currentSequenceLength_spec
    { q with current := q.current + 1, buffer := q.buffer.erase q.current }
  obtain ⟨hle, -, hend⟩ := q.currentSequenceLength_spec
  have hne : q.current ≠ q.currentSequenceLength := by
    intro heq
    rw [← heq, hbuf] at hend
    cases hend
  -- the first number that is missing is missing afterwards
  by_contra hlt
  have hsome : ((q.buffer.erase q.current).get? q.currentSequenceLength).isSome :=
    hspan _ (Nat.lt_of_le_of_ne hle hne) (Nat.not_le.mp hlt)
  rw [ParcelMap.get?_erase, if_neg hne, hend] at hsome
  cases hsome

end ParcelQueue

/-! ### Runs -/

/-- An operation on a queue. -/
inductive QueueOp
  | push (p : Parcel)
  | pop
  | setFinal (n : Nat)

/-- A queue with its history: where it started, every parcel pushed so far, and
every parcel popped. -/
structure QueueRun where
  start : Nat
  queue : ParcelQueue
  pushed : List Parcel
  popped : List Parcel

namespace QueueRun

/-- A queue from `start` on, nothing pushed. -/
def init (start : UInt64) : QueueRun := ⟨start.toNat, .resetSequence start.toNat, [], []⟩

/-- One call on the queue. -/
def step (s : QueueRun) : QueueOp → QueueRun
  | .push p => { s with queue := (s.queue.push p).getD s.queue, pushed := s.pushed ++ [p] }
  | .pop =>
      match s.queue.pop with
      | some (p, q) => { s with queue := q, popped := s.popped ++ [p] }
      | none => s
  | .setFinal n => { s with queue := (s.queue.setFinalSequenceLength n).getD s.queue }

/-- The number has been received: popped, or buffered. -/
def Received (s : QueueRun) (n : Nat) : Prop :=
  (∃ p ∈ s.popped, p.sequenceNumber = n) ∨ (s.queue.buffer.get? n).isSome

/-- The first parcel that was pushed under a number. -/
def firstPushed (s : QueueRun) (n : Nat) : Option Parcel :=
  s.pushed.find? (·.sequenceNumber == n)

/-- The pops have yielded consecutive numbers, each with the first parcel pushed
under it, and the sequence length is the length received without a gap. -/
structure InSequence (s : QueueRun) : Prop where
  consecutive : s.popped.map (·.sequenceNumber) = List.range' s.start s.popped.length
  first : ∀ p ∈ s.popped, s.firstPushed p.sequenceNumber = some p
  start_le : s.start ≤ s.queue.currentSequenceLength
  received : ∀ k, s.start ≤ k → k < s.queue.currentSequenceLength → s.Received k
  missing : ¬ s.Received s.queue.currentSequenceLength
  /-- The counter is a `u64`. -/
  fits : s.queue.currentSequenceLength < 2 ^ 64

/-- A push of what has been received already, or at or behind the final length,
is refused; a final length is accepted only as the first one, and behind all
that has been received. -/
def Answers (s : QueueRun) : QueueOp → Prop
  | .push p =>
      (s.Received p.sequenceNumber ∨
          ∃ len, s.queue.finalLength = some len ∧ len ≤ p.sequenceNumber) →
        s.queue.push p = none ∧ (s.step (.push p)).queue = s.queue
  | .pop => True
  | .setFinal n =>
      (s.queue.setFinalSequenceLength n).isSome →
        s.queue.finalLength = none ∧ ∀ k, s.Received k → k < n

/-- The queue is not asked for more than it checks: a parcel is stale, or new
and below the final length; a final length is stale, or the first one and above
every parcel that waits. -/
def Fresh (s : QueueRun) : QueueOp → Prop
  | .push p =>
      p.sequenceNumber < s.queue.current ∨
        s.queue.buffer.get? p.sequenceNumber = none ∧
          (∀ len, s.queue.finalLength = some len → p.sequenceNumber < len) ∧
          ¬ s.queue.FillsUp p.sequenceNumber
  | .pop => True
  | .setFinal n =>
      n < s.queue.current ∨
        s.queue.finalLength = none ∧ ∀ p ∈ s.queue.buffer, p.sequenceNumber < n

/-! ### One step -/

/-- How the queue follows its history. -/
structure Tracks (s : QueueRun) : Prop where
  current : s.queue.current = s.start + s.popped.length
  consecutive : s.popped.map (·.sequenceNumber) = List.range' s.start s.popped.length
  first : ∀ p ∈ s.popped, s.firstPushed p.sequenceNumber = some p
  buffered : ∀ n p, s.queue.buffer.get? n = some p →
    s.queue.current ≤ n ∧ s.firstPushed n = some p
  kept : ∀ p ∈ s.pushed, p.sequenceNumber < s.queue.current ∨
    (s.queue.buffer.get? p.sequenceNumber).isSome
  fits : s.queue.currentSequenceLength < 2 ^ 64

theorem firstPushed_push {s : QueueRun} (p : Parcel) {n : Nat} {q : Parcel}
    (h : s.firstPushed n = some q) : (s.step (.push p)).firstPushed n = some q := by
  show (s.pushed ++ [p]).find? _ = _
  rw [List.find?_append, show s.pushed.find? (·.sequenceNumber == n) = some q from h]
  rfl

/-- What has been received: the numbers that were popped, and what waits. -/
theorem Tracks.received_iff {s : QueueRun} (h : s.Tracks) {n : Nat} :
    s.Received n ↔ s.start ≤ n ∧ n < s.queue.current ∨ (s.queue.buffer.get? n).isSome := by
  refine or_congr_left ?_
  have hmem : (∃ p ∈ s.popped, p.sequenceNumber = n) ↔ n ∈ s.popped.map (·.sequenceNumber) := by
    simp
  rw [hmem, h.consecutive, List.mem_range'_1, h.current]

theorem Tracks.lt_or_buffered {s : QueueRun} (h : s.Tracks) {n : Nat} (hn : s.Received n) :
    n < s.queue.current ∨ (s.queue.buffer.get? n).isSome :=
  (h.received_iff.mp hn).imp_left (·.2)

theorem Tracks.inSequence {s : QueueRun} (h : s.Tracks) : s.InSequence where
  consecutive := h.consecutive
  first := h.first
  start_le := by
    have hle := s.queue.currentSequenceLength_spec.1
    have hcurrent := h.current
    omega
  received := by
    intro k h₁ h₂
    by_cases hk : k < s.queue.current
    · exact h.received_iff.mpr (.inl ⟨h₁, hk⟩)
    · exact .inr (s.queue.currentSequenceLength_spec.2.1 k (Nat.not_lt.mp hk) h₂)
  missing := by
    intro hn
    obtain ⟨hle, -, hnone⟩ := s.queue.currentSequenceLength_spec
    rcases h.lt_or_buffered hn with hlt | hsome
    · exact absurd hlt (Nat.not_lt.mpr hle)
    · rw [hnone] at hsome
      cases hsome
  fits := h.fits

/-- A stale push is refused, every other one accepted. -/
theorem push_eq (q : ParcelQueue) (p : Parcel) :
    (p.sequenceNumber < q.current ∧ q.push p = none) ∨
      (q.current ≤ p.sequenceNumber ∧
        q.push p = some { q with buffer := ParcelMap.insert p q.buffer }) := by
  by_cases h : p.sequenceNumber < q.current
  · exact .inl ⟨h, if_pos h⟩
  · exact .inr ⟨Nat.not_lt.mp h, if_neg h⟩

theorem setFinalSequenceLength_eq (q : ParcelQueue) (n : Nat) :
    (n < q.current ∧ q.setFinalSequenceLength n = none) ∨
      (q.current ≤ n ∧ q.setFinalSequenceLength n = some { q with finalLength := some n }) := by
  by_cases h : n < q.current
  · exact .inl ⟨h, if_pos h⟩
  · exact .inr ⟨Nat.not_lt.mp h, if_neg h⟩

/-- An operation that is fresh keeps track, and is answered properly. -/
theorem Tracks.push {s : QueueRun} (h : s.Tracks) {p : Parcel} (hfresh : s.Fresh (.push p)) :
    (s.step (.push p)).Tracks ∧ s.Answers (.push p) := by
  rcases push_eq s.queue p with ⟨hlt, hpush⟩ | ⟨hle, hpush⟩
  · -- stale
    have hqueue : (s.step (.push p)).queue = s.queue := by
      show (s.queue.push p).getD s.queue = _
      rw [hpush]
      rfl
    refine ⟨⟨?_, h.consecutive, fun q hq => firstPushed_push p (h.first q hq), ?_, ?_, ?_⟩,
      fun _ => ⟨hpush, hqueue⟩⟩
    · rw [hqueue]
      exact h.current
    · intro n q hq
      rw [hqueue] at hq ⊢
      exact (h.buffered n q hq).imp_right (firstPushed_push p)
    · intro q hq
      rw [hqueue]
      rcases List.mem_append.mp hq with hq | hq
      · exact h.kept q hq
      · rw [List.mem_singleton.mp hq]
        exact .inl hlt
    · rw [hqueue]
      exact h.fits
  · -- new
    obtain ⟨hnone, hfinal, hfull⟩ := hfresh.resolve_left (Nat.not_lt.mpr hle)
    have hqueue : (s.step (.push p)).queue =
        { s.queue with buffer := ParcelMap.insert p s.queue.buffer } := by
      show (s.queue.push p).getD s.queue = _
      rw [hpush]
      rfl
    have hfirst : (s.step (.push p)).firstPushed p.sequenceNumber = some p := by
      show (s.pushed ++ [p]).find? _ = _
      have hold : s.pushed.find? (·.sequenceNumber == p.sequenceNumber) = none := by
        rw [List.find?_eq_none]
        intro q hq heq
        have hnum : q.sequenceNumber = p.sequenceNumber := by simpa using heq
        rcases h.kept q hq with hlt | hsome
        · exact absurd (hnum ▸ hlt) (Nat.not_lt.mpr hle)
        · rw [hnum, hnone] at hsome
          cases hsome
      rw [List.find?_append, hold]
      simp
    have hfirsts := fun q hq => firstPushed_push p (h.first q hq)
    refine ⟨⟨?_, h.consecutive, hfirsts, ?_, ?_, ?_⟩, ?_⟩
    · rw [hqueue]
      exact h.current
    · intro n q hq
      rw [hqueue] at hq ⊢
      have hq' : (ParcelMap.insert p s.queue.buffer).get? n = some q := hq
      rw [ParcelMap.get?_insert] at hq'
      split at hq'
      · rename_i hn
        cases hq'
        subst hn
        exact ⟨hle, hfirst⟩
      · exact (h.buffered n q hq').imp_right (firstPushed_push p)
    · intro q hq
      rw [hqueue]
      rcases List.mem_append.mp hq with hq | hq
      · exact (h.kept q hq).imp_right fun hsome => ParcelMap.isSome_get?_insert.mpr (.inr hsome)
      · rw [List.mem_singleton.mp hq]
        exact .inr (ParcelMap.isSome_get?_insert.mpr (.inl rfl))
    · rw [hqueue]
      exact (ParcelQueue.fits_insert_iff _ _).mpr hfull
    · rintro (hn | ⟨len, hlen, hge⟩)
      · rcases h.lt_or_buffered hn with hlt | hsome
        · exact absurd hlt (Nat.not_lt.mpr hle)
        · rw [hnone] at hsome
          cases hsome
      · exact absurd (hfinal len hlen) (Nat.not_lt.mpr hge)

theorem Tracks.pop {s : QueueRun} (h : s.Tracks) : (s.step .pop).Tracks := by
  unfold step
  cases hpop : s.queue.pop with
  | none => exact h
  | some x =>
      obtain ⟨p, q⟩ := x
      obtain ⟨hbuf, hq⟩ := ParcelQueue.pop_eq hpop
      have hnum : p.sequenceNumber = s.queue.current := (ParcelMap.mem_of_get? hbuf).2
      -- the parcel popped has the current number, so the run goes on by one
      refine ⟨?_, ?_, ?_, ?_, ?_, ?_⟩
      · show q.current = s.start + (s.popped ++ [p]).length
        rw [List.length_append, hq, h.current]
        rfl
      · show (s.popped ++ [p]).map _ = List.range' s.start (s.popped ++ [p]).length
        rw [List.map_append, h.consecutive, List.length_append, List.length_singleton,
          List.range'_concat]
        simp [hnum, h.current]
      · intro r hr
        rcases List.mem_append.mp hr with hr | hr
        · exact h.first r hr
        · rw [List.mem_singleton.mp hr, hnum]
          exact (h.buffered _ p hbuf).2
      -- what is buffered is above, for the one at the current number is gone
      · intro n r hr
        have hr' : (s.queue.buffer.erase s.queue.current).get? n = some r := by
          rw [hq] at hr
          exact hr
        rw [ParcelMap.get?_erase] at hr'
        split at hr'
        · cases hr'
        · rename_i hne
          obtain ⟨hle, hfirst⟩ := h.buffered n r hr'
          refine ⟨?_, hfirst⟩
          rw [hq]
          exact Nat.lt_of_le_of_ne hle hne
      -- a parcel kept so far is buffered still, or was the one popped
      · intro r hr
        show _ < q.current ∨ (q.buffer.get? _).isSome
        rw [hq]
        show _ < s.queue.current + 1 ∨ ((s.queue.buffer.erase s.queue.current).get? _).isSome
        rw [ParcelMap.get?_erase]
        rcases h.kept r hr with hlt | hsome
        · exact .inl (Nat.lt_succ_of_lt hlt)
        · by_cases heq : s.queue.current = r.sequenceNumber
          · exact .inl (heq ▸ Nat.lt_succ_self _)
          · rw [if_neg heq]
            exact .inr hsome
      · exact Nat.lt_of_le_of_lt (ParcelQueue.currentSequenceLength_pop hpop) h.fits

theorem Tracks.setFinal {s : QueueRun} (h : s.Tracks) (n : Nat) :
    (s.step (.setFinal n)).Tracks := by
  have hqueue : (s.step (.setFinal n)).queue =
      (s.queue.setFinalSequenceLength n).getD s.queue := rfl
  rcases setFinalSequenceLength_eq s.queue n with ⟨-, hset⟩ | ⟨-, hset⟩
  all_goals
    rw [hset] at hqueue
    refine ⟨?_, h.consecutive, h.first, ?_, ?_, ?_⟩
    · rw [hqueue]
      exact h.current
    · rw [hqueue]
      exact h.buffered
    · rw [hqueue]
      exact h.kept
    · rw [hqueue]
      exact h.fits

theorem Tracks.step {s : QueueRun} (h : s.Tracks) {op : QueueOp} (hfresh : s.Fresh op) :
    (s.step op).Tracks := by
  cases op with
  | push p => exact (h.push hfresh).1
  | pop => exact h.pop
  | setFinal n => exact h.setFinal n

/-- A fresh operation is answered properly. -/
theorem Tracks.answers {s : QueueRun} (h : s.Tracks) {op : QueueOp} (hfresh : s.Fresh op) :
    s.Answers op := by
  cases op with
  | push p => exact (h.push hfresh).2
  | pop => trivial
  | setFinal n =>
      intro haccepted
      rcases setFinalSequenceLength_eq s.queue n with ⟨-, hset⟩ | ⟨hle, -⟩
      · rw [hset] at haccepted
        cases haccepted
      · obtain ⟨hfinal, hbuffer⟩ := hfresh.resolve_left (Nat.not_lt.mpr hle)
        refine ⟨hfinal, fun k hk => ?_⟩
        rcases h.lt_or_buffered hk with hlt | hsome
        · exact Nat.lt_of_lt_of_le hlt hle
        · obtain ⟨p, hp, rfl⟩ := ParcelMap.isSome_get?_iff.mp hsome
          exact hbuffer p hp

/-- Nothing but a fresh operation is answered properly and leaves the queue in
sequence. -/
theorem Tracks.fresh {s : QueueRun} (_ : s.Tracks) {op : QueueOp} (hanswers : s.Answers op)
    (hnext : (s.step op).InSequence) : s.Fresh op := by
  cases op with
  | push p =>
      rcases push_eq s.queue p with ⟨hlt, -⟩ | ⟨-, hpush⟩
      · exact .inl hlt
      · have haccepted : ¬ (s.Received p.sequenceNumber ∨
            ∃ len, s.queue.finalLength = some len ∧ len ≤ p.sequenceNumber) := by
          intro hbad
          have hrefused := (hanswers hbad).1
          rw [hpush] at hrefused
          cases hrefused
        rw [not_or] at haccepted
        have hqueue : (s.step (.push p)).queue =
            { s.queue with buffer := ParcelMap.insert p s.queue.buffer } := by
          show (s.queue.push p).getD s.queue = _
          rw [hpush]
          rfl
        refine .inr ⟨?_, fun len hlen => ?_, ?_⟩
        · exact Option.not_isSome_iff_eq_none.mp fun hsome => haccepted.1 (.inr hsome)
        · exact Nat.not_le.mp fun hle => haccepted.2 ⟨len, hlen, hle⟩
        · have hfits := hnext.fits
          rw [hqueue] at hfits
          exact (ParcelQueue.fits_insert_iff _ _).mp hfits
  | pop => trivial
  | setFinal n =>
      rcases setFinalSequenceLength_eq s.queue n with ⟨hlt, -⟩ | ⟨-, hset⟩
      · exact .inl hlt
      · obtain ⟨hfinal, hreceived⟩ := hanswers (by rw [hset]; rfl)
        refine .inr ⟨hfinal, fun p hp => hreceived _ (.inr ?_)⟩
        exact ParcelMap.isSome_get?_iff.mpr ⟨p, hp, rfl⟩

theorem tracks_init (start : UInt64) : (init start).Tracks where
  current := rfl
  consecutive := rfl
  first := by simp [init]
  buffered := by
    intro n p h
    cases h
  kept := by simp [init]
  fits := start.toNat_lt

/-! ### Whole runs -/

/-- A run is in sequence in every state, and every operation of it is answered
properly, just if every operation of it is fresh. -/
theorem sequenced_iff (start : UInt64) (ops : List QueueOp) :
    Always step InSequence (init start) ops ∧ Meets step Answers (init start) ops ↔
      Meets step Fresh (init start) ops := by
  constructor
  · rintro ⟨hseq, hanswers⟩
    exact meets_of_always_meets (fun _ _ h hf => h.step hf) (fun _ _ h hl hq => h.fresh hl hq)
      (tracks_init start) hseq hanswers
  · intro hfresh
    exact ⟨(always_of_meets (fun _ _ h hf => h.step hf) (tracks_init start) hfresh).imp
        fun _ h => h.inSequence,
      hfresh.imp (fun _ _ h hf => h.step hf) (fun _ _ h hf => h.answers hf) (tracks_init start)⟩

/-- A parcel without data but for one byte. -/
def parcelOf (n : Nat) (byte : UInt8) : Parcel := ⟨n, [byte], [], none⟩

/-- The second parcel of a number replaces the first, a second final length the
first one, and a final length may be set below a parcel that waits. -/
theorem sequence_broken :
    (exec step (init 0) [.push (parcelOf 0 7), .push (parcelOf 0 9), .pop]).popped =
        [parcelOf 0 9] ∧
      ¬ Meets step Answers (init 0) [.push (parcelOf 0 7), .push (parcelOf 0 9)] ∧
      ¬ Meets step Answers (init 0) [.setFinal 5, .setFinal 1] ∧
      ¬ Meets step Answers (init 0) [.push (parcelOf 3 7), .setFinal 1] ∧
      ¬ Meets step Answers (init 0) [.setFinal 1, .push (parcelOf 3 7)] := by
  refine ⟨rfl, fun h => ?_, fun h => ?_, fun h => ?_, fun h => ?_⟩
  · cases (h.2.1 (.inl (.inr rfl))).1
  · cases (h.2.1 rfl).1
  · have hlt := (h.2.1 rfl).2 3 (.inr rfl)
    cases hlt with
    | step hlt => cases hlt
  · cases (h.2.1 (.inr ⟨1, rfl, by decide⟩)).1

end QueueRun

end MojoRs.Ipcz
