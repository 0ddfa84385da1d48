/-
MojoRs/Core/RingBuffer.lean

The circular byte buffer of a data pipe (`ring_buffer.rs`).  The pages are
shared by the two mappings of a pipe, so they are not part of a `RingBuffer`:
an operation that copies bytes takes the pages and returns them.

A `RingBuffer cap` carries the bounds that the slice indices and the checked
subtractions of the source rest on: the offset is below the capacity and the
size at most the capacity.  `usize` is 64 bits wide.

Main results: `write_spec` and `peek_eq` say, in terms of windows, what a
write stores and what a peek copies out.
-/
import MojoRs.Lib.Circular

namespace MojoRs.Core

open Lib

/-- The bytes of the shared region, by offset. -/
abbrev Pages := Nat → UInt8

/-- The data range of a ring buffer of `cap` bytes. -/
structure RingBuffer (cap : Nat) where
  offset : Nat
  size : Nat
  offset_lt : offset < cap
  size_le : size ≤ cap

/-- A contiguous part of the region. -/
structure Span where
  start : Nat
  len : Nat
  deriving DecidableEq, Repr

/-- The first contiguous span of available capacity. -/
structure DirectWriter where
  span : Span
  deriving DecidableEq, Repr

/-- The first contiguous span of data. -/
structure DirectReader where
  span : Span
  deriving DecidableEq, Repr

/-- `usize::checked_add`. -/
def checkedAdd (a b : Nat) : Option Nat := if a + b < 2 ^ 64 then some (a + b) else none

namespace RingBuffer

variable {cap : Nat}

/-- `RingBuffer::new`: no data. -/
def new (h : 0 < cap) : RingBuffer cap := ⟨0, 0, h, Nat.zero_le cap⟩

/-- `Range::end`: the offset just past the data. -/
def rangeEnd (r : RingBuffer cap) : Nat :=
  let e := r.offset + r.size
  if e ≥ cap then e - cap else e

/-- The bytes that can be read. -/
def dataSize (r : RingBuffer cap) : Nat := r.size

/-- The bytes that can be written. -/
def availableCapacity (r : RingBuffer cap) : Nat := cap - r.size

/-- Sizes of the two chunks of the free region for a write of `len` bytes. -/
def freeChunks (r : RingBuffer cap) (len : Nat) : Nat × Nat :=
  let freeSize := cap - r.size
  let first := min len (min freeSize (cap - r.rangeEnd))
  (first, min (len - first) (freeSize - first))

/-- Sizes of the two chunks of the data region for a read of `len` bytes. -/
def dataChunks (r : RingBuffer cap) (len : Nat) : Nat × Nat :=
  let first := min len (min r.size (cap - r.offset))
  (first, min (len - first) (r.size - first))

/-- Extend the readable range by `n` bytes already in place. -/
def extendDataRange (r : RingBuffer cap) (n : Nat) : Option (RingBuffer cap) :=
  if h : n > r.availableCapacity then none
  else
    some { r with
      size := r.size + n
      size_le := by
        have := r.size_le
        simp only [availableCapacity] at h
        omega }

/-- Discard exactly `n` bytes from the front. -/
def discardAll (r : RingBuffer cap) (n : Nat) : Option (RingBuffer cap) :=
  if n > r.size then none
  else
    match checkedAdd r.offset n with
    | none => none
    | some newOffset =>
        some ⟨newOffset % cap, r.size - n, Nat.mod_lt _ (Nat.zero_lt_of_lt r.offset_lt),
          Nat.le_trans (Nat.sub_le _ _) r.size_le⟩

/-- Append as much of `source` as there is room for. -/
def write (r : RingBuffer cap) (pages : Pages) (source : List UInt8) :
    Nat × RingBuffer cap × Pages :=
  let (first, second) := r.freeChunks source.length
  let written := first + second
  let pages := copyIn pages r.rangeEnd (source.take first)
  let pages := if second > 0 then copyIn pages 0 ((source.drop first).take second) else pages
  (written, (r.extendDataRange written).getD r, pages)

/-- Append all of `source`, or nothing. -/
def writeAll (r : RingBuffer cap) (pages : Pages) (source : List UInt8) :
    Option (RingBuffer cap × Pages) :=
  if source.length > r.availableCapacity then none
  else some (r.write pages source).2

/-- Copy at most `len` bytes from the front; the buffer keeps them. -/
def peek (r : RingBuffer cap) (pages : Pages) (len : Nat) : List UInt8 :=
  let (first, second) := r.dataChunks len
  copyOut pages r.offset first ++ if second > 0 then copyOut pages 0 second else []

/-- `peek` of exactly `len` bytes. -/
def peekAll (r : RingBuffer cap) (pages : Pages) (len : Nat) : Option (List UInt8) :=
  if len > r.dataSize then none else some (r.peek pages len)

/-- Copy at most `len` bytes from the front and discard them. -/
def read (r : RingBuffer cap) (pages : Pages) (len : Nat) : List UInt8 × RingBuffer cap :=
  let out := r.peek pages len
  (out, (r.discardAll out.length).getD r)

/-- `read` of exactly `len` bytes. -/
def readAll (r : RingBuffer cap) (pages : Pages) (len : Nat) :
    Option (List UInt8 × RingBuffer cap) :=
  if len > r.dataSize then none else some (r.read pages len)

/-- Discard at most `n` bytes from the front. -/
def discard (r : RingBuffer cap) (n : Nat) : Nat × RingBuffer cap :=
  let numBytes := min n r.dataSize
  (numBytes, (r.discardAll numBytes).getD r)

/-- `available_capacity_view` as a two-phase writer. -/
def beginWrite (r : RingBuffer cap) : DirectWriter :=
  ⟨⟨r.rangeEnd, min (cap - r.size) (cap - r.rangeEnd)⟩⟩

/-- `readable_data_view` as a two-phase reader. -/
def beginRead (r : RingBuffer cap) : DirectReader :=
  ⟨⟨r.offset, min r.size (cap - r.offset)⟩⟩

end RingBuffer

/-- Commit the first `n` bytes of the span. -/
def DirectWriter.commit {cap : Nat} (w : DirectWriter) (n : Nat) (r : RingBuffer cap) :
    Option (RingBuffer cap) :=
  if n ≤ w.span.len then r.extendDataRange n else none

/-- Consume the first `n` bytes of the span. -/
def DirectReader.consume {cap : Nat} (d : DirectReader) (n : Nat) (r : RingBuffer cap) :
    Option (RingBuffer cap) :=
  if n ≤ d.span.len then r.discardAll n else none

namespace RingBuffer

variable {cap : Nat} {r r' : RingBuffer cap} {pages : Pages}

/-! ### The range -/

/-- The end of the data, as a position of the lap. -/
theorem rangeEnd_mod : r.rangeEnd % cap = (r.offset + r.size) % cap := by
  have := r.offset_lt
  have := r.size_le
  simp only [rangeEnd]
  split
  · rename_i hge
    rw [Nat.mod_eq_sub_mod hge]
  · rfl

theorem rangeEnd_lt : r.rangeEnd < cap := by
  have := r.offset_lt
  have := r.size_le
  simp only [rangeEnd]
  split <;> omega

theorem extendDataRange_eq_some {n : Nat} (h : r.extendDataRange n = some r') :
    r.size + n ≤ cap ∧ r'.offset = r.offset ∧ r'.size = r.size + n := by
  unfold extendDataRange at h
  split at h
  · cases h
  · rename_i hn
    cases h
    have := r.size_le
    simp only [availableCapacity] at hn
    exact ⟨by omega, rfl, rfl⟩

theorem extendDataRange_isSome {n : Nat} (h : r.size + n ≤ cap) :
    ∃ r', r.extendDataRange n = some r' := by
  unfold extendDataRange
  split
  · rename_i hn
    simp only [availableCapacity] at hn
    omega
  · exact ⟨_, rfl⟩

theorem discardAll_eq_some {n : Nat} (h : r.discardAll n = some r') :
    n ≤ r.size ∧ r'.offset = (r.offset + n) % cap ∧ r'.size = r.size - n := by
  unfold discardAll checkedAdd at h
  split at h
  · cases h
  · rename_i hn
    split at h
    · cases h
    · rename_i newOffset hadd
      split at hadd
      · cases hadd
        cases h
        exact ⟨by omega, rfl, rfl⟩
      · cases hadd

/-- Below 2^63 bytes of capacity the checked addition does not fail. -/
theorem discardAll_isSome {n : Nat} (hcap : cap ≤ 2 ^ 63) (h : n ≤ r.size) :
    ∃ r', r.discardAll n = some r' := by
  have := r.offset_lt
  have := r.size_le
  have hn : ¬ n > r.size := by omega
  have hadd : checkedAdd r.offset n = some (r.offset + n) := if_pos (by omega)
  simp only [discardAll, hn, if_false, hadd]
  exact ⟨_, rfl⟩

/-! ### Writing and peeking -/

theorem freeChunks_add (len : Nat) :
    (r.freeChunks len).1 + (r.freeChunks len).2 = min len (cap - r.size) := by
  have := @rangeEnd_lt cap r
  simp only [freeChunks]
  omega

theorem dataChunks_add (len : Nat) :
    (r.dataChunks len).1 + (r.dataChunks len).2 = min len r.size := by
  simp only [dataChunks]
  omega

/-- The slices of a write are in bounds; a second one starts where the first
reached the physical end. -/
theorem freeChunks_fit (len : Nat) :
    r.rangeEnd + (r.freeChunks len).1 ≤ cap ∧ (r.freeChunks len).2 ≤ cap ∧
      (0 < (r.freeChunks len).2 → r.rangeEnd + (r.freeChunks len).1 = cap) := by
  have := @rangeEnd_lt cap r
  simp only [freeChunks]
  omega

/-- The slices of a peek are in bounds likewise. -/
theorem dataChunks_fit (len : Nat) :
    r.offset + (r.dataChunks len).1 ≤ cap ∧ (r.dataChunks len).2 ≤ cap ∧
      (0 < (r.dataChunks len).2 → r.offset + (r.dataChunks len).1 = cap) := by
  have := r.offset_lt
  have := r.size_le
  simp only [dataChunks]
  omega

/-- A write stores a prefix of its source from the end of the data on, as long
as the free region allows, and extends the data by it. -/
theorem write_spec (source : List UInt8) {n : Nat} {pages' : Pages}
    (h : r.write pages source = (n, r', pages')) :
    n = min source.length (cap - r.size) ∧ r'.offset = r.offset ∧ r'.size = r.size + n ∧
      Stores cap pages (r.offset + r.size) (source.take n) pages' := by
  have hsize := r.size_le
  have hn := @freeChunks_add cap r source.length
  obtain ⟨hfit, hfit', hfull⟩ := @freeChunks_fit cap r source.length
  simp only [write, Prod.mk.injEq] at h
  obtain ⟨rfl, rfl, rfl⟩ := h
  generalize (r.freeChunks source.length).1 = first,
    (r.freeChunks source.length).2 = second at *
  obtain ⟨r₁, hr₁⟩ := extendDataRange_isSome (r := r) (n := first + second) (by omega)
  obtain ⟨-, hoff, hsz⟩ := extendDataRange_eq_some hr₁
  refine ⟨hn, by rw [hr₁]; exact hoff, by rw [hr₁]; exact hsz, ?_⟩
  have hlen : (source.take first).length = first := by
    rw [List.length_take]
    omega
  have hlen' : ((source.drop first).take second).length = second := by
    rw [List.length_take, List.length_drop]
    omega
  have hone := (stores_copyIn pages (source.take first) (by rwa [hlen])).congr rangeEnd_mod
  split
  · -- the second chunk starts at offset 0, where the first one ended
    rename_i hsecond
    have hwrap : 0 % cap = (r.offset + r.size + (source.take first).length) % cap := by
      rw [hlen, Nat.add_mod, ← rangeEnd_mod, ← Nat.add_mod, hfull hsecond]
      simp
    have hfits : 0 + ((source.drop first).take second).length ≤ cap := by omega
    have htwo := (stores_copyIn (copyIn pages r.rangeEnd (source.take first)) _ hfits).congr
      hwrap
    rw [List.take_add]
    exact hone.append htwo (by omega)
  · rename_i hsecond
    rwa [Nat.eq_zero_of_not_pos hsecond, Nat.add_zero]

/-- A peek copies out the first bytes of the data. -/
theorem peek_eq (len : Nat) :
    r.peek pages len = window cap pages r.offset (min len r.size) := by
  obtain ⟨hfit, hfit', hfull⟩ := @dataChunks_fit cap r len
  rw [← dataChunks_add, window_add]
  simp only [peek]
  congr 1
  · exact copyOut_eq_window hfit
  · split
    · rename_i hsecond
      have hfits : 0 + (r.dataChunks len).2 ≤ cap := by omega
      rw [copyOut_eq_window hfits]
      refine window_congr _ ?_
      rw [hfull hsecond]
      simp
    · rename_i hsecond
      rw [Nat.eq_zero_of_not_pos hsecond, window_zero]

theorem length_peek (len : Nat) : (r.peek pages len).length = min len r.size := by
  rw [peek_eq, length_window]

/-- Discarding what is there takes it off the front. -/
theorem getD_discardAll (hcap : cap ≤ 2 ^ 63) {n : Nat} (h : n ≤ r.size) :
    ((r.discardAll n).getD r).offset = (r.offset + n) % cap ∧
      ((r.discardAll n).getD r).size = r.size - n := by
  obtain ⟨r', hr'⟩ := discardAll_isSome hcap h
  rw [hr']
  exact (discardAll_eq_some hr').2

/-- A read returns the first bytes of the data and takes them off. -/
theorem read_spec (hcap : cap ≤ 2 ^ 63) {len : Nat} {out : List UInt8}
    (h : r.read pages len = (out, r')) :
    out = window cap pages r.offset (min len r.size) ∧
      r'.offset = (r.offset + min len r.size) % cap ∧ r'.size = r.size - min len r.size := by
  simp only [read, Prod.mk.injEq] at h
  obtain ⟨rfl, rfl⟩ := h
  rw [length_peek]
  exact ⟨peek_eq len, getD_discardAll hcap (Nat.min_le_right _ _)⟩

end RingBuffer

end MojoRs.Core
