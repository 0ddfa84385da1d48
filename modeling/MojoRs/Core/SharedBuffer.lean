/-
MojoRs/Core/SharedBuffer.lean

Shared buffers (`shared_buffer.rs`) over shared memory (`shm.rs`).  A buffer is
duplicated into buffers of the same region, each with a mode of its own; the
buffers of one duplication tree are a list here, the created one first.

Descriptors and addresses are numbers, and what the kernel answers is an
argument: the new descriptor, or `none` where the call fails.  A call holds the
lock of its buffer from beginning to end, so that calls follow one another.

Main results:
* `oneMode_always` — the buffers of a tree share one mode in every run;
* `modes_kept_iff` — and no failing call changes it just in those runs in which
  no buffer that is still writable fails to duplicate its descriptor.
-/
import MojoRs.Core.Error
import MojoRs.Lib.Run

namespace MojoRs.Core

open Lib

/-! ### Shared memory -/

/-- `shm.rs`: a descriptor of a region, and the size of the region. -/
structure SharedMemory where
  fd : Nat
  size : Nat
  deriving DecidableEq, Repr

/-- What a mapping may be used for. -/
inductive Access
  | readOnly
  | readWrite
  deriving DecidableEq, Repr

/-- A mapping of pages. -/
structure Mapping where
  address : Nat
  len : Nat
  access : Access
  deriving DecidableEq, Repr

namespace SharedMemory

/-- The page size of the kernel. -/
def pageSize : Nat := 4096

/-- `duplicate`: the kernel answers `dup`. -/
def duplicate (shm : SharedMemory) (dup : Option Nat) : Option SharedMemory :=
  dup.map fun fd => { shm with fd }

/-- `map`: the kernel maps from the page of `offset` on, at `base`. -/
def map (shm : SharedMemory) (offset len : Nat) (access : Access) (base : Option Nat) :
    Option Mapping :=
  if len = 0 then none
  else if offset + len ≥ 2 ^ 64 then none
  else if offset + len > shm.size then none
  else base.map fun base => ⟨base + offset % pageSize, len, access⟩

end SharedMemory

/-! ### Buffers -/

/-- The access mode of a region; `unsafeMode` is `Unsafe` in the source. -/
inductive BufferMode
  | writable
  | unsafeMode
  | readOnly
  deriving DecidableEq, Repr

/-- What a buffer holds behind its lock (`BufferInner`). -/
structure BufferInner where
  shm : SharedMemory
  size : Nat
  mode : BufferMode
  deriving DecidableEq, Repr

namespace SharedBuffer

/-- `create`: the kernel answers `memfd`. -/
def create (numBytes : Nat) (memfd : Option Nat) : CoreResult BufferInner :=
  if numBytes = 0 ∨ numBytes > 2 ^ 31 - 1 then .error .resourceExhausted
  else
    match memfd with
    | none => .error .resourceExhausted
    | some fd => .ok ⟨⟨fd, numBytes⟩, numBytes, .writable⟩

/-- The mode that a duplicate asks for. -/
def requiredMode (readOnly : Bool) : BufferMode := if readOnly then .readOnly else .unsafeMode

/-- The conversion of a writable buffer at its first duplicate. -/
def convert (readOnly : Bool) (inner : BufferInner) : BufferInner :=
  if inner.mode = .writable then { inner with mode := requiredMode readOnly } else inner

/-- `duplicate`: the new buffer, and the buffer as the call leaves it. -/
def duplicate (readOnly : Bool) (dup : Option Nat) (inner : BufferInner) :
    CoreResult BufferInner × BufferInner :=
  -- the mode is converted before the descriptor is duplicated
  let inner := convert readOnly inner
  if inner.mode ≠ requiredMode readOnly then (.error .failedPrecondition, inner)
  else
    match inner.shm.duplicate dup with
    | none => (.error .resourceExhausted, inner)
    | some shm => (.ok ⟨shm, inner.size, inner.mode⟩, inner)

/-- `map`: with the access of the mode. -/
def map (offset numBytes : Nat) (base : Option Nat) (inner : BufferInner) : CoreResult Mapping :=
  let access :=
    match inner.mode with
    | .readOnly => Access.readOnly
    | .writable | .unsafeMode => Access.readWrite
  match inner.shm.map offset numBytes access base with
  | none => .error .resourceExhausted
  | some mapping => .ok mapping

/-- The mode after a call does not depend on what the kernel answers. -/
def modeAfter (readOnly : Bool) (mode : BufferMode) : BufferMode :=
  if mode = .writable then requiredMode readOnly else mode

theorem modeAfter_ne (readOnly : Bool) (mode : BufferMode) :
    modeAfter readOnly mode ≠ .writable := by
  cases readOnly <;> cases mode <;> simp [modeAfter, requiredMode]

theorem modeAfter_of_ne {mode : BufferMode} (h : mode ≠ .writable) (readOnly : Bool) :
    modeAfter readOnly mode = mode := if_neg h

variable {readOnly : Bool} {dup : Option Nat} {inner new : BufferInner} {e : CoreError}

theorem convert_mode (readOnly : Bool) (inner : BufferInner) :
    (convert readOnly inner).mode = modeAfter readOnly inner.mode := by
  unfold convert modeAfter
  split <;> rfl

/-- A call leaves the converted buffer behind. -/
theorem duplicate_snd (readOnly : Bool) (dup : Option Nat) (inner : BufferInner) :
    (duplicate readOnly dup inner).2 = convert readOnly inner := by
  simp only [duplicate]
  split
  · rfl
  · split <;> rfl

/-- The duplicate has the mode that the call leaves its buffer in. -/
theorem duplicate_ok (h : (duplicate readOnly dup inner).1 = .ok new) :
    new.mode = modeAfter readOnly inner.mode := by
  rw [← convert_mode]
  simp only [duplicate] at h
  split at h
  · cases h
  · split at h
    · cases h
    · cases h
      rfl

/-- A writable buffer is refused a duplicate by the kernel only. -/
theorem duplicate_writable (readOnly : Bool) (h : inner.mode = .writable) :
    (∃ e, (duplicate readOnly dup inner).1 = .error e) ↔ dup = none := by
  have hmode : (convert readOnly inner).mode = requiredMode readOnly := by
    rw [convert_mode, modeAfter, if_pos h]
  simp only [duplicate, hmode, ne_eq, not_true_eq_false, if_false]
  cases dup <;> simp [SharedMemory.duplicate]

end SharedBuffer

/-! ### Duplication trees -/

/-- A call of `duplicate` on one of the buffers. -/
structure DuplicateCall where
  buffer : Nat
  readOnly : Bool
  dup : Option Nat
  deriving DecidableEq, Repr

/-- The buffers of a tree. -/
abbrev BufferTree := List BufferInner

namespace BufferTree

open SharedBuffer

/-- A call leaves its buffer behind, and adds the new one. -/
def call (t : BufferTree) (c : DuplicateCall) : BufferTree :=
  match t[c.buffer]? with
  | none => t
  | some inner =>
      let (r, inner) := duplicate c.readOnly c.dup inner
      t.set c.buffer inner ++ r.toOption.toList

theorem call_eq {t : BufferTree} {c : DuplicateCall} {inner : BufferInner}
    (h : t[c.buffer]? = some inner) :
    t.call c = t.set c.buffer (convert c.readOnly inner) ++
      (duplicate c.readOnly c.dup inner).1.toOption.toList := by
  rw [← duplicate_snd c.readOnly c.dup]
  simp only [call, h]

/-- All buffers have the mode `m`. -/
def HasMode (t : BufferTree) (m : BufferMode) : Prop := ∀ b ∈ t, b.mode = m

/-- All buffers share one mode, and only a buffer that stands alone is
writable. -/
def OneMode (t : BufferTree) : Prop :=
  ∃ m, HasMode t m ∧ (m = .writable → t.length = 1)

/-- No call that fails changes the mode of its buffer, and no call at all
changes the mode of a tree that is not writable any more. -/
def ModeKept (t : BufferTree) (c : DuplicateCall) : Prop :=
  (∀ inner e, t[c.buffer]? = some inner → (duplicate c.readOnly c.dup inner).1 = .error e →
    (duplicate c.readOnly c.dup inner).2.mode = inner.mode) ∧
  ∀ m, m ≠ .writable → HasMode t m → HasMode (t.call c) m

/-- The descriptor of a buffer that is still writable can be duplicated. -/
def Duplicable (t : BufferTree) (c : DuplicateCall) : Prop :=
  ∀ inner, t[c.buffer]? = some inner → inner.mode = .writable → c.dup.isSome = true

/-- Where a call takes a tree of one mode. -/
theorem HasMode.call {t : BufferTree} {m : BufferMode} (h : HasMode t m) (c : DuplicateCall)
    (hm : m = .writable → t.length = 1) :
    t.call c = t ∨ HasMode (t.call c) (modeAfter c.readOnly m) := by
  cases hinner : t[c.buffer]? with
  | none => exact .inl (by simp only [BufferTree.call, hinner])
  | some inner =>
      have hmode : inner.mode = m := h inner (List.mem_of_getElem? hinner)
      refine .inr fun b hb => ?_
      rw [call_eq hinner] at hb
      rcases List.mem_append.mp hb with hb | hb
      · by_cases hw : m = .writable
        · -- the buffer of the call is the only one
          obtain ⟨a, rfl⟩ := List.length_eq_one_iff.mp (hm hw)
          have hzero : c.buffer = 0 := Nat.lt_one_iff.mp (List.getElem?_eq_some_iff.mp hinner).1
          rw [hzero, List.set_cons_zero, List.mem_singleton] at hb
          rw [hb, convert_mode, hmode]
        · rcases List.mem_or_eq_of_mem_set hb with hb | rfl
          · rw [h b hb, modeAfter_of_ne hw]
          · rw [convert_mode, hmode]
      · have hok : (duplicate c.readOnly c.dup inner).1 = .ok b := by
          revert hb
          cases (duplicate c.readOnly c.dup inner).1 with
          | error e => simp [Except.toOption]
          | ok new => simp [Except.toOption, eq_comm]
        rw [duplicate_ok hok, hmode]

/-- A call keeps one mode. -/
theorem OneMode.call {t : BufferTree} (h : OneMode t) (c : DuplicateCall) :
    OneMode (t.call c) := by
  obtain ⟨m, hmode, hm⟩ := h
  rcases hmode.call c hm with heq | hnext
  · rw [heq]
    exact ⟨m, hmode, hm⟩
  · exact ⟨_, hnext, fun hw => absurd hw (modeAfter_ne _ _)⟩

/-- A mode other than `writable` stays. -/
theorem HasMode.stays {t : BufferTree} {m : BufferMode} (h : HasMode t m) (hm : m ≠ .writable)
    (c : DuplicateCall) : HasMode (t.call c) m := by
  rcases h.call c (fun hw => absurd hw hm) with heq | hnext
  · rwa [heq]
  · rwa [modeAfter_of_ne hm] at hnext

/-- A call changes the mode behind an error just where the descriptor of a
writable buffer cannot be duplicated. -/
theorem modeKept_iff (t : BufferTree) (c : DuplicateCall) : ModeKept t c ↔ Duplicable t c := by
  constructor
  · rintro ⟨hkept, -⟩ inner hinner hw
    by_contra hdup
    have hnone : c.dup = none := by simpa using hdup
    obtain ⟨e, he⟩ := (duplicate_writable c.readOnly hw).mpr hnone
    have hmode := hkept inner e hinner he
    rw [duplicate_snd, convert_mode] at hmode
    exact modeAfter_ne _ _ (hmode.trans hw)
  · refine fun hdup => ⟨fun inner e hinner he => ?_, fun m hm hmode => hmode.stays hm c⟩
    by_cases hw : inner.mode = .writable
    · have hsome := hdup inner hinner hw
      rw [(duplicate_writable c.readOnly hw).mp ⟨e, he⟩] at hsome
      cases hsome
    · rw [duplicate_snd, convert_mode]
      exact modeAfter_of_ne hw _

/-- The buffers of a tree share one mode in every run, failing calls or not. -/
theorem oneMode_always (root : BufferInner) (cs : List DuplicateCall) :
    Always call OneMode [root] cs := by
  refine always_of_step (fun t c ht => ht.call c) ⟨root.mode, ?_, fun _ => rfl⟩ cs
  simp [HasMode]

/-- In a run from one buffer all buffers share one mode, a mode that is not
`Writable` any more never changes, and no call that fails changes a mode, just
if no buffer that is still writable fails to duplicate its descriptor. -/
theorem modes_kept_iff (root : BufferInner) (cs : List DuplicateCall) :
    Always call OneMode [root] cs ∧ Meets call ModeKept [root] cs ↔
      Meets call Duplicable [root] cs := by
  have hiff : Meets call ModeKept [root] cs ↔ Meets call Duplicable [root] cs :=
    meets_congr (P := fun _ => True) (fun _ _ _ => trivial) (fun t c _ => modeKept_iff t c) trivial
  rw [hiff]
  exact and_iff_right (oneMode_always root cs)

/-- The first duplicate of a buffer fails for want of a descriptor: the mode
is `ReadOnly` all the same, and a duplicate without the flag is refused. -/
theorem failed_duplicate_converts :
    create 64 (some 3) = .ok ⟨⟨3, 64⟩, 64, .writable⟩ ∧
      duplicate true none ⟨⟨3, 64⟩, 64, .writable⟩ =
        (.error .resourceExhausted, ⟨⟨3, 64⟩, 64, .readOnly⟩) ∧
      (duplicate false (some 4) ⟨⟨3, 64⟩, 64, .readOnly⟩).1 = .error .failedPrecondition ∧
      ¬ Meets call ModeKept [⟨⟨3, 64⟩, 64, .writable⟩] [⟨0, true, none⟩] := by
  refine ⟨rfl, rfl, rfl, fun h => ?_⟩
  have hmode := h.1.1 _ .resourceExhausted rfl rfl
  cases hmode

end BufferTree

end MojoRs.Core
