/-
MojoRs/Core/Handle.lean

The handle table (`handle.rs`).  A handle value packs a 20-bit slot index and
a generation into 32 bits; the table keeps, per slot, a full 32-bit generation
counter that is bumped at every allocation and never reset.

The dispatcher behind a handle is an abstract identity `δ`; `dup` stands for
`Dispatcher::is_duplicable`.  The table lock is never poisoned (no operation
panics under it), so its `Internal` error does not occur here.  `close_slot`
returns the dispatcher whose `on_closed` it runs.
-/
import MojoRs.Core.Error

namespace MojoRs.Core

/-- The number of bits used for the slot index in a handle value. -/
def slotBits : UInt32 := 20

/-- Maximum number of live slots. -/
def maxSlots : Nat := 2 ^ 20

/-- Mask for the slot portion of a handle value. -/
def slotMask : UInt32 := (1 <<< slotBits) - 1

/-- A handle value as seen by the C API. -/
abbrev MojoHandleValue := UInt32

/-- A handle into the table. -/
structure Handle where
  value : MojoHandleValue
  slot : UInt32
  deriving DecidableEq, Repr

variable {δ : Type}

/-- A slot in use. -/
structure Entry (δ : Type) where
  dispatcher : δ
  generation : UInt32
  deriving DecidableEq, Repr

/-- The table: entries and generation counters by slot, and the free slots
with the most recently freed one first. -/
structure TableInner (δ : Type) where
  entries : List (Option (Entry δ))
  generations : List UInt32
  free : List UInt32
  deriving DecidableEq, Repr

/-- Pack (slot, generation) into a handle value. -/
def encode (slot generation : UInt32) : MojoHandleValue :=
  (generation <<< slotBits) ||| (slot &&& slotMask)

namespace TableInner

/-- `HandleTable::new`. -/
def new : TableInner δ := ⟨[], [], []⟩

/-- The generation counter of a slot. -/
def generationOf (t : TableInner δ) (slot : UInt32) : UInt32 :=
  t.generations.getD slot.toNat 0

/-- Advance the per-slot generation, skipping 0. -/
def bumpGeneration (t : TableInner δ) (slot : UInt32) : TableInner δ :=
  let g := t.generationOf slot + 1
  { t with generations := t.generations.set slot.toNat (if g = 0 then 1 else g) }

/-- A slot for a new handle: a freed one with its next generation, or a new one. -/
def allocate (t : TableInner δ) : CoreResult ((UInt32 × UInt32) × TableInner δ) :=
  match t.free with
  | slot :: free =>
      let t := { t with free }.bumpGeneration slot
      .ok ((slot, t.generationOf slot), t)
  | [] =>
      if t.entries.length ≥ maxSlots then
        .error .resourceExhausted
      else
        let slot := UInt32.ofNat t.entries.length
        let t : TableInner δ :=
          { t with entries := t.entries ++ [none], generations := t.generations ++ [0] }
        let t := t.bumpGeneration slot
        .ok ((slot, t.generationOf slot), t)

/-- Store a dispatcher in a freshly allocated slot. -/
def install (t : TableInner δ) (d : δ) : CoreResult (Handle × TableInner δ) := do
  let ((slot, generation), t) ← t.allocate
  let value := encode slot generation
  return (⟨value, slot⟩,
    { t with entries := t.entries.set slot.toNat (some ⟨d, generation⟩) })

/-- `HandleTable::add`. -/
def add (t : TableInner δ) (d : δ) : CoreResult (Handle × TableInner δ) :=
  t.install d

/-- `HandleTable::get`: resolve a handle value to its dispatcher. -/
def get (t : TableInner δ) (value : MojoHandleValue) : CoreResult δ :=
  if value = 0 then
    .error .invalidArgument
  else
    let slot := value &&& slotMask
    let generation := value >>> slotBits
    match t.entries[slot.toNat]? with
    | some (some entry) =>
        if entry.generation ≠ generation then .error .invalidArgument
        else .ok entry.dispatcher
    | _ => .error .invalidArgument

/-- `HandleTable::close_slot`: a stale value changes nothing. -/
def closeSlot (t : TableInner δ) (slot : UInt32) (value : MojoHandleValue) :
    TableInner δ × Option δ :=
  let generation := value >>> slotBits
  match t.entries[slot.toNat]? with
  | some (some entry) =>
      if entry.generation = generation then
        ({ t with entries := t.entries.set slot.toNat none, free := slot :: t.free },
          some entry.dispatcher)
      else (t, none)
  | _ => (t, none)

/-- `HandleTable::duplicate`. -/
def duplicate (dup : δ → Bool) (t : TableInner δ) (value : MojoHandleValue) :
    CoreResult (Handle × TableInner δ) := do
  let dispatcher ← t.get value
  if !dup dispatcher then
    .error .invalidArgument
  else
    t.install dispatcher

end TableInner

/-! ### Handle values

Slot and generation can be read back from a value as long as the generation
fits the 12 bits that are left for it. -/

theorem slotMask_toNat : slotMask.toNat = 2 ^ 20 - 1 := by decide

theorem encode_toNat {slot generation : UInt32} (hs : slot.toNat < 2 ^ 20) :
    (encode slot generation).toNat = generation.toNat % 2 ^ 12 * 2 ^ 20 + slot.toNat := by
  have hmask : slot.toNat &&& (2 ^ 20 - 1) = slot.toNat := by
    rw [Nat.and_two_pow_sub_one_eq_mod, Nat.mod_eq_of_lt hs]
  have hshift : generation.toNat <<< 20 % 2 ^ 32 = (generation.toNat % 2 ^ 12) <<< 20 := by
    simp only [Nat.shiftLeft_eq]
    omega
  have hbits : (slotBits.toNat % 32) = 20 := by decide
  simp only [encode, UInt32.toNat_or, UInt32.toNat_shiftLeft, UInt32.toNat_and,
    slotMask_toNat, hmask, hbits, hshift]
  rw [← Nat.shiftLeft_add_eq_or_of_lt hs, Nat.shiftLeft_eq]

theorem encode_slot {slot generation : UInt32} (hs : slot.toNat < 2 ^ 20) :
    encode slot generation &&& slotMask = slot := by
  apply UInt32.toNat_inj.mp
  rw [UInt32.toNat_and, slotMask_toNat, Nat.and_two_pow_sub_one_eq_mod, encode_toNat hs]
  omega

theorem encode_generation {slot generation : UInt32} (hs : slot.toNat < 2 ^ 20) :
    (encode slot generation >>> slotBits).toNat = generation.toNat % 2 ^ 12 := by
  have hbits : (slotBits.toNat % 32) = 20 := by decide
  rw [UInt32.toNat_shiftRight, hbits, Nat.shiftRight_eq_div_pow, encode_toNat hs]
  omega

end MojoRs.Core
