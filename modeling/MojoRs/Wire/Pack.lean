/-
MojoRs/Wire/Pack.lean

Struct field packing (`pack.rs`).  `pack` expands nullable values into a flag
and a value, checks the minimum versions in ordinal order, and places the
fields one after the other in the first hole that is large enough.

Versions are only compared here, so that they are natural numbers.
-/
import Mathlib.Data.List.Sort
import MojoRs.Wire.Layout

namespace MojoRs.Wire

/-- Field kinds. -/
inductive Kind
  | bool
  | i8 | u8 | i16 | u16 | i32 | u32 | i64 | u64 | f32 | f64
  | enum
  | handle | msgPipe | sharedBuffer | platformHandle | dcPipe | dpPipe
  | string | array | map | struct
  | interface
  | pendingRemote
  | pendingAssociatedRemote
  | union
  | pendingReceiver
  | pendingAssociatedReceiver
  deriving DecidableEq, Repr

namespace Kind

/-- The size of a kind in bytes. -/
def size : Kind → Nat
  | bool | i8 | u8 => 1
  | i16 | u16 => 2
  | i32 | u32 | f32 | enum | handle | msgPipe | sharedBuffer | platformHandle | dcPipe | dpPipe
  | pendingReceiver | pendingAssociatedReceiver => 4
  | i64 | u64 | f64 => 8
  | string | array | map | struct | interface | pendingRemote | pendingAssociatedRemote => 8
  | union => 16

/-- The alignment of a kind in bytes. -/
def alignment : Kind → Nat
  | interface | pendingRemote | pendingAssociatedRemote => 4
  | union => 8
  | k => k.size

/-- Whether the kind counts as a reference. -/
def isReference : Kind → Bool
  | string | array | map | struct | interface | pendingRemote => true
  | _ => false

end Kind

/-- A struct field before packing. -/
structure Field where
  index : Nat
  ordinal : Nat
  minVersion : Option Nat
  kind : Kind
  nullableValueKind : Bool
  nullableReference : Bool
  deriving DecidableEq, Repr

/-- A field with its place in the payload. -/
structure PackedField where
  field : Field
  ordinal : Nat
  subOrdinal : Option Nat
  size : Nat
  alignment : Nat
  offset : Nat
  bit : Nat
  minVersion : Nat
  deriving DecidableEq, Repr

/-- A packed struct. -/
structure PackedStruct where
  packedFields : List PackedField
  packedFieldsInOrdinalOrder : List PackedField
  size : Nat
  versionInfo : List (Nat × Nat)
  deriving DecidableEq, Repr

/-- A pointer or handle that may not be null. -/
def Field.isNonnullableReference (f : Field) : Bool := f.kind.isReference && !f.nullableReference

/-- The bytes up to the next multiple. -/
def pad (offset alignment : Nat) : Nat := (alignment - offset % alignment) % alignment

/-- The offset and bit of `field` when it follows `last`. -/
def fieldOffset (field : Field) (last : PackedField) : Nat × Nat :=
  if field.kind = .bool ∧ last.field.kind = .bool ∧ last.bit < 7 then (last.offset, last.bit + 1)
  else
    let offset := last.offset + last.size
    (offset + pad offset field.kind.alignment, 0)

/-- The payload size when `field` is the last one.  The source answers 0 for
a field without an offset; it is called on placed fields only. -/
def payloadSizeUpToField (field : PackedField) : Nat :=
  let e := field.offset + field.size
  e + pad e 8

/-! ### The fields in ordinal order -/

/-- Ordinals are taken from the position: no field overrides its own. -/
def fieldOrdinalHint (_ : Field) : Option Nat := none

/-- `unnullify`: a kind does not say whether it may be null. -/
def unnullify (k : Kind) : Kind := k

/-- A field not yet placed. -/
def PackedField.unplaced (field : Field) (ordinal : Nat) (subOrdinal : Option Nat) :
    PackedField where
  field := field
  ordinal := ordinal
  subOrdinal := subOrdinal
  size := 0
  alignment := 0
  offset := usizeMax
  bit := 0
  minVersion := 0

/-- A nullable value becomes its flag and its value. -/
def expand (ordinal : Nat) (field : Field) : List PackedField :=
  if field.nullableValueKind then
    [.unplaced { field with kind := .bool } ordinal (some 0),
      .unplaced { field with kind := unnullify field.kind } ordinal (some 1)]
  else [.unplaced field ordinal none]

/-- The fields to place, with their ordinals. -/
def srcFields : Nat → List Field → List PackedField
  | _, [] => []
  | ordinal, field :: fields =>
      let ordinalAt := (fieldOrdinalHint field).getD ordinal
      expand ordinalAt field ++ srcFields (ordinalAt + 1) fields

/-- Resolve size and alignment. -/
def PackedField.resolve (pf : PackedField) : PackedField :=
  { pf with size := pf.field.kind.size, alignment := pf.field.kind.alignment }

/-- The order of `None`, `Some(0)`, `Some(1)`. -/
def PackedField.subKey (pf : PackedField) : Nat := pf.subOrdinal.elim 0 (· + 1)

/-- The sort key `(ordinal, sub_ordinal)`. -/
abbrev PackedField.KeyLe (a b : PackedField) : Prop :=
  a.ordinal < b.ordinal ∨ a.ordinal = b.ordinal ∧ a.subKey ≤ b.subKey

/-- A stable sort by `(ordinal, sub_ordinal)`. -/
def sortByOrdinal (pfs : List PackedField) : List PackedField :=
  pfs.insertionSort PackedField.KeyLe

/-- The version in force at a field, after `next`. -/
def nextMinVersion (next : Nat) (pf : PackedField) : WireResult Nat :=
  match pf.field.minVersion with
  | some mv =>
      if mv < next then .error (.encode (.unsupported "field min_version out of order"))
      else .ok mv
  | none =>
      if next ≠ 0 then
        .error (.encode (.unsupported "field without min_version after versioned field"))
      else .ok next

/-- The minimum version of every field, in ordinal order. -/
def propagateMinVersion : Nat → List PackedField → WireResult (List PackedField)
  | _, [] => .ok []
  | next, pf :: pfs => do
      let mv ← nextMinVersion next pf
      if mv ≠ 0 ∧ pf.field.isNonnullableReference then
        .error (.encode (.unsupported "non-nullable reference field in a versioned struct"))
      else
        let rest ← propagateMinVersion mv pfs
        .ok ({ pf with minVersion := mv } :: rest)

/-! ### First-fit packing -/

/-- `src` at a place. -/
def PackedField.placeAt (src : PackedField) (place : Nat × Nat) : PackedField :=
  { src with offset := place.1, bit := place.2 }

/-- Place `src` in the first hole after `last` that holds it. -/
def insertAfter (src last : PackedField) : List PackedField → List PackedField
  | [] => [src.placeAt (fieldOffset src.field last)]
  | next :: rest =>
      if (fieldOffset src.field last).1 + src.size ≤ next.offset then
        src.placeAt (fieldOffset src.field last) :: next :: rest
      else next :: insertAfter src next rest

/-- Place `src` among the fields already placed. -/
def place (dst : List PackedField) (src : PackedField) : List PackedField :=
  match dst with
  | [] => [src.placeAt (0, 0)]
  | first :: rest => first :: insertAfter src first rest

/-- Place fields in order. -/
def placeAll (dst src : List PackedField) : List PackedField := src.foldl place dst

/-- The pairs of a version and the struct size from that version on. -/
def versionInfoFrom : Nat → Nat → List PackedField → List (Nat × Nat)
  | lastVersion, lastPayload, [] => [(lastVersion, lastPayload + structHeaderSize)]
  | lastVersion, lastPayload, pf :: pfs =>
      let payload := max lastPayload (payloadSizeUpToField pf)
      if pf.minVersion ≠ lastVersion then
        (lastVersion, lastPayload + structHeaderSize) :: versionInfoFrom pf.minVersion payload pfs
      else versionInfoFrom lastVersion payload pfs

/-- Struct header and padded payload. -/
def sizeOfPacked (pfs : List PackedField) : Nat :=
  match pfs.getLast? with
  | some last => payloadSizeUpToField last + structHeaderSize
  | none => structHeaderSize

/-- Pack `fields`, given in declaration order. -/
def PackedStruct.pack (fields : List Field) : WireResult PackedStruct := do
  let src := sortByOrdinal ((srcFields 0 fields).map PackedField.resolve)
  let src ← propagateMinVersion 0 src
  let packedFields := placeAll [] src
  let ordinalOrder := sortByOrdinal packedFields
  .ok {
    packedFields := packedFields
    packedFieldsInOrdinalOrder := ordinalOrder
    size := sizeOfPacked packedFields
    versionInfo := versionInfoFrom 0 0 ordinalOrder }

/-- The struct size for a version. -/
def PackedStruct.numBytesForVersion (p : PackedStruct) (version : Nat) : Option Nat :=
  ((p.versionInfo.filter (·.1 ≤ version)).map (·.2)).max?

end MojoRs.Wire
