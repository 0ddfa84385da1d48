/-
MojoRs/Wire/Value.lean

Schemas and typed values (the first part of `value.rs`).  Names of fields and
of union members do not reach the wire and are left out; the version of a
struct schema is kept, though no function of the codec reads it.

Floats are bit patterns, as in the source, and an enum value is an `i64`.
-/
import MojoRs.Lib.Bytes
import MojoRs.Wire.Pack

namespace MojoRs.Wire

open Lib

/-- A struct field over a type of schemas. -/
structure FieldOf (τ : Type) where
  ty : τ
  minVersion : Option Nat

/-- Schemas. -/
inductive Ty
  | bool
  | i8 | u8 | i16 | u16 | i32 | u32 | i64 | u64 | f32 | f64
  | enum
  | handle
  | string (nullable : Bool)
  | array (element : Ty) (nullable : Bool)
  | map (key value : Ty) (nullable : Bool)
  | struct (fields : List (FieldOf Ty)) (version : UInt32) (nullable : Bool)
  | union (members : List Ty) (nullable inlined : Bool)
  | interface (version : UInt32)
  | associatedEndpoint
  | associatedInterface (version : UInt32)
  | nullableScalar (inner : Ty)

/-- A struct field. -/
abbrev FieldType := FieldOf Ty

/-- Values. -/
inductive Value
  | bool (b : Bool)
  | i8 (v : Int8) | u8 (v : UInt8)
  | i16 (v : Int16) | u16 (v : UInt16)
  | i32 (v : Int32) | u32 (v : UInt32)
  | i64 (v : Int64) | u64 (v : UInt64)
  | f32 (bits : UInt32) | f64 (bits : UInt64)
  | enum (v : Int64)
  | string (s : String)
  | array (items : List Value)
  | map (keys values : List Value)
  | struct (version : UInt32) (fields : List Value)
  | union (tag : UInt32) (value : Value)
  | handle (index : UInt32)
  | interface (index version : UInt32)
  | associatedEndpoint (id : UInt32)
  | associatedInterface (id version : UInt32)
  | null
  | nullableScalar (present : Bool) (value : Value)

namespace Ty

/-- The pack kind of a type. -/
def packKind : Ty → Kind
  | bool => .bool
  | i8 => .i8
  | u8 => .u8
  | i16 => .i16
  | u16 => .u16
  | i32 => .i32
  | u32 => .u32
  | i64 => .i64
  | u64 => .u64
  | f32 => .f32
  | f64 => .f64
  | enum => .enum
  | handle => .handle
  | string _ => .string
  | array _ _ => .array
  | map _ _ _ => .map
  | struct _ _ _ => .struct
  | union _ _ true => .union
  | union _ _ false => .map
  | interface _ => .interface
  | associatedEndpoint => .pendingAssociatedReceiver
  | associatedInterface _ => .pendingAssociatedRemote
  | nullableScalar inner => inner.packKind

/-- Whether a type is nullable. -/
def isNullable : Ty → Bool
  | string nullable | array _ nullable | map _ _ nullable => nullable
  | struct _ _ nullable | union _ nullable _ => nullable
  | nullableScalar _ => true
  | _ => false

/-- A scalar that may be absent. -/
def isNullableScalar : Ty → Bool
  | nullableScalar _ => true
  | _ => false

/-- The element types that an array holds in place. -/
def isPod : Ty → Bool
  | bool | i8 | u8 | i16 | u16 | i32 | u32 | i64 | u64 | f32 | f64 | enum | handle => true
  | _ => false

/-- The size of an array element. -/
def elemSize (element : Ty) : Nat := if element.isPod then element.packKind.size else pointerSize

/-- The scalar that may be absent. -/
def unboxScalar : Ty → Ty
  | nullableScalar inner => inner
  | t => t

end Ty

/-- A field as the packer sees it. -/
def FieldOf.toField (ft : FieldType) (index : Nat) : Field where
  index := index
  ordinal := index
  minVersion := ft.minVersion
  kind := ft.ty.packKind
  nullableValueKind := ft.ty.isNullableScalar
  nullableReference := ft.ty.isNullable

/-- The fields handed to the packer. -/
def packFieldsFrom (index : Nat) : List FieldType → List Field
  | [] => []
  | ft :: fts => ft.toField index :: packFieldsFrom (index + 1) fts

/-- The fields of a struct as `pack` takes them. -/
abbrev packFields (fields : List FieldType) : List Field := packFieldsFrom 0 fields

theorem getElem?_packFieldsFrom (i : Nat) (fields : List FieldType) (k : Nat) :
    (packFieldsFrom i fields)[k]? = fields[k]?.map (·.toField (i + k)) := by
  induction fields generalizing i k with
  | nil => rfl
  | cons ft fts ih =>
      cases k with
      | zero => rfl
      | succ k =>
          rw [packFieldsFrom, List.getElem?_cons_succ, ih, List.getElem?_cons_succ,
            Nat.add_assoc, Nat.add_comm 1 k]

theorem packFieldsFrom_append (i : Nat) (fs gs : List FieldType) :
    packFieldsFrom i (fs ++ gs) = packFieldsFrom i fs ++ packFieldsFrom (i + fs.length) gs := by
  induction fs generalizing i with
  | nil => rfl
  | cons f fs ih =>
      rw [List.cons_append, packFieldsFrom, ih, List.length_cons, Nat.add_assoc, Nat.add_comm 1]
      rfl

/-- The value of a field that a message does not carry. -/
def defaultValue (ft : FieldType) : Value :=
  match ft.ty with
  | .bool => .bool false
  | .i8 => .i8 0
  | .u8 => .u8 0
  | .i16 => .i16 0
  | .u16 => .u16 0
  | .i32 => .i32 0
  | .u32 => .u32 0
  | .i64 => .i64 0
  | .u64 => .u64 0
  | .f32 => .f32 0
  | .f64 => .f64 0
  | .enum => .enum 0
  | .handle => .handle encodedInvalidHandleValue
  | .interface version => .interface encodedInvalidHandleValue version
  | .associatedEndpoint => .associatedEndpoint encodedInvalidHandleValue
  | .associatedInterface version => .associatedInterface encodedInvalidHandleValue version
  | .nullableScalar _ => .nullableScalar false .null
  | _ => .null

/-- The largest explicit version of a struct. -/
def maxVersion (fields : List FieldType) : Nat :=
  fields.foldr (fun ft v => max (ft.minVersion.getD 0) v) 0

/-! ### Fixed-width values -/

/-- The number that is written for a value of fixed width. -/
def scalarCode : Value → Ty → Option Nat
  | .i8 v, .i8 => some v.toUInt8.toNat
  | .u8 v, .u8 => some v.toNat
  | .i16 v, .i16 => some v.toUInt16.toNat
  | .u16 v, .u16 => some v.toNat
  | .i32 v, .i32 => some v.toUInt32.toNat
  | .u32 v, .u32 => some v.toNat
  | .i64 v, .i64 => some v.toUInt64.toNat
  | .u64 v, .u64 => some v.toNat
  | .f32 v, .f32 => some v.toNat
  | .f64 v, .f64 => some v.toNat
  | .enum v, .enum => some v.toUInt64.toUInt32.toNat
  | .associatedEndpoint id, .associatedEndpoint => some id.toNat
  | _, _ => none

/-- The value that a number read back denotes. -/
def scalarValue : Ty → Nat → Option Value
  | .i8, n => some (.i8 (UInt8.ofNat n).toInt8)
  | .u8, n => some (.u8 (UInt8.ofNat n))
  | .i16, n => some (.i16 (UInt16.ofNat n).toInt16)
  | .u16, n => some (.u16 (UInt16.ofNat n))
  | .i32, n => some (.i32 (UInt32.ofNat n).toInt32)
  | .u32, n => some (.u32 (UInt32.ofNat n))
  | .i64, n => some (.i64 (UInt64.ofNat n).toInt64)
  | .u64, n => some (.u64 (UInt64.ofNat n))
  | .f32, n => some (.f32 (UInt32.ofNat n))
  | .f64, n => some (.f64 (UInt64.ofNat n))
  | .enum, n => some (.enum (UInt32.ofNat n).toUInt64.toInt64)
  | .associatedEndpoint, n => some (.associatedEndpoint (UInt32.ofNat n))
  | _, _ => none

theorem scalarCode_lt {v : Value} {ty : Ty} {n : Nat} (h : scalarCode v ty = some n) :
    n < 256 ^ ty.packKind.size := by
  unfold scalarCode at h
  split at h <;> cases h
  all_goals
    simp only [Ty.packKind, Kind.size]
  all_goals first
    | exact UInt8.toNat_lt _
    | exact UInt16.toNat_lt _
    | exact UInt32.toNat_lt _
    | exact UInt64.toNat_lt _

/-- A fixed-width value comes back; of an enum value, only the low 32 bits. -/
theorem scalarValue_scalarCode {v : Value} {ty : Ty} {n : Nat} (h : scalarCode v ty = some n) :
    scalarValue ty n = some (match v with
      | .enum e => .enum e.toUInt64.toUInt32.toUInt64.toInt64
      | v => v) := by
  unfold scalarCode at h
  split at h <;> cases h
  all_goals
    simp only [scalarValue, UInt8.ofNat_toNat, UInt16.ofNat_toNat, UInt32.ofNat_toNat,
      UInt64.ofNat_toNat, Int8.toInt8_toUInt8, Int16.toInt16_toUInt16, Int32.toInt32_toUInt32,
      Int64.toInt64_toUInt64]

/-! ### Well-founded induction on values -/

/-- The values directly inside a value. -/
def Value.children : Value → List Value
  | .array items => items
  | .map keys values => keys ++ values
  | .struct _ fields => fields
  | .union _ value => [value]
  | .nullableScalar _ value => [value]
  | _ => []

theorem sizeOf_child_lt {v w : Value} (h : w ∈ v.children) : sizeOf w < sizeOf v := by
  unfold Value.children at h
  split at h
  · have := List.sizeOf_lt_of_mem h
    simp only [Value.array.sizeOf_spec]
    omega
  · simp only [Value.map.sizeOf_spec]
    rcases List.mem_append.mp h with h | h
    all_goals
      have := List.sizeOf_lt_of_mem h
      omega
  · have := List.sizeOf_lt_of_mem h
    simp only [Value.struct.sizeOf_spec]
    omega
  · obtain rfl := List.mem_singleton.mp h
    simp only [Value.union.sizeOf_spec]
    omega
  · obtain rfl := List.mem_singleton.mp h
    simp only [Value.nullableScalar.sizeOf_spec]
    omega
  · exact nomatch h

/-- Induction on the size of values. -/
theorem Value.sizeInduction {P : Value → Prop}
    (step : ∀ v, (∀ w, sizeOf w < sizeOf v → P w) → P v) (v : Value) : P v :=
  step v fun w _ => sizeInduction step w
termination_by sizeOf v

end MojoRs.Wire
