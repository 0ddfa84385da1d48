/-
MojoRs/Wire/Encode.lean

The encoder (`value.rs`).  The functions of the source that call each other
recursively take here what they do with the values inside as arguments; the
recursion on values itself is the mutual block at the end, where
`encodeFieldAt` stands for `encode_field_at` and, with `payload` set, for
`encode_union_payload`.  The two differ for arrays only: the payload of a
union does not count as a level of nesting.

Indexing the buffer out of bounds would panic; every byte written lies within
the object that has just been reserved.
-/
import MojoRs.Lib.Bits
import MojoRs.Wire.Value

namespace MojoRs.Wire

open Lib

/-- The encoder: the bytes so far, the number of attached handles, and the
nesting depth. -/
structure Encoder where
  buf : List UInt8
  handles : Nat
  depth : Nat
  deriving DecidableEq, Repr

/-- `MAX_ENCODE_DEPTH`. -/
def maxEncodeDepth : Nat := 64

/-- `EncodeError::Unsupported`. -/
def unsupported (detail : String) : WireError := .encode (.unsupported detail)

namespace Encoder

/-- `buf.resize(end, 0)`, if the buffer is shorter. -/
def resize (enc : Encoder) (e : Nat) : Encoder := { enc with buf := growTo enc.buf e }

/-- Write bytes at an offset (`write_le!`). -/
def writeLe (enc : Encoder) (offset : Nat) (bytes : List UInt8) : WireResult Encoder := do
  let e ← checkedAdd offset bytes.length
  let enc := enc.resize e
  .ok { enc with buf := putBytes enc.buf offset bytes }

/-- Reserve an object and write the two numbers of its header. -/
def beginObject (enc : Encoder) (offset size first second : Nat) : WireResult Encoder := do
  let e ← checkedAdd offset size
  let enc := enc.resize e
  let enc ← enc.writeLe offset (toLE 4 first)
  enc.writeLe (offset + 4) (toLE 4 second)

/-- Write a bit of the byte at an offset. -/
def writeBit (enc : Encoder) (offset bit : Nat) (b : Bool) : Encoder :=
  { enc with buf := putBit enc.buf offset bit b }

/-- One level deeper, up to the limit. -/
def enter (enc : Encoder) : WireResult Encoder :=
  let enc := { enc with depth := enc.depth + 1 }
  if enc.depth > maxEncodeDepth then .error (.encode (.recursionLimitExceeded enc.depth))
  else .ok enc

/-- Back from a level. -/
def leave (enc : Encoder) : Encoder := { enc with depth := enc.depth - 1 }

/-- Encode one level deeper. -/
def nested (enc : Encoder) (body : Encoder → WireResult Encoder) : WireResult Encoder := do
  let enc ← enc.enter
  let enc ← body enc
  .ok enc.leave

/-- Align the end of the buffer and return it. -/
def appendObjectStart (enc : Encoder) : WireResult (Nat × Encoder) := do
  let aligned ← alignUp enc.buf.length
  .ok (aligned, enc.resize aligned)

/-- Write the pointer from a slot to its target. -/
def writePointer (enc : Encoder) (offset target : Nat) : WireResult Encoder :=
  enc.writeLe offset (toLE 8 (Pointer.encode offset target))

/-- Append an object and point to it. -/
def appendObject (enc : Encoder) (offset : Nat)
    (object : Nat → Encoder → WireResult Encoder) : WireResult Encoder := do
  let (target, enc) ← enc.appendObjectStart
  let enc ← object target enc
  enc.writePointer offset target

/-- Push a handle, unless it is the invalid one. -/
def pushHandle (enc : Encoder) (index : UInt32) : Encoder :=
  if index = encodedInvalidHandleValue then enc else { enc with handles := enc.handles + 1 }

/-- A null pointer. -/
def writeNull (enc : Encoder) (offset : Nat) : WireResult Encoder :=
  enc.writeLe offset (toLE 8 0)

end Encoder

/-- How a value is encoded at a field of a type: at an offset, with a bit. -/
abbrev FieldEncoder := Ty → Nat → Nat → Encoder → WireResult Encoder

/-- A value as its struct sees it: the whole value, and what it holds if it is
a nullable scalar that is present. -/
structure FieldValue where
  present : Option FieldEncoder
  encode : FieldEncoder

/-! ### Objects -/

/-- Encode one packed field of a struct. -/
def encodePackedField (fields : List FieldType) (value : FieldValue) (offset : Nat)
    (pf : PackedField) (enc : Encoder) : WireResult Encoder :=
  match fields[pf.field.index]? with
  | none => .error .outOfRange
  | some ft =>
      -- pack offsets are relative to the payload
      let fieldOff := offset + structHeaderSize + pf.offset
      if pf.field.nullableValueKind then
        if pf.field.kind = .bool then .ok (enc.writeBit fieldOff pf.bit value.present.isSome)
        else
          match value.present with
          | some inner => inner ft.ty.unboxScalar fieldOff 0 enc
          | none => .ok enc
      else value.encode ft.ty fieldOff pf.bit enc

/-- Encode the packed fields in order; a value that is missing is null. -/
def encodePackedFields (fields : List FieldType) (null : FieldValue) (values : List FieldValue)
    (offset : Nat) : List PackedField → Encoder → WireResult Encoder
  | [], enc => .ok enc
  | pf :: pfs, enc => do
      let enc ← encodePackedField fields (values.getD pf.field.index null) offset pf enc
      encodePackedFields fields null values offset pfs enc

/-- Write a struct at an offset. -/
def encodeStructAt (fields : List FieldType) (version : UInt32) (null : FieldValue)
    (values : List FieldValue) (offset : Nat) (enc : Encoder) : WireResult Encoder := do
  let packed ← PackedStruct.pack (packFields fields)
  let enc ← enc.beginObject offset packed.size packed.size version.toNat
  encodePackedFields fields null values offset packed.packedFields enc

/-- The error for a value that is not a struct. -/
def structMismatch (nullable : Bool) : Value → WireError
  | .null =>
      if nullable then .encode .unexpectedNull
      else unsupported "value/type mismatch in struct encode"
  | _ => unsupported "value/type mismatch in struct encode"

/-- Write a string object: header, data and NUL. -/
def encodeStringObjectAt (target : Nat) (s : String) (enc : Encoder) : WireResult Encoder := do
  let data := s.toUTF8.data.toList
  let total ← alignUp (arrayHeaderSize + data.length + 1)
  let enc ← enc.beginObject target total total data.length
  .ok { enc with buf := putBytes enc.buf (target + 8) (data ++ [0]) }

/-- Write an array object; `items` writes the elements from an offset on. -/
def encodeArrayBody (element : Ty) (count : Nat)
    (items : Nat → Encoder → WireResult Encoder) (target : Nat) (enc : Encoder) :
    WireResult Encoder := do
  let raw ← checkedMul element.elemSize count
  let total ← alignUp (arrayHeaderSize + raw)
  let enc ← enc.beginObject target total total count
  items (target + arrayHeaderSize) enc

/-- Write a map object: a header and pointers to the arrays of keys and
values. -/
def encodeMapAt (keyCount valueCount : Nat) (keys values : Nat → Encoder → WireResult Encoder)
    (target : Nat) (enc : Encoder) : WireResult Encoder :=
  if keyCount ≠ valueCount then
    .error (.encode (.mapKeyCountMismatch keyCount valueCount))
  else do
    let enc ← enc.beginObject target mapDataSize mapDataSize 0
    enc.nested fun enc => do
      let enc ← enc.appendObject (target + 8) keys
      enc.appendObject (target + 16) values

/-- Write a union of 16 bytes; `payload` writes its member. -/
def encodeUnionInline (tag : UInt32) (payload : Nat → Encoder → WireResult Encoder)
    (offset : Nat) (enc : Encoder) : WireResult Encoder := do
  let enc ← enc.beginObject offset unionDataSize unionDataSize tag.toNat
  payload (offset + 8) enc

/-- Append an array and point to it, one level deeper unless it is the payload
of a union. -/
def encodeArray (payload : Bool) (body : Nat → Encoder → WireResult Encoder) (offset : Nat)
    (enc : Encoder) : WireResult Encoder :=
  enc.appendObject offset fun target enc =>
    if payload then body target enc else enc.nested (body target)

/-! ### Fields -/

/-- The value is not of the type. -/
def mismatch : WireResult Encoder := .error (unsupported "value/type mismatch")

/-- A null in a field. -/
def encodeNullAt : FieldEncoder := fun ty offset _ enc =>
  match ty with
  | .string true | .array _ true | .map _ _ true | .struct _ _ true | .union _ true _ =>
      enc.writeNull offset
  | .nullableScalar _ => .ok enc
  | _ => mismatch

/-- A value that a struct does not hold. -/
def FieldValue.null : FieldValue := ⟨none, encodeNullAt⟩

/-- A value of fixed width. -/
def encodeScalar (v : Value) : FieldEncoder := fun ty offset _ enc =>
  match scalarCode v ty with
  | some n => enc.writeLe offset (toLE ty.packKind.size n)
  | none => mismatch

mutual

/-- Encode a value at a field. -/
def encodeFieldAt : Value → Bool → FieldEncoder
  | .bool b, _, ty, offset, bit, enc =>
      match ty with
      | .bool => .ok (enc.writeBit offset bit b)
      | _ => mismatch
  | .handle index, _, ty, offset, _, enc =>
      match ty with
      | .handle => (enc.pushHandle index).writeLe offset (toLE 4 index.toNat)
      | _ => mismatch
  | .string s, _, ty, offset, _, enc =>
      match ty with
      | .string _ => enc.appendObject offset (encodeStringObjectAt · s)
      | _ => mismatch
  | .array items, payload, ty, offset, _, enc =>
      match ty with
      | .array element _ =>
          encodeArray payload (encodeArrayBody element items.length (encodeItems items element))
            offset enc
      | _ => mismatch
  | .map keys values, _, ty, offset, _, enc =>
      match ty with
      | .map key value _ =>
          enc.appendObject offset (encodeMapAt keys.length values.length
            (encodeArrayBody key keys.length (encodeItems keys key))
            (encodeArrayBody value values.length (encodeItems values value)))
      | _ => mismatch
  | .struct version values, _, ty, offset, _, enc =>
      match ty with
      | .struct fields _ false =>
          -- a struct that cannot be null is encoded in place
          encodeStructAt fields version .null (fieldValues values) offset enc
      | .struct fields _ true =>
          enc.appendObject offset (encodeStructAt fields version .null (fieldValues values))
      | _ => mismatch
  | .union tag value, _, ty, offset, _, enc =>
      match ty with
      | .union members _ inlined =>
          match members[tag.toNat]? with
          | none => .error (.encode .invalidUnionValue)
          | some member =>
              let body := encodeUnionInline tag
                fun dataOff => encodeFieldAt value true member dataOff 0
              if inlined then body offset enc else enc.appendObject offset body
      | _ => mismatch
  | .interface index v, _, ty, offset, _, enc =>
      match ty with
      | .interface version => do
          let enc ← (enc.pushHandle index).writeLe offset (toLE 4 index.toNat)
          enc.writeLe (offset + 4) (toLE 4 (max v.toNat version.toNat))
      | _ => mismatch
  | .associatedInterface id v, _, ty, offset, _, enc =>
      match ty with
      | .associatedInterface version => do
          let enc ← enc.writeLe offset (toLE 4 id.toNat)
          enc.writeLe (offset + 4) (toLE 4 (max v.toNat version.toNat))
      | _ => mismatch
  | .null, _, ty, offset, bit, enc => encodeNullAt ty offset bit enc
  | .nullableScalar true value, _, ty, offset, bit, enc =>
      match ty with
      | .nullableScalar inner => encodeFieldAt value false inner offset bit enc
      | _ => mismatch
  | .nullableScalar false _, _, ty, _, _, enc =>
      match ty with
      | .nullableScalar _ => .ok enc
      | _ => mismatch
  | v, _, ty, offset, bit, enc => encodeScalar v ty offset bit enc

/-- The values of a struct, as its fields encode them. -/
def fieldValues : List Value → List FieldValue
  | [] => []
  | v :: vs =>
      { present := match v with
          | .nullableScalar true value => some (encodeFieldAt value false)
          | _ => none
        encode := encodeFieldAt v false } :: fieldValues vs

/-- Encode the elements of an array from an offset on. -/
def encodeItems : List Value → Ty → Nat → Encoder → WireResult Encoder
  | [], _, _, enc => .ok enc
  | v :: vs, element, itemOff, enc =>
      let item :=
        if element.isPod then encodeFieldAt v false element itemOff 0 enc
        else match v with
          | .null => enc.writeNull itemOff
          | _ => enc.appendObject itemOff (encodeArrayElementAt v element)
      item >>= encodeItems vs element (itemOff + element.elemSize)

/-- Encode an array element that is an object of its own.  A value of another
kind counts as an empty string and as an empty array. -/
def encodeArrayElementAt : Value → Ty → Nat → Encoder → WireResult Encoder
  | .struct version values, element, o, enc =>
      match element with
      | .struct fields _ _ =>
          encodeStructAt fields version .null (fieldValues values) o enc
      | .string _ => encodeStringObjectAt o "" enc
      | .array inner _ => encodeArrayBody inner 0 (fun _ => .ok) o enc
      | .map _ _ _ => .error (.encode .typeMismatch)
      | _ => .error (unsupported "array element encode")
  | .array items, element, o, enc =>
      match element with
      | .struct _ _ nullable => .error (structMismatch nullable (.array items))
      | .string _ => encodeStringObjectAt o "" enc
      | .array inner _ => encodeArrayBody inner items.length (encodeItems items inner) o enc
      | .map _ _ _ => .error (.encode .typeMismatch)
      | _ => .error (unsupported "array element encode")
  | .map keys values, element, o, enc =>
      match element with
      | .struct _ _ nullable => .error (structMismatch nullable (.map keys values))
      | .string _ => encodeStringObjectAt o "" enc
      | .array inner _ => encodeArrayBody inner 0 (fun _ => .ok) o enc
      | .map key value _ =>
          encodeMapAt keys.length values.length
            (encodeArrayBody key keys.length (encodeItems keys key))
            (encodeArrayBody value values.length (encodeItems values value)) o enc
      | _ => .error (unsupported "array element encode")
  | v, element, o, enc =>
      match element with
      | .struct _ _ nullable =>
          match v, nullable with
          | .null, true => .ok enc
          | v, nullable => .error (structMismatch nullable v)
      | .string _ =>
          encodeStringObjectAt o (match v with | .string s => s | _ => "") enc
      | .array inner _ => encodeArrayBody inner 0 (fun _ => .ok) o enc
      | .map _ _ _ => .error (.encode .typeMismatch)
      | _ => .error (unsupported "array element encode")

end

/-- Encode one element of an array: in place, or behind a pointer. -/
def encodeItem (v : Value) (element : Ty) (itemOff : Nat) (enc : Encoder) : WireResult Encoder :=
  if element.isPod then encodeFieldAt v false element itemOff 0 enc
  else match v with
    | .null => enc.writeNull itemOff
    | _ => enc.appendObject itemOff (encodeArrayElementAt v element)

theorem encodeItems_cons (v : Value) (vs : List Value) (element : Ty) (itemOff : Nat)
    (enc : Encoder) : encodeItems (v :: vs) element itemOff enc =
      encodeItem v element itemOff enc >>=
        encodeItems vs element (itemOff + element.elemSize) := by
  cases v <;> rfl

/-! ### Messages -/

/-- The bytes of a message and the number of its handles. -/
structure EncodedMessage where
  bytes : List UInt8
  handleCount : Nat
  deriving DecidableEq, Repr

/-- Encode the payload struct of a message. -/
def encodePayload (ty : Ty) (value : Value) (offset : Nat) (enc : Encoder) :
    WireResult Encoder :=
  match ty with
  | .struct fields _ nullable =>
      match value with
      | .struct version values => encodeStructAt fields version .null (fieldValues values) offset enc
      | v => .error (structMismatch nullable v)
  | _ => .error (unsupported "payload must be a struct")

/-- Encode a payload behind a header, and point a header of version 2 or
later to it. -/
def encodeMessage (header : List UInt8) (ty : Ty) (value : Value) :
    WireResult EncodedMessage :=
  match ty with
  | .struct _ _ _ => do
      let payloadOffset ← alignUp header.length
      let enc : Encoder := ⟨growTo header payloadOffset, 0, 0⟩
      let enc ← encodePayload ty value payloadOffset enc
      let bytes :=
        if header.length ≥ messageHeaderV2Size then
          putBytes enc.buf headerPayloadOffset
            (toLE 8 (Pointer.encode headerPayloadOffset payloadOffset))
        else enc.buf
      .ok ⟨bytes, enc.handles⟩
  | _ => .error (unsupported "payload must be a struct")

end MojoRs.Wire
