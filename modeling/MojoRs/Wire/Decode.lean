/-
MojoRs/Wire/Decode.lean

The decoder (`value.rs`).  As for the encoder, the functions that call each
other recursively take the decoders of the types inside as arguments, and the
recursion on types is the mutual block at the end.  `decodeField` stands for
`decode_field` and, with `payload` set, for `decode_union_payload`, which
differs for structs only: there they are always behind a pointer.
-/
import MojoRs.Wire.Encode

namespace MojoRs.Wire

open Lib

/-- The decoder.  `frontier` is where the next object may begin. -/
structure Decoder where
  bytes : List UInt8
  handleCount : Nat
  frontier : Nat
  depth : Nat
  maxDepth : Nat
  deriving DecidableEq, Repr

/-- `IllegalMemoryRange`. -/
def illegalMemoryRange : WireError := .validation .illegalMemoryRange
/-- `UnexpectedNullPointer`. -/
def unexpectedNullPointer : WireError := .validation .unexpectedNullPointer
/-- `UnexpectedStructHeader`. -/
def unexpectedStructHeader : WireError := .validation .unexpectedStructHeader
/-- `UnexpectedArrayHeader`. -/
def unexpectedArrayHeader : WireError := .validation .unexpectedArrayHeader
/-- `DeserializationFailed`. -/
def deserializationFailed : WireError := .validation .deserializationFailed

namespace Decoder

/-- `Decoder::new`. -/
def new (bytes : List UInt8) (handleCount maxDepth : Nat) : Decoder where
  bytes := bytes
  handleCount := handleCount
  frontier := 0
  depth := 0
  maxDepth := maxDepth

/-- Claim a range: not empty, within the message, and behind the frontier. -/
def claim (dec : Decoder) (start len : Nat) : WireResult Decoder := do
  let e ← checkedAdd start len
  if e > dec.bytes.length then .error illegalMemoryRange
  else if e ≤ start then .error illegalMemoryRange
  else if start < dec.frontier then .error illegalMemoryRange
  else .ok { dec with frontier := e }

/-- Claim a range, unless the enclosing object has claimed it. -/
def claimIf (dec : Decoder) (claimSelf : Bool) (start len : Nat) : WireResult Decoder :=
  if claimSelf then dec.claim start len else .ok dec

/-- One level deeper, up to the limit. -/
def enter (dec : Decoder) : WireResult Decoder :=
  let dec := { dec with depth := dec.depth + 1 }
  if dec.depth > dec.maxDepth then .error (.validation .maxRecursionDepth) else .ok dec

/-- Back from a level. -/
def leave (dec : Decoder) : Decoder := { dec with depth := dec.depth - 1 }

/-- Run a decoding function one level deeper. -/
def nested {α : Type} (dec : Decoder) (body : Decoder → WireResult (α × Decoder)) :
    WireResult (α × Decoder) := do
  let dec ← dec.enter
  let (a, dec) ← body dec
  .ok (a, dec.leave)

/-- The byte at an offset. -/
def readByte (dec : Decoder) (offset : Nat) : WireResult UInt8 :=
  match dec.bytes[offset]? with
  | some byte => .ok byte
  | none => .error illegalMemoryRange

/-- The number of `w` bytes at an offset (`read_u16`, `read_u32`, `read_u64`). -/
def readUint (dec : Decoder) (w offset : Nat) : WireResult Nat := do
  let e ← checkedAdd offset w
  if e ≤ dec.bytes.length then .ok (readLE dec.bytes offset w) else .error illegalMemoryRange

/-- The unchecked test `start + len > bytes.len()` in front of an object. -/
def inRange (dec : Decoder) (start len : Nat) : WireResult Unit :=
  if start + len ≥ usizeLimit then .error .outOfRange
  else if start + len > dec.bytes.length then .error illegalMemoryRange
  else .ok ()

/-- The pointer at an offset. -/
def readPointer (dec : Decoder) (offset : Nat) : WireResult Pointer := do
  let raw ← dec.readUint 8 offset
  .ok (.decode offset raw)

/-- Follow the pointer at an offset. -/
def follow (dec : Decoder) (offset : Nat) (nullable : Bool)
    (object : Nat → Decoder → WireResult (Value × Decoder)) : WireResult (Value × Decoder) := do
  match ← dec.readPointer offset with
  | .null => if nullable then .ok (.null, dec) else .error unexpectedNullPointer
  | .offset target => object target dec

end Decoder

/-- How a type is decoded at a field: at an offset, with a bit. -/
abbrev FieldDecoder := Nat → Nat → Decoder → WireResult (Value × Decoder)

/-! ### Objects -/

/-- What the loop over the packed fields of a struct has gathered. -/
structure DecodedFields where
  scalars : List Value
  presence : List Bool
  dec : Decoder

/-- Decode one packed field.  Decoding at a nullable scalar strips the same
layer as `unbox_scalar`. -/
def decodePackedField (decoders : List FieldDecoder) (offset numBytes version : Nat)
    (pf : PackedField) (st : DecodedFields) : WireResult DecodedFields :=
  let absOffset := structHeaderSize + pf.offset
  if pf.minVersion ≤ version ∧ absOffset + pf.size ≤ numBytes then
    let fieldOff := offset + absOffset
    if pf.field.nullableValueKind ∧ pf.field.kind = .bool then do
      let byte ← st.dec.readByte fieldOff
      let present := (byte >>> UInt8.ofNat pf.bit) &&& 1 != 0
      .ok { st with presence := st.presence.set pf.field.index present }
    else
      match decoders[pf.field.index]? with
      | none => .error .outOfRange
      | some decode => do
          let bit := if pf.field.nullableValueKind then 0 else pf.bit
          let (v, dec) ← decode fieldOff bit st.dec
          .ok { st with scalars := st.scalars.set pf.field.index v, dec := dec }
  else .ok st

/-- Decode the packed fields in order. -/
def decodePackedFields (decoders : List FieldDecoder) (offset numBytes version : Nat) :
    List PackedField → DecodedFields → WireResult DecodedFields
  | [], st => .ok st
  | pf :: pfs, st => do
      let st ← decodePackedField decoders offset numBytes version pf st
      decodePackedFields decoders offset numBytes version pfs st

/-- The value of a field from what has been decoded for it. -/
def assembleField (ft : FieldType) (scalar : Value) (present : Bool) : Value :=
  if ft.ty.isNullableScalar then .nullableScalar present (if present then scalar else .null)
  else scalar

/-- The values of all fields. -/
def assembleFields : List FieldType → List Value → List Bool → List Value
  | ft :: fts, scalar :: scalars, present :: presence =>
      assembleField ft scalar present :: assembleFields fts scalars presence
  | _, _, _ => []

/-- The size that a struct header must give. -/
def checkStructSize (fields : List FieldType) (packed : PackedStruct) (numBytes version : Nat) :
    WireResult Unit :=
  if version ≤ maxVersion fields then
    match packed.numBytesForVersion version with
    | some expected => if numBytes ≠ expected then .error unexpectedStructHeader else .ok ()
    | none => .ok ()
  else if numBytes < packed.size then .error unexpectedStructHeader
  else .ok ()

/-- Decode the header and the fields of a struct. -/
def decodeStructBody (fields : List FieldType) (decoders : List FieldDecoder) (claimSelf : Bool)
    (offset : Nat) (dec : Decoder) : WireResult (Value × Decoder) := do
  dec.inRange offset structHeaderSize
  let numBytes ← dec.readUint 4 offset
  let version ← dec.readUint 4 (offset + 4)
  if numBytes < structHeaderSize then .error unexpectedStructHeader
  else if offset + numBytes > dec.bytes.length then .error illegalMemoryRange
  else
    let dec ← dec.claimIf claimSelf offset numBytes
    let packed ← PackedStruct.pack (packFields fields)
    checkStructSize fields packed numBytes version
    let st ← decodePackedFields decoders offset numBytes version packed.packedFields
      ⟨fields.map defaultValue, List.replicate fields.length false, dec⟩
    .ok (.struct (UInt32.ofNat version) (assembleFields fields st.scalars st.presence), st.dec)

/-- Decode a struct and claim it. -/
def decodeStruct (fields : List FieldType) (decoders : List FieldDecoder) (offset : Nat)
    (dec : Decoder) : WireResult (Value × Decoder) :=
  dec.nested (decodeStructBody fields decoders true offset)

/-- Decode a struct in place: the enclosing object has claimed it. -/
def decodeStructInline (fields : List FieldType) (decoders : List FieldDecoder) (offset : Nat)
    (dec : Decoder) : WireResult (Value × Decoder) :=
  dec.nested (decodeStructBody fields decoders false offset)

/-- Decode a union; only one behind a pointer has its size checked and is
claimed. -/
def decodeUnionAt (members : List FieldDecoder) (claimSelf : Bool) (target : Nat)
    (dec : Decoder) : WireResult (Value × Decoder) := do
  dec.inRange target 8
  let size ← dec.readUint 4 target
  let tag ← dec.readUint 4 (target + 4)
  match members[tag]? with
  | none => .error (.validation .unknownUnionTag)
  | some member =>
      let dec ←
        if claimSelf then
          if size ≠ unionDataSize then .error illegalMemoryRange
          else dec.claim target unionDataSize
        else .ok dec
      let (value, dec) ← member (target + 8) 0 dec
      .ok (.union (UInt32.ofNat tag) value, dec)

/-- Decode a string object. -/
def decodeStringAt (target : Nat) (dec : Decoder) : WireResult (Value × Decoder) := do
  dec.inRange target arrayHeaderSize
  let numBytes ← dec.readUint 4 target
  let numElements ← dec.readUint 4 (target + 4)
  if numBytes < arrayHeaderSize ∨ numBytes > dec.bytes.length - target then
    .error unexpectedArrayHeader
  else if numElements > numBytes - arrayHeaderSize then .error unexpectedArrayHeader
  else
    let dataStart := target + arrayHeaderSize
    let data := (dec.bytes.drop dataStart).take numElements
    if 0 ∈ data then .error deserializationFailed
    else if dec.bytes[dataStart + numElements]? ≠ some 0 then .error deserializationFailed
    else
      let dec ← dec.claim target numBytes
      match String.fromUTF8? ⟨data.toArray⟩ with
      | some s => .ok (.string s, dec)
      | none => .error deserializationFailed

/-- Decode the elements of an array from an offset on. -/
def decodeItems (item : Nat → Decoder → WireResult (Value × Decoder)) (elemSize : Nat) :
    Nat → Nat → Decoder → WireResult (List Value × Decoder)
  | 0, _, dec => .ok ([], dec)
  | n + 1, itemOff, dec => do
      let (v, dec) ← item itemOff dec
      let (vs, dec) ← decodeItems item elemSize n (itemOff + elemSize) dec
      .ok (v :: vs, dec)

/-- Decode one element: in place, or behind a pointer. -/
def decodeItem (element : Ty) (field : FieldDecoder) (object : Nat → Decoder → WireResult (Value × Decoder))
    (itemOff : Nat) (dec : Decoder) : WireResult (Value × Decoder) :=
  if element.isPod then field itemOff 0 dec else dec.follow itemOff element.isNullable object

/-- Decode an array object into its elements. -/
def decodeArrayBody (element : Ty) (item : Nat → Decoder → WireResult (Value × Decoder)) (target : Nat)
    (dec : Decoder) : WireResult (List Value × Decoder) := do
  dec.inRange target arrayHeaderSize
  let numBytes ← dec.readUint 4 target
  let numElements ← dec.readUint 4 (target + 4)
  let raw ← checkedMul element.elemSize numElements
  let minBytes ← checkedAdd arrayHeaderSize raw
  if numBytes < minBytes then .error unexpectedArrayHeader
  else if numBytes > dec.bytes.length - target then .error illegalMemoryRange
  else
    let dec ← dec.claim target numBytes
    decodeItems item element.elemSize numElements (target + arrayHeaderSize) dec

/-- An array, its items as a value. -/
def decodeArrayValue (element : Ty) (item : Nat → Decoder → WireResult (Value × Decoder)) (target : Nat)
    (dec : Decoder) : WireResult (Value × Decoder) := do
  let (vs, dec) ← decodeArrayBody element item target dec
  .ok (.array vs, dec)

/-- Decode the arrays of keys and of values of a map. -/
def decodeMapArrays (keys values : Nat → Decoder → WireResult (List Value × Decoder))
    (target : Nat) (dec : Decoder) : WireResult (Value × Decoder) := do
  let kp ← dec.readPointer (target + 8)
  let vp ← dec.readPointer (target + 16)
  match kp, vp with
  | .offset ko, .offset vo =>
      let (ks, dec) ← keys ko dec
      let (vs, dec) ← values vo dec
      if ks.length ≠ vs.length then .error (.validation .differentSizedArraysInMap)
      else .ok (.map ks vs, dec)
  | _, _ => .error unexpectedNullPointer

/-- Decode a map object. -/
def decodeMapAt (keys values : Nat → Decoder → WireResult (List Value × Decoder)) (target : Nat)
    (dec : Decoder) : WireResult (Value × Decoder) :=
  dec.nested fun dec => do
    dec.inRange target mapDataSize
    let numBytes ← dec.readUint 4 target
    if numBytes < mapDataSize then .error unexpectedStructHeader
    else
      let dec ← dec.claim target numBytes
      decodeMapArrays keys values target dec

/-! ### Fields -/

/-- The number of `w` bytes at an offset; one byte is read without a check of
the offset. -/
def readScalar (dec : Decoder) (w offset : Nat) : WireResult Nat :=
  if w = 1 then do
    let byte ← dec.readByte offset
    .ok byte.toNat
  else dec.readUint w offset

/-- Decode a value of fixed width. -/
def decodeScalar (ty : Ty) : FieldDecoder := fun offset _ dec => do
  let n ← readScalar dec ty.packKind.size offset
  match scalarValue ty n with
  | some v => .ok (v, dec)
  | none => .error .outOfRange

/-- A handle index that the message carries, or the invalid one. -/
def checkHandle (dec : Decoder) (index : Nat) : WireResult Unit :=
  if index ≠ encodedInvalidHandleValue.toNat ∧ index ≥ dec.handleCount then
    .error (.validation .illegalHandle)
  else .ok ()

/-- Decode two consecutive 32-bit numbers. -/
def readPair (dec : Decoder) (offset : Nat) : WireResult (Nat × Nat) := do
  let a ← dec.readUint 4 offset
  let b ← dec.readUint 4 (offset + 4)
  .ok (a, b)

mutual

/-- Decode a field of a type. -/
def decodeField : Ty → Bool → FieldDecoder
  | .bool, _, offset, bit, dec => do
      let byte ← dec.readByte offset
      .ok (.bool ((byte >>> UInt8.ofNat bit) &&& 1 != 0), dec)
  | .handle, _, offset, _, dec => do
      let index ← dec.readUint 4 offset
      checkHandle dec index
      .ok (.handle (UInt32.ofNat index), dec)
  | .string nullable, _, offset, _, dec => dec.follow offset nullable decodeStringAt
  | .array element nullable, _, offset, _, dec =>
      dec.follow offset nullable fun target dec => dec.nested <| decodeArrayValue element
        (decodeItem element (decodeField element false) (decodeArrayElement element)) target
  | .map key value nullable, _, offset, _, dec =>
      dec.follow offset nullable (decodeMapAt
        (decodeArrayBody key
          (decodeItem key (decodeField key false) (decodeArrayElement key)))
        (decodeArrayBody value
          (decodeItem value (decodeField value false) (decodeArrayElement value))))
  | .struct fields _ nullable, payload, offset, _, dec =>
      if payload || nullable then
        dec.follow offset nullable (decodeStruct fields (fieldDecoders fields))
      else decodeStructInline fields (fieldDecoders fields) offset dec
  | .union members nullable inlined, _, offset, _, dec =>
      if inlined then decodeUnionAt (memberDecoders members) false offset dec
      else dec.follow offset nullable (decodeUnionAt (memberDecoders members) true)
  | .interface version, _, offset, _, dec => do
      let (index, v) ← readPair dec offset
      checkHandle dec index
      .ok (.interface (UInt32.ofNat index) (UInt32.ofNat (max v version.toNat)), dec)
  | .associatedInterface version, _, offset, _, dec => do
      let (id, v) ← readPair dec offset
      .ok (.associatedInterface (UInt32.ofNat id) (UInt32.ofNat (max v version.toNat)), dec)
  | .nullableScalar inner, _, offset, bit, dec => decodeField inner false offset bit dec
  | ty, _, offset, bit, dec => decodeScalar ty offset bit dec

/-- Decode an array element that is an object of its own. -/
def decodeArrayElement : Ty → Nat → Decoder → WireResult (Value × Decoder)
  | .struct fields _ _, target, dec => decodeStruct fields (fieldDecoders fields) target dec
  | .string _, target, dec => decodeStringAt target dec
  | .map key value _, target, dec =>
      decodeMapAt
        (decodeArrayBody key
          (decodeItem key (decodeField key false) (decodeArrayElement key)))
        (decodeArrayBody value
          (decodeItem value (decodeField value false) (decodeArrayElement value))) target dec
  | .array inner _, target, dec =>
      decodeArrayValue inner
        (decodeItem inner (decodeField inner false) (decodeArrayElement inner)) target dec
  | _, _, _ => .error (unsupported "array element decode")

/-- The decoders of the fields of a struct. -/
def fieldDecoders : List FieldType → List FieldDecoder
  | [] => []
  | ⟨ty, _⟩ :: fts => decodeField ty false :: fieldDecoders fts

/-- The decoders of the members of a union. -/
def memberDecoders : List Ty → List FieldDecoder
  | [] => []
  | ty :: tys => decodeField ty true :: memberDecoders tys

end

end MojoRs.Wire
