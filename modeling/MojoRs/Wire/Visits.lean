/-
MojoRs/Wire/Visits.lean

The decoder with a record of what it does with offsets: the pointers that it
follows, the objects whose headers it tests against the end of the message, and
the sums that it computes without a check.  Each `visit…` stands next to the
`decode…` of `Decode.lean` whose record it keeps and does the same
(`visitField_result`).

Sums of offsets within a packed struct are left out: they come from the schema.

Main result: `visitStruct_result`.
-/
import MojoRs.Lib.Traced
import MojoRs.Wire.Decode

namespace MojoRs.Wire

open Lib

/-- What the decoder does with an offset. -/
inductive Visit
  /-- It follows a pointer that is not null. -/
  | pointer (slot target : Nat)
  /-- It tests an object: `start + size > bytes.len()`. -/
  | object (start size : Nat)
  /-- It computes another sum. -/
  | sum (n : Nat)
  deriving DecidableEq, Repr

/-- A decoder that records the offsets it computes. -/
abbrev Visiting (α : Type) := Traced Visit WireError α

/-- How a type is visited at a field. -/
abbrev FieldVisitor := Nat → Nat → Decoder → Visiting (Value × Decoder)

open Traced

/-! ### Objects -/

/-- `in_range`, recorded. -/
def visitInRange (dec : Decoder) (start len : Nat) : Visiting Unit := do
  record (.object start len)
  lift (dec.inRange start len)

/-- One level deeper, recorded. -/
def visitNested {α : Type} (dec : Decoder) (body : Decoder → Visiting (α × Decoder)) :
    Visiting (α × Decoder) := do
  let dec ← lift dec.enter
  let (a, dec) ← body dec
  lift (.ok (a, dec.leave))

/-- Follow a pointer, recorded. -/
def visitFollow (dec : Decoder) (offset : Nat) (nullable : Bool)
    (object : Nat → Decoder → Visiting (Value × Decoder)) : Visiting (Value × Decoder) := do
  match ← lift (dec.readPointer offset) with
  | .null => lift (if nullable then .ok (.null, dec) else .error unexpectedNullPointer)
  | .offset target =>
      record (.pointer offset target)
      object target dec

/-- `decode_packed_field`, recorded. -/
def visitPackedField (visitors : List FieldVisitor) (offset numBytes version : Nat)
    (pf : PackedField) (st : DecodedFields) : Visiting DecodedFields :=
  let absOffset := structHeaderSize + pf.offset
  if pf.minVersion ≤ version ∧ absOffset + pf.size ≤ numBytes then do
    let fieldOff := offset + absOffset
    record (.sum fieldOff)
    if pf.field.nullableValueKind ∧ pf.field.kind = .bool then
      let byte ← lift (st.dec.readByte fieldOff)
      let present := (byte >>> UInt8.ofNat pf.bit) &&& 1 != 0
      lift (.ok { st with presence := st.presence.set pf.field.index present })
    else
      match visitors[pf.field.index]? with
      | none => lift (.error .outOfRange)
      | some visit =>
          let bit := if pf.field.nullableValueKind then 0 else pf.bit
          let (v, dec) ← visit fieldOff bit st.dec
          lift (.ok { st with scalars := st.scalars.set pf.field.index v, dec := dec })
  else lift (.ok st)

/-- All packed fields, recorded. -/
def visitPackedFields (visitors : List FieldVisitor) (offset numBytes version : Nat) :
    List PackedField → DecodedFields → Visiting DecodedFields
  | [], st => lift (.ok st)
  | pf :: pfs, st => do
      let st ← visitPackedField visitors offset numBytes version pf st
      visitPackedFields visitors offset numBytes version pfs st

/-- `decode_struct` inside its level, recorded. -/
def visitStructBody (fields : List FieldType) (visitors : List FieldVisitor) (claimSelf : Bool)
    (offset : Nat) (dec : Decoder) : Visiting (Value × Decoder) := do
  visitInRange dec offset structHeaderSize
  let numBytes ← lift (dec.readUint 4 offset)
  record (.sum (offset + 4))
  let version ← lift (dec.readUint 4 (offset + 4))
  if numBytes < structHeaderSize then lift (.error unexpectedStructHeader)
  else
    record (.sum (offset + numBytes))
    if offset + numBytes > dec.bytes.length then lift (.error illegalMemoryRange)
    else
      let dec ← lift (dec.claimIf claimSelf offset numBytes)
      let packed ← lift (PackedStruct.pack (packFields fields))
      lift (checkStructSize fields packed numBytes version)
      let st ← visitPackedFields visitors offset numBytes version packed.packedFields
        ⟨fields.map defaultValue, List.replicate fields.length false, dec⟩
      lift (.ok (.struct (UInt32.ofNat version) (assembleFields fields st.scalars st.presence),
        st.dec))

/-- A struct behind a pointer, recorded. -/
def visitStruct (fields : List FieldType) (visitors : List FieldVisitor) (offset : Nat)
    (dec : Decoder) : Visiting (Value × Decoder) :=
  visitNested dec (visitStructBody fields visitors true offset)

/-- A struct in its place, recorded. -/
def visitStructInline (fields : List FieldType) (visitors : List FieldVisitor) (offset : Nat)
    (dec : Decoder) : Visiting (Value × Decoder) :=
  visitNested dec (visitStructBody fields visitors false offset)

/-- A union, recorded. -/
def visitUnionAt (members : List FieldVisitor) (claimSelf : Bool) (target : Nat)
    (dec : Decoder) : Visiting (Value × Decoder) := do
  visitInRange dec target 8
  let size ← lift (dec.readUint 4 target)
  record (.sum (target + 4))
  let tag ← lift (dec.readUint 4 (target + 4))
  match members[tag]? with
  | none => lift (.error (.validation .unknownUnionTag))
  | some member =>
      let dec ← lift <|
        if claimSelf then
          if size ≠ unionDataSize then .error illegalMemoryRange
          else dec.claim target unionDataSize
        else .ok dec
      record (.sum (target + 8))
      let (value, dec) ← member (target + 8) 0 dec
      lift (.ok (.union (UInt32.ofNat tag) value, dec))

/-- A string, recorded. -/
def visitStringAt (target : Nat) (dec : Decoder) : Visiting (Value × Decoder) := do
  visitInRange dec target arrayHeaderSize
  let numBytes ← lift (dec.readUint 4 target)
  record (.sum (target + 4))
  let numElements ← lift (dec.readUint 4 (target + 4))
  if numBytes < arrayHeaderSize ∨ numBytes > dec.bytes.length - target then
    lift (.error unexpectedArrayHeader)
  else if numElements > numBytes - arrayHeaderSize then lift (.error unexpectedArrayHeader)
  else
    let dataStart := target + arrayHeaderSize
    record (.sum dataStart)
    record (.sum (dataStart + numElements))
    let data := (dec.bytes.drop dataStart).take numElements
    if 0 ∈ data then lift (.error deserializationFailed)
    else if dec.bytes[dataStart + numElements]? ≠ some 0 then lift (.error deserializationFailed)
    else
      let dec ← lift (dec.claim target numBytes)
      match String.fromUTF8? ⟨data.toArray⟩ with
      | some s => lift (.ok (.string s, dec))
      | none => lift (.error deserializationFailed)

/-- The items of an array, recorded. -/
def visitItems (item : Nat → Decoder → Visiting (Value × Decoder)) (elemSize : Nat) :
    Nat → Nat → Decoder → Visiting (List Value × Decoder)
  | 0, _, dec => lift (.ok ([], dec))
  | n + 1, itemOff, dec => do
      record (.sum itemOff)
      let (v, dec) ← item itemOff dec
      let (vs, dec) ← visitItems item elemSize n (itemOff + elemSize) dec
      lift (.ok (v :: vs, dec))

/-- One item, recorded. -/
def visitItem (element : Ty) (field : FieldVisitor)
    (object : Nat → Decoder → Visiting (Value × Decoder)) (itemOff : Nat) (dec : Decoder) :
    Visiting (Value × Decoder) :=
  if element.isPod then field itemOff 0 dec else visitFollow dec itemOff element.isNullable object

/-- An array inside its level, recorded. -/
def visitArrayBody (element : Ty) (item : Nat → Decoder → Visiting (Value × Decoder))
    (target : Nat) (dec : Decoder) : Visiting (List Value × Decoder) := do
  visitInRange dec target arrayHeaderSize
  let numBytes ← lift (dec.readUint 4 target)
  record (.sum (target + 4))
  let numElements ← lift (dec.readUint 4 (target + 4))
  let raw ← lift (checkedMul element.elemSize numElements)
  let minBytes ← lift (checkedAdd arrayHeaderSize raw)
  if numBytes < minBytes then lift (.error unexpectedArrayHeader)
  else if numBytes > dec.bytes.length - target then lift (.error illegalMemoryRange)
  else
    let dec ← lift (dec.claim target numBytes)
    record (.sum (target + arrayHeaderSize))
    visitItems item element.elemSize numElements (target + arrayHeaderSize) dec

/-- An array as a value, recorded. -/
def visitArrayValue (element : Ty) (item : Nat → Decoder → Visiting (Value × Decoder))
    (target : Nat) (dec : Decoder) : Visiting (Value × Decoder) := do
  let (vs, dec) ← visitArrayBody element item target dec
  lift (.ok (.array vs, dec))

/-- The keys and the values of a map, recorded. -/
def visitMapArrays (keys values : Nat → Decoder → Visiting (List Value × Decoder))
    (target : Nat) (dec : Decoder) : Visiting (Value × Decoder) := do
  record (.sum (target + 8))
  let kp ← lift (dec.readPointer (target + 8))
  record (.sum (target + 16))
  let vp ← lift (dec.readPointer (target + 16))
  match kp, vp with
  | .offset ko, .offset vo =>
      record (.pointer (target + 8) ko)
      let (ks, dec) ← keys ko dec
      record (.pointer (target + 16) vo)
      let (vs, dec) ← values vo dec
      if ks.length ≠ vs.length then lift (.error (.validation .differentSizedArraysInMap))
      else lift (.ok (.map ks vs, dec))
  | _, _ => lift (.error unexpectedNullPointer)

/-- A map, recorded. -/
def visitMapAt (keys values : Nat → Decoder → Visiting (List Value × Decoder)) (target : Nat)
    (dec : Decoder) : Visiting (Value × Decoder) :=
  visitNested dec fun dec => do
    visitInRange dec target mapDataSize
    let numBytes ← lift (dec.readUint 4 target)
    if numBytes < mapDataSize then lift (.error unexpectedStructHeader)
    else
      let dec ← lift (dec.claim target numBytes)
      visitMapArrays keys values target dec

/-! ### Fields -/

/-- The second of two consecutive numbers is read at a sum. -/
def visitPair (dec : Decoder) (offset : Nat) : Visiting (Nat × Nat) := do
  let a ← lift (dec.readUint 4 offset)
  record (.sum (offset + 4))
  let b ← lift (dec.readUint 4 (offset + 4))
  lift (.ok (a, b))

mutual

/-- A field of a type, recorded. -/
def visitField : Ty → Bool → FieldVisitor
  | .string nullable, _, offset, _, dec => visitFollow dec offset nullable visitStringAt
  | .array element nullable, _, offset, _, dec =>
      visitFollow dec offset nullable fun target dec => visitNested dec <| visitArrayValue element
        (visitItem element (visitField element false) (visitArrayElement element)) target
  | .map key value nullable, _, offset, _, dec =>
      visitFollow dec offset nullable (visitMapAt
        (visitArrayBody key (visitItem key (visitField key false) (visitArrayElement key)))
        (visitArrayBody value
          (visitItem value (visitField value false) (visitArrayElement value))))
  | .struct fields _ nullable, payload, offset, _, dec =>
      if payload || nullable then
        visitFollow dec offset nullable (visitStruct fields (fieldVisitors fields))
      else visitStructInline fields (fieldVisitors fields) offset dec
  | .union members nullable inlined, _, offset, _, dec =>
      if inlined then visitUnionAt (memberVisitors members) false offset dec
      else visitFollow dec offset nullable (visitUnionAt (memberVisitors members) true)
  | .interface version, _, offset, _, dec => do
      let (index, v) ← visitPair dec offset
      lift (checkHandle dec index)
      lift (.ok (.interface (UInt32.ofNat index) (UInt32.ofNat (max v version.toNat)), dec))
  | .associatedInterface version, _, offset, _, dec => do
      let (id, v) ← visitPair dec offset
      lift (.ok (.associatedInterface (UInt32.ofNat id) (UInt32.ofNat (max v version.toNat)), dec))
  | .nullableScalar inner, _, offset, bit, dec => visitField inner false offset bit dec
  -- the others are read in place
  | ty, payload, offset, bit, dec => lift (decodeField ty payload offset bit dec)

/-- An item that is an object, recorded. -/
def visitArrayElement : Ty → Nat → Decoder → Visiting (Value × Decoder)
  | .struct fields _ _, target, dec => visitStruct fields (fieldVisitors fields) target dec
  | .string _, target, dec => visitStringAt target dec
  | .map key value _, target, dec =>
      visitMapAt
        (visitArrayBody key (visitItem key (visitField key false) (visitArrayElement key)))
        (visitArrayBody value
          (visitItem value (visitField value false) (visitArrayElement value))) target dec
  | .array inner _, target, dec =>
      visitArrayValue inner
        (visitItem inner (visitField inner false) (visitArrayElement inner)) target dec
  | _, _, _ => lift (.error (unsupported "array element decode"))

/-- A decoder for each field of a struct, recorded. -/
def fieldVisitors : List FieldType → List FieldVisitor
  | [] => []
  | ⟨ty, _⟩ :: fts => visitField ty false :: fieldVisitors fts

/-- A decoder for each member of a union, recorded. -/
def memberVisitors : List Ty → List FieldVisitor
  | [] => []
  | ty :: tys => visitField ty true :: memberVisitors tys

end

/-! ### The results are those of the decoder -/

section Results

variable {α : Type} {dec : Decoder}

theorem visitInRange_result (start len : Nat) :
    (visitInRange dec start len).result = dec.inRange start len := rfl

theorem visitNested_result {visit : Decoder → Visiting (α × Decoder)}
    {body : Decoder → WireResult (α × Decoder)} (h : ∀ dec, (visit dec).result = body dec) :
    (visitNested dec visit).result = dec.nested body := by
  unfold visitNested Decoder.nested
  simp only [result_bind, h, result_lift]

theorem visitFollow_result {visit : Nat → Decoder → Visiting (Value × Decoder)}
    {object : Nat → Decoder → WireResult (Value × Decoder)}
    (h : ∀ target dec, (visit target dec).result = object target dec) (offset : Nat)
    (nullable : Bool) :
    (visitFollow dec offset nullable visit).result = dec.follow offset nullable object := by
  unfold visitFollow Decoder.follow
  rw [result_bind, result_lift]
  congr 1
  funext p
  cases p with
  | null => rfl
  | offset target => exact h target dec

/-- The visitors of the fields stand next to their decoders. -/
abbrev Beside (visitors : List FieldVisitor) (decoders : List FieldDecoder) : Prop :=
  List.Forall₂ (fun visit decode => ∀ offset bit dec,
    (visit offset bit dec).result = decode offset bit dec) visitors decoders

theorem Beside.getElem? {visitors : List FieldVisitor} {decoders : List FieldDecoder}
    (h : Beside visitors decoders) (i : Nat) :
    (visitors[i]? = none ∧ decoders[i]? = none) ∨ ∃ visit decode, visitors[i]? = some visit ∧
      decoders[i]? = some decode ∧
      ∀ offset bit dec, (visit offset bit dec).result = decode offset bit dec := by
  induction h generalizing i with
  | nil => exact .inl ⟨rfl, rfl⟩
  | @cons visit decode _ _ hvisit _ ih =>
      cases i with
      | zero => exact .inr ⟨visit, decode, rfl, rfl, hvisit⟩
      | succ i => exact ih i

theorem visitPackedField_result {visitors : List FieldVisitor} {decoders : List FieldDecoder}
    (h : Beside visitors decoders) (offset numBytes version : Nat) (pf : PackedField)
    (st : DecodedFields) :
    (visitPackedField visitors offset numBytes version pf st).result =
      decodePackedField decoders offset numBytes version pf st := by
  unfold visitPackedField decodePackedField
  dsimp only
  by_cases hread : pf.minVersion ≤ version ∧ structHeaderSize + pf.offset + pf.size ≤ numBytes
  · rw [if_pos hread, if_pos hread]
    by_cases hflag : pf.field.nullableValueKind ∧ pf.field.kind = .bool
    · rw [if_pos hflag, if_pos hflag]
      simp only [result_bind, result_lift, result_record, ok_bind]
    rw [if_neg hflag, if_neg hflag, result_bind, result_record, ok_bind]
    rcases h.getElem? pf.field.index with ⟨hvisit, hdecode⟩ | ⟨visit, decode, hvisit, hdecode, heq⟩
    · rw [hvisit, hdecode]
      rfl
    · rw [hvisit, hdecode]
      dsimp only
      rw [result_bind, heq]
      rfl
  · rw [if_neg hread, if_neg hread]
    rfl

theorem visitPackedFields_result {visitors : List FieldVisitor} {decoders : List FieldDecoder}
    (h : Beside visitors decoders) (offset numBytes version : Nat) (pfs : List PackedField)
    (st : DecodedFields) :
    (visitPackedFields visitors offset numBytes version pfs st).result =
      decodePackedFields decoders offset numBytes version pfs st := by
  induction pfs generalizing st with
  | nil => rfl
  | cons pf pfs ih =>
      rw [visitPackedFields, decodePackedFields, result_bind, visitPackedField_result h]
      congr 1
      funext st
      exact ih st

theorem visitStructBody_result {visitors : List FieldVisitor} {decoders : List FieldDecoder}
    (h : Beside visitors decoders) (fields : List FieldType) (claimSelf : Bool) (offset : Nat) :
    (visitStructBody fields visitors claimSelf offset dec).result =
      decodeStructBody fields decoders claimSelf offset dec := by
  unfold visitStructBody decodeStructBody
  simp only [result_bind, visitInRange_result, result_lift, result_record, ok_bind]
  congr 1; funext _
  congr 1; funext numBytes
  congr 1; funext version
  split_ifs
  · rfl
  · rfl
  · simp only [result_bind, visitPackedFields_result h, result_lift, result_record, ok_bind]

theorem visitUnionAt_result {visitors : List FieldVisitor} {decoders : List FieldDecoder}
    (h : Beside visitors decoders) (claimSelf : Bool) (target : Nat) :
    (visitUnionAt visitors claimSelf target dec).result =
      decodeUnionAt decoders claimSelf target dec := by
  unfold visitUnionAt decodeUnionAt
  simp only [result_bind, visitInRange_result, result_lift, result_record, ok_bind]
  congr 1; funext _
  congr 1; funext size
  congr 1; funext tag
  rcases h.getElem? tag with ⟨hvisit, hdecode⟩ | ⟨visit, decode, hvisit, hdecode, heq⟩
  · rw [hvisit, hdecode]
    rfl
  · rw [hvisit, hdecode]
    simp only [result_bind, result_record, ok_bind, heq, result_lift]
    split_ifs <;> rfl

theorem visitStringAt_result (target : Nat) :
    (visitStringAt target dec).result = decodeStringAt target dec := by
  unfold visitStringAt decodeStringAt
  simp only [result_bind, visitInRange_result, result_lift, result_record, ok_bind]
  congr 1; funext _
  congr 1; funext numBytes
  congr 1; funext numElements
  split_ifs
  · rfl
  · rfl
  · rfl
  · rfl
  · simp only [result_bind, result_lift, result_record, ok_bind]
    congr 1; funext dec
    cases String.fromUTF8? _ <;> rfl

theorem visitItems_result {visit : Nat → Decoder → Visiting (Value × Decoder)}
    {item : Nat → Decoder → WireResult (Value × Decoder)}
    (h : ∀ off dec, (visit off dec).result = item off dec) (elemSize n itemOff : Nat)
    (dec : Decoder) :
    (visitItems visit elemSize n itemOff dec).result = decodeItems item elemSize n itemOff dec := by
  induction n generalizing itemOff dec with
  | zero => rfl
  | succ n ih =>
      rw [visitItems, decodeItems, result_bind, result_record, ok_bind, result_bind, h]
      congr 1
      funext x
      rw [result_bind, ih]
      rfl

theorem visitItem_result {element : Ty} {field : FieldVisitor} {field' : FieldDecoder}
    {object : Nat → Decoder → Visiting (Value × Decoder)}
    {object' : Nat → Decoder → WireResult (Value × Decoder)}
    (hfield : ∀ offset bit dec, (field offset bit dec).result = field' offset bit dec)
    (hobject : ∀ target dec, (object target dec).result = object' target dec) (itemOff : Nat)
    (dec : Decoder) :
    (visitItem element field object itemOff dec).result =
      decodeItem element field' object' itemOff dec := by
  unfold visitItem decodeItem
  split_ifs
  · exact hfield itemOff 0 dec
  · exact visitFollow_result hobject itemOff _

theorem visitArrayBody_result {element : Ty} {visit : Nat → Decoder → Visiting (Value × Decoder)}
    {item : Nat → Decoder → WireResult (Value × Decoder)}
    (h : ∀ off dec, (visit off dec).result = item off dec) (target : Nat) (dec : Decoder) :
    (visitArrayBody element visit target dec).result = decodeArrayBody element item target dec := by
  unfold visitArrayBody decodeArrayBody
  simp only [result_bind, visitInRange_result, result_lift, result_record, ok_bind]
  congr 1; funext _
  congr 1; funext numBytes
  congr 1; funext numElements
  congr 1; funext raw
  congr 1; funext minBytes
  split_ifs
  · rfl
  · rfl
  · simp only [result_bind, result_lift, result_record, ok_bind, visitItems_result h]

theorem visitArrayValue_result {element : Ty} {visit : Nat → Decoder → Visiting (Value × Decoder)}
    {item : Nat → Decoder → WireResult (Value × Decoder)}
    (h : ∀ off dec, (visit off dec).result = item off dec) (target : Nat) (dec : Decoder) :
    (visitArrayValue element visit target dec).result =
      decodeArrayValue element item target dec := by
  unfold visitArrayValue decodeArrayValue
  rw [result_bind, visitArrayBody_result h]
  rfl

theorem visitMapAt_result {keys values : Nat → Decoder → Visiting (List Value × Decoder)}
    {keys' values' : Nat → Decoder → WireResult (List Value × Decoder)}
    (hkeys : ∀ target dec, (keys target dec).result = keys' target dec)
    (hvalues : ∀ target dec, (values target dec).result = values' target dec) (target : Nat)
    (dec : Decoder) :
    (visitMapAt keys values target dec).result = decodeMapAt keys' values' target dec := by
  apply visitNested_result
  intro dec
  simp only [result_bind, visitInRange_result, result_lift]
  congr 1; funext _
  congr 1; funext numBytes
  split_ifs
  · rfl
  · simp only [result_bind, result_lift]
    congr 1; funext dec
    unfold visitMapArrays decodeMapArrays
    simp only [result_bind, result_lift, result_record, ok_bind]
    congr 1; funext kp
    congr 1; funext vp
    cases kp with
    | null => rfl
    | offset ko =>
        cases vp with
        | null => rfl
        | offset vo =>
            simp only [result_bind, result_record, ok_bind, hkeys, hvalues]
            congr 1; funext x
            congr 1; funext y
            split_ifs <;> rfl

theorem visitPair_result (offset : Nat) : (visitPair dec offset).result = readPair dec offset := by
  unfold visitPair readPair
  simp only [result_bind, result_lift, result_record, ok_bind]

end Results

mutual

/-- A visit has the result of the decoder. -/
theorem visitField_result : ∀ (ty : Ty) (payload : Bool) (offset bit : Nat) (dec : Decoder),
    (visitField ty payload offset bit dec).result = decodeField ty payload offset bit dec
  | .string nullable, _, offset, _, _ =>
      visitFollow_result (fun target _ => visitStringAt_result target) offset nullable
  | .array element nullable, _, offset, _, _ =>
      visitFollow_result (fun target _ => visitNested_result fun dec => visitArrayValue_result
        (visitItem_result (visitField_result element false) (visitArrayElement_result element))
        target dec) offset nullable
  | .map key value nullable, _, offset, _, _ =>
      visitFollow_result (visitMapAt_result
        (visitArrayBody_result
          (visitItem_result (visitField_result key false) (visitArrayElement_result key)))
        (visitArrayBody_result
          (visitItem_result (visitField_result value false) (visitArrayElement_result value))))
        offset nullable
  | .struct fields _ nullable, payload, offset, _, _ => by
      rw [visitField, decodeField]
      split_ifs
      · exact visitFollow_result (fun target _ => visitNested_result fun _ =>
          visitStructBody_result (fieldVisitors_beside fields) fields true target) offset nullable
      · exact visitNested_result fun _ =>
          visitStructBody_result (fieldVisitors_beside fields) fields false offset
  | .union members nullable inlined, _, offset, _, _ => by
      rw [visitField, decodeField]
      split_ifs
      · exact visitUnionAt_result (memberVisitors_beside members) false offset
      · exact visitFollow_result (fun target _ =>
          visitUnionAt_result (memberVisitors_beside members) true target) offset nullable
  | .interface version, _, offset, _, dec => by
      rw [visitField, decodeField, result_bind, visitPair_result]
      congr 1
      funext x
      obtain ⟨index, v⟩ := x
      exact result_bind (lift (checkHandle dec index)) _
  | .associatedInterface version, _, offset, _, dec => by
      rw [visitField, decodeField, result_bind, visitPair_result]
      rfl
  | .nullableScalar inner, _, offset, bit, dec => visitField_result inner false offset bit dec
  | .bool, _, _, _, _ | .handle, _, _, _, _ | .i8, _, _, _, _ | .u8, _, _, _, _ | .i16, _, _, _, _
  | .u16, _, _, _, _ | .i32, _, _, _, _ | .u32, _, _, _, _ | .i64, _, _, _, _ | .u64, _, _, _, _
  | .f32, _, _, _, _ | .f64, _, _, _, _ | .enum, _, _, _, _
  | .associatedEndpoint, _, _, _, _ => rfl

theorem visitArrayElement_result : ∀ (ty : Ty) (target : Nat) (dec : Decoder),
    (visitArrayElement ty target dec).result = decodeArrayElement ty target dec
  | .struct fields _ _, target, _ => visitNested_result fun _ =>
      visitStructBody_result (fieldVisitors_beside fields) fields true target
  | .string _, target, _ => visitStringAt_result target
  | .map key value _, target, dec => visitMapAt_result
      (visitArrayBody_result
        (visitItem_result (visitField_result key false) (visitArrayElement_result key)))
      (visitArrayBody_result
        (visitItem_result (visitField_result value false) (visitArrayElement_result value)))
      target dec
  | .array inner _, target, dec => visitArrayValue_result
      (visitItem_result (visitField_result inner false) (visitArrayElement_result inner)) target dec
  | .bool, _, _ | .handle, _, _ | .i8, _, _ | .u8, _, _ | .i16, _, _ | .u16, _, _ | .i32, _, _
  | .u32, _, _ | .i64, _, _ | .u64, _, _ | .f32, _, _ | .f64, _, _ | .enum, _, _
  | .associatedEndpoint, _, _ | .union .., _, _ | .interface .., _, _
  | .associatedInterface .., _, _ | .nullableScalar .., _, _ => rfl

theorem fieldVisitors_beside : ∀ fields : List FieldType,
    Beside (fieldVisitors fields) (fieldDecoders fields)
  | [] => .nil
  | ⟨ty, _⟩ :: fts => .cons (visitField_result ty false) (fieldVisitors_beside fts)

theorem memberVisitors_beside : ∀ members : List Ty,
    Beside (memberVisitors members) (memberDecoders members)
  | [] => .nil
  | ty :: tys => .cons (visitField_result ty true) (memberVisitors_beside tys)

end

theorem visitStruct_result (fields : List FieldType) (offset : Nat) (dec : Decoder) :
    (visitStruct fields (fieldVisitors fields) offset dec).result =
      decodeStruct fields (fieldDecoders fields) offset dec :=
  visitNested_result fun _ => visitStructBody_result (fieldVisitors_beside fields) fields true offset

end MojoRs.Wire
