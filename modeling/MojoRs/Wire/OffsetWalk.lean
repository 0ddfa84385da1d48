/-
MojoRs/Wire/OffsetWalk.lean

The offsets of a message, as a schema leads to them: a walk over the bytes that
lists what the decoder does with offsets (`Visits.lean`), in its order.  Like
the walk of `MessageObjects.lean` it checks nothing and keeps no decoder.  The
record of the decoder is a beginning of the list, and the whole list where the
decoder succeeds (`visitStructOf_follows`).

Main result: `visitStructOf_follows`.
-/
import MojoRs.Wire.OffsetSafety

namespace MojoRs.Wire

open Lib

/-- What is visited at an offset. -/
abbrev OffsetWalk := Nat → List Visit

/-! ### Objects -/

section Objects

variable (bytes : List UInt8)

/-- A pointer, and what it leads to. -/
def followedVisits (object : OffsetWalk) : OffsetWalk := fun offset =>
  match Pointer.decode offset (readLE bytes offset 8) with
  | .null => []
  | .offset target => .pointer offset target :: object target

/-- A packed field, unless the message has not got it. -/
def packedFieldVisits (walks : List OffsetWalk) (offset numBytes version : Nat)
    (pf : PackedField) : List Visit :=
  let absOffset := structHeaderSize + pf.offset
  if pf.minVersion ≤ version ∧ absOffset + pf.size ≤ numBytes then
    .sum (offset + absOffset) ::
      if pf.field.nullableValueKind ∧ pf.field.kind = .bool then []
      else match walks[pf.field.index]? with
        | none => []
        | some walk => walk (offset + absOffset)
  else []

/-- The offsets of a struct, and behind its fields. -/
def structVisits (fields : List FieldType) (walks : List OffsetWalk) : OffsetWalk := fun offset =>
  let numBytes := readLE bytes offset 4
  let version := readLE bytes (offset + 4) 4
  .object offset structHeaderSize :: .sum (offset + 4) :: .sum (offset + numBytes) ::
    (packed (packFields fields)).packedFields.flatMap
      (packedFieldVisits walks offset numBytes version)

/-- The offsets of a union, and behind its member. -/
def unionVisits (members : List OffsetWalk) : OffsetWalk := fun target =>
  .object target 8 :: .sum (target + 4) ::
    match members[readLE bytes (target + 4) 4]? with
    | none => []
    | some walk => .sum (target + 8) :: walk (target + 8)

/-- The offsets of a string. -/
def stringVisits : OffsetWalk := fun target =>
  [.object target arrayHeaderSize, .sum (target + 4), .sum (target + arrayHeaderSize),
    .sum (target + arrayHeaderSize + readLE bytes (target + 4) 4)]

/-- The elements of an array, from an offset on. -/
def itemsVisits (item : OffsetWalk) (elemSize : Nat) : Nat → OffsetWalk
  | 0, _ => []
  | n + 1, itemOff =>
      .sum itemOff :: (item itemOff ++ itemsVisits item elemSize n (itemOff + elemSize))

/-- An element in place, or behind a pointer. -/
def itemVisits (element : Ty) (field object : OffsetWalk) : OffsetWalk :=
  if element.isPod then field else followedVisits bytes object

/-- The offsets of an array, and behind its items. -/
def arrayVisits (element : Ty) (item : OffsetWalk) : OffsetWalk := fun target =>
  .object target arrayHeaderSize :: .sum (target + 4) :: .sum (target + arrayHeaderSize) ::
    itemsVisits item element.elemSize (readLE bytes (target + 4) 4) (target + arrayHeaderSize)

/-- The offsets of a map, and behind its keys and values. -/
def mapVisits (keys values : OffsetWalk) : OffsetWalk := fun target =>
  .object target mapDataSize :: .sum (target + 8) :: .sum (target + 16) ::
    (followedVisits bytes keys (target + 8) ++ followedVisits bytes values (target + 16))

end Objects

/-! ### Fields -/

mutual

/-- What is visited at a field of a type. -/
def fieldVisits (bytes : List UInt8) : Ty → Bool → OffsetWalk
  | .string _, _ => followedVisits bytes (stringVisits bytes)
  | .array element _, _ => followedVisits bytes (arrayVisits bytes element
      (itemVisits bytes element (fieldVisits bytes element false) (elementVisits bytes element)))
  | .map key value _, _ => followedVisits bytes (mapVisits bytes
      (arrayVisits bytes key
        (itemVisits bytes key (fieldVisits bytes key false) (elementVisits bytes key)))
      (arrayVisits bytes value
        (itemVisits bytes value (fieldVisits bytes value false) (elementVisits bytes value))))
  | .struct fields _ nullable, payload =>
      if payload || nullable then
        followedVisits bytes (structVisits bytes fields (fieldWalks bytes fields))
      else structVisits bytes fields (fieldWalks bytes fields)
  | .union members _ inlined, _ =>
      if inlined then unionVisits bytes (memberWalks bytes members)
      else followedVisits bytes (unionVisits bytes (memberWalks bytes members))
  | .interface _, _ | .associatedInterface _, _ => fun offset => [.sum (offset + 4)]
  | .nullableScalar inner, _ => fieldVisits bytes inner false
  | _, _ => fun _ => []

/-- What is visited at an array element that is an object of its own. -/
def elementVisits (bytes : List UInt8) : Ty → OffsetWalk
  | .struct fields _ _ => structVisits bytes fields (fieldWalks bytes fields)
  | .string _ => stringVisits bytes
  | .map key value _ => mapVisits bytes
      (arrayVisits bytes key
        (itemVisits bytes key (fieldVisits bytes key false) (elementVisits bytes key)))
      (arrayVisits bytes value
        (itemVisits bytes value (fieldVisits bytes value false) (elementVisits bytes value)))
  | .array inner _ => arrayVisits bytes inner
      (itemVisits bytes inner (fieldVisits bytes inner false) (elementVisits bytes inner))
  | _ => fun _ => []

/-- A walk for each field of a struct. -/
def fieldWalks (bytes : List UInt8) : List FieldType → List OffsetWalk
  | [] => []
  | ⟨ty, _⟩ :: fts => fieldVisits bytes ty false :: fieldWalks bytes fts

/-- A walk for each member of a union. -/
def memberWalks (bytes : List UInt8) : List Ty → List OffsetWalk
  | [] => []
  | ty :: tys => fieldVisits bytes ty true :: memberWalks bytes tys

end

/-- What is visited at a struct of a type. -/
def structVisitsOf (bytes : List UInt8) (ty : Ty) : OffsetWalk :=
  match ty with
  | .struct fields _ _ => structVisits bytes fields (fieldWalks bytes fields)
  | _ => fun _ => []

/-! ### The decoder follows the walk -/

open Traced

section Follow

variable {bytes : List UInt8} {dec : Decoder} {α : Type}

/-- The visits of objects are those of a walk, and leave the message as it is. -/
abbrev FollowsWalk (bytes : List UInt8) (visit : Nat → Decoder → Visiting (α × Decoder))
    (walk : OffsetWalk) : Prop :=
  ∀ target dec, dec.bytes = bytes → Follows (walk target) (visit target dec) (Returns bytes)

/-- So are those of the fields of a struct, or of the members of a union. -/
abbrev FieldsFollow (bytes : List UInt8) (visitors : List FieldVisitor)
    (walks : List OffsetWalk) : Prop :=
  List.Forall₂ (fun visit walk => ∀ bit, FollowsWalk bytes (fun offset => visit offset bit) walk)
    visitors walks

theorem FieldsFollow.getElem? {visitors : List FieldVisitor} {walks : List OffsetWalk}
    (h : FieldsFollow bytes visitors walks) {i : Nat} {visit : FieldVisitor}
    (hvisit : visitors[i]? = some visit) : ∃ walk, walks[i]? = some walk ∧
      ∀ bit, FollowsWalk bytes (fun offset => visit offset bit) walk := by
  induction h generalizing i with
  | nil => cases hvisit
  | cons hfirst _ ih =>
      cases i with
      | zero =>
          obtain rfl := Option.some.inj hvisit
          exact ⟨_, rfl, hfirst⟩
      | succ i => exact ih hvisit

theorem follows_inRange {start len : Nat} {ws : List Visit} {W : α → Prop}
    {f : Unit → Visiting α} (hf : Follows ws (f ()) W) :
    Follows (.object start len :: ws) (visitInRange dec start len >>= f) W :=
  (Follows.after_record (follows_lift fun _ _ => trivial) : Follows [Visit.object start len]
    (visitInRange dec start len) fun _ => True).bind fun _ _ => hf

theorem follows_nested {walk : List Visit} {body : Decoder → Visiting (α × Decoder)}
    (hdec : dec.bytes = bytes)
    (h : ∀ dec, dec.bytes = bytes → Follows walk (body dec) (Returns bytes)) :
    Follows walk (visitNested dec body) (Returns bytes) := by
  apply Follows.after_lift
  intro dec' henter
  have hdec' : dec'.bytes = bytes := by
    unfold Decoder.enter at henter
    dsimp only at henter
    split_ifs at henter
    rw [← Except.ok.inj henter]
    exact hdec
  rw [← List.append_nil walk]
  refine (h dec' hdec').bind fun y hy => follows_lift fun z hz => ?_
  rw [← Except.ok.inj hz]
  exact hy

theorem follows_follow {visit : Nat → Decoder → Visiting (Value × Decoder)} {walk : OffsetWalk}
    (h : FollowsWalk bytes visit walk) (nullable : Bool) :
    FollowsWalk bytes (fun offset dec => visitFollow dec offset nullable visit)
      (followedVisits bytes walk) := by
  intro offset dec hdec
  apply Follows.after_lift
  intro p hp
  rw [followedVisits, ← hdec, ← readPointer_eq_ok hp]
  cases p with
  | null =>
      refine follows_lift fun y hy => ?_
      split_ifs at hy
      rw [← Except.ok.inj hy]
  | offset target =>
      rw [hdec]
      exact (h target dec hdec).after_record

theorem follows_packedField {visitors : List FieldVisitor} {walks : List OffsetWalk}
    (h : FieldsFollow bytes visitors walks) (offset numBytes version : Nat) (pf : PackedField)
    {st : DecodedFields} (hst : st.dec.bytes = bytes) :
    Follows (packedFieldVisits walks offset numBytes version pf)
      (visitPackedField visitors offset numBytes version pf st) fun st => st.dec.bytes = bytes := by
  unfold visitPackedField packedFieldVisits
  dsimp only
  by_cases hread : pf.minVersion ≤ version ∧ structHeaderSize + pf.offset + pf.size ≤ numBytes
  · rw [if_pos hread, if_pos hread]
    apply Follows.after_record
    by_cases hflag : pf.field.nullableValueKind ∧ pf.field.kind = .bool
    · rw [if_pos hflag, if_pos hflag]
      apply Follows.after_lift
      intro byte _
      refine follows_lift fun st' hst' => ?_
      rw [← Except.ok.inj hst']
      exact hst
    rw [if_neg hflag, if_neg hflag]
    cases hvisit : visitors[pf.field.index]? with
    | none => exact follows_error
    | some visit =>
        obtain ⟨walk, hwalk, hfollows⟩ := h.getElem? hvisit
        rw [hwalk]
        dsimp only
        rw [← List.append_nil (walk _)]
        refine (hfollows _ _ st.dec hst).bind fun y hy => follows_lift fun st' hst' => ?_
        rw [← Except.ok.inj hst']
        exact hy
  · rw [if_neg hread, if_neg hread]
    refine follows_lift fun st' hst' => ?_
    rw [← Except.ok.inj hst']
    exact hst

theorem follows_packedFields {visitors : List FieldVisitor} {walks : List OffsetWalk}
    (h : FieldsFollow bytes visitors walks) (offset numBytes version : Nat)
    (pfs : List PackedField) {st : DecodedFields} (hst : st.dec.bytes = bytes) :
    Follows (pfs.flatMap (packedFieldVisits walks offset numBytes version))
      (visitPackedFields visitors offset numBytes version pfs st)
      fun st => st.dec.bytes = bytes := by
  induction pfs generalizing st with
  | nil =>
      refine follows_lift fun st' hst' => ?_
      rw [← Except.ok.inj hst']
      exact hst
  | cons pf pfs ih =>
      rw [List.flatMap_cons]
      exact (follows_packedField h offset numBytes version pf hst).bind fun st' hst' => ih hst'

theorem follows_structBody {visitors : List FieldVisitor} {walks : List OffsetWalk}
    (h : FieldsFollow bytes visitors walks) (fields : List FieldType) (claimSelf : Bool) :
    FollowsWalk bytes (visitStructBody fields visitors claimSelf)
      (structVisits bytes fields walks) := by
  intro offset dec hdec
  apply follows_inRange
  apply Follows.after_lift
  intro numBytes hnum
  apply Follows.after_record
  apply Follows.after_lift
  intro version hversion
  have hnum' := readUint_eq_ok hnum
  have hversion' := readUint_eq_ok hversion
  rw [hdec] at hnum' hversion'
  rw [← hnum', ← hversion']
  by_cases hsmall : numBytes < structHeaderSize
  · rw [if_pos hsmall]
    exact follows_error
  rw [if_neg hsmall]
  apply Follows.after_record
  by_cases hlong : offset + numBytes > dec.bytes.length
  · rw [if_pos hlong]
    exact follows_error
  rw [if_neg hlong]
  apply Follows.after_lift
  intro dec₁ hclaim
  have hdec₁ : dec₁.bytes = bytes := by
    cases claimSelf with
    | true =>
        rw [(claim_eq_ok hclaim).2.2.2]
        exact hdec
    | false =>
        rw [← Except.ok.inj hclaim]
        exact hdec
  apply Follows.after_lift
  intro pk hpack
  obtain ⟨-, rfl⟩ := pack_eq_ok hpack
  apply Follows.after_lift
  intro _ _
  rw [← List.append_nil (List.flatMap ..)]
  refine (follows_packedFields h offset numBytes version _ hdec₁).bind fun st hst => ?_
  refine follows_lift fun y hy => ?_
  rw [← Except.ok.inj hy]
  exact hst

theorem follows_struct {visitors : List FieldVisitor} {walks : List OffsetWalk}
    (h : FieldsFollow bytes visitors walks) (fields : List FieldType) :
    FollowsWalk bytes (visitStruct fields visitors) (structVisits bytes fields walks) :=
  fun offset _ hdec => follows_nested hdec fun dec hdec =>
    follows_structBody h fields true offset dec hdec

theorem follows_union {visitors : List FieldVisitor} {walks : List OffsetWalk}
    (h : FieldsFollow bytes visitors walks) (claimSelf : Bool) :
    FollowsWalk bytes (visitUnionAt visitors claimSelf) (unionVisits bytes walks) := by
  intro target dec hdec
  apply follows_inRange
  apply Follows.after_lift
  intro size _
  apply Follows.after_record
  apply Follows.after_lift
  intro tag htag
  rw [← hdec, ← readUint_eq_ok htag]
  cases hvisit : visitors[tag]? with
  | none => exact follows_error
  | some visit =>
      obtain ⟨walk, hwalk, hfollows⟩ := h.getElem? hvisit
      rw [hwalk]
      apply Follows.after_lift
      intro dec₁ hclaim
      have hdec₁ : dec₁.bytes = bytes := by
        split_ifs at hclaim
        · rw [(claim_eq_ok hclaim).2.2.2]
          exact hdec
        · rw [← Except.ok.inj hclaim]
          exact hdec
      apply Follows.after_record
      rw [← List.append_nil (walk _), hdec]
      refine (hfollows 0 (target + 8) dec₁ hdec₁).bind fun y hy => follows_lift fun z hz => ?_
      rw [← Except.ok.inj hz]
      exact hy

theorem follows_string : FollowsWalk bytes visitStringAt (stringVisits bytes) := by
  intro target dec hdec
  apply follows_inRange
  apply Follows.after_lift
  intro numBytes _
  apply Follows.after_record
  apply Follows.after_lift
  intro numElements hcount
  rw [← hdec, ← readUint_eq_ok hcount]
  split_ifs
  · exact follows_error
  · exact follows_error
  apply Follows.after_record
  apply Follows.after_record
  dsimp only
  split_ifs
  · exact follows_error
  · exact follows_error
  apply Follows.after_lift
  intro dec₁ hclaim
  split
  · refine follows_lift fun y hy => ?_
    rw [← Except.ok.inj hy]
    show dec₁.bytes = dec.bytes
    rw [(claim_eq_ok hclaim).2.2.2]
  · exact follows_error

theorem follows_items {visit : Nat → Decoder → Visiting (Value × Decoder)} {walk : OffsetWalk}
    (h : FollowsWalk bytes visit walk) (elemSize n : Nat) :
    FollowsWalk bytes (visitItems visit elemSize n) (itemsVisits walk elemSize n) := by
  intro itemOff dec hdec
  induction n generalizing itemOff dec with
  | zero =>
      refine follows_lift fun y hy => ?_
      rw [← Except.ok.inj hy]
      exact hdec
  | succ n ih =>
      apply Follows.after_record
      refine (h itemOff dec hdec).bind fun y hy => ?_
      rw [← List.append_nil (itemsVisits ..)]
      refine (ih _ y.2 hy).bind fun z hz => follows_lift fun w hw => ?_
      rw [← Except.ok.inj hw]
      exact hz

theorem follows_item {element : Ty} {field : FieldVisitor} {walk object : OffsetWalk}
    {visit : Nat → Decoder → Visiting (Value × Decoder)}
    (hfield : ∀ bit, FollowsWalk bytes (fun offset => field offset bit) walk)
    (hobject : FollowsWalk bytes visit object) :
    FollowsWalk bytes (visitItem element field visit) (itemVisits bytes element walk object) := by
  intro itemOff dec hdec
  unfold visitItem itemVisits
  split_ifs
  · exact hfield 0 itemOff dec hdec
  · exact follows_follow hobject element.isNullable itemOff dec hdec

theorem follows_arrayBody {element : Ty} {visit : Nat → Decoder → Visiting (Value × Decoder)}
    {walk : OffsetWalk} (h : FollowsWalk bytes visit walk) :
    FollowsWalk bytes (visitArrayBody element visit) (arrayVisits bytes element walk) := by
  intro target dec hdec
  apply follows_inRange
  apply Follows.after_lift
  intro numBytes _
  apply Follows.after_record
  apply Follows.after_lift
  intro numElements hcount
  apply Follows.after_lift
  intro raw _
  apply Follows.after_lift
  intro minBytes _
  rw [← hdec, ← readUint_eq_ok hcount]
  split_ifs
  · exact follows_error
  · exact follows_error
  apply Follows.after_lift
  intro dec₁ hclaim
  have hdec₁ : dec₁.bytes = bytes := by
    rw [(claim_eq_ok hclaim).2.2.2]
    exact hdec
  apply Follows.after_record
  rw [hdec]
  exact follows_items h element.elemSize numElements _ dec₁ hdec₁

theorem follows_arrayValue {element : Ty} {visit : Nat → Decoder → Visiting (Value × Decoder)}
    {walk : OffsetWalk} (h : FollowsWalk bytes visit walk) :
    FollowsWalk bytes (visitArrayValue element visit) (arrayVisits bytes element walk) := by
  intro target dec hdec
  rw [← List.append_nil (arrayVisits ..)]
  refine (follows_arrayBody h target dec hdec).bind fun y hy => follows_lift fun z hz => ?_
  rw [← Except.ok.inj hz]
  exact hy

/-- Both pointers of a map are read before the keys are visited. -/
theorem follows_map {keys values : Nat → Decoder → Visiting (List Value × Decoder)}
    {keysWalk valuesWalk : OffsetWalk} (hkeys : FollowsWalk bytes keys keysWalk)
    (hvalues : FollowsWalk bytes values valuesWalk) :
    FollowsWalk bytes (visitMapAt keys values) (mapVisits bytes keysWalk valuesWalk) := by
  intro target dec hdec
  refine follows_nested hdec fun dec hdec => ?_
  apply follows_inRange
  apply Follows.after_lift
  intro numBytes _
  split_ifs
  · exact follows_error
  apply Follows.after_lift
  intro dec₁ hclaim
  have hdec₁ : dec₁.bytes = bytes := by
    rw [(claim_eq_ok hclaim).2.2.2]
    exact hdec
  apply Follows.after_record
  apply Follows.after_lift
  intro kp hkp
  apply Follows.after_record
  apply Follows.after_lift
  intro vp hvp
  have hkp' := readPointer_eq_ok hkp
  have hvp' := readPointer_eq_ok hvp
  rw [hdec₁] at hkp' hvp'
  rw [followedVisits, followedVisits, ← hkp', ← hvp']
  cases kp with
  | null => exact follows_error
  | offset ko =>
      cases vp with
      | null => exact follows_error
      | offset vo =>
          apply Follows.after_record
          refine (hkeys ko dec₁ hdec₁).bind fun y hy => ?_
          apply Follows.after_record
          rw [← List.append_nil (valuesWalk vo)]
          refine (hvalues vo y.2 hy).bind fun z hz => ?_
          dsimp only
          split_ifs
          · exact follows_error
          · refine follows_lift fun w hw => ?_
            rw [← Except.ok.inj hw]
            exact hz

theorem follows_pair (offset : Nat) :
    Follows [.sum (offset + 4)] (visitPair dec offset) fun _ => True := by
  apply Follows.after_lift
  intro a _
  apply Follows.after_record
  apply Follows.after_lift
  exact fun b _ => follows_lift fun _ _ => trivial

/-- Fields that are read in place. -/
theorem follows_leaf {x : Nat → Decoder → WireResult (Value × Decoder)}
    (hkeep : ∀ offset dec v dec', x offset dec = .ok (v, dec') → dec' = dec) :
    FollowsWalk bytes (fun offset dec => lift (x offset dec)) fun _ => [] := by
  intro offset dec hdec
  refine follows_lift fun y hy => ?_
  obtain rfl := hkeep offset dec y.1 y.2 hy
  exact hdec

end Follow

/-! ### All types -/

mutual

theorem follows_field (bytes : List UInt8) : ∀ (ty : Ty) (payload : Bool) (bit : Nat),
    FollowsWalk bytes (fun offset => visitField ty payload offset bit) (fieldVisits bytes ty payload)
  | .string nullable, _, _ => follows_follow follows_string nullable
  | .array element nullable, _, _ =>
      follows_follow (fun target _ hdec => follows_nested hdec (follows_arrayValue
        (follows_item (follows_field bytes element false) (follows_element bytes element)) target))
        nullable
  | .map key value nullable, _, _ =>
      follows_follow (follows_map
        (follows_arrayBody (follows_item (follows_field bytes key false) (follows_element bytes key)))
        (follows_arrayBody
          (follows_item (follows_field bytes value false) (follows_element bytes value))))
        nullable
  -- a struct in place is visited without following a pointer
  | .struct fields _ nullable, payload, bit => by
      intro offset dec hdec
      have hfields := follows_fields bytes fields
      show Follows _ (visitField (.struct fields _ nullable) payload offset bit dec) _
      rw [visitField, fieldVisits]
      split_ifs
      · exact follows_follow (follows_struct hfields fields) nullable offset dec hdec
      · exact follows_nested hdec (follows_structBody hfields fields false offset)
  | .union members nullable inlined, _, bit => by
      intro offset dec hdec
      have hmembers := follows_members bytes members
      show Follows _ (visitField (.union members nullable inlined) _ offset bit dec) _
      rw [visitField, fieldVisits]
      split_ifs
      · exact follows_union hmembers false offset dec hdec
      · exact follows_follow (follows_union hmembers true) nullable offset dec hdec
  -- a pair of words: the offset of the second is a sum of its own
  | .interface version, _, _ => by
      intro offset dec hdec
      show Follows ([Visit.sum (offset + 4)] ++ []) _ _
      refine (follows_pair offset).bind fun x _ => ?_
      apply Follows.after_lift
      intro _ _
      refine follows_lift fun y hy => ?_
      rw [← Except.ok.inj hy]
      exact hdec
  | .associatedInterface version, _, _ => by
      intro offset dec hdec
      show Follows ([Visit.sum (offset + 4)] ++ []) _ _
      refine (follows_pair offset).bind fun x _ => follows_lift fun y hy => ?_
      rw [← Except.ok.inj hy]
      exact hdec
  | .nullableScalar inner, _, bit => follows_field bytes inner false bit
  | .bool, _, _ => follows_leaf fun _ _ _ _ => decodeBool_keeps
  | .handle, _, _ => follows_leaf fun _ _ _ _ => decodeHandle_keeps
  | .i8, _, _ | .u8, _, _ | .i16, _, _ | .u16, _, _ | .i32, _, _ | .u32, _, _ | .i64, _, _
  | .u64, _, _ | .f32, _, _ | .f64, _, _ | .enum, _, _ | .associatedEndpoint, _, _ =>
      follows_leaf fun _ _ _ _ => decodeScalar_keeps

theorem follows_element (bytes : List UInt8) : ∀ ty : Ty,
    FollowsWalk bytes (visitArrayElement ty) (elementVisits bytes ty)
  | .struct fields _ _ => follows_struct (follows_fields bytes fields) fields
  | .string _ => follows_string
  | .map key value _ => follows_map
      (follows_arrayBody (follows_item (follows_field bytes key false) (follows_element bytes key)))
      (follows_arrayBody
        (follows_item (follows_field bytes value false) (follows_element bytes value)))
  | .array inner _ => follows_arrayValue
      (follows_item (follows_field bytes inner false) (follows_element bytes inner))
  | .bool | .i8 | .u8 | .i16 | .u16 | .i32 | .u32 | .i64 | .u64 | .f32 | .f64 | .enum | .handle
  | .union .. | .interface .. | .associatedEndpoint | .associatedInterface .. | .nullableScalar .. =>
      fun _ _ _ => follows_error

theorem follows_fields (bytes : List UInt8) : ∀ fields : List FieldType,
    FieldsFollow bytes (fieldVisitors fields) (fieldWalks bytes fields)
  | [] => .nil
  | ⟨ty, _⟩ :: fts => .cons (follows_field bytes ty false) (follows_fields bytes fts)

theorem follows_members (bytes : List UInt8) : ∀ members : List Ty,
    FieldsFollow bytes (memberVisitors members) (memberWalks bytes members)
  | [] => .nil
  | ty :: tys => .cons (follows_field bytes ty true) (follows_members bytes tys)

end

/-- The decoder visits what the walk lists, until it fails. -/
theorem visitStructOf_follows (ty : Ty) (offset : Nat) (dec : Decoder) :
    Follows (structVisitsOf dec.bytes ty offset) (visitStructOf ty offset dec)
      (Returns dec.bytes) := by
  cases ty with
  | struct fields version nullable =>
      exact follows_struct (follows_fields dec.bytes fields) fields offset dec rfl
  | _ => exact follows_error

end MojoRs.Wire
