/-
MojoRs/Wire/PointerBudget.lean

How many pointers a decoder follows.  Every pointer leads to an object that is
claimed behind the frontier, with a header of eight bytes at least, before what
is inside is visited; and the frontier never moves back.  So the pointers are
paid for by the message, whether they go forth, back or in circles: a decoder
follows at most one for eight bytes.

What is bounded is the distance from the frontier to the end of the message; a
visit of an object that was pointed to starts with eight bytes of credit.

Main result: `pointers_followed_le`.
-/
import MojoRs.Wire.OffsetWalk

namespace MojoRs.Wire

open Lib Traced

variable {α β : Type}

/-- The number of pointers of a record. -/
def pointers (events : List Visit) : Nat := events.countP (· matches .pointer ..)

@[simp] theorem pointers_append (vs ws : List Visit) :
    pointers (vs ++ ws) = pointers vs + pointers ws := List.countP_append

/-- A visit that begins at a frontier, with a credit, and leaves the decoder
`after`: its pointers are paid for with bytes in front of the frontier. -/
structure Spends (bytes : List UInt8) (frontier credit : Nat) (x : Visiting α)
    (after : α → Decoder) : Prop where
  returns : ∀ a, x.result = .ok a →
    frontier + credit + 8 * pointers x.events ≤ (after a).frontier ∧
      (after a).frontier ≤ bytes.length ∧ (after a).bytes = bytes
  bounded : frontier + credit + 8 * pointers x.events ≤ bytes.length + 8

section Rules

variable {bytes : List UInt8} {frontier credit : Nat} {after : α → Decoder} {after' : β → Decoder}
  {x : Visiting α} {f : α → Visiting β}

theorem Spends.bind (hx : Spends bytes frontier credit x after)
    (hf : ∀ a, (after a).bytes = bytes → (after a).frontier ≤ bytes.length →
      Spends bytes (after a).frontier 0 (f a) after') :
    Spends bytes frontier credit (x >>= f) after' := by
  cases hresult : x.result with
  | error e =>
      refine ⟨fun b hb => ?_, ?_⟩
      · rw [result_bind, hresult] at hb
        cases hb
      · rw [events_bind_error hresult]
        exact hx.bounded
  | ok a =>
      obtain ⟨hpaid, hle, hbytes⟩ := hx.returns a hresult
      have hrest := hf a hbytes hle
      have hbounded := hrest.bounded
      refine ⟨fun b hb => ?_, ?_⟩
      · rw [result_bind, hresult] at hb
        obtain ⟨hpaid', hle', hbytes'⟩ := hrest.returns b hb
        refine ⟨?_, hle', hbytes'⟩
        rw [events_bind_ok hresult, pointers_append]
        omega
      · rw [events_bind_ok hresult, pointers_append]
        omega

/-- What comes before the first claim follows no pointers. -/
theorem Spends.after_free (hfree : pointers x.events = 0) (hle : frontier + credit ≤ bytes.length + 8)
    (hf : ∀ a, x.result = .ok a → Spends bytes frontier credit (f a) after') :
    Spends bytes frontier credit (x >>= f) after' := by
  cases hresult : x.result with
  | error e =>
      refine ⟨fun b hb => ?_, ?_⟩
      · rw [result_bind, hresult] at hb
        cases hb
      · rw [events_bind_error hresult, hfree]
        exact hle
  | ok a =>
      have hrest := hf a hresult
      have hcount : pointers (x >>= f).events = pointers (f a).events := by
        rw [events_bind_ok hresult, pointers_append, hfree, Nat.zero_add]
      refine ⟨fun b hb => ?_, hcount ▸ hrest.bounded⟩
      rw [result_bind, hresult] at hb
      rw [hcount]
      exact hrest.returns b hb

theorem spends_ok {a : α} (hfrontier : (after a).frontier = frontier)
    (hbytes : (after a).bytes = bytes) (hle : frontier ≤ bytes.length) :
    Spends bytes frontier 0 (lift (.ok a)) after := by
  refine ⟨fun b hb => ?_, ?_⟩
  · obtain rfl := Except.ok.inj hb
    exact ⟨Nat.le_of_eq hfrontier.symm, hfrontier ▸ hle, hbytes⟩
  · show frontier + 0 + 8 * 0 ≤ _
    omega

theorem spends_error {e : WireError} (hle : frontier + credit ≤ bytes.length + 8) :
    Spends bytes frontier credit (lift (.error e)) after := by
  refine ⟨fun _ h => ?_, hle⟩
  cases h

/-- A pointer is followed on credit. -/
theorem Spends.pointer {slot target : Nat} {f : Unit → Visiting α}
    (hx : Spends bytes frontier 8 (f ()) after) :
    Spends bytes frontier 0 (record (.pointer slot target) >>= f) after := by
  have hcount : pointers (record (.pointer slot target) >>= f).events =
      pointers (f ()).events + 1 := List.countP_cons_of_pos rfl
  refine ⟨fun a ha => ?_, ?_⟩
  · obtain ⟨hpaid, hle, hbytes⟩ := hx.returns a ha
    refine ⟨?_, hle, hbytes⟩
    rw [hcount]
    omega
  · have := hx.bounded
    rw [hcount]
    omega

/-- A statement that moves the frontier pays off the credit. -/
theorem Spends.advance {y : WireResult Decoder} {f : Decoder → Visiting α}
    (hle : frontier + credit ≤ bytes.length + 8)
    (hy : ∀ dec', y = .ok dec' →
      frontier + credit ≤ dec'.frontier ∧ dec'.frontier ≤ bytes.length ∧ dec'.bytes = bytes)
    (hf : ∀ dec', dec'.bytes = bytes → dec'.frontier ≤ bytes.length →
      Spends bytes dec'.frontier 0 (f dec') after) :
    Spends bytes frontier credit (lift y >>= f) after := by
  have hpaid : Spends bytes frontier credit (lift y) id := ⟨hy, hle⟩
  exact hpaid.bind hf

theorem claim_advances {dec dec' : Decoder} {start size : Nat} (hdec : dec.bytes = bytes)
    (hsize : 8 ≤ size) (h : dec.claim start size = .ok dec') :
    dec.frontier + 8 ≤ dec'.frontier ∧ dec'.frontier ≤ bytes.length ∧ dec'.bytes = bytes := by
  obtain ⟨hfrontier, -, hle, rfl⟩ := claim_eq_ok h
  exact ⟨Nat.add_le_add hfrontier hsize, hdec ▸ hle, hdec⟩

end Rules

/-! ### Objects -/

section Objects

variable {bytes : List UInt8} {dec : Decoder}

/-- The visitor of what is in an object that is claimed. -/
abbrev Pays (bytes : List UInt8) (credit : Nat) (visit : Decoder → Visiting (α × Decoder)) : Prop :=
  ∀ dec, dec.bytes = bytes → dec.frontier ≤ bytes.length →
    Spends bytes dec.frontier credit (visit dec) Prod.snd

variable {credit : Nat}

theorem pays_nested {visit : Decoder → Visiting (α × Decoder)} (hcredit : credit ≤ 8)
    (h : Pays bytes credit visit) : Pays bytes credit (visitNested · visit) := by
  intro dec hdec hle
  refine Spends.after_free rfl (by omega) fun dec' h' => ?_
  have henter : dec'.bytes = dec.bytes ∧ dec'.frontier = dec.frontier := by
    have h' : dec.enter = .ok dec' := h'
    unfold Decoder.enter at h'
    dsimp only at h'
    split_ifs at h'
    obtain rfl := Except.ok.inj h'
    exact ⟨rfl, rfl⟩
  rw [← henter.2]
  refine (h dec' (henter.1.trans hdec) (henter.2 ▸ hle)).bind fun x hx hxle => ?_
  exact spends_ok rfl hx hxle

theorem pays_follow {visit : Nat → Decoder → Visiting (Value × Decoder)}
    (h : ∀ target, Pays bytes 8 (visit target)) (offset : Nat) (nullable : Bool) :
    Pays bytes 0 (visitFollow · offset nullable visit) := by
  intro dec hdec hle
  refine Spends.after_free rfl (by omega) fun ptr _ => ?_
  cases ptr with
  | null =>
      dsimp only
      split_ifs
      · exact spends_ok rfl hdec hle
      · exact spends_error (by omega)
  | offset target => exact (h target dec hdec hle).pointer

/-- The visitors of fields. -/
abbrev FieldsPay (bytes : List UInt8) (visitors : List FieldVisitor) : Prop :=
  ∀ visit ∈ visitors, ∀ offset bit, Pays bytes 0 (visit offset bit)

theorem spends_packedField {visitors : List FieldVisitor} (h : FieldsPay bytes visitors)
    (offset numBytes version : Nat) (pf : PackedField) {st : DecodedFields}
    (hdec : st.dec.bytes = bytes) (hle : st.dec.frontier ≤ bytes.length) :
    Spends bytes st.dec.frontier 0 (visitPackedField visitors offset numBytes version pf st)
      DecodedFields.dec := by
  unfold visitPackedField
  dsimp only
  by_cases hread : pf.minVersion ≤ version ∧ structHeaderSize + pf.offset + pf.size ≤ numBytes
  · rw [if_pos hread]
    refine Spends.after_free rfl (by omega) fun _ _ => ?_
    by_cases hflag : pf.field.nullableValueKind ∧ pf.field.kind = .bool
    · rw [if_pos hflag]
      refine Spends.after_free rfl (by omega) fun byte _ => ?_
      exact spends_ok rfl hdec hle
    · rw [if_neg hflag]
      rcases hvisit : visitors[pf.field.index]? with - | visit
      · exact spends_error (by omega)
      refine (h visit (List.mem_of_getElem? hvisit) _ _ st.dec hdec hle).bind fun x hx hxle => ?_
      exact spends_ok rfl hx hxle
  · rw [if_neg hread]
    exact spends_ok rfl hdec hle

theorem spends_packedFields {visitors : List FieldVisitor} (h : FieldsPay bytes visitors)
    (offset numBytes version : Nat) (pfs : List PackedField) (st : DecodedFields)
    (hdec : st.dec.bytes = bytes) (hle : st.dec.frontier ≤ bytes.length) :
    Spends bytes st.dec.frontier 0 (visitPackedFields visitors offset numBytes version pfs st)
      DecodedFields.dec := by
  induction pfs generalizing st with
  | nil => exact spends_ok rfl hdec hle
  | cons pf pfs ih =>
      exact (spends_packedField h offset numBytes version pf hdec hle).bind ih

theorem pays_structBody {visitors : List FieldVisitor} (h : FieldsPay bytes visitors)
    (fields : List FieldType) (claimSelf : Bool) (offset : Nat) :
    Pays bytes (if claimSelf then 8 else 0) (visitStructBody fields visitors claimSelf offset) := by
  intro dec hdec hle
  have hcredit : dec.frontier + (if claimSelf then 8 else 0) ≤ bytes.length + 8 := by
    split_ifs <;> omega
  refine Spends.after_free rfl hcredit fun _ _ => ?_
  refine Spends.after_free rfl hcredit fun numBytes _ => ?_
  refine Spends.after_free rfl hcredit fun _ _ => ?_
  refine Spends.after_free rfl hcredit fun version _ => ?_
  by_cases hsmall : numBytes < structHeaderSize
  · rw [if_pos hsmall]
    exact spends_error hcredit
  rw [if_neg hsmall]
  refine Spends.after_free rfl hcredit fun _ _ => ?_
  by_cases hlong : offset + numBytes > dec.bytes.length
  · rw [if_pos hlong]
    exact spends_error hcredit
  rw [if_neg hlong]
  refine Spends.advance hcredit (fun dec' hdec' => ?_) fun dec' hdec' hle' => ?_
  · cases claimSelf with
    | true => exact claim_advances hdec (Nat.le_of_not_lt hsmall) hdec'
    | false =>
        obtain rfl := Except.ok.inj hdec'
        exact ⟨Nat.le_refl _, hle, hdec⟩
  refine Spends.after_free rfl (by omega) fun packed _ => ?_
  refine Spends.after_free rfl (by omega) fun _ _ => ?_
  refine (spends_packedFields h offset numBytes version packed.packedFields ⟨_, _, dec'⟩ hdec'
    hle').bind fun st hst hstle => ?_
  exact spends_ok rfl hst hstle

theorem pays_struct {visitors : List FieldVisitor} (h : FieldsPay bytes visitors)
    (fields : List FieldType) (offset : Nat) : Pays bytes 8 (visitStruct fields visitors offset) :=
  pays_nested (Nat.le_refl 8) (pays_structBody h fields true offset)

theorem pays_union {visitors : List FieldVisitor} (h : FieldsPay bytes visitors)
    (claimSelf : Bool) (target : Nat) :
    Pays bytes (if claimSelf then 8 else 0) (visitUnionAt visitors claimSelf target) := by
  intro dec hdec hle
  have hcredit : dec.frontier + (if claimSelf then 8 else 0) ≤ bytes.length + 8 := by
    split_ifs <;> omega
  refine Spends.after_free rfl hcredit fun _ _ => ?_
  refine Spends.after_free rfl hcredit fun size _ => ?_
  refine Spends.after_free rfl hcredit fun _ _ => ?_
  refine Spends.after_free rfl hcredit fun tag _ => ?_
  rcases hvisit : visitors[tag]? with - | visit
  · exact spends_error hcredit
  refine Spends.advance hcredit (fun dec' hdec' => ?_) fun dec' hdec' hle' => ?_
  · cases claimSelf with
    | true =>
        rw [if_pos rfl] at hdec'
        split_ifs at hdec'
        exact claim_advances hdec (by decide) hdec'
    | false =>
        obtain rfl := Except.ok.inj hdec'
        exact ⟨Nat.le_refl _, hle, hdec⟩
  refine Spends.after_free rfl (by omega) fun _ _ => ?_
  refine (h visit (List.mem_of_getElem? hvisit) _ _ dec' hdec' hle').bind fun x hx hxle => ?_
  exact spends_ok rfl hx hxle

theorem pays_string (target : Nat) : Pays bytes 8 (visitStringAt target) := by
  intro dec hdec hle
  have hcredit : dec.frontier + 8 ≤ bytes.length + 8 := Nat.add_le_add_right hle 8
  refine Spends.after_free rfl hcredit fun _ _ => ?_
  refine Spends.after_free rfl hcredit fun numBytes _ => ?_
  refine Spends.after_free rfl hcredit fun _ _ => ?_
  refine Spends.after_free rfl hcredit fun numElements _ => ?_
  by_cases hsize : numBytes < arrayHeaderSize ∨ numBytes > dec.bytes.length - target
  · rw [if_pos hsize]
    exact spends_error hcredit
  rw [if_neg hsize]
  by_cases hlong : numElements > numBytes - arrayHeaderSize
  · rw [if_pos hlong]
    exact spends_error hcredit
  rw [if_neg hlong]
  refine Spends.after_free rfl hcredit fun _ _ => ?_
  refine Spends.after_free rfl hcredit fun _ _ => ?_
  dsimp only
  split_ifs
  · exact spends_error hcredit
  · exact spends_error hcredit
  · have hheader : 8 ≤ numBytes := Nat.le_of_not_lt fun h => hsize (.inl h)
    refine Spends.advance hcredit (fun _ => claim_advances hdec hheader) fun dec' hdec' hle' => ?_
    split
    · exact spends_ok rfl hdec' hle'
    · exact spends_error (by omega)

theorem pays_items {visit : Nat → Decoder → Visiting (Value × Decoder)}
    (h : ∀ off, Pays bytes 0 (visit off)) (elemSize n itemOff : Nat) :
    Pays bytes 0 (visitItems visit elemSize n itemOff) := by
  induction n generalizing itemOff with
  | zero => exact fun dec hdec hle => spends_ok rfl hdec hle
  | succ n ih =>
      intro dec hdec hle
      refine Spends.after_free rfl (by omega) fun _ _ => ?_
      refine (h itemOff dec hdec hle).bind fun x hx hxle => ?_
      refine (ih (itemOff + elemSize) x.2 hx hxle).bind fun xs hxs hxsle => ?_
      exact spends_ok rfl hxs hxsle

theorem pays_item {element : Ty} {field : FieldVisitor}
    {object : Nat → Decoder → Visiting (Value × Decoder)}
    (hfield : ∀ offset bit, Pays bytes 0 (field offset bit))
    (hobject : ∀ target, Pays bytes 8 (object target)) (itemOff : Nat) :
    Pays bytes 0 (visitItem element field object itemOff) := by
  unfold visitItem
  split_ifs
  · exact hfield itemOff 0
  · exact pays_follow hobject itemOff _

theorem pays_arrayBody {element : Ty} {visit : Nat → Decoder → Visiting (Value × Decoder)}
    (h : ∀ off, Pays bytes 0 (visit off)) (target : Nat) :
    Pays bytes 8 (visitArrayBody element visit target) := by
  intro dec hdec hle
  have hcredit : dec.frontier + 8 ≤ bytes.length + 8 := Nat.add_le_add_right hle 8
  refine Spends.after_free rfl hcredit fun _ _ => ?_
  refine Spends.after_free rfl hcredit fun numBytes _ => ?_
  refine Spends.after_free rfl hcredit fun _ _ => ?_
  refine Spends.after_free rfl hcredit fun numElements _ => ?_
  refine Spends.after_free rfl hcredit fun raw _ => ?_
  refine Spends.after_free rfl hcredit fun minBytes hmin => ?_
  by_cases hshort : numBytes < minBytes
  · rw [if_pos hshort]
    exact spends_error hcredit
  rw [if_neg hshort]
  by_cases hlong : numBytes > dec.bytes.length - target
  · rw [if_pos hlong]
    exact spends_error hcredit
  rw [if_neg hlong]
  have hsize : 8 ≤ numBytes := by
    obtain ⟨rfl, -⟩ := checkedAdd_eq_ok hmin
    have hheader : arrayHeaderSize = 8 := rfl
    omega
  refine Spends.advance hcredit (fun _ => claim_advances hdec hsize) fun dec' hdec' hle' => ?_
  refine Spends.after_free rfl (by omega) fun _ _ => ?_
  exact pays_items h _ _ _ dec' hdec' hle'

theorem pays_arrayValue {element : Ty} {visit : Nat → Decoder → Visiting (Value × Decoder)}
    (h : ∀ off, Pays bytes 0 (visit off)) (target : Nat) :
    Pays bytes 8 (visitArrayValue element visit target) := by
  intro dec hdec hle
  exact (pays_arrayBody h target dec hdec hle).bind fun x hx hxle => spends_ok rfl hx hxle

theorem pays_map {keys values : Nat → Decoder → Visiting (List Value × Decoder)}
    (hkeys : ∀ target, Pays bytes 8 (keys target)) (hvalues : ∀ target, Pays bytes 8 (values target))
    (target : Nat) : Pays bytes 8 (visitMapAt keys values target) := by
  refine pays_nested (Nat.le_refl 8) fun dec hdec hle => ?_
  have hcredit : dec.frontier + 8 ≤ bytes.length + 8 := Nat.add_le_add_right hle 8
  refine Spends.after_free rfl hcredit fun _ _ => ?_
  refine Spends.after_free rfl hcredit fun numBytes _ => ?_
  by_cases hsmall : numBytes < mapDataSize
  · rw [if_pos hsmall]
    exact spends_error hcredit
  rw [if_neg hsmall]
  have hmap : mapDataSize = 24 := rfl
  have hheader : 8 ≤ numBytes := by omega
  refine Spends.advance hcredit (fun _ => claim_advances hdec hheader) fun dec' hdec' hle' => ?_
  refine Spends.after_free rfl (by omega) fun _ _ => ?_
  refine Spends.after_free rfl (by omega) fun kp _ => ?_
  refine Spends.after_free rfl (by omega) fun _ _ => ?_
  refine Spends.after_free rfl (by omega) fun vp _ => ?_
  rcases kp with - | ko
  · exact spends_error (by omega)
  rcases vp with - | vo
  · exact spends_error (by omega)
  apply Spends.pointer
  refine (hkeys ko dec' hdec' hle').bind fun ks hks hksle => ?_
  apply Spends.pointer
  refine (hvalues vo ks.2 hks hksle).bind fun vs hvs hvsle => ?_
  dsimp only
  split_ifs
  · exact spends_error (by omega)
  · exact spends_ok rfl hvs hvsle

theorem pays_leaf {x : Decoder → WireResult (Value × Decoder)}
    (hkeep : ∀ dec v dec', x dec = .ok (v, dec') → dec' = dec) :
    Pays bytes 0 fun dec => lift (x dec) := by
  intro dec hdec hle
  refine ⟨fun y hy => ?_, ?_⟩
  · obtain rfl := hkeep dec y.1 y.2 hy
    exact ⟨Nat.le_refl _, hle, hdec⟩
  · show dec.frontier + 0 + 8 * 0 ≤ _
    omega

theorem spends_pair (hdec : dec.bytes = bytes) (hle : dec.frontier ≤ bytes.length) (offset : Nat) :
    Spends bytes dec.frontier 0 (visitPair dec offset) fun _ => dec := by
  have hcredit : dec.frontier + 0 ≤ bytes.length + 8 := Nat.le_add_right_of_le hle
  refine Spends.after_free rfl hcredit fun _ _ => ?_
  refine Spends.after_free rfl hcredit fun _ _ => ?_
  refine Spends.after_free rfl hcredit fun _ _ => ?_
  exact spends_ok rfl hdec hle

end Objects

/-! ### All types -/

mutual

theorem pays_field (bytes : List UInt8) : ∀ (ty : Ty) (payload : Bool) (offset bit : Nat),
    Pays bytes 0 (visitField ty payload offset bit)
  | .string nullable, _, offset, _ => pays_follow pays_string offset nullable
  | .array element nullable, _, offset, _ =>
      pays_follow (fun target => pays_nested (Nat.le_refl 8) (pays_arrayValue
        (pays_item (pays_field bytes element false) (pays_arrayElement bytes element)) target))
        offset nullable
  | .map key value nullable, _, offset, _ =>
      pays_follow (pays_map
        (pays_arrayBody (pays_item (pays_field bytes key false) (pays_arrayElement bytes key)))
        (pays_arrayBody (pays_item (pays_field bytes value false) (pays_arrayElement bytes value))))
        offset nullable
  | .struct fields _ nullable, payload, offset, bit => by
      have hfields := pays_fields bytes fields
      intro dec
      rw [visitField]
      split_ifs
      · exact pays_follow (pays_struct hfields fields) offset nullable dec
      · exact pays_nested (Nat.zero_le 8) (pays_structBody hfields fields false offset) dec
  | .union members nullable inlined, _, offset, bit => by
      have hmembers := pays_members bytes members
      intro dec
      rw [visitField]
      split_ifs
      · exact pays_union hmembers false offset dec
      · exact pays_follow (pays_union hmembers true) offset nullable dec
  | .nullableScalar inner, _, offset, bit => pays_field bytes inner false offset bit
  | .interface version, _, offset, bit => by
      intro dec hdec hle
      refine (spends_pair hdec hle offset).bind fun x hdec hle => ?_
      refine Spends.after_free rfl (Nat.le_add_right_of_le hle) fun _ _ => ?_
      exact spends_ok rfl hdec hle
  | .associatedInterface version, _, offset, bit => by
      intro dec hdec hle
      exact (spends_pair hdec hle offset).bind fun x hdec hle => spends_ok rfl hdec hle
  | .bool, payload, offset, bit => pays_leaf fun _ _ _ => decodeBool_keeps
  | .handle, payload, offset, bit => pays_leaf fun _ _ _ => decodeHandle_keeps
  | .i8, _, _, _ | .u8, _, _, _ | .i16, _, _, _ | .u16, _, _, _ | .i32, _, _, _ | .u32, _, _, _
  | .i64, _, _, _ | .u64, _, _, _ | .f32, _, _, _ | .f64, _, _, _ | .enum, _, _, _
  | .associatedEndpoint, _, _, _ => pays_leaf fun _ _ _ => decodeScalar_keeps

theorem pays_arrayElement (bytes : List UInt8) : ∀ (ty : Ty) (target : Nat),
    Pays bytes 8 (visitArrayElement ty target)
  | .struct fields _ _, target => pays_struct (pays_fields bytes fields) fields target
  | .string _, target => pays_string target
  | .map key value _, target => pays_map
      (pays_arrayBody (pays_item (pays_field bytes key false) (pays_arrayElement bytes key)))
      (pays_arrayBody (pays_item (pays_field bytes value false) (pays_arrayElement bytes value)))
      target
  | .array inner _, target => pays_arrayValue
      (pays_item (pays_field bytes inner false) (pays_arrayElement bytes inner)) target
  | .bool, _ | .i8, _ | .u8, _ | .i16, _ | .u16, _ | .i32, _ | .u32, _ | .i64, _ | .u64, _ | .f32, _
  | .f64, _ | .enum, _ | .handle, _ | .union .., _ | .interface .., _ | .associatedEndpoint, _
  | .associatedInterface .., _ | .nullableScalar .., _ =>
      fun _ _ hle => spends_error (Nat.add_le_add_right hle 8)

theorem pays_fields (bytes : List UInt8) : ∀ fields : List FieldType,
    FieldsPay bytes (fieldVisitors fields)
  | [] => fun _ h => nomatch h
  | ⟨ty, _⟩ :: fts => List.forall_mem_cons.mpr
      ⟨pays_field bytes ty false, pays_fields bytes fts⟩

theorem pays_members (bytes : List UInt8) : ∀ members : List Ty,
    FieldsPay bytes (memberVisitors members)
  | [] => fun _ h => nomatch h
  | ty :: tys => List.forall_mem_cons.mpr ⟨pays_field bytes ty true, pays_members bytes tys⟩

end

/-- A decoder follows at most one pointer for eight bytes of the message, though
they may lead back or in circles. -/
theorem pointers_followed_le (ty : Ty) (offset : Nat) (dec : Decoder)
    (hle : dec.frontier ≤ dec.bytes.length) :
    dec.frontier + 8 * pointers (visitStructOf ty offset dec).events ≤ dec.bytes.length := by
  have hspends : Spends dec.bytes dec.frontier 8 (visitStructOf ty offset dec) Prod.snd := by
    cases ty with
    | struct fields version nullable =>
        exact pays_struct (pays_fields dec.bytes fields) fields offset dec rfl hle
    | _ => exact spends_error (Nat.add_le_add_right hle 8)
  have := hspends.bounded
  omega

/-! ### The decoder on any message -/

/-- The sums and the indices of a decoder are in range just if it tests no
object at the end of the address space, and it returns in any case: it is a
recursion on the type, and there are fewer pointers than bytes to follow.  The
objects that it tests are those that the schema leads to, up to a failure. -/
theorem decoder_safe_iff (bytes : List UInt8) (handleCount maxDepth : Nat) (ty : Ty) (offset : Nat)
    (hlen : bytes.length < 2 ^ 63) :
    (visitStructOf ty offset (.new bytes handleCount maxDepth)).events <+:
        structVisitsOf bytes ty offset ∧
    ((SumsFit (visitStructOf ty offset (.new bytes handleCount maxDepth)).events ∧
        decodeStructOf ty offset (.new bytes handleCount maxDepth) ≠ .error .outOfRange) ∧
        8 * pointers (visitStructOf ty offset (.new bytes handleCount maxDepth)).events ≤
          bytes.length ↔
      ObjectsFit (visitStructOf ty offset (.new bytes handleCount maxDepth)).events) := by
  have hbudget :
      0 + 8 * pointers (visitStructOf ty offset (.new bytes handleCount maxDepth)).events ≤
        bytes.length :=
    pointers_followed_le ty offset (.new bytes handleCount maxDepth) (Nat.zero_le _)
  rw [Nat.zero_add] at hbudget
  refine ⟨(visitStructOf_follows ty offset (.new bytes handleCount maxDepth)).events, ?_⟩
  exact (and_iff_left hbudget).trans (decode_in_range_iff ty offset (.new bytes handleCount maxDepth)
    hlen)

/-- A struct with a string behind it. -/
def stringBytes : List UInt8 :=
  [16, 0, 0, 0, 0, 0, 0, 0, 8, 0, 0, 0, 0, 0, 0, 0, 10, 0, 0, 0, 1, 0, 0, 0, 97, 0]

/-- The pointer leads to the last byte of the address space. -/
def farStringBytes : List UInt8 :=
  [16, 0, 0, 0, 0, 0, 0, 0, 247, 255, 255, 255, 255, 255, 255, 255]

theorem decoder_safe_string :
    (SumsFit (visitStructOf (.struct [⟨.string false, none⟩] 0 false) 0
        (.new stringBytes 0 32)).events ∧
      decodeStructOf (.struct [⟨.string false, none⟩] 0 false) 0 (.new stringBytes 0 32) ≠
        .error .outOfRange) ∧
      8 * pointers (visitStructOf (.struct [⟨.string false, none⟩] 0 false) 0
        (.new stringBytes 0 32)).events ≤ stringBytes.length :=
  (decoder_safe_iff stringBytes 0 32 _ 0 (by decide)).2.mpr (by decide +kernel)

/-- The test of a string at the end of the address space overflows. -/
theorem decoder_overflows :
    decodeStructOf (.struct [⟨.string false, none⟩] 0 false) 0 (.new farStringBytes 0 32) =
      .error .outOfRange ∧
    .object (2 ^ 64 - 1) 8 ∈ (visitStructOf (.struct [⟨.string false, none⟩] 0 false) 0
      (.new farStringBytes 0 32)).events :=
  ⟨rfl, by decide +kernel⟩

end MojoRs.Wire
