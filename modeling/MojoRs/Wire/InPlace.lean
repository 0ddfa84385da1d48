/-
MojoRs/Wire/InPlace.lean

Values in place.  `Sits n tail payload ty v g` says that the value `v` can
stand in a field of type `ty` and comes back from it, in a message with `n`
handles, with `g` bytes of objects behind the slot.  `tail` tells that the
slot ends the buffer: only there a struct that cannot be null may have fields,
and only there a union in place may hold another one.  A field of a struct ends
the buffer if it ends the struct and no other field has objects behind it.

Main result: `sits_sound`.
-/
import MojoRs.Wire.Overhang

namespace MojoRs.Wire

open Lib

/-! ### Values that sit -/

/-- The field that ends its struct, where the other fields append nothing. -/
def Ends (fields : List FieldType) (gs : Nat → Nat) (pf : PackedField) : Prop :=
  pf.stop 0 = 8 * structSize fields ∧
    ∀ q ∈ (packed (packFields fields)).packedFields, q ≠ pf → q.weight gs = 0

instance (fields : List FieldType) (gs : Nat → Nat) (pf : PackedField) :
    Decidable (Ends fields gs pf) :=
  inferInstanceAs (Decidable (_ ∧ _))

/-- The bytes of a union that overhang the payload of the union around it. -/
def Ty.overhang (member : Ty) : Nat := if member.packKind = .union then 8 else 0

mutual

/-- A value in a field. -/
inductive Sits (n : Nat) : Bool → Bool → Ty → Value → Nat → Prop
  | plain {tail payload : Bool} {ty : Ty} {v : Value} (hs : Suits v .exact n payload ty) :
      Sits n tail payload ty v (byteTotal v ty)
  | array {tail payload nullable : Bool} {element : Ty} {items : List Value} {gs : Value → Nat}
      (hsize : arraySize element items.length < sizeFieldLimit)
      (hitems : ∀ w ∈ items, SitsItem n element w (gs w)) :
      Sits n tail payload (.array element nullable) (.array items)
        (arraySize element items.length + (items.map gs).sum)
  | map {tail payload nullable : Bool} {key value : Ty} {keys values : List Value}
      {gk gv : Value → Nat}
      (hsize : arraySize key keys.length < sizeFieldLimit ∧
        arraySize value values.length < sizeFieldLimit)
      (hcount : keys.length = values.length) (hkeys : ∀ w ∈ keys, SitsItem n key w (gk w))
      (hvalues : ∀ w ∈ values, SitsItem n value w (gv w)) :
      Sits n tail payload (.map key value nullable) (.map keys values)
        (mapDataSize + (arraySize key keys.length + (keys.map gk).sum) +
          (arraySize value values.length + (values.map gv).sum))
  | pointer {tail payload : Bool} {fields : List FieldType} {sv version : UInt32}
      {vs : List Value} {g : Nat} (hstruct : SitsStruct n fields version vs g) :
      Sits n tail payload (.struct fields sv true) (.struct version vs) (structSize fields + g)
  | inPlace {fields : List FieldType} {sv version : UInt32} {vs : List Value} {g : Nat}
      (hstruct : SitsStruct n fields version vs g) :
      Sits n true false (.struct fields sv false) (.struct version vs)
        (structSize fields - 8 + g)
  | unionPointer {tail payload nullable : Bool} {members : List Ty} {tag : UInt32} {member : Ty}
      {value : Value} {g : Nat} (hmember : members[tag.toNat]? = some member)
      (hvalue : Sits n true true member value g) :
      Sits n tail payload (.union members nullable false) (.union tag value)
        (unionDataSize + (member.overhang + g))
  | unionInPlace {tail payload nullable : Bool} {members : List Ty} {tag : UInt32} {member : Ty}
      {value : Value} {g : Nat} (hmember : members[tag.toNat]? = some member)
      (htail : member.packKind = .union → tail = true)
      (hvalue : Sits n tail true member value g) :
      Sits n tail payload (.union members nullable true) (.union tag value) (member.overhang + g)

/-- A value as an element of an array. -/
inductive SitsItem (n : Nat) : Ty → Value → Nat → Prop
  | plain {element : Ty} {v : Value} (hs : ItemSuits .exact n element v) :
      SitsItem n element v (itemTally (fun _ => 0) id element v)
  | array {nullable : Bool} {inner : Ty} {items : List Value} {gs : Value → Nat}
      (hsize : arraySize inner items.length < sizeFieldLimit)
      (hitems : ∀ w ∈ items, SitsItem n inner w (gs w)) :
      SitsItem n (.array inner nullable) (.array items)
        (arraySize inner items.length + (items.map gs).sum)
  | map {nullable : Bool} {key value : Ty} {keys values : List Value} {gk gv : Value → Nat}
      (hsize : arraySize key keys.length < sizeFieldLimit ∧
        arraySize value values.length < sizeFieldLimit)
      (hcount : keys.length = values.length) (hkeys : ∀ w ∈ keys, SitsItem n key w (gk w))
      (hvalues : ∀ w ∈ values, SitsItem n value w (gv w)) :
      SitsItem n (.map key value nullable) (.map keys values)
        (mapDataSize + (arraySize key keys.length + (keys.map gk).sum) +
          (arraySize value values.length + (values.map gv).sum))
  | struct {nullable : Bool} {fields : List FieldType} {sv version : UInt32} {vs : List Value}
      {g : Nat} (hstruct : SitsStruct n fields version vs g) :
      SitsItem n (.struct fields sv nullable) (.struct version vs) (structSize fields + g)

/-- The values of a struct; the field `i` takes `gs i` bytes behind the struct. -/
inductive SitsStruct (n : Nat) : List FieldType → UInt32 → List Value → Nat → Prop
  | mk {fields : List FieldType} {version : UInt32} {vs : List Value} (gs : Nat → Nat)
      (hstruct : StructSuits .exact fields version vs.length)
      (hscalar : ∀ i ft, fields[i]? = some ft → ft.ty.isNullableScalar = true →
        FieldSuits .exact n ft (vs.getD i .null) ∧
          gs i = fieldTally (fun _ => 0) id ft (vs.getD i .null))
      (hfield : ∀ pf ∈ (packed (packFields fields)).packedFields, ∀ ft,
        fields[pf.field.index]? = some ft → ft.ty.isNullableScalar = false →
          Sits n (decide (Ends fields gs pf)) false ft.ty (vs.getD pf.field.index .null)
            (gs pf.field.index)) :
      SitsStruct n fields version vs
        ((packed (packFields fields)).packedFields.map (·.weight gs)).sum

end

/-! ### The ends of slots -/

theorem PackedField.stop_eq (pf : PackedField) (off : Nat) : pf.stop off = 8 * off + pf.stop 0 := by
  unfold PackedField.stop Kind.slotEnd
  split <;> omega

theorem PackedField.start_lt_stop (pf : PackedField) (off : Nat) :
    pf.start off < pf.stop off := by
  have hpos := pf.field.kind.size_pos
  unfold PackedField.start PackedField.stop Kind.slotStart Kind.slotEnd
  split <;> omega

theorem packed_stop_le {fields : List FieldType} {pf : PackedField}
    (hpf : pf ∈ (packed (packFields fields)).packedFields) (off : Nat) :
    pf.stop off ≤ 8 * (off + structSize fields) := by
  have hstop := ((packed_laidOut (packFields fields)).placed pf hpf).stop_le off
  have hfits : structHeaderSize + pf.offset + pf.size ≤ structSize fields := packed_fits hpf
  omega

/-- A field that ends the struct is the last one; no other one does, and it alone
has something behind the struct. -/
theorem Ends.split {fields : List FieldType} {gs : Nat → Nat} {last : PackedField}
    (hend : Ends fields gs last) (hlast : last ∈ (packed (packFields fields)).packedFields) :
    ∃ pre, (packed (packFields fields)).packedFields = pre ++ [last] ∧
      (∀ q ∈ pre, decide (Ends fields gs q) = false ∧ q.weight gs = 0) ∧
      ((pre ++ [last]).map (·.weight gs)).sum = last.weight gs := by
  obtain ⟨hstop, hzero⟩ := hend
  have hlaid := packed_laidOut (packFields fields)
  obtain ⟨pre, post, hsplit⟩ := List.append_of_mem hlast
  have hpair := hlaid.pairwise
  rw [hsplit, List.pairwise_append, List.pairwise_cons] at hpair
  obtain ⟨-, ⟨hafter, -⟩, hbefore⟩ := hpair
  have hplaced := hlaid.placed last hlast
  have hnil : post = [] := by
    refine List.eq_nil_iff_forall_not_mem.mpr fun q hq => ?_
    have hmem : q ∈ (packed (packFields fields)).packedFields := by
      rw [hsplit]
      exact List.mem_append_right _ (List.mem_cons_of_mem _ hq)
    have hle := (hafter q hq).stop_le_start hplaced 0
    have hlt := q.start_lt_stop 0
    have hfits := packed_stop_le hmem 0
    omega
  subst hnil
  have hpre : ∀ q ∈ pre, decide (Ends fields gs q) = false ∧ q.weight gs = 0 := by
    intro q hq
    have hmem : q ∈ (packed (packFields fields)).packedFields := by
      rw [hsplit]
      exact List.mem_append_left _ hq
    have hle := (hbefore q hq last List.mem_cons_self).stop_le_start (hlaid.placed q hmem) 0
    have hlt := last.start_lt_stop 0
    refine ⟨decide_eq_false fun h => ?_, hzero q hmem fun heq => ?_⟩
    · have hstop' := h.1
      omega
    · subst heq
      omega
  refine ⟨pre, hsplit, hpre, ?_⟩
  rw [List.map_append, List.sum_append, List.map_singleton, List.sum_singleton,
    List.sum_eq_zero_iff_forall_eq_nat.mpr (List.forall_mem_map.mpr fun q hq => (hpre q hq).2),
    Nat.zero_add]

/-! ### Structs -/

/-- A value matches at every field that it sits in; where the slot is made of
whole words, `e` is its end. -/
def FieldSits (v : Value) : Prop :=
  ∀ (n : Nat) (tail payload : Bool) (ty : Ty) (off bit e g : Nat), Sits n tail payload ty v g →
    bit < 8 → ty.packKind.slotEnd off bit ≤ e →
    (8 ∣ ty.packKind.size → e = ty.packKind.slotEnd off bit) →
    Sound .exact n (handleTotal v ty) g (nesting 1 v payload ty)
      (ty.packKind.slotStart off bit) e (lastly tail e (encodeFieldAt v payload ty off bit))
      (decodeField ty payload off bit) v

section Struct

variable {n : Nat} {fields : List FieldType} {version : UInt32} {vs : List Value}

theorem inVersion_exact (h : StructSuits .exact fields version vs.length) :
    (packed (packFields fields)).packedFields.filter
      (inVersion (structSize fields) version.toNat) = (packed (packFields fields)).packedFields :=
  List.filter_eq_self.mpr fun _ hpf =>
    decide_eq_true ⟨Nat.le_trans (packed_le_maxVersion hpf) h.2.1, packed_fits hpf⟩

/-- The packed fields match one by one, in the order of the struct. -/
theorem packedField_sits (hsits : ∀ i, FieldSits (vs.getD i .null)) {g : Nat}
    (h : SitsStruct n fields version vs g) :
    ∃ gs, g = ((packed (packFields fields)).packedFields.map (·.weight gs)).sum ∧
      ∀ pf ∈ (packed (packFields fields)).packedFields, ∀ off, Sound .exact n
        (pf.weight fun i => (fields[i]?).elim 0 fun ft => fieldTally
          (fun index => if index = encodedInvalidHandleValue then 0 else 1) (fun _ => 0) ft
          (vs.getD i .null)) (pf.weight gs) (nestingFields 1 vs fields) (pf.start off)
        (pf.stop off)
        (lastly (decide (Ends fields gs pf)) (pf.stop off) (encodePackedField fields
          ((fieldValues vs).getD pf.field.index .null) off pf))
        (readPackedField (fieldDecoders fields) off pf) (fieldResult fields vs pf) := by
  obtain ⟨gs, hstruct, hscalar, hfield⟩ := h
  have hlaid := packed_laidOut (packFields fields)
  refine ⟨gs, rfl, fun pf hpf off => ?_⟩
  obtain ⟨ft, hft, -, -, hkind⟩ := packed_info hpf
  have hdec : (fieldDecoders fields)[pf.field.index]? = some (decodeField ft.ty false) := by
    rw [getElem?_fieldDecoders, hft, Option.map_some]
  rw [getD_fieldValues]
  simp only [PackedField.weight, fieldResult, hft, Option.elim_some]
  by_cases hns : ft.ty.isNullableScalar = true
  · obtain ⟨hsuit, hgs⟩ := hscalar _ ft hft hns
    rw [hgs]
    exact (packedField_sound off _ hpf hft hsuit ⟨(matches_all _).1, fun w _ =>
      (matches_all w).1⟩ (fieldNesting_le 1 hft) fun _ => hdec).provided _
  · have hflag := notFlag_plain hpf hft hns
    rw [if_neg hflag, if_neg hflag, if_neg hflag, fieldTally_plain hns, scalarTarget_plain hns]
    have hbit := (hlaid.placed pf hpf).bit_lt
    have hvalue := hsits pf.field.index n _ false ft.ty (off + structHeaderSize + pf.offset)
      pf.bit _ _ (hfield pf hpf ft hft (Bool.eq_false_iff.mpr hns)) hbit (Nat.le_refl _)
      fun _ => rfl
    refine packedField_plain off _ hpf hft hns (fun _ => hdec) (hvalue.mono ?_)
    rw [← fieldNesting_plain hns]
    exact fieldNesting_le 1 hft

theorem packed_stop_le_start (fields : List FieldType) (off : Nat) :
    (packed (packFields fields)).packedFields.Pairwise fun a b => a.stop off ≤ b.start off := by
  have hlaid := packed_laidOut (packFields fields)
  exact hlaid.pairwise.imp_of_mem fun ha _ h => h.stop_le_start (hlaid.placed _ ha) off

theorem packed_le_start (pf : PackedField) (off : Nat) :
    8 * (off + structHeaderSize) ≤ pf.start off := by
  have hle := pf.le_start off
  omega

/-- The fields of a struct that ends the buffer match. -/
theorem structFields_sits (hsits : ∀ i, FieldSits (vs.getD i .null)) {g : Nat}
    (h : SitsStruct n fields version vs g) (off : Nat) :
    Sound .exact n
      (tallyFields (fun index => if index = encodedInvalidHandleValue then 0 else 1) (fun _ => 0)
        vs fields) g (nestingFields 1 vs fields)
      (8 * (off + structHeaderSize)) (8 * (off + structSize fields))
      (lastly true (8 * (off + structSize fields)) (encodePackedFields fields .null
        (fieldValues vs) off (packed (packFields fields)).packedFields))
      (readPackedFields (fieldDecoders fields) off (packed (packFields fields)).packedFields)
      ((packed (packFields fields)).packedFields.map (fieldResult fields vs)) := by
  obtain ⟨gs, rfl, hone⟩ := packedField_sits hsits h
  have hpair := packed_stop_le_start fields off
  rw [← sum_packed (W := fun i => (fields[i]?).elim 0 fun ft => fieldTally
    (fun index => if index = encodedInvalidHandleValue then 0 else 1) (fun _ => 0) ft
    (vs.getD i .null)) fun i ft hft => by rw [hft]; rfl]
  by_cases hend : ∃ last ∈ (packed (packFields fields)).packedFields, Ends fields gs last
  · -- one field ends the buffer, and the others append nothing
    obtain ⟨last, hmem, hlast⟩ := hend
    obtain ⟨pre, hsplit, hpre, hsum⟩ := hlast.split hmem
    have hsound := hone last hmem off
    rw [decide_eq_true hlast] at hsound
    rw [hsplit] at hpair hone ⊢
    rw [hsum]
    refine fields_sound_last hpair (fun pf _ => packed_le_start pf off)
      (packed_le_start last off) ?_ (fun q hq => ?_) hsound
    · rw [PackedField.stop_eq, hlast.1, Nat.mul_add]
    · have hsound := hone q (List.mem_append_left _ hq) off
      rw [(hpre q hq).1, (hpre q hq).2] at hsound
      exact sound_lastly_false.mp hsound
  · have hsound : ∀ pf ∈ (packed (packFields fields)).packedFields, _ := fun pf hpf =>
      sound_lastly_false.mp (decide_eq_false (fun h => hend ⟨pf, hpf, h⟩) ▸ hone pf hpf off)
    have hhead := structHeaderSize_le fields
    have hall := @fields_sound _ _ _ off (8 * (off + structSize fields)) _ _ _ _ (fun _ => true)
      _ _ _ _ (8 * (off + structHeaderSize)) hpair (fun pf _ => packed_le_start pf off)
      (fun pf hpf => packed_stop_le hpf off) (by omega) hsound
    rw [List.filter_true] at hall
    exact hall.provided _

theorem sits_readBack {g : Nat} (h : SitsStruct n fields version vs g) :
    readBack fields fields (inVersion (structSize fields) version.toNat) vs = vs ∧
      Packable (packFields fields) ∧ structSize fields < sizeFieldLimit ∧
      ReadsFrom fields fields version (inVersion (structSize fields) version.toNat) := by
  obtain ⟨gs, hstruct, hscalar, -⟩ := h
  exact ⟨readBack_self hstruct fun i ft hft hns => (hscalar i ft hft hns).1, hstruct.1,
    hstruct.2.2.2, readsFrom_self hstruct (by decide)⟩

variable (hsits : ∀ i, FieldSits (vs.getD i .null)) {g : Nat} (h : SitsStruct n fields version vs g)
include hsits h

theorem structFields_versioned (off : Nat) :
    Sound .exact n
      (tallyFields (fun index => if index = encodedInvalidHandleValue then 0 else 1) (fun _ => 0)
        vs fields) g (nestingFields 1 vs fields)
      (8 * (off + structHeaderSize)) (8 * (off + structSize fields))
      (lastly true (8 * (off + structSize fields)) (encodePackedFields fields .null
        (fieldValues vs) off (packed (packFields fields)).packedFields))
      (readPackedFields (fieldDecoders fields) off
        ((packed (packFields fields)).packedFields.filter
          (inVersion (structSize fields) version.toNat)))
      (((packed (packFields fields)).packedFields.filter
        (inVersion (structSize fields) version.toNat)).map (fieldResult fields vs)) := by
  have hfilter : (packed (packFields fields)).packedFields.filter
      (inVersion (structSize fields) version.toNat) = (packed (packFields fields)).packedFields := by
    obtain ⟨gs, hstruct, -, -⟩ := h
    exact inVersion_exact hstruct
  rw [hfilter]
  exact structFields_sits hsits h off

/-- A struct as an object. -/
theorem structObject_sits :
    ObjectSound .exact n
      (0 + tallyFields (fun index => if index = encodedInvalidHandleValue then 0 else 1)
        (fun _ => 0) vs fields) (structSize fields + g) (1 + nestingFields 1 vs fields)
      (aligned true (encodeStructAt fields version .null (fieldValues vs)))
      (decodeStruct fields (fieldDecoders fields)) (.struct version vs) := by
  rw [Nat.zero_add]
  obtain ⟨hback, hpack, hsize, hreads⟩ := sits_readBack h
  have hobject := structObject_of_fields hpack (fun _ => hreads) (fun _ => hsize)
    (structFields_versioned hsits h)
  rwa [hback] at hobject

/-- A struct in a slot of eight bytes that ends the buffer. -/
theorem structInline_sits (off : Nat) :
    Sound .exact n
      (0 + tallyFields (fun index => if index = encodedInvalidHandleValue then 0 else 1)
        (fun _ => 0) vs fields) (structSize fields - 8 + g) (1 + nestingFields 1 vs fields)
      (8 * off) (8 * (off + 8))
      (lastly true (8 * (off + 8)) (encodeStructAt fields version .null (fieldValues vs) off))
      (decodeStructInline fields (fieldDecoders fields) off) (.struct version vs) := by
  rw [Nat.zero_add]
  obtain ⟨hback, hpack, hsize, hreads⟩ := sits_readBack h
  have hinline := structInline_of_fields hpack (fun _ => hreads) (fun _ => hsize)
    (structFields_versioned hsits h) off
  rw [hback] at hinline
  exact hinline.overhang (structHeaderSize_le fields) (eight_dvd_structSize fields)
    (encodeStructAt_resize fields version .null (fieldValues vs) off)

end Struct

/-! ### Arrays and maps -/

/-- A value matches as every element that it sits as. -/
def ItemSits (v : Value) : Prop :=
  ∀ (n : Nat) (element : Ty) (g : Nat), SitsItem n element v g → ∀ off,
    Sound .exact n
      (itemTally (fun index => if index = encodedInvalidHandleValue then 0 else 1) (fun _ => 0)
        element v) g (itemNesting 1 element v) (8 * off) (8 * (off + element.elemSize))
      (encodeItem v element off)
      (decodeItem element (decodeField element false) (decodeArrayElement element) off) v

section Items

variable {n : Nat} {element : Ty} {items : List Value} {gs : Value → Nat}
  (hsits : ∀ w ∈ items, ItemSits w) (h : ∀ w ∈ items, SitsItem n element w (gs w))
include hsits h

theorem items_sit : ∀ w ∈ items, ∀ off, Sound .exact n
    (itemTally (fun index => if index = encodedInvalidHandleValue then 0 else 1) (fun _ => 0)
      element w) (gs w) (nestingItems 1 items element) (8 * off) (8 * (off + element.elemSize))
    (encodeItem w element off)
    (decodeItem element (decodeField element false) (decodeArrayElement element) off) w :=
  fun w hw off => (hsits w hw n element _ (h w hw) off).mono (itemNesting_le hw)

theorem arrayValue_sits (hsize : arraySize element items.length < sizeFieldLimit) :
    ObjectSound .exact n
      (0 + tallyItems (fun index => if index = encodedInvalidHandleValue then 0 else 1)
        (fun _ => 0) items element)
      (arraySize element items.length + (items.map gs).sum) (nestingItems 1 items element)
      (encodeArrayBody element items.length (encodeItems items element))
      (decodeArrayValue element
        (decodeItem element (decodeField element false) (decodeArrayElement element)))
      (.array items) := by
  rw [Nat.zero_add, tallyItems_eq]
  exact arrayValue_of_items _ _ (items_sit hsits h) fun _ => hsize

end Items

theorem mapValue_sits {n : Nat} {key value : Ty} {keys values : List Value} {gk gv : Value → Nat}
    (hkeys : ∀ w ∈ keys, ItemSits w) (hvalues : ∀ w ∈ values, ItemSits w)
    (hk : ∀ w ∈ keys, SitsItem n key w (gk w)) (hv : ∀ w ∈ values, SitsItem n value w (gv w))
    (hsize : arraySize key keys.length < sizeFieldLimit ∧
      arraySize value values.length < sizeFieldLimit)
    (hcount : keys.length = values.length) :
    ObjectSound .exact n
      (0 + (0 + tallyItems (fun index => if index = encodedInvalidHandleValue then 0 else 1)
          (fun _ => 0) keys key) +
        (0 + tallyItems (fun index => if index = encodedInvalidHandleValue then 0 else 1)
          (fun _ => 0) values value))
      (mapDataSize + (arraySize key keys.length + (keys.map gk).sum) +
        (arraySize value values.length + (values.map gv).sum))
      (1 + max (nestingItems 1 keys key) (nestingItems 1 values value))
      (encodeMapAt keys.length values.length
        (encodeArrayBody key keys.length (encodeItems keys key))
        (encodeArrayBody value values.length (encodeItems values value)))
      (decodeMapAt
        (decodeArrayBody key (decodeItem key (decodeField key false) (decodeArrayElement key)))
        (decodeArrayBody value
          (decodeItem value (decodeField value false) (decodeArrayElement value))))
      (.map keys values) := by
  rw [Nat.zero_add, Nat.zero_add, Nat.zero_add, tallyItems_eq, tallyItems_eq]
  exact mapValue_of_items _ _ _ _ (items_sit hkeys hk) (items_sit hvalues hv) (fun _ => hsize)
    hcount

/-! ### All values -/

section Inside

variable {v : Value} (inside : ∀ w, sizeOf w < sizeOf v → FieldSits w ∧ ItemSits w)
include inside

theorem children_sit : ∀ w ∈ v.children, FieldSits w ∧ ItemSits w :=
  fun w hw => inside w (sizeOf_child_lt hw)

omit inside in
theorem null_sits : FieldSits .null := by
  intro n tail payload ty off bit e g hs hbit hle _
  cases hs with
  | plain hs => exact ((null_matches .exact n payload ty off bit hs hbit).widen (Nat.le_refl _)
      hle).provided _

theorem fields_sit {version : UInt32} {vs : List Value} (hv : v = .struct version vs) (i : Nat) :
    FieldSits (vs.getD i .null) := by
  subst hv
  rw [List.getD_eq_getElem?_getD]
  cases hw : vs[i]? with
  | none => exact null_sits
  | some w => exact (inside w (sizeOf_child_lt (List.mem_of_getElem? hw))).1

/-- A value sits as an element, when what is inside it sits. -/
theorem item_sits : ItemSits v := by
  intro n element g hs off
  have hchildren := children_sit inside
  cases hs with
  | plain hs => exact item_sound (matches_all v).1 (matches_all v).2 hs off
  | @array nullable inner items gs hsize hitems =>
      have hitems' : ∀ w ∈ items, FieldSits w ∧ ItemSits w := hchildren
      exact sound_appendObject (arrayValue_sits (fun w hw => (hitems' w hw).2) hitems hsize)
  | map hsize hcount hkeys hvalues =>
      exact sound_appendObject (mapValue_sits
        (fun w hw => (hchildren w (List.mem_append_left _ hw)).2)
        (fun w hw => (hchildren w (List.mem_append_right _ hw)).2) hkeys hvalues hsize hcount)
  | struct hstruct =>
      exact sound_appendAligned (structObject_sits (fields_sit inside rfl) hstruct)

omit inside in
/-- Only a union sits as a union in place. -/
theorem sits_unionInPlace {n g : Nat} {tail payload nullable : Bool} {members : List Ty}
    {w : Value} (hs : Sits n tail payload (.union members nullable true) w g) :
    ∃ tag value, w = .union tag value := by
  cases hs with
  | plain hs =>
      cases w with
      | union tag value => exact ⟨tag, value, rfl⟩
      | null =>
          rcases hs.2 rfl with h | h
          · cases h
          · cases h.1
      | nullableScalar present value => cases present <;> exact absurd hs id
      | bool | handle | string | array | map | struct | interface | associatedInterface =>
          exact absurd hs id
      | _ =>
          exfalso
          cases hs.1
  | unionInPlace => exact ⟨_, _, rfl⟩

omit inside in
/-- Nullable scalars are fields of structs only. -/
theorem not_sits_nullableScalar {n g : Nat} {tail payload : Bool} {inner : Ty} {w : Value} :
    ¬Sits n tail payload (.nullableScalar inner) w g := by
  intro hs
  cases hs with
  | plain hs =>
      cases w with
      | nullableScalar present value =>
          cases present with
          | true => exact hs.1 rfl
          | false => rcases hs with h | ⟨h, -⟩ <;> cases h
      | null => rcases hs with h | ⟨h, -⟩ <;> cases h
      | bool | handle | string | array | map | struct | union | interface | associatedInterface =>
          exact absurd hs id
      | _ => cases hs.1

omit inside in
/-- What sits in a slot of the kind of unions in place is such a union. -/
theorem sits_packUnion {n g : Nat} {tail payload : Bool} {ty : Ty} {w : Value}
    (hs : Sits n tail payload ty w g) (hkind : ty.packKind = .union) :
    ∃ members nullable, ty = .union members nullable true ∧
      ∃ tag value, w = .union tag value := by
  cases ty with
  | union members nullable inlined =>
      cases inlined with
      | true => exact ⟨members, nullable, rfl, sits_unionInPlace hs⟩
      | false => cases hkind
  | nullableScalar inner => exact absurd hs not_sits_nullableScalar
  | _ => cases hkind

omit inside in
/-- The payload of a union. -/
theorem member_sits {n g : Nat} {tail : Bool} {member : Ty} {value : Value}
    (hvalue : FieldSits value) (hs : Sits n tail true member value g)
    (htail : member.packKind = .union → tail = true) (off : Nat) :
    Sound .exact n (0 + handleTotal value member) (member.overhang + g)
      (nesting 1 value true member) (8 * off) (8 * (off + 8))
      (lastly tail (8 * (off + 8)) (encodeFieldAt value true member off 0))
      (decodeField member true off 0) value := by
  obtain ⟨hstart, hstop⟩ := slot_of_size member.packKind off
  rw [Nat.zero_add, Ty.overhang]
  by_cases hkind : member.packKind = .union
  · -- a union of sixteen bytes in a slot of eight
    obtain ⟨members, nullable, rfl, tag, w, rfl⟩ := sits_packUnion hs hkind
    obtain rfl := htail hkind
    have hsound := hvalue n true true (.union members nullable true) off 0 _ g hs (by decide)
      (Nat.le_refl _) fun _ => rfl
    rw [if_pos hkind]
    exact Sound.overhang (by decide : 8 ≤ unionDataSize) (by decide)
      (encodeUnion_resize _ _ _ _ _ _ _) hsound
  · have hsize := Kind.size_le_eight hkind
    rw [if_neg hkind, Nat.zero_add]
    refine (hvalue n tail true member off 0 _ g hs (by decide) (by omega) fun h8 => ?_).widen
      hstart (Nat.le_refl _)
    have hpos := member.packKind.size_pos
    have hbool : member.packKind ≠ .bool := by
      intro hk
      rw [hk] at h8
      exact absurd h8 (by decide)
    rw [Kind.slotEnd, if_neg hbool]
    omega

/-- A value sits in a field, when what is inside it sits. -/
theorem field_sits : FieldSits v := by
  intro n tail payload ty off bit e g hs hbit hle he
  have hchildren := children_sit inside
  cases hs with
  | plain hs => exact (((matches_all v).1 .exact n payload ty off bit hs hbit).widen
      (Nat.le_refl _) hle).provided _
  | @array _ _ nullable element items gs hsize hitems =>
      obtain rfl := he ⟨1, rfl⟩
      have hitems' : ∀ w ∈ items, FieldSits w ∧ ItemSits w := hchildren
      have harr := arrayValue_sits (fun w hw => (hitems' w hw).2) hitems hsize
      cases payload with
      | true => exact (sound_appendObject harr.nestedDecoder).provided _
      | false => exact (sound_appendObject harr.nestedEncoder.nestedDecoder).provided _
  | map hsize hcount hkeys hvalues =>
      obtain rfl := he ⟨1, rfl⟩
      exact (sound_appendObject (mapValue_sits
        (fun w hw => (hchildren w (List.mem_append_left _ hw)).2)
        (fun w hw => (hchildren w (List.mem_append_right _ hw)).2) hkeys hvalues hsize
        hcount)).provided _
  -- behind a pointer the object is rounded up, in place it fills its field
  | @pointer _ _ fields sv version vs g hstruct =>
      obtain rfl := he ⟨1, rfl⟩
      have hD : decodeField (.struct fields sv true) payload off bit = fun dec =>
          dec.follow off true (decodeStruct fields (fieldDecoders fields)) := by
        funext dec
        rw [decodeField, Bool.or_true, if_pos rfl]
      rw [hD]
      exact (sound_appendAligned (structObject_sits (fields_sit inside rfl) hstruct)).provided _
  | inPlace hstruct =>
      obtain rfl := he ⟨1, rfl⟩
      exact structInline_sits (fields_sit inside rfl) hstruct off
  | @unionPointer _ _ nullable members tag member value g hmember hvalue =>
      obtain rfl := he ⟨1, rfl⟩
      have hdec : (memberDecoders members)[tag.toNat]? = some (decodeField member true) := by
        rw [getElem?_memberDecoders, hmember]
        rfl
      have hD : decodeField (.union members nullable false) payload off bit = fun dec =>
          dec.follow off nullable (decodeUnionAt (memberDecoders members) true) := by
        funext dec
        rw [decodeField, if_neg Bool.false_ne_true]
      simp only [handleTotal, tally, nesting, hmember]
      rw [hD, encodeFieldAt_unionPointer hmember, if_neg Bool.false_ne_true]
      exact (sound_appendAligned (unionObject_sound hdec
        (member_sits (hchildren value (List.mem_singleton_self value)).1 hvalue fun _ => rfl))).provided _
  | @unionInPlace _ _ nullable members tag member value g hmember htail hvalue =>
      obtain rfl := he ⟨2, rfl⟩
      have hdec : (memberDecoders members)[tag.toNat]? = some (decodeField member true) := by
        rw [getElem?_memberDecoders, hmember]
        rfl
      have hD : decodeField (.union members nullable true) payload off bit =
          decodeUnionAt (memberDecoders members) false off := by
        funext dec
        rw [decodeField, if_pos rfl]
      simp only [handleTotal, tally, nesting, hmember]
      rw [hD, encodeFieldAt_unionInPlace hmember, if_pos trivial]
      exact sound_unionInline hdec (member_sits (hchildren value (List.mem_singleton_self value)).1
        hvalue htail (off + 8))

end Inside

/-- Every value that sits matches. -/
theorem sits_sound : ∀ v : Value, FieldSits v ∧ ItemSits v :=
  Value.sizeInduction fun _ inside => ⟨field_sits inside, item_sits inside⟩

end MojoRs.Wire
