/-
MojoRs/Wire/InPlaceProgress.lean

The encoder succeeds on values that sit.  As in `Progress.lean` there is one
lemma for each shape of values, which returns by how much the buffer has
grown; a field that ends the buffer is encoded where the buffer ends.

Main result: `sits_completes`.
-/
import MojoRs.Wire.Progress
import MojoRs.Wire.InPlace

namespace MojoRs.Wire

open Lib

/-! ### At the end of the buffer -/

/-- As `Completes`; where `tail` is set, for buffers that end with the field. -/
def CompletesAt (tail : Bool) (g need e : Nat) (E : Encoder → WireResult Encoder) : Prop :=
  ∀ enc, e ≤ enc.buf.length → (tail = true → enc.buf.length = e) → 8 ∣ enc.buf.length →
    enc.buf.length + g < usizeLimit → enc.depth + need ≤ maxEncodeDepth →
      ∃ enc', E enc = .ok enc' ∧ Grew g enc enc'

theorem Completes.at {tail : Bool} {g need e : Nat} {E : Encoder → WireResult Encoder}
    (h : Completes g need e E) : CompletesAt tail g need e E :=
  fun enc hin _ => h enc hin

theorem completesAt_false {g need e : Nat} {E : Encoder → WireResult Encoder} :
    CompletesAt false g need e E ↔ Completes g need e E :=
  ⟨fun h enc hin => h enc hin fun hf => absurd hf Bool.false_ne_true, Completes.at⟩

theorem CompletesAt.mono {tail : Bool} {g need need' e : Nat} {E : Encoder → WireResult Encoder}
    (hneed : need ≤ need') (h : CompletesAt tail g need e E) : CompletesAt tail g need' e E :=
  fun enc hin hend h8 hg hd => h enc hin hend h8 hg
    (Nat.le_trans (Nat.add_le_add_left hneed _) hd)

theorem CompletesAt.widen {tail : Bool} {g need e e' : Nat} {E : Encoder → WireResult Encoder}
    (he : e ≤ e') (htail : tail = true → e = e') (h : CompletesAt tail g need e E) :
    CompletesAt tail g need e' E :=
  fun enc hin hend => h enc (Nat.le_trans he hin) fun ht => (hend ht).trans (htail ht).symm

/-- A field that ends the buffer, after fields that append nothing. -/
theorem Completes.after {g need e : Nat} {E₁ E₂ : Encoder → WireResult Encoder}
    (h₁ : Completes 0 need e E₁) (h₂ : CompletesAt true g need e E₂) :
    CompletesAt true g need e (fun enc => E₁ enc >>= E₂) := by
  intro enc hin hend h8 hg hd
  obtain ⟨enc₁, hE₁, hlen₁, h8₁, hd₁⟩ := h₁ enc hin h8 (by omega) hd
  have hend' := hend rfl
  obtain ⟨enc₂, hE₂, hlen₂, h8₂, hd₂⟩ := h₂ enc₁ (by omega) (fun _ => by omega) h8₁ (by omega)
    (hd₁ ▸ hd)
  refine ⟨enc₂, ?_, by omega, h8₂, hd₂.trans hd₁⟩
  beta_reduce
  rw [hE₁, ok_bind, hE₂]

/-- What overhangs the slot is appended. -/
theorem CompletesAt.overhang {g need off size : Nat} {E : Encoder → WireResult Encoder}
    (hsize : 8 ≤ size) (h8 : 8 ∣ size) (hgrow : ∀ enc : Encoder, E (enc.resize (off + size)) = E enc)
    (h : CompletesAt true g need (off + size) E) :
    CompletesAt true (size - 8 + g) need (off + 8) E := by
  intro enc _ hend hal hg hd
  have hend' := hend rfl
  have hlen : (enc.resize (off + size)).buf.length = off + size := by
    show (growTo _ _).length = _
    rw [length_growTo]
    omega
  obtain ⟨enc', hE, hlen', h8', hdepth⟩ := h (enc.resize (off + size)) hlen.ge (fun _ => hlen)
    (by omega) (by omega) hd
  exact ⟨enc', (hgrow enc).symm.trans hE, by omega, h8', hdepth⟩

/-- An object whose fields end the buffer. -/
theorem object_completesAt {g need size first second : Nat}
    {E : Nat → Encoder → WireResult Encoder} (hsize : 8 ≤ size) (h8 : 8 ∣ size)
    (h : ∀ off, CompletesAt true g need (off + size) (E off)) :
    ObjectCompletes (size + g) need
      (fun off enc => enc.beginObject off size first second >>= E off) := by
  intro enc ha hg hd
  obtain ⟨enc₁, h₁, hlen₁, hd₁⟩ := beginObject_ok enc enc.buf.length first second hsize (by omega)
  obtain ⟨enc₂, h₂, hgrew⟩ := h enc.buf.length enc₁ (by omega) (fun _ => by omega) (by omega)
    (by omega) (by omega)
  have hlen₂ := hgrew.length
  refine ⟨enc₂, ?_, by omega, hgrew.aligned, hgrew.depth.trans hd₁⟩
  beta_reduce
  rw [h₁, ok_bind, h₂]

/-- An object in place. -/
theorem inline_completesAt {tail : Bool} {g need off size first second : Nat}
    {E : Encoder → WireResult Encoder} (hsize : 8 ≤ size)
    (h : CompletesAt tail g need (off + size) E) :
    CompletesAt tail g need (off + size)
      (fun enc => enc.beginObject off size first second >>= E) := by
  intro enc hin hend ha hg hd
  obtain ⟨enc₁, h₁, hlen₁, hd₁⟩ := beginObject_ok enc off first second hsize (by omega)
  obtain ⟨enc₂, h₂, hgrew⟩ := h enc₁ (by omega)
    (fun ht => by have hlen := hend ht; omega) (by omega) (by omega) (by omega)
  have hlen₂ := hgrew.length
  refine ⟨enc₂, ?_, by omega, hgrew.aligned, hgrew.depth.trans hd₁⟩
  beta_reduce
  rw [h₁, ok_bind, h₂]

/-! ### Structs -/

/-- A value is encoded at every field that it sits in; where the slot is made of
whole words, `e` is its end. -/
def FieldFinishes (v : Value) : Prop :=
  ∀ (n : Nat) (tail payload : Bool) (ty : Ty) (off bit e g : Nat), Sits n tail payload ty v g →
    off + ty.packKind.size ≤ e → (8 ∣ ty.packKind.size → e = off + ty.packKind.size) →
    CompletesAt tail g (nesting 0 v payload ty) e (encodeFieldAt v payload ty off bit)

section Struct

variable {n : Nat} {fields : List FieldType} {version : UInt32} {vs : List Value}
  (hfinish : ∀ i, FieldFinishes (vs.getD i .null)) {g : Nat}
  (h : SitsStruct n fields version vs g)
include hfinish h

/-- The fields of a struct that ends the buffer are encoded. -/
theorem structFields_finish (off : Nat) :
    CompletesAt true g (nestingFields 0 vs fields) (off + structSize fields)
      (encodePackedFields fields .null (fieldValues vs) off
        (packed (packFields fields)).packedFields) := by
  obtain ⟨gs, hstruct, hscalar, hfield⟩ := h
  have hlaid := packed_laidOut (packFields fields)
  have hone : ∀ pf ∈ (packed (packFields fields)).packedFields,
      CompletesAt (decide (Ends fields gs pf)) (pf.weight gs) (nestingFields 0 vs fields)
        (off + structSize fields) (encodePackedField fields
          ((fieldValues vs).getD pf.field.index .null) off pf) := by
    intro pf hpf
    obtain ⟨ft, hft, -, hnull, hkind⟩ := packed_info hpf
    have hfits : structHeaderSize + pf.offset + pf.size ≤ structSize fields := packed_fits hpf
    rw [getD_fieldValues]
    simp only [PackedField.weight]
    by_cases hns : ft.ty.isNullableScalar = true
    · obtain ⟨hsuit, hgs⟩ := hscalar _ ft hft hns
      rw [hgs]
      exact ((packedField_completes off hpf hft hsuit ⟨(completes_all _).1, fun w _ =>
        (completes_all w).1⟩).mono (by omega) (fieldNesting_le 0 hft)).at
    · have hflag := notFlag_plain hpf hft hns
      have hsize : pf.size = ft.ty.packKind.size := by
        rw [(hlaid.placed pf hpf).size_eq, hkind hflag]
      have hnv : pf.field.nullableValueKind = false := by
        rw [hnull]
        exact Bool.eq_false_iff.mpr hns
      have hvalue := hfinish pf.field.index n _ false ft.ty (off + structHeaderSize + pf.offset)
        pf.bit _ _ (hfield pf hpf ft hft (Bool.eq_false_iff.mpr hns)) (Nat.le_refl _) fun _ => rfl
      rw [if_neg hflag, encodePackedField_value hft hflag]
      simp only [hnv, if_neg Bool.false_ne_true]
      refine (hvalue.widen (by omega) fun hends => ?_).mono ?_
      · -- the field ends where the struct ends
        obtain ⟨hstop, -⟩ := of_decide_eq_true hends
        have hle := (hlaid.placed pf hpf).stop_le 0
        omega
      · rw [← fieldNesting_plain hns]
        exact fieldNesting_le 0 hft
  by_cases hend : ∃ last ∈ (packed (packFields fields)).packedFields, Ends fields gs last
  · obtain ⟨last, hmem, hlast⟩ := hend
    obtain ⟨pre, hsplit, hpre, hsum⟩ := hlast.split hmem
    have hdone := hone last hmem
    rw [decide_eq_true hlast] at hdone
    rw [hsplit] at hone ⊢
    have hfirst : Completes (pre.map fun _ => 0).sum (nestingFields 0 vs fields)
        (off + structSize fields) (encodePackedFields fields .null (fieldValues vs) off pre) := by
      refine packedFields_completes fun q hq => completesAt_false.mp ?_
      have hq' := hone q (List.mem_append_left _ hq)
      rwa [(hpre q hq).1, (hpre q hq).2] at hq'
    rw [List.map_const', List.sum_replicate_nat, Nat.mul_zero] at hfirst
    rw [hsum, encodePackedFields_concat]
    exact hfirst.after hdone
  · refine (packedFields_completes fun pf hpf => completesAt_false.mp ?_).at
    have hpf' := hone pf hpf
    rwa [decide_eq_false fun h => hend ⟨pf, hpf, h⟩] at hpf'

theorem struct_finishes :
    ObjectCompletes (structSize fields + g) (0 + nestingFields 0 vs fields)
      (encodeStructAt fields version .null (fieldValues vs)) := by
  rw [Nat.zero_add, encodeStructAt_eq (sits_readBack h).2.1]
  exact object_completesAt (structHeaderSize_le fields) (eight_dvd_structSize fields)
    (structFields_finish hfinish h)

theorem structInline_finishes (off : Nat) :
    CompletesAt true (structSize fields - 8 + g) (0 + nestingFields 0 vs fields) (off + 8)
      (encodeStructAt fields version .null (fieldValues vs) off) := by
  have hinline := @inline_completesAt true g _ off _ (structSize fields) version.toNat _
    (structHeaderSize_le fields) (structFields_finish hfinish h off)
  rw [Nat.zero_add]
  refine CompletesAt.overhang (structHeaderSize_le fields) (eight_dvd_structSize fields)
    (encodeStructAt_resize fields version .null (fieldValues vs) off) ?_
  rw [encodeStructAt_eq (sits_readBack h).2.1]
  exact hinline

end Struct

/-! ### Arrays and maps -/

/-- The same for an element of an array. -/
def ItemFinishes (v : Value) : Prop :=
  ∀ (n : Nat) (element : Ty) (g : Nat), SitsItem n element v g → ∀ off,
    Completes g (itemNesting 0 element v) (off + element.elemSize) (encodeItem v element off)

theorem arrayValue_finishes {n : Nat} {element : Ty} {items : List Value} {gs : Value → Nat}
    (hfinish : ∀ w ∈ items, ItemFinishes w) (h : ∀ w ∈ items, SitsItem n element w (gs w))
    (hsize : arraySize element items.length < sizeFieldLimit) :
    ObjectCompletes (arraySize element items.length + (items.map gs).sum)
      (nestingItems 0 items element)
      (encodeArrayBody element items.length (encodeItems items element)) :=
  array_completes hsize (items_completes fun w hw off =>
    (hfinish w hw n element _ (h w hw) off).mono (Nat.le_refl _) (itemNesting_le hw))

theorem mapValue_finishes {n : Nat} {key value : Ty} {keys values : List Value}
    {gk gv : Value → Nat} (hkeys : ∀ w ∈ keys, ItemFinishes w)
    (hvalues : ∀ w ∈ values, ItemFinishes w) (hk : ∀ w ∈ keys, SitsItem n key w (gk w))
    (hv : ∀ w ∈ values, SitsItem n value w (gv w))
    (hsize : arraySize key keys.length < sizeFieldLimit ∧
      arraySize value values.length < sizeFieldLimit)
    (hcount : keys.length = values.length) :
    ObjectCompletes
      (mapDataSize + (arraySize key keys.length + (keys.map gk).sum) +
        (arraySize value values.length + (values.map gv).sum))
      (1 + max (nestingItems 0 keys key) (nestingItems 0 values value))
      (encodeMapAt keys.length values.length
        (encodeArrayBody key keys.length (encodeItems keys key))
        (encodeArrayBody value values.length (encodeItems values value))) := by
  have hk' := arrayValue_finishes hkeys hk hsize.1
  have hv' := arrayValue_finishes hvalues hv hsize.2
  have hmap := @map_completes _ _ _ keys.length _ _
    (hk'.mono (Nat.le_max_left _ (nestingItems 0 values value)))
    (hv'.mono (Nat.le_max_right (nestingItems 0 keys key) _))
  rw [Nat.add_assoc mapDataSize, show encodeMapAt keys.length values.length =
    encodeMapAt keys.length keys.length by rw [hcount]]
  exact hmap

/-! ### All values -/

section Inside

variable {v : Value} (inside : ∀ w, sizeOf w < sizeOf v → FieldFinishes w ∧ ItemFinishes w)
include inside

theorem children_finish : ∀ w ∈ v.children, FieldFinishes w ∧ ItemFinishes w :=
  fun w hw => inside w (sizeOf_child_lt hw)

omit inside in
theorem null_finishes : FieldFinishes .null := by
  intro n tail payload ty off bit e g hs hle _
  cases hs with
  | plain hs => exact ((null_completes n payload ty off bit hs).mono hle (Nat.le_refl _)).at

theorem fields_finish {version : UInt32} {vs : List Value} (hv : v = .struct version vs) (i : Nat) :
    FieldFinishes (vs.getD i .null) := by
  subst hv
  rw [List.getD_eq_getElem?_getD]
  cases hw : vs[i]? with
  | none => exact null_finishes
  | some w => exact (inside w (sizeOf_child_lt (List.mem_of_getElem? hw))).1

theorem item_finishes : ItemFinishes v := by
  intro n element g hs off
  have hchildren := children_finish inside
  cases hs with
  | plain hs => exact item_completes (completes_all v).1 (completes_all v).2 hs off
  | @array nullable inner items gs hsize hitems =>
      have hitems' : ∀ w ∈ items, FieldFinishes w ∧ ItemFinishes w := hchildren
      exact completes_appendObject
        (arrayValue_finishes (fun w hw => (hitems' w hw).2) hitems hsize)
  | map hsize hcount hkeys hvalues =>
      exact completes_appendObject (mapValue_finishes
        (fun w hw => (hchildren w (List.mem_append_left _ hw)).2)
        (fun w hw => (hchildren w (List.mem_append_right _ hw)).2) hkeys hvalues hsize hcount)
  | struct hstruct =>
      exact completes_appendObject (struct_finishes (fields_finish inside rfl) hstruct)

omit inside in
/-- The payload of a union. -/
theorem member_finishes {n g : Nat} {tail : Bool} {member : Ty} {value : Value}
    (hvalue : FieldFinishes value) (hs : Sits n tail true member value g)
    (htail : member.packKind = .union → tail = true) (off : Nat) :
    CompletesAt tail (member.overhang + g) (nesting 0 value true member) (off + 8)
      (encodeFieldAt value true member off 0) := by
  rw [Ty.overhang]
  by_cases hkind : member.packKind = .union
  · obtain ⟨members, nullable, rfl, tag, w, rfl⟩ := sits_packUnion hs hkind
    obtain rfl := htail hkind
    have hinside := hvalue n true true (.union members nullable true) off 0 _ g hs
      (Nat.le_refl _) fun _ => rfl
    rw [if_pos hkind]
    exact CompletesAt.overhang (by decide : 8 ≤ unionDataSize) (by decide)
      (encodeUnion_resize _ _ _ _ _ _ _) hinside
  · have hsize := Kind.size_le_eight hkind
    have hpos := member.packKind.size_pos
    rw [if_neg hkind, Nat.zero_add]
    exact hvalue n tail true member off 0 _ g hs (by omega) fun h8 => by omega

/-- A value sits in a field, when what is inside it sits. -/
theorem field_finishes : FieldFinishes v := by
  intro n tail payload ty off bit e g hs hle he
  have hchildren := children_finish inside
  cases hs with
  | plain hs =>
      exact (((completes_all v).1 n payload ty off bit hs).mono hle (Nat.le_refl _)).at
  | @array _ _ nullable element items gs hsize hitems =>
      obtain rfl := he ⟨1, rfl⟩
      have hitems' : ∀ w ∈ items, FieldFinishes w ∧ ItemFinishes w := hchildren
      have harr := arrayValue_finishes (fun w hw => (hitems' w hw).2) hitems hsize
      cases payload with
      | true => exact ((completes_appendObject harr).mono (Nat.le_refl _)
          (Nat.le_add_left _ _)).at
      | false => exact (completes_appendObject harr.nested).at
  | map hsize hcount hkeys hvalues =>
      obtain rfl := he ⟨1, rfl⟩
      exact (completes_appendObject (mapValue_finishes
        (fun w hw => (hchildren w (List.mem_append_left _ hw)).2)
        (fun w hw => (hchildren w (List.mem_append_right _ hw)).2) hkeys hvalues hsize hcount)).at
  | pointer hstruct =>
      obtain rfl := he ⟨1, rfl⟩
      exact (completes_appendObject (struct_finishes (fields_finish inside rfl) hstruct)).at
  | inPlace hstruct =>
      obtain rfl := he ⟨1, rfl⟩
      exact structInline_finishes (fields_finish inside rfl) hstruct off
  | @unionPointer _ _ nullable members tag member value g hmember hvalue =>
      obtain rfl := he ⟨1, rfl⟩
      have hinside := (hchildren value (List.mem_singleton_self value)).1
      simp only [nesting, hmember]
      rw [encodeFieldAt_unionPointer hmember]
      exact (completes_appendObject (object_completesAt (by decide) (by decide) fun off =>
        (member_finishes hinside hvalue fun _ => rfl) (off + 8))).at
  | @unionInPlace _ _ nullable members tag member value g hmember htail hvalue =>
      obtain rfl := he ⟨2, rfl⟩
      have hinside := (hchildren value (List.mem_singleton_self value)).1
      simp only [nesting, hmember]
      rw [encodeFieldAt_unionInPlace hmember]
      exact inline_completesAt (by decide : 8 ≤ unionDataSize)
        (member_finishes hinside hvalue htail (off + 8))

end Inside

/-- Every value that sits is encoded. -/
theorem sits_completes : ∀ v : Value, FieldFinishes v ∧ ItemFinishes v :=
  Value.sizeInduction fun _ inside => ⟨field_finishes inside, item_finishes inside⟩

end MojoRs.Wire
