/-
MojoRs/Wire/Progress.lean

The encoder succeeds on exact values, as long as addresses do not overflow and
the nesting of arrays and maps stays within the limit of the encoder.  As in
`Matching.lean` there is one lemma for each shape of values; each returns also
by how much the buffer has grown, so that they compose.

Main result: `completes_all`.
-/
import MojoRs.Wire.Matching

namespace MojoRs.Wire

open Lib

/-- The buffer has grown by `g` bytes and is aligned again. -/
structure Grew (g : Nat) (a b : Encoder) : Prop where
  length : b.buf.length = a.buf.length + g
  aligned : 8 ∣ b.buf.length
  depth : b.depth = a.depth

/-- The encoder of a field that ends at `e` succeeds, when `g` more bytes can
be addressed and `need` more levels are allowed. -/
def Completes (g need e : Nat) (E : Encoder → WireResult Encoder) : Prop :=
  ∀ enc, e ≤ enc.buf.length → 8 ∣ enc.buf.length → enc.buf.length + g < usizeLimit →
    enc.depth + need ≤ maxEncodeDepth → ∃ enc', E enc = .ok enc' ∧ Grew g enc enc'

/-- The same for the encoder of an object at the end of the buffer. -/
def ObjectCompletes (g need : Nat) (O : Nat → Encoder → WireResult Encoder) : Prop :=
  ∀ enc, 8 ∣ enc.buf.length → enc.buf.length + g < usizeLimit →
    enc.depth + need ≤ maxEncodeDepth → ∃ enc', O enc.buf.length enc = .ok enc' ∧ Grew g enc enc'

/-! ### Single writes -/

theorem Completes.mono {g need need' e e' : Nat} {E : Encoder → WireResult Encoder}
    (he : e ≤ e') (hneed : need ≤ need') (h : Completes g need e E) : Completes g need' e' E :=
  fun enc hin h8 hg hd => h enc (Nat.le_trans he hin) h8 hg
    (Nat.le_trans (Nat.add_le_add_left hneed _) hd)

theorem ObjectCompletes.mono {g need need' : Nat} {O : Nat → Encoder → WireResult Encoder}
    (hneed : need ≤ need') (h : ObjectCompletes g need O) : ObjectCompletes g need' O :=
  fun enc h8 hg hd => h enc h8 hg (Nat.le_trans (Nat.add_le_add_left hneed _) hd)

theorem completes_ok {need e : Nat} : Completes 0 need e .ok :=
  fun enc _ h8 _ _ => ⟨enc, rfl, rfl, h8, rfl⟩

theorem completes_writeLe {need off : Nat} {bytes : List UInt8} :
    Completes 0 need (off + bytes.length) (·.writeLe off bytes) := by
  intro enc hin h8 hg _
  have hlen : (putBytes enc.buf off bytes).length = enc.buf.length := length_putBytes hin
  exact ⟨_, writeLe_ok hin hg, hlen, by show 8 ∣ (putBytes _ _ _).length; rwa [hlen], rfl⟩

theorem completes_writeNum (need off w k : Nat) :
    Completes 0 need (off + w) (·.writeLe off (toLE w k)) := by
  have h : Completes 0 need (off + (toLE w k).length) (·.writeLe off (toLE w k)) :=
    completes_writeLe
  rwa [length_toLE] at h

theorem completes_writeBit {need e off bit : Nat} {b : Bool} :
    Completes 0 need e (fun enc => .ok (enc.writeBit off bit b)) := by
  intro enc _ h8 _ _
  have hlen : (putBit enc.buf off bit b).length = enc.buf.length := length_putBit ..
  exact ⟨_, rfl, hlen, by show 8 ∣ (putBit _ _ _ _).length; rwa [hlen], rfl⟩

theorem Completes.push {g need e : Nat} {E : Encoder → WireResult Encoder} (index : UInt32)
    (h : Completes g need e E) : Completes g need e (fun enc => E (enc.pushHandle index)) := by
  intro enc hin h8 hg hd
  have hpush : (enc.pushHandle index).buf = enc.buf ∧
      (enc.pushHandle index).depth = enc.depth := by
    unfold Encoder.pushHandle
    split <;> exact ⟨rfl, rfl⟩
  obtain ⟨enc', hE, hlen, h8', hdepth⟩ := h (enc.pushHandle index) (hpush.1 ▸ hin)
    (hpush.1 ▸ h8) (hpush.1 ▸ hg) (hpush.2 ▸ hd)
  exact ⟨enc', hE, hpush.1 ▸ hlen, h8', hdepth.trans hpush.2⟩

/-! ### Composition -/

/-- One after the other. -/
theorem Completes.seq {g₁ g₂ need e : Nat} {E₁ E₂ : Encoder → WireResult Encoder}
    (h₁ : Completes g₁ need e E₁) (h₂ : Completes g₂ need e E₂) :
    Completes (g₁ + g₂) need e (fun enc => E₁ enc >>= E₂) := by
  intro enc hin h8 hg hd
  obtain ⟨enc₁, hE₁, hlen₁, h8₁, hd₁⟩ := h₁ enc hin h8 (by omega) hd
  obtain ⟨enc₂, hE₂, hlen₂, h8₂, hd₂⟩ := h₂ enc₁ (by omega) h8₁ (by omega) (hd₁ ▸ hd)
  refine ⟨enc₂, ?_, by omega, h8₂, hd₂.trans hd₁⟩
  beta_reduce
  rw [hE₁, ok_bind, hE₂]

theorem nested_completes {enc enc₁ : Encoder} {g : Nat} {E : Encoder → WireResult Encoder}
    (hdepth : enc.depth + 1 ≤ maxEncodeDepth) (h : E { enc with depth := enc.depth + 1 } = .ok enc₁)
    (hg : Grew g { enc with depth := enc.depth + 1 } enc₁) :
    enc.nested E = .ok enc₁.leave ∧ Grew g enc enc₁.leave := by
  refine ⟨?_, hg.length, hg.aligned, ?_⟩
  · rw [Encoder.nested, Encoder.enter, if_neg (Nat.not_lt.mpr hdepth), ok_bind, h]
    rfl
  · show enc₁.depth - 1 = enc.depth
    rw [hg.depth]
    rfl

theorem Completes.nested {g need e : Nat} {E : Encoder → WireResult Encoder}
    (h : Completes g need e E) : Completes g (1 + need) e (fun enc => enc.nested E) := by
  intro enc hin h8 hg hd
  have hd' : enc.depth + 1 + need ≤ maxEncodeDepth := by omega
  obtain ⟨enc₁, hE, hgrew⟩ := h { enc with depth := enc.depth + 1 } hin h8 hg hd'
  obtain ⟨hok, hgrew'⟩ := nested_completes (by omega) hE hgrew
  exact ⟨_, hok, hgrew'⟩

theorem ObjectCompletes.nested {g need : Nat} {O : Nat → Encoder → WireResult Encoder}
    (h : ObjectCompletes g need O) :
    ObjectCompletes g (1 + need) (fun target enc => enc.nested (O target)) := by
  intro enc h8 hg hd
  have hd' : enc.depth + 1 + need ≤ maxEncodeDepth := by omega
  obtain ⟨enc₁, hE, hgrew⟩ := h { enc with depth := enc.depth + 1 } h8 hg hd'
  obtain ⟨hok, hgrew'⟩ := nested_completes (by omega) hE hgrew
  exact ⟨_, hok, hgrew'⟩

/-- An object that is appended and pointed to. -/
theorem completes_appendObject {g need off : Nat} {O : Nat → Encoder → WireResult Encoder}
    (h : ObjectCompletes g need O) : Completes g need (off + 8) (·.appendObject off O) := by
  intro enc hin h8 hg hd
  have halign : (enc.buf.length + 7) / 8 * 8 = enc.buf.length := by omega
  have hstart : enc.appendObjectStart = .ok (enc.buf.length, enc) := by
    have hroom : enc.buf.length + 7 < usizeLimit := by
      have hlimit : 8 ∣ usizeLimit := by decide
      omega
    rw [Encoder.appendObjectStart, alignUp_ok hroom, ok_bind, halign, Encoder.resize,
      growTo_of_le (Nat.le_refl _)]
  obtain ⟨enc₁, hO, hgrew⟩ := h enc h8 hg hd
  have hlen := hgrew.length
  obtain ⟨enc₂, hptr, hgrew₂⟩ := completes_writeNum 0 off 8
    (Pointer.encode off enc.buf.length) enc₁ (by omega) hgrew.aligned (by omega)
    (by have := hgrew.depth; omega)
  refine ⟨enc₂, ?_, hgrew₂.length.trans hlen, hgrew₂.aligned, hgrew₂.depth.trans hgrew.depth⟩
  show enc.appendObject off O = _
  rw [Encoder.appendObject, hstart, ok_bind]
  dsimp only
  rw [hO, ok_bind]
  exact hptr

/-! ### Objects -/

/-- The header of an object can be written. -/
theorem beginObject_ok (enc : Encoder) (off first second : Nat) {size : Nat} (hsize : 8 ≤ size)
    (hroom : max enc.buf.length (off + size) < usizeLimit) :
    ∃ enc', enc.beginObject off size first second = .ok enc' ∧
      enc'.buf.length = max enc.buf.length (off + size) ∧ enc'.depth = enc.depth := by
  have hlen₀ : (enc.resize (off + size)).buf.length = max enc.buf.length (off + size) :=
    length_growTo ..
  obtain ⟨enc₁, h₁⟩ : ∃ enc₁, (enc.resize (off + size)).writeLe off (toLE 4 first) = .ok enc₁ :=
    ⟨_, writeLe_ok (by rw [length_toLE]; omega) (by omega)⟩
  obtain ⟨w₁, -, hlen₁⟩ := writeNum_spec (by omega) h₁
  obtain ⟨enc₂, h₂⟩ : ∃ enc₂, enc₁.writeLe (off + 4) (toLE 4 second) = .ok enc₂ :=
    ⟨_, writeLe_ok (by rw [length_toLE]; omega) (by omega)⟩
  obtain ⟨w₂, -, hlen₂⟩ := writeNum_spec (by omega) h₂
  refine ⟨enc₂, ?_, by omega, w₂.depth.trans w₁.depth⟩
  rw [Encoder.beginObject, checkedAdd_ok (by omega), ok_bind]
  dsimp only
  rw [h₁, ok_bind, h₂]

/-- An object at the end of the buffer, with its fields. -/
theorem object_completes {g need size first second : Nat} {E : Nat → Encoder → WireResult Encoder}
    (hsize : 8 ≤ size) (h8 : 8 ∣ size) (h : ∀ off, Completes g need (off + size) (E off)) :
    ObjectCompletes (size + g) need
      (fun off enc => enc.beginObject off size first second >>= E off) := by
  intro enc ha hg hd
  obtain ⟨enc₁, h₁, hlen₁, hd₁⟩ := beginObject_ok enc enc.buf.length first second hsize (by omega)
  obtain ⟨enc₂, h₂, hgrew⟩ := h enc.buf.length enc₁ (by omega) (by omega) (by omega) (by omega)
  have hlen₂ := hgrew.length
  refine ⟨enc₂, ?_, by omega, hgrew.aligned, hgrew.depth.trans hd₁⟩
  beta_reduce
  rw [h₁, ok_bind, h₂]

/-- An object in place. -/
theorem inline_completes {g need off size first second : Nat} {E : Encoder → WireResult Encoder}
    (hsize : 8 ≤ size) (h : Completes g need (off + size) E) :
    Completes g need (off + size) (fun enc => enc.beginObject off size first second >>= E) := by
  intro enc hin ha hg hd
  obtain ⟨enc₁, h₁, hlen₁, hd₁⟩ := beginObject_ok enc off first second hsize (by omega)
  obtain ⟨enc₂, h₂, hgrew⟩ := h enc₁ (by omega) (by omega) (by omega) (by omega)
  have hlen₂ := hgrew.length
  refine ⟨enc₂, ?_, by omega, hgrew.aligned, hgrew.depth.trans hd₁⟩
  beta_reduce
  rw [h₁, ok_bind, h₂]

/-! ### Strings, arrays and maps -/

theorem string_completes {need : Nat} {s : String} (hsize : stringSize s < sizeFieldLimit) :
    ObjectCompletes (stringSize s) need (encodeStringObjectAt · s) := by
  intro enc ha hg _
  have hlimit : sizeFieldLimit + 7 < usizeLimit := by decide
  have harr : arrayHeaderSize = 8 := rfl
  have hstr : stringSize s =
      (arrayHeaderSize + s.toUTF8.data.toList.length + 1 + 7) / 8 * 8 := rfl
  obtain ⟨enc₁, h₁, hlen₁, hd₁⟩ := beginObject_ok enc enc.buf.length (stringSize s)
    s.toUTF8.data.toList.length (by omega : 8 ≤ stringSize s) (by omega)
  have hput : (putBytes enc₁.buf (enc.buf.length + 8) (s.toUTF8.data.toList ++ [0])).length =
      enc₁.buf.length := length_putBytes (by
    rw [List.length_append, List.length_singleton]
    omega)
  let enc₂ : Encoder :=
    { enc₁ with buf := putBytes enc₁.buf (enc.buf.length + 8) (s.toUTF8.data.toList ++ [0]) }
  refine ⟨enc₂, ?_, hput.trans (by omega), ?_, hd₁⟩
  rotate_left
  · show 8 ∣ (putBytes _ _ _).length
    omega
  beta_reduce
  rw [encodeStringObjectAt, alignUp_ok (by omega), ok_bind, ← hstr, h₁]
  rfl

theorem items_completes {g : Value → Nat} {need : Nat} {element : Ty} {vs : List Value}
    (h : ∀ v ∈ vs, ∀ off, Completes (g v) need (off + element.elemSize)
      (encodeItem v element off)) (off : Nat) :
    Completes (vs.map g).sum need (off + element.elemSize * vs.length)
      (encodeItems vs element off) := by
  induction vs generalizing off with
  | nil => exact completes_ok
  | cons v vs ih =>
      rw [List.forall_mem_cons] at h
      have hend : off + element.elemSize * (v :: vs).length =
          off + element.elemSize + element.elemSize * vs.length := by
        rw [List.length_cons, Nat.mul_add, Nat.mul_one]
        omega
      rw [hend, List.map_cons, List.sum_cons,
        show encodeItems (v :: vs) element off = fun enc => encodeItem v element off enc >>=
          encodeItems vs element (off + element.elemSize) from
          funext fun enc => encodeItems_cons ..]
      exact ((h.1 off).mono (Nat.le_add_right ..) (Nat.le_refl _)).seq
        (ih h.2 (off + element.elemSize))

theorem array_completes {g need : Nat} {element : Ty} {count : Nat}
    {items : Nat → Encoder → WireResult Encoder}
    (hsize : arraySize element count < sizeFieldLimit)
    (h : ∀ off, Completes g need (off + element.elemSize * count) (items off)) :
    ObjectCompletes (arraySize element count + g) need (encodeArrayBody element count items) := by
  have hlimit : sizeFieldLimit + 7 < usizeLimit := by decide
  have harr : arrayHeaderSize = 8 := rfl
  have hdef : arraySize element count = (arrayHeaderSize + element.elemSize * count + 7) / 8 * 8 :=
    rfl
  have hbody : encodeArrayBody element count items = fun target enc =>
      enc.beginObject target (arraySize element count) (arraySize element count) count >>=
        items (target + arrayHeaderSize) := by
    funext target enc
    rw [encodeArrayBody, checkedMul_ok (by omega), ok_bind, alignUp_ok (by omega), ok_bind, ← hdef]
  rw [hbody]
  refine object_completes (E := fun off => items (off + arrayHeaderSize)) (by omega) (by omega)
    fun off => (h (off + arrayHeaderSize)).mono (by omega) (Nat.le_refl _)

theorem map_completes {g₁ g₂ need count : Nat} {KO VO : Nat → Encoder → WireResult Encoder}
    (hk : ObjectCompletes g₁ need KO) (hv : ObjectCompletes g₂ need VO) :
    ObjectCompletes (mapDataSize + (g₁ + g₂)) (1 + need) (encodeMapAt count count KO VO) := by
  have hbody : encodeMapAt count count KO VO = fun target enc =>
      enc.beginObject target mapDataSize mapDataSize 0 >>= fun enc =>
        enc.nested fun enc => enc.appendObject (target + 8) KO >>=
          (·.appendObject (target + 16) VO) := by
    funext target enc
    rw [encodeMapAt, if_neg fun h => h rfl]
  rw [hbody]
  refine object_completes (E := fun target enc => enc.nested fun enc =>
    enc.appendObject (target + 8) KO >>= (·.appendObject (target + 16) VO)) (by decide)
    (by decide) fun off => ?_
  have hmap : mapDataSize = 24 := rfl
  exact (((completes_appendObject hk).mono (by omega) (Nat.le_refl _)).seq
    ((completes_appendObject hv).mono (by omega) (Nat.le_refl _))).nested

/-! ### Structs -/

/-- A value completes at every field that it suits exactly. -/
def FieldCompletes (v : Value) : Prop :=
  ∀ (n : Nat) (payload : Bool) (ty : Ty) (off bit : Nat), Suits v .exact n payload ty →
    Completes (byteTotal v ty) (nesting 0 v payload ty) (off + ty.packKind.size)
      (encodeFieldAt v payload ty off bit)

theorem packedField_completes {fields : List FieldType} {pf : PackedField} {ft : FieldType}
    {v : Value} {n : Nat} (off : Nat) (hpf : pf ∈ (packed (packFields fields)).packedFields)
    (hft : fields[pf.field.index]? = some ft) (hsuits : FieldSuits .exact n ft v)
    (hv : FieldCompletes v ∧ ∀ w, v = .nullableScalar true w → FieldCompletes w) :
    Completes (if pf.IsFlag then 0 else fieldTally (fun _ => 0) id ft v) (fieldNesting 0 ft v)
      (off + structHeaderSize + pf.offset + pf.size)
      (encodePackedField fields (fieldValue v) off pf) := by
  obtain ⟨ft', hft', -, hnull, hkind⟩ := packed_info hpf
  obtain rfl := Option.some.inj (hft.symm.trans hft')
  have hplaced := (packed_laidOut (packFields fields)).placed pf hpf
  by_cases hflag : pf.IsFlag
  · have hE : encodePackedField fields (fieldValue v) off pf = fun enc =>
        .ok (enc.writeBit (off + structHeaderSize + pf.offset) pf.bit (isPresent v)) := by
      funext enc
      rw [encodePackedField, hft]
      dsimp only
      rw [if_pos hflag.1, if_pos hflag.2, isSome_present]
    rw [if_pos hflag, hE]
    exact completes_writeBit
  · rw [if_neg hflag, hplaced.size_eq, hkind hflag, encodePackedField_value hft hflag]
    by_cases hns : ft.ty.isNullableScalar = true
    · have hnv : pf.field.nullableValueKind = true := hnull.trans hns
      obtain ⟨inner, hty⟩ := eq_nullableScalar hns
      obtain ⟨ty, mv⟩ := ft
      obtain rfl : ty = .nullableScalar inner := hty
      have hbool : inner.packKind ≠ .bool := fun hb => hflag ⟨hnv, (hkind hflag).trans hb⟩
      simp only [if_pos hnv]
      by_cases hpres : ∃ w, v = .nullableScalar true w
      · obtain ⟨w, rfl⟩ := hpres
        have hw := hv.2 w rfl n false inner (off + structHeaderSize + pf.offset) 0
          (hsuits.1 hbool)
        have htally : fieldTally (fun _ => 0) id ⟨.nullableScalar inner, mv⟩
            (.nullableScalar true w) = byteTotal w inner := if_neg hbool
        rw [htally]
        exact hw
      · rw [absent_present hpres, fieldTally_absent hpres]
        exact completes_ok
    · have hnv : pf.field.nullableValueKind = false := by
        rw [hnull]
        exact Bool.eq_false_iff.mpr hns
      rw [fieldSuits_plain hns] at hsuits
      rw [fieldTally_plain hns, fieldNesting_plain hns]
      simp only [hnv, if_neg Bool.false_ne_true]
      exact hv.1 n false ft.ty _ _ hsuits

theorem packedFields_completes {fields : List FieldType} {null : FieldValue}
    {values : List FieldValue} {off need e : Nat} {g : PackedField → Nat} {pfs : List PackedField}
    (h : ∀ pf ∈ pfs, Completes (g pf) need e
      (encodePackedField fields (values.getD pf.field.index null) off pf)) :
    Completes (pfs.map g).sum need e (encodePackedFields fields null values off pfs) := by
  induction pfs with
  | nil => exact completes_ok
  | cons pf pfs ih =>
      rw [List.forall_mem_cons] at h
      rw [List.map_cons, List.sum_cons]
      exact h.1.seq (ih h.2)

theorem encodeStructAt_eq {fields : List FieldType} {version : UInt32} {vs : List Value}
    (hpack : Packable (packFields fields)) :
    encodeStructAt fields version .null (fieldValues vs) = fun off enc =>
      enc.beginObject off (structSize fields) (structSize fields) version.toNat >>=
        encodePackedFields fields .null (fieldValues vs) off
          (packed (packFields fields)).packedFields := by
  funext off enc
  rw [encodeStructAt, pack_ok hpack, ok_bind]
  rfl

section Fields

variable {n : Nat} {fields : List FieldType} {version : UInt32} {vs : List Value}
  (hv : ∀ i, FieldCompletes (vs.getD i .null) ∧
    ∀ w, vs.getD i .null = .nullableScalar true w → FieldCompletes w)
  (hstruct : StructSuits .exact fields version vs.length)
  (hfields : SuitsFields vs .exact n version fields)
include hv hstruct hfields

theorem structFields_completes (off : Nat) :
    Completes (tallyFields (fun _ => 0) id vs fields) (nestingFields 0 vs fields)
      (off + structSize fields) (encodePackedFields fields .null (fieldValues vs) off
        (packed (packFields fields)).packedFields) := by
  have hsum : tallyFields (fun _ => 0) id vs fields =
      ((packed (packFields fields)).packedFields.map (PackedField.weight fun i =>
        (fields[i]?).elim 0 fun ft => fieldTally (fun _ => 0) id ft (vs.getD i .null))).sum :=
    (sum_packed fun i ft hft => by rw [hft]; rfl).symm
  rw [hsum]
  refine packedFields_completes fun pf hpf => ?_
  obtain ⟨ft, hft, -, -, -⟩ := packed_info hpf
  have hmode : Mode.exact.atField version ft = .exact :=
    if_pos (Nat.le_trans (minVersion_le_maxVersion hft) hstruct.2.1)
  have hfits : structHeaderSize + pf.offset + pf.size ≤ structSize fields := packed_fits hpf
  rw [getD_fieldValues]
  simp only [PackedField.weight, hft, Option.elim_some]
  exact (packedField_completes off hpf hft (hmode ▸ hfields.get hft) (hv pf.field.index)).mono
    (by omega) (fieldNesting_le 0 hft)

theorem struct_completes :
    ObjectCompletes (structSize fields + tallyFields (fun _ => 0) id vs fields)
      (0 + nestingFields 0 vs fields) (encodeStructAt fields version .null (fieldValues vs)) := by
  rw [Nat.zero_add, encodeStructAt_eq hstruct.1]
  exact object_completes (structHeaderSize_le fields) (eight_dvd_structSize fields)
    (structFields_completes hv hstruct hfields)

theorem structInline_completes (off : Nat) :
    Completes (0 + tallyFields (fun _ => 0) id vs fields) (0 + nestingFields 0 vs fields)
      (off + structSize fields) (encodeStructAt fields version .null (fieldValues vs) off) := by
  rw [Nat.zero_add, Nat.zero_add, encodeStructAt_eq hstruct.1]
  exact inline_completes (structHeaderSize_le fields) (structFields_completes hv hstruct hfields off)

end Fields

/-! ### All values -/

/-- The same for an array element that is an object of its own. -/
def ElementCompletes (v : Value) : Prop :=
  ∀ (n : Nat) (element : Ty), SuitsElement v .exact n element →
    ObjectCompletes (tallyElement (fun _ => 0) id v element) (nestingElement 0 v element)
      (encodeArrayElementAt v element)

theorem item_completes {n : Nat} {element : Ty} {v : Value} (hf : FieldCompletes v)
    (he : ElementCompletes v) (h : ItemSuits .exact n element v) (off : Nat) :
    Completes (itemTally (fun _ => 0) id element v) (itemNesting 0 element v)
      (off + element.elemSize) (encodeItem v element off) := by
  by_cases hpod : element.isPod = true
  · have hs : Suits v .exact n false element := by
      unfold ItemSuits at h
      rwa [if_pos hpod] at h
    have htally : itemTally (fun _ => 0) id element v = byteTotal v element := if_pos hpod
    have hE : encodeItem v element off = encodeFieldAt v false element off 0 :=
      funext fun _ => if_pos hpod
    rw [htally, itemNesting, if_pos hpod, Ty.elemSize, if_pos hpod, hE]
    exact hf n false element off 0 hs
  · rw [itemNesting, if_neg hpod, Ty.elemSize, if_neg hpod]
    by_cases hnull : v = .null
    · subst hnull
      have htally : itemTally (fun _ => 0) id element .null = 0 := if_neg hpod
      have hE : encodeItem .null element off = (·.writeNull off) := funext fun _ => if_neg hpod
      rw [htally, hE]
      exact completes_writeNum _ off 8 0
    · obtain ⟨hs, htally, hE⟩ := itemObject hpod hnull
      rw [hs] at h
      rw [htally, hE]
      exact completes_appendObject (he n element h)

theorem arrayValue_completes {n : Nat} {element : Ty} {vs : List Value}
    (hvs : ∀ v ∈ vs, FieldCompletes v ∧ ElementCompletes v)
    (hsize : arraySize element vs.length < sizeFieldLimit) (h : SuitsItems vs .exact n element) :
    ObjectCompletes (arraySize element vs.length + tallyItems (fun _ => 0) id vs element)
      (nestingItems 0 vs element)
      (encodeArrayBody element vs.length (encodeItems vs element)) := by
  rw [tallyItems_eq]
  refine array_completes hsize (items_completes fun v hv off => ?_)
  exact (item_completes (hvs v hv).1 (hvs v hv).2 (suitsItems_iff.mp h v hv) off).mono
    (Nat.le_refl _) (itemNesting_le hv)

theorem mapValue_completes {n : Nat} {key value : Ty} {keys values : List Value}
    (hkeys : ∀ v ∈ keys, FieldCompletes v ∧ ElementCompletes v)
    (hvalues : ∀ v ∈ values, FieldCompletes v ∧ ElementCompletes v)
    (hsize : arraySize key keys.length < sizeFieldLimit ∧
      arraySize value values.length < sizeFieldLimit)
    (hcount : keys.length = values.length) (hk : SuitsItems keys .exact n key)
    (hv : SuitsItems values .exact n value) :
    ObjectCompletes
      (mapDataSize + (arraySize key keys.length + tallyItems (fun _ => 0) id keys key) +
        (arraySize value values.length + tallyItems (fun _ => 0) id values value))
      (1 + max (nestingItems 0 keys key) (nestingItems 0 values value))
      (encodeMapAt keys.length values.length
        (encodeArrayBody key keys.length (encodeItems keys key))
        (encodeArrayBody value values.length (encodeItems values value))) := by
  have hk' := arrayValue_completes hkeys hsize.1 hk
  have hv' := arrayValue_completes hvalues hsize.2 hv
  have hmap := @map_completes _ _ _ keys.length _ _
    (hk'.mono (Nat.le_max_left _ (nestingItems 0 values value)))
    (hv'.mono (Nat.le_max_right (nestingItems 0 keys key) _))
  rw [Nat.add_assoc mapDataSize, show encodeMapAt keys.length values.length =
    encodeMapAt keys.length keys.length by rw [hcount]]
  exact hmap

theorem scalar_completes {need off : Nat} (bit : Nat) {v : Value} {ty : Ty}
    (h : ScalarSuits .exact v ty) :
    Completes 0 need (off + ty.packKind.size) (encodeScalar v ty off bit) := by
  obtain ⟨k, hk⟩ := Option.isSome_iff_exists.mp h.1
  have hE : encodeScalar v ty off bit = (·.writeLe off (toLE ty.packKind.size k)) := by
    funext enc
    rw [encodeScalar, hk]
  rw [hE]
  exact completes_writeNum need off _ k

theorem null_completes : FieldCompletes .null := by
  intro n payload ty off bit hs
  have hnull : ∀ {e}, off + 8 ≤ e → Completes 0 0 e (·.writeNull off) := fun he =>
    (completes_writeNum 0 off 8 0).mono he (Nat.le_refl _)
  cases ty with
  | string nullable =>
      obtain rfl : nullable = true := hs
      exact hnull (Nat.le_refl _)
  | array element nullable =>
      obtain rfl : nullable = true := hs
      exact hnull (Nat.le_refl _)
  | map key value nullable =>
      obtain rfl : nullable = true := hs
      exact hnull (Nat.le_refl _)
  | struct fields version nullable =>
      obtain rfl : nullable = true := hs
      exact hnull (Nat.le_refl _)
  | union members nullable inlined =>
      obtain rfl : nullable = true := hs.1
      refine hnull (Nat.add_le_add_left ?_ off)
      cases inlined
      · exact Nat.le_refl 8
      · exact (by decide : 8 ≤ 16)
  | nullableScalar inner => exact completes_ok
  | _ => exact absurd hs id

section Inside

variable {v : Value} (inside : ∀ w, sizeOf w < sizeOf v → FieldCompletes w ∧ ElementCompletes w)
include inside

theorem children_complete : ∀ w ∈ v.children, FieldCompletes w ∧ ElementCompletes w :=
  fun w hw => inside w (sizeOf_child_lt hw)

theorem fields_complete {version : UInt32} {vs : List Value} (hv : v = .struct version vs)
    (i : Nat) : FieldCompletes (vs.getD i .null) ∧
      ∀ w, vs.getD i .null = .nullableScalar true w → FieldCompletes w := by
  subst hv
  rw [List.getD_eq_getElem?_getD]
  cases hw : vs[i]? with
  | none => exact ⟨null_completes, fun w h => nomatch h⟩
  | some w =>
      have hlt : sizeOf w < sizeOf (Value.struct version vs) :=
        sizeOf_child_lt (List.mem_of_getElem? hw)
      refine ⟨(inside w hlt).1, fun u hu => (inside u (Nat.lt_trans ?_ hlt)).1⟩
      obtain rfl : w = .nullableScalar true u := hu
      exact sizeOf_child_lt (List.mem_singleton_self u)

theorem element_completes : ElementCompletes v := by
  intro n element hs
  have hchildren := children_complete inside
  cases v with
  | struct version vs =>
      cases element with
      | struct fields sv nullable =>
          exact struct_completes (fields_complete inside rfl) hs.1 hs.2
      | string nullable => exact absurd rfl hs
      | array inner nullable => exact absurd rfl hs
      | _ => exact absurd hs id
  | array items =>
      have hitems : ∀ w ∈ items, FieldCompletes w ∧ ElementCompletes w := hchildren
      cases element with
      | array inner nullable => exact arrayValue_completes hitems (hs.1 rfl) hs.2
      | string nullable => exact absurd rfl hs
      | _ => exact absurd hs id
  | map keys values =>
      cases element with
      | map key value nullable =>
          exact mapValue_completes (fun w hw => hchildren w (List.mem_append_left _ hw))
            (fun w hw => hchildren w (List.mem_append_right _ hw)) (hs.1 rfl) hs.2.1 hs.2.2.1
            hs.2.2.2
      | string nullable => exact absurd rfl hs
      | array inner nullable => exact absurd rfl hs
      | _ => exact absurd hs id
  | string s =>
      cases element with
      | string nullable => exact string_completes (hs.2 rfl)
      | array inner nullable => exact absurd rfl hs
      | _ => exact absurd hs id
  | _ =>
      cases element with
      | string nullable => exact absurd rfl hs
      | array inner nullable => exact absurd rfl hs
      | _ => exact absurd hs id

theorem union_completes {n off bit : Nat} {payload : Bool} {tag : UInt32} {value : Value}
    {members : List Ty} {nullable inlined : Bool} (hv : v = .union tag value)
    (hs : Suits v .exact n payload (.union members nullable inlined)) :
    Completes (byteTotal v (.union members nullable inlined))
      (nesting 0 v payload (.union members nullable inlined))
      (off + (Ty.union members nullable inlined).packKind.size)
      (encodeFieldAt v payload (.union members nullable inlined) off bit) := by
  have hvalue := (children_complete inside value (by
    rw [hv]
    exact List.mem_singleton_self value)).1
  subst hv
  cases hm : members[tag.toNat]? with
  | none => simp only [Suits, hm] at hs
  | some member =>
      simp only [Suits, hm] at hs
      have hsize := Kind.size_le_eight hs.1
      have hpayload : ∀ off, Completes (byteTotal value member) (nesting 0 value true member)
          (off + unionDataSize) (encodeFieldAt value true member (off + 8) 0) := fun off =>
        (hvalue n true member (off + 8) 0 hs.2).mono
          (by show _ ≤ off + 16; omega) (Nat.le_refl _)
      simp only [byteTotal, tally, nesting, hm]
      cases inlined with
      | true =>
          rw [encodeFieldAt_unionInPlace hm, if_pos rfl, Nat.zero_add]
          exact inline_completes (by decide : 8 ≤ unionDataSize) (hpayload off)
      | false =>
          rw [encodeFieldAt_unionPointer hm, if_neg Bool.false_ne_true]
          exact completes_appendObject (object_completes (by decide) (by decide) hpayload)

theorem field_completes : FieldCompletes v := by
  intro n payload ty off bit hs
  have hchildren := children_complete inside
  cases v with
  | bool b =>
      cases ty with
      | bool => exact completes_writeBit
      | _ => exact absurd hs id
  | handle index =>
      cases ty with
      | handle => exact (completes_writeNum 0 off 4 index.toNat).push index
      | _ => exact absurd hs id
  | string s =>
      cases ty with
      | string nullable => exact completes_appendObject (string_completes (hs.2 rfl))
      | _ => exact absurd hs id
  | array items =>
      have hitems : ∀ w ∈ items, FieldCompletes w ∧ ElementCompletes w := hchildren
      cases ty with
      | array element nullable =>
          have harr := arrayValue_completes hitems (hs.1 rfl) hs.2
          cases payload with
          | true => exact (completes_appendObject harr).mono (Nat.le_refl _) (Nat.le_add_left _ _)
          | false => exact completes_appendObject harr.nested
      | _ => exact absurd hs id
  | map keys values =>
      cases ty with
      | map key value nullable =>
          exact completes_appendObject
            (mapValue_completes (fun w hw => hchildren w (List.mem_append_left _ hw))
              (fun w hw => hchildren w (List.mem_append_right _ hw)) (hs.1 rfl) hs.2.1 hs.2.2.1
              hs.2.2.2)
      | _ => exact absurd hs id
  | struct version vs =>
      have hmatch := fields_complete inside rfl
      cases ty with
      | struct fields sv nullable =>
          obtain ⟨hplace, hstruct, hfields⟩ : (nullable = true ∨ payload = false ∧ fields = []) ∧
            StructSuits .exact fields version vs.length ∧
              SuitsFields vs .exact n version fields := hs
          cases nullable with
          | true => exact completes_appendObject (struct_completes hmatch hstruct hfields)
          | false =>
              obtain ⟨rfl, rfl⟩ := hplace.resolve_left Bool.false_ne_true
              exact structInline_completes hmatch hstruct hfields off
      | _ => exact absurd hs id
  | union tag value =>
      cases ty with
      | union members nullable inlined => exact union_completes inside rfl hs
      | _ => exact absurd hs id
  | interface index v =>
      cases ty with
      | interface version =>
          exact (((completes_writeNum 0 off 4 index.toNat).mono (by show _ ≤ off + 8; omega)
            (Nat.le_refl _)).seq (completes_writeNum 0 (off + 4) 4 _)).push index
      | _ => exact absurd hs id
  | associatedInterface endpoint v =>
      cases ty with
      | associatedInterface version =>
          exact ((completes_writeNum 0 off 4 endpoint.toNat).mono (by show _ ≤ off + 8; omega)
            (Nat.le_refl _)).seq (completes_writeNum 0 (off + 4) 4 _)
      | _ => exact absurd hs id
  | null => exact null_completes n payload ty off bit hs
  | nullableScalar present value =>
      cases ty with
      | nullableScalar inner =>
          cases present with
          | true => exact absurd rfl hs.1
          | false => exact completes_ok
      | _ => cases present <;> exact absurd hs id
  | _ => exact scalar_completes bit hs

end Inside

/-- The encoder succeeds on every exact value. -/
theorem completes_all : ∀ v : Value, FieldCompletes v ∧ ElementCompletes v :=
  Value.sizeInduction (fun _ inside => ⟨field_completes inside, element_completes inside⟩)

end MojoRs.Wire
