/-
MojoRs/Wire/StructCodec.lean

Whole structs as matching pairs of encoder and decoder.  The writer has the
fields `fields`, the reader the fields `rfields`; what they have in common are
the packed fields that `rd` selects from those of the writer.  For one and the
same schema these are the fields that the version has, and for a schema that
has evolved the fields that both know.

Main results:
* `structFields_sound` — the fields of a struct match;
* `structObject_sound`, `sound_structInline` — so do structs as objects and, if
  they have no fields, in place;
* `assemble_exact` — what the reader assembles are the values of the writer,
  and the default values of fields that the writer does not know.
-/
import MojoRs.Wire.Structs

namespace MojoRs.Wire

open Lib

/-! ### Sums over packed fields -/

/-- A quantity of a packed field that its flag does not have. -/
def PackedField.weight (W : Nat → Nat) (pf : PackedField) : Nat :=
  if pf.IsFlag then 0 else W pf.field.index

theorem fieldTally_flag {handle : UInt32 → Nat} {object : Nat → Nat} {ft : FieldType}
    (hns : ft.ty.isNullableScalar = true) (hbool : ft.ty.packKind = .bool) (v : Value) :
    fieldTally handle object ft v = 0 := by
  obtain ⟨inner, hty⟩ := eq_nullableScalar hns
  obtain ⟨ty, mv⟩ := ft
  obtain rfl : ty = .nullableScalar inner := hty
  by_cases hpres : ∃ w, v = .nullableScalar true w
  · obtain ⟨w, rfl⟩ := hpres
    exact if_pos hbool
  · exact fieldTally_absent hpres

/-- The weights of what a field expands to. -/
theorem sum_expand (W : Nat → Nat) (ft : FieldType) (i o : Nat)
    (hflag : ft.ty.isNullableScalar = true → ft.ty.packKind = .bool → W i = 0) :
    ((expand o (ft.toField i)).map fun pf => pf.resolve.versioned.weight W).sum = W i := by
  unfold expand
  split
  · rename_i hns
    have hns' : ft.ty.isNullableScalar = true := hns
    have hflagPart : (PackedField.unplaced { ft.toField i with kind := .bool } o
        (some 0)).resolve.versioned.weight W = 0 := if_pos ⟨hns', rfl⟩
    have hvaluePart : (PackedField.unplaced (ft.toField i) o
        (some 1)).resolve.versioned.weight W = W i := by
      by_cases hbool : ft.ty.packKind = .bool
      · exact (if_pos ⟨hns', hbool⟩).trans (hflag hns' hbool).symm
      · exact if_neg fun h => hbool h.2
    exact (congrArg₂ (· + ·) hflagPart (congrArg (· + 0) hvaluePart)).trans (Nat.zero_add _)
  · rename_i hns
    have hpart : (PackedField.unplaced (ft.toField i) o none).resolve.versioned.weight W = W i :=
      if_neg fun h => hns h.1
    exact congrArg (· + 0) hpart

theorem sum_srcFields {handle : UInt32 → Nat} {object : Nat → Nat} {W : Nat → Nat}
    {fields : List FieldType} {vs : List Value} {i : Nat}
    (hW : ∀ j ft, fields[j]? = some ft →
      W (i + j) = fieldTally handle object ft (vs.getD j .null)) :
    ((srcFields i (packFieldsFrom i fields)).map fun pf => pf.resolve.versioned.weight W).sum =
      tallyFields handle object vs fields := by
  induction fields generalizing i vs with
  | nil => cases vs <;> rfl
  | cons ft fts ih =>
      have hfirst : W i = fieldTally handle object ft (vs.getD 0 .null) := hW 0 ft rfl
      have hflag : ft.ty.isNullableScalar = true → ft.ty.packKind = .bool → W i = 0 :=
        fun hns hbool => hfirst.trans (fieldTally_flag hns hbool _)
      have hrest : ∀ j ft', fts[j]? = some ft' →
          W (i + 1 + j) = fieldTally handle object ft' (vs.tail.getD j .null) := by
        intro j ft' hft'
        have h := hW (j + 1) ft' hft'
        rw [Nat.add_assoc, Nat.add_comm 1 j, h]
        cases vs <;> rfl
      rw [packFieldsFrom, srcFields_cons, List.map_append, List.sum_append,
        sum_expand W ft i i hflag, ih hrest, hfirst]
      cases vs with
      | nil =>
          show fieldTally handle object ft .null + tallyFields handle object [] fts = 0
          rw [fieldTally_null, Nat.zero_add, tallyFields]
      | cons v vs => exact (tallyFields_cons ..).symm

/-- The packed fields have what the fields have. -/
theorem sum_packed {handle : UInt32 → Nat} {object : Nat → Nat} {W : Nat → Nat}
    {fields : List FieldType} {vs : List Value}
    (hW : ∀ i ft, fields[i]? = some ft → W i = fieldTally handle object ft (vs.getD i .null)) :
    ((packed (packFields fields)).packedFields.map (·.weight W)).sum =
      tallyFields handle object vs fields := by
  rw [(packed_perm (g := (·.weight W)) (fun _ _ => rfl) (packFields fields)).sum_nat, sources_eq,
    List.map_map]
  exact sum_srcFields fun j ft hft => by rw [Nat.zero_add, hW j ft hft]

/-! ### The fields of a struct -/

theorem structHeaderSize_le (fields : List FieldType) : structHeaderSize ≤ structSize fields := by
  show _ ≤ sizeOfPacked _
  unfold sizeOfPacked
  split
  · exact Nat.le_add_left _ _
  · exact Nat.le_refl _

/-- What is read of the values `vs` for a packed field. -/
def fieldResult (fields : List FieldType) (vs : List Value) (pf : PackedField) : FieldResult :=
  if pf.IsFlag then .inr (isPresent (vs.getD pf.field.index .null))
  else .inl ((fields[pf.field.index]?).elim .null fun ft =>
    scalarTarget ft (vs.getD pf.field.index .null))

/-- A value matches, and so does what it holds as a nullable scalar. -/
def Matching (v : Value) : Prop := FieldMatches v ∧ ∀ w, v = .nullableScalar true w → FieldMatches w

/-- Values that suit the fields, those that are read as `m` asks. -/
def FieldsSuit (m : Mode) (n : Nat) (rd : PackedField → Bool) (fields : List FieldType)
    (vs : List Value) : Prop :=
  ∀ pf ∈ (packed (packFields fields)).packedFields, ∀ ft, fields[pf.field.index]? = some ft →
    ∃ m', FieldSuits m' n ft (vs.getD pf.field.index .null) ∧ (rd pf = true → m' = m)

theorem structFields_sound {m : Mode} {n : Nat} (off : Nat) {fields : List FieldType} {vs : List Value}
    {decoders : List FieldDecoder} {rd : PackedField → Bool}
    (hmatch : ∀ i, Matching (vs.getD i .null)) (hsuits : FieldsSuit m n rd fields vs)
    (hdec : m ≠ .skipped → ∀ pf ∈ (packed (packFields fields)).packedFields, rd pf = true →
      ∀ ft, fields[pf.field.index]? = some ft →
        decoders[pf.field.index]? = some (decodeField ft.ty false)) :
    Sound m n
      (tallyFields (fun index => if index = encodedInvalidHandleValue then 0 else 1) (fun _ => 0)
        vs fields)
      (tallyFields (fun _ => 0) id vs fields) (nestingFields 1 vs fields)
      (8 * (off + structHeaderSize)) (8 * (off + structSize fields))
      (encodePackedFields fields .null (fieldValues vs) off
        (packed (packFields fields)).packedFields)
      (readPackedFields decoders off ((packed (packFields fields)).packedFields.filter rd))
      (((packed (packFields fields)).packedFields.filter rd).map (fieldResult fields vs)) := by
  have hlaid := packed_laidOut (packFields fields)
  have hsum : ∀ handle object, tallyFields handle object vs fields =
      ((packed (packFields fields)).packedFields.map (PackedField.weight fun i =>
        (fields[i]?).elim 0 fun ft => fieldTally handle object ft (vs.getD i .null))).sum :=
    fun handle object => (sum_packed fun i ft hft => by rw [hft]; rfl).symm
  rw [hsum, hsum]
  refine fields_sound ?_ ?_ ?_ ?_ ?_
  · -- one after the other
    exact hlaid.pairwise.imp_of_mem fun ha _ h => h.stop_le_start (hlaid.placed _ ha) off
  · intro pf _
    have hstart := pf.le_start off
    omega
  · intro pf hpf
    have hstop := (hlaid.placed pf hpf).stop_le off
    have hfits : structHeaderSize + pf.offset + pf.size ≤ structSize fields := packed_fits hpf
    omega
  · have hhead := structHeaderSize_le fields
    omega
  · intro pf hpf
    obtain ⟨ft, hft, -, -, -⟩ := packed_info hpf
    rw [getD_fieldValues]
    obtain ⟨m', hsuit, hm'⟩ := hsuits pf hpf ft hft
    simp only [PackedField.weight, fieldResult, hft, Option.elim_some]
    by_cases hrd : rd pf = true
    · obtain rfl := hm' hrd
      rw [if_pos hrd]
      exact packedField_sound off decoders hpf hft hsuit (hmatch pf.field.index)
        (fieldNesting_le 1 hft) fun hm => hdec hm pf hpf hrd ft hft
    · -- any decoder would do
      rw [if_neg hrd]
      exact (packedField_sound off (fields.map fun ft => decodeField ft.ty false) hpf hft hsuit
        (hmatch pf.field.index) (fieldNesting_le 1 hft) fun _ => by
          rw [List.getElem?_map, hft, Option.map_some]).skip

/-! ### What the reader assembles -/

section Assemble

variable {fields rfields : List FieldType} {vs : List Value}

/-- What is read for the field `i`, flags aside. -/
def scalarAt (fields : List FieldType) (vs : List Value) (i : Nat) : Value :=
  (fields[i]?).elim .null fun ft => scalarTarget ft (vs.getD i .null)

theorem applyResult_flag {st : List Value × List Bool} {pf : PackedField} (h : pf.IsFlag) :
    applyResult st pf (fieldResult fields vs pf) =
      (st.1, st.2.set pf.field.index (isPresent (vs.getD pf.field.index .null))) := by
  rw [fieldResult, if_pos h]
  rfl

theorem applyResult_value {st : List Value × List Bool} {pf : PackedField} (h : ¬pf.IsFlag) :
    applyResult st pf (fieldResult fields vs pf) =
      (st.1.set pf.field.index (scalarAt fields vs pf.field.index), st.2) := by
  rw [fieldResult, if_neg h]
  rfl

/-- A field that is read holds what is read for it. -/
theorem applyResults_scalar (fields : List FieldType) (vs : List Value) {pfs : List PackedField}
    (st : List Value × List Bool) {i : Nat}
    (h : st.1[i]? = some (scalarAt fields vs i) ∨
      i < st.1.length ∧ ∃ pf ∈ pfs, ¬pf.IsFlag ∧ pf.field.index = i) :
    (applyResults st pfs (pfs.map (fieldResult fields vs))).1[i]? =
      some (scalarAt fields vs i) := by
  induction pfs generalizing st with
  | nil =>
      rcases h with h | ⟨-, pf, hpf, -⟩
      · exact h
      · exact nomatch hpf
  | cons pf pfs ih =>
      have hlt : i < st.1.length := h.elim (fun h => (List.getElem?_eq_some_iff.mp h).1) (·.1)
      rw [List.map_cons, applyResults]
      apply ih
      by_cases hflag : pf.IsFlag
      · rw [applyResult_flag hflag]
        refine h.imp_right fun ⟨_, q, hq, hnf, hi⟩ => ⟨hlt, q, ?_, hnf, hi⟩
        exact (List.mem_cons.mp hq).resolve_left fun heq => hnf (heq ▸ hflag)
      · rw [applyResult_value hflag]
        by_cases hi : pf.field.index = i
        · rw [hi]
          exact .inl (List.getElem?_set_self hlt)
        · rw [List.getElem?_set_ne hi, List.length_set]
          refine h.imp_right fun ⟨_, q, hq, hnf, hi'⟩ => ⟨hlt, q, ?_, hnf, hi'⟩
          exact (List.mem_cons.mp hq).resolve_left fun heq => hi (heq ▸ hi')

/-- So does its flag. -/
theorem applyResults_present (fields : List FieldType) (vs : List Value) {pfs : List PackedField}
    (st : List Value × List Bool) {i : Nat}
    (h : st.2[i]? = some (isPresent (vs.getD i .null)) ∨
      i < st.2.length ∧ ∃ pf ∈ pfs, pf.IsFlag ∧ pf.field.index = i) :
    (applyResults st pfs (pfs.map (fieldResult fields vs))).2[i]? =
      some (isPresent (vs.getD i .null)) := by
  induction pfs generalizing st with
  | nil =>
      rcases h with h | ⟨-, pf, hpf, -⟩
      · exact h
      · exact nomatch hpf
  | cons pf pfs ih =>
      have hlt : i < st.2.length := h.elim (fun h => (List.getElem?_eq_some_iff.mp h).1) (·.1)
      rw [List.map_cons, applyResults]
      apply ih
      by_cases hflag : pf.IsFlag
      · rw [applyResult_flag hflag]
        by_cases hi : pf.field.index = i
        · rw [hi]
          exact .inl (List.getElem?_set_self hlt)
        · rw [List.getElem?_set_ne hi, List.length_set]
          refine h.imp_right fun ⟨_, q, hq, hf, hi'⟩ => ⟨hlt, q, ?_, hf, hi'⟩
          exact (List.mem_cons.mp hq).resolve_left fun heq => hi (heq ▸ hi')
      · rw [applyResult_value hflag]
        refine h.imp_right fun ⟨_, q, hq, hf, hi⟩ => ⟨hlt, q, ?_, hf, hi⟩
        exact (List.mem_cons.mp hq).resolve_left fun heq => hflag (heq ▸ hf)

/-- A field that is not read keeps its default. -/
theorem applyResults_other (fields : List FieldType) (vs : List Value) {pfs : List PackedField}
    (st : List Value × List Bool) {i : Nat}
    (h : ∀ pf ∈ pfs, pf.field.index ≠ i) :
    (applyResults st pfs (pfs.map (fieldResult fields vs))).1[i]? = st.1[i]? ∧
      (applyResults st pfs (pfs.map (fieldResult fields vs))).2[i]? = st.2[i]? := by
  induction pfs generalizing st with
  | nil => exact ⟨rfl, rfl⟩
  | cons pf pfs ih =>
      rw [List.forall_mem_cons] at h
      rw [List.map_cons, applyResults]
      obtain ⟨h₁, h₂⟩ := ih (applyResult st pf (fieldResult fields vs pf)) h.2
      rw [h₁, h₂]
      by_cases hflag : pf.IsFlag
      · rw [applyResult_flag hflag]
        exact ⟨rfl, List.getElem?_set_ne h.1⟩
      · rw [applyResult_value hflag]
        exact ⟨List.getElem?_set_ne h.1, rfl⟩

theorem getElem?_assembleFields {fts : List FieldType} {sc : List Value} {pr : List Bool}
    {i : Nat} {ft : FieldType} {s : Value} {p : Bool} (hft : fts[i]? = some ft)
    (hs : sc[i]? = some s) (hp : pr[i]? = some p) :
    (assembleFields fts sc pr)[i]? = some (assembleField ft s p) := by
  induction fts generalizing sc pr i with
  | nil => exact nomatch hft
  | cons ft' fts ih =>
      cases sc with
      | nil => exact nomatch hs
      | cons s' sc =>
          cases pr with
          | nil => exact nomatch hp
          | cons p' pr =>
              cases i with
              | zero =>
                  obtain rfl := Option.some.inj hft
                  obtain rfl := Option.some.inj hs
                  obtain rfl := Option.some.inj hp
                  rfl
              | succ i => exact ih hft hs hp

theorem length_assembleFields {fts : List FieldType} {sc : List Value} {pr : List Bool}
    (hs : sc.length = fts.length) (hp : pr.length = fts.length) :
    (assembleFields fts sc pr).length = fts.length := by
  induction fts generalizing sc pr with
  | nil => rfl
  | cons ft fts ih =>
      cases sc with
      | nil => exact nomatch hs
      | cons s sc =>
          cases pr with
          | nil => exact nomatch hp
          | cons p pr => exact congrArg Nat.succ (ih (Nat.succ.inj hs) (Nat.succ.inj hp))

theorem length_applyResult (st : List Value × List Bool) (pf : PackedField) (r : FieldResult) :
    (applyResult st pf r).1.length = st.1.length ∧
      (applyResult st pf r).2.length = st.2.length := by
  cases r with
  | inl v => exact ⟨List.length_set, rfl⟩
  | inr p => exact ⟨rfl, List.length_set⟩

theorem length_applyResults (st : List Value × List Bool) (pfs : List PackedField)
    (rs : List FieldResult) :
    (applyResults st pfs rs).1.length = st.1.length ∧
      (applyResults st pfs rs).2.length = st.2.length := by
  induction pfs generalizing st rs with
  | nil => exact ⟨rfl, rfl⟩
  | cons pf pfs ih =>
      cases rs with
      | nil => exact ⟨rfl, rfl⟩
      | cons r rs =>
          obtain ⟨h₁, h₂⟩ := ih (applyResult st pf r) rs
          obtain ⟨h₃, h₄⟩ := length_applyResult st pf r
          exact ⟨h₁.trans h₃, h₂.trans h₄⟩

theorem length_assemble (pfs : List PackedField) (rs : List FieldResult) :
    (assemble rfields pfs rs).length = rfields.length := by
  obtain ⟨h₁, h₂⟩ := length_applyResults
    (rfields.map defaultValue, List.replicate rfields.length false) pfs rs
  exact length_assembleFields (h₁.trans (List.length_map ..)) (h₂.trans List.length_replicate)

/-- What is read for an exact value assembles to it. -/
theorem assembleField_exact {n : Nat} {ft : FieldType} {v : Value} {s : Value} {p : Bool}
    (h : ft.ty.isNullableScalar = true → FieldSuits .exact n ft v) (hs : s = scalarTarget ft v)
    (hp : ft.ty.isNullableScalar = true → p = isPresent v) : assembleField ft s p = v := by
  rw [assembleField]
  split
  · rename_i hns
    obtain ⟨inner, hty⟩ := eq_nullableScalar hns
    obtain ⟨ty, mv⟩ := ft
    obtain rfl : ty = .nullableScalar inner := hty
    rw [hp rfl, hs]
    by_cases hpres : ∃ w, v = .nullableScalar true w
    · obtain ⟨w, rfl⟩ := hpres
      rfl
    · obtain rfl := (fieldSuits_absent hpres (h rfl)).2 rfl
      rfl
  · rename_i hns
    rw [hs, scalarTarget_plain hns]

theorem assembleField_default (ft : FieldType) :
    assembleField ft (defaultValue ft) false = defaultValue ft := by
  unfold assembleField
  split
  · rename_i hns
    obtain ⟨inner, hty⟩ := eq_nullableScalar hns
    unfold defaultValue
    rw [hty]
    rfl
  · rfl

/-- A field that is read comes back. -/
theorem assemble_read {n i : Nat} {ft : FieldType} {pfs : List PackedField}
    (hr : rfields[i]? = some ft) (hft : fields[i]? = some ft)
    (hsuits : ft.ty.isNullableScalar = true → FieldSuits .exact n ft (vs.getD i .null))
    (hvalue : (ft.ty.isNullableScalar = true → ft.ty.packKind ≠ .bool) →
      ∃ pf ∈ pfs, ¬pf.IsFlag ∧ pf.field.index = i)
    (hflag : ft.ty.isNullableScalar = true → ∃ pf ∈ pfs, pf.IsFlag ∧ pf.field.index = i) :
    (assemble rfields pfs (pfs.map (fieldResult fields vs)))[i]? = some (vs.getD i .null) := by
  have hlt : i < rfields.length := (List.getElem?_eq_some_iff.mp hr).1
  obtain ⟨hlen₁, hlen₂⟩ := length_applyResults
    (rfields.map defaultValue, List.replicate rfields.length false) pfs
    (pfs.map (fieldResult fields vs))
  have hlt₁ : i < (rfields.map defaultValue).length := by rwa [List.length_map]
  have hlt₂ : i < (List.replicate rfields.length false).length := by rwa [List.length_replicate]
  obtain ⟨s, hs⟩ : ∃ s, _ = some s := ⟨_, List.getElem?_eq_getElem (hlen₁ ▸ hlt₁)⟩
  obtain ⟨p, hp⟩ : ∃ p, _ = some p := ⟨_, List.getElem?_eq_getElem (hlen₂ ▸ hlt₂)⟩
  have hpres : ft.ty.isNullableScalar = true → p = isPresent (vs.getD i .null) := fun hns =>
    Option.some.inj (hp.symm.trans (applyResults_present fields vs _ (.inr ⟨hlt₂, hflag hns⟩)))
  have hexact : assembleField ft s p = vs.getD i .null := by
    by_cases hbool : ft.ty.isNullableScalar = true ∧ ft.ty.packKind = .bool
    · -- an exact value of this type is absent
      obtain ⟨inner, hty⟩ := eq_nullableScalar hbool.1
      obtain ⟨ty, mv⟩ := ft
      obtain rfl : ty = .nullableScalar inner := hty
      rw [assembleField, if_pos hbool.1, hpres hbool.1]
      have hsuit := hsuits rfl
      by_cases hpresent : ∃ w, vs.getD i .null = .nullableScalar true w
      · obtain ⟨w, hw⟩ := hpresent
        rw [hw] at hsuit
        exact absurd hbool.2 (hsuit.2 rfl)
      · rw [(fieldSuits_absent hpresent hsuit).2 rfl]
        rfl
    · have hscalar := applyResults_scalar fields vs
        (rfields.map defaultValue, List.replicate rfields.length false)
        (.inr ⟨hlt₁, hvalue fun hns hk => hbool ⟨hns, hk⟩⟩)
      have hs' : s = scalarTarget ft (vs.getD i .null) := by
        rw [Option.some.inj (hs.symm.trans hscalar), scalarAt, hft]
        rfl
      exact assembleField_exact hsuits hs' hpres
  exact (getElem?_assembleFields hr hs hp).trans (congrArg some hexact)

/-- A field that is not read has its default value. -/
theorem assemble_default {i : Nat} {ft : FieldType} {pfs : List PackedField}
    (hr : rfields[i]? = some ft) (hpfs : ∀ pf ∈ pfs, pf.field.index ≠ i) :
    (assemble rfields pfs (pfs.map (fieldResult fields vs)))[i]? = some (defaultValue ft) := by
  obtain ⟨h₁, h₂⟩ := applyResults_other fields vs
    (rfields.map defaultValue, List.replicate rfields.length false) hpfs
  have hs : (rfields.map defaultValue)[i]? = some (defaultValue ft) := by
    rw [List.getElem?_map, hr]
    rfl
  have hp : (List.replicate rfields.length false)[i]? = some false := by
    rw [List.getElem?_replicate, if_pos (List.getElem?_eq_some_iff.mp hr).1]
  have hget := getElem?_assembleFields hr (h₁.trans hs) (h₂.trans hp)
  rwa [assembleField_default] at hget

end Assemble

/-! ### Structs -/

theorem eight_dvd_structSize (fields : List FieldType) : 8 ∣ structSize fields := by
  show 8 ∣ sizeOfPacked _
  unfold sizeOfPacked
  split
  · exact Nat.dvd_add (dvd_add_pad _ (by decide)) (by decide)
  · decide

theorem getElem?_fieldDecoders (fields : List FieldType) (i : Nat) :
    (fieldDecoders fields)[i]? = fields[i]?.map fun ft => decodeField ft.ty false := by
  induction fields generalizing i with
  | nil => rfl
  | cons ft fts ih =>
      cases i with
      | zero => rfl
      | succ i => exact ih i

/-- A reader with the fields `rfields` understands what a writer with the
fields `fields` has written for `version`, and reads from it the packed fields
that `rd` selects. -/
structure ReadsFrom (rfields fields : List FieldType) (version : UInt32)
    (rd : PackedField → Bool) : Prop where
  packable : Packable (packFields rfields)
  size : checkStructSize rfields (packed (packFields rfields)) (structSize fields)
    version.toNat = .ok ()
  common : (packed (packFields rfields)).packedFields.filter
      (inVersion (structSize fields) version.toNat) =
    (packed (packFields fields)).packedFields.filter rd
  agree : ∀ pf ∈ (packed (packFields fields)).packedFields, rd pf = true →
    ∀ ft, fields[pf.field.index]? = some ft → rfields[pf.field.index]? = some ft

/-- The values that are read back. -/
def readBack (rfields fields : List FieldType) (rd : PackedField → Bool) (vs : List Value) :
    List Value :=
  assemble rfields ((packed (packFields fields)).packedFields.filter rd)
    (((packed (packFields fields)).packedFields.filter rd).map (fieldResult fields vs))

section Struct

variable {m : Mode} {n : Nat} {rfields fields : List FieldType} {vs : List Value}
  {version : UInt32} {rd : PackedField → Bool}

section Fields

variable {h g need : Nat} {tail : Bool} (hpack : Packable (packFields fields))
  (hreads : m ≠ .skipped → ReadsFrom rfields fields version rd)
  (hsize : m = .exact → structSize fields < sizeFieldLimit)
  (hfields : ∀ off, Sound m n h g need (8 * (off + structHeaderSize))
    (8 * (off + structSize fields))
    (lastly tail (8 * (off + structSize fields)) (encodePackedFields fields .null (fieldValues vs)
      off (packed (packFields fields)).packedFields))
    (readPackedFields (fieldDecoders rfields) off
      ((packed (packFields fields)).packedFields.filter rd))
    (((packed (packFields fields)).packedFields.filter rd).map (fieldResult fields vs)))
include hpack hreads hsize hfields

/-- A struct whose fields match, as an object. -/
theorem structObject_of_fields :
    ObjectSound m n h (structSize fields + g) (1 + need)
      (aligned tail (encodeStructAt fields version .null (fieldValues vs)))
      (decodeStruct rfields (fieldDecoders rfields))
      (.struct version (readBack rfields fields rd vs)) := by
  refine ObjectSound.nestedDecoder fun enc enc' hE => ?_
  obtain ⟨halign, hE⟩ := provided_eq_ok.mp hE
  rw [encodeStructAt, pack_ok hpack, ok_bind] at hE
  have hhead := structHeaderSize_le fields
  obtain ⟨hw, hend, hfound⟩ := object_spec rfl hhead (eight_dvd_structSize fields)
    (hfields enc.buf.length) (beginObject_lastly hhead (fun htail => ⟨Nat.le_add_right _ _,
      Nat.dvd_add (halign htail) (eight_dvd_structSize fields)⟩) hE)
  refine ⟨hw, fun hm hfit => ?_⟩
  obtain ⟨rs, hrs, hview⟩ := hfound hm hfit
  have hlt : structSize fields < sizeFieldLimit := hfit.elim hsize fun hshort => by omega
  refine ⟨_, fun hex => by rw [readBack, ← hrs hex], fun dec hv => ?_⟩
  obtain ⟨hin, hfirst, hsecond, f, hf, hD⟩ := hview dec hv
  rw [← (hreads hm).common] at hD ⊢
  exact ⟨f, hf, decodeStructBody_ok hv.addressable hin hhead (hfirst hlt)
    (hsecond version.toNat_lt)
    (claim_ok (Nat.lt_of_lt_of_le (by decide) hhead) hin hv.addressable hv.frontier_le)
    (hreads hm).packable (hreads hm).size hD⟩

/-- The same in place. -/
theorem structInline_of_fields (off : Nat) :
    Sound m n h g (1 + need) (8 * off) (8 * (off + structSize fields))
      (lastly tail (8 * (off + structSize fields))
        (encodeStructAt fields version .null (fieldValues vs) off))
      (decodeStructInline rfields (fieldDecoders rfields) off)
      (.struct version (readBack rfields fields rd vs)) := by
  refine Sound.nestedDecoder fun enc enc' hin hz hE => ?_
  obtain ⟨hlast, hE⟩ := provided_eq_ok.mp hE
  rw [encodeStructAt, pack_ok hpack, ok_bind] at hE
  have hhead := structHeaderSize_le fields
  have hend : tail = true → enc.buf.length ≤ off + structSize fields ∧
      8 ∣ off + structSize fields := by
    intro htail
    obtain ⟨hlen, h8⟩ := hlast htail
    have hlen : enc.buf.length = off + structSize fields := Nat.mul_left_cancel (by decide) hlen
    exact ⟨hlen.le, hlen ▸ h8⟩
  obtain ⟨hw, hfound⟩ := inline_spec (by omega) hhead hz (hfields off)
    (beginObject_lastly hhead hend hE)
  have hle := hw.length_le
  refine ⟨hw, fun hm hfit => ?_⟩
  obtain ⟨rs, hrs, hview⟩ := hfound hm hfit
  have hlt : structSize fields < sizeFieldLimit := hfit.elim hsize fun hshort => by omega
  refine ⟨_, fun hex => by rw [readBack, ← hrs hex], fun dec hv => ?_⟩
  obtain ⟨hin', hfirst, hsecond, f, hf, hD⟩ := hview dec hv
  rw [← (hreads hm).common] at hD ⊢
  exact ⟨f, hf, decodeStructBody_ok hv.addressable hin' hhead (hfirst hlt)
    (hsecond version.toNat_lt) rfl (hreads hm).packable (hreads hm).size hD⟩

end Fields

variable (hpack : Packable (packFields fields))
  (hreads : m ≠ .skipped → ReadsFrom rfields fields version rd)
  (hsize : m = .exact → structSize fields < sizeFieldLimit)
  (hmatch : ∀ i, Matching (vs.getD i .null))
  (hsuits : FieldsSuit m n rd fields vs)
include hreads hmatch hsuits

theorem structFields_lastly (off : Nat) :
    Sound m n
      (tallyFields (fun index => if index = encodedInvalidHandleValue then 0 else 1) (fun _ => 0)
        vs fields)
      (tallyFields (fun _ => 0) id vs fields) (nestingFields 1 vs fields)
      (8 * (off + structHeaderSize)) (8 * (off + structSize fields))
      (lastly false (8 * (off + structSize fields)) (encodePackedFields fields .null
        (fieldValues vs) off (packed (packFields fields)).packedFields))
      (readPackedFields (fieldDecoders rfields) off
        ((packed (packFields fields)).packedFields.filter rd))
      (((packed (packFields fields)).packedFields.filter rd).map (fieldResult fields vs)) := by
  refine sound_lastly_false.mpr (structFields_sound off hmatch hsuits
    fun hm pf hpf hrd ft hft => ?_)
  rw [getElem?_fieldDecoders, (hreads hm).agree pf hpf hrd ft hft]
  rfl

include hpack hsize

/-- A struct as an object. -/
theorem structObject_sound :
    ObjectSound m n
      (tallyFields (fun index => if index = encodedInvalidHandleValue then 0 else 1) (fun _ => 0)
        vs fields)
      (structSize fields + tallyFields (fun _ => 0) id vs fields) (1 + nestingFields 1 vs fields)
      (encodeStructAt fields version .null (fieldValues vs))
      (decodeStruct rfields (fieldDecoders rfields))
      (.struct version (readBack rfields fields rd vs)) := by
  have hobject := structObject_of_fields hpack hreads hsize
    (structFields_lastly hreads hmatch hsuits)
  rwa [aligned_false] at hobject

/-- A struct in place. -/
theorem sound_structInline (off : Nat) :
    Sound m n
      (tallyFields (fun index => if index = encodedInvalidHandleValue then 0 else 1) (fun _ => 0)
        vs fields)
      (tallyFields (fun _ => 0) id vs fields) (1 + nestingFields 1 vs fields)
      (8 * off) (8 * (off + structSize fields))
      (encodeStructAt fields version .null (fieldValues vs) off)
      (decodeStructInline rfields (fieldDecoders rfields) off)
      (.struct version (readBack rfields fields rd vs)) := by
  exact sound_lastly_false.mp (structInline_of_fields hpack hreads hsize
    (structFields_lastly hreads hmatch hsuits) off)

end Struct

/-! ### Reading back -/

section ReadBack

variable {rfields fields : List FieldType} {rd : PackedField → Bool} {vs : List Value}

theorem getElem?_packFields {i : Nat} {ft : FieldType} (h : fields[i]? = some ft) :
    (packFields fields)[i]? = some (ft.toField i) := by
  rw [getElem?_packFieldsFrom, h, Nat.zero_add]
  rfl

/-- A declared field has a packed one that holds its value. -/
theorem packed_holds {i : Nat} {ft : FieldType} (h : fields[i]? = some ft)
    (hbool : ft.ty.isNullableScalar = true → ft.ty.packKind ≠ .bool) :
    ∃ pf ∈ (packed (packFields fields)).packedFields, ¬pf.IsFlag ∧ pf.field.index = i := by
  have hf := getElem?_packFields h
  by_cases hns : ft.ty.isNullableScalar = true
  · obtain ⟨pf, hpf, hfield, -⟩ := packed_value hf hns
    refine ⟨pf, hpf, fun hflag => ?_, by rw [hfield]; rfl⟩
    rw [PackedField.IsFlag, hfield] at hflag
    exact hbool hns hflag.2
  · obtain ⟨pf, hpf, hfield, -⟩ := packed_plain hf (Bool.eq_false_iff.mpr hns)
    refine ⟨pf, hpf, fun hflag => ?_, by rw [hfield]; rfl⟩
    rw [PackedField.IsFlag, hfield] at hflag
    exact hns hflag.1

/-- A nullable scalar has a packed field for its flag. -/
theorem packed_flags {i : Nat} {ft : FieldType} (h : fields[i]? = some ft)
    (hns : ft.ty.isNullableScalar = true) :
    ∃ pf ∈ (packed (packFields fields)).packedFields, pf.IsFlag ∧ pf.field.index = i := by
  obtain ⟨pf, hpf, hfield, -⟩ := packed_flag (getElem?_packFields h) hns
  have hflag : pf.IsFlag := by
    rw [PackedField.IsFlag, hfield]
    exact ⟨hns, rfl⟩
  exact ⟨pf, hpf, hflag, by rw [hfield]; rfl⟩

/-- A field that writer and reader know comes back. -/
theorem readBack_known {n i : Nat} {ft : FieldType} (hr : rfields[i]? = some ft)
    (hft : fields[i]? = some ft)
    (hrd : ∀ pf ∈ (packed (packFields fields)).packedFields, pf.field.index = i → rd pf = true)
    (hsuits : ft.ty.isNullableScalar = true → FieldSuits .exact n ft (vs.getD i .null)) :
    (readBack rfields fields rd vs)[i]? = some (vs.getD i .null) := by
  refine assemble_read hr hft hsuits (fun hbool => ?_) fun hns => ?_
  · obtain ⟨pf, hpf, hnf, hi⟩ := packed_holds hft hbool
    exact ⟨pf, List.mem_filter.mpr ⟨hpf, hrd pf hpf hi⟩, hnf, hi⟩
  · obtain ⟨pf, hpf, hflag, hi⟩ := packed_flags hft hns
    exact ⟨pf, List.mem_filter.mpr ⟨hpf, hrd pf hpf hi⟩, hflag, hi⟩

/-- A field that the writer does not know has its default. -/
theorem readBack_unknown {i : Nat} {ft : FieldType} (hr : rfields[i]? = some ft)
    (hrd : ∀ pf ∈ (packed (packFields fields)).packedFields, rd pf = true → pf.field.index ≠ i) :
    (readBack rfields fields rd vs)[i]? = some (defaultValue ft) :=
  assemble_default hr fun pf hpf => hrd pf (List.mem_filter.mp hpf).1 (List.mem_filter.mp hpf).2

theorem length_readBack : (readBack rfields fields rd vs).length = rfields.length :=
  length_assemble _ _

end ReadBack

/-! ### Reader and writer with one schema -/

section Same

variable {m : Mode} {n : Nat} {fields : List FieldType} {vs : List Value} {version : UInt32}

theorem minVersion_le_maxVersion {i : Nat} {ft : FieldType} (h : fields[i]? = some ft) :
    ft.minVersion.getD 0 ≤ maxVersion fields := by
  induction fields generalizing i with
  | nil => exact nomatch h
  | cons ft' fts ih =>
      cases i with
      | zero =>
          obtain rfl := Option.some.inj h
          exact Nat.le_max_left ..
      | succ i => exact Nat.le_trans (ih h) (Nat.le_max_right ..)

theorem packed_le_maxVersion {pf : PackedField}
    (h : pf ∈ (packed (packFields fields)).packedFields) : pf.minVersion ≤ maxVersion fields := by
  obtain ⟨ft, hft, hmv, -⟩ := packed_info h
  rw [hmv]
  exact minVersion_le_maxVersion hft

/-- From the last version on, a struct has its full size. -/
theorem numBytesForVersion_full (hpack : Packable (packFields fields)) {v : Nat}
    (hv : maxVersion fields ≤ v) :
    (packed (packFields fields)).numBytesForVersion v = some (structSize fields) :=
  numBytesForVersion_eq hpack (sizeFor_sizeOfPacked (packed_laidOut _) fun _ hpf =>
    Nat.le_trans (packed_le_maxVersion hpf) hv)

theorem checkStructSize_full
    (h : maxVersion fields < version.toNat ∨
      (packed (packFields fields)).numBytesForVersion version.toNat = some (structSize fields)) :
    checkStructSize fields (packed (packFields fields)) (structSize fields) version.toNat =
      .ok () := by
  rw [checkStructSize]
  split
  · rename_i hle
    rw [h.resolve_left (Nat.not_lt.mpr hle)]
    exact if_neg fun hne => hne rfl
  · exact if_neg (Nat.lt_irrefl _)

theorem readsFrom_self (h : StructSuits m fields version vs.length) (hm : m ≠ .skipped) :
    ReadsFrom fields fields version (inVersion (structSize fields) version.toNat) where
  packable := h.1
  size := by
    refine checkStructSize_full ?_
    cases m with
    | skipped => exact absurd rfl hm
    | accepted => exact h.2
    | exact => exact .inr (numBytesForVersion_full h.1 h.2.1)
  common := rfl
  agree _ _ _ _ hft := hft

/-- The fields suit as far as the version has them. -/
theorem fieldSuits_of_suitsFields (h : SuitsFields vs m n version fields) :
    FieldsSuit m n (inVersion (structSize fields) version.toNat) fields vs := by
  intro pf hpf ft hft
  obtain ⟨ft', hft', hmv, -⟩ := packed_info hpf
  obtain rfl := Option.some.inj (hft.symm.trans hft')
  refine ⟨m.atField version ft, h.get hft, fun hrd => ?_⟩
  exact if_pos (hmv ▸ (of_decide_eq_true hrd).1)

/-- The fields of an exact struct are exact. -/
theorem fieldSuits_exact (h : StructSuits .exact fields version vs.length)
    (hsuits : SuitsFields vs .exact n version fields) {i : Nat} {ft : FieldType}
    (hft : fields[i]? = some ft) : FieldSuits .exact n ft (vs.getD i .null) := by
  have hmode : Mode.exact.atField version ft = .exact :=
    if_pos (Nat.le_trans (minVersion_le_maxVersion hft) h.2.1)
  exact hmode ▸ hsuits.get hft

/-- An exact struct comes back. -/
theorem readBack_self (h : StructSuits .exact fields version vs.length)
    (hsuits : ∀ i ft, fields[i]? = some ft → ft.ty.isNullableScalar = true →
      FieldSuits .exact n ft (vs.getD i .null)) :
    readBack fields fields (inVersion (structSize fields) version.toNat) vs = vs := by
  obtain ⟨-, hver, hlen, -⟩ := h
  refine List.ext_getElem? fun i => ?_
  by_cases hi : i < fields.length
  · have hft : fields[i]? = some fields[i] := List.getElem?_eq_getElem hi
    rw [readBack_known hft hft (fun pf hpf _ => ?_) (hsuits i _ hft),
      List.getElem?_eq_getElem (hlen ▸ hi), List.getD_eq_getElem _ _ (hlen ▸ hi)]
    exact decide_eq_true ⟨Nat.le_trans (packed_le_maxVersion hpf) hver, packed_fits hpf⟩
  · rw [List.getElem?_eq_none (by rw [length_readBack]; omega),
      List.getElem?_eq_none (by omega)]

end Same

end MojoRs.Wire
