/-
MojoRs/Wire/Evolution.lean

Schema evolution.  A struct is extended by fields of later versions.  Packing
puts the old fields where they were, a reader of the old schema returns the old
fields of a new value, and a reader of the new schema returns an old value with
the defaults of the new fields.

Main results:
* `packed_extends` — the old fields stay where they are;
* `evolution` — both directions, over whole messages.
-/
import MojoRs.Wire.EncoderSoundness

namespace MojoRs.Wire

open Lib

/-- The fields `gs` extend the struct `os`: their versions are later than those
of `os` and do not decrease, and references among them are nullable. -/
structure Extends (os gs : List FieldType) : Prop where
  later : ∀ ft ∈ gs, maxVersion os < ft.minVersion.getD 0
  sorted : gs.Pairwise fun a b => a.minVersion.getD 0 ≤ b.minVersion.getD 0
  nullable : ∀ ft ∈ gs, ft.ty.packKind.isReference = true → ft.ty.isNullable = true

section Layout

variable {os gs : List FieldType}

theorem mem_srcFields_packFields {i o : Nat} {fs : List FieldType} {pf : PackedField}
    (h : pf ∈ srcFields o (packFieldsFrom i fs)) :
    ∃ ft ∈ fs, pf.field.version = ft.minVersion.getD 0 ∧
      (pf.field.kind = .bool ∨ pf.field.kind = ft.ty.packKind) ∧
      pf.field.nullableReference = ft.ty.isNullable := by
  obtain ⟨k, f, hf, -, hexp⟩ := mem_srcFields h
  rw [getElem?_packFieldsFrom, Option.map_eq_some_iff] at hf
  obtain ⟨ft, hft, rfl⟩ := hf
  refine ⟨ft, List.mem_of_getElem? hft, (mem_expand hexp).2.2, ?_⟩
  unfold expand at hexp
  split at hexp
  · rw [List.mem_pair] at hexp
    rcases hexp with rfl | rfl
    · exact ⟨.inl rfl, rfl⟩
    · exact ⟨.inr rfl, rfl⟩
  · obtain rfl := List.mem_singleton.mp hexp
    exact ⟨.inr rfl, rfl⟩

theorem srcFields_pairwise {i o : Nat} {fs : List FieldType}
    (h : fs.Pairwise fun a b => a.minVersion.getD 0 ≤ b.minVersion.getD 0) :
    (srcFields o (packFieldsFrom i fs)).Pairwise fun a b => a.field.version ≤ b.field.version := by
  induction fs generalizing i o with
  | nil => exact List.Pairwise.nil
  | cons ft fts ih =>
      rw [List.pairwise_cons] at h
      rw [packFieldsFrom, srcFields_cons, List.pairwise_append]
      refine ⟨?_, ih h.2, fun a ha b hb => ?_⟩
      · -- a field has one version
        refine List.pairwise_of_forall_sublist fun hsub => ?_
        have ha := hsub.subset List.mem_cons_self
        have hb := hsub.subset (List.mem_cons_of_mem _ List.mem_cons_self)
        rw [(mem_expand ha).2.2, (mem_expand hb).2.2]
      · obtain ⟨ft', hft', hver, -⟩ := mem_srcFields_packFields hb
        rw [(mem_expand ha).2.2, hver]
        exact h.1 ft' hft'

/-- An extension of a struct that can be packed can be packed. -/
theorem Extends.packable (h : Extends os gs) (hpack : Packable (packFields os)) :
    Packable (packFields (os ++ gs)) := by
  unfold Packable packFields at *
  rw [packFieldsFrom_append, srcFields_append]
  have hold : ∀ pf ∈ srcFields 0 (packFieldsFrom 0 os), pf.field.version ≤ maxVersion os := by
    intro pf hpf
    obtain ⟨ft, hft, hver, -⟩ := mem_srcFields_packFields hpf
    obtain ⟨i, hi⟩ := List.mem_iff_getElem?.mp hft
    rw [hver]
    exact minVersion_le_maxVersion hi
  refine ⟨fun _ _ => Nat.zero_le _, ?_, fun pf hpf hne => ?_⟩
  · rw [List.pairwise_append]
    refine ⟨hpack.sorted, srcFields_pairwise h.sorted, fun a ha b hb => ?_⟩
    obtain ⟨ft, hft, hver, -⟩ := mem_srcFields_packFields hb
    rw [hver]
    exact Nat.le_trans (hold a ha) (Nat.le_of_lt (h.later ft hft))
  · rcases List.mem_append.mp hpf with hpf | hpf
    · exact hpack.nullable pf hpf hne
    · obtain ⟨ft, hft, -, hkind, hnull⟩ := mem_srcFields_packFields hpf
      rw [Field.isNonnullableReference, hnull]
      rcases hkind with hkind | hkind
      · rw [hkind]
        rfl
      · rw [hkind]
        cases href : ft.ty.packKind.isReference with
        | false => rfl
        | true => rw [h.nullable ft hft href]; rfl

theorem index_packFields {i : Nat} {fs : List FieldType} {f : Field}
    (h : f ∈ packFieldsFrom i fs) : i ≤ f.index ∧ f.index < i + fs.length := by
  obtain ⟨k, hk⟩ := List.mem_iff_getElem?.mp h
  rw [getElem?_packFieldsFrom, Option.map_eq_some_iff] at hk
  obtain ⟨ft, hft, rfl⟩ := hk
  have hlt := (List.getElem?_eq_some_iff.mp hft).1
  exact ⟨Nat.le_add_right _ _, Nat.add_lt_add_left hlt i⟩

/-- Packing puts the old fields where they were, and in the same order. -/
theorem packed_extends (os gs : List FieldType) :
    (packed (packFields (os ++ gs))).packedFields.filter (·.field.index < os.length) =
      (packed (packFields os)).packedFields := by
  rw [packFields, packFieldsFrom_append]
  refine packed_append (fun f hf => ?_) fun f hf => ?_
  · have := (index_packFields hf).2
    omega
  · have := (index_packFields hf).1
    omega

theorem mem_packed_old {os : List FieldType} (gs : List FieldType) {pf : PackedField} :
    pf ∈ (packed (packFields os)).packedFields ↔
      pf ∈ (packed (packFields (os ++ gs))).packedFields ∧ pf.field.index < os.length := by
  rw [← packed_extends os gs, List.mem_filter, decide_eq_true_eq]

theorem structSize_le_extends (os gs : List FieldType) :
    structSize os ≤ structSize (os ++ gs) := by
  have hsize : SizeFor (maxVersion os) (packed (packFields os)).packedFields (structSize os) :=
    sizeFor_sizeOfPacked (packed_laidOut _) fun _ hpf => packed_le_maxVersion hpf
  rcases hsize.attained with hatt | ⟨pf, hpf, -, hatt⟩
  · rw [hatt]
    exact structHeaderSize_le _
  · rw [hatt]
    exact le_sizeOfPacked (packed_laidOut _) ((mem_packed_old gs).mp hpf).1

/-- A field that is not old is new. -/
theorem minVersion_new {pf : PackedField}
    (hpf : pf ∈ (packed (packFields (os ++ gs))).packedFields)
    (hnew : ¬pf.field.index < os.length) : ∃ ft ∈ gs, pf.minVersion = ft.minVersion.getD 0 := by
  obtain ⟨ft, hft, hmv, -⟩ := packed_info hpf
  rw [List.getElem?_append_right (Nat.not_lt.mp hnew)] at hft
  exact ⟨ft, List.mem_of_getElem? hft, hmv⟩

theorem maxVersion_append (os gs : List FieldType) :
    maxVersion (os ++ gs) = max (maxVersion os) (maxVersion gs) := by
  induction os with
  | nil => exact (Nat.max_eq_right (Nat.zero_le _)).symm
  | cons ft fts ih =>
      show max _ (maxVersion (fts ++ gs)) = max (max _ (maxVersion fts)) _
      rw [ih, Nat.max_assoc]

end Layout

/-! ### An old reader -/

section OldReader

variable {os gs : List FieldType} {version : UInt32} (h : Extends os gs)
  (hpack : Packable (packFields os)) (hver : maxVersion (os ++ gs) ≤ version.toNat)
include h hpack hver

theorem readsFrom_new :
    ReadsFrom os (os ++ gs) version (·.field.index < os.length) where
  packable := hpack
  size := by
    have hmax := maxVersion_append os gs
    cases gs with
    | nil =>
        rw [List.append_nil] at hver ⊢
        exact checkStructSize_full (.inr (numBytesForVersion_full hpack hver))
    | cons ft fts =>
        have hft := h.later ft List.mem_cons_self
        have hle : ft.minVersion.getD 0 ≤ maxVersion (ft :: fts) := Nat.le_max_left ..
        rw [checkStructSize, if_neg (by omega)]
        exact if_neg (Nat.not_lt.mpr (structSize_le_extends os _))
  common := by
    rw [packed_extends]
    refine List.filter_eq_self.mpr fun pf hpf => ?_
    have hmax := maxVersion_append os gs
    have hfits := packed_fits ((mem_packed_old gs).mp hpf).1
    exact decide_eq_true ⟨Nat.le_trans (packed_le_maxVersion hpf) (by omega), hfits⟩
  agree := by
    intro pf _ hrd ft hft
    rw [List.getElem?_append_left (of_decide_eq_true hrd)] at hft
    exact hft

end OldReader

/-! ### A new reader -/

/-- Of the new layout, an old version has the old fields. -/
theorem old_iff_minVersion_le {os gs : List FieldType} {version : UInt32}
    (hold : maxVersion os ≤ version.toNat)
    (hnew : ∀ ft ∈ gs, version.toNat < ft.minVersion.getD 0) {pf : PackedField}
    (hpf : pf ∈ (packed (packFields (os ++ gs))).packedFields) :
    pf.field.index < os.length ↔ pf.minVersion ≤ version.toNat := by
  constructor
  · intro hlt
    exact Nat.le_trans (packed_le_maxVersion ((mem_packed_old gs).mpr ⟨hpf, hlt⟩)) hold
  · intro hle
    by_contra hnot
    obtain ⟨ft, hft, hmv⟩ := minVersion_new hpf hnot
    have := hnew ft hft
    omega

section NewReader

variable {os gs : List FieldType} {version : UInt32} (h : Extends os gs)
  (hpack : Packable (packFields os)) (hold : maxVersion os ≤ version.toNat)
  (hnew : ∀ ft ∈ gs, version.toNat < ft.minVersion.getD 0)
include h hpack hold hnew

theorem numBytesForVersion_old :
    (packed (packFields (os ++ gs))).numBytesForVersion version.toNat = some (structSize os) := by
  refine numBytesForVersion_eq (h.packable hpack) ⟨fun pf hpf hv => ?_, ?_⟩
  · have hlt := (old_iff_minVersion_le hold hnew hpf).mpr hv
    exact le_sizeOfPacked (packed_laidOut _) ((mem_packed_old gs).mpr ⟨hpf, hlt⟩)
  · have hsize : SizeFor version.toNat (packed (packFields os)).packedFields (structSize os) :=
      sizeFor_sizeOfPacked (packed_laidOut _) fun _ hpf =>
        Nat.le_trans (packed_le_maxVersion hpf) hold
    rcases hsize.attained with hatt | ⟨pf, hpf, hv, hatt⟩
    · exact .inl hatt
    · exact .inr ⟨pf, ((mem_packed_old gs).mp hpf).1, hv, hatt⟩

theorem readsFrom_old : ReadsFrom (os ++ gs) os version (fun _ => true) where
  packable := h.packable hpack
  size := by
    have hfull := numBytesForVersion_old h hpack hold hnew
    rw [checkStructSize]
    split
    · rw [hfull]
      exact if_neg fun hne => hne rfl
    · -- there is no new field
      rename_i hlt
      cases gs with
      | nil =>
          rw [List.append_nil]
          exact if_neg (Nat.lt_irrefl _)
      | cons ft fts =>
          have hft := hnew ft List.mem_cons_self
          have hle : ft.minVersion.getD 0 ≤ maxVersion (ft :: fts) := Nat.le_max_left ..
          have hmax := maxVersion_append os (ft :: fts)
          omega
  common := by
    rw [List.filter_true, ← packed_extends os gs]
    refine List.filter_congr fun pf hpf => ?_
    have hiff := old_iff_minVersion_le hold hnew hpf
    rw [inVersion, decide_eq_decide]
    constructor
    · exact fun hand => hiff.mpr hand.1
    · exact fun hlt => ⟨hiff.mp hlt, packed_fits ((mem_packed_old gs).mpr ⟨hpf, hlt⟩)⟩
  agree := by
    intro pf _ _ ft hft
    rw [List.getElem?_append_left (List.getElem?_eq_some_iff.mp hft).1]
    exact hft

end NewReader

/-! ### Values -/

section Values

variable {os gs : List FieldType} {version : UInt32} {n : Nat} {vs : List Value}

/-- An old reader returns the old fields. -/
theorem readBack_new (hstruct : StructSuits .exact (os ++ gs) version vs.length)
    (hfields : SuitsFields vs .exact n version (os ++ gs)) :
    readBack os (os ++ gs) (·.field.index < os.length) vs = vs.take os.length := by
  obtain ⟨-, hver, hlen, -⟩ := hstruct
  rw [List.length_append] at hlen
  refine List.ext_getElem? fun i => ?_
  by_cases hi : i < os.length
  · have hr : os[i]? = some os[i] := List.getElem?_eq_getElem hi
    have hft : (os ++ gs)[i]? = some os[i] := by rw [List.getElem?_append_left hi, hr]
    have hmode : Mode.exact.atField version os[i] = .exact :=
      if_pos (Nat.le_trans (minVersion_le_maxVersion hft) hver)
    rw [readBack_known hr hft (fun pf _ heq => decide_eq_true (heq ▸ hi))
      (fun _ => hmode ▸ hfields.get hft), List.getElem?_take_of_lt hi,
      List.getD_eq_getElem _ _ (by omega), List.getElem?_eq_getElem (by omega)]
  · rw [List.getElem?_eq_none (by rw [length_readBack]; omega),
      List.getElem?_eq_none (by rw [List.length_take]; omega)]

/-- A new reader returns the old fields and the defaults of the new ones. -/
theorem readBack_old (hstruct : StructSuits .exact os version vs.length)
    (hfields : SuitsFields vs .exact n version os) :
    readBack (os ++ gs) os (fun _ => true) vs = vs ++ gs.map defaultValue := by
  obtain ⟨-, hver, hlen, -⟩ := hstruct
  refine List.ext_getElem? fun i => ?_
  by_cases hi : i < os.length
  · have hft : os[i]? = some os[i] := List.getElem?_eq_getElem hi
    have hr : (os ++ gs)[i]? = some os[i] := by rw [List.getElem?_append_left hi, hft]
    have hmode : Mode.exact.atField version os[i] = .exact :=
      if_pos (Nat.le_trans (minVersion_le_maxVersion hft) hver)
    rw [readBack_known hr hft (fun _ _ _ => rfl) (fun _ => hmode ▸ hfields.get hft),
      List.getElem?_append_left (hlen ▸ hi), List.getD_eq_getElem _ _ (hlen ▸ hi),
      List.getElem?_eq_getElem (hlen ▸ hi)]
  · by_cases hi' : i < (os ++ gs).length
    · have hr : (os ++ gs)[i]? = some (os ++ gs)[i] := List.getElem?_eq_getElem hi'
      rw [readBack_unknown hr, List.getElem?_append_right (by omega), List.getElem?_map, hlen,
        ← List.getElem?_append_right (by omega), hr]
      · rfl
      · intro pf hpf _ heq
        obtain ⟨ft, hft, -⟩ := packed_info hpf
        exact hi (heq ▸ (List.getElem?_eq_some_iff.mp hft).1)
    · rw [List.length_append] at hi'
      rw [List.getElem?_eq_none (by rw [length_readBack, List.length_append]; omega),
        List.getElem?_eq_none (by rw [List.length_append, List.length_map]; omega)]

end Values

/-! ### Messages -/

section Messages

variable {os gs : List FieldType} {version sv rsv : UInt32} {nullable rnullable : Bool} {n : Nat}
  {vs : List Value} {limits : ValidationLimits} {h : MessageHeader} {header : List UInt8}

/-- A struct that an exact reader of another schema understands, as a message. -/
theorem validate_readBack {fields rfields : List FieldType} {rd : PackedField → Bool}
    (hreads : ReadsFrom rfields fields version rd)
    (hstruct : StructSuits .exact fields version vs.length)
    (hfields : SuitsFields vs .exact n version fields) (hs : h.serialize = .ok header)
    (hver : h.version.toNat ≤ 3) (hflags : h.FlagsOk)
    (hencode : nestingFields 0 vs fields ≤ maxEncodeDepth)
    (hdepth : 1 + nestingFields 1 vs fields ≤ limits.maxRecursionDepth)
    (hsize : header.length + (structSize fields + tallyFields (fun _ => 0) id vs fields) ≤
      limits.maxMessageSize) (hlimit : limits.maxMessageSize < usizeLimit) :
    ∃ msg r, encodeMessage header (.struct fields sv nullable) (.struct version vs) = .ok msg ∧
      validateMessage msg.bytes n (.struct rfields rsv rnullable) limits = .ok r ∧
      r.payload = .struct version (readBack rfields fields rd vs) := by
  obtain ⟨msg, henc⟩ := encodeMessage_ok hs hstruct hfields hencode (by omega)
  have hO := structObject_sound hstruct.1 (fun _ => hreads) (fun _ => hstruct.2.2.2)
    (fun i => ⟨(matches_all (vs.getD i .null)).1, fun w _ => (matches_all w).1⟩)
    fun pf _ ft hft => ⟨_, hfields.get hft, fun _ =>
      if_pos (Nat.le_trans (minVersion_le_maxVersion hft) hstruct.2.1)⟩
  obtain ⟨-, hlen⟩ := encodeMessage_size (hO.aligned true) hs henc
  obtain ⟨r, hr, hpayload, -⟩ := validate_encoded (hO.aligned true) (by decide)
    (Nat.le_trans (structHeaderSize_le _) (Nat.le_add_right _ _)) hs hver hflags henc (.inl rfl)
    (by omega) (by omega) hdepth
  exact ⟨msg, r, henc, hr, hpayload rfl⟩

/-- An extended struct keeps its layout, and the readers of the two schemas
understand the writers of the other. -/
theorem evolution (hext : Extends os gs) (hpack : Packable (packFields os))
    (hs : h.serialize = .ok header) (hver : h.version.toNat ≤ 3) (hflags : h.FlagsOk)
    (hlimit : limits.maxMessageSize < usizeLimit) :
    (∃ po pn, PackedStruct.pack (packFields os) = .ok po ∧
      PackedStruct.pack (packFields (os ++ gs)) = .ok pn ∧
      pn.packedFields.filter (·.field.index < os.length) = po.packedFields) ∧
    (∀ version vs, PayloadSuits .exact n (.struct (os ++ gs) sv nullable) (.struct version vs) →
      payloadNesting 0 (.struct (os ++ gs) sv nullable) (.struct version vs) ≤ maxEncodeDepth →
      payloadNesting 1 (.struct (os ++ gs) sv nullable) (.struct version vs) ≤
        limits.maxRecursionDepth →
      header.length + payloadSize (.struct (os ++ gs) sv nullable) (.struct version vs) ≤
        limits.maxMessageSize →
      ∃ msg r, encodeMessage header (.struct (os ++ gs) sv nullable) (.struct version vs) = .ok msg ∧
        validateMessage msg.bytes n (.struct os rsv rnullable) limits = .ok r ∧
        r.payload = .struct version (vs.take os.length)) ∧
    ∀ version vs, (∀ ft ∈ gs, version.toNat < ft.minVersion.getD 0) →
      PayloadSuits .exact n (.struct os rsv rnullable) (.struct version vs) →
      payloadNesting 0 (.struct os rsv rnullable) (.struct version vs) ≤ maxEncodeDepth →
      payloadNesting 1 (.struct os rsv rnullable) (.struct version vs) ≤
        limits.maxRecursionDepth →
      header.length + payloadSize (.struct os rsv rnullable) (.struct version vs) ≤
        limits.maxMessageSize →
      ∃ msg r, encodeMessage header (.struct os rsv rnullable) (.struct version vs) = .ok msg ∧
        validateMessage msg.bytes n (.struct (os ++ gs) sv nullable) limits = .ok r ∧
        r.payload = .struct version (vs ++ gs.map defaultValue) := by
  refine ⟨⟨_, _, pack_ok hpack, pack_ok (hext.packable hpack), packed_extends os gs⟩, ?_, ?_⟩
  · intro version vs hvalue hencode hdepth hsize
    obtain ⟨hstruct, hfields⟩ := hvalue
    have hreads := readsFrom_new hext hpack hstruct.2.1
    rw [payloadNesting, Nat.zero_add] at hencode
    obtain ⟨msg, r, henc, hr, hpayload⟩ :=
      validate_readBack hreads hstruct hfields hs hver hflags hencode hdepth hsize hlimit
    exact ⟨msg, r, henc, hr, by rw [hpayload, readBack_new hstruct hfields]⟩
  · intro version vs hnew hvalue hencode hdepth hsize
    obtain ⟨hstruct, hfields⟩ := hvalue
    have hreads := readsFrom_old hext hpack hstruct.2.1 hnew
    rw [payloadNesting, Nat.zero_add] at hencode
    obtain ⟨msg, r, henc, hr, hpayload⟩ :=
      validate_readBack hreads hstruct hfields hs hver hflags hencode hdepth hsize hlimit
    exact ⟨msg, r, henc, hr, by rw [hpayload, readBack_old hstruct hfields]⟩

end Messages

/-- A byte, extended by a flag that drops into the hole behind it and a string. -/
def oldFields : List FieldType := [⟨.u8, none⟩]

/-- What the extension adds. -/
def newFields : List FieldType := [⟨.bool, some 1⟩, ⟨.string true, some 2⟩]

theorem evolution_flag_and_string :
    ∃ header msg r msg' r', plainHeader.serialize = .ok header ∧
      encodeMessage header (.struct (oldFields ++ newFields) 2 false)
        (.struct 2 [.u8 7, .bool true, .null]) = .ok msg ∧
      validateMessage msg.bytes 0 (.struct oldFields 0 false) {} = .ok r ∧
      r.payload = .struct 2 [.u8 7] ∧
      encodeMessage header (.struct oldFields 0 false) (.struct 0 [.u8 7]) = .ok msg' ∧
      validateMessage msg'.bytes 0 (.struct (oldFields ++ newFields) 2 false) {} = .ok r' ∧
      r'.payload = .struct 0 [.u8 7, .bool false, .null] := by
  have hs : plainHeader.serialize = .ok plainHeaderBytes := rfl
  have hext : Extends oldFields newFields := ⟨by decide, by decide, by decide⟩
  have hpack : Packable (packFields oldFields) := pack_ok_iff.mp ⟨_, rfl⟩
  obtain ⟨-, hold, hnew⟩ := @evolution oldFields newFields 2 0 false false 0 {} plainHeader
    plainHeaderBytes hext hpack hs (by decide) (by decide) (by decide)
  obtain ⟨msg, r, henc, hr, hpayload⟩ := hold 2 [.u8 7, .bool true, .null]
    ⟨⟨hext.packable hpack, by decide, rfl, by decide⟩, ⟨rfl, fun _ => trivial⟩, trivial, rfl,
      fun _ hft => nomatch hft⟩ (by decide) (by decide) (by decide)
  obtain ⟨msg', r', henc', hr', hpayload'⟩ := hnew 0 [.u8 7] (by decide)
    ⟨⟨hpack, by decide, rfl, by decide⟩, ⟨rfl, fun _ => trivial⟩, fun _ hft => nomatch hft⟩
    (by decide) (by decide) (by decide)
  exact ⟨_, msg, r, msg', r', hs, henc, hr, hpayload, henc', hr', hpayload'⟩

/-- A struct whose first field is of a later version than its second. -/
def unsortedFields : List FieldType := [⟨.u8, some 1⟩, ⟨.u8, none⟩]

/-- No extension of it can be packed.  And a struct without fields has no version of
its own: a field of version 0 extends it, but its values lack that field. -/
theorem evolution_fails :
    (Extends unsortedFields [⟨.u8, some 2⟩] ∧
      PackedStruct.pack (packFields unsortedFields) =
        .error (.encode (.unsupported "field without min_version after versioned field")) ∧
      PackedStruct.pack (packFields (unsortedFields ++ [⟨.u8, some 2⟩])) =
        .error (.encode (.unsupported "field without min_version after versioned field"))) ∧
    plainHeader.serialize = .ok plainHeaderBytes ∧
      encodeMessage plainHeaderBytes (.struct [] 0 false) (.struct 0 []) =
        .ok ⟨plainHeaderBytes ++ [8, 0, 0, 0, 0, 0, 0, 0], 0⟩ ∧
      validateMessage (plainHeaderBytes ++ [8, 0, 0, 0, 0, 0, 0, 0]) 0
        (.struct [⟨.u8, some 0⟩] 0 false) {} = .error (.validation .unexpectedStructHeader) :=
  ⟨⟨⟨by decide, by decide, by decide⟩, rfl, rfl⟩, rfl, rfl, rfl⟩

end MojoRs.Wire
