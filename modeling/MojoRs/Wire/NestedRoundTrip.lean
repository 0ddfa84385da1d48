/-
MojoRs/Wire/NestedRoundTrip.lean

The round trip of messages with structs in place.  The slot of a struct that
cannot be null holds the header of the struct only; its fields overhang the
slot.  A payload comes back if they overhang nothing but the end of the buffer
(`Sits`), and then encoding a field leaves the others as they are, in every
struct of the payload.

Main result: `nested_structs_return`.
-/
import MojoRs.Wire.InPlaceProgress
import MojoRs.Wire.ScalarRoundTrip

namespace MojoRs.Wire

open Lib

/-! ### Structs inside a value -/

/-- A struct with its fields, anywhere inside a value of a type. -/
inductive StructIn (fields : List FieldType) (vs : List Value) : Ty → Value → Prop
  | here {sv version : UInt32} {nullable : Bool} :
      StructIn fields vs (.struct fields sv nullable) (.struct version vs)
  | field {fs : List FieldType} {sv version : UInt32} {nullable : Bool} {ws : List Value} {i : Nat}
      {ft : FieldType} (hft : fs[i]? = some ft)
      (inside : StructIn fields vs ft.ty (ws.getD i .null)) :
      StructIn fields vs (.struct fs sv nullable) (.struct version ws)
  | item {element : Ty} {nullable : Bool} {items : List Value} {w : Value} (hw : w ∈ items)
      (inside : StructIn fields vs element w) :
      StructIn fields vs (.array element nullable) (.array items)
  | key {key value : Ty} {nullable : Bool} {keys values : List Value} {w : Value} (hw : w ∈ keys)
      (inside : StructIn fields vs key w) :
      StructIn fields vs (.map key value nullable) (.map keys values)
  | value {key value : Ty} {nullable : Bool} {keys values : List Value} {w : Value}
      (hw : w ∈ values) (inside : StructIn fields vs value w) :
      StructIn fields vs (.map key value nullable) (.map keys values)
  | member {members : List Ty} {nullable inlined : Bool} {tag : UInt32} {member : Ty}
      {value : Value} (hmember : members[tag.toNat]? = some member)
      (inside : StructIn fields vs member value) :
      StructIn fields vs (.union members nullable inlined) (.union tag value)

theorem StructIn.not_scalar {fields : List FieldType} {vs : List Value} {ty : Ty} {v : Value}
    (h : StructIn fields vs ty v) : ty.isNullableScalar = false := by
  cases h <;> rfl

/-- A struct of plain values without objects, and one more value that ends it. -/
theorem SitsStruct.last {n : Nat} (fts : List FieldType) {ft : FieldType} {version : UInt32}
    (vs : List Value) {v : Value} {g : Nat}
    (hstruct : StructSuits .exact (fts ++ [ft]) version (vs ++ [v]).length)
    (hplain : List.Forall₂ (fun ft v => FieldSuits .exact n ft v ∧
      fieldTally (fun _ => 0) id ft v = 0) fts vs)
    (hns : ft.ty.isNullableScalar = false) (hv : Sits n true false ft.ty v g)
    (hends : ∀ pf ∈ (packed (packFields (fts ++ [ft]))).packedFields,
      pf.field.index = fts.length →
        Ends (fts ++ [ft]) (fun i => if i = fts.length then g else 0) pf) :
    SitsStruct n (fts ++ [ft]) version (vs ++ [v]) g := by
  have hft : (fts ++ [ft])[fts.length]? = some ft := List.getElem?_concat_length
  have hget : (vs ++ [v]).getD fts.length .null = v := by
    rw [hplain.length_eq, List.getD_eq_getElem?_getD, List.getElem?_concat_length]
    rfl
  -- the other fields
  have hother : ∀ i ft', (fts ++ [ft])[i]? = some ft' → i ≠ fts.length →
      FieldSuits .exact n ft' ((vs ++ [v]).getD i .null) ∧
        fieldTally (fun _ => 0) id ft' ((vs ++ [v]).getD i .null) = 0 := by
    intro i ft' hft' hi
    have hlt := (List.getElem?_eq_some_iff.mp hft').1
    rw [List.length_append, List.length_singleton] at hlt
    have hlt' : i < fts.length := by omega
    have hlen := hplain.length_eq
    rw [List.getElem?_append_left hlt', List.getElem?_eq_getElem hlt'] at hft'
    obtain rfl := Option.some.inj hft'
    have hvi : (vs ++ [v]).getD i .null = vs.get ⟨i, by omega⟩ := by
      rw [List.getD_eq_getElem?_getD, List.getElem?_append_left (by omega),
        List.getElem?_eq_getElem (by omega)]
      rfl
    rw [hvi]
    exact (List.forall₂_iff_get.mp hplain).2 i hlt' (by omega)
  -- the field that ends the struct has all the bytes behind it
  obtain ⟨last, hmem, hpos, -⟩ := packed_plain (getElem?_packFields hft) hns
  have hindex : last.field.index = fts.length := by
    rw [hpos]
    rfl
  obtain ⟨pre, hsplit, -, hsum⟩ := (hends last hmem hindex).split hmem
  have hflag : ¬last.IsFlag :=
    notFlag_plain hmem (hindex ▸ hft) (Bool.eq_false_iff.mp hns)
  have hg : g = ((packed (packFields (fts ++ [ft]))).packedFields.map
      (·.weight fun i => if i = fts.length then g else 0)).sum := by
    rw [hsplit, hsum, PackedField.weight, if_neg hflag, if_pos hindex]
  rw [hg]
  refine .mk _ hstruct (fun i ft' hft' hns' => ?_) fun pf hpf ft' hft' hns' => ?_
  · have hi : i ≠ fts.length := by
      rintro rfl
      rw [hft] at hft'
      obtain rfl := Option.some.inj hft'
      rw [hns] at hns'
      cases hns'
    rw [if_neg hi]
    exact ⟨(hother i ft' hft' hi).1, (hother i ft' hft' hi).2.symm⟩
  · by_cases hi : pf.field.index = fts.length
    · rw [hi, hft] at hft'
      obtain rfl := Option.some.inj hft'
      rw [decide_eq_true (hends pf hpf hi), hi, hget, if_pos rfl]
      exact hv
    · obtain ⟨hsuit, hzero⟩ := hother _ ft' hft' hi
      have hns'' : ¬ft'.ty.isNullableScalar = true := Bool.eq_false_iff.mp hns'
      rw [fieldSuits_plain hns''] at hsuit
      rw [fieldTally_plain hns''] at hzero
      rw [if_neg hi, ← hzero]
      exact .plain hsuit

section Inversion

variable {n : Nat}

/-- A struct that suits its fields sits. -/
theorem sitsStruct_of_suits {fields : List FieldType} {version : UInt32} {vs : List Value}
    (hstruct : StructSuits .exact fields version vs.length)
    (hfields : SuitsFields vs .exact n version fields) :
    ∃ g, SitsStruct n fields version vs g := by
  refine ⟨_, .mk (fun i => (fields[i]?).elim 0 fun ft =>
    fieldTally (fun _ => 0) id ft (vs.getD i .null)) hstruct (fun i ft hft _ => ?_)
    fun pf _ ft hft hns => ?_⟩
  · exact ⟨fieldSuits_exact hstruct hfields hft, by rw [hft]; rfl⟩
  · have hsuit := fieldSuits_exact hstruct hfields hft
    have hns' : ¬ft.ty.isNullableScalar = true := Bool.eq_false_iff.mp hns
    rw [fieldSuits_plain hns'] at hsuit
    rw [hft, Option.elim_some, fieldTally_plain hns']
    exact .plain hsuit

theorem Sits.inside_struct {tail payload nullable : Bool} {fields : List FieldType} {sv version : UInt32}
    {vs : List Value} {g : Nat}
    (h : Sits n tail payload (.struct fields sv nullable) (.struct version vs) g) :
    ∃ g', SitsStruct n fields version vs g' := by
  cases h with
  | plain hs => exact sitsStruct_of_suits hs.2.1 hs.2.2
  | pointer hstruct => exact ⟨_, hstruct⟩
  | inPlace hstruct => exact ⟨_, hstruct⟩

theorem Sits.inside_array {tail payload nullable : Bool} {element : Ty} {items : List Value} {g : Nat}
    (h : Sits n tail payload (.array element nullable) (.array items) g) :
    ∀ w ∈ items, ∃ g', SitsItem n element w g' := by
  cases h with
  | plain hs => exact fun w hw => ⟨_, .plain (suitsItems_iff.mp hs.2 w hw)⟩
  | array hsize hitems => exact fun w hw => ⟨_, hitems w hw⟩

theorem Sits.inside_map {tail payload nullable : Bool} {key value : Ty} {keys values : List Value}
    {g : Nat} (h : Sits n tail payload (.map key value nullable) (.map keys values) g) :
    (∀ w ∈ keys, ∃ g', SitsItem n key w g') ∧ ∀ w ∈ values, ∃ g', SitsItem n value w g' := by
  cases h with
  | plain hs => exact ⟨fun w hw => ⟨_, .plain (suitsItems_iff.mp hs.2.2.1 w hw)⟩,
      fun w hw => ⟨_, .plain (suitsItems_iff.mp hs.2.2.2 w hw)⟩⟩
  | map hsize hcount hkeys hvalues =>
      exact ⟨fun w hw => ⟨_, hkeys w hw⟩, fun w hw => ⟨_, hvalues w hw⟩⟩

theorem Sits.inside_union {tail payload nullable inlined : Bool} {members : List Ty} {tag : UInt32}
    {member : Ty} {value : Value} {g : Nat} (hmember : members[tag.toNat]? = some member)
    (h : Sits n tail payload (.union members nullable inlined) (.union tag value) g) :
    ∃ tail' g', Sits n tail' true member value g' := by
  cases h with
  | plain hs =>
      simp only [Suits, hmember] at hs
      exact ⟨tail, _, .plain hs.2⟩
  | unionPointer hm hvalue =>
      obtain rfl := Option.some.inj (hmember.symm.trans hm)
      exact ⟨_, _, hvalue⟩
  | unionInPlace hm htail hvalue =>
      obtain rfl := Option.some.inj (hmember.symm.trans hm)
      exact ⟨_, _, hvalue⟩

/-! The same for elements of arrays. -/

theorem SitsItem.inside_struct {nullable : Bool} {fields : List FieldType} {sv version : UInt32}
    {vs : List Value} {g : Nat}
    (h : SitsItem n (.struct fields sv nullable) (.struct version vs) g) :
    ∃ g', SitsStruct n fields version vs g' := by
  cases h with
  | plain hs =>
      have hs' : StructSuits .exact fields version vs.length ∧
        SuitsFields vs .exact n version fields := hs
      exact sitsStruct_of_suits hs'.1 hs'.2
  | struct hstruct => exact ⟨_, hstruct⟩

theorem SitsItem.inside_array {nullable : Bool} {element : Ty} {items : List Value} {g : Nat}
    (h : SitsItem n (.array element nullable) (.array items) g) :
    ∀ w ∈ items, ∃ g', SitsItem n element w g' := by
  cases h with
  | plain hs =>
      have hs' : _ ∧ SuitsItems items .exact n element := hs
      exact fun w hw => ⟨_, .plain (suitsItems_iff.mp hs'.2 w hw)⟩
  | array hsize hitems => exact fun w hw => ⟨_, hitems w hw⟩

theorem SitsItem.inside_map {nullable : Bool} {key value : Ty} {keys values : List Value} {g : Nat}
    (h : SitsItem n (.map key value nullable) (.map keys values) g) :
    (∀ w ∈ keys, ∃ g', SitsItem n key w g') ∧ ∀ w ∈ values, ∃ g', SitsItem n value w g' := by
  cases h with
  | plain hs =>
      have hs' : _ ∧ _ ∧ SuitsItems keys .exact n key ∧ SuitsItems values .exact n value := hs
      exact ⟨fun w hw => ⟨_, .plain (suitsItems_iff.mp hs'.2.2.1 w hw)⟩,
        fun w hw => ⟨_, .plain (suitsItems_iff.mp hs'.2.2.2 w hw)⟩⟩
  | map hsize hcount hkeys hvalues =>
      exact ⟨fun w hw => ⟨_, hkeys w hw⟩, fun w hw => ⟨_, hvalues w hw⟩⟩

/-- A field that holds a struct somewhere sits as one of the packed fields. -/
theorem SitsStruct.inside_field {fields : List FieldType} {version : UInt32} {vs : List Value}
    {g i : Nat} {ft : FieldType} (h : SitsStruct n fields version vs g)
    (hft : fields[i]? = some ft) (hns : ft.ty.isNullableScalar = false) :
    ∃ tail g', Sits n tail false ft.ty (vs.getD i .null) g' := by
  obtain ⟨gs, hstruct, hscalar, hfield⟩ := h
  obtain ⟨pf, hpf, hpos, -⟩ := packed_plain (getElem?_packFields hft) hns
  have hi : pf.field.index = i := by
    rw [hpos]
    rfl
  subst hi
  exact ⟨_, _, hfield pf hpf ft hft hns⟩

/-- Every struct inside a value that sits, sits. -/
theorem sits_inside {fields : List FieldType} {vs : List Value} {ty : Ty} {v : Value}
    (hin : StructIn fields vs ty v) :
    (∀ tail payload g, Sits n tail payload ty v g → ∃ version g', SitsStruct n fields version vs g') ∧
      ∀ g, SitsItem n ty v g → ∃ version g', SitsStruct n fields version vs g' := by
  induction hin with
  | here =>
      exact ⟨fun _ _ _ h => ⟨_, h.inside_struct⟩, fun _ h => ⟨_, h.inside_struct⟩⟩
  | @field fs sv version nullable ws i ft hft inside ih =>
      have hstruct : ∀ {g}, SitsStruct n fs version ws g → ∃ version g', SitsStruct n fields version
          vs g' := by
        intro g h
        obtain ⟨tail, g', h'⟩ := h.inside_field hft inside.not_scalar
        exact ih.1 _ _ _ h'
      refine ⟨fun _ _ _ h => ?_, fun _ h => ?_⟩
      · obtain ⟨g', h'⟩ := h.inside_struct
        exact hstruct h'
      · obtain ⟨g', h'⟩ := h.inside_struct
        exact hstruct h'
  | item hw inside ih =>
      refine ⟨fun _ _ _ h => ?_, fun _ h => ?_⟩
      · obtain ⟨g', h'⟩ := h.inside_array _ hw
        exact ih.2 _ h'
      · obtain ⟨g', h'⟩ := h.inside_array _ hw
        exact ih.2 _ h'
  | key hw inside ih =>
      refine ⟨fun _ _ _ h => ?_, fun _ h => ?_⟩
      · obtain ⟨g', h'⟩ := h.inside_map.1 _ hw
        exact ih.2 _ h'
      · obtain ⟨g', h'⟩ := h.inside_map.1 _ hw
        exact ih.2 _ h'
  | value hw inside ih =>
      refine ⟨fun _ _ _ h => ?_, fun _ h => ?_⟩
      · obtain ⟨g', h'⟩ := h.inside_map.2 _ hw
        exact ih.2 _ h'
      · obtain ⟨g', h'⟩ := h.inside_map.2 _ hw
        exact ih.2 _ h'
  | member hmember inside ih =>
      refine ⟨fun _ _ _ h => ?_, fun _ h => ?_⟩
      · obtain ⟨tail, g', h'⟩ := h.inside_union hmember
        exact ih.1 _ _ _ h'
      · cases h with
        | plain hs => exact absurd hs id

end Inversion

/-! ### Fields that stay apart -/

/-- Encoding the fields of a struct one after the other, each one changes its own
slot only. -/
def FieldsApart (fields : List FieldType) (vs : List Value) : Prop :=
  ∀ (off : Nat) (pre post : List PackedField) (pf : PackedField) (enc enc₁ enc₂ : Encoder),
    (packed (packFields fields)).packedFields = pre ++ pf :: post →
    enc.buf.length = off + structSize fields → 8 ∣ enc.buf.length →
    Blank (8 * (off + structHeaderSize)) (8 * (off + structSize fields)) enc.buf →
    encodePackedFields fields .null (fieldValues vs) off pre enc = .ok enc₁ →
    encodePackedField fields ((fieldValues vs).getD pf.field.index .null) off pf enc₁ = .ok enc₂ →
      Keeps (pf.start off) (pf.stop off) enc₁.buf enc₂.buf

/-- The fields of a struct that sits stay apart. -/
theorem SitsStruct.apart {n : Nat} {fields : List FieldType} {version : UInt32} {vs : List Value}
    {g : Nat} (h : SitsStruct n fields version vs g) : FieldsApart fields vs := by
  intro off pre post pf enc enc₁ enc₂ hsplit hlen h8 hz h₁ h₂
  obtain ⟨gs, -, hone⟩ := packedField_sits (fun i => (sits_sound _).1) h
  have hmem : ∀ q ∈ pre ++ pf :: post, q ∈ (packed (packFields fields)).packedFields := by
    rw [hsplit]
    exact fun _ hq => hq
  have hpf := hmem pf (List.mem_append_right _ List.mem_cons_self)
  have hpair := packed_stop_le_start fields off
  rw [hsplit, List.pairwise_append] at hpair
  obtain ⟨hpairPre, -, hcross⟩ := hpair
  have hlt := pf.start_lt_stop off
  have hle := packed_stop_le hpf off
  have hstart := packed_le_start pf off
  -- the fields before do not end the struct
  have hpre : ∀ q ∈ pre, q ≠ pf ∧ q.stop off ≤ pf.start off ∧
      decide (Ends fields gs q) = false := by
    intro q hq
    have hbefore := hcross q hq pf List.mem_cons_self
    refine ⟨fun heq => ?_, hbefore, decide_eq_false fun hends => ?_⟩
    · have hlt' := q.start_lt_stop off
      rw [heq] at hbefore hlt'
      omega
    · have hstop := q.stop_eq off
      have hend := hends.1
      omega
  have hfirst := @fields_sound _ _ _ off (pf.start off) _ _ _ _ (fun _ => true) _ _ _ _
    (8 * (off + structHeaderSize)) hpairPre (fun q _ => packed_le_start q off)
    (fun q hq => (hpre q hq).2.1) hstart fun q hq => by
      have hq' := hone q (hmem q (List.mem_append_left _ hq)) off
      rw [(hpre q hq).2.2] at hq'
      exact sound_lastly_false.mp hq'
  obtain ⟨w₁, -⟩ := hfirst enc enc₁ (by omega) (fun p hp hp' => hz p hp (by omega)) h₁
  have hlen₁ := w₁.length_le
  have hz₁ : Blank (pf.start off) (pf.stop off) enc₁.buf := by
    intro p hp hp'
    rw [w₁.keeps.same p (by omega) (.inr hp)]
    exact hz p (by omega) (by omega)
  refine (hone pf hpf off enc₁ enc₂ (by omega) hz₁ (provided_eq_ok.mpr ⟨fun hends => ?_, h₂⟩)).1.keeps
  -- at the end of the struct, nothing has been appended so far
  obtain ⟨hstop, hzero⟩ := of_decide_eq_true hends
  have hsum : (pre.map (·.weight gs)).sum = 0 :=
    List.sum_eq_zero_iff_forall_eq_nat.mpr (List.forall_mem_map.mpr fun q hq =>
      hzero q (hmem q (List.mem_append_left _ hq)) (hpre q hq).1)
  have hsame := (w₁.length h8).1
  rw [hsum] at hsame
  have hend := pf.stop_eq off
  omega

/-! ### Messages -/

section Messages

variable {h : MessageHeader} {header : List UInt8} {n : Nat} {fields : List FieldType}
  {sv version : UInt32} {nullable : Bool} {vs : List Value} {g : Nat}

/-- A payload that sits is encoded, and validates to itself. -/
theorem sits_returns (limits : ValidationLimits) (hs : h.serialize = .ok header)
    (hver : h.version.toNat ≤ 3) (hflags : h.FlagsOk) (hsits : SitsStruct n fields version vs g)
    (hencode : nestingFields 0 vs fields ≤ maxEncodeDepth)
    (hdepth : 1 + nestingFields 1 vs fields ≤ limits.maxRecursionDepth)
    (hsize : header.length + (structSize fields + g) ≤ limits.maxMessageSize)
    (hlimit : limits.maxMessageSize < usizeLimit) :
    RoundTrips limits header n (.struct fields sv nullable) (.struct version vs) := by
  obtain ⟨hout, -⟩ := MessageHeader.serialize_eq_ok hs
  obtain ⟨-, -, h8⟩ := MessageHeader.requiredHeaderSize_bounds h.version.toNat
  obtain ⟨enc, henc, -⟩ := struct_finishes (fun i => (sits_completes (vs.getD i .null)).1) hsits
    ⟨header, 0, 0⟩ (hout ▸ h8) (by show header.length + _ < _; omega)
    (by show 0 + (0 + _) ≤ _; omega)
  have hmsg : encodeMessage header (.struct fields sv nullable) (.struct version vs) =
      .ok ⟨patchPayload header enc.buf, enc.handles⟩ := by
    rw [encodeMessage_eq hs, henc, ok_bind]
  have hO := structObject_sits (fun i => (sits_sound (vs.getD i .null)).1) hsits
  obtain ⟨-, hlen⟩ := encodeMessage_size hO hs hmsg
  have hle := structHeaderSize_le fields
  have hheader : structHeaderSize = 8 := rfl
  obtain ⟨r, hr, hpayload, -⟩ := validate_encoded hO (by decide) (by omega) hs hver hflags hmsg
    (.inl rfl) (by omega) (by omega) hdepth
  exact ⟨_, r, hmsg, hr, hpayload rfl⟩

end Messages

/-- The structs inside a payload that sits stay apart, and it comes back. -/
theorem nested_structs_return (limits : ValidationLimits) {h : MessageHeader}
    {header : List UInt8} {n : Nat} {fields : List FieldType} (sv : UInt32) {version : UInt32}
    (nullable : Bool) {vs : List Value} {g : Nat} (hs : h.serialize = .ok header)
    (hver : h.version.toNat ≤ 3) (hflags : h.FlagsOk) (hsits : SitsStruct n fields version vs g)
    (hencode : nestingFields 0 vs fields ≤ maxEncodeDepth)
    (hdepth : 1 + nestingFields 1 vs fields ≤ limits.maxRecursionDepth)
    (hsize : header.length + (structSize fields + g) ≤ limits.maxMessageSize)
    (hlimit : limits.maxMessageSize < usizeLimit) :
    (∀ fields' vs', StructIn fields' vs' (.struct fields sv nullable) (.struct version vs) →
        FieldsApart fields' vs') ∧
      RoundTrips limits header n (.struct fields sv nullable) (.struct version vs) := by
  refine ⟨fun fields' vs' hin => ?_, sits_returns limits hs hver hflags hsits hencode hdepth hsize
    hlimit⟩
  obtain ⟨version', g', hinside⟩ := (sits_inside hin).2 _ (.struct hsits)
  exact hinside.apart

/-- Two levels of structs in place, each at the end of the one around it. -/
theorem nested_structs_twice :
    let h : MessageHeader := ⟨0, 0, 0, 0, 0, none, none, none, none⟩
    let deep : List FieldType := [⟨.u64, none⟩]
    let inner : List FieldType := [⟨.u8, none⟩, ⟨.struct deep 0 false, none⟩]
    let outer : List FieldType := [⟨.u32, none⟩, ⟨.struct inner 0 false, none⟩]
    let vs : List Value := [.u32 1, .struct 0 [.u8 2, .struct 0 [.u64 3]]]
    ∃ header, h.serialize = .ok header ∧
      (∀ fields' vs', StructIn fields' vs' (.struct outer 0 false) (.struct 0 vs) →
        FieldsApart fields' vs') ∧
      RoundTrips {} header 0 (.struct outer 0 false) (.struct 0 vs) := by
  intro h deep inner outer vs
  obtain ⟨header, hs⟩ : ∃ header, h.serialize = .ok header := ⟨_, rfl⟩
  have hlen : header.length = 24 := (MessageHeader.serialize_eq_ok hs).1
  have hdeep : SitsStruct 0 deep 0 [.u64 3] 0 :=
    .last [] [] ⟨pack_ok_iff.mp ⟨_, rfl⟩, by decide, rfl, by decide⟩ .nil rfl
      (.plain ⟨rfl, fun _ => trivial⟩) (by decide)
  have hinner : SitsStruct 0 inner 0 [.u8 2, .struct 0 [.u64 3]] 8 :=
    .last [_] [_] ⟨pack_ok_iff.mp ⟨_, rfl⟩, by decide, rfl, by decide⟩
      (.cons ⟨⟨rfl, fun _ => trivial⟩, rfl⟩ .nil) rfl (.inPlace hdeep) (by decide)
  have houter : SitsStruct 0 outer 0 vs (structSize inner - 8 + 8) :=
    .last [_] [_] ⟨pack_ok_iff.mp ⟨_, rfl⟩, by decide, rfl, by decide⟩
      (.cons ⟨⟨rfl, fun _ => trivial⟩, rfl⟩ .nil) rfl (.inPlace hinner) (by decide)
  refine ⟨header, hs, nested_structs_return {} 0 false hs (by decide) (by decide) houter
    (by decide) (by decide) ?_ (by decide)⟩
  rw [hlen]
  decide

/-- A number inside a struct, and a number behind it. -/
def overlapFields : List FieldType := [⟨.struct [⟨.u32, none⟩] 0 false, none⟩, ⟨.u32, none⟩]

/-- The message of a one and a two in these fields. -/
def overlapBytes : List UInt8 :=
  [24, 0, 0, 0, 0, 0, 0, 0, 0, 0, 0, 0, 0, 0, 0, 0, 0, 0, 0, 0, 0, 0, 0, 0, 24, 0, 0, 0, 0, 0, 0, 0,
    16, 0, 0, 0, 0, 0, 0, 0, 2, 0, 0, 0, 0, 0, 0, 0]

/-- Not so where a field follows the struct: both numbers are written to the same
four bytes. -/
theorem nested_struct_overlaps :
    let h : MessageHeader := ⟨0, 0, 0, 0, 0, none, none, none, none⟩
    let vs : List Value := [.struct 0 [.u32 1], .u32 2]
    ∃ header, h.serialize = .ok header ∧ ¬FieldsApart overlapFields vs ∧
      ¬RoundTrips {} header 0 (.struct overlapFields 0 false) (.struct 0 vs) := by
  intro h vs
  have hs : h.serialize = .ok (overlapBytes.take 24) := by decide +kernel
  refine ⟨_, hs, fun hapart => ?_, ?_⟩
  · -- the first field sets a bit of the second one
    have hblank : Blank (8 * (0 + structHeaderSize)) (8 * (0 + structSize overlapFields))
        (growTo [] 24) := fun p _ _ => by
      rw [bitAt_growTo]
      exact bitAt_of_le (Nat.zero_le _)
    have hkeeps := hapart 0 [] _ _ ⟨growTo [] 24, 0, 0⟩ _ _ rfl rfl ⟨3, rfl⟩ hblank rfl rfl
    exact absurd (hkeeps.same 128 (by decide) (.inr (by decide))) (by decide)
  · rintro ⟨msg, r, henc, hvalid, hpayload⟩
    obtain rfl : msg = ⟨overlapBytes, 0⟩ := Except.ok.inj (henc.symm.trans rfl)
    have hread : (validateMessage overlapBytes 0 (.struct overlapFields 0 false) {} >>= fun r =>
        .ok r.payload) = .ok (.struct 0 [.struct 0 [.u32 2], .u32 2]) := rfl
    rw [hvalid, ok_bind, hpayload] at hread
    simp [vs] at hread

end MojoRs.Wire
