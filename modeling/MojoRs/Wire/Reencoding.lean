/-
MojoRs/Wire/Reencoding.lean

What has been decoded can be encoded again.  The payload of an accepted message
conforms to its type, where the encoder is true to the decoder: every struct is
of the version of its schema (an older one has no values for the later fields),
and the schema has none of the types that the encoder writes otherwise than the
decoder reads (`Ty.Reencodes`).  Behind the header of the message the payload
then comes back, as often as it is decoded and encoded.

Main results:
* `payload_suits` — the payload of an accepted message conforms;
* `reencoded_returns` — encoded again, it validates to itself.
-/
import MojoRs.Wire.DecodedTypes
import MojoRs.Wire.HeaderRoundTrip
import MojoRs.Wire.ScalarRoundTrip

namespace MojoRs.Wire

open Lib

/-! ### Schemas -/

/-- A struct is nullable. -/
def Ty.nullableStruct : Ty → Bool
  | .struct _ _ nullable => nullable
  | _ => true

mutual

/-- Types at which the encoder writes what the decoder reads: a struct in place
has no fields, a nullable scalar is a field of a struct and no boolean, and a
member of a union is neither a union in place nor a struct in place. -/
def Ty.Reencodes : Place → Ty → Prop
  | .item, .struct fields _ _ => FieldsReencode fields
  | _, .struct fields _ nullable => (nullable = true ∨ fields = []) ∧ FieldsReencode fields
  | _, .array element _ => element.Reencodes .item
  | _, .map key value _ => key.Reencodes .item ∧ value.Reencodes .item
  | .item, .union _ _ _ => True
  | _, .union members _ _ => MembersReencode members
  | .slot, .nullableScalar inner => inner.isScalar = true ∧ inner.packKind ≠ .bool
  | .item, .nullableScalar _ => True
  | .field, .nullableScalar _ => False
  | _, _ => True

/-- The same of the fields of a struct. -/
def FieldsReencode : List FieldType → Prop
  | [] => True
  | ⟨ty, _⟩ :: fts => ty.Reencodes .slot ∧ FieldsReencode fts

/-- The same of the members of a union. -/
def MembersReencode : List Ty → Prop
  | [] => True
  | ty :: tys =>
      (ty.packKind ≠ .union ∧ ty.nullableStruct = true ∧ ty.Reencodes .field) ∧ MembersReencode tys

end

theorem FieldsReencode.get {fields : List FieldType} (h : FieldsReencode fields) {i : Nat}
    {ft : FieldType} (hft : fields[i]? = some ft) : ft.ty.Reencodes .slot := by
  induction fields generalizing i with
  | nil => cases hft
  | cons ft' fts ih =>
      obtain ⟨hfirst, hrest⟩ := h
      cases i with
      | zero =>
          obtain rfl := Option.some.inj hft
          exact hfirst
      | succ i => exact ih hrest hft

theorem plainOptionals_of_isScalar {ty : Ty} (h : ty.isScalar = true) : ty.PlainOptionals .field := by
  cases ty <;> trivial

mutual

/-- A nullable boolean in a field is written otherwise than it is read. -/
theorem plain_of_reencodes : ∀ (ty : Ty) (p : Place), ty.Reencodes p → ty.PlainOptionals p
  | .struct fields _ _, p, h => by
      have hfields := fieldsPlain_of_reencode fields
      cases p with
      | item => exact hfields h
      | slot => exact hfields h.2
      | field => exact hfields h.2
  | .array element _, p, h => by
      have helement := plain_of_reencodes element .item
      cases p <;> exact helement h
  | .map key value _, p, h => by
      have hkey := plain_of_reencodes key .item
      have hvalue := plain_of_reencodes value .item
      cases p <;> exact ⟨hkey h.1, hvalue h.2⟩
  | .union members _ _, p, h => by
      have hmembers := membersPlain_of_reencode members
      cases p with
      | item => trivial
      | slot => exact hmembers h
      | field => exact hmembers h
  | .nullableScalar inner, p, h => by
      cases p with
      | slot => exact ⟨h.2, plainOptionals_of_isScalar h.1⟩
      | item => trivial
      | field => exact absurd h id
  | .bool, p, _ | .i8, p, _ | .u8, p, _ | .i16, p, _ | .u16, p, _ | .i32, p, _ | .u32, p, _
  | .i64, p, _ | .u64, p, _ | .f32, p, _ | .f64, p, _ | .enum, p, _ | .handle, p, _
  | .string _, p, _ | .interface _, p, _ | .associatedEndpoint, p, _
  | .associatedInterface _, p, _ => by cases p <;> trivial

theorem fieldsPlain_of_reencode : ∀ fields : List FieldType, FieldsReencode fields →
    FieldsPlain fields
  | [], _ => trivial
  | ⟨ty, _⟩ :: fts, h => ⟨plain_of_reencodes ty .slot h.1, fieldsPlain_of_reencode fts h.2⟩

theorem membersPlain_of_reencode : ∀ members : List Ty, MembersReencode members →
    MembersPlain members
  | [], _ => trivial
  | ty :: tys, h => ⟨plain_of_reencodes ty .field h.1.2.2, membersPlain_of_reencode tys h.2⟩

end

theorem MembersReencode.get {members : List Ty} (h : MembersReencode members) {i : Nat} {ty : Ty}
    (hty : members[i]? = some ty) :
    ty.packKind ≠ .union ∧ ty.nullableStruct = true ∧ ty.Reencodes .field := by
  induction members generalizing i with
  | nil => cases hty
  | cons ty' tys ih =>
      obtain ⟨hfirst, hrest⟩ := h
      cases i with
      | zero =>
          obtain rfl := Option.some.inj hty
          exact hfirst
      | succ i => exact ih hrest hty

/-! ### Versions inside a value -/

/-- A struct of a version, anywhere inside a value of a type. -/
inductive VersionIn (fields : List FieldType) (version : UInt32) : Ty → Value → Prop
  | here {sv : UInt32} {nullable : Bool} {vs : List Value} :
      VersionIn fields version (.struct fields sv nullable) (.struct version vs)
  | field {fs : List FieldType} {sv v : UInt32} {nullable : Bool} {ws : List Value} {i : Nat}
      {ft : FieldType} {w : Value} (hft : fs[i]? = some ft) (hw : ws[i]? = some w)
      (inside : VersionIn fields version ft.ty w) :
      VersionIn fields version (.struct fs sv nullable) (.struct v ws)
  | item {element : Ty} {nullable : Bool} {items : List Value} {w : Value} (hw : w ∈ items)
      (inside : VersionIn fields version element w) :
      VersionIn fields version (.array element nullable) (.array items)
  | key {key value : Ty} {nullable : Bool} {keys values : List Value} {w : Value} (hw : w ∈ keys)
      (inside : VersionIn fields version key w) :
      VersionIn fields version (.map key value nullable) (.map keys values)
  | value {key value : Ty} {nullable : Bool} {keys values : List Value} {w : Value}
      (hw : w ∈ values) (inside : VersionIn fields version value w) :
      VersionIn fields version (.map key value nullable) (.map keys values)
  | member {members : List Ty} {nullable inlined : Bool} {tag : UInt32} {member : Ty} {w : Value}
      (hmember : members[tag.toNat]? = some member) (inside : VersionIn fields version member w) :
      VersionIn fields version (.union members nullable inlined) (.union tag w)
  | scalar {inner : Ty} {w : Value} (inside : VersionIn fields version inner w) :
      VersionIn fields version (.nullableScalar inner) (.nullableScalar true w)

/-- No struct inside a value is older than its schema. -/
def Current (ty : Ty) (v : Value) : Prop :=
  ∀ fields version, VersionIn fields version ty v → maxVersion fields ≤ version.toNat

/-! ### Decoded values conform -/

/-- A value can be encoded where it is, `d` levels deep: for the decoder and, with
`s = 0`, for the encoder. -/
def Conforms (n s d : Nat) (ty : Ty) (v : Value) : Place → Prop
  | .slot => ∀ minVersion, FieldSuits .exact n ⟨ty, minVersion⟩ v ∧
      fieldNesting s ⟨ty, minVersion⟩ v ≤ d
  | .field => ∀ payload, (payload = true → ty.nullableStruct = true) →
      Suits v .exact n payload ty ∧ nesting s v payload ty ≤ d
  | .item => ItemSuits .exact n ty v ∧ itemNesting s ty v ≤ d

theorem Conforms.slot {n s d : Nat} {ty : Ty} {v : Value} (hscalar : ty.isNullableScalar = false)
    (h : Conforms n s d ty v .field) : Conforms n s d ty v .slot := by
  intro minVersion
  obtain ⟨hsuits, hnesting⟩ := h false nofun
  have hplain : ¬(FieldOf.mk ty minVersion).ty.isNullableScalar = true := by
    rw [hscalar]
    exact Bool.false_ne_true
  rw [fieldSuits_plain hplain, fieldNesting_plain hplain]
  exact ⟨hsuits, hnesting⟩

/-- The size of an array is that of its header and elements, rounded up. -/
theorem arraySize_lt {element : Ty} {count N : Nat}
    (h : arrayHeaderSize + element.elemSize * count ≤ N) (hN : N + 8 < sizeFieldLimit) :
    arraySize element count < sizeFieldLimit := by
  unfold arraySize
  omega

theorem nestingItems_le {s d : Nat} {element : Ty} {vs : List Value}
    (h : ∀ v ∈ vs, itemNesting s element v ≤ d) : nestingItems s vs element ≤ d := by
  induction vs with
  | nil => exact Nat.zero_le d
  | cons v vs ih =>
      rw [List.forall_mem_cons] at h
      rw [nestingItems]
      exact Nat.max_le.mpr ⟨h.1, ih h.2⟩

/-- The fields of a struct that is not older than its schema. -/
theorem suitsFields_of_forall {n s d : Nat} {version : UInt32} {fields : List FieldType}
    {vs : List Value} (hcount : vs.length = fields.length)
    (hversion : ∀ ft ∈ fields, ft.minVersion.getD 0 ≤ version.toNat)
    (h : ∀ (i : Nat) (ft : FieldType) (v : Value), fields[i]? = some ft → vs[i]? = some v →
      FieldSuits .exact n ft v ∧ fieldNesting s ft v ≤ d) :
    SuitsFields vs .exact n version fields ∧ nestingFields s vs fields ≤ d := by
  induction vs generalizing fields with
  | nil =>
      obtain rfl := List.eq_nil_of_length_eq_zero hcount.symm
      exact ⟨nofun, Nat.zero_le d⟩
  | cons v vs ih =>
      cases fields with
      | nil => cases hcount
      | cons ft fts =>
          rw [List.forall_mem_cons] at hversion
          obtain ⟨hsuits, hnesting⟩ := h 0 ft v rfl rfl
          obtain ⟨hrest, hnesting'⟩ := ih (Nat.succ.inj hcount) hversion.2
            fun i ft' v' hft hv => h (i + 1) ft' v' hft hv
          refine ⟨suitsFields_cons.mpr ⟨?_, hrest⟩, ?_⟩
          · rw [Mode.atField, if_pos hversion.1]
            exact hsuits
          · rw [nestingFields_cons]
            exact Nat.max_le.mpr ⟨hnesting, hnesting'⟩

section Typed

variable {n N s : Nat}

theorem conforms_string {p : Place} {d : Nat} {nullable : Bool} {str : String} (hnul : NulFree str)
    (hsize : arrayHeaderSize + str.toUTF8.data.toList.length ≤ N) (hN : N + 8 < sizeFieldLimit) :
    Conforms n s d (.string nullable) (.string str) p := by
  have hs : stringSize str < sizeFieldLimit := by
    unfold stringSize
    omega
  have hfield : Conforms n s d (.string nullable) (.string str) .field := fun payload _ =>
    ⟨⟨fun _ => hnul, fun _ => hs⟩, Nat.zero_le d⟩
  cases p with
  | slot => exact hfield.slot rfl
  | field => exact hfield
  | item => exact ⟨⟨fun _ => hnul, fun _ => hs⟩, Nat.zero_le d⟩

theorem conforms_array {p : Place} {d e : Nat} {element : Ty} {nullable : Bool} {items : List Value}
    (hs : s ≤ 1) (hd : d ≤ e) (hdeeper : p ≠ .item → d < e)
    (hsize : arrayHeaderSize + element.elemSize * items.length ≤ N) (hN : N + 8 < sizeFieldLimit)
    (hitems : ∀ v ∈ items, Conforms n s d element v .item) :
    Conforms n s e (.array element nullable) (.array items) p := by
  have hlt := arraySize_lt hsize hN
  have hsuits := suitsItems_iff.mpr fun v hv => (hitems v hv).1
  have hnesting := nestingItems_le fun v hv => (hitems v hv).2
  have hfield (hlt' : d < e) : Conforms n s e (.array element nullable) (.array items) .field := by
    intro payload _
    refine ⟨⟨fun _ => hlt, hsuits⟩, ?_⟩
    rw [nesting]
    split_ifs <;> omega
  cases p with
  | slot => exact (hfield (hdeeper (by simp))).slot rfl
  | field => exact hfield (hdeeper (by simp))
  | item => exact ⟨⟨fun _ => hlt, hsuits⟩, Nat.le_trans hnesting hd⟩

theorem conforms_map {p : Place} {d e : Nat} {key value : Ty} {nullable : Bool}
    {keys values : List Value} (hd : d < e) (hlen : keys.length = values.length)
    (hksize : arrayHeaderSize + key.elemSize * keys.length ≤ N)
    (hvsize : arrayHeaderSize + value.elemSize * values.length ≤ N) (hN : N + 8 < sizeFieldLimit)
    (hkeys : ∀ v ∈ keys, Conforms n s d key v .item)
    (hvalues : ∀ v ∈ values, Conforms n s d value v .item) :
    Conforms n s e (.map key value nullable) (.map keys values) p := by
  have hlt := And.intro (arraySize_lt hksize hN) (arraySize_lt hvsize hN)
  have hks := suitsItems_iff.mpr fun v hv => (hkeys v hv).1
  have hvs := suitsItems_iff.mpr fun v hv => (hvalues v hv).1
  have hnesting : 1 + max (nestingItems s keys key) (nestingItems s values value) ≤ e := by
    have hk := nestingItems_le fun v hv => (hkeys v hv).2
    have hv := nestingItems_le fun v hv => (hvalues v hv).2
    omega
  have hfield : Conforms n s e (.map key value nullable) (.map keys values) .field :=
    fun payload _ => ⟨⟨fun _ => hlt, hlen, hks, hvs⟩, hnesting⟩
  cases p with
  | slot => exact hfield.slot rfl
  | field => exact hfield
  | item => exact ⟨⟨fun _ => hlt, hlen, hks, hvs⟩, hnesting⟩

theorem conforms_struct {p : Place} {d e : Nat} {fields : List FieldType} {sv version : UInt32}
    {nullable : Bool} {vs : List Value} (hs : s ≤ 1) (hd : d < e)
    (hplace : p ≠ .item → nullable = true ∨ fields = [])
    (hstruct : StructSuits .exact fields version vs.length)
    (hfields : SuitsFields vs .exact n version fields ∧ nestingFields s vs fields ≤ d) :
    Conforms n s e (.struct fields sv nullable) (.struct version vs) p := by
  obtain ⟨hsuits, hnesting⟩ := hfields
  have hdepth : s + nestingFields s vs fields ≤ e := by omega
  have hfield (h : nullable = true ∨ fields = []) :
      Conforms n s e (.struct fields sv nullable) (.struct version vs) .field := by
    intro payload hpayload
    refine ⟨⟨?_, hstruct, hsuits⟩, hdepth⟩
    cases payload with
    | false => exact h.imp_right fun hnil => ⟨rfl, hnil⟩
    | true => exact .inl (hpayload rfl)
  cases p with
  | slot => exact (hfield (hplace (by simp))).slot rfl
  | field => exact hfield (hplace (by simp))
  | item => exact ⟨⟨hstruct, hsuits⟩, hdepth⟩

theorem conforms_scalar {d : Nat} {ty : Ty} {v : Value} (h : ScalarSuits .exact v ty) :
    Conforms n s d ty v .field := by
  intro payload _
  cases v <;> first | exact ⟨h, Nat.zero_le d⟩ | (cases ty <;> cases h.1)

theorem zeroSuits_scalar {ty : Ty} (h : ty.isScalar = true) : ZeroSuits n ty := by
  cases ty <;> trivial

/-- Typed values conform, by induction on the typing. -/
theorem HasType.conforms {p : Place} {d : Nat} {ty : Ty} {v : Value} (h : HasType n N p d ty v)
    (hs : s ≤ 1) (hN : N + 8 < sizeFieldLimit) (hty : ty.Reencodes p) (hcurrent : Current ty v) :
    Conforms n s d ty v p := by
  induction h with
  | bool b => exact fun _ _ => ⟨trivial, Nat.zero_le _⟩
  | scalar h => exact conforms_scalar h
  | handle h => exact fun _ _ => ⟨fun _ => h, Nat.zero_le _⟩
  | interface h hversion => exact fun _ _ => ⟨⟨fun _ => h, fun _ => hversion⟩, Nat.zero_le _⟩
  | associatedInterface hversion => exact fun _ _ => ⟨fun _ => hversion, Nat.zero_le _⟩
  | string hnul hsize => exact conforms_string hnul hsize hN
  | @array p d e element nullable items hd hdeeper hsize _ ih =>
      refine conforms_array hs hd hdeeper hsize hN fun v hv => ih v hv ?_ ?_
      · cases p <;> exact hty
      · exact fun fields version hin => hcurrent fields version (.item hv hin)
  | @map p d e key value nullable keys values hd hlen hksize hvsize _ _ ihk ihv =>
      have htys : key.Reencodes .item ∧ value.Reencodes .item := by
        cases p <;> exact hty
      refine conforms_map hd hlen hksize hvsize hN (fun v hv => ihk v hv htys.1 ?_)
        fun v hv => ihv v hv htys.2 ?_
      · exact fun fields version hin => hcurrent fields version (.key hv hin)
      · exact fun fields version hin => hcurrent fields version (.value hv hin)
  | @struct p d e fields sv version nullable values hd hpack hsize hlen hread hlater ih =>
      have hmax : maxVersion fields ≤ version.toNat := hcurrent fields version .here
      have htys : FieldsReencode fields := by
        cases p with
        | item => exact hty
        | slot => exact hty.2
        | field => exact hty.2
      refine conforms_struct hs hd (fun hp => ?_) ⟨hpack, hmax, hlen, ?_⟩
        (suitsFields_of_forall hlen (fun ft hft => ?_) fun i ft v hft hv => ?_)
      · cases p with
        | item => exact absurd rfl hp
        | slot => exact hty.1
        | field => exact hty.1
      · have := hsize hmax
        omega
      · obtain ⟨i, hi⟩ := List.mem_iff_getElem?.mp hft
        exact Nat.le_trans (minVersion_le_maxVersion hi) hmax
      · -- no field is later than the struct
        have hle := Nat.le_trans (minVersion_le_maxVersion hft) hmax
        refine ih i ft v hft hv hle (htys.get hft) ?_ ft.minVersion
        exact fun fields' version' hin => hcurrent fields' version' (.field hft hv hin)
  | @union d members nullable inlined tag member value hmember _ ih =>
      intro payload _
      obtain ⟨hkind, hnull, htys⟩ := MembersReencode.get hty hmember
      obtain ⟨hsuits, hnesting⟩ := ih htys (fun fields version hin =>
        hcurrent fields version (.member hmember hin)) true fun _ => hnull
      constructor
      · rw [Suits, hmember]
        exact ⟨hkind, hsuits⟩
      · rw [nesting, hmember]
        exact hnesting
  | null h => exact fun _ _ => ⟨h, Nat.zero_le _⟩
  | bare _ _ => exact absurd hty id
  | @inPlace d element v hpod _ ih =>
      have htys : element.Reencodes .field := by
        cases element <;> trivial
      obtain ⟨hsuits, hnesting⟩ := ih htys hcurrent false (by simp)
      constructor
      · unfold ItemSuits
        rwa [if_pos hpod]
      · rw [itemNesting, if_pos hpod]
        exact hnesting
  | @nullItem d element hpod hnull =>
      have hpod' : ¬element.isPod = true := by rw [hpod]; exact Bool.false_ne_true
      constructor
      · unfold ItemSuits
        rw [if_neg hpod']
        exact fun _ => hnull
      · rw [itemNesting, if_neg hpod']
        exact Nat.zero_le d
  | @slot d ty v hscalar _ ih =>
      have htys : ty.Reencodes .field := by
        cases ty <;> first | exact hty | cases hscalar
      exact (ih htys hcurrent).slot hscalar
  | @absent d inner => exact fun _ => ⟨⟨.inr (.inr (zeroSuits_scalar hty.1)), fun _ => rfl⟩, Nat.zero_le d⟩
  | @present d inner v hbool _ ih =>
      have htys : inner.Reencodes .field := by
        cases inner <;> first | trivial | cases hty.1
      obtain ⟨hsuits, hnesting⟩ := ih htys (fun fields version hin =>
        hcurrent fields version (.scalar hin)) false (by simp)
      exact fun _ => ⟨⟨fun _ => hsuits, fun _ => hbool⟩, hnesting⟩

end Typed

/-! ### Messages -/

section Messages

variable {bytes : List UInt8} {n : Nat} {ty : Ty} {limits : ValidationLimits} {m : ValidatedMessage}

/-- The payload of an accepted message conforms to its type, and neither for the
decoder nor for the encoder is it deeper than the limit. -/
theorem payload_suits (h : validateMessage bytes n ty limits = .ok m) (hty : ty.Reencodes .item)
    (hcurrent : Current ty m.payload) (hlimit : limits.maxMessageSize + 8 < sizeFieldLimit) :
    PayloadSuits .exact n ty m.payload ∧
      ∀ s ≤ 1, payloadNesting s ty m.payload ≤ limits.maxRecursionDepth := by
  have hlen : bytes.length ≤ limits.maxMessageSize := by
    unfold validateMessage at h
    split_ifs at h with _ hlong
    exact Nat.le_of_not_lt hlong
  obtain ⟨fields, version, values, sv, nullable, rfl, hpayload⟩ := payload_struct h
  have hconforms {s : Nat} (hs : s ≤ 1) :=
    (payload_typed h (plain_of_reencodes _ _ hty)).conforms hs
      (Nat.lt_of_le_of_lt (Nat.add_le_add_right hlen 8) hlimit) hty hcurrent
  rw [hpayload] at hconforms ⊢
  exact ⟨(hconforms (Nat.le_refl 1)).1, fun s hs => (hconforms hs).2⟩

/-- The header of an accepted message is parsed from it. -/
theorem header_parsed (h : validateMessage bytes n ty limits = .ok m) :
    ∃ size, MessageHeader.parse bytes = .ok (m.header, size) := by
  unfold validateMessage at h
  split_ifs at h
  obtain ⟨⟨header, size⟩, hparse, h⟩ := bind_eq_ok h
  obtain ⟨payloadOffset, -, h⟩ := bind_eq_ok h
  split_ifs at h
  cases ty with
  | struct fields version nullable =>
      obtain ⟨⟨payload, dec'⟩, -, h⟩ := bind_eq_ok h
      obtain rfl := Except.ok.inj h
      exact ⟨size, hparse⟩
  | _ => cases h

/-- Decoded and encoded again behind its own header, an accepted message is
accepted, with the same payload and the same header but for the pointers of
this. -/
theorem reencoded_returns (h : validateMessage bytes n ty limits = .ok m)
    (hver : m.header.version.toNat ≤ 3) (hty : ty.Reencodes .item) (hcurrent : Current ty m.payload)
    (hlimit : limits.maxMessageSize + 8 < sizeFieldLimit)
    (hdepth : limits.maxRecursionDepth ≤ maxEncodeDepth)
    (hsize : requiredHeaderSize m.header.version.toNat + payloadSize ty m.payload ≤
      limits.maxMessageSize) :
    ∃ header msg r, m.header.serialize = .ok header ∧
      encodeMessage header ty m.payload = .ok msg ∧ validateMessage msg.bytes n ty limits = .ok r ∧
      r.payload = m.payload ∧ r.header = { m.header with
        payload := r.header.payload, payloadInterfaceIds := r.header.payloadInterfaceIds } := by
  obtain ⟨size, hparse⟩ := header_parsed h
  obtain ⟨hflags, hcomplete, -⟩ := MessageHeader.parse_eq_ok hparse
  obtain ⟨header, hs⟩ := MessageHeader.serialize_ok hcomplete
  obtain ⟨hout, -⟩ := MessageHeader.serialize_eq_ok hs
  obtain ⟨hsuits, hnesting⟩ := payload_suits h hty hcurrent hlimit
  obtain ⟨fields, version, vs, sv, nullable, rfl, hpayload⟩ := payload_struct h
  rw [hpayload] at hsuits hnesting hsize ⊢
  obtain ⟨hstruct, hfields⟩ := hsuits
  have hencode : nestingFields 0 vs fields ≤ maxEncodeDepth := by
    have hle : 0 + nestingFields 0 vs fields ≤ limits.maxRecursionDepth := hnesting 0 (by decide)
    omega
  have hbytes : header.length + (structSize fields + tallyFields (fun _ => 0) id vs fields) ≤
      limits.maxMessageSize := hout ▸ hsize
  have hbelow : sizeFieldLimit < usizeLimit := by decide
  obtain ⟨msg, henc⟩ : ∃ msg, encodeMessage header (.struct fields sv nullable)
      (.struct version vs) = .ok msg := encodeMessage_ok hs hstruct hfields hencode (by omega)
  have hO := payload_object hstruct hfields
  obtain ⟨-, hlen⟩ := encodeMessage_size (hO.aligned true) hs henc
  have h8 := structHeaderSize_le
  obtain ⟨r, hr, hsame, hnum⟩ : ∃ r,
      validateMessage msg.bytes n (.struct fields sv nullable) limits = .ok r ∧
        (Mode.exact = .exact → r.payload = .struct version vs) ∧
        r.header.numbers = m.header.numbers :=
    validate_encoded (hO.aligned true) (by decide) (Nat.le_trans (h8 _) (Nat.le_add_right _ _)) hs
      hver hflags henc (.inl rfl) (by omega) (by omega) (hnesting 1 (Nat.le_refl 1))
  obtain ⟨size', hparse'⟩ := header_parsed hr
  refine ⟨header, msg, r, hs, henc, hr, hsame rfl, ?_⟩
  exact MessageHeader.parse_returns hs hcomplete hparse' hnum fun off hoff hin =>
    encodeMessage_words (hO.aligned true) hs henc hoff hin

end Messages

/-- A request with a string behind a gap, of a size that is not aligned. -/
def gapBytes : List UInt8 :=
  [32, 0, 0, 0, 1, 0, 0, 0, 0, 0, 0, 0, 5, 0, 0, 0, 1, 0, 0, 0, 0, 0, 0, 0, 9, 0, 0, 0, 0, 0, 0, 0,
    16, 0, 0, 0, 0, 0, 0, 0, 16, 0, 0, 0, 0, 0, 0, 0, 0, 0, 0, 0, 0, 0, 0, 0,
    11, 0, 0, 0, 2, 0, 0, 0, 104, 105, 0]

theorem reencoded_returns_gap : ∃ m header msg r,
    validateMessage gapBytes 0 (.struct [⟨.string false, none⟩] 0 false) {} = .ok m ∧
    m.header.serialize = .ok header ∧
    encodeMessage header (.struct [⟨.string false, none⟩] 0 false) m.payload = .ok msg ∧
    validateMessage msg.bytes 0 (.struct [⟨.string false, none⟩] 0 false) {} = .ok r ∧
    r.payload = m.payload ∧ r.header.requestId = some 9 := by
  obtain ⟨m, hm, hpayload, hversion, hid⟩ : ∃ m,
      validateMessage gapBytes 0 (.struct [⟨.string false, none⟩] 0 false) {} = .ok m ∧
      m.payload = .struct 0 [.string "hi"] ∧ m.header.version = 1 ∧ m.header.requestId = some 9 :=
    ⟨_, rfl, rfl, rfl, rfl⟩
  have hcurrent : Current (.struct [⟨.string false, none⟩] 0 false) m.payload := by
    intro fields version hin
    rw [hpayload] at hin
    cases hin with
    | here => exact Nat.zero_le _
    | @field _ _ _ _ _ i ft w hft hw inside =>
        obtain rfl := List.mem_singleton.mp (List.mem_of_getElem? hft)
        cases inside
  have hsize : requiredHeaderSize m.header.version.toNat +
      payloadSize (.struct [⟨.string false, none⟩] 0 false) m.payload ≤ defaultMaxMessageSize := by
    rw [hversion, hpayload]
    decide
  obtain ⟨header, msg, r, hs, henc, hr, hsame, hheader⟩ := reencoded_returns hm
    (by rw [hversion]; decide) ⟨trivial, trivial⟩ hcurrent (by decide) (by decide) hsize
  refine ⟨m, header, msg, r, hm, hs, henc, hr, hsame, ?_⟩
  rw [hheader]
  exact hid

end MojoRs.Wire
