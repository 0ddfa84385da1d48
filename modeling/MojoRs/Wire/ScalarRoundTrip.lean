/-
MojoRs/Wire/ScalarRoundTrip.lean

Structs of scalars: booleans, integers, floats, enums, and optional ones of
these.  Which values come back from a message, exactly.

Two kinds do not.  An enum is written as its low 32 bits and read as an
unsigned number, so that a negative one returns as a large positive one.  The
flag and the value of an optional boolean are both packed as booleans, and both
are taken for the flag, by the encoder and by the decoder: the boolean itself
is neither written nor read.

Main result: `round_trip_scalars_iff`.
-/
import MojoRs.Wire.RoundTrip

namespace MojoRs.Wire

open Lib

/-! ### Scalars and their values -/

/-- Booleans, integers, floats and enums. -/
def Ty.isScalar : Ty → Bool
  | .bool | .i8 | .u8 | .i16 | .u16 | .i32 | .u32 | .i64 | .u64 | .f32 | .f64 | .enum => true
  | _ => false

/-- A scalar, or an optional one. -/
def Ty.isScalarField : Ty → Bool
  | .nullableScalar inner => inner.isScalar
  | ty => ty.isScalar

/-- The value is one of the scalar type; an enum is a 32-bit number. -/
def ScalarHolds : Value → Ty → Prop
  | .bool _, .bool => True
  | .enum e, .enum => -2 ^ 31 ≤ e.toInt ∧ e.toInt < 2 ^ 31
  | .enum _, _ => False
  | v, ty => (scalarCode v ty).isSome

/-- The value is one of the field's type: a scalar, or one that is present or
absent. -/
def FieldHolds (v : Value) : Ty → Prop
  | .nullableScalar inner =>
      v = .nullableScalar false .null ∨ ∃ w, v = .nullableScalar true w ∧ ScalarHolds w inner
  | ty => ScalarHolds v ty

/-- The value is no negative enum. -/
def NotNegative : Value → Prop
  | .enum e => 0 ≤ e.toInt
  | _ => True

/-- The value comes back from a field: an enum that is not negative, and a
boolean only where it is not optional. -/
def Survives : Value → Ty → Prop
  | .nullableScalar true w, .nullableScalar inner => inner ≠ .bool ∧ NotNegative w
  | v, _ => NotNegative v

/-- The values of a struct of scalars. -/
def ScalarsHold (vs : List Value) (fields : List FieldType) : Prop :=
  List.Forall₂ (fun v ft => ft.ty.isScalarField = true ∧ FieldHolds v ft.ty) vs fields

/-- The values that come back from a struct of scalars. -/
def AllSurvive (vs : List Value) (fields : List FieldType) : Prop :=
  List.Forall₂ (fun v ft => Survives v ft.ty) vs fields

/-! ### What comes back -/

/-- An enum that is not negative comes back from its low 32 bits. -/
theorem enum_code {e : Int64} (hlow : 0 ≤ e.toInt) (hhigh : e.toInt < 2 ^ 31) :
    e.toUInt64.toUInt32.toUInt64.toInt64 = e := by
  have hnat : e.toUInt64.toNat = e.toInt.toNat := by
    rw [Int64.toNat_toUInt64_of_le (Int64.le_iff_toInt_le.mpr hlow), Int64.toNat_toInt]
  have hcode : e.toUInt64.toUInt32.toUInt64 = e.toUInt64 := by
    apply UInt64.toNat_inj.mp
    rw [UInt32.toNat_toUInt64, UInt64.toNat_toUInt32, hnat]
    exact Nat.mod_eq_of_lt (by omega)
  rw [hcode, Int64.toInt64_toUInt64]

/-- What is read as an enum is never negative. -/
theorem enum_value_nonneg (n : Nat) : 0 ≤ (UInt32.ofNat n).toUInt64.toInt64.toInt := by
  have hlt := (UInt32.ofNat n).toNat_lt
  show 0 ≤ (UInt32.ofNat n).toUInt64.toBitVec.toInt
  have hnat : (UInt32.ofNat n).toUInt64.toBitVec.toNat = (UInt32.ofNat n).toNat := rfl
  rw [BitVec.toInt_eq_toNat_of_lt (by rw [hnat]; omega)]
  exact Int.natCast_nonneg _

/-- A scalar that is no negative enum suits its type. -/
theorem suits_scalar {v : Value} {ty : Ty} (h : ScalarHolds v ty) (hn : NotNegative v) (m : Mode)
    (n : Nat) : Suits v m n false ty := by
  cases v with
  | bool b =>
      cases ty with
      | bool => trivial
      | _ => cases h
  | «enum» e =>
      cases ty with
      | «enum» => exact ⟨rfl, fun _ => enum_code hn h.2⟩
      | _ => cases h
  | i8 | u8 | i16 | u16 | i32 | u32 | i64 | u64 | f32 | f64 | associatedEndpoint =>
      exact ⟨h, fun _ => trivial⟩
  | _ => exact nomatch (h : (scalarCode _ ty).isSome = true)

/-- A scalar that is present or absent suits its field. -/
theorem fieldSuits_scalar {v : Value} {ft : FieldType} (hty : ft.ty.isScalarField = true)
    (h : FieldHolds v ft.ty) (hs : Survives v ft.ty) (m : Mode) (n : Nat) :
    FieldSuits m n ft v := by
  obtain ⟨ty, mv⟩ := ft
  dsimp only at hty h hs
  cases ty with
  | nullableScalar inner =>
      rcases h with rfl | ⟨w, rfl, hw⟩
      · refine ⟨.inr ?_, fun _ => rfl⟩
        cases inner with
        | bool => exact .inl rfl
        | i8 | u8 | i16 | u16 | i32 | u32 | i64 | u64 | f32 | f64 | «enum» => exact .inr trivial
        | _ => cases hty
      · have hne : inner.packKind ≠ .bool := by
          intro hbool
          cases inner with
          | bool => exact hs.1 rfl
          | i8 | u8 | i16 | u16 | i32 | u32 | i64 | u64 | f32 | f64 | «enum» => cases hbool
          | _ => cases hty
        exact ⟨fun _ => suits_scalar hw hs.2 m n, fun _ => hne⟩
  | bool | i8 | u8 | i16 | u16 | i32 | u32 | i64 | u64 | f32 | f64 | «enum» =>
      have hn : NotNegative v := by
        cases v with
        | nullableScalar => trivial
        | _ => exact hs
      exact suits_scalar h hn m n
  | _ => cases hty

/-- Values that survive suit a struct of scalars of any version. -/
theorem suitsFields_scalars {vs : List Value} {fields : List FieldType} (h : ScalarsHold vs fields)
    (hs : AllSurvive vs fields) (m : Mode) (n : Nat) (version : UInt32) :
    SuitsFields vs m n version fields := by
  induction h with
  | nil => exact fun _ hft => absurd hft List.not_mem_nil
  | cons hv _ ih =>
      cases hs with
      | cons hfirst hrest =>
          rw [suitsFields_cons]
          exact ⟨fieldSuits_scalar hv.1 hv.2 hfirst _ n, ih hrest⟩

/-- A scalar has no object and no handle of its own. -/
theorem tally_scalar {v : Value} {ty : Ty} (h : ScalarHolds v ty)
    (handle : UInt32 → Nat) (object : Nat → Nat) : tally handle object v ty = 0 := by
  cases v with
  | handle | interface | string | array | map | struct | union | null | nullableScalar =>
      exact nomatch (h : (scalarCode _ ty).isSome = true)
  | _ => rfl

theorem nesting_scalar {v : Value} {ty : Ty} (h : ScalarHolds v ty) (s : Nat) :
    nesting s v false ty = 0 := by
  cases v with
  | array | map | struct | union | nullableScalar =>
      exact nomatch (h : (scalarCode _ ty).isSome = true)
  | _ => rfl

theorem fieldTally_scalar {v : Value} {ft : FieldType} (hty : ft.ty.isScalarField = true)
    (h : FieldHolds v ft.ty) (handle : UInt32 → Nat) (object : Nat → Nat) :
    fieldTally handle object ft v = 0 := by
  obtain ⟨ty, mv⟩ := ft
  dsimp only at hty h
  cases ty with
  | nullableScalar inner =>
      rcases h with rfl | ⟨w, rfl, hw⟩
      · rfl
      · have hzero := tally_scalar hw handle object
        show (if inner.packKind = .bool then 0 else tally handle object w inner) = 0
        rw [hzero, ite_self]
  | bool | i8 | u8 | i16 | u16 | i32 | u32 | i64 | u64 | f32 | f64 | «enum» =>
      exact tally_scalar h handle object
  | _ => cases hty

theorem fieldNesting_scalar {v : Value} {ft : FieldType} (hty : ft.ty.isScalarField = true)
    (h : FieldHolds v ft.ty) (s : Nat) : fieldNesting s ft v = 0 := by
  obtain ⟨ty, mv⟩ := ft
  dsimp only at hty h
  cases ty with
  | nullableScalar inner =>
      rcases h with rfl | ⟨w, rfl, hw⟩
      · rfl
      · exact nesting_scalar hw s
  | bool | i8 | u8 | i16 | u16 | i32 | u32 | i64 | u64 | f32 | f64 | «enum» =>
      exact nesting_scalar h s
  | _ => cases hty

theorem tallyFields_scalars {vs : List Value} {fields : List FieldType} (h : ScalarsHold vs fields)
    (handle : UInt32 → Nat) (object : Nat → Nat) : tallyFields handle object vs fields = 0 := by
  induction h with
  | nil => rfl
  | cons hv _ ih => rw [tallyFields_cons, fieldTally_scalar hv.1 hv.2, ih]

theorem nestingFields_scalars {vs : List Value} {fields : List FieldType}
    (h : ScalarsHold vs fields) (s : Nat) : nestingFields s vs fields = 0 := by
  induction h with
  | nil => rfl
  | cons hv _ ih => rw [nestingFields_cons, fieldNesting_scalar hv.1 hv.2, ih, Nat.max_self]

/-! ### What is read -/

/-- What the decoder can hold for a field: no negative enum, and nothing for an
optional boolean. -/
def DecodedScalar : Ty → Value → Prop
  | .enum, v => ∃ e, v = .enum e ∧ 0 ≤ e.toInt
  | .nullableScalar .enum, v => v = .nullableScalar false .null ∨ ∃ e, v = .enum e ∧ 0 ≤ e.toInt
  | .nullableScalar .bool, v => v = .nullableScalar false .null
  | _, _ => True

theorem decodedScalar_default (ft : FieldType) : DecodedScalar ft.ty (defaultValue ft) := by
  obtain ⟨ty, mv⟩ := ft
  cases ty with
  | «enum» => exact ⟨0, rfl, by decide⟩
  | nullableScalar inner =>
      cases inner with
      | bool => rfl
      | «enum» => exact .inl rfl
      | _ => trivial
  | _ => trivial

theorem decodeScalar_enum {off bit : Nat} {dec : Decoder} {r : Value × Decoder}
    (h : decodeScalar .enum off bit dec = .ok r) : ∃ e, r.1 = .enum e ∧ 0 ≤ e.toInt := by
  obtain ⟨n, -, h⟩ := bind_eq_ok h
  obtain rfl := Except.ok.inj h
  exact ⟨_, rfl, enum_value_nonneg n⟩

/-- The decoders return what they can hold; of an optional boolean, the value
is not decoded. -/
theorem decodedScalar_decode {ty : Ty} (hbool : ty ≠ .nullableScalar .bool) {off bit : Nat}
    {dec : Decoder} {r : Value × Decoder} (h : decodeField ty false off bit dec = .ok r) :
    DecodedScalar ty r.1 := by
  cases ty with
  | «enum» => exact decodeScalar_enum h
  | nullableScalar inner =>
      cases inner with
      | bool => exact absurd rfl hbool
      | «enum» => exact .inr (decodeScalar_enum (show decodeScalar .enum off bit dec = .ok r from h))
      | _ => trivial
  | _ => trivial

/-- The values gathered so far. -/
def Gathered (fields : List FieldType) (scalars : List Value) : Prop :=
  ∀ (i : Nat) (ft : FieldType) (v : Value), fields[i]? = some ft → scalars[i]? = some v →
    DecodedScalar ft.ty v

theorem gathered_default (fields : List FieldType) : Gathered fields (fields.map defaultValue) := by
  intro i ft v hft hv
  rw [List.getElem?_map, hft] at hv
  obtain rfl := Option.some.inj hv
  exact decodedScalar_default ft

theorem Gathered.decodePackedField {fields : List FieldType} {off numBytes version : Nat}
    {pf : PackedField} (hpf : pf ∈ (packed (packFields fields)).packedFields)
    {st st' : DecodedFields} (h : Gathered fields st.scalars)
    (hdec : decodePackedField (fieldDecoders fields) off numBytes version pf st = .ok st') :
    Gathered fields st'.scalars := by
  obtain ⟨ft, hft, -, hnull, hkind⟩ := packed_info hpf
  unfold MojoRs.Wire.decodePackedField at hdec
  dsimp only at hdec
  split at hdec
  · split at hdec
    · obtain ⟨byte, -, hdec⟩ := bind_eq_ok hdec
      obtain rfl := Except.ok.inj hdec
      exact h
    · rename_i hflag
      rw [getElem?_fieldDecoders, hft] at hdec
      dsimp only [Option.map_some] at hdec
      obtain ⟨r, hr, hdec⟩ := bind_eq_ok hdec
      obtain rfl := Except.ok.inj hdec
      intro i ft' v hft' hv
      by_cases hi : i = pf.field.index
      · subst hi
        rw [hft] at hft'
        obtain rfl := Option.some.inj hft'
        have hlen : pf.field.index < st.scalars.length := by
          have hlt := (List.getElem?_eq_some_iff.mp hv).1
          rwa [List.length_set] at hlt
        rw [List.getElem?_set_self hlen] at hv
        obtain rfl := Option.some.inj hv
        refine decodedScalar_decode (fun hty => hflag ⟨?_, ?_⟩) hr
        · rw [hnull, hty]
          rfl
        · rw [hkind hflag, hty]
          rfl
      · rw [List.getElem?_set_ne (Ne.symm hi)] at hv
        exact h i ft' v hft' hv
  · obtain rfl := Except.ok.inj hdec
    exact h

theorem Gathered.decodePackedFields {fields : List FieldType} {off numBytes version : Nat}
    {pfs : List PackedField} (hpfs : ∀ pf ∈ pfs, pf ∈ (packed (packFields fields)).packedFields)
    {st st' : DecodedFields} (h : Gathered fields st.scalars)
    (hdec : decodePackedFields (fieldDecoders fields) off numBytes version pfs st = .ok st') :
    Gathered fields st'.scalars := by
  induction pfs generalizing st with
  | nil =>
      obtain rfl := Except.ok.inj hdec
      exact h
  | cons pf pfs ih =>
      rw [List.forall_mem_cons] at hpfs
      obtain ⟨st₁, h₁, hdec⟩ := bind_eq_ok hdec
      exact ih hpfs.2 (h.decodePackedField hpfs.1 h₁) hdec

theorem assembleFields_eq_some {fts : List FieldType} {scalars : List Value} {presence : List Bool}
    {i : Nat} {ft : FieldType} {v : Value} (hft : fts[i]? = some ft)
    (hv : (assembleFields fts scalars presence)[i]? = some v) :
    ∃ s p, scalars[i]? = some s ∧ v = assembleField ft s p := by
  induction fts generalizing scalars presence i with
  | nil => cases hft
  | cons ft' fts ih =>
      cases scalars with
      | nil => cases hv
      | cons s scalars =>
          cases presence with
          | nil => cases hv
          | cons p presence =>
              cases i with
              | zero =>
                  obtain rfl := Option.some.inj hft
                  obtain rfl := Option.some.inj hv
                  exact ⟨s, p, rfl, rfl⟩
              | succ i => exact ih (i := i) hft hv

/-- A value that was put together from what was read survives. -/
theorem survives_assembled {ft : FieldType} {v s : Value} {p : Bool}
    (hty : ft.ty.isScalarField = true) (h : FieldHolds v ft.ty) (hs : DecodedScalar ft.ty s)
    (hv : v = assembleField ft s p) : Survives v ft.ty := by
  obtain ⟨ty, mv⟩ := ft
  dsimp only at hty h hs ⊢
  cases ty with
  | nullableScalar inner =>
      rcases h with rfl | ⟨w, rfl, hw⟩
      · trivial
      · -- present: what was read for the value is the value
        have hpresent : p = true ∧ s = w := by
          cases p with
          | false => cases hv
          | true => exact ⟨rfl, (Value.nullableScalar.inj hv).2.symm⟩
        obtain ⟨rfl, rfl⟩ := hpresent
        cases inner with
        | bool =>
            rw [show s = .nullableScalar false .null from hs] at hw
            cases hw
        | «enum» =>
            refine ⟨nofun, ?_⟩
            rcases hs with rfl | ⟨e, rfl, he⟩
            · cases hw
            · exact he
        | i8 | u8 | i16 | u16 | i32 | u32 | i64 | u64 | f32 | f64 =>
            refine ⟨nofun, ?_⟩
            cases s with
            | «enum» => cases hw
            | _ => trivial
        | _ => cases hty
  | «enum» =>
      obtain rfl : v = s := hv
      obtain ⟨e, rfl, he⟩ := hs
      exact he
  | bool | i8 | u8 | i16 | u16 | i32 | u32 | i64 | u64 | f32 | f64 =>
      cases v with
      | «enum» => cases h
      | nullableScalar => cases h
      | _ => trivial
  | _ => cases hty

/-! ### The round trip -/

/-- The message is encoded, and validates to the value. -/
def RoundTrips (limits : ValidationLimits) (header : List UInt8) (n : Nat) (ty : Ty)
    (value : Value) : Prop :=
  ∃ msg r, encodeMessage header ty value = .ok msg ∧
    validateMessage msg.bytes n ty limits = .ok r ∧ r.payload = value

section

variable {limits : ValidationLimits} {header : List UInt8} {n : Nat} {fields : List FieldType}
  {sv version : UInt32} {nullable : Bool} {vs : List Value}

/-- What comes back was packed, and put together from the fields that were read
from a struct of a size that was checked. -/
theorem roundTrips_decoded
    (h : RoundTrips limits header n (.struct fields sv nullable) (.struct version vs)) :
    Packable (packFields fields) ∧ ∃ (off numBytes rversion : Nat) (dec : Decoder)
      (st : DecodedFields), UInt32.ofNat rversion = version ∧ rversion < 256 ^ 4 ∧
      checkStructSize fields (packed (packFields fields)) numBytes rversion = .ok () ∧
      decodePackedFields (fieldDecoders fields) off numBytes rversion
        (packed (packFields fields)).packedFields
        ⟨fields.map defaultValue, List.replicate fields.length false, dec⟩ = .ok st ∧
      vs = assembleFields fields st.scalars st.presence := by
  obtain ⟨msg, r, -, hvalid, hpayload⟩ := h
  unfold validateMessage at hvalid
  split at hvalid
  · cases hvalid
  split at hvalid
  · cases hvalid
  obtain ⟨⟨hd, size⟩, -, hvalid⟩ := bind_eq_ok hvalid
  obtain ⟨payloadOffset, -, hvalid⟩ := bind_eq_ok hvalid
  split at hvalid
  · cases hvalid
  dsimp only at hvalid
  obtain ⟨⟨payload, dec⟩, hdec, hvalid⟩ := bind_eq_ok hvalid
  obtain rfl := Except.ok.inj hvalid
  obtain rfl : payload = .struct version vs := hpayload
  obtain ⟨dec₁, -, hdec⟩ := bind_eq_ok hdec
  obtain ⟨⟨payload, dec₂⟩, hdec, heq⟩ := bind_eq_ok hdec
  obtain ⟨rfl, -⟩ := Prod.mk.inj (Except.ok.inj heq)
  unfold decodeStructBody at hdec
  obtain ⟨-, -, hdec⟩ := bind_eq_ok hdec
  obtain ⟨numBytes, -, hdec⟩ := bind_eq_ok hdec
  obtain ⟨rversion, hread, hdec⟩ := bind_eq_ok hdec
  split at hdec
  · cases hdec
  split at hdec
  · cases hdec
  obtain ⟨dec₃, -, hdec⟩ := bind_eq_ok hdec
  obtain ⟨ps, hpack, hdec⟩ := bind_eq_ok hdec
  obtain ⟨hpackable, rfl⟩ := pack_eq_ok hpack
  obtain ⟨⟨⟩, hcheck, hdec⟩ := bind_eq_ok hdec
  obtain ⟨st, hst, hdec⟩ := bind_eq_ok hdec
  obtain ⟨hvalue, -⟩ := Prod.mk.inj (Except.ok.inj hdec)
  obtain ⟨hversion, hvs⟩ := Value.struct.inj hvalue
  exact ⟨hpackable, _, numBytes, rversion, dec₃, st, hversion, readUint_lt hread, hcheck, hst,
    hvs.symm⟩

/-- The values that come back were gathered from what was read. -/
theorem roundTrips_packed
    (h : RoundTrips limits header n (.struct fields sv nullable) (.struct version vs)) :
    Packable (packFields fields) ∧ ∃ scalars presence, Gathered fields scalars ∧
      vs = assembleFields fields scalars presence := by
  obtain ⟨hpackable, off, numBytes, rversion, dec, st, -, -, -, hst, hvs⟩ := roundTrips_decoded h
  have hgathered := (gathered_default fields).decodePackedFields (fun _ hpf => hpf) hst
  exact ⟨hpackable, st.scalars, st.presence, hgathered, hvs⟩

theorem survive_of_roundTrips (hold : ScalarsHold vs fields)
    (h : RoundTrips limits header n (.struct fields sv nullable) (.struct version vs)) :
    AllSurvive vs fields := by
  obtain ⟨-, scalars, presence, hgathered, hvs⟩ := roundTrips_packed h
  refine List.forall₂_iff_get.mpr ⟨hold.length_eq, fun i h₁ h₂ => ?_⟩
  obtain ⟨hty, hfield⟩ := (List.forall₂_iff_get.mp hold).2 i h₁ h₂
  have hft : fields[i]? = some (fields.get ⟨i, h₂⟩) := List.getElem?_eq_getElem h₂
  have hv : (assembleFields fields scalars presence)[i]? = some (vs.get ⟨i, h₁⟩) := by
    rw [← hvs]
    exact List.getElem?_eq_getElem h₁
  obtain ⟨s, p, hs, hassemble⟩ := assembleFields_eq_some hft hv
  exact survives_assembled hty hfield (hgathered i _ s hft hs) hassemble

end

/-- Which values of a struct of scalars come back from a message. -/
theorem round_trip_scalars_iff (limits : ValidationLimits) {h : MessageHeader}
    {header : List UInt8} (n : Nat) {fields : List FieldType} (sv : UInt32) {version : UInt32}
    (nullable : Bool) {vs : List Value} (hs : h.serialize = .ok header)
    (hver : h.version.toNat ≤ 3) (hflags : h.FlagsOk) (hold : ScalarsHold vs fields)
    (hversion : maxVersion fields ≤ version.toNat) (hstruct : structSize fields < sizeFieldLimit)
    (hdepth : 1 ≤ limits.maxRecursionDepth)
    (hsize : header.length + structSize fields ≤ limits.maxMessageSize)
    (hlimit : limits.maxMessageSize < usizeLimit) :
    RoundTrips limits header n (.struct fields sv nullable) (.struct version vs) ↔
      Packable (packFields fields) ∧ AllSurvive vs fields := by
  constructor
  · exact fun hround => ⟨(roundTrips_packed hround).1, survive_of_roundTrips hold hround⟩
  · rintro ⟨hpack, hsurvive⟩
    have hfields := suitsFields_scalars hold hsurvive .exact n version
    refine payload_returns limits hs hver hflags ⟨hpack, hversion, hold.length_eq, hstruct⟩ hfields
      ?_ ?_ ?_ hlimit
    · rw [nestingFields_scalars hold]
      exact Nat.zero_le _
    · rw [nestingFields_scalars hold]
      exact hdepth
    · rw [tallyFields_scalars hold, Nat.add_zero]
      exact hsize

/-- A boolean, an optional byte, an enum, and an optional boolean that is
absent. -/
theorem round_trip_scalars_mixed :
    let h : MessageHeader := ⟨0, 0, 0, 0, 0, none, none, none, none⟩
    ∃ header, h.serialize = .ok header ∧ RoundTrips {} header 0
      (.struct [⟨.bool, none⟩, ⟨.nullableScalar .u8, none⟩, ⟨.enum, none⟩,
        ⟨.nullableScalar .bool, some 1⟩] 1 false)
      (.struct 1 [.bool true, .nullableScalar true (.u8 7), .enum 3,
        .nullableScalar false .null]) := by
  intro h
  obtain ⟨header, hs⟩ : ∃ header, h.serialize = .ok header := ⟨_, rfl⟩
  have hlen : header.length = 24 := (MessageHeader.serialize_eq_ok hs).1
  have hpack : Packable (packFields [⟨.bool, none⟩, ⟨.nullableScalar .u8, none⟩, ⟨.enum, none⟩,
      ⟨.nullableScalar .bool, some 1⟩]) := pack_ok_iff.mp ⟨_, rfl⟩
  have hold : ScalarsHold [.bool true, .nullableScalar true (.u8 7), .enum 3,
      .nullableScalar false .null] [⟨.bool, none⟩, ⟨.nullableScalar .u8, none⟩, ⟨.enum, none⟩,
      ⟨.nullableScalar .bool, some 1⟩] :=
    .cons ⟨rfl, trivial⟩ (.cons ⟨rfl, .inr ⟨_, rfl, rfl⟩⟩ (.cons ⟨rfl, by decide, by decide⟩
      (.cons ⟨rfl, .inl rfl⟩ .nil)))
  have hsurvive : AllSurvive [.bool true, .nullableScalar true (.u8 7), .enum 3,
      .nullableScalar false .null] [⟨.bool, none⟩, ⟨.nullableScalar .u8, none⟩, ⟨.enum, none⟩,
      ⟨.nullableScalar .bool, some 1⟩] :=
    .cons trivial (.cons ⟨nofun, trivial⟩ (.cons (by decide : 0 ≤ (3 : Int64).toInt)
      (.cons trivial .nil)))
  refine ⟨header, hs, (round_trip_scalars_iff {} 0 1 false hs (by decide) (by decide) hold
    (by decide) (by decide) (by decide) ?_ (by decide)).mpr ⟨hpack, hsurvive⟩⟩
  rw [hlen]
  decide

/-- An optional boolean that is present, and a negative enum. -/
theorem scalars_altered :
    let h : MessageHeader := ⟨0, 0, 0, 0, 0, none, none, none, none⟩
    ∃ header, h.serialize = .ok header ∧
      ¬RoundTrips {} header 0 (.struct [⟨.nullableScalar .bool, none⟩] 0 false)
        (.struct 0 [.nullableScalar true (.bool true)]) ∧
      ¬RoundTrips {} header 0 (.struct [⟨.enum, none⟩] 0 false) (.struct 0 [.enum (-1)]) := by
  intro h
  refine ⟨_, rfl, fun hround => ?_, fun hround => ?_⟩
  · have hold : ScalarsHold [.nullableScalar true (.bool true)] [⟨.nullableScalar .bool, none⟩] :=
      .cons ⟨rfl, .inr ⟨_, rfl, trivial⟩⟩ .nil
    cases survive_of_roundTrips hold hround with
    | cons hfirst _ => exact hfirst.1 rfl
  · have hold : ScalarsHold [.enum (-1)] [⟨.enum, none⟩] := .cons ⟨rfl, by decide, by decide⟩ .nil
    cases survive_of_roundTrips hold hround with
    | cons hfirst _ => exact absurd (show 0 ≤ (-1 : Int64).toInt from hfirst) (by decide)

end MojoRs.Wire
