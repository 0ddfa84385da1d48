/-
MojoRs/Wire/DecodedTypes.lean

What the decoder returns has the type that it was decoded at.  `HasType` is the
typing of values: it names no offset and no decoder, only the number of handles
of a message, its length, and the depth that is left.

A field of a struct of version `version` is read if and only if it is not later
than this version, and has its default otherwise; both follow from the check
of the size (`size_covers`).

A nullable scalar is wrapped in a field of a struct only.  There the value of a
nullable boolean is lost: both its packed fields are read as flags, and the value
stays the default.  Schemas without such fields are `Ty.PlainOptionals`.

Main result: `payload_typed`.
-/
import MojoRs.Wire.ClaimedObjects

namespace MojoRs.Wire

open Lib

/-! ### Types of values -/

/-- Where a value is: in a field of a struct, at a field that is read, or in an
array. -/
inductive Place
  | slot
  | field
  | item
  deriving DecidableEq, Repr

/-- The values of a type in a message with `n` handles and `N` bytes, `d` levels
above the deepest that is allowed.  A struct field later than the version of its
struct has its default. -/
inductive HasType (n N : Nat) : Place → Nat → Ty → Value → Prop
  | bool {d : Nat} (b : Bool) : HasType n N .field d .bool (.bool b)
  | scalar {d : Nat} {ty : Ty} {v : Value} (h : ScalarSuits .exact v ty) : HasType n N .field d ty v
  | handle {d : Nat} {index : UInt32} (h : HandleOk n index) :
      HasType n N .field d .handle (.handle index)
  | interface {d : Nat} {index version v : UInt32} (h : HandleOk n index)
      (hversion : version.toNat ≤ v.toNat) :
      HasType n N .field d (.interface version) (.interface index v)
  | associatedInterface {d : Nat} {id version v : UInt32} (hversion : version.toNat ≤ v.toNat) :
      HasType n N .field d (.associatedInterface version) (.associatedInterface id v)
  | string {p : Place} {d : Nat} {nullable : Bool} {s : String} (hnul : NulFree s)
      (hsize : arrayHeaderSize + s.toUTF8.data.toList.length ≤ N) :
      HasType n N p d (.string nullable) (.string s)
  | array {p : Place} {d e : Nat} {element : Ty} {nullable : Bool} {items : List Value}
      (hd : d ≤ e) (hdeeper : p ≠ .item → d < e)
      (hsize : arrayHeaderSize + element.elemSize * items.length ≤ N)
      (hitems : ∀ v ∈ items, HasType n N .item d element v) :
      HasType n N p e (.array element nullable) (.array items)
  | map {p : Place} {d e : Nat} {key value : Ty} {nullable : Bool} {keys values : List Value}
      (hd : d < e) (hlen : keys.length = values.length)
      (hksize : arrayHeaderSize + key.elemSize * keys.length ≤ N)
      (hvsize : arrayHeaderSize + value.elemSize * values.length ≤ N)
      (hkeys : ∀ v ∈ keys, HasType n N .item d key v)
      (hvalues : ∀ v ∈ values, HasType n N .item d value v) :
      HasType n N p e (.map key value nullable) (.map keys values)
  | struct {p : Place} {d e : Nat} {fields : List FieldType} {sv version : UInt32} {nullable : Bool}
      {values : List Value} (hd : d < e) (hpack : Packable (packFields fields))
      (hsize : maxVersion fields ≤ version.toNat → structSize fields ≤ N)
      (hlen : values.length = fields.length)
      (hread : ∀ (i : Nat) (ft : FieldType) (v : Value), fields[i]? = some ft → values[i]? = some v →
        ft.minVersion.getD 0 ≤ version.toNat → HasType n N .slot d ft.ty v)
      (hlater : ∀ (i : Nat) (ft : FieldType) (v : Value), fields[i]? = some ft →
        values[i]? = some v → version.toNat < ft.minVersion.getD 0 → v = defaultValue ft) :
      HasType n N p e (.struct fields sv nullable) (.struct version values)
  | union {d : Nat} {members : List Ty} {nullable inlined : Bool} {tag : UInt32} {member : Ty}
      {value : Value} (hmember : members[tag.toNat]? = some member)
      (hvalue : HasType n N .field d member value) :
      HasType n N .field d (.union members nullable inlined) (.union tag value)
  | null {d : Nat} {ty : Ty} (h : NullSuits .exact n ty) : HasType n N .field d ty .null
  | bare {d : Nat} {inner : Ty} {v : Value} (h : HasType n N .field d inner v) :
      HasType n N .field d (.nullableScalar inner) v
  | inPlace {d : Nat} {element : Ty} {v : Value} (hpod : element.isPod = true)
      (h : HasType n N .field d element v) : HasType n N .item d element v
  | nullItem {d : Nat} {element : Ty} (hpod : element.isPod = false)
      (hnull : element.isNullable = true) : HasType n N .item d element .null
  | slot {d : Nat} {ty : Ty} {v : Value} (hscalar : ty.isNullableScalar = false)
      (h : HasType n N .field d ty v) : HasType n N .slot d ty v
  | absent {d : Nat} {inner : Ty} :
      HasType n N .slot d (.nullableScalar inner) (.nullableScalar false .null)
  | present {d : Nat} {inner : Ty} {v : Value} (hbool : inner.packKind ≠ .bool)
      (h : HasType n N .field d inner v) :
      HasType n N .slot d (.nullableScalar inner) (.nullableScalar true v)

mutual

/-- Types without a nullable boolean in a field of a struct.  What is in an array
is decoded behind a pointer, where there are neither unions nor nullable
scalars. -/
def Ty.PlainOptionals : Place → Ty → Prop
  | _, .struct fields _ _ => FieldsPlain fields
  | _, .array element _ => element.PlainOptionals .item
  | _, .map key value _ => key.PlainOptionals .item ∧ value.PlainOptionals .item
  | .item, .union _ _ _ | .item, .nullableScalar _ => True
  | _, .union members _ _ => MembersPlain members
  | .slot, .nullableScalar inner => inner.packKind ≠ .bool ∧ inner.PlainOptionals .field
  | .field, .nullableScalar inner => inner.PlainOptionals .field
  | _, _ => True

/-- The same of the fields of a struct. -/
def FieldsPlain : List FieldType → Prop
  | [] => True
  | ⟨ty, _⟩ :: fts => ty.PlainOptionals .slot ∧ FieldsPlain fts

/-- The same of the members of a union. -/
def MembersPlain : List Ty → Prop
  | [] => True
  | ty :: tys => ty.PlainOptionals .field ∧ MembersPlain tys

end

/-- A type that is plain in a field is so where the field is read. -/
theorem Ty.PlainOptionals.field {ty : Ty} (h : ty.PlainOptionals .slot) :
    ty.PlainOptionals .field := by
  cases ty with
  | nullableScalar inner => exact h.2
  | _ => exact h

theorem Ty.plainOptionals_of_isPod {ty : Ty} (h : ty.isPod = true) : ty.PlainOptionals .field := by
  cases ty <;> trivial

theorem FieldsPlain.mem {fields : List FieldType} (h : FieldsPlain fields) :
    ∀ ft ∈ fields, ft.ty.PlainOptionals .slot := by
  induction fields with
  | nil => exact nofun
  | cons ft fts ih => exact List.forall_mem_cons.mpr ⟨h.1, ih h.2⟩

/-- A field is no nullable boolean. -/
def FieldOf.Plain (ft : FieldType) : Prop :=
  ft.ty.isNullableScalar = true → ft.ty.packKind ≠ .bool

theorem plain_of_mem (fields : List FieldType) (h : FieldsPlain fields) :
    ∀ ft ∈ fields, ft.Plain := by
  rintro ⟨ty, minVersion⟩ hft hnull
  have hty := h.mem _ hft
  cases ty with
  | nullableScalar inner => exact hty.1
  | _ => cases hnull

/-- The levels that are left to a decoder. -/
def Decoder.room (dec : Decoder) : Nat := dec.maxDepth - dec.depth

/-- A value of a type, to a decoder. -/
def Decoder.Types (dec : Decoder) (p : Place) (ty : Ty) (v : Value) : Prop :=
  HasType dec.handleCount dec.bytes.length p dec.room ty v

/-! ### Decoding functions -/

section Gives

variable {α : Type}

/-- Where a decoding function succeeds, only the frontier has moved, and the
result is good to the decoder. -/
def Gives (P : Decoder → α → Prop) (D : Decoder → WireResult (α × Decoder)) : Prop :=
  ∀ dec a dec', D dec = .ok (a, dec') → dec' = { dec with frontier := dec'.frontier } ∧ P dec a

/-- A decoder of fields of a type. -/
def FieldGives (ty : Ty) (D : FieldDecoder) : Prop :=
  ∀ offset bit, Gives (fun dec => dec.Types .field ty) (D offset bit)

/-- A decoder of objects of a type. -/
def ObjectGives (p : Place) (ty : Ty) (D : Nat → Decoder → WireResult (Value × Decoder)) : Prop :=
  ∀ target, Gives (fun dec => dec.Types p ty) (D target)

variable {P : Decoder → α → Prop} {D : Decoder → WireResult (α × Decoder)}

/-- A decoder that claims nothing. -/
theorem gives_leaf (h : ∀ dec a dec', D dec = .ok (a, dec') → dec' = dec ∧ P dec a) :
    Gives P D := by
  intro dec a dec' hD
  obtain ⟨rfl, hP⟩ := h dec a dec' hD
  exact ⟨rfl, hP⟩

/-- One level deeper, one level less is left. -/
theorem Gives.nested {Q : Decoder → α → Prop} (h : Gives P D)
    (hQ : ∀ dec a, dec.depth < dec.maxDepth → P { dec with depth := dec.depth + 1 } a → Q dec a) :
    Gives Q (·.nested D) := by
  intro dec a dec' hD
  obtain ⟨dec₁, henter, hD⟩ := bind_eq_ok hD
  obtain ⟨⟨a', dec₂⟩, hbody, hD⟩ := bind_eq_ok hD
  obtain ⟨rfl, rfl⟩ := Prod.mk.inj (Except.ok.inj hD)
  rw [Decoder.enter] at henter
  dsimp only at henter
  split_ifs at henter with hdeep
  obtain rfl := Except.ok.inj henter
  obtain ⟨hsame, hP⟩ := h _ _ _ hbody
  refine ⟨?_, hQ dec a' (Nat.lt_of_succ_le (Nat.le_of_not_lt hdeep)) hP⟩
  show ({ dec₂ with depth := dec₂.depth - 1 } : Decoder) = _
  rw [hsame]
  rfl

theorem room_enter {dec : Decoder} (h : dec.depth < dec.maxDepth) :
    ({ dec with depth := dec.depth + 1 } : Decoder).room < dec.room := by
  show dec.maxDepth - (dec.depth + 1) < dec.maxDepth - dec.depth
  omega

end Gives

/-- Behind a pointer there is an object, unless it is null. -/
theorem gives_follow {ty : Ty} {nullable : Bool} {O : Nat → Decoder → WireResult (Value × Decoder)}
    {p : Place} (hobject : ObjectGives p ty O)
    (hnull : nullable = true → ∀ n N d, HasType n N p d ty .null) (offset : Nat) :
    Gives (fun dec => dec.Types p ty) (·.follow offset nullable O) := by
  intro dec v dec' hD
  obtain ⟨pointer, -, hD⟩ := bind_eq_ok hD
  cases pointer with
  | null =>
      dsimp only at hD
      split_ifs at hD with hnullable
      obtain ⟨rfl, rfl⟩ := Prod.mk.inj (Except.ok.inj hD)
      exact ⟨rfl, hnull hnullable _ _ _⟩
  | offset target => exact hobject target dec v dec' hD

/-! ### Strings and arrays -/

theorem toUTF8_of_fromUTF8? {a : ByteArray} {s : String} (h : String.fromUTF8? a = some s) :
    s.toUTF8 = a := by
  unfold String.fromUTF8? at h
  split at h
  · obtain rfl := Option.some.inj h
    rfl
  · cases h

theorem gives_string (p : Place) (nullable : Bool) :
    ObjectGives p (.string nullable) decodeStringAt := by
  intro target dec v dec' h
  obtain ⟨-, -, h⟩ := bind_eq_ok h
  obtain ⟨numBytes, -, h⟩ := bind_eq_ok h
  obtain ⟨numElements, -, h⟩ := bind_eq_ok h
  dsimp only at h
  split_ifs at h with hsmall hlong hnul hterm
  obtain ⟨dec₁, hclaim, h⟩ := bind_eq_ok h
  obtain ⟨-, -, hend, rfl⟩ := claim_eq_ok hclaim
  split at h
  · rename_i s hs
    obtain ⟨rfl, rfl⟩ := Prod.mk.inj (Except.ok.inj h)
    have hdata : s.toUTF8.data.toList =
        (dec.bytes.drop (target + arrayHeaderSize)).take numElements := by
      rw [toUTF8_of_fromUTF8? hs]
    refine ⟨rfl, .string ?_ ?_⟩
    · unfold NulFree
      rwa [hdata]
    · -- the characters are within the object, which is within the message
      have hlen : s.toUTF8.data.toList.length ≤ numElements := by
        rw [hdata]
        exact List.length_take_le ..
      show _ ≤ dec.bytes.length
      omega
  · cases h

/-- The elements of an array. -/
theorem gives_items {element : Ty} {item : Nat → Decoder → WireResult (Value × Decoder)}
    {elemSize : Nat} (hitem : ObjectGives .item element item) : ∀ n off,
    Gives (fun dec vs => vs.length = n ∧ ∀ v ∈ vs, dec.Types .item element v)
      (decodeItems item elemSize n off)
  | 0, _ => gives_leaf fun dec vs dec' h => by
      obtain ⟨rfl, rfl⟩ := Prod.mk.inj (Except.ok.inj h)
      exact ⟨rfl, rfl, nofun⟩
  | n + 1, off => by
      intro dec vs dec' h
      obtain ⟨⟨v, dec₁⟩, hv, h⟩ := bind_eq_ok h
      obtain ⟨⟨ws, dec₂⟩, hws, h⟩ := bind_eq_ok h
      obtain ⟨rfl, rfl⟩ := Prod.mk.inj (Except.ok.inj h)
      obtain ⟨hsame, htyped⟩ := hitem off dec v dec₁ hv
      obtain ⟨hsame', hlen, hrest⟩ := gives_items hitem n (off + elemSize) dec₁ ws _ hws
      rw [hsame] at hsame' hrest
      refine ⟨hsame', congrArg Nat.succ hlen, fun w hw => ?_⟩
      rcases List.mem_cons.mp hw with rfl | hw
      · exact htyped
      · exact hrest w hw

theorem gives_item {element : Ty} {field : FieldDecoder}
    {O : Nat → Decoder → WireResult (Value × Decoder)}
    (hfield : element.isPod = true → FieldGives element field)
    (hobject : ObjectGives .item element O) : ObjectGives .item element (decodeItem element field O) := by
  intro off dec v dec' h
  unfold decodeItem at h
  split_ifs at h with hpod
  · obtain ⟨hsame, htyped⟩ := hfield hpod off 0 dec v dec' h
    exact ⟨hsame, .inPlace hpod htyped⟩
  · rw [Bool.not_eq_true] at hpod
    exact gives_follow hobject (fun hnull _ _ _ => .nullItem hpod hnull) off dec v dec' h

/-- The elements of an array object, which fit into the message. -/
theorem gives_arrayBody {element : Ty} {item : Nat → Decoder → WireResult (Value × Decoder)}
    (hitem : ObjectGives .item element item) (target : Nat) :
    Gives (fun dec vs => arrayHeaderSize + element.elemSize * vs.length ≤ dec.bytes.length ∧
      ∀ v ∈ vs, dec.Types .item element v) (decodeArrayBody element item target) := by
  intro dec vs dec' h
  obtain ⟨-, -, h⟩ := bind_eq_ok h
  obtain ⟨numBytes, -, h⟩ := bind_eq_ok h
  obtain ⟨numElements, -, h⟩ := bind_eq_ok h
  obtain ⟨raw, hraw, h⟩ := bind_eq_ok h
  obtain ⟨minBytes, hmin, h⟩ := bind_eq_ok h
  obtain ⟨rfl, -⟩ := checkedMul_eq_ok hraw
  obtain ⟨rfl, -⟩ := checkedAdd_eq_ok hmin
  split_ifs at h with hsmall hlong
  obtain ⟨dec₁, hclaim, h⟩ := bind_eq_ok h
  obtain ⟨-, -, hend, rfl⟩ := claim_eq_ok hclaim
  obtain ⟨hsame, rfl, htyped⟩ := gives_items hitem _ _ _ _ _ h
  refine ⟨hsame, ?_, htyped⟩
  omega

theorem gives_arrayValue {element : Ty} {item : Nat → Decoder → WireResult (Value × Decoder)}
    (hitem : ObjectGives .item element item) (target : Nat) :
    Gives (fun dec v => ∃ items, v = .array items ∧
      arrayHeaderSize + element.elemSize * items.length ≤ dec.bytes.length ∧
      ∀ w ∈ items, dec.Types .item element w) (decodeArrayValue element item target) := by
  intro dec v dec' h
  obtain ⟨⟨vs, dec₁⟩, hvs, h⟩ := bind_eq_ok h
  obtain ⟨rfl, rfl⟩ := Prod.mk.inj (Except.ok.inj h)
  obtain ⟨hsame, hitems⟩ := gives_arrayBody hitem target dec vs _ hvs
  exact ⟨hsame, vs, rfl, hitems⟩

/-- An array in a field is a level of its own; one in an array is not. -/
theorem gives_array {element : Ty} {nullable : Bool}
    {item : Nat → Decoder → WireResult (Value × Decoder)} (hitem : ObjectGives .item element item) :
    ObjectGives .field (.array element nullable)
        (fun target dec => dec.nested (decodeArrayValue element item target)) ∧
      ObjectGives .item (.array element nullable) (decodeArrayValue element item) := by
  constructor
  · intro target
    apply (gives_arrayValue hitem target).nested
    rintro dec v hdeep ⟨items, rfl, hsize, hitems⟩
    have hd := room_enter hdeep
    exact .array (Nat.le_of_lt hd) (fun _ => hd) hsize hitems
  · intro target dec v dec' h
    obtain ⟨hsame, items, rfl, hsize, hitems⟩ := gives_arrayValue hitem target dec v dec' h
    exact ⟨hsame, .array (Nat.le_refl _) (absurd rfl) hsize hitems⟩

/-- A map is a level of its own. -/
theorem gives_map {p : Place} {key value : Ty} {nullable : Bool}
    {kitem vitem : Nat → Decoder → WireResult (Value × Decoder)} (hk : ObjectGives .item key kitem)
    (hv : ObjectGives .item value vitem) : ObjectGives p (.map key value nullable)
      (decodeMapAt (decodeArrayBody key kitem) (decodeArrayBody value vitem)) := by
  intro target
  apply Gives.nested (P := fun dec v => ∃ keys values, v = .map keys values ∧
    keys.length = values.length ∧
    (arrayHeaderSize + key.elemSize * keys.length ≤ dec.bytes.length ∧
      ∀ w ∈ keys, dec.Types .item key w) ∧
    arrayHeaderSize + value.elemSize * values.length ≤ dec.bytes.length ∧
      ∀ w ∈ values, dec.Types .item value w)
  · intro dec v dec' h
    obtain ⟨-, -, h⟩ := bind_eq_ok h
    obtain ⟨numBytes, -, h⟩ := bind_eq_ok h
    split_ifs at h
    obtain ⟨dec₁, hclaim, h⟩ := bind_eq_ok h
    obtain ⟨-, -, -, rfl⟩ := claim_eq_ok hclaim
    obtain ⟨kp, -, h⟩ := bind_eq_ok h
    obtain ⟨vp, -, h⟩ := bind_eq_ok h
    rcases kp with - | ko
    · cases h
    rcases vp with - | vo
    · cases h
    obtain ⟨⟨ks, dec₂⟩, hks, h⟩ := bind_eq_ok h
    obtain ⟨⟨vs, dec₃⟩, hvs, h⟩ := bind_eq_ok h
    dsimp only at h
    split_ifs at h with hlen
    obtain ⟨rfl, rfl⟩ := Prod.mk.inj (Except.ok.inj h)
    obtain ⟨hsame, hkeys⟩ := gives_arrayBody hk ko _ _ _ hks
    obtain ⟨hsame', hvalues⟩ := gives_arrayBody hv vo _ _ _ hvs
    rw [hsame] at hsame' hvalues
    exact ⟨hsame', ks, vs, rfl, not_not.mp hlen, hkeys, hvalues⟩
  · rintro dec v hdeep ⟨keys, values, rfl, hlen, ⟨hksize, hkeys⟩, hvsize, hvalues⟩
    exact .map (room_enter hdeep) hlen hksize hvsize hkeys hvalues

/-! ### Structs -/

/-- A struct is long enough for the fields of its version. -/
theorem size_covers {fields : List FieldType} {numBytes version : Nat}
    (hpack : Packable (packFields fields))
    (h : checkStructSize fields (packed (packFields fields)) numBytes version = .ok ())
    {pf : PackedField} (hpf : pf ∈ (packed (packFields fields)).packedFields)
    (hversion : pf.minVersion ≤ version) :
    structHeaderSize + pf.offset + pf.size ≤ numBytes := by
  unfold checkStructSize at h
  split at h
  · obtain ⟨n, hn, hsize⟩ := exists_numBytesForVersion hpack version
    rw [hn] at h
    dsimp only at h
    split_ifs at h with hne
    have hcovers := hsize.covers pf hpf hversion
    simp only [payloadSizeUpToField] at hcovers
    omega
  · split_ifs at h with hsmall
    exact Nat.le_trans (packed_fits hpf) (Nat.le_of_not_lt hsmall)

section Fields

variable {fields : List FieldType} {offset numBytes version : Nat}

/-- What the loop over some packed fields does to the values gathered so far: a
field that is read as a value gets one of its type, and nothing else changes but
the flags of the fields that are read. -/
structure FieldsRead (fields : List FieldType) (version : Nat) (pfs : List PackedField)
    (st st' : DecodedFields) : Prop where
  dec : st'.dec = { st.dec with frontier := st'.dec.frontier }
  scalarCount : st'.scalars.length = st.scalars.length
  presenceCount : st'.presence.length = st.presence.length
  scalarKept : ∀ i, (∀ pf ∈ pfs, pf.field.index = i → pf.IsFlag ∨ version < pf.minVersion) →
    st'.scalars[i]? = st.scalars[i]?
  presenceKept : ∀ i, (∀ pf ∈ pfs, pf.field.index = i → version < pf.minVersion) →
    st'.presence[i]? = st.presence[i]?
  change : ∀ (i : Nat) (ft : FieldType) (v : Value), fields[i]? = some ft → st'.scalars[i]? = some v →
    st.dec.Types .field ft.ty.unboxScalar v ∨ st.scalars[i]? = some v
  typed : ∀ pf ∈ pfs, ¬pf.IsFlag → pf.minVersion ≤ version → ∀ (ft : FieldType) (v : Value),
    fields[pf.field.index]? = some ft → st'.scalars[pf.field.index]? = some v →
      st.dec.Types .field ft.ty.unboxScalar v

theorem FieldsRead.nil (st : DecodedFields) : FieldsRead fields version [] st st where
  dec := rfl
  scalarCount := rfl
  presenceCount := rfl
  scalarKept _ _ := rfl
  presenceKept _ _ := rfl
  change _ _ _ _ hv := .inr hv
  typed _ hpf := nomatch hpf

theorem FieldsRead.cons {pf : PackedField} {pfs : List PackedField} {st st₁ st' : DecodedFields}
    (h : FieldsRead fields version [pf] st st₁) (h' : FieldsRead fields version pfs st₁ st') :
    FieldsRead fields version (pf :: pfs) st st' := by
  have htypes (ty : Ty) (v : Value) : st₁.dec.Types .field ty v → st.dec.Types .field ty v := by
    rw [h.dec]
    exact id
  constructor
  · rw [h'.dec, h.dec]
  · exact h'.scalarCount.trans h.scalarCount
  · exact h'.presenceCount.trans h.presenceCount
  · intro i hi
    rw [List.forall_mem_cons] at hi
    exact (h'.scalarKept i hi.2).trans (h.scalarKept i (List.forall_mem_singleton.mpr hi.1))
  · intro i hi
    rw [List.forall_mem_cons] at hi
    exact (h'.presenceKept i hi.2).trans (h.presenceKept i (List.forall_mem_singleton.mpr hi.1))
  · intro i ft v hft hv
    rcases h'.change i ft v hft hv with htyped | hold
    · exact .inl (htypes _ _ htyped)
    · exact h.change i ft v hft hold
  · intro pf' hpf' hflag hversion ft v hft hv
    rcases List.mem_cons.mp hpf' with rfl | hpf'
    · -- what a later field puts in its place has the same type
      rcases h'.change _ ft v hft hv with htyped | hold
      · exact htypes _ _ htyped
      · exact h.typed _ (List.mem_singleton_self _) hflag hversion ft v hft hold
    · exact htypes _ _ (h'.typed pf' hpf' hflag hversion ft v hft hv)

/-- One packed field. -/
theorem fieldsRead_packedField
    (hfields : ∀ ft ∈ fields, FieldGives ft.ty.unboxScalar (decodeField ft.ty false))
    {pf : PackedField} (hpf : pf ∈ (packed (packFields fields)).packedFields)
    (hcovers : pf.minVersion ≤ version → structHeaderSize + pf.offset + pf.size ≤ numBytes)
    {st st' : DecodedFields}
    (h : decodePackedField (fieldDecoders fields) offset numBytes version pf st = .ok st') :
    FieldsRead fields version [pf] st st' := by
  unfold decodePackedField at h
  dsimp only at h
  by_cases hread : pf.minVersion ≤ version
  · rw [if_pos ⟨hread, hcovers hread⟩] at h
    by_cases hflag : pf.IsFlag
    · rw [if_pos hflag] at h
      obtain ⟨byte, -, h⟩ := bind_eq_ok h
      obtain rfl := Except.ok.inj h
      refine ⟨rfl, rfl, List.length_set, fun _ _ => rfl, fun i hi => ?_, fun _ _ _ _ => .inr, ?_⟩
      · apply List.getElem?_set_ne
        rintro rfl
        exact Nat.not_lt.mpr hread (hi pf (List.mem_singleton_self _) rfl)
      · intro pf' hpf' hflag'
        obtain rfl := List.mem_singleton.mp hpf'
        exact absurd hflag hflag'
    · obtain ⟨ft, hft, -⟩ := packed_info hpf
      rw [if_neg hflag, getElem?_fieldDecoders, hft] at h
      obtain ⟨⟨v, dec⟩, hdec, h⟩ := bind_eq_ok h
      obtain rfl := Except.ok.inj h
      obtain ⟨hsame, htyped⟩ := hfields ft (List.mem_of_getElem? hft) _ _ _ _ _ hdec
      -- the value that is now in the place of the field
      have hset (ft' : FieldType) (w : Value) (hft' : fields[pf.field.index]? = some ft')
          (hw : (st.scalars.set pf.field.index v)[pf.field.index]? = some w) :
          st.dec.Types .field ft'.ty.unboxScalar w := by
        obtain rfl := Option.some.inj (hft.symm.trans hft')
        have hlt := (List.getElem?_eq_some_iff.mp hw).1
        rw [List.length_set] at hlt
        rw [List.getElem?_set_self hlt] at hw
        obtain rfl := Option.some.inj hw
        exact htyped
      refine ⟨hsame, List.length_set, rfl, fun i hi => ?_, fun _ _ => rfl, ?_, ?_⟩
      · apply List.getElem?_set_ne
        rintro rfl
        rcases hi pf (List.mem_singleton_self _) rfl with hf | hlt
        · exact hflag hf
        · exact Nat.not_lt.mpr hread hlt
      · intro i ft' w hft' hw
        by_cases hi : pf.field.index = i
        · subst hi
          exact .inl (hset ft' w hft' hw)
        · exact .inr ((List.getElem?_set_ne hi).symm.trans hw)
      · intro pf' hpf' _ _ ft' w hft' hw
        obtain rfl := List.mem_singleton.mp hpf'
        exact hset ft' w hft' hw
  · rw [if_neg fun hcond => hread hcond.1] at h
    obtain rfl := Except.ok.inj h
    refine ⟨rfl, rfl, rfl, fun _ _ => rfl, fun _ _ => rfl, fun _ _ _ _ => .inr, ?_⟩
    intro pf' hpf' _ hread'
    obtain rfl := List.mem_singleton.mp hpf'
    exact absurd hread' hread

/-- All packed fields. -/
theorem fieldsRead_packedFields
    (hfields : ∀ ft ∈ fields, FieldGives ft.ty.unboxScalar (decodeField ft.ty false))
    {pfs : List PackedField} (hpfs : ∀ pf ∈ pfs, pf ∈ (packed (packFields fields)).packedFields)
    (hcovers : ∀ pf ∈ (packed (packFields fields)).packedFields, pf.minVersion ≤ version →
      structHeaderSize + pf.offset + pf.size ≤ numBytes) {st st' : DecodedFields}
    (h : decodePackedFields (fieldDecoders fields) offset numBytes version pfs st = .ok st') :
    FieldsRead fields version pfs st st' := by
  induction pfs generalizing st with
  | nil =>
      obtain rfl := Except.ok.inj h
      exact .nil st
  | cons pf pfs ih =>
      rw [List.forall_mem_cons] at hpfs
      obtain ⟨st₁, hfield, h⟩ := bind_eq_ok h
      have hfirst := fieldsRead_packedField hfields hpfs.1 (hcovers pf hpfs.1) hfield
      exact hfirst.cons (ih hpfs.2 h)

/-- The packed fields of a field have its version. -/
theorem packed_of_index {pf : PackedField} {i : Nat} {ft : FieldType}
    (hpf : pf ∈ (packed (packFields fields)).packedFields) (hi : pf.field.index = i)
    (hft : fields[i]? = some ft) : pf.minVersion = ft.minVersion.getD 0 := by
  obtain ⟨ft', hft', hversion, -⟩ := packed_info hpf
  rw [hi, hft] at hft'
  obtain rfl := Option.some.inj hft'
  exact hversion

/-- A field that is read as a value. -/
theorem exists_value {i : Nat} {ft : FieldType} (hft : fields[i]? = some ft)
    (h : ft.Plain) :
    ∃ pf ∈ (packed (packFields fields)).packedFields, pf.field.index = i ∧ ¬pf.IsFlag := by
  have hget : (packFields fields)[i]? = some (ft.toField i) := by
    rw [packFields, getElem?_packFieldsFrom, hft, Nat.zero_add]
    rfl
  cases hnull : ft.ty.isNullableScalar with
  | false =>
      obtain ⟨pf, hpf, hfield, -⟩ := packed_plain hget hnull
      refine ⟨pf, hpf, by rw [hfield]; rfl, fun hflag => ?_⟩
      rw [PackedField.IsFlag, hfield] at hflag
      exact absurd (hflag.1.symm.trans hnull) (by decide)
  | true =>
      obtain ⟨pf, hpf, hfield, -⟩ := packed_value hget hnull
      refine ⟨pf, hpf, by rw [hfield]; rfl, fun hflag => ?_⟩
      rw [PackedField.IsFlag, hfield] at hflag
      exact h hnull hflag.2

/-- The value of a field that has been read. -/
theorem slot_typed {dec : Decoder} {ft : FieldType} {scalar : Value} (present : Bool)
    (hplain : ft.Plain) (htyped : dec.Types .field ft.ty.unboxScalar scalar) :
    dec.Types .slot ft.ty (assembleField ft scalar present) := by
  obtain ⟨ty, minVersion⟩ := ft
  cases hnull : ty.isNullableScalar with
  | false =>
      rw [assembleField, hnull, if_neg Bool.false_ne_true]
      have hbare : ty.unboxScalar = ty := by
        cases ty <;> first | rfl | cases hnull
      dsimp only at htyped
      rw [hbare] at htyped
      exact .slot hnull htyped
  | true =>
      cases ty with
      | nullableScalar inner =>
          rw [assembleField, if_pos hnull]
          cases present with
          | false => exact .absent
          | true => exact .present (hplain rfl) htyped
      | _ => cases hnull

/-- What a struct is, to a decoder of its fields. -/
structure StructTyped (dec : Decoder) (fields : List FieldType) (version : UInt32)
    (values : List Value) : Prop where
  packable : Packable (packFields fields)
  size : maxVersion fields ≤ version.toNat → structSize fields ≤ dec.bytes.length
  count : values.length = fields.length
  read : ∀ (i : Nat) (ft : FieldType) (v : Value), fields[i]? = some ft → values[i]? = some v →
    ft.minVersion.getD 0 ≤ version.toNat → dec.Types .slot ft.ty v
  later : ∀ (i : Nat) (ft : FieldType) (v : Value), fields[i]? = some ft → values[i]? = some v →
    version.toNat < ft.minVersion.getD 0 → v = defaultValue ft

theorem gives_structBody (hplain : ∀ ft ∈ fields, ft.Plain)
    (hfields : ∀ ft ∈ fields, FieldGives ft.ty.unboxScalar (decodeField ft.ty false))
    (claimSelf : Bool) (offset : Nat) :
    Gives (fun dec v => ∃ version values, v = .struct version values ∧
      StructTyped dec fields version values)
      (decodeStructBody fields (fieldDecoders fields) claimSelf offset) := by
  intro dec v dec' h
  obtain ⟨-, -, h⟩ := bind_eq_ok h
  obtain ⟨numBytes, -, h⟩ := bind_eq_ok h
  obtain ⟨version, hversion, h⟩ := bind_eq_ok h
  split_ifs at h with hsmall hlong
  obtain ⟨dec₁, hclaim, h⟩ := bind_eq_ok h
  obtain ⟨pk, hpack, h⟩ := bind_eq_ok h
  obtain ⟨hpackable, rfl⟩ := pack_eq_ok hpack
  obtain ⟨⟨⟩, hcheck, h⟩ := bind_eq_ok h
  obtain ⟨st, hst, h⟩ := bind_eq_ok h
  obtain ⟨rfl, rfl⟩ := Prod.mk.inj (Except.ok.inj h)
  have hsame : dec₁ = { dec with frontier := dec₁.frontier } := by
    cases claimSelf with
    | false =>
        obtain rfl := Except.ok.inj hclaim
        rfl
    | true =>
        obtain ⟨-, -, -, rfl⟩ := claim_eq_ok hclaim
        rfl
  have hread := fieldsRead_packedFields hfields (fun _ hpf => hpf)
    (fun _ => size_covers hpackable hcheck) hst
  have htoNat : (UInt32.ofNat version).toNat = version :=
    UInt32.toNat_ofNat_of_lt' (readUint_lt hversion)
  have hscalars : st.scalars.length = fields.length :=
    hread.scalarCount.trans (List.length_map ..)
  have hpresence : st.presence.length = fields.length :=
    hread.presenceCount.trans List.length_replicate
  -- a field and what has been gathered for it
  have hget (i : Nat) (ft : FieldType) (v : Value) (hft : fields[i]? = some ft)
      (hv : (assembleFields fields st.scalars st.presence)[i]? = some v) :
      ∃ scalar present, st.scalars[i]? = some scalar ∧ st.presence[i]? = some present ∧
        v = assembleField ft scalar present := by
    have hlt := (List.getElem?_eq_some_iff.mp hft).1
    have hs := List.getElem?_eq_getElem (hscalars ▸ hlt)
    have hp := List.getElem?_eq_getElem (hpresence ▸ hlt)
    refine ⟨_, _, hs, hp, ?_⟩
    rw [getElem?_assembleFields hft hs hp] at hv
    exact (Option.some.inj hv).symm
  refine ⟨?_, _, _, rfl, hpackable, ?_, length_assembleFields hscalars hpresence, ?_, ?_⟩
  · rw [hread.dec, hsame]
  · intro hmax
    rw [htoNat] at hmax
    refine Nat.le_trans (Nat.le_of_not_lt fun hlt => ?_)
      (Nat.le_trans (Nat.le_add_left _ offset) (Nat.le_of_not_lt hlong))
    rw [checkStructSize, numBytesForVersion_full hpackable hmax] at hcheck
    dsimp only at hcheck
    split_ifs at hcheck with hle hne hfull
    · exact Nat.ne_of_lt hlt (not_not.mp hne)
    · exact hfull hlt
  · intro i ft v hft hv hle
    rw [htoNat] at hle
    obtain ⟨scalar, present, hs, hp, rfl⟩ := hget i ft v hft hv
    have hfield := hplain ft (List.mem_of_getElem? hft)
    obtain ⟨pf, hpf, rfl, hflag⟩ := exists_value hft hfield
    have htyped := hread.typed pf hpf hflag ((packed_of_index hpf rfl hft).trans_le hle) ft
      scalar hft hs
    rw [hsame] at htyped
    exact slot_typed present hfield htyped
  · intro i ft v hft hv hlt
    rw [htoNat] at hlt
    obtain ⟨scalar, present, hs, hp, rfl⟩ := hget i ft v hft hv
    have hlater : ∀ pf ∈ (packed (packFields fields)).packedFields, pf.field.index = i →
        version < pf.minVersion := fun pf hpf hi => by
      rw [packed_of_index hpf hi hft]
      exact hlt
    have hkept := hread.scalarKept i fun pf hpf hi => .inr (hlater pf hpf hi)
    have hkept' := hread.presenceKept i hlater
    rw [hs, List.getElem?_map, hft] at hkept
    rw [hp, List.getElem?_replicate, if_pos (List.getElem?_eq_some_iff.mp hft).1] at hkept'
    obtain rfl := Option.some.inj hkept
    obtain rfl := Option.some.inj hkept'
    exact assembleField_default ft

/-- The body of a struct is a struct value. -/
theorem structBody_eq_ok {decoders : List FieldDecoder} {claimSelf : Bool} {dec dec' : Decoder}
    {v : Value} (h : decodeStructBody fields decoders claimSelf offset dec = .ok (v, dec')) :
    ∃ version values, v = .struct version values := by
  obtain ⟨-, -, h⟩ := bind_eq_ok h
  obtain ⟨numBytes, -, h⟩ := bind_eq_ok h
  obtain ⟨version, -, h⟩ := bind_eq_ok h
  split_ifs at h
  obtain ⟨dec₁, -, h⟩ := bind_eq_ok h
  obtain ⟨pk, -, h⟩ := bind_eq_ok h
  obtain ⟨⟨⟩, -, h⟩ := bind_eq_ok h
  obtain ⟨st, -, h⟩ := bind_eq_ok h
  obtain ⟨rfl, -⟩ := Prod.mk.inj (Except.ok.inj h)
  exact ⟨_, _, rfl⟩

/-- A struct is a level of its own. -/
theorem gives_struct {p : Place} {sv : UInt32} {nullable : Bool}
    (hplain : ∀ ft ∈ fields, ft.Plain)
    (hfields : ∀ ft ∈ fields, FieldGives ft.ty.unboxScalar (decodeField ft.ty false))
    (claimSelf : Bool) : ObjectGives p (.struct fields sv nullable)
      (fun offset dec => dec.nested (decodeStructBody fields (fieldDecoders fields) claimSelf offset)) := by
  intro offset
  apply (gives_structBody hplain hfields claimSelf offset).nested
  rintro dec v hdeep ⟨version, values, rfl, h⟩
  exact .struct (room_enter hdeep) h.packable h.size h.count h.read h.later

end Fields

/-! ### Unions and scalars -/

theorem gives_union {members : List Ty} {nullable inlined : Bool}
    (hmembers : ∀ ty ∈ members, FieldGives ty (decodeField ty true)) (claimSelf : Bool) :
    ObjectGives .field (.union members nullable inlined)
      (decodeUnionAt (memberDecoders members) claimSelf) := by
  intro target dec v dec' h
  obtain ⟨-, -, h⟩ := bind_eq_ok h
  obtain ⟨size, -, h⟩ := bind_eq_ok h
  obtain ⟨tag, htag, h⟩ := bind_eq_ok h
  rw [getElem?_memberDecoders] at h
  cases hty : members[tag]? with
  | none =>
      rw [hty] at h
      cases h
  | some ty =>
      rw [hty] at h
      -- only a union that is claimed has its size checked
      obtain ⟨dec₁, hsame, h⟩ : ∃ dec₁, dec₁ = { dec with frontier := dec₁.frontier } ∧
          (decodeField ty true (target + 8) 0 dec₁ >>= fun r =>
            .ok (Value.union (UInt32.ofNat tag) r.1, r.2)) = .ok (v, dec') := by
        dsimp only [Option.map_some] at h
        split_ifs at h
        · cases h
        · obtain ⟨dec₁, hclaim, h⟩ := bind_eq_ok h
          obtain ⟨-, -, -, rfl⟩ := claim_eq_ok hclaim
          exact ⟨_, rfl, h⟩
        · exact ⟨dec, rfl, h⟩
      obtain ⟨⟨value, dec₂⟩, hvalue, h⟩ := bind_eq_ok h
      obtain ⟨rfl, rfl⟩ := Prod.mk.inj (Except.ok.inj h)
      obtain ⟨hsame', htyped⟩ := hmembers ty (List.mem_of_getElem? hty) _ _ _ _ _ hvalue
      rw [hsame] at hsame' htyped
      have hmember : members[(UInt32.ofNat tag).toNat]? = some ty := by
        rw [UInt32.toNat_ofNat_of_lt' (readUint_lt htag)]
        exact hty
      exact ⟨hsame', .union hmember htyped⟩

theorem scalarSuits_of_scalarValue {ty : Ty} {k : Nat} {v : Value} (h : scalarValue ty k = some v) :
    ScalarSuits .exact v ty := by
  unfold scalarValue at h
  split at h <;> cases h
  all_goals refine ⟨rfl, fun _ => ?_⟩
  all_goals try trivial
  -- an enum value is read from 32 bits
  dsimp only
  rw [UInt64.toUInt64_toInt64, UInt32.toUInt32_toUInt64]

theorem gives_scalar (ty : Ty) : FieldGives ty (decodeScalar ty) := by
  intro offset bit
  apply gives_leaf
  intro dec v dec' h
  obtain ⟨k, -, h⟩ := bind_eq_ok h
  cases hv : scalarValue ty k with
  | none =>
      rw [hv] at h
      cases h
  | some w =>
      rw [hv] at h
      obtain ⟨rfl, rfl⟩ := Prod.mk.inj (Except.ok.inj h)
      exact ⟨rfl, .scalar (scalarSuits_of_scalarValue hv)⟩

/-- A version that is raised to the one of the schema. -/
theorem le_raised {v version : Nat} (h : v < 2 ^ 32) (h' : version < 2 ^ 32) :
    version ≤ (UInt32.ofNat (max v version)).toNat := by
  rw [UInt32.toNat_ofNat_of_lt' (Nat.max_lt.mpr ⟨h, h'⟩)]
  exact Nat.le_max_right ..

theorem readPair_lt {dec : Decoder} {off : Nat} {p : Nat × Nat} (h : readPair dec off = .ok p) :
    p.2 < 2 ^ 32 := by
  obtain ⟨a, -, h⟩ := bind_eq_ok h
  obtain ⟨b, hb, h⟩ := bind_eq_ok h
  obtain rfl := Except.ok.inj h
  exact readUint_lt hb

/-! ### All types -/

/-- A decoder of a type is one of the type without the flag, too. -/
def FieldDecodes (ty : Ty) (D : FieldDecoder) : Prop :=
  FieldGives ty D ∧ FieldGives ty.unboxScalar D

theorem FieldDecodes.plain {ty : Ty} {D : FieldDecoder} (hplain : ty.unboxScalar = ty)
    (h : FieldGives ty D) : FieldDecodes ty D :=
  ⟨h, hplain.symm ▸ h⟩

mutual

theorem decodeField_gives : ∀ (ty : Ty) (_ : ty.PlainOptionals .field) (payload : Bool),
    FieldDecodes ty (decodeField ty payload)
  -- behind a pointer, null only where the type allows it
  | .string _, _, _ => .plain rfl fun offset _ =>
      gives_follow (gives_string .field _) (fun hnull _ _ _ => .null hnull) offset
  | .array element _, hty, _ => .plain rfl fun offset _ =>
      gives_follow (gives_array (gives_item
        (fun hpod => (decodeField_gives element (Ty.plainOptionals_of_isPod hpod) false).1)
        (decodeArrayElement_gives element hty))).1 (fun hnull _ _ _ => .null hnull) offset
  | .map key value _, hty, _ => .plain rfl fun offset _ =>
      gives_follow
        (gives_map
          (gives_item
            (fun hpod => (decodeField_gives key (Ty.plainOptionals_of_isPod hpod) false).1)
            (decodeArrayElement_gives key hty.1))
          (gives_item
            (fun hpod => (decodeField_gives value (Ty.plainOptionals_of_isPod hpod) false).1)
            (decodeArrayElement_gives value hty.2)))
        (fun hnull _ _ _ => .null hnull) offset
  -- a struct is in place or behind a pointer
  | .struct fields version nullable, hty, payload => by
      have hplain := plain_of_mem fields hty
      have hfields := fieldDecoders_give fields hty
      refine .plain rfl fun offset bit dec v dec' h => ?_
      rw [decodeField] at h
      split_ifs at h
      · exact gives_follow (gives_struct hplain hfields true) (fun hnull _ _ _ => .null hnull) offset
          dec v dec' h
      · exact gives_struct hplain hfields false offset dec v dec' h
  | .union members nullable inlined, hty, _ => by
      have hmembers := memberDecoders_give members hty
      refine .plain rfl fun offset bit dec v dec' h => ?_
      rw [decodeField] at h
      split_ifs at h with hinlined
      · exact gives_union hmembers false offset dec v dec' h
      · exact gives_follow (gives_union hmembers true)
          (fun hnull _ _ _ => .null ⟨hnull, fun h => absurd h hinlined⟩) offset dec v dec' h
  -- the slot holds the bare scalar, the flag is read by the struct
  | .nullableScalar inner, hty, _ =>
      have h := (decodeField_gives inner hty false).1
      ⟨fun offset bit dec v dec' hD => (h offset bit dec v dec' hD).imp_right .bare, h⟩
  -- leaves: read from the slot, handles and versions checked against the message
  | .bool, _, _ => .plain rfl fun _ _ => gives_leaf fun dec v dec' h => by
      obtain ⟨byte, -, h⟩ := bind_eq_ok h
      obtain ⟨rfl, rfl⟩ := Prod.mk.inj (Except.ok.inj h)
      exact ⟨rfl, .bool _⟩
  | .handle, _, _ => .plain rfl fun _ _ => gives_leaf fun dec v dec' h => by
      obtain ⟨index, hread, h⟩ := bind_eq_ok h
      obtain ⟨⟨⟩, hcheck, h⟩ := bind_eq_ok h
      obtain ⟨rfl, rfl⟩ := Prod.mk.inj (Except.ok.inj h)
      exact ⟨rfl, .handle (checkHandle_eq_ok hread hcheck)⟩
  | .interface version, _, _ => .plain rfl fun _ _ => gives_leaf fun dec v dec' h => by
      obtain ⟨p, hread, h⟩ := bind_eq_ok h
      obtain ⟨⟨⟩, hcheck, h⟩ := bind_eq_ok h
      obtain ⟨rfl, rfl⟩ := Prod.mk.inj (Except.ok.inj h)
      exact ⟨rfl, .interface (checkHandle_eq_ok (readPair_eq_ok hread) hcheck)
        (le_raised (readPair_lt hread) version.toNat_lt)⟩
  | .associatedInterface version, _, _ => .plain rfl fun _ _ => gives_leaf fun dec v dec' h => by
      obtain ⟨p, hread, h⟩ := bind_eq_ok h
      obtain ⟨rfl, rfl⟩ := Prod.mk.inj (Except.ok.inj h)
      exact ⟨rfl, .associatedInterface (le_raised (readPair_lt hread) version.toNat_lt)⟩
  | .i8, _, _ | .u8, _, _ | .i16, _, _ | .u16, _, _ | .i32, _, _ | .u32, _, _ | .i64, _, _
  | .u64, _, _ | .f32, _, _ | .f64, _, _ | .enum, _, _ | .associatedEndpoint, _, _ =>
      .plain rfl (gives_scalar _)

theorem decodeArrayElement_gives : ∀ (ty : Ty) (_ : ty.PlainOptionals .item),
    ObjectGives .item ty (decodeArrayElement ty)
  | .struct fields _ _, hty =>
      gives_struct (plain_of_mem fields hty) (fieldDecoders_give fields hty) true
  | .string _, _ => gives_string .item _
  | .map key value _, hty =>
      gives_map
        (gives_item (fun hpod => (decodeField_gives key (Ty.plainOptionals_of_isPod hpod) false).1)
          (decodeArrayElement_gives key hty.1))
        (gives_item
          (fun hpod => (decodeField_gives value (Ty.plainOptionals_of_isPod hpod) false).1)
          (decodeArrayElement_gives value hty.2))
  | .array inner _, hty =>
      (gives_array (gives_item
        (fun hpod => (decodeField_gives inner (Ty.plainOptionals_of_isPod hpod) false).1)
        (decodeArrayElement_gives inner hty))).2
  | .bool, _ | .i8, _ | .u8, _ | .i16, _ | .u16, _ | .i32, _ | .u32, _ | .i64, _ | .u64, _
  | .f32, _ | .f64, _ | .enum, _ | .handle, _ | .union .., _ | .interface .., _
  | .associatedEndpoint, _ | .associatedInterface .., _ | .nullableScalar .., _ =>
      fun _ => gives_leaf fun _ _ _ h => nomatch h

theorem fieldDecoders_give : ∀ (fields : List FieldType) (_ : FieldsPlain fields),
    ∀ ft ∈ fields, FieldGives ft.ty.unboxScalar (decodeField ft.ty false)
  | [], _ => nofun
  | ⟨ty, _⟩ :: fts, h =>
      List.forall_mem_cons.mpr ⟨(decodeField_gives ty h.1.field false).2, fieldDecoders_give fts h.2⟩

theorem memberDecoders_give : ∀ (members : List Ty) (_ : MembersPlain members),
    ∀ ty ∈ members, FieldGives ty (decodeField ty true)
  | [], _ => nofun
  | ty :: tys, h =>
      List.forall_mem_cons.mpr ⟨(decodeField_gives ty h.1 true).1, memberDecoders_give tys h.2⟩

end

/-! ### Accepted messages -/

/-- The payload of an accepted message has the type of the schema, in a message
with these handles and bytes and within the limit of the depth. -/
theorem payload_typed {bytes : List UInt8} {handleCount : Nat} {payloadType : Ty}
    {limits : ValidationLimits} {m : ValidatedMessage}
    (h : validateMessage bytes handleCount payloadType limits = .ok m)
    (hplain : payloadType.PlainOptionals .item) :
    HasType handleCount bytes.length .item limits.maxRecursionDepth payloadType m.payload := by
  obtain ⟨fields, version, nullable, dec', rfl, hdecode, -⟩ := validate_interpreted h
  exact (gives_struct (plain_of_mem fields hplain)
    (fieldDecoders_give fields hplain) true _ _ _ _ hdecode).2

/-- The payload is a struct. -/
theorem payload_struct {bytes : List UInt8} {handleCount : Nat} {payloadType : Ty}
    {limits : ValidationLimits} {m : ValidatedMessage}
    (h : validateMessage bytes handleCount payloadType limits = .ok m) :
    ∃ fields version values sv nullable, payloadType = .struct fields sv nullable ∧
      m.payload = .struct version values := by
  obtain ⟨fields, sv, nullable, dec', rfl, hdecode, -⟩ := validate_interpreted h
  obtain ⟨dec₁, -, hdecode⟩ := bind_eq_ok hdecode
  obtain ⟨⟨v, dec₂⟩, hbody, hdecode⟩ := bind_eq_ok hdecode
  obtain ⟨hpayload, -⟩ := Prod.mk.inj (Except.ok.inj hdecode)
  obtain ⟨version, values, rfl⟩ := structBody_eq_ok hbody
  exact ⟨fields, version, values, sv, nullable, rfl, hpayload.symm⟩

/-- A message of version 0 for a struct with a later field. -/
def olderBytes : List UInt8 := plainHeaderBytes ++
  [16, 0, 0, 0, 0, 0, 0, 0, 1, 0, 0, 0, 7, 0, 0, 0]

theorem payload_typed_older : ∃ m,
    validateMessage olderBytes 2 (.struct [⟨.handle, none⟩, ⟨.u32, none⟩, ⟨.string true, some 1⟩] 1
      false) {} = .ok m ∧
    HasType 2 40 .item 32 (.struct [⟨.handle, none⟩, ⟨.u32, none⟩, ⟨.string true, some 1⟩] 1 false)
      m.payload := by
  obtain ⟨m, hm⟩ : ∃ m, validateMessage olderBytes 2 (.struct [⟨.handle, none⟩, ⟨.u32, none⟩,
      ⟨.string true, some 1⟩] 1 false) {} = .ok m := ⟨_, rfl⟩
  exact ⟨m, hm, payload_typed hm ⟨trivial, trivial, trivial, trivial⟩⟩

end MojoRs.Wire
