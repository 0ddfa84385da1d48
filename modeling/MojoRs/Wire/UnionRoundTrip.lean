/-
MojoRs/Wire/UnionRoundTrip.lean

The round trip of messages with unions.  A union inside a union is encoded in
place, and its payload overhangs the slot as the fields of a struct do.  A
union in place is always decoded to a union, so that null does not come back
from it.

Main result: `unions_return`.
-/
import MojoRs.Wire.NestedRoundTrip

namespace MojoRs.Wire

open Lib

/-! ### Null in place of a union -/

section Inlined

variable {fields : List FieldType} {members : List Ty} {nullable : Bool} {mv : Option Nat}
  {off numBytes version i : Nat}

/-- The value gathered for a field, if any, is a union. -/
def HoldsUnion (i : Nat) (st : DecodedFields) : Prop :=
  ∀ v, st.scalars[i]? = some v → ∃ tag w, v = .union tag w

/-- A union in place is always decoded to a union. -/
theorem decodeField_inlined {payload : Bool} {bit : Nat} {dec : Decoder} {r : Value × Decoder}
    (h : decodeField (.union members nullable true) payload off bit dec = .ok r) :
    ∃ tag w, r.1 = .union tag w := by
  obtain ⟨-, -, h⟩ := bind_eq_ok h
  obtain ⟨size, -, h⟩ := bind_eq_ok h
  obtain ⟨tag, -, h⟩ := bind_eq_ok h
  split at h
  · cases h
  · obtain ⟨dec₁, -, h⟩ := bind_eq_ok h
    obtain ⟨⟨value, dec₂⟩, -, h⟩ := bind_eq_ok h
    obtain rfl := Except.ok.inj h
    exact ⟨_, value, rfl⟩

/-- Of the fields of a struct, the one of a union in place gathers a union; the
others leave it. -/
theorem holdsUnion_packedField {pf : PackedField}
    (hpf : pf ∈ (packed (packFields fields)).packedFields)
    (hft : fields[i]? = some ⟨.union members nullable true, mv⟩)
    (hread : pf.minVersion ≤ version ∧ structHeaderSize + pf.offset + pf.size ≤ numBytes)
    {st st' : DecodedFields} (h : pf.field.index = i ∨ HoldsUnion i st)
    (hdec : decodePackedField (fieldDecoders fields) off numBytes version pf st = .ok st') :
    HoldsUnion i st' := by
  obtain ⟨ft, hft', -, hnull, -⟩ := packed_info hpf
  rw [MojoRs.Wire.decodePackedField, if_pos hread] at hdec
  split at hdec
  · rename_i hflag
    obtain ⟨byte, -, hdec⟩ := bind_eq_ok hdec
    obtain rfl := Except.ok.inj hdec
    -- a flag is not the field of a union
    rcases h with rfl | h
    · obtain rfl := Option.some.inj (hft.symm.trans hft')
      cases hnull.symm.trans hflag.1
    · exact h
  · rw [getElem?_fieldDecoders, hft'] at hdec
    obtain ⟨r, hr, hdec⟩ := bind_eq_ok hdec
    obtain rfl := Except.ok.inj hdec
    intro v hv
    by_cases hi : pf.field.index = i
    · subst hi
      obtain rfl := Option.some.inj (hft.symm.trans hft')
      have hlt := (List.getElem?_eq_some_iff.mp hv).1
      rw [List.length_set] at hlt
      rw [List.getElem?_set_self hlt] at hv
      obtain rfl := Option.some.inj hv
      exact decodeField_inlined hr
    · rw [List.getElem?_set_ne hi] at hv
      exact h.resolve_left hi v hv

theorem holdsUnion_packedFields {pfs : List PackedField}
    (hpfs : ∀ pf ∈ pfs, pf ∈ (packed (packFields fields)).packedFields)
    (hft : fields[i]? = some ⟨.union members nullable true, mv⟩)
    (hread : ∀ pf ∈ pfs, pf.minVersion ≤ version ∧
      structHeaderSize + pf.offset + pf.size ≤ numBytes)
    {st st' : DecodedFields} (h : (∃ pf ∈ pfs, pf.field.index = i) ∨ HoldsUnion i st)
    (hdec : decodePackedFields (fieldDecoders fields) off numBytes version pfs st = .ok st') :
    HoldsUnion i st' := by
  induction pfs generalizing st with
  | nil =>
      obtain rfl := Except.ok.inj hdec
      rcases h with ⟨pf, hpf, -⟩ | h
      · cases hpf
      · exact h
  | cons pf pfs ih =>
      rw [List.forall_mem_cons] at hpfs hread
      obtain ⟨st₁, h₁, hdec⟩ := bind_eq_ok hdec
      refine ih hpfs.2 hread.2 ?_ hdec
      rcases h with ⟨pf', hpf', hindex⟩ | h
      · rcases List.mem_cons.mp hpf' with rfl | hpf'
        · exact .inr (holdsUnion_packedField hpfs.1 hft hread.1 (.inl hindex) h₁)
        · exact .inl ⟨pf', hpf', hindex⟩
      · exact .inr (holdsUnion_packedField hpfs.1 hft hread.1 (.inr h) h₁)

/-- The size that a struct of the latest version must give. -/
theorem structSize_le_of_check (hpack : Packable (packFields fields))
    (hversion : maxVersion fields ≤ version)
    (h : checkStructSize fields (packed (packFields fields)) numBytes version = .ok ()) :
    structSize fields ≤ numBytes := by
  rw [checkStructSize, numBytesForVersion_full hpack hversion] at h
  dsimp only at h
  split at h
  · split at h
    · cases h
    · omega
  · split at h
    · cases h
    · exact Nat.not_lt.mp ‹_›

/-- Null in a field of a union in place does not come back. -/
theorem inlined_null_lost {limits : ValidationLimits} {header : List UInt8} {n : Nat}
    {sv version : UInt32} {nullable' : Bool} {vs : List Value}
    (hversion : maxVersion fields ≤ version.toNat)
    (hft : fields[i]? = some ⟨.union members nullable true, mv⟩) (hv : vs[i]? = some .null) :
    ¬RoundTrips limits header n (.struct fields sv nullable') (.struct version vs) := by
  intro hround
  obtain ⟨hpack, off, numBytes, rversion, dec, st, rfl, hlt, hcheck, hst, hvs⟩ :=
    roundTrips_decoded hround
  have hnat : (UInt32.ofNat rversion).toNat = rversion := UInt32.toNat_ofNat_of_lt' hlt
  rw [hnat] at hversion
  have hsize := structSize_le_of_check hpack hversion hcheck
  obtain ⟨pf, hpf, hpos, -⟩ := packed_plain (getElem?_packFields hft) rfl
  have hindex : pf.field.index = i := by
    rw [hpos]
    rfl
  have hunion := holdsUnion_packedFields (fun _ hq => hq) hft (fun q hq =>
    ⟨Nat.le_trans (packed_le_maxVersion hq) hversion, Nat.le_trans (packed_fits hq) hsize⟩)
    (.inl ⟨pf, hpf, hindex⟩) hst
  rw [hvs] at hv
  obtain ⟨s, p, hs, hnull⟩ := assembleFields_eq_some hft hv
  obtain ⟨tag, w, rfl⟩ := hunion s hs
  cases hnull

end Inlined

/-! ### Messages -/

/-- A payload whose unions sit comes back, and one with null in place of a union
does not. -/
theorem unions_return (limits : ValidationLimits) {h : MessageHeader} {header : List UInt8}
    {n : Nat} {fields : List FieldType} (sv : UInt32) {version : UInt32} (nullable : Bool)
    {vs : List Value} (hs : h.serialize = .ok header) (hver : h.version.toNat ≤ 3)
    (hflags : h.FlagsOk) (hversion : maxVersion fields ≤ version.toNat)
    (hencode : nestingFields 0 vs fields ≤ maxEncodeDepth)
    (hdepth : 1 + nestingFields 1 vs fields ≤ limits.maxRecursionDepth)
    (hlimit : limits.maxMessageSize < usizeLimit) :
    ((∃ g, SitsStruct n fields version vs g ∧
        header.length + (structSize fields + g) ≤ limits.maxMessageSize) →
      RoundTrips limits header n (.struct fields sv nullable) (.struct version vs)) ∧
    ((∃ (i : Nat) (members : List Ty) (mv : Option Nat),
        fields[i]? = some ⟨.union members true true, mv⟩ ∧ vs[i]? = some .null) →
      ¬RoundTrips limits header n (.struct fields sv nullable) (.struct version vs)) := by
  refine ⟨fun ⟨g, hsits, hsize⟩ => ?_, fun ⟨i, members, mv, hft, hv⟩ => ?_⟩
  · exact sits_returns limits hs hver hflags hsits hencode hdepth hsize hlimit
  · exact inlined_null_lost hversion hft hv

/-- Unions in place in an array of structs, a union inside a union, and null. -/
theorem unions_return_mixed :
    let h : MessageHeader := ⟨0, 0, 0, 0, 0, none, none, none, none⟩
    let inner : List FieldType := [⟨.union [.u8, .string false] false true, none⟩]
    let fields : List FieldType := [⟨.array (.struct inner 0 false) false, none⟩,
      ⟨.union [.struct inner 0 true, .union [.u32] false true] true false, none⟩,
      ⟨.union [.u8] true false, none⟩]
    let vs : List Value := [.array [.struct 0 [.union 1 (.string "a")]],
      .union 1 (.union 0 (.u32 5)), .null]
    ∃ header, h.serialize = .ok header ∧
      RoundTrips {} header 0 (.struct fields 0 false) (.struct 0 vs) := by
  intro h inner fields vs
  obtain ⟨header, hs⟩ : ∃ header, h.serialize = .ok header := ⟨_, rfl⟩
  have hlen : header.length = 24 := (MessageHeader.serialize_eq_ok hs).1
  have hnul : NulFree "a" := by
    unfold NulFree
    decide
  have harray : Suits (.array [.struct 0 [.union 1 (.string "a")]]) .exact 0 false
      (.array (.struct inner 0 false) false) :=
    ⟨fun _ => by decide, ⟨⟨pack_ok_iff.mp ⟨_, rfl⟩, by decide, rfl, by decide⟩,
      ⟨by decide, fun _ => hnul, fun _ => by decide⟩, nofun⟩, trivial⟩
  have hbytes : byteTotal (.array [.struct 0 [.union 1 (.string "a")]])
      (.array (.struct inner 0 false) false) = 56 := by decide
  have hnumber : Suits (.u32 5) .exact 0 true .u32 := ⟨rfl, fun _ => trivial⟩
  have hunion : ∀ tail, Sits 0 tail false
      (.union [.struct inner 0 true, .union [.u32] false true] true false)
      (.union 1 (.union 0 (.u32 5))) 24 := fun tail =>
    .unionPointer rfl (.unionInPlace rfl (fun _ => rfl) (.plain hnumber))
  have hsits : SitsStruct 0 fields 0 vs
      ((packed (packFields fields)).packedFields.map (·.weight ([56, 24, 0].getD · 0))).sum := by
    refine .mk (fun i => [56, 24, 0].getD i 0) ⟨pack_ok_iff.mp ⟨_, rfl⟩, by decide, rfl, by decide⟩
      (fun i ft hft hns => ?_) fun pf _ ft hft _ => ?_
    · rcases i with _ | _ | _ | i <;> cases hft <;> cases hns
    · generalize pf.field.index = i at hft ⊢
      rcases i with _ | _ | _ | i <;> cases hft
      · exact hbytes ▸ .plain harray
      · exact hunion _
      · exact .plain ⟨rfl, nofun⟩
  refine ⟨header, hs, (unions_return {} 0 false hs (by decide) (by decide) (by decide) (by decide)
    (by decide) (by decide)).1 ⟨_, hsits, ?_⟩⟩
  rw [hlen]
  decide

/-- A union of structs that cannot be null. -/
def structMember : List FieldType := [⟨.union [.struct [⟨.u8, none⟩] 0 false] false true, none⟩]

/-- The message of a seven in such a struct: the header of the struct stands where
a pointer to it is read. -/
def structMemberBytes : List UInt8 :=
  [24, 0, 0, 0, 0, 0, 0, 0, 0, 0, 0, 0, 0, 0, 0, 0, 0, 0, 0, 0, 0, 0, 0, 0, 24, 0, 0, 0, 0, 0, 0, 0,
    16, 0, 0, 0, 0, 0, 0, 0, 16, 0, 0, 0, 0, 0, 0, 0, 7, 0, 0, 0, 0, 0, 0, 0]

/-- A null union in place, and a struct in a union. -/
theorem unions_lost :
    let h : MessageHeader := ⟨0, 0, 0, 0, 0, none, none, none, none⟩
    ∃ header, h.serialize = .ok header ∧
      ¬RoundTrips {} header 0 (.struct [⟨.union [.u8] true true, none⟩] 0 false)
        (.struct 0 [.null]) ∧
      ¬RoundTrips {} header 0 (.struct structMember 0 false)
        (.struct 0 [.union 0 (.struct 0 [.u8 7])]) := by
  intro h
  have hs : h.serialize = .ok (structMemberBytes.take 24) := by decide +kernel
  refine ⟨_, hs, inlined_null_lost (i := 0) (by decide) rfl rfl, ?_⟩
  rintro ⟨msg, r, henc, hvalid, -⟩
  have hbytes : (encodeMessage (structMemberBytes.take 24) (.struct structMember 0 false)
      (.struct 0 [.union 0 (.struct 0 [.u8 7])])).map (·.bytes) = .ok structMemberBytes := by
    decide +kernel
  rw [henc] at hbytes
  have hmsg : msg.bytes = structMemberBytes := Except.ok.inj hbytes
  rw [hmsg] at hvalid
  have herror : (validateMessage structMemberBytes 0 (.struct structMember 0 false) {}).isOk =
      false := by decide +kernel
  rw [hvalid] at herror
  cases herror

end MojoRs.Wire
