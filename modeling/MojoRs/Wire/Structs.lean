/-
MojoRs/Wire/Structs.lean

Structs as matching pairs of encoder and decoder.  The packed fields of a
struct follow each other without overlap, so that they match as a whole when
they match one by one (`fields_sound`).  The reader may know fewer or more
fields than the writer: `rd` tells which of the written fields are read.

`decodeStructBody_ok` is the reader's side: what the loop over the packed
fields returns is determined by what is read for the fields that the version
has.
-/
import MojoRs.Wire.Objects

namespace MojoRs.Wire

open Lib

variable {α : Type}

/-! ### Slots of packed fields -/

/-- The first bit of a packed field of a struct at `off`. -/
def PackedField.start (pf : PackedField) (off : Nat) : Nat :=
  pf.field.kind.slotStart (off + structHeaderSize + pf.offset) pf.bit

/-- Where a packed field ends. -/
def PackedField.stop (pf : PackedField) (off : Nat) : Nat :=
  pf.field.kind.slotEnd (off + structHeaderSize + pf.offset) pf.bit

theorem Kind.slotStart_le_slotEnd (k : Kind) (off bit : Nat) :
    k.slotStart off bit ≤ k.slotEnd off bit := by
  unfold Kind.slotStart Kind.slotEnd
  split <;> omega

theorem PackedField.start_le_stop (pf : PackedField) (off : Nat) : pf.start off ≤ pf.stop off :=
  Kind.slotStart_le_slotEnd _ _ _

theorem PackedField.le_start (pf : PackedField) (off : Nat) :
    8 * (off + structHeaderSize + pf.offset) ≤ pf.start off := by
  unfold PackedField.start Kind.slotStart
  split <;> omega

theorem PackedField.Placed.stop_le {pf : PackedField} (h : pf.Placed) (off : Nat) :
    pf.stop off ≤ 8 * (off + structHeaderSize + pf.offset + pf.size) := by
  have hbit := h.bit_lt
  unfold PackedField.stop Kind.slotEnd
  split
  · rename_i hk
    rw [h.size_eq, hk]
    show _ ≤ 8 * (_ + 1)
    omega
  · rw [h.size_eq]

theorem PackedField.Precedes.stop_le_start {a b : PackedField} (ha : a.Placed)
    (h : a.Precedes b) (off : Nat) : a.stop off ≤ b.start off := by
  rcases h with h | ⟨hka, hkb, hoff, hbit⟩
  · have hstop := ha.stop_le off
    have hstart := b.le_start off
    omega
  · unfold PackedField.stop PackedField.start Kind.slotEnd Kind.slotStart
    rw [if_pos hka, if_pos hkb, hoff]
    omega

/-! ### Reading the packed fields -/

/-- What is read for a packed field: a value, or the flag of a nullable
value. -/
abbrev FieldResult := Value ⊕ Bool

/-- Whether a packed field is read as a flag. -/
abbrev PackedField.IsFlag (pf : PackedField) : Prop :=
  pf.field.nullableValueKind = true ∧ pf.field.kind = .bool

/-- What the decoder reads for one packed field. -/
def readPackedField (decoders : List FieldDecoder) (offset : Nat) (pf : PackedField)
    (dec : Decoder) : WireResult (FieldResult × Decoder) :=
  let fieldOff := offset + (structHeaderSize + pf.offset)
  if pf.IsFlag then do
    let byte ← dec.readByte fieldOff
    .ok (.inr ((byte >>> UInt8.ofNat pf.bit) &&& 1 != 0), dec)
  else
    match decoders[pf.field.index]? with
    | none => .error .outOfRange
    | some decode => do
        let (v, dec) ← decode fieldOff (if pf.field.nullableValueKind then 0 else pf.bit) dec
        .ok (.inl v, dec)

/-- The same for all packed fields, in their order. -/
def readPackedFields (decoders : List FieldDecoder) (offset : Nat) :
    List PackedField → Decoder → WireResult (List FieldResult × Decoder)
  | [], dec => .ok ([], dec)
  | pf :: pfs, dec => do
      let (r, dec) ← readPackedField decoders offset pf dec
      let (rs, dec) ← readPackedFields decoders offset pfs dec
      .ok (r :: rs, dec)

/-- Record what has been read. -/
def applyResult (st : List Value × List Bool) (pf : PackedField) : FieldResult →
    List Value × List Bool
  | .inl v => (st.1.set pf.field.index v, st.2)
  | .inr present => (st.1, st.2.set pf.field.index present)

/-- The values and flags, once all results are written. -/
def applyResults : List Value × List Bool → List PackedField → List FieldResult →
    List Value × List Bool
  | st, pf :: pfs, r :: rs => applyResults (applyResult st pf r) pfs rs
  | st, _, _ => st

/-- The packed fields that a version has and that the struct is long enough
for. -/
def inVersion (numBytes version : Nat) (pf : PackedField) : Bool :=
  decide (pf.minVersion ≤ version ∧ structHeaderSize + pf.offset + pf.size ≤ numBytes)

theorem decodePackedField_of_read {decoders : List FieldDecoder} {offset numBytes version : Nat}
    {pf : PackedField} {sc : List Value} {pr : List Bool} {dec dec' : Decoder} {r : FieldResult}
    (hin : inVersion numBytes version pf = true)
    (h : readPackedField decoders offset pf dec = .ok (r, dec')) :
    decodePackedField decoders offset numBytes version pf ⟨sc, pr, dec⟩ =
      .ok ⟨(applyResult (sc, pr) pf r).1, (applyResult (sc, pr) pf r).2, dec'⟩ := by
  rw [readPackedField] at h
  rw [decodePackedField, if_pos (of_decide_eq_true hin)]
  dsimp only at h ⊢
  split at h
  · rename_i hflag
    obtain ⟨byte, hbyte, h₁⟩ := bind_eq_ok h
    obtain ⟨rfl, rfl⟩ := Prod.mk.inj (Except.ok.inj h₁)
    rw [if_pos hflag, hbyte, ok_bind]
    rfl
  · rename_i hflag
    rw [if_neg hflag]
    cases hdecode : decoders[pf.field.index]? with
    | none =>
        rw [hdecode] at h
        exact nomatch h
    | some decode =>
        rw [hdecode] at h
        obtain ⟨⟨v, dec₁⟩, hv, h₁⟩ := bind_eq_ok h
        obtain ⟨rfl, rfl⟩ := Prod.mk.inj (Except.ok.inj h₁)
        dsimp only
        rw [hv]
        rfl

theorem decodePackedFields_of_read {decoders : List FieldDecoder} {offset numBytes version : Nat}
    {pfs : List PackedField} {sc : List Value} {pr : List Bool} {dec dec' : Decoder}
    {rs : List FieldResult}
    (h : readPackedFields decoders offset (pfs.filter (inVersion numBytes version)) dec =
      .ok (rs, dec')) :
    decodePackedFields decoders offset numBytes version pfs ⟨sc, pr, dec⟩ =
      .ok ⟨(applyResults (sc, pr) (pfs.filter (inVersion numBytes version)) rs).1,
        (applyResults (sc, pr) (pfs.filter (inVersion numBytes version)) rs).2, dec'⟩ := by
  induction pfs generalizing sc pr dec rs with
  | nil =>
      obtain ⟨rfl, rfl⟩ := Prod.mk.inj (Except.ok.inj h)
      rfl
  | cons pf pfs ih =>
      rw [decodePackedFields]
      by_cases hin : inVersion numBytes version pf = true
      · rw [List.filter_cons_of_pos hin] at h ⊢
        obtain ⟨⟨r, dec₁⟩, h₁, h₂⟩ := bind_eq_ok h
        obtain ⟨⟨rs', dec₂⟩, h₃, h₄⟩ := bind_eq_ok h₂
        obtain ⟨rfl, rfl⟩ := Prod.mk.inj (Except.ok.inj h₄)
        rw [decodePackedField_of_read hin h₁, ok_bind, ih h₃]
        rfl
      · rw [List.filter_cons_of_neg hin] at h ⊢
        have hskip : decodePackedField decoders offset numBytes version pf ⟨sc, pr, dec⟩ =
            .ok ⟨sc, pr, dec⟩ := by
          rw [decodePackedField]
          exact if_neg fun hcond => hin (decide_eq_true hcond)
        rw [hskip, ok_bind, ih h]

/-- The values that a reader assembles from what it has read. -/
def assemble (fields : List FieldType) (pfs : List PackedField) (rs : List FieldResult) :
    List Value :=
  let st := applyResults (fields.map defaultValue, List.replicate fields.length false) pfs rs
  assembleFields fields st.1 st.2

/-- What makes a reader with the fields `rfields` return. -/
theorem decodeStructBody_ok {rfields : List FieldType} {decoders : List FieldDecoder}
    {claimSelf : Bool} {offset size : Nat} {version : UInt32} {dec dec₁ dec₂ : Decoder}
    {rs : List FieldResult} (haddr : dec.bytes.length < usizeLimit)
    (hin : offset + size ≤ dec.bytes.length) (hsize : structHeaderSize ≤ size)
    (hnum : dec.readUint 4 offset = .ok size)
    (hver : dec.readUint 4 (offset + 4) = .ok version.toNat)
    (hclaim : dec.claimIf claimSelf offset size = .ok dec₁)
    (hpack : Packable (packFields rfields))
    (hcheck : checkStructSize rfields (packed (packFields rfields)) size version.toNat = .ok ())
    (hread : readPackedFields decoders offset
      ((packed (packFields rfields)).packedFields.filter (inVersion size version.toNat)) dec₁ =
        .ok (rs, dec₂)) :
    decodeStructBody rfields decoders claimSelf offset dec =
      .ok (.struct version (assemble rfields
        ((packed (packFields rfields)).packedFields.filter (inVersion size version.toNat)) rs),
        dec₂) := by
  rw [decodeStructBody, inRange_ok (by omega) haddr, ok_bind, hnum, ok_bind, hver, ok_bind,
    if_neg (Nat.not_lt.mpr hsize), if_neg (Nat.not_lt.mpr hin)]
  rw [hclaim, ok_bind, pack_ok hpack, ok_bind, hcheck, ok_bind,
    decodePackedFields_of_read hread, ok_bind, UInt32.ofNat_toNat]
  rfl

/-! ### One packed field after the other -/

theorem Sound.widen {m : Mode} {n h g need s e s' e' : Nat} {E : Encoder → WireResult Encoder}
    {D : Decoder → WireResult (α × Decoder)} {v : α} (hs : s' ≤ s) (he : e ≤ e')
    (hs₀ : Sound m n h g need s e E D v) : Sound m n h g need s' e' E D v := by
  intro enc enc' hin hz hE
  obtain ⟨w, hread⟩ := hs₀ enc enc' (by omega) (fun p hp hp' => hz p (by omega) (by omega)) hE
  refine ⟨w.mono hs he, hread.imp (Nat.le_refl _) fun a hav => ⟨a, hav, fun hreads dec hv => ?_⟩⟩
  exact hreads dec (hv.earlier (hv.slot.mono hs he) hv.region (Nat.le_refl _) hv.frontier_le
    (Nat.le_refl _))

/-- A field that need not be read matches every decoder. -/
theorem Sound.skip {β : Type} {m : Mode} {n h g need s e : Nat}
    {E : Encoder → WireResult Encoder} {D : Decoder → WireResult (α × Decoder)}
    {D' : Decoder → WireResult (β × Decoder)} {v : α} {v' : β}
    (hs : Sound m n h g need s e E D v) : Sound .skipped n h g need s e E D' v' := by
  intro enc enc' hin hz hE
  exact ⟨(hs enc enc' hin hz hE).1, fun hm => absurd rfl hm⟩

/-- Packed fields that match one by one match together. -/
theorem fields_sound {m : Mode} {n need off E : Nat} {fields : List FieldType}
    {null : FieldValue} {values : List FieldValue} {decoders : List FieldDecoder}
    {rd : PackedField → Bool} {hh gg : PackedField → Nat} {R : PackedField → FieldResult}
    {pfs : List PackedField} {S : Nat}
    (hlaid : pfs.Pairwise fun a b => a.stop off ≤ b.start off)
    (hS : ∀ pf ∈ pfs, S ≤ pf.start off) (hE : ∀ pf ∈ pfs, pf.stop off ≤ E) (hSE : S ≤ E)
    (hf : ∀ pf ∈ pfs, Sound (if rd pf then m else .skipped) n (hh pf) (gg pf) need
      (pf.start off) (pf.stop off)
      (encodePackedField fields (values.getD pf.field.index null) off pf)
      (readPackedField decoders off pf) (R pf)) :
    Sound m n (pfs.map hh).sum (pfs.map gg).sum need S E
      (encodePackedFields fields null values off pfs)
      (readPackedFields decoders off (pfs.filter rd)) ((pfs.filter rd).map R) := by
  induction pfs generalizing S with
  | nil => exact (sound_nil []).widen (Nat.le_refl S) hSE
  | cons pf pfs ih =>
      rw [List.forall_mem_cons] at hS hE hf
      rw [List.pairwise_cons] at hlaid
      have hrest := ih hlaid.2 hlaid.1 hE.2 hE.1 hf.2
      have hstart := pf.start_le_stop off
      rw [List.map_cons, List.map_cons, List.sum_cons, List.sum_cons]
      refine Sound.widen hS.1 (Nat.le_refl E) ?_
      by_cases hr : rd pf = true
      · have hfirst := hf.1
        rw [if_pos hr] at hfirst
        rw [List.filter_cons_of_pos hr, List.map_cons]
        refine Sound.seq List.cons (fun dec a f b dec' h₁ h₂ => ?_) hstart (Nat.le_refl _) hE.1
          hfirst hrest
        rw [readPackedFields, h₁, ok_bind]
        dsimp only
        rw [h₂]
        rfl
      · have hfirst := hf.1
        rw [if_neg hr] at hfirst
        rw [List.filter_cons_of_neg hr]
        exact Sound.after hstart (Nat.le_refl _) hE.1 hfirst hrest

/-! ### Fields of a schema -/

/-- A value as its struct sees it. -/
def fieldValue (v : Value) : FieldValue where
  present := match v with
    | .nullableScalar true value => some (encodeFieldAt value false)
    | _ => none
  encode := encodeFieldAt v false

theorem fieldValue_null : fieldValue .null = .null := rfl

theorem fieldValues_cons (v : Value) (vs : List Value) :
    fieldValues (v :: vs) = fieldValue v :: fieldValues vs := by
  cases v with
  | nullableScalar present value => cases present <;> rfl
  | _ => rfl

theorem getD_fieldValues (vs : List Value) (i : Nat) :
    (fieldValues vs).getD i .null = fieldValue (vs.getD i .null) := by
  induction vs generalizing i with
  | nil => exact fieldValue_null.symm
  | cons v vs ih =>
      rw [fieldValues_cons]
      cases i with
      | zero => rfl
      | succ i => exact ih i

/-- A value in a field of a struct. -/
def FieldSuits (m : Mode) (n : Nat) (ft : FieldType) (v : Value) : Prop :=
  match ft.ty with
  | .nullableScalar inner =>
      match v with
      | .nullableScalar true value =>
          (inner.packKind ≠ .bool → Suits value m n false inner) ∧
            (m = .exact → inner.packKind ≠ .bool)
      | v => AbsentSuits m n inner v
  | ty => Suits v m n false ty

theorem missingSuits_iff {m : Mode} {n : Nat} {ft : FieldType} :
    MissingSuits m n ft ↔ FieldSuits m n ft .null := by
  unfold MissingSuits FieldSuits
  cases ft.ty <;> simp only [Suits]

theorem suitsFields_cons {m : Mode} {n : Nat} {version : UInt32} {v : Value} {vs : List Value}
    {ft : FieldType} {fts : List FieldType} :
    SuitsFields (v :: vs) m n version (ft :: fts) ↔
      FieldSuits (m.atField version ft) n ft v ∧ SuitsFields vs m n version fts := by
  rewrite [SuitsFields, FieldSuits]
  cases ft.ty <;> rfl

/-- The values of a struct suit one by one; missing ones count as null. -/
theorem SuitsFields.get {m : Mode} {n : Nat} {version : UInt32} {vs : List Value}
    {fields : List FieldType} (h : SuitsFields vs m n version fields) {i : Nat}
    {ft : FieldType} (hft : fields[i]? = some ft) :
    FieldSuits (m.atField version ft) n ft (vs.getD i .null) := by
  induction vs generalizing fields i with
  | nil => exact missingSuits_iff.mp (h ft (List.mem_of_getElem? hft))
  | cons v vs ih =>
      cases fields with
      | nil => exact nomatch hft
      | cons ft' fts =>
          obtain ⟨hfirst, hrest⟩ := suitsFields_cons.mp h
          cases i with
          | zero =>
              obtain rfl := Option.some.inj hft
              exact hfirst
          | succ i => exact ih hrest hft

/-- The handles or objects of a field. -/
def fieldTally (handle : UInt32 → Nat) (object : Nat → Nat) (ft : FieldType) (v : Value) : Nat :=
  match ft.ty with
  | .nullableScalar inner =>
      match v with
      | .nullableScalar true value =>
          if inner.packKind = .bool then 0 else tally handle object value inner
      | _ => 0
  | ty => tally handle object v ty

theorem tallyFields_cons (handle : UInt32 → Nat) (object : Nat → Nat) (v : Value)
    (vs : List Value) (ft : FieldType) (fts : List FieldType) :
    tallyFields handle object (v :: vs) (ft :: fts) =
      fieldTally handle object ft v + tallyFields handle object vs fts := by
  rewrite [tallyFields, fieldTally]
  cases ft.ty <;> rfl

theorem fieldTally_null (handle : UInt32 → Nat) (object : Nat → Nat) (ft : FieldType) :
    fieldTally handle object ft .null = 0 := by
  unfold fieldTally
  cases ft.ty <;> simp only [tally]

/-- The depth of a field. -/
def fieldNesting (s : Nat) (ft : FieldType) (v : Value) : Nat :=
  match ft.ty with
  | .nullableScalar inner =>
      match v with
      | .nullableScalar true value => nesting s value false inner
      | _ => 0
  | ty => nesting s v false ty

theorem nestingFields_cons (s : Nat) (v : Value) (vs : List Value) (ft : FieldType)
    (fts : List FieldType) : nestingFields s (v :: vs) (ft :: fts) =
      max (fieldNesting s ft v) (nestingFields s vs fts) := by
  rewrite [nestingFields, fieldNesting]
  cases ft.ty <;> rfl

theorem fieldNesting_le (s : Nat) {vs : List Value} {fields : List FieldType} {i : Nat}
    {ft : FieldType} (hft : fields[i]? = some ft) :
    fieldNesting s ft (vs.getD i .null) ≤ nestingFields s vs fields := by
  induction vs generalizing fields i with
  | nil =>
      have hzero : fieldNesting s ft .null = 0 := by
        unfold fieldNesting
        cases ft.ty <;> simp only [nesting]
      rw [List.getD_nil, hzero]
      exact Nat.zero_le _
  | cons v vs ih =>
      cases fields with
      | nil => exact nomatch hft
      | cons ft' fts =>
          rw [nestingFields_cons]
          cases i with
          | zero =>
              obtain rfl := Option.some.inj hft
              exact Nat.le_max_left ..
          | succ i => exact Nat.le_trans (ih hft) (Nat.le_max_right ..)

/-! ### Packed fields of a schema -/

/-- What packing knows of a declared field. -/
theorem packed_info {fields : List FieldType} {pf : PackedField}
    (h : pf ∈ (packed (packFields fields)).packedFields) :
    ∃ ft, fields[pf.field.index]? = some ft ∧ pf.minVersion = ft.minVersion.getD 0 ∧
      pf.field.nullableValueKind = ft.ty.isNullableScalar ∧
      (¬pf.IsFlag → pf.field.kind = ft.ty.packKind) := by
  obtain ⟨i, f, hf, hmv, hcases⟩ := mem_packed h
  rw [getElem?_packFieldsFrom, Option.map_eq_some_iff] at hf
  obtain ⟨ft, hft, rfl⟩ := hf
  rw [Nat.zero_add] at hcases hmv
  rcases hcases with ⟨-, hfield⟩ | ⟨hnull, hfield | hfield⟩
  · rw [hfield]
    exact ⟨ft, hft, hmv, rfl, fun _ => rfl⟩
  · rw [PackedField.IsFlag, hfield]
    exact ⟨ft, hft, hmv, rfl, fun hflag => absurd ⟨hnull, rfl⟩ hflag⟩
  · rw [hfield]
    exact ⟨ft, hft, hmv, rfl, fun _ => rfl⟩

mutual

/-- The value that zero bytes decode to. -/
def zeroValue : Ty → Value
  | .bool => .bool false
  | .handle => .handle 0
  | .interface version => .interface 0 version
  | .associatedInterface version => .associatedInterface 0 version
  | .union members _ true => zeroMember members
  | .nullableScalar inner => zeroValue inner
  | ty => (scalarValue ty 0).getD .null

/-- Member 0 of a union, zero. -/
def zeroMember : List Ty → Value
  | [] => .null
  | ty :: _ => .union 0 (zeroValue ty)

end

/-- Whether a value is a nullable scalar that is present. -/
def isPresent : Value → Bool
  | .nullableScalar true _ => true
  | _ => false

/-- What a field that is no flag is read as. -/
def scalarTarget (ft : FieldType) (v : Value) : Value :=
  match ft.ty with
  | .nullableScalar inner =>
      match v with
      | .nullableScalar true value => value
      | _ => zeroValue inner
  | _ => v

/-- What a packed field is to give back. -/
def fieldTarget (ft : FieldType) (v : Value) (pf : PackedField) : FieldResult :=
  if pf.IsFlag then .inr (isPresent v) else .inl (scalarTarget ft v)

/-- A value matches at every field that it suits. -/
def FieldMatches (v : Value) : Prop :=
  ∀ (m : Mode) (n : Nat) (payload : Bool) (ty : Ty) (off bit : Nat),
    Suits v m n payload ty → bit < 8 →
      Sound m n (handleTotal v ty) (byteTotal v ty) (nesting 1 v payload ty)
        (ty.packKind.slotStart off bit) (ty.packKind.slotEnd off bit)
        (encodeFieldAt v payload ty off bit) (decodeField ty payload off bit) v

theorem decodeField_scalar {ty : Ty} {payload : Bool} {off bit k : Nat} {v : Value}
    {dec : Decoder} (hv : scalarValue ty k = some v)
    (hread : dec.readUint ty.packKind.size off = .ok k) :
    decodeField ty payload off bit dec = .ok (v, dec) := by
  have hscalar : decodeField ty payload off bit dec = decodeScalar ty off bit dec := by
    cases ty <;> first | rfl | exact nomatch hv
  have hnum : readScalar dec ty.packKind.size off = .ok k := by
    rw [readScalar]
    split
    · rename_i hone
      rw [hone] at hread
      obtain ⟨byte, hbyte, rfl⟩ := readByte_of_readUint hread
      rw [hbyte]
      rfl
    · exact hread
  rw [hscalar, decodeScalar, hnum, ok_bind, hv]

/-! ### Zero bytes -/

theorem Kind.size_le_eight {k : Kind} (h : k ≠ .union) : k.size ≤ 8 := by
  cases k <;> first | decide | exact absurd rfl h

/-- Zero bytes at a slot. -/
structure ZeroSlot (n : Nat) (k : Kind) (off bit : Nat) (dec : Decoder) : Prop where
  handles : dec.handleCount = n
  addressable : dec.bytes.length < usizeLimit
  inside : off + k.size ≤ dec.bytes.length
  bit_lt : bit < 8
  zero : ∀ p, k.slotStart off bit ≤ p → p < k.slotEnd off bit → bitAt dec.bytes p = false

theorem ZeroSlot.readUint {n off bit w at_ : Nat} {k : Kind} {dec : Decoder}
    (h : ZeroSlot n k off bit dec) (hk : k ≠ .bool) (hlo : off ≤ at_) (hhi : at_ + w ≤ off + k.size) :
    dec.readUint w at_ = .ok 0 := by
  have hin := h.inside
  refine readUint_of_blank (by omega) h.addressable fun p h₁ h₂ => h.zero p ?_ ?_
  · rw [Kind.slotStart, if_neg hk]
    omega
  · rw [Kind.slotEnd, if_neg hk]
    omega

theorem ZeroSlot.follow {n off bit : Nat} {k : Kind} {dec : Decoder}
    (h : ZeroSlot n k off bit dec) (hk : k ≠ .bool) (hsize : 8 ≤ k.size)
    (D : Nat → Decoder → WireResult (Value × Decoder)) :
    dec.follow off true D = .ok (.null, dec) := by
  rw [Decoder.follow, Decoder.readPointer, h.readUint hk (Nat.le_refl _) (by omega)]
  rfl

/-- Zero bytes decode wherever they suit. -/
abbrev ZeroDecodes (n : Nat) (ty : Ty) : Prop :=
  ∀ (payload : Bool) (off bit : Nat) (dec : Decoder), ZeroSlot n ty.packKind off bit dec →
    decodeField ty payload off bit dec = .ok (zeroValue ty, dec)

theorem zero_scalar {n : Nat} {ty : Ty} (hbool : ty.packKind ≠ .bool)
    (h : scalarValue ty 0 = some (zeroValue ty)) : ZeroDecodes n ty := fun _ _ _ _ hz =>
  decodeField_scalar h (hz.readUint hbool (Nat.le_refl _) (Nat.le_refl _))

theorem zero_bool {n : Nat} : ZeroDecodes n .bool := by
  intro payload off bit dec hz
  have hlt : off < dec.bytes.length := hz.inside
  have hget : dec.bytes[off]? = some dec.bytes[off] := List.getElem?_eq_getElem hlt
  rw [decodeField, Decoder.readByte, hget]
  show Except.ok (Value.bool _, dec) = _
  have hbit : bitAt dec.bytes (8 * off + bit) = false :=
    hz.zero _ (Nat.le_refl _) (Nat.lt_succ_self _)
  rw [testBit_eq_bitAt hget hz.bit_lt, hbit]
  rfl

theorem checkHandle_zero {n : Nat} {dec : Decoder} (hn : dec.handleCount = n) (h : 0 < n) :
    checkHandle dec 0 = .ok () :=
  if_neg fun hand => Nat.not_le.mpr h (hn ▸ hand.2)

theorem getElem?_memberDecoders (members : List Ty) (i : Nat) :
    (memberDecoders members)[i]? = members[i]?.map fun ty => decodeField ty true := by
  induction members generalizing i with
  | nil => rfl
  | cons ty tys ih =>
      cases i with
      | zero => rfl
      | succ i => exact ih i

/-- A union in place whose first member decodes from zero bytes. -/
theorem zero_union {n : Nat} {member : Ty} {members : List Ty} {nullable : Bool}
    (hkind : member.packKind.size ≤ 8) (hm : ZeroDecodes n member) :
    ZeroDecodes n (.union (member :: members) nullable true) := by
  intro payload off bit dec hz
  have hin : off + 16 ≤ dec.bytes.length := hz.inside
  have hsize := hz.readUint (w := 4) (nofun) (Nat.le_refl off) (by show _ ≤ off + 16; omega)
  have htag := hz.readUint (w := 4) (nofun) (Nat.le_add_right off 4) (by show _ ≤ off + 16; omega)
  have hslot : ZeroSlot n member.packKind (off + 8) 0 dec := by
    refine ⟨hz.handles, hz.addressable, by omega, by decide, fun p h₁ h₂ => hz.zero p ?_ ?_⟩
    · show 8 * off ≤ p
      unfold Kind.slotStart at h₁
      split at h₁ <;> omega
    · show p < 8 * (off + 16)
      unfold Kind.slotEnd at h₂
      split at h₂ <;> omega
  rw [decodeField, if_pos rfl, decodeUnionAt, inRange_ok (by omega) hz.addressable, ok_bind, hsize,
    ok_bind, htag, ok_bind]
  simp only [getElem?_memberDecoders, List.getElem?_cons_zero, Option.map_some]
  rw [if_neg Bool.false_ne_true, ok_bind, hm true (off + 8) 0 dec hslot]
  rfl

mutual

/-- Zero bytes decode, where they are a value of the type. -/
theorem zero_decodes {n : Nat} : ∀ ty : Ty, ZeroSuits n ty → ZeroDecodes n ty
  | .bool, _ => zero_bool
  | .i8, _ | .u8, _ | .i16, _ | .u16, _ | .i32, _ | .u32, _ | .i64, _ | .u64, _ | .f32, _ | .f64, _
  | .enum, _ | .associatedEndpoint, _ => zero_scalar nofun rfl
  -- handle 0 is in range where a message has handles
  | .handle, h => by
      intro payload off bit dec hz
      have hread : dec.readUint 4 off = .ok 0 :=
        hz.readUint nofun (Nat.le_refl _) (Nat.le_refl _)
      rw [decodeField, hread, ok_bind, checkHandle_zero hz.handles h]
      rfl
  -- a pointer of zero bits is null, so the type has to be nullable
  | .string nullable, h => by
      obtain rfl : nullable = true := h
      intro payload off bit dec hz
      exact hz.follow nofun (Nat.le_refl _) _
  | .array element nullable, h => by
      obtain rfl : nullable = true := h
      intro payload off bit dec hz
      exact hz.follow nofun (Nat.le_refl _) _
  | .map key value nullable, h => by
      obtain rfl : nullable = true := h
      intro payload off bit dec hz
      exact hz.follow nofun (Nat.le_refl _) _
  | .struct fields version nullable, h => by
      obtain rfl : nullable = true := h
      intro payload off bit dec hz
      rw [decodeField, Bool.or_true, if_pos rfl]
      exact hz.follow nofun (Nat.le_refl _) _
  | .union members nullable false, h => by
      obtain rfl : nullable = true := h
      intro payload off bit dec hz
      rw [decodeField, if_neg Bool.false_ne_true]
      exact hz.follow nofun (Nat.le_refl _) _
  -- a union in place has tag 0, its first member is zero too
  | .union members nullable true, h => zero_member members nullable h
  | .interface version, h => by
      intro payload off bit dec hz
      have hpair : readPair dec off = .ok (0, 0) := by
        rw [readPair, hz.readUint nofun (Nat.le_refl _) (by show _ ≤ off + 8; omega), ok_bind,
          hz.readUint nofun (Nat.le_add_right _ _) (by show _ ≤ off + 8; omega)]
        rfl
      rw [decodeField, hpair, ok_bind]
      dsimp only
      rw [checkHandle_zero hz.handles h, ok_bind, Nat.max_eq_right (Nat.zero_le _),
        UInt32.ofNat_toNat]
      rfl
  | .associatedInterface version, _ => by
      intro payload off bit dec hz
      have hpair : readPair dec off = .ok (0, 0) := by
        rw [readPair, hz.readUint nofun (Nat.le_refl _) (by show _ ≤ off + 8; omega), ok_bind,
          hz.readUint nofun (Nat.le_add_right _ _) (by show _ ≤ off + 8; omega)]
        rfl
      rw [decodeField, hpair, ok_bind]
      dsimp only
      rw [Nat.max_eq_right (Nat.zero_le _), UInt32.ofNat_toNat]
      rfl
  -- the scalar of an absent value is there, and zero
  | .nullableScalar inner, h => fun _ off bit dec hz => zero_decodes inner h false off bit dec hz

theorem zero_member {n : Nat} : ∀ (members : List Ty) (nullable : Bool), ZeroMember n members →
    ZeroDecodes n (.union members nullable true)
  | [], _, h => absurd h id
  | ty :: _, _, h => zero_union (Kind.size_le_eight h.1) (zero_decodes ty h.2)

end

/-- A blank slot is read, where zero bytes are a value of the type. -/
theorem recovers_zero {m : Mode} {n need off bit lo : Nat} {payload : Bool} {ty : Ty}
    {buf : List UInt8} (h : m ≠ .skipped → ZeroSuits n ty) (hbit : bit < 8)
    (hin : ty.packKind.slotEnd off bit ≤ 8 * buf.length) (hlo : lo ≤ buf.length)
    (hz : Blank (ty.packKind.slotStart off bit) (ty.packKind.slotEnd off bit) buf) :
    Recovers m n need (ty.packKind.slotStart off bit) (ty.packKind.slotEnd off bit) lo buf
      (decodeField ty payload off bit) (zeroValue ty) := by
  refine fun hm _ => ⟨_, fun _ => rfl, fun dec hv => ?_⟩
  have hle := hv.length_le
  refine ⟨dec.frontier, Nat.le_trans hv.frontier_le hlo, zero_decodes ty (h hm) payload off bit dec
    ⟨hv.handles, hv.addressable, ?_, hbit, fun p h₁ h₂ => ?_⟩⟩
  · have hend : 8 * (off + ty.packKind.size) ≤ ty.packKind.slotEnd off bit + 7 := by
      unfold Kind.slotEnd
      split
      · rename_i hk
        rw [hk]
        show 8 * (off + 1) ≤ _
        omega
      · omega
    omega
  · rw [hv.slot p h₁ h₂, hz p h₁ h₂]

/-- A slot that stays blank. -/
theorem sound_zero {m : Mode} {n bit : Nat} (need off : Nat) (payload : Bool) (ty : Ty)
    (h : m ≠ .skipped → ZeroSuits n ty) (hbit : bit < 8) :
    Sound m n 0 0 need (ty.packKind.slotStart off bit) (ty.packKind.slotEnd off bit) .ok
      (decodeField ty payload off bit) (zeroValue ty) := by
  intro enc enc' hin hz hE
  obtain rfl := Except.ok.inj hE
  exact ⟨Wrote.refl _ _ _, recovers_zero h hbit hin (Nat.le_refl _) hz⟩

theorem bitAt_zeros (w p : Nat) : bitAt (toLE w 0) p = false := by
  have hget : (toLE w 0).getD (p / 8) 0 = 0 := by
    generalize p / 8 = i
    induction w generalizing i with
    | zero => rfl
    | succ w ih =>
        cases i with
        | zero => rfl
        | succ i => exact ih i
  rw [bitAt, hget]
  exact Nat.zero_testBit _

/-- A union in place that is null. -/
theorem sound_nullUnion {m : Mode} {n bit : Nat} (need off : Nat) (payload : Bool)
    (members : List Ty) (nullable : Bool)
    (h : m ≠ .skipped → ZeroSuits n (.union members nullable true)) (hbit : bit < 8) :
    Sound m n 0 0 need (8 * off) (8 * (off + 16)) (·.writeNull off)
      (decodeField (.union members nullable true) payload off bit)
      (zeroValue (.union members nullable true)) := by
  intro enc enc' hin hz hE
  obtain ⟨hw, hbuf, hlen⟩ := writeNum_spec (by omega) hE
  have hblank : Blank (8 * off) (8 * (off + 16)) enc'.buf := by
    intro p h₁ h₂
    rw [hbuf, bitAt_putBytes (by rw [length_toLE]; omega)]
    split
    · exact bitAt_zeros 8 _
    · exact hz p h₁ h₂
  refine ⟨hw.mono (Nat.le_refl _) (by omega), ?_⟩
  exact recovers_zero h hbit (by rw [hlen]; exact hin) hlen.ge hblank

theorem isSome_present (v : Value) : (fieldValue v).present.isSome = isPresent v := by
  cases v with
  | nullableScalar present value => cases present <;> rfl
  | _ => rfl

theorem eq_nullableScalar {ty : Ty} (h : ty.isNullableScalar = true) :
    ∃ inner, ty = .nullableScalar inner := by
  cases ty with
  | nullableScalar inner => exact ⟨inner, rfl⟩
  | _ => exact nomatch h

/-! A field that is no nullable scalar holds its value as it is. -/

section Plain

variable {ft : FieldType} (h : ¬ft.ty.isNullableScalar = true)
include h

theorem fieldSuits_plain {m : Mode} {n : Nat} {v : Value} :
    FieldSuits m n ft v = Suits v m n false ft.ty := by
  unfold FieldSuits
  cases hty : ft.ty <;> first | rfl | exact absurd (by rw [hty]; rfl) h

theorem fieldTally_plain {handle : UInt32 → Nat} {object : Nat → Nat} {v : Value} :
    fieldTally handle object ft v = tally handle object v ft.ty := by
  unfold fieldTally
  cases hty : ft.ty <;> first | rfl | exact absurd (by rw [hty]; rfl) h

theorem fieldNesting_plain {s : Nat} {v : Value} :
    fieldNesting s ft v = nesting s v false ft.ty := by
  unfold fieldNesting
  cases hty : ft.ty <;> first | rfl | exact absurd (by rw [hty]; rfl) h

theorem scalarTarget_plain {v : Value} : scalarTarget ft v = v := by
  unfold scalarTarget
  cases hty : ft.ty <;> first | rfl | exact absurd (by rw [hty]; rfl) h

end Plain

/-! A nullable scalar that is absent takes no part of the struct but its
flag. -/

section Absent

variable {v : Value} (h : ¬∃ w, v = .nullableScalar true w)
include h

theorem absent_present : (fieldValue v).present = none := by
  cases v with
  | nullableScalar present w =>
      cases present with
      | true => exact absurd ⟨w, rfl⟩ h
      | false => rfl
  | _ => rfl

theorem fieldTally_absent {handle : UInt32 → Nat} {object : Nat → Nat} {inner : Ty}
    {mv : Option Nat} : fieldTally handle object ⟨.nullableScalar inner, mv⟩ v = 0 := by
  cases v with
  | nullableScalar present w =>
      cases present with
      | true => exact absurd ⟨w, rfl⟩ h
      | false => rfl
  | _ => rfl

theorem fieldSuits_absent {m : Mode} {n : Nat} {inner : Ty} {mv : Option Nat}
    (hs : FieldSuits m n ⟨.nullableScalar inner, mv⟩ v) : AbsentSuits m n inner v := by
  cases v with
  | nullableScalar present w =>
      cases present with
      | true => exact absurd ⟨w, rfl⟩ h
      | false => exact hs
  | _ => exact hs

theorem scalarTarget_absent {inner : Ty} {mv : Option Nat} :
    scalarTarget ⟨.nullableScalar inner, mv⟩ v = zeroValue inner := by
  cases v with
  | nullableScalar present w =>
      cases present with
      | true => exact absurd ⟨w, rfl⟩ h
      | false => rfl
  | _ => rfl

end Absent

/-- How the encoder treats a packed field that is no flag. -/
theorem encodePackedField_value {fields : List FieldType} {pf : PackedField} {ft : FieldType}
    (hft : fields[pf.field.index]? = some ft) (hflag : ¬pf.IsFlag) (v : Value) (off : Nat) :
    encodePackedField fields (fieldValue v) off pf = fun enc =>
      if pf.field.nullableValueKind then
        match (fieldValue v).present with
        | some inner => inner ft.ty.unboxScalar (off + structHeaderSize + pf.offset) 0 enc
        | none => .ok enc
      else encodeFieldAt v false ft.ty (off + structHeaderSize + pf.offset) pf.bit enc := by
  funext enc
  rw [encodePackedField, hft]
  dsimp only
  by_cases hnv : pf.field.nullableValueKind = true
  · rewrite [if_pos hnv, if_pos hnv, if_neg fun hb => hflag ⟨hnv, hb⟩]
    rfl
  · rewrite [if_neg hnv, if_neg hnv]
    rfl

theorem notFlag_plain {fields : List FieldType} {pf : PackedField} {ft : FieldType}
    (hpf : pf ∈ (packed (packFields fields)).packedFields)
    (hft : fields[pf.field.index]? = some ft) (hns : ¬ft.ty.isNullableScalar = true) :
    ¬pf.IsFlag := by
  obtain ⟨ft', hft', -, hnull, -⟩ := packed_info hpf
  obtain rfl := Option.some.inj (hft.symm.trans hft')
  exact fun hflag => hns (hnull.symm.trans hflag.1)

/-- A packed field that is no nullable scalar matches, when its value does. -/
theorem packedField_plain {fields : List FieldType} {pf : PackedField} {ft : FieldType}
    {v : Value} {m : Mode} {n h g need : Nat} {tail : Bool} (off : Nat)
    (decoders : List FieldDecoder) (hpf : pf ∈ (packed (packFields fields)).packedFields)
    (hft : fields[pf.field.index]? = some ft) (hns : ¬ft.ty.isNullableScalar = true)
    (hdec : m ≠ .skipped → decoders[pf.field.index]? = some (decodeField ft.ty false))
    (hs : Sound m n h g need
      (ft.ty.packKind.slotStart (off + structHeaderSize + pf.offset) pf.bit)
      (ft.ty.packKind.slotEnd (off + structHeaderSize + pf.offset) pf.bit)
      (lastly tail (ft.ty.packKind.slotEnd (off + structHeaderSize + pf.offset) pf.bit)
        (encodeFieldAt v false ft.ty (off + structHeaderSize + pf.offset) pf.bit))
      (decodeField ft.ty false (off + structHeaderSize + pf.offset) pf.bit) v) :
    Sound m n h g need (pf.start off) (pf.stop off)
      (lastly tail (pf.stop off) (encodePackedField fields (fieldValue v) off pf))
      (readPackedField decoders off pf) (.inl v) := by
  obtain ⟨ft', hft', -, hnull, hkind⟩ := packed_info hpf
  obtain rfl := Option.some.inj (hft.symm.trans hft')
  have hnv : pf.field.nullableValueKind = false := by
    rw [hnull]
    exact Bool.eq_false_iff.mpr hns
  have hflag := notFlag_plain hpf hft hns
  have hoff : off + (structHeaderSize + pf.offset) = off + structHeaderSize + pf.offset :=
    (Nat.add_assoc ..).symm
  have hE : encodePackedField fields (fieldValue v) off pf = fun enc =>
      encodeFieldAt v false ft.ty (off + structHeaderSize + pf.offset) pf.bit enc := by
    rw [encodePackedField_value hft hflag]
    simp only [hnv, if_neg Bool.false_ne_true]
  rw [PackedField.start, PackedField.stop, hkind hflag, hE]
  by_cases hm : m = .skipped
  · subst hm
    exact hs.skip
  · refine hs.map Sum.inl fun dec a dec' hok => ?_
    rw [readPackedField, hoff, hdec hm]
    dsimp only
    rw [if_neg hflag, if_neg (by rw [hnv]; exact Bool.false_ne_true), hok]
    rfl

/-- One packed field matches, when its value does. -/
theorem packedField_sound {fields : List FieldType} {pf : PackedField} {ft : FieldType}
    {v : Value} {m : Mode} {n need : Nat} (off : Nat) (decoders : List FieldDecoder)
    (hpf : pf ∈ (packed (packFields fields)).packedFields)
    (hft : fields[pf.field.index]? = some ft) (hsuits : FieldSuits m n ft v)
    (hmatch : FieldMatches v ∧ ∀ w, v = .nullableScalar true w → FieldMatches w)
    (hneed : fieldNesting 1 ft v ≤ need)
    (hdec : m ≠ .skipped → decoders[pf.field.index]? = some (decodeField ft.ty false)) :
    Sound m n
      (if pf.IsFlag then 0 else fieldTally
        (fun index => if index = encodedInvalidHandleValue then 0 else 1) (fun _ => 0) ft v)
      (if pf.IsFlag then 0 else fieldTally (fun _ => 0) id ft v) need
      (pf.start off) (pf.stop off) (encodePackedField fields (fieldValue v) off pf)
      (readPackedField decoders off pf) (fieldTarget ft v pf) := by
  by_cases hns : ft.ty.isNullableScalar = true
  · obtain ⟨ft', hft', -, hnull, hkind⟩ := packed_info hpf
    obtain rfl := Option.some.inj (hft.symm.trans hft')
    have hnv : pf.field.nullableValueKind = true := hnull.trans hns
    have hplaced := (packed_laidOut (packFields fields)).placed pf hpf
    have hoff : off + (structHeaderSize + pf.offset) = off + structHeaderSize + pf.offset :=
      (Nat.add_assoc ..).symm
    rw [PackedField.start, PackedField.stop]
    by_cases hflag : pf.IsFlag
    · -- the flag of a nullable value
      have hE : encodePackedField fields (fieldValue v) off pf = fun enc =>
          .ok (enc.writeBit (off + structHeaderSize + pf.offset) pf.bit (isPresent v)) := by
        funext enc
        rw [encodePackedField, hft]
        dsimp only
        rw [if_pos hflag.1, if_pos hflag.2, isSome_present]
      rw [if_pos hflag, if_pos hflag, fieldTarget, if_pos hflag, hE, hflag.2, Kind.slotStart,
        Kind.slotEnd, if_pos rfl, if_pos rfl]
      refine sound_bit hplaced.bit_lt fun dec byte hbyte hbit => ?_
      rw [readPackedField, hoff]
      dsimp only
      rw [if_pos hflag, hbyte, ok_bind, hbit]
    · -- the value of a nullable scalar
      have hk := hkind hflag
      rw [if_neg hflag, if_neg hflag, fieldTarget, if_neg hflag, hk,
        encodePackedField_value hft hflag v off]
      obtain ⟨inner, hty⟩ := eq_nullableScalar hns
      obtain ⟨ty, mv⟩ := ft
      obtain rfl : ty = .nullableScalar inner := hty
      have hbool : inner.packKind ≠ .bool := fun hb => hflag ⟨hnv, hk.trans hb⟩
      have hslot : ∀ off bit, inner.packKind.slotStart off bit = 8 * off ∧
          inner.packKind.slotEnd off bit = 8 * (off + inner.packKind.size) := fun off bit =>
        ⟨if_neg hbool, if_neg hbool⟩
      show Sound m n _ _ need (inner.packKind.slotStart _ _) (inner.packKind.slotEnd _ _) _ _ _
      rw [(hslot _ _).1, (hslot _ _).2]
      simp only [if_pos hnv]
      -- it is enough that the value itself matches
      have hvalue : ∀ {h g E w}, Sound m n h g need (8 * (off + structHeaderSize + pf.offset))
          (8 * (off + structHeaderSize + pf.offset + inner.packKind.size)) E
          (decodeField inner false (off + structHeaderSize + pf.offset) 0) w →
          Sound m n h g need (8 * (off + structHeaderSize + pf.offset))
            (8 * (off + structHeaderSize + pf.offset + inner.packKind.size)) E
            (readPackedField decoders off pf) (.inl w) := by
        intro h g E w hs
        by_cases hm : m = .skipped
        · subst hm
          exact hs.skip
        · refine hs.map Sum.inl fun dec a dec' hok => ?_
          rw [readPackedField, hoff, hdec hm]
          dsimp only
          rw [if_neg hflag, if_pos hnv, decodeField, hok]
          rfl
      by_cases hpres : ∃ w, v = .nullableScalar true w
      · obtain ⟨w, rfl⟩ := hpres
        have hw := hmatch.2 w rfl m n false inner (off + structHeaderSize + pf.offset) 0
          (hsuits.1 hbool) (by decide)
        rw [(hslot _ _).1, (hslot _ _).2] at hw
        have htally : ∀ handle object, fieldTally handle object ⟨.nullableScalar inner, mv⟩
            (.nullableScalar true w) = tally handle object w inner := fun _ _ => if_neg hbool
        rw [htally, htally]
        exact hvalue (hw.mono hneed)
      · rw [absent_present hpres, fieldTally_absent hpres, fieldTally_absent hpres]
        obtain ⟨hnum, hexact⟩ := fieldSuits_absent hpres hsuits
        rw [scalarTarget_absent hpres]
        have hzero := sound_zero need (off + structHeaderSize + pf.offset) false inner
          (fun hm => (hnum.resolve_left hm).resolve_left hbool) (by decide : 0 < 8)
        rw [(hslot _ _).1, (hslot _ _).2] at hzero
        exact hvalue hzero
  · -- a value of its own
    have hplaced := (packed_laidOut (packFields fields)).placed pf hpf
    have hflag := notFlag_plain hpf hft hns
    rw [fieldSuits_plain hns] at hsuits
    rw [fieldNesting_plain hns] at hneed
    rw [if_neg hflag, if_neg hflag, fieldTally_plain hns, fieldTally_plain hns, fieldTarget,
      if_neg hflag, scalarTarget_plain hns]
    have hv := (hmatch.1 m n false ft.ty (off + structHeaderSize + pf.offset) pf.bit hsuits
      hplaced.bit_lt).mono hneed
    exact sound_lastly_false.mp (packedField_plain off decoders hpf hft hns hdec
      (sound_lastly_false.mpr hv))

end MojoRs.Wire
