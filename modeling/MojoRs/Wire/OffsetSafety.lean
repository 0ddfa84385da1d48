/-
MojoRs/Wire/OffsetSafety.lean

The offsets of the decoder, for every message and every type.  An object is
tested by `start + size > bytes.len()`, and where it starts comes from the
message: a pointer may lead to the last bytes of the address space, and then
the test overflows.  No other sum of the decoder does, and no index is out of
range (`decode_in_range_iff`).

The visits are walked once, for what is said here and for the alignment of the
pointers, with one rule for each statement (`Visited`).

Main results: `visitStruct_visited`, `decode_in_range_iff`.
-/
import MojoRs.Wire.Codec
import MojoRs.Wire.PackLayout
import MojoRs.Wire.Visits

namespace MojoRs.Wire

open Lib Traced

variable {α β : Type}

/-! ### Results within range -/

/-- Nothing has gone out of range, though it may have failed. -/
def Clean (x : WireResult α) : Prop := x ≠ .error .outOfRange

namespace Clean

theorem ok (a : α) : Clean (.ok a : WireResult α) := nofun

theorem validation (e : ValidationError) : Clean (.error (.validation e) : WireResult α) := nofun

theorem encode (e : EncodeError) : Clean (.error (.encode e) : WireResult α) := nofun

theorem bind {x : WireResult α} {f : α → WireResult β} (hx : Clean x)
    (hf : ∀ a, x = .ok a → Clean (f a)) : Clean (x >>= f) := by
  cases x with
  | ok a => exact hf a rfl
  | error e => exact fun h => hx (congrArg Except.error (Except.error.inj h))

theorem checkedAdd (a b : Nat) : Clean (checkedAdd a b) := by
  unfold Wire.checkedAdd
  split_ifs
  · exact ok _
  · exact encode _

theorem checkedMul (a b : Nat) : Clean (checkedMul a b) := by
  unfold Wire.checkedMul
  split_ifs
  · exact ok _
  · exact encode _

variable {dec : Decoder}

theorem claim (start len : Nat) : Clean (dec.claim start len) := by
  refine bind (checkedAdd _ _) fun e _ => ?_
  split_ifs
  · exact validation _
  · exact validation _
  · exact validation _
  · exact ok _

theorem enter : Clean dec.enter := by
  unfold Decoder.enter
  dsimp only
  split_ifs
  · exact validation _
  · exact ok _

theorem readByte (offset : Nat) : Clean (dec.readByte offset) := by
  unfold Decoder.readByte
  split
  · exact ok _
  · exact validation _

theorem readUint (w offset : Nat) : Clean (dec.readUint w offset) := by
  refine bind (checkedAdd _ _) fun e _ => ?_
  split_ifs
  · exact ok _
  · exact validation _

theorem readPointer (offset : Nat) : Clean (dec.readPointer offset) :=
  bind (readUint _ _) fun _ _ => ok _

theorem checkHandle (index : Nat) : Clean (checkHandle dec index) := by
  unfold Wire.checkHandle
  split_ifs
  · exact validation _
  · exact ok _

theorem propagateMinVersion (next : Nat) (pfs : List PackedField) :
    Clean (propagateMinVersion next pfs) := by
  induction pfs generalizing next with
  | nil => exact ok _
  | cons pf pfs ih =>
      have hnext : Clean (nextMinVersion next pf) := by
        unfold nextMinVersion
        split
        · split_ifs
          · exact encode _
          · exact ok _
        · split_ifs
          · exact encode _
          · exact ok _
      refine hnext.bind fun mv _ => ?_
      split_ifs
      · exact encode _
      · exact (ih mv).bind fun _ _ => ok _

theorem pack (fields : List Field) : Clean (PackedStruct.pack fields) :=
  (propagateMinVersion _ _).bind fun _ _ => ok _

theorem checkStructSize (fields : List FieldType) (packed : PackedStruct) (numBytes version : Nat) :
    Clean (checkStructSize fields packed numBytes version) := by
  unfold Wire.checkStructSize
  split_ifs
  · split
    · split_ifs
      · exact validation _
      · exact ok _
    · exact ok _
  · exact validation _
  · exact ok _

/-- A value of fixed width. -/
theorem decodeScalar {ty : Ty} (hty : ∀ n, (scalarValue ty n).isSome) (offset bit : Nat) :
    Clean (decodeScalar ty offset bit dec) := by
  have hread : Clean (readScalar dec ty.packKind.size offset) := by
    unfold readScalar
    split_ifs
    · exact (readByte offset).bind fun _ _ => ok _
    · exact readUint _ _
  refine hread.bind fun n _ => ?_
  obtain ⟨v, hv⟩ := Option.isSome_iff_exists.mp (hty n)
  rw [hv]
  exact ok _

end Clean

/-! ### Rules for visits -/

/-- The objects of a record are tested within the address space. -/
def ObjectsFit (events : List Visit) : Prop :=
  ∀ start size, .object start size ∈ events → start + size < usizeLimit

/-- The end of an object is a `usize`. -/
def Visit.fits : Visit → Bool
  | .object start size => start + size < usizeLimit
  | _ => true

theorem all_fits_iff (events : List Visit) : events.all Visit.fits ↔ ObjectsFit events := by
  rw [List.all_eq_true]
  constructor
  · exact fun h start size hmem => of_decide_eq_true (h _ hmem)
  · intro h v hv
    cases v with
    | object start size => exact decide_eq_true (h start size hv)
    | _ => rfl

instance (events : List Visit) : Decidable (ObjectsFit events) :=
  decidable_of_iff _ (all_fits_iff events)

/-- Every sum of a record fits 64 bits. -/
def SumsFit (events : List Visit) : Prop :=
  (∀ n, .sum n ∈ events → n < usizeLimit) ∧ ObjectsFit events

/-- Every pointer of a record is stored at a multiple of eight. -/
def SlotsAligned (events : List Visit) : Prop := ∀ slot target, .pointer slot target ∈ events → 8 ∣ slot

/-- The pointers of a record are those of the message. -/
def PointersRead (bytes : List UInt8) (events : List Visit) : Prop :=
  ∀ slot target, .pointer slot target ∈ events →
    Pointer.decode slot (readLE bytes slot 8) = .offset target

/-- A visit of a message of the given bytes.  It does not go out of range just if
the objects are tested within the address space, and other sums fit in any case;
where it is entered at an aligned offset, and every aligned pointer has an
aligned target, all pointers are aligned; and what it returns meets `V`. -/
structure Visited (bytes : List UInt8) (aligned : Prop) (x : Visiting α) (V : α → Prop) : Prop where
  returns : ∀ a, x.result = .ok a → V a
  read : PointersRead bytes x.events
  clean : Clean x.result ↔ ObjectsFit x.events
  sums : bytes.length < 2 ^ 63 → ∀ n, .sum n ∈ x.events → n < usizeLimit
  slots : aligned → ∀ Q : Nat → Nat → Prop, (∀ slot target, 8 ∣ slot → Q slot target → 8 ∣ target) →
    (∀ slot target, .pointer slot target ∈ x.events → Q slot target) → SlotsAligned x.events

section Rules

variable {bytes : List UInt8} {p q : Prop} {V : α → Prop} {W : β → Prop} {x : Visiting α}
  {f : α → Visiting β} {dec : Decoder}

theorem Visited.bind (hx : Visited bytes p x V)
    (hf : ∀ a, V a → Visited bytes p (f a) W) : Visited bytes p (x >>= f) W := by
  refine ⟨fun b hb => ?_, fun slot target hmem => ?_, ?_, fun hlen n hmem => ?_,
    fun hp Q hQ hall slot target hmem => ?_⟩
  · rw [result_bind] at hb
    obtain ⟨a, ha, hb⟩ := bind_eq_ok hb
    exact (hf a (hx.returns a ha)).returns b hb
  · rcases mem_events_bind.mp hmem with hmem | ⟨a, ha, hmem⟩
    · exact hx.read slot target hmem
    · exact (hf a (hx.returns a ha)).read slot target hmem
  · cases hresult : x.result with
    | error e =>
        have hsame : (x >>= f).result = .error e := by
          rw [result_bind, hresult]
          rfl
        have hclean := hx.clean
        rw [hresult] at hclean
        rw [events_bind_error hresult, hsame, ← hclean]
        exact ⟨fun h heq => h (congrArg Except.error (Except.error.inj heq)),
          fun h heq => h (congrArg Except.error (Except.error.inj heq))⟩
    | ok a =>
        have hfirst : ObjectsFit x.events := hx.clean.mp (hresult ▸ .ok a)
        have hsame : (x >>= f).result = (f a).result := by
          rw [result_bind, hresult]
          rfl
        rw [hsame, (hf a (hx.returns a hresult)).clean, events_bind_ok hresult]
        exact ⟨fun h start size hmem => (List.mem_append.mp hmem).elim (hfirst start size)
          (h start size), fun h start size hmem => h start size (List.mem_append_right _ hmem)⟩
  · rcases mem_events_bind.mp hmem with hmem | ⟨a, ha, hmem⟩
    · exact hx.sums hlen n hmem
    · exact (hf a (hx.returns a ha)).sums hlen n hmem
  · rcases mem_events_bind.mp hmem with hmem | ⟨a, ha, hmem⟩
    · exact hx.slots hp Q hQ (fun s t hs => hall s t (mem_events_bind.mpr (.inl hs))) slot target hmem
    · exact (hf a (hx.returns a ha)).slots hp Q hQ
        (fun s t hs => hall s t (mem_events_bind.mpr (.inr ⟨a, ha, hs⟩))) slot target hmem

theorem Visited.mono (hx : Visited bytes q x V) (h : p → q) : Visited bytes p x V :=
  ⟨hx.returns, hx.read, hx.clean, hx.sums, fun hp => hx.slots (h hp)⟩

theorem Visited.imp {V' : α → Prop} (hx : Visited bytes p x V) (h : ∀ a, V a → V' a) :
    Visited bytes p x V' :=
  ⟨fun a ha => h a (hx.returns a ha), hx.read, hx.clean, hx.sums, hx.slots⟩

theorem visited_lift {y : WireResult α} (hclean : Clean y) (hy : ∀ a, y = .ok a → V a) :
    Visited bytes p (lift y) V := by
  refine ⟨hy, fun _ _ hmem => absurd hmem List.not_mem_nil, ?_,
    fun _ _ hmem => absurd hmem List.not_mem_nil, fun _ _ _ _ _ _ hmem => absurd hmem List.not_mem_nil⟩
  exact iff_of_true hclean fun _ _ hmem => absurd hmem List.not_mem_nil

theorem visited_ok {a : α} (h : V a) : Visited bytes p (lift (.ok a)) V :=
  visited_lift (.ok a) fun _ ha => Except.ok.inj ha ▸ h

theorem visited_error {e : WireError} (h : e ≠ .outOfRange) : Visited bytes p (lift (.error e)) V :=
  visited_lift (fun heq => h (Except.error.inj heq)) fun _ ha => nomatch ha

/-- A sum that is known to fit. -/
theorem visited_sum {n : Nat} (h : bytes.length < 2 ^ 63 → n < usizeLimit) :
    Visited bytes p (record (.sum n)) fun _ => True := by
  refine ⟨fun _ _ => trivial, fun _ _ hmem => ?_, iff_of_true (.ok _) fun _ _ hmem => ?_,
    fun hlen k hmem => ?_, fun _ _ _ _ _ _ hmem => ?_⟩
  · cases List.mem_singleton.mp hmem
  · cases List.mem_singleton.mp hmem
  · obtain rfl := Visit.sum.inj (List.mem_singleton.mp hmem)
    exact h hlen
  · cases List.mem_singleton.mp hmem

/-- A pointer that is followed, from an aligned slot to what is aligned then. -/
theorem Visited.pointer {slot target : Nat} {f : Unit → Visiting α}
    (hread : Pointer.offset target = .decode slot (readLE bytes slot 8)) (hslot : p → 8 ∣ slot)
    (hx : Visited bytes (p ∧ 8 ∣ target) (f ()) V) :
    Visited bytes p (record (.pointer slot target) >>= f) V := by
  have hevents : (record (.pointer slot target) >>= f).events = .pointer slot target :: (f ()).events :=
    rfl
  refine ⟨hx.returns, fun slot' target' hmem => ?_, ?_, fun hlen n hmem => ?_,
    fun hp Q hQ hall => ?_⟩
  · rcases List.mem_cons.mp hmem with heq | hmem
    · obtain ⟨rfl, rfl⟩ := Visit.pointer.inj heq
      exact hread.symm
    · exact hx.read slot' target' hmem
  · rw [hevents]
    exact hx.clean.trans ⟨fun h start size hmem => h start size ((List.mem_cons.mp hmem).resolve_left
      nofun), fun h start size hmem => h start size (List.mem_cons_of_mem _ hmem)⟩
  · exact hx.sums hlen n ((List.mem_cons.mp hmem).resolve_left nofun)
  · rw [hevents] at hall ⊢
    have htarget := hQ slot target (hslot hp) (hall slot target List.mem_cons_self)
    intro slot' target' hmem
    rcases List.mem_cons.mp hmem with heq | hmem
    · obtain ⟨rfl, -⟩ := Visit.pointer.inj heq
      exact hslot hp
    · exact hx.slots ⟨hp, htarget⟩ Q hQ (fun s t hs => hall s t (List.mem_cons_of_mem _ hs)) slot' target'
        hmem

/-- The test of an object. -/
theorem visited_inRange (hdec : dec.bytes = bytes) (start len : Nat) :
    Visited bytes p (visitInRange dec start len) fun _ => start + len ≤ bytes.length := by
  have hresult : (visitInRange dec start len).result = dec.inRange start len := rfl
  have hevents : (visitInRange dec start len).events = [.object start len] := rfl
  refine ⟨fun a ha => ?_, fun _ _ hmem => ?_, ?_, fun _ _ hmem => ?_, fun _ _ _ _ _ _ hmem => ?_⟩
  · rw [hresult, Decoder.inRange, hdec] at ha
    split_ifs at ha
    exact Nat.le_of_not_lt ‹_›
  · rw [hevents] at hmem
    cases List.mem_singleton.mp hmem
  · have hfits : ObjectsFit [.object start len] ↔ start + len < usizeLimit := by
      constructor
      · exact fun h => h start len (List.mem_singleton_self _)
      · intro h _ _ hmem
        obtain ⟨rfl, rfl⟩ := Visit.object.inj (List.mem_singleton.mp hmem)
        exact h
    rw [hresult, hevents, hfits, Decoder.inRange]
    split_ifs with hover hlong
    · exact iff_of_false (fun h => h rfl) (Nat.not_lt.mpr hover)
    · exact iff_of_true (.validation _) (Nat.lt_of_not_le hover)
    · exact iff_of_true (.ok _) (Nat.lt_of_not_le hover)
  · rw [hevents] at hmem
    cases List.mem_singleton.mp hmem
  · rw [hevents] at hmem
    cases List.mem_singleton.mp hmem

end Rules

/-! ### Objects -/

section Objects

variable {bytes : List UInt8} {p : Prop} {dec : Decoder}

/-- A decoder that returns keeps the message. -/
abbrev Returns (bytes : List UInt8) (x : α × Decoder) : Prop := x.2.bytes = bytes

/-- A number that is read lies in the message. -/
theorem readUint_le {w off n : Nat} (h : dec.readUint w off = .ok n) :
    off + w ≤ dec.bytes.length := by
  obtain ⟨e, he, h⟩ := bind_eq_ok h
  obtain ⟨rfl, -⟩ := checkedAdd_eq_ok he
  split_ifs at h with hin
  exact hin

theorem visited_readUint (hdec : dec.bytes = bytes) (w offset : Nat) :
    Visited bytes p (lift (dec.readUint w offset))
      fun n => n < 256 ^ w ∧ offset + w ≤ bytes.length :=
  visited_lift (.readUint _ _) fun _ hn => ⟨readUint_lt hn, hdec ▸ readUint_le hn⟩

theorem visited_claim (hdec : dec.bytes = bytes) (start len : Nat) :
    Visited bytes p (lift (dec.claim start len))
      fun dec' => dec'.bytes = bytes ∧ start + len ≤ bytes.length := by
  refine visited_lift (.claim _ _) fun dec' h => ?_
  obtain ⟨-, -, hle, rfl⟩ := claim_eq_ok h
  exact ⟨hdec, hdec ▸ hle⟩

theorem visited_readPointer (hdec : dec.bytes = bytes) (offset : Nat) :
    Visited bytes p (lift (dec.readPointer offset))
      fun ptr => ptr = .decode offset (readLE bytes offset 8) := by
  exact visited_lift (.readPointer _) fun ptr h => hdec ▸ readPointer_eq_ok h

theorem visited_nested {visit : Decoder → Visiting (α × Decoder)} (hdec : dec.bytes = bytes)
    (h : ∀ dec, dec.bytes = bytes → Visited bytes p (visit dec) (Returns bytes)) :
    Visited bytes p (visitNested dec visit) (Returns bytes) := by
  have henter : Visited bytes p (lift dec.enter) fun dec' => dec'.bytes = bytes := by
    refine visited_lift .enter fun dec' h => ?_
    unfold Decoder.enter at h
    dsimp only at h
    split_ifs at h
    obtain rfl := Except.ok.inj h
    exact hdec
  refine henter.bind fun dec' hdec' => (h dec' hdec').bind fun x hx => visited_ok hx

/-- An object behind a pointer, visited wherever it may be. -/
theorem visited_follow {visit : Nat → Decoder → Visiting (Value × Decoder)}
    (h : ∀ target dec, dec.bytes = bytes →
      Visited bytes (8 ∣ target) (visit target dec) (Returns bytes))
    (hdec : dec.bytes = bytes) (offset : Nat) (nullable : Bool) :
    Visited bytes (8 ∣ offset) (visitFollow dec offset nullable visit) (Returns bytes) := by
  refine (visited_readPointer hdec offset).bind fun ptr hptr => ?_
  cases ptr with
  | null =>
      dsimp only
      split_ifs
      · exact visited_ok hdec
      · exact visited_error nofun
  | offset target => exact Visited.pointer hptr id ((h target dec hdec).mono And.right)

/-- The visitor of a field.  Where the type may hold pointers, its alignment is
eight, and the offset of the field is to be aligned. -/
def FieldVisited (bytes : List UInt8) (ty : Ty) (visit : FieldVisitor) : Prop :=
  ∀ offset bit dec, dec.bytes = bytes →
    Visited bytes (ty.packKind.alignment = 8 → 8 ∣ offset) (visit offset bit dec) (Returns bytes)

/-- The visitors of the fields of a struct. -/
abbrev FieldsVisited (bytes : List UInt8) (fields : List FieldType)
    (visitors : List FieldVisitor) : Prop :=
  List.Forall₂ (fun ft visit => FieldVisited bytes ft.ty visit) fields visitors

theorem FieldsVisited.getElem? {fields : List FieldType} {visitors : List FieldVisitor}
    (h : FieldsVisited bytes fields visitors) {i : Nat} {ft : FieldType}
    (hft : fields[i]? = some ft) :
    ∃ visit, visitors[i]? = some visit ∧ FieldVisited bytes ft.ty visit := by
  induction h generalizing i with
  | nil => cases hft
  | @cons ft' visit _ _ hvisit _ ih =>
      cases i with
      | zero =>
          obtain rfl := Option.some.inj hft
          exact ⟨visit, rfl, hvisit⟩
      | succ i => exact ih hft

/-- A packed field of a struct that reaches to `offset + numBytes`. -/
theorem visited_packedField {fields : List FieldType} {visitors : List FieldVisitor}
    (h : FieldsVisited bytes fields visitors) {offset numBytes version : Nat}
    (hin : offset + numBytes ≤ bytes.length) {pf : PackedField}
    (hpf : pf ∈ (packed (packFields fields)).packedFields) {st : DecodedFields}
    (hdec : st.dec.bytes = bytes) :
    Visited bytes (8 ∣ offset) (visitPackedField visitors offset numBytes version pf st)
      fun st' => st'.dec.bytes = bytes := by
  unfold visitPackedField
  dsimp only
  by_cases hread : pf.minVersion ≤ version ∧ structHeaderSize + pf.offset + pf.size ≤ numBytes
  · rw [if_pos hread]
    have hsum : bytes.length < 2 ^ 63 → offset + (structHeaderSize + pf.offset) < usizeLimit := by
      intro hlen
      have hlimit : 2 ^ 63 < usizeLimit := by decide
      omega
    refine (visited_sum hsum).bind fun _ _ => ?_
    by_cases hflag : pf.field.nullableValueKind ∧ pf.field.kind = .bool
    · rw [if_pos hflag]
      exact (visited_lift (.readByte _) fun _ _ => trivial).bind (V := fun _ => True)
        fun _ _ => visited_ok hdec
    · rw [if_neg hflag]
      obtain ⟨i, f, hf, -, hfield⟩ := mem_packed hpf
      have hfield : pf.field = f := by
        rcases hfield with ⟨-, heq⟩ | ⟨hnullable, heq | heq⟩
        · exact heq
        · rw [heq] at hflag
          exact absurd ⟨hnullable, rfl⟩ hflag
        · exact heq
      rw [getElem?_packFieldsFrom, Option.map_eq_some_iff] at hf
      obtain ⟨ft, hft, rfl⟩ := hf
      obtain ⟨visit, hvisit, hvisited⟩ := h.getElem? hft
      have hindex : pf.field.index = i := by
        rw [hfield]
        exact Nat.zero_add i
      rw [hindex, hvisit]
      -- the field is aligned if the struct is
      have haligned : 8 ∣ offset → ft.ty.packKind.alignment = 8 →
          8 ∣ offset + (structHeaderSize + pf.offset) := by
        intro hoffset hkind
        have hplaced := ((packed_laidOut _).placed pf hpf).aligned
        rw [hfield, show (ft.toField (0 + i)).kind.alignment = 8 from hkind] at hplaced
        exact Nat.dvd_add hoffset (Nat.dvd_add (Nat.dvd_refl 8) hplaced)
      exact ((hvisited _ _ st.dec hdec).mono haligned).bind fun x hx => visited_ok hx
  · rw [if_neg hread]
    exact visited_ok hdec

theorem visited_packedFields {fields : List FieldType} {visitors : List FieldVisitor}
    (h : FieldsVisited bytes fields visitors) {offset numBytes version : Nat}
    (hin : offset + numBytes ≤ bytes.length) {pfs : List PackedField}
    (hpfs : ∀ pf ∈ pfs, pf ∈ (packed (packFields fields)).packedFields) {st : DecodedFields}
    (hdec : st.dec.bytes = bytes) :
    Visited bytes (8 ∣ offset) (visitPackedFields visitors offset numBytes version pfs st)
      fun st' => st'.dec.bytes = bytes := by
  induction pfs generalizing st with
  | nil => exact visited_ok hdec
  | cons pf pfs ih =>
      refine (visited_packedField h hin (hpfs pf List.mem_cons_self) hdec).bind fun st' hdec' => ?_
      exact ih (fun pf' hpf' => hpfs pf' (List.mem_cons_of_mem _ hpf')) hdec'

theorem visited_structBody {fields : List FieldType} {visitors : List FieldVisitor}
    (h : FieldsVisited bytes fields visitors) (claimSelf : Bool) (offset : Nat)
    (hdec : dec.bytes = bytes) :
    Visited bytes (8 ∣ offset) (visitStructBody fields visitors claimSelf offset dec)
      (Returns bytes) := by
  have hlimit : 2 ^ 63 + 256 ^ 4 < usizeLimit := by decide
  refine (visited_inRange hdec offset structHeaderSize).bind fun _ hin => ?_
  refine (visited_readUint hdec 4 offset).bind fun numBytes hnum => ?_
  refine (visited_sum fun hlen => by omega).bind fun _ _ => ?_
  refine (visited_readUint hdec 4 (offset + 4)).bind fun version _ => ?_
  split_ifs with hsmall hlong
  · exact visited_error nofun
  · exact (visited_sum fun hlen => by omega).bind fun _ _ => visited_error nofun
  · refine (visited_sum fun hlen => by omega).bind fun _ _ => ?_
    have hclaim : Visited bytes (8 ∣ offset) (lift (dec.claimIf claimSelf offset numBytes))
        fun dec' => dec'.bytes = bytes := by
      cases claimSelf with
      | true => exact (visited_claim hdec offset numBytes).imp fun _ => And.left
      | false => exact visited_ok hdec
    refine hclaim.bind fun dec' hdec' => ?_
    refine (visited_lift (.pack _) fun pk hpk => (pack_eq_ok hpk).2).bind fun pk hpk => ?_
    refine (visited_lift (.checkStructSize _ _ _ _) fun _ _ => trivial).bind (V := fun _ => True)
      fun _ _ => ?_
    rw [hpk]
    rw [hdec] at hlong
    refine (visited_packedFields h (Nat.le_of_not_lt hlong) (fun _ hpf => hpf) hdec').bind
      fun st hst => ?_
    exact visited_ok hst

theorem visited_struct {fields : List FieldType} {visitors : List FieldVisitor}
    (h : FieldsVisited bytes fields visitors) (offset : Nat) (hdec : dec.bytes = bytes) :
    Visited bytes (8 ∣ offset) (visitStruct fields visitors offset dec) (Returns bytes) :=
  visited_nested hdec fun _ hdec => visited_structBody h true offset hdec

/-- Each member is visited as its type says. -/
abbrev MembersVisited (bytes : List UInt8) (visitors : List FieldVisitor) : Prop :=
  ∀ visit ∈ visitors, ∃ ty, FieldVisited bytes ty visit

theorem visited_union {visitors : List FieldVisitor} (h : MembersVisited bytes visitors)
    (claimSelf : Bool) (target : Nat) (hdec : dec.bytes = bytes) :
    Visited bytes (8 ∣ target) (visitUnionAt visitors claimSelf target dec) (Returns bytes) := by
  have hlimit : 2 ^ 63 < usizeLimit := by decide
  refine (visited_inRange hdec target 8).bind fun _ hin => ?_
  refine (visited_readUint hdec 4 target).bind fun size _ => ?_
  refine (visited_sum fun hlen => by omega).bind fun _ _ => ?_
  refine (visited_readUint hdec 4 (target + 4)).bind fun tag _ => ?_
  rcases hvisit : visitors[tag]? with - | visit
  · exact visited_error nofun
  have hclaim : Visited bytes (8 ∣ target) (lift <| if claimSelf then
      if size ≠ unionDataSize then .error illegalMemoryRange else dec.claim target unionDataSize
      else .ok dec) fun dec' => dec'.bytes = bytes := by
    split_ifs
    · exact visited_error nofun
    · exact (visited_claim hdec target unionDataSize).imp fun _ => And.left
    · exact visited_ok hdec
  refine hclaim.bind fun dec' hdec' => ?_
  refine (visited_sum fun hlen => by omega).bind fun _ _ => ?_
  obtain ⟨ty, hmember⟩ := h visit (List.mem_of_getElem? hvisit)
  exact ((hmember (target + 8) 0 dec' hdec').mono
    fun ht _ => Nat.dvd_add ht (Nat.dvd_refl 8)).bind fun x hx => visited_ok hx

theorem visited_string (target : Nat) (hdec : dec.bytes = bytes) :
    Visited bytes p (visitStringAt target dec) (Returns bytes) := by
  have hlimit : 2 ^ 63 + 256 ^ 4 < usizeLimit := by decide
  refine (visited_inRange hdec target arrayHeaderSize).bind fun _ hin => ?_
  have hheader : arrayHeaderSize = 8 := rfl
  refine (visited_readUint hdec 4 target).bind fun numBytes _ => ?_
  refine (visited_sum fun hlen => by omega).bind fun _ _ => ?_
  refine (visited_readUint hdec 4 (target + 4)).bind fun numElements hnum => ?_
  by_cases hsize : numBytes < arrayHeaderSize ∨ numBytes > dec.bytes.length - target
  · rw [if_pos hsize]
    exact visited_error nofun
  rw [if_neg hsize]
  by_cases hlong : numElements > numBytes - arrayHeaderSize
  · rw [if_pos hlong]
    exact visited_error nofun
  rw [if_neg hlong]
  refine (visited_sum fun hlen => by omega).bind fun _ _ => ?_
  refine (visited_sum fun hlen => by omega).bind fun _ _ => ?_
  dsimp only
  split_ifs
  · exact visited_error nofun
  · exact visited_error nofun
  · refine (visited_claim hdec target numBytes).bind fun dec' hdec' => ?_
    split
    · exact visited_ok hdec'.1
    · exact visited_error nofun

/-- The elements of an array, all within the message.  Elements with pointers
have eight bytes. -/
theorem visited_items {visit : Nat → Decoder → Visiting (Value × Decoder)} {elemSize : Nat}
    (h : ∀ off dec, dec.bytes = bytes →
      Visited bytes (elemSize = 8 → 8 ∣ off) (visit off dec) (Returns bytes))
    {n itemOff : Nat} (hin : itemOff + elemSize * n ≤ bytes.length) (hpos : 0 < elemSize)
    (hdec : dec.bytes = bytes) :
    Visited bytes (elemSize = 8 → 8 ∣ itemOff) (visitItems visit elemSize n itemOff dec)
      (Returns bytes) := by
  have hlimit : 2 ^ 63 < usizeLimit := by decide
  induction n generalizing itemOff dec with
  | zero => exact visited_ok hdec
  | succ n ih =>
      have hnext : itemOff + elemSize + elemSize * n ≤ bytes.length := by
        rw [Nat.mul_succ] at hin
        omega
      have haligned : (elemSize = 8 → 8 ∣ itemOff) → elemSize = 8 → 8 ∣ itemOff + elemSize :=
        fun hoff hsize => Nat.dvd_add (hoff hsize) (hsize ▸ Nat.dvd_refl 8)
      refine (visited_sum fun hlen => by omega).bind fun _ _ => ?_
      refine (h itemOff dec hdec).bind fun x hx => ?_
      exact ((ih hnext hx).mono haligned).bind fun xs hxs => visited_ok hxs

theorem elemSize_eq_of_pod {element : Ty} (h : element.isPod = true)
    (halign : element.packKind.alignment = 8) : element.elemSize = 8 := by
  rw [Ty.elemSize, if_pos h]
  unfold Ty.isPod at h
  split at h
  all_goals first
    | exact halign
    | cases h

theorem elemSize_pos (element : Ty) : 0 < element.elemSize := by
  unfold Ty.elemSize
  split_ifs
  · exact Kind.size_pos _
  · decide

theorem visited_item {element : Ty} {field : FieldVisitor}
    {object : Nat → Decoder → Visiting (Value × Decoder)}
    (hfield : FieldVisited bytes element field)
    (hobject : ∀ target dec, dec.bytes = bytes →
      Visited bytes (8 ∣ target) (object target dec) (Returns bytes))
    (itemOff : Nat) (dec : Decoder) (hdec : dec.bytes = bytes) :
    Visited bytes (element.elemSize = 8 → 8 ∣ itemOff)
      (visitItem element field object itemOff dec) (Returns bytes) := by
  unfold visitItem
  split_ifs with hpod
  · exact (hfield itemOff 0 dec hdec).mono fun h halign => h (elemSize_eq_of_pod hpod halign)
  · have hsize : element.elemSize = 8 := by
      rw [Ty.elemSize, if_neg hpod]
      rfl
    exact (visited_follow hobject hdec itemOff _).mono fun h => h hsize

theorem visited_arrayBody {element : Ty} {visit : Nat → Decoder → Visiting (Value × Decoder)}
    (h : ∀ off dec, dec.bytes = bytes →
      Visited bytes (element.elemSize = 8 → 8 ∣ off) (visit off dec) (Returns bytes))
    (target : Nat) (dec : Decoder) (hdec : dec.bytes = bytes) :
    Visited bytes (8 ∣ target) (visitArrayBody element visit target dec) (Returns bytes) := by
  have hlimit : 2 ^ 63 < usizeLimit := by decide
  have hheader : arrayHeaderSize = 8 := rfl
  refine (visited_inRange hdec target arrayHeaderSize).bind fun _ hin => ?_
  refine (visited_readUint hdec 4 target).bind fun numBytes _ => ?_
  refine (visited_sum fun hlen => by omega).bind fun _ _ => ?_
  refine (visited_readUint hdec 4 (target + 4)).bind fun numElements _ => ?_
  refine (visited_lift (.checkedMul _ _) fun raw hraw => (checkedMul_eq_ok hraw).1).bind
    fun raw hraw => ?_
  refine (visited_lift (.checkedAdd _ _) fun minBytes hmin => (checkedAdd_eq_ok hmin).1).bind
    fun minBytes hmin => ?_
  by_cases hshort : numBytes < minBytes
  · rw [if_pos hshort]
    exact visited_error nofun
  rw [if_neg hshort]
  by_cases hlong : numBytes > dec.bytes.length - target
  · rw [if_pos hlong]
    exact visited_error nofun
  rw [if_neg hlong]
  refine (visited_claim hdec target numBytes).bind fun dec' hdec' => ?_
  refine (visited_sum fun hlen => by omega).bind fun _ _ => ?_
  have hitems : target + arrayHeaderSize + element.elemSize * numElements ≤ bytes.length := by
    have := hdec'.2
    omega
  exact (visited_items h hitems (elemSize_pos element) hdec'.1).mono
    fun ht _ => Nat.dvd_add ht (Nat.dvd_refl 8)

theorem visited_arrayValue {element : Ty} {visit : Nat → Decoder → Visiting (Value × Decoder)}
    (h : ∀ off dec, dec.bytes = bytes →
      Visited bytes (element.elemSize = 8 → 8 ∣ off) (visit off dec) (Returns bytes))
    (target : Nat) (dec : Decoder) (hdec : dec.bytes = bytes) :
    Visited bytes (8 ∣ target) (visitArrayValue element visit target dec) (Returns bytes) :=
  (visited_arrayBody h target dec hdec).bind fun _ hx => visited_ok hx

/-- The visitor of the array of keys or of values. -/
abbrev ArrayVisited (bytes : List UInt8)
    (visit : Nat → Decoder → Visiting (List Value × Decoder)) : Prop :=
  ∀ target dec, dec.bytes = bytes → Visited bytes (8 ∣ target) (visit target dec) (Returns bytes)

theorem visited_map {keys values : Nat → Decoder → Visiting (List Value × Decoder)}
    (hkeys : ArrayVisited bytes keys) (hvalues : ArrayVisited bytes values) (target : Nat)
    (dec : Decoder) (hdec : dec.bytes = bytes) :
    Visited bytes (8 ∣ target) (visitMapAt keys values target dec) (Returns bytes) := by
  have hlimit : 2 ^ 63 < usizeLimit := by decide
  have hmap : mapDataSize = 24 := rfl
  refine visited_nested hdec fun dec hdec => ?_
  refine (visited_inRange hdec target mapDataSize).bind fun _ hin => ?_
  refine (visited_readUint hdec 4 target).bind fun numBytes _ => ?_
  split_ifs
  · exact visited_error nofun
  refine (visited_claim hdec target numBytes).bind fun dec' hdec' => ?_
  refine (visited_sum fun hlen => by omega).bind fun _ _ => ?_
  refine (visited_readPointer hdec'.1 (target + 8)).bind fun kp hkp => ?_
  refine (visited_sum fun hlen => by omega).bind fun _ _ => ?_
  refine (visited_readPointer hdec'.1 (target + 16)).bind fun vp hvp => ?_
  rcases kp with - | ko
  · exact visited_error nofun
  rcases vp with - | vo
  · exact visited_error nofun
  have haligned {k : Nat} (hk : 8 ∣ k) (ht : 8 ∣ target) : 8 ∣ target + k := Nat.dvd_add ht hk
  -- the pointer to the values is followed when the keys have been visited
  apply Visited.pointer hkp (haligned (by decide))
  refine ((hkeys ko dec' hdec'.1).mono And.right).bind fun ks hks => ?_
  apply Visited.pointer hvp fun h => haligned (by decide) h.1
  refine ((hvalues vo ks.2 hks).mono And.right).bind fun vs hvs => ?_
  dsimp only
  split_ifs
  · exact visited_error nofun
  · exact visited_ok hvs

theorem visited_pair (hdec : dec.bytes = bytes) (offset : Nat) :
    Visited bytes p (visitPair dec offset) fun _ => True := by
  have hlimit : 2 ^ 63 < usizeLimit := by decide
  refine (visited_readUint hdec 4 offset).bind fun a _ => ?_
  refine (visited_sum fun hlen => by omega).bind fun _ _ => ?_
  exact (visited_readUint hdec 4 (offset + 4)).bind fun b _ => visited_ok trivial

/-- Fields that are read in place leave the decoder as it is. -/
theorem decodeBool_keeps {payload : Bool} {offset bit : Nat} {v : Value} {dec' : Decoder}
    (h : decodeField .bool payload offset bit dec = .ok (v, dec')) : dec' = dec := by
  rw [decodeField] at h
  obtain ⟨byte, -, h⟩ := bind_eq_ok h
  exact (Prod.mk.inj (Except.ok.inj h)).2.symm

theorem decodeHandle_keeps {payload : Bool} {offset bit : Nat} {v : Value} {dec' : Decoder}
    (h : decodeField .handle payload offset bit dec = .ok (v, dec')) : dec' = dec := by
  rw [decodeField] at h
  obtain ⟨index, -, h⟩ := bind_eq_ok h
  obtain ⟨⟨⟩, -, h⟩ := bind_eq_ok h
  exact (Prod.mk.inj (Except.ok.inj h)).2.symm

theorem decodeScalar_keeps {ty : Ty} {offset bit : Nat} {v : Value} {dec' : Decoder}
    (h : decodeScalar ty offset bit dec = .ok (v, dec')) : dec' = dec := by
  obtain ⟨n, -, h⟩ := bind_eq_ok h
  split at h
  · exact (Prod.mk.inj (Except.ok.inj h)).2.symm
  · cases h

theorem visited_leaf {x : WireResult (Value × Decoder)} (hclean : Clean x)
    (hkeep : ∀ v dec', x = .ok (v, dec') → dec' = dec) (hdec : dec.bytes = bytes) :
    Visited bytes p (lift x) (Returns bytes) := by
  refine visited_lift hclean fun y hy => ?_
  obtain rfl := hkeep y.1 y.2 hy
  exact hdec

theorem visited_bool (payload : Bool) (offset bit : Nat) (hdec : dec.bytes = bytes) :
    Visited bytes p (lift (decodeField .bool payload offset bit dec)) (Returns bytes) :=
  visited_leaf ((Clean.readByte _).bind fun _ _ => .ok _) (fun _ _ => decodeBool_keeps) hdec

theorem visited_handle (payload : Bool) (offset bit : Nat) (hdec : dec.bytes = bytes) :
    Visited bytes p (lift (decodeField .handle payload offset bit dec)) (Returns bytes) :=
  visited_leaf ((Clean.readUint _ _).bind fun _ _ => (Clean.checkHandle _).bind fun _ _ => .ok _)
    (fun _ _ => decodeHandle_keeps) hdec

theorem visited_scalar {ty : Ty} (hty : ∀ n, (scalarValue ty n).isSome) (offset bit : Nat)
    (hdec : dec.bytes = bytes) :
    Visited bytes p (lift (decodeScalar ty offset bit dec)) (Returns bytes) :=
  visited_leaf (.decodeScalar hty _ _) (fun _ _ => decodeScalar_keeps) hdec

end Objects

/-! ### All types -/

mutual

theorem visited_field (bytes : List UInt8) : ∀ (ty : Ty) (payload : Bool),
    FieldVisited bytes ty (visitField ty payload)
  | .string nullable, _ => fun offset _ _ hdec =>
      (visited_follow (fun target _ => visited_string target) hdec offset nullable).mono (· rfl)
  | .array element nullable, _ => fun offset _ _ hdec =>
      (visited_follow (fun target _ hdec => visited_nested hdec (visited_arrayValue
        (visited_item (visited_field bytes element false) (visited_arrayElement bytes element))
        target)) hdec offset nullable).mono (· rfl)
  | .map key value nullable, _ => fun offset _ _ hdec =>
      (visited_follow (visited_map
        (visited_arrayBody
          (visited_item (visited_field bytes key false) (visited_arrayElement bytes key)))
        (visited_arrayBody
          (visited_item (visited_field bytes value false) (visited_arrayElement bytes value))))
        hdec offset nullable).mono (· rfl)
  | .struct fields _ nullable, payload => by
      intro offset bit dec hdec
      have hfields := visited_fields bytes fields
      rw [visitField]
      split_ifs
      · exact (visited_follow (fun target _ => visited_struct hfields target) hdec offset
          nullable).mono (· rfl)
      · exact (visited_nested hdec fun _ hdec =>
          visited_structBody hfields false offset hdec).mono (· rfl)
  | .union members nullable inlined, _ => by
      intro offset bit dec hdec
      have hmembers := visited_members bytes members
      rw [visitField]
      have hkind : (Ty.union members nullable inlined).packKind.alignment = 8 := by
        cases inlined <;> rfl
      split_ifs
      · exact (visited_union hmembers false offset hdec).mono (· hkind)
      · exact (visited_follow (fun target _ => visited_union hmembers true target) hdec offset
          nullable).mono (· hkind)
  | .interface version, _ => fun offset _ _ hdec =>
      (visited_pair hdec offset).bind fun x _ =>
        (visited_lift (.checkHandle _) fun _ _ => trivial).bind (V := fun _ => True)
          fun _ _ => visited_ok hdec
  | .associatedInterface version, _ => fun offset _ _ hdec =>
      (visited_pair hdec offset).bind fun x _ => visited_ok hdec
  | .nullableScalar inner, _ => visited_field bytes inner false
  | .bool, payload => fun offset bit _ hdec => visited_bool payload offset bit hdec
  | .handle, payload => fun offset bit _ hdec => visited_handle payload offset bit hdec
  | .i8, _ | .u8, _ | .i16, _ | .u16, _ | .i32, _ | .u32, _ | .i64, _ | .u64, _ | .f32, _ | .f64, _
  | .enum, _ | .associatedEndpoint, _ =>
      fun offset bit _ hdec => visited_scalar (fun _ => rfl) offset bit hdec

theorem visited_arrayElement (bytes : List UInt8) : ∀ (ty : Ty) (target : Nat) (dec : Decoder),
    dec.bytes = bytes → Visited bytes (8 ∣ target) (visitArrayElement ty target dec) (Returns bytes)
  | .struct fields _ _ => fun target _ => visited_struct (visited_fields bytes fields) target
  | .string _ => fun target _ => visited_string target
  | .map key value _ => visited_map
      (visited_arrayBody
        (visited_item (visited_field bytes key false) (visited_arrayElement bytes key)))
      (visited_arrayBody
        (visited_item (visited_field bytes value false) (visited_arrayElement bytes value)))
  | .array inner _ => visited_arrayValue
      (visited_item (visited_field bytes inner false) (visited_arrayElement bytes inner))
  | .bool | .i8 | .u8 | .i16 | .u16 | .i32 | .u32 | .i64 | .u64 | .f32 | .f64 | .enum | .handle
  | .union .. | .interface .. | .associatedEndpoint | .associatedInterface .. | .nullableScalar .. =>
      fun _ _ _ => visited_error nofun

theorem visited_fields (bytes : List UInt8) : ∀ fields : List FieldType,
    FieldsVisited bytes fields (fieldVisitors fields)
  | [] => .nil
  | ⟨ty, _⟩ :: fts => .cons (visited_field bytes ty false) (visited_fields bytes fts)

theorem visited_members (bytes : List UInt8) : ∀ members : List Ty,
    MembersVisited bytes (memberVisitors members)
  | [] => fun _ h => nomatch h
  | ty :: tys => List.forall_mem_cons.mpr
      ⟨⟨ty, visited_field bytes ty true⟩, visited_members bytes tys⟩

end

/-! ### Structs -/

/-- `decode_struct`, for any type. -/
def decodeStructOf (ty : Ty) (offset : Nat) (dec : Decoder) : WireResult (Value × Decoder) :=
  match ty with
  | .struct fields _ _ => decodeStruct fields (fieldDecoders fields) offset dec
  | _ => .error (unsupported "expected struct type")

/-- The root struct, recorded. -/
def visitStructOf (ty : Ty) (offset : Nat) (dec : Decoder) : Visiting (Value × Decoder) :=
  match ty with
  | .struct fields _ _ => visitStruct fields (fieldVisitors fields) offset dec
  | _ => lift (.error (unsupported "expected struct type"))

theorem visitStructOf_result (ty : Ty) (offset : Nat) (dec : Decoder) :
    (visitStructOf ty offset dec).result = decodeStructOf ty offset dec := by
  cases ty with
  | struct fields version nullable => exact visitStruct_result fields offset dec
  | _ => rfl

theorem visited_structOf (ty : Ty) (offset : Nat) (dec : Decoder) :
    Visited dec.bytes (8 ∣ offset) (visitStructOf ty offset dec) (Returns dec.bytes) := by
  cases ty with
  | struct fields version nullable => exact visited_struct (visited_fields _ fields) offset rfl
  | _ => exact visited_error nofun

/-- A decoder computes with offsets that fit, and at indices that are in range,
just if it tests no object at the end of the address space.  It is defined by
recursion on the type: whatever the pointers are, it returns. -/
theorem decode_in_range_iff (ty : Ty) (offset : Nat) (dec : Decoder)
    (hlen : dec.bytes.length < 2 ^ 63) :
    SumsFit (visitStructOf ty offset dec).events ∧
        decodeStructOf ty offset dec ≠ .error .outOfRange ↔
      ObjectsFit (visitStructOf ty offset dec).events := by
  have hvisited := visited_structOf ty offset dec
  rw [← visitStructOf_result]
  show SumsFit _ ∧ Clean _ ↔ _
  rw [hvisited.clean]
  exact ⟨And.right, fun h => ⟨⟨hvisited.sums hlen, h⟩, h⟩⟩

end MojoRs.Wire
