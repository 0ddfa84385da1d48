/-
MojoRs/Wire/ClaimedObjects.lean

What an accepted message looks like.  The decoder is run next to the walk of
`MessageObjects.lean`: it claims the homes that the walk meets, one after the
other (`Interpreted.claimed`), so that these are disjoint, in increasing order
and within the message; and every object begins in its home.

It need not end there.  A struct or union in place is checked against the end
of the message only, and so is the NUL behind a string, which may be the first
byte after it.  The objects of a message lie in their homes exactly when these
do (`objects_claimed_iff`, `claims_overrun`).

Handles are counted but not claimed: an index that a value mentions is below
the number of handles (`handles_in_range`), and two fields may mention the same
one (`handle_shared`).
-/
import Mathlib.Data.List.Pairwise
import MojoRs.Wire.EncoderSoundness
import MojoRs.Wire.MessageObjects

namespace MojoRs.Wire

open Lib

/-! ### Handles of a value -/

mutual

/-- The indices of the handles and interfaces inside a value. -/
def Value.indices : Value → List UInt32
  | .handle index | .interface index _ => [index]
  | .array items => indicesOf items
  | .map keys values => indicesOf keys ++ indicesOf values
  | .struct _ fields => indicesOf fields
  | .union _ value | .nullableScalar _ value => value.indices
  | _ => []

/-- The handle indices of values, in order. -/
def indicesOf : List Value → List UInt32
  | [] => []
  | v :: vs => v.indices ++ indicesOf vs

end

/-- Every index in a value is one of `n` handles, or the invalid one. -/
def HandlesIn (n : Nat) (v : Value) : Prop :=
  ∀ i ∈ v.indices, i = encodedInvalidHandleValue ∨ i.toNat < n

theorem mem_indicesOf {i : UInt32} {vs : List Value} (h : i ∈ indicesOf vs) :
    ∃ v ∈ vs, i ∈ v.indices := by
  induction vs with
  | nil => cases h
  | cons v vs ih =>
      rcases List.mem_append.mp h with h | h
      · exact ⟨v, List.mem_cons_self .., h⟩
      · obtain ⟨w, hw, hi⟩ := ih h
        exact ⟨w, List.mem_cons_of_mem _ hw, hi⟩

/-- The handles of a value that is no handle are those of its children. -/
theorem mem_indices_child {v : Value} {i : UInt32} (hhandle : ∀ i, v ≠ .handle i)
    (hinterface : ∀ i version, v ≠ .interface i version) (h : i ∈ v.indices) :
    ∃ w ∈ v.children, i ∈ w.indices := by
  unfold Value.indices at h
  split at h
  case h_1 index => exact absurd rfl (hhandle index)
  case h_2 index version => exact absurd rfl (hinterface index version)
  case h_3 items => exact mem_indicesOf h
  case h_4 keys values =>
    rcases List.mem_append.mp h with h | h
    · obtain ⟨w, hw, hi⟩ := mem_indicesOf h
      exact ⟨w, List.mem_append_left _ hw, hi⟩
    · obtain ⟨w, hw, hi⟩ := mem_indicesOf h
      exact ⟨w, List.mem_append_right _ hw, hi⟩
  case h_5 version fields => exact mem_indicesOf h
  case h_6 tag value => exact ⟨value, List.mem_singleton.mpr rfl, h⟩
  case h_7 present value => exact ⟨value, List.mem_singleton.mpr rfl, h⟩
  case h_8 => cases h

theorem HandlesIn.of_children {n : Nat} {v : Value} (hhandle : ∀ i, v ≠ .handle i)
    (hinterface : ∀ i version, v ≠ .interface i version)
    (h : ∀ w ∈ v.children, HandlesIn n w) : HandlesIn n v := by
  intro i hi
  obtain ⟨w, hw, hi⟩ := mem_indices_child hhandle hinterface hi
  exact h w hw i hi

theorem handlesIn_handle {n : Nat} {i : UInt32} (h : i = encodedInvalidHandleValue ∨ i.toNat < n) :
    HandlesIn n (.handle i) := by
  intro j hj
  obtain rfl := List.mem_singleton.mp hj
  exact h

theorem handlesIn_interface {n : Nat} {i version : UInt32}
    (h : i = encodedInvalidHandleValue ∨ i.toNat < n) : HandlesIn n (.interface i version) := by
  intro j hj
  obtain rfl := List.mem_singleton.mp hj
  exact h

theorem handlesIn_null {n : Nat} : HandlesIn n .null := .of_children nofun nofun nofun

theorem handlesIn_default {n : Nat} (ft : FieldType) : HandlesIn n (defaultValue ft) := by
  unfold defaultValue
  split
  case h_13 => exact handlesIn_handle (.inl rfl)
  case h_14 => exact handlesIn_interface (.inl rfl)
  case h_17 =>
    refine .of_children nofun nofun fun w hw => ?_
    obtain rfl := List.mem_singleton.mp hw
    exact handlesIn_null
  all_goals exact .of_children nofun nofun nofun

theorem handlesIn_scalar {n k : Nat} {ty : Ty} {v : Value} (h : scalarValue ty k = some v) :
    HandlesIn n v := by
  unfold scalarValue at h
  split at h <;> cases h
  all_goals exact .of_children nofun nofun nofun

theorem handlesIn_assemble {n : Nat} {fts : List FieldType} {scalars : List Value}
    {presence : List Bool} (h : ∀ v ∈ scalars, HandlesIn n v) :
    ∀ v ∈ assembleFields fts scalars presence, HandlesIn n v := by
  induction fts generalizing scalars presence with
  | nil => nofun
  | cons ft fts ih =>
      rcases scalars with - | ⟨scalar, scalars⟩
      · nofun
      rcases presence with - | ⟨present, presence⟩
      · nofun
      intro v hv
      rcases List.mem_cons.mp hv with rfl | hv
      · unfold assembleField
        split_ifs with hty
        · refine .of_children nofun nofun fun w hw => ?_
          obtain rfl := List.mem_singleton.mp hw
          exact h _ (List.mem_cons_self ..)
        · refine .of_children nofun nofun fun w hw => ?_
          obtain rfl := List.mem_singleton.mp hw
          exact handlesIn_null
        · exact h _ (List.mem_cons_self ..)
      · exact ih (fun w hw => h w (List.mem_cons_of_mem _ hw)) v hv

/-! ### Claims -/

/-- Claim ranges one after the other. -/
def Decoder.claimAll : Decoder → List Extent → WireResult Decoder
  | dec, [] => .ok dec
  | dec, r :: rs => do
      let dec ← dec.claim r.start (r.stop - r.start)
      dec.claimAll rs

theorem claim_depth {dec dec' : Decoder} {start len : Nat} (d : Nat)
    (h : dec.claim start len = .ok dec') :
    { dec with depth := d }.claim start len = .ok { dec' with depth := d } := by
  obtain ⟨e, he, h⟩ := bind_eq_ok h
  rw [Decoder.claim, he, ok_bind]
  split_ifs at h ⊢
  obtain rfl := Except.ok.inj h
  rfl

namespace Decoder

/-- Claims move the frontier only. -/
theorem claimAll_eq_ok {dec dec' : Decoder} {rs : List Extent} (h : dec.claimAll rs = .ok dec') :
    dec' = { dec with frontier := dec'.frontier } := by
  induction rs generalizing dec with
  | nil => exact (Except.ok.inj h) ▸ rfl
  | cons r rs ih =>
      obtain ⟨dec₁, hclaim, h⟩ := bind_eq_ok h
      obtain ⟨-, -, -, rfl⟩ := claim_eq_ok hclaim
      exact (ih h :)

theorem claimAll_depth {dec dec' : Decoder} {rs : List Extent} (d : Nat)
    (h : dec.claimAll rs = .ok dec') :
    { dec with depth := d }.claimAll rs = .ok { dec' with depth := d } := by
  induction rs generalizing dec with
  | nil =>
      obtain rfl := Except.ok.inj h
      rfl
  | cons r rs ih =>
      obtain ⟨dec₁, hclaim, h⟩ := bind_eq_ok h
      rw [claimAll, claim_depth d hclaim, ok_bind]
      exact ih h

theorem claimAll_append {dec dec₁ dec₂ : Decoder} {rs rs' : List Extent}
    (h : dec.claimAll rs = .ok dec₁) (h' : dec₁.claimAll rs' = .ok dec₂) :
    dec.claimAll (rs ++ rs') = .ok dec₂ := by
  induction rs generalizing dec with
  | nil =>
      obtain rfl := Except.ok.inj h
      exact h'
  | cons r rs ih =>
      obtain ⟨dec₁, hclaim, h⟩ := bind_eq_ok h
      rw [List.cons_append, claimAll, hclaim, ok_bind]
      exact ih h

/-- Ranges that are claimed one after the other are in order, behind the
frontier, and within the message. -/
theorem claimAll_ordered {dec dec' : Decoder} {rs : List Extent} (h : dec.claimAll rs = .ok dec') :
    (∀ r ∈ rs, dec.frontier ≤ r.start ∧ r.start < r.stop ∧ r.stop ≤ dec.bytes.length) ∧
      rs.Pairwise fun r r' => r.stop ≤ r'.start := by
  induction rs generalizing dec with
  | nil => exact ⟨nofun, .nil⟩
  | cons r rs ih =>
      obtain ⟨dec₁, hclaim, h⟩ := bind_eq_ok h
      obtain ⟨hfrontier, hlen, hend, rfl⟩ := claim_eq_ok hclaim
      obtain ⟨hin, hordered⟩ := ih h
      have hlt := Nat.lt_of_sub_pos hlen
      have hstop : r.start + (r.stop - r.start) = r.stop := Nat.add_sub_cancel' (Nat.le_of_lt hlt)
      rw [hstop] at hend hin
      refine ⟨fun r' hr' => ?_, List.pairwise_cons.mpr ⟨fun r' hr' => (hin r' hr').1, hordered⟩⟩
      rcases List.mem_cons.mp hr' with rfl | hr'
      · exact ⟨hfrontier, hlt, hend⟩
      · obtain ⟨hstart, hrest⟩ := hin r' hr'
        exact ⟨Nat.le_trans hfrontier (Nat.le_trans (Nat.le_of_lt hlt) hstart), hrest⟩

end Decoder

/-! ### Interpretation -/

/-- The objects with an end that is checked against the end of the message
only. -/
def ObjectKind.mayOverrun : ObjectKind → Bool
  | inlineStruct | inlineUnion | string => true
  | _ => false

/-- Such an object does not reach behind its home. -/
def WireObject.Enclosed (o : WireObject) : Prop :=
  o.kind.mayOverrun = true → o.extent.stop ≤ o.home.stop

instance (o : WireObject) : Decidable o.Enclosed :=
  inferInstanceAs (Decidable (o.kind.mayOverrun = true → o.extent.stop ≤ o.home.stop))

/-- Where an object is. -/
structure WireObject.Placed (o : WireObject) : Prop where
  start : o.home.start ≤ o.extent.start
  nonempty : o.extent.start < o.extent.stop
  stop : o.Enclosed → o.extent.stop ≤ o.home.stop

/-- The decoder claims the homes of these objects, all but the given one. -/
structure Interpreted (dec dec' : Decoder) (objects : List WireObject) (home : Extent) : Prop where
  claimed : dec.claimAll (claims objects) = .ok dec'
  placed : ∀ o ∈ objects, o.Placed ∧ (o.home = home ∨ o.home ∈ claims objects)

theorem claims_append (os os' : List WireObject) : claims (os ++ os') = claims os ++ claims os' := by
  induction os with
  | nil => rfl
  | cons o os ih =>
      rw [List.cons_append, claims, claims, ih]
      split_ifs <;> rfl

theorem Interpreted.nil {dec : Decoder} {home : Extent} : Interpreted dec dec [] home :=
  ⟨rfl, nofun⟩

theorem Interpreted.append {dec dec₁ dec₂ : Decoder} {os os' : List WireObject} {home : Extent}
    (h : Interpreted dec dec₁ os home) (h' : Interpreted dec₁ dec₂ os' home) :
    Interpreted dec dec₂ (os ++ os') home := by
  refine ⟨?_, fun o ho => ?_⟩
  · rw [claims_append]
    exact Decoder.claimAll_append h.claimed h'.claimed
  · rw [claims_append]
    rcases List.mem_append.mp ho with ho | ho
    · exact (h.placed o ho).imp_right (.imp_right (List.mem_append_left _))
    · exact (h'.placed o ho).imp_right (.imp_right (List.mem_append_right _))

/-- An object that is claimed, and what is in it. -/
theorem Interpreted.own {dec dec₁ dec₂ : Decoder} {kind : ObjectKind} {extent : Extent}
    {target size : Nat} {os : List WireObject} {home : Extent} (hkind : kind.isInline = false)
    (hplaced : WireObject.Placed ⟨kind, extent, ⟨target, target + size⟩⟩)
    (hclaim : dec.claim target size = .ok dec₁)
    (h : Interpreted dec₁ dec₂ os ⟨target, target + size⟩) :
    Interpreted dec dec₂ (⟨kind, extent, ⟨target, target + size⟩⟩ :: os) home := by
  have hclaims : claims (⟨kind, extent, ⟨target, target + size⟩⟩ :: os) =
      ⟨target, target + size⟩ :: claims os := by
    rw [claims, hkind]
    rfl
  refine ⟨?_, fun o' ho' => ?_⟩
  · rw [hclaims, Decoder.claimAll]
    show (dec.claim target (target + size - target) >>= _) = _
    rw [Nat.add_sub_cancel_left, hclaim, ok_bind]
    exact h.claimed
  · rw [hclaims]
    rcases List.mem_cons.mp ho' with rfl | ho'
    · exact ⟨hplaced, .inr (List.mem_cons_self ..)⟩
    · obtain ⟨hplaced', hhome⟩ := h.placed o' ho'
      refine ⟨hplaced', .inr ?_⟩
      rcases hhome with heq | hmem
      · exact heq ▸ List.mem_cons_self ..
      · exact List.mem_cons_of_mem _ hmem

/-- An object in place, and what is in it. -/
theorem Interpreted.inline {dec dec' : Decoder} {o : WireObject} {os : List WireObject}
    (hkind : o.kind.isInline = true) (hplaced : o.Placed)
    (h : Interpreted dec dec' os o.home) : Interpreted dec dec' (o :: os) o.home := by
  have hclaims : claims (o :: os) = claims os := by
    rw [claims, if_pos hkind]
  refine ⟨hclaims ▸ h.claimed, fun o' ho' => ?_⟩
  rw [hclaims]
  rcases List.mem_cons.mp ho' with rfl | ho'
  · exact ⟨hplaced, .inl rfl⟩
  · exact h.placed o' ho'

section Decoding

variable {α : Type} (bytes : List UInt8)

/-- Where a decoding function succeeds, it has interpreted these objects, and
its result is good for the handles of the message. -/
def Interprets (P : Nat → α → Prop) (D : Decoder → WireResult (α × Decoder))
    (objects : List WireObject) (home : Extent) : Prop :=
  ∀ dec a dec', dec.bytes = bytes → D dec = .ok (a, dec') →
    Interpreted dec dec' objects home ∧ P dec.handleCount a

/-- A decoder of fields, in any home that the field is in. -/
def FieldInterprets (D : FieldDecoder) (walk : Walker) : Prop :=
  ∀ offset bit home, home.start ≤ offset →
    Interprets bytes HandlesIn (D offset bit) (walk offset home) home

/-- A decoder of objects that are claimed. -/
def ObjectInterprets (P : Nat → α → Prop) (D : Nat → Decoder → WireResult (α × Decoder))
    (object : Nat → List WireObject) : Prop :=
  ∀ target home, Interprets bytes P (D target) (object target) home

variable {bytes} {P : Nat → α → Prop} {D : Decoder → WireResult (α × Decoder)}
  {objects : List WireObject} {home : Extent}

theorem Interpreted.bytes_eq {dec dec' : Decoder} (h : Interpreted dec dec' objects home) :
    dec'.bytes = dec.bytes := by
  rw [Decoder.claimAll_eq_ok h.claimed]

theorem Interpreted.handleCount_eq {dec dec' : Decoder} (h : Interpreted dec dec' objects home) :
    dec'.handleCount = dec.handleCount := by
  rw [Decoder.claimAll_eq_ok h.claimed]

/-- The depth does not matter to claims. -/
theorem Interprets.nested (h : Interprets bytes P D objects home) :
    Interprets bytes P (·.nested D) objects home := by
  intro dec a dec' hbytes hD
  obtain ⟨dec₁, henter, hD⟩ := bind_eq_ok hD
  obtain ⟨⟨a', dec₂⟩, hbody, hD⟩ := bind_eq_ok hD
  obtain ⟨rfl, rfl⟩ := Prod.mk.inj (Except.ok.inj hD)
  rw [Decoder.enter] at henter
  dsimp only at henter
  split_ifs at henter
  obtain rfl := Except.ok.inj henter
  obtain ⟨hinter, hP⟩ := h { dec with depth := dec.depth + 1 } _ _ hbytes hbody
  refine ⟨⟨?_, hinter.placed⟩, hP⟩
  have hdepth : dec₂.depth = dec.depth + 1 := by
    rw [Decoder.claimAll_eq_ok hinter.claimed]
  have hclaimed := Decoder.claimAll_depth dec.depth hinter.claimed
  rw [Decoder.leave, hdepth]
  exact hclaimed

/-- A decoder that claims nothing. -/
theorem interprets_leaf (h : ∀ dec a dec', D dec = .ok (a, dec') → dec' = dec ∧ P dec.handleCount a) :
    Interprets bytes P D [] home := by
  intro dec a dec' _ hD
  obtain ⟨rfl, hP⟩ := h dec a dec' hD
  exact ⟨.nil, hP⟩

end Decoding

/-! ### The objects, one kind after the other -/

section Kinds

variable {bytes : List UInt8} {home : Extent}

/-- The index of one packed field's decoder has a walker. -/
theorem getElem?_walkers {decoders : List FieldDecoder} {walkers : List Walker}
    (h : List.Forall₂ (FieldInterprets bytes) decoders walkers) {i : Nat} {D : FieldDecoder}
    (hD : decoders[i]? = some D) : ∃ walk, walkers[i]? = some walk ∧ FieldInterprets bytes D walk := by
  induction h generalizing i with
  | nil => cases hD
  | @cons D' walk _ _ hwalk _ ih =>
      cases i with
      | zero =>
          obtain rfl := Option.some.inj hD
          exact ⟨walk, rfl, hwalk⟩
      | succ i => exact ih hD

theorem interprets_follow {nullable : Bool} {O : Nat → Decoder → WireResult (Value × Decoder)}
    {object : Nat → List WireObject} (h : ObjectInterprets bytes HandlesIn O object) (offset : Nat) :
    Interprets bytes HandlesIn (·.follow offset nullable O) (followed bytes object offset home)
      home := by
  intro dec v dec' hbytes hD
  obtain ⟨p, hp, hD⟩ := bind_eq_ok hD
  obtain rfl := readPointer_eq_ok hp
  rw [hbytes] at hD
  rw [followed]
  cases hptr : Pointer.decode offset (readLE bytes offset 8) with
  | null =>
      rw [hptr] at hD
      dsimp only at hD
      split_ifs at hD
      obtain ⟨rfl, rfl⟩ := Prod.mk.inj (Except.ok.inj hD)
      exact ⟨.nil, handlesIn_null⟩
  | offset target =>
      rw [hptr] at hD
      exact h target home dec v dec' hbytes hD

theorem interprets_packedField {decoders : List FieldDecoder} {walkers : List Walker}
    (hw : List.Forall₂ (FieldInterprets bytes) decoders walkers) {offset numBytes version : Nat}
    (hoff : home.start ≤ offset) (pf : PackedField) {st st' : DecodedFields}
    (hbytes : st.dec.bytes = bytes) (hscalars : ∀ v ∈ st.scalars, HandlesIn st.dec.handleCount v)
    (h : decodePackedField decoders offset numBytes version pf st = .ok st') :
    Interpreted st.dec st'.dec (packedFieldObjects walkers offset numBytes version home pf) home ∧
      ∀ v ∈ st'.scalars, HandlesIn st.dec.handleCount v := by
  unfold decodePackedField at h
  unfold packedFieldObjects
  dsimp only at h ⊢
  by_cases hread : pf.minVersion ≤ version ∧ structHeaderSize + pf.offset + pf.size ≤ numBytes
  · rw [if_pos hread] at h
    by_cases hflag : pf.field.nullableValueKind ∧ pf.field.kind = .bool
    · rw [if_pos hflag] at h
      obtain ⟨byte, -, h⟩ := bind_eq_ok h
      obtain rfl := Except.ok.inj h
      rw [if_neg fun hcond => hcond.2.2 hflag]
      exact ⟨.nil, hscalars⟩
    · rw [if_neg hflag] at h
      rw [if_pos ⟨hread.1, hread.2, hflag⟩]
      rcases hD : decoders[pf.field.index]? with - | D
      · rw [hD] at h
        cases h
      · rw [hD] at h
        obtain ⟨⟨v, dec⟩, hdec, h⟩ := bind_eq_ok h
        obtain rfl := Except.ok.inj h
        obtain ⟨walk, hwalk, hinter⟩ := getElem?_walkers hw hD
        rw [hwalk]
        obtain ⟨hobjects, hv⟩ := hinter _ _ home (Nat.le_trans hoff (Nat.le_add_right _ _)) _ _ _
          hbytes hdec
        refine ⟨hobjects, fun w hw' => ?_⟩
        rcases List.mem_or_eq_of_mem_set hw' with hold | rfl
        · exact hscalars w hold
        · exact hv
  · rw [if_neg hread] at h
    obtain rfl := Except.ok.inj h
    rw [if_neg fun hcond => hread ⟨hcond.1, hcond.2.1⟩]
    exact ⟨.nil, hscalars⟩

theorem interprets_packedFields {decoders : List FieldDecoder} {walkers : List Walker}
    (hw : List.Forall₂ (FieldInterprets bytes) decoders walkers) {offset numBytes version : Nat}
    (hoff : home.start ≤ offset) (pfs : List PackedField) {st st' : DecodedFields}
    (hbytes : st.dec.bytes = bytes) (hscalars : ∀ v ∈ st.scalars, HandlesIn st.dec.handleCount v)
    (h : decodePackedFields decoders offset numBytes version pfs st = .ok st') :
    Interpreted st.dec st'.dec
        (pfs.flatMap (packedFieldObjects walkers offset numBytes version home)) home ∧
      ∀ v ∈ st'.scalars, HandlesIn st.dec.handleCount v := by
  induction pfs generalizing st with
  | nil =>
      obtain rfl := Except.ok.inj h
      exact ⟨.nil, hscalars⟩
  | cons pf pfs ih =>
      obtain ⟨st₁, hfield, h⟩ := bind_eq_ok h
      obtain ⟨hobjects, hscalars₁⟩ := interprets_packedField hw hoff pf hbytes hscalars hfield
      rw [← hobjects.handleCount_eq] at hscalars₁
      obtain ⟨hrest, hscalars'⟩ := ih (hobjects.bytes_eq.trans hbytes) hscalars₁ h
      rw [hobjects.handleCount_eq] at hscalars'
      exact ⟨hobjects.append hrest, hscalars'⟩

/-- A struct, claimed or in place. -/
theorem interprets_structBody {fields : List FieldType} {decoders : List FieldDecoder}
    {walkers : List Walker} (hw : List.Forall₂ (FieldInterprets bytes) decoders walkers)
    {a : Option Extent} {offset : Nat} (haround : ∀ r ∈ a, r = home ∧ home.start ≤ offset) :
    Interprets bytes HandlesIn (decodeStructBody fields decoders a.isNone offset)
      (structObjects bytes fields walkers a offset) home := by
  intro dec v dec' hbytes h
  obtain ⟨-, -, h⟩ := bind_eq_ok h
  obtain ⟨numBytes, hnum, h⟩ := bind_eq_ok h
  obtain ⟨version, hversion, h⟩ := bind_eq_ok h
  have hnum' := readUint_eq_ok hnum
  have hversion' := readUint_eq_ok hversion
  rw [hbytes] at hnum' hversion'
  split_ifs at h with hsmall hlong
  obtain ⟨dec₁, hclaim, h⟩ := bind_eq_ok h
  obtain ⟨pk, hpack, h⟩ := bind_eq_ok h
  obtain ⟨-, rfl⟩ := pack_eq_ok hpack
  obtain ⟨-, -, h⟩ := bind_eq_ok h
  obtain ⟨st, hst, h⟩ := bind_eq_ok h
  obtain ⟨rfl, rfl⟩ := Prod.mk.inj (Except.ok.inj h)
  have hpos : 0 < numBytes := Nat.lt_of_lt_of_le (by decide) (Nat.le_of_not_lt hsmall)
  have hdefault : ∀ v ∈ fields.map defaultValue, HandlesIn dec₁.handleCount v := by
    intro v hv
    obtain ⟨ft, -, rfl⟩ := List.mem_map.mp hv
    exact handlesIn_default ft
  rw [structObjects, ← hnum', ← hversion']
  cases a with
  | none =>
      have hkeep := (claim_eq_ok hclaim).2.2.2
      have hbytes₁ : dec₁.bytes = bytes := by rw [hkeep]; exact hbytes
      obtain ⟨hobjects, hscalars⟩ := interprets_packedFields hw
        (show (Extent.mk offset (offset + numBytes)).start ≤ offset from Nat.le_refl _) _ hbytes₁
        hdefault hst
      refine ⟨.own rfl ⟨Nat.le_refl _, Nat.lt_add_of_pos_right hpos, fun _ => Nat.le_refl _⟩
        hclaim hobjects, .of_children nofun nofun (handlesIn_assemble fun w hw' => ?_)⟩
      have := hscalars w hw'
      rw [hkeep] at this
      exact this
  | some around =>
      obtain ⟨rfl, hoff⟩ := haround _ rfl
      obtain rfl := Except.ok.inj hclaim
      obtain ⟨hobjects, hscalars⟩ := interprets_packedFields hw hoff _ hbytes hdefault hst
      exact ⟨.inline rfl ⟨hoff, Nat.lt_add_of_pos_right hpos, (· rfl)⟩ hobjects,
        .of_children nofun nofun (handlesIn_assemble hscalars)⟩

/-- A union, claimed or in place. -/
theorem interprets_union {members : List FieldDecoder} {walkers : List Walker}
    (hw : List.Forall₂ (FieldInterprets bytes) members walkers) {a : Option Extent}
    {target : Nat} (haround : ∀ r ∈ a, r = home ∧ home.start ≤ target) :
    Interprets bytes HandlesIn (decodeUnionAt members a.isNone target)
      (unionObjects bytes walkers a target) home := by
  intro dec v dec' hbytes h
  obtain ⟨-, -, h⟩ := bind_eq_ok h
  obtain ⟨size, hsize, h⟩ := bind_eq_ok h
  obtain ⟨tag, htag, h⟩ := bind_eq_ok h
  have htag' := readUint_eq_ok htag
  rw [hbytes] at htag'
  rcases hD : members[tag]? with - | D
  · rw [hD] at h
    cases h
  rw [hD] at h
  obtain ⟨walk, hwalk, hinter⟩ := getElem?_walkers hw hD
  -- the union holds the handles of its member and no others
  have hchild {n : Nat} {value : Value} (hv : HandlesIn n value) :
      HandlesIn n (.union (UInt32.ofNat tag) value) := by
    refine .of_children nofun nofun fun w hw' => ?_
    obtain rfl := List.mem_singleton.mp hw'
    exact hv
  rw [unionObjects, ← htag', hwalk]
  cases a with
  -- behind a pointer the union is an object of its own, claimed before its member
  | none =>
      dsimp only at h
      rw [if_pos (show (none : Option Extent).isNone = true from rfl)] at h
      split_ifs at h
      · cases h
      obtain ⟨dec₁, hclaim, h⟩ := bind_eq_ok h
      obtain ⟨⟨value, dec₂⟩, hmember, h⟩ := bind_eq_ok h
      obtain ⟨rfl, rfl⟩ := Prod.mk.inj (Except.ok.inj h)
      have hkeep := (claim_eq_ok hclaim).2.2.2
      have hbytes₁ : dec₁.bytes = bytes := by rw [hkeep]; exact hbytes
      obtain ⟨hobjects, hv⟩ := hinter (target + 8) 0 ⟨target, target + unionDataSize⟩
        (Nat.le_add_right _ _) dec₁ value _ hbytes₁ hmember
      refine ⟨.own rfl ⟨Nat.le_refl _, Nat.lt_add_of_pos_right (by decide), fun _ => Nat.le_refl _⟩
        hclaim hobjects, hchild ?_⟩
      rw [hkeep] at hv
      exact hv
  -- in place it lies in the object around it
  | some around =>
      obtain ⟨rfl, hoff⟩ := haround _ rfl
      dsimp only at h
      rw [if_neg (show ¬ (some around).isNone = true from nofun)] at h
      obtain ⟨dec₁, hsame, h⟩ := bind_eq_ok h
      obtain rfl := Except.ok.inj hsame
      obtain ⟨⟨value, dec₂⟩, hmember, h⟩ := bind_eq_ok h
      obtain ⟨rfl, rfl⟩ := Prod.mk.inj (Except.ok.inj h)
      obtain ⟨hobjects, hv⟩ := hinter (target + 8) 0 around
        (Nat.le_trans hoff (Nat.le_add_right _ _)) dec value _ hbytes hmember
      exact ⟨.inline rfl ⟨hoff, Nat.lt_add_of_pos_right (by decide), (· rfl)⟩ hobjects, hchild hv⟩

theorem interprets_string : ObjectInterprets bytes HandlesIn decodeStringAt (stringObjects bytes) := by
  intro target home dec v dec' hbytes h
  obtain ⟨-, -, h⟩ := bind_eq_ok h
  obtain ⟨numBytes, hnum, h⟩ := bind_eq_ok h
  obtain ⟨numElements, hcount, h⟩ := bind_eq_ok h
  have hnum' := readUint_eq_ok hnum
  have hcount' := readUint_eq_ok hcount
  rw [hbytes] at hnum' hcount'
  dsimp only at h
  split_ifs at h with hsmall hlong hnul hterm
  obtain ⟨dec₁, hclaim, h⟩ := bind_eq_ok h
  have hpos : 0 < numBytes := by
    have : arrayHeaderSize = 8 := rfl
    omega
  rw [stringObjects, ← hnum', ← hcount']
  have hobjects : Interpreted dec dec₁ [⟨.string, ⟨target, target +
      max numBytes (arrayHeaderSize + numElements + 1)⟩, ⟨target, target + numBytes⟩⟩] home := by
    have hlt := Nat.lt_of_lt_of_le hpos (Nat.le_max_left numBytes (arrayHeaderSize + numElements + 1))
    exact .own rfl ⟨Nat.le_refl _, Nat.lt_add_of_pos_right hlt, (· rfl)⟩ hclaim .nil
  split at h
  · obtain ⟨rfl, rfl⟩ := Prod.mk.inj (Except.ok.inj h)
    exact ⟨hobjects, .of_children nofun nofun nofun⟩
  · cases h

/-- The elements of an array. -/
theorem interprets_items {item : Nat → Decoder → WireResult (Value × Decoder)} {walk : Walker}
    {elemSize : Nat} (hitem : ∀ off, home.start ≤ off →
      Interprets bytes HandlesIn (item off) (walk off home) home) :
    ∀ (n off : Nat), home.start ≤ off →
      Interprets bytes (fun n vs => ∀ v ∈ vs, HandlesIn n v) (decodeItems item elemSize n off)
        (itemsObjects walk elemSize n off home) home
  | 0, _, _ => interprets_leaf fun dec vs dec' h => by
      obtain ⟨rfl, rfl⟩ := Prod.mk.inj (Except.ok.inj h)
      exact ⟨rfl, nofun⟩
  | n + 1, off, hoff => by
      intro dec vs dec' hbytes h
      obtain ⟨⟨v, dec₁⟩, hv, h⟩ := bind_eq_ok h
      obtain ⟨⟨ws, dec₂⟩, hws, h⟩ := bind_eq_ok h
      obtain ⟨rfl, rfl⟩ := Prod.mk.inj (Except.ok.inj h)
      obtain ⟨hobjects, hhandles⟩ := hitem off hoff dec v dec₁ hbytes hv
      obtain ⟨hrest, hhandles'⟩ := interprets_items hitem n (off + elemSize)
        (Nat.le_trans hoff (Nat.le_add_right _ _)) dec₁ ws _ (hobjects.bytes_eq.trans hbytes) hws
      rw [hobjects.handleCount_eq] at hhandles'
      refine ⟨hobjects.append hrest, fun w hw => ?_⟩
      rcases List.mem_cons.mp hw with rfl | hw
      · exact hhandles
      · exact hhandles' w hw

theorem interprets_item {element : Ty} {field : FieldDecoder} {walk : Walker}
    {O : Nat → Decoder → WireResult (Value × Decoder)} {object : Nat → List WireObject}
    (hfield : FieldInterprets bytes field walk) (hobject : ObjectInterprets bytes HandlesIn O object)
    {off : Nat} (hoff : home.start ≤ off) :
    Interprets bytes HandlesIn (decodeItem element field O off)
      (itemObjects bytes element walk object off home) home := by
  intro dec v dec' hbytes h
  unfold decodeItem at h
  unfold itemObjects
  split_ifs at h ⊢
  · exact hfield off 0 home hoff dec v dec' hbytes h
  · exact interprets_follow hobject off dec v dec' hbytes h

theorem interprets_arrayBody {element : Ty} {field : FieldDecoder} {walk : Walker}
    {O : Nat → Decoder → WireResult (Value × Decoder)} {object : Nat → List WireObject}
    (hfield : FieldInterprets bytes field walk)
    (hobject : ObjectInterprets bytes HandlesIn O object) :
    ObjectInterprets bytes (fun n vs => ∀ v ∈ vs, HandlesIn n v)
      (decodeArrayBody element (decodeItem element field O))
      (arrayObjects bytes element (itemObjects bytes element walk object)) := by
  intro target home dec vs dec' hbytes h
  obtain ⟨-, -, h⟩ := bind_eq_ok h
  obtain ⟨numBytes, hnum, h⟩ := bind_eq_ok h
  obtain ⟨numElements, hcount, h⟩ := bind_eq_ok h
  obtain ⟨raw, hraw, h⟩ := bind_eq_ok h
  obtain ⟨minBytes, hmin, h⟩ := bind_eq_ok h
  obtain ⟨rfl, -⟩ := checkedMul_eq_ok hraw
  obtain ⟨rfl, -⟩ := checkedAdd_eq_ok hmin
  have hnum' := readUint_eq_ok hnum
  have hcount' := readUint_eq_ok hcount
  rw [hbytes] at hnum' hcount'
  split_ifs at h with hsmall hlong
  obtain ⟨dec₁, hclaim, h⟩ := bind_eq_ok h
  have hkeep := (claim_eq_ok hclaim).2.2.2
  have hbytes₁ : dec₁.bytes = bytes := by rw [hkeep]; exact hbytes
  have hitems : Interprets bytes (fun n vs => ∀ v ∈ vs, HandlesIn n v)
      (decodeItems (decodeItem element field O) element.elemSize numElements
        (target + arrayHeaderSize))
      (itemsObjects (itemObjects bytes element walk object) element.elemSize numElements
        (target + arrayHeaderSize) ⟨target, target + numBytes⟩) ⟨target, target + numBytes⟩ :=
    interprets_items (fun off hoff => interprets_item hfield hobject hoff) numElements _
      (Nat.le_add_right _ _)
  obtain ⟨hobjects, hhandles⟩ := hitems dec₁ vs dec' hbytes₁ h
  have hmax : max numBytes (arrayHeaderSize + element.elemSize * numElements) = numBytes :=
    Nat.max_eq_left (Nat.le_of_not_lt hsmall)
  rw [arrayObjects, ← hnum', ← hcount', hmax]
  refine ⟨.own rfl ⟨Nat.le_refl _, Nat.lt_add_of_pos_right (claim_eq_ok hclaim).2.1,
    fun _ => Nat.le_refl _⟩ hclaim hobjects, ?_⟩
  rw [hkeep] at hhandles
  exact hhandles

theorem interprets_arrayValue {element : Ty} {field : FieldDecoder} {walk : Walker}
    {O : Nat → Decoder → WireResult (Value × Decoder)} {object : Nat → List WireObject}
    (hfield : FieldInterprets bytes field walk)
    (hobject : ObjectInterprets bytes HandlesIn O object) :
    ObjectInterprets bytes HandlesIn (decodeArrayValue element (decodeItem element field O))
      (arrayObjects bytes element (itemObjects bytes element walk object)) := by
  intro target home dec v dec' hbytes h
  obtain ⟨⟨vs, dec₁⟩, hvs, h⟩ := bind_eq_ok h
  obtain ⟨rfl, rfl⟩ := Prod.mk.inj (Except.ok.inj h)
  obtain ⟨hobjects, hhandles⟩ := interprets_arrayBody hfield hobject target home dec vs _ hbytes hvs
  exact ⟨hobjects, .of_children nofun nofun hhandles⟩

/-- A map: both pointers are read first, then keys and values are decoded. -/
theorem interprets_map {KD VD : Nat → Decoder → WireResult (List Value × Decoder)}
    {keys values : Nat → List WireObject}
    (hk : ObjectInterprets bytes (fun n vs => ∀ v ∈ vs, HandlesIn n v) KD keys)
    (hv : ObjectInterprets bytes (fun n vs => ∀ v ∈ vs, HandlesIn n v) VD values) :
    ObjectInterprets bytes HandlesIn (decodeMapAt KD VD) (mapObjects bytes keys values) := by
  intro target home
  refine Interprets.nested fun dec v dec' hbytes h => ?_
  obtain ⟨-, -, h⟩ := bind_eq_ok h
  obtain ⟨numBytes, hnum, h⟩ := bind_eq_ok h
  have hnum' := readUint_eq_ok hnum
  rw [hbytes] at hnum'
  split_ifs at h with hsmall
  obtain ⟨dec₁, hclaim, h⟩ := bind_eq_ok h
  have hkeep := (claim_eq_ok hclaim).2.2.2
  have hbytes₁ : dec₁.bytes = bytes := by rw [hkeep]; exact hbytes
  obtain ⟨kp, hkp, h⟩ := bind_eq_ok h
  obtain ⟨vp, hvp, h⟩ := bind_eq_ok h
  have hkp' := readPointer_eq_ok hkp
  have hvp' := readPointer_eq_ok hvp
  rw [hbytes₁] at hkp' hvp'
  rcases kp with - | ko
  · cases h
  rcases vp with - | vo
  · cases h
  obtain ⟨⟨ks, dec₂⟩, hks, h⟩ := bind_eq_ok h
  obtain ⟨⟨vs, dec₃⟩, hvs, h⟩ := bind_eq_ok h
  dsimp only at h
  split_ifs at h
  obtain ⟨rfl, rfl⟩ := Prod.mk.inj (Except.ok.inj h)
  obtain ⟨hkeys, hhandles⟩ := hk ko ⟨target, target + numBytes⟩ dec₁ ks dec₂ hbytes₁ hks
  obtain ⟨hvalues, hhandles'⟩ := hv vo ⟨target, target + numBytes⟩ dec₂ vs _
    (hkeys.bytes_eq.trans hbytes₁) hvs
  have hmax : max numBytes mapDataSize = numBytes := Nat.max_eq_left (Nat.le_of_not_lt hsmall)
  rw [mapObjects, ← hnum', hmax, followed, ← hkp', followed, ← hvp']
  refine ⟨.own rfl ⟨Nat.le_refl _, Nat.lt_add_of_pos_right (claim_eq_ok hclaim).2.1,
    fun _ => Nat.le_refl _⟩ hclaim (hkeys.append hvalues), .of_children nofun nofun fun w hw => ?_⟩
  rw [hkeys.handleCount_eq] at hhandles'
  rw [hkeep] at hhandles hhandles'
  rcases List.mem_append.mp hw with hw | hw
  · exact hhandles w hw
  · exact hhandles' w hw

end Kinds

/-! ### All types -/

/-- A checked index is good. -/
theorem checkHandle_eq_ok {dec : Decoder} {off index : Nat} (hread : dec.readUint 4 off = .ok index)
    (h : checkHandle dec index = .ok ()) :
    UInt32.ofNat index = encodedInvalidHandleValue ∨ (UInt32.ofNat index).toNat < dec.handleCount := by
  have hlt : index < 256 ^ 4 := readUint_lt hread
  unfold checkHandle at h
  split_ifs at h with hbad
  by_cases hinvalid : index = encodedInvalidHandleValue.toNat
  · rw [hinvalid, UInt32.ofNat_toNat]
    exact .inl rfl
  · right
    rw [UInt32.toNat_ofNat_of_lt' hlt]
    exact Nat.lt_of_not_le fun hle => hbad ⟨hinvalid, hle⟩

theorem readPair_eq_ok {dec : Decoder} {off : Nat} {p : Nat × Nat}
    (h : readPair dec off = .ok p) : dec.readUint 4 off = .ok p.1 := by
  obtain ⟨a, ha, h⟩ := bind_eq_ok h
  obtain ⟨b, -, h⟩ := bind_eq_ok h
  obtain rfl := Except.ok.inj h
  exact ha

theorem interprets_scalar {bytes : List UInt8} {home : Extent} (ty : Ty) (offset bit : Nat) :
    Interprets bytes HandlesIn (decodeScalar ty offset bit) [] home := by
  refine interprets_leaf fun dec v dec' h => ?_
  obtain ⟨k, -, h⟩ := bind_eq_ok h
  cases hv : scalarValue ty k with
  | none =>
      rw [hv] at h
      cases h
  | some w =>
      rw [hv] at h
      obtain ⟨rfl, rfl⟩ := Prod.mk.inj (Except.ok.inj h)
      exact ⟨rfl, handlesIn_scalar hv⟩

mutual

theorem interprets_field (bytes : List UInt8) : ∀ (ty : Ty) (payload : Bool),
    FieldInterprets bytes (decodeField ty payload) (fieldObjects bytes ty payload)
  | .string nullable, _ => fun offset _ _ _ => interprets_follow interprets_string offset
  | .array element nullable, _ => fun offset _ _ _ => interprets_follow
      (fun target home => (interprets_arrayValue (interprets_field bytes element false)
        (interprets_element bytes element) target home).nested) offset
  | .map key value nullable, _ => fun offset _ _ _ => interprets_follow
      (interprets_map
        (interprets_arrayBody (interprets_field bytes key false) (interprets_element bytes key))
        (interprets_arrayBody (interprets_field bytes value false)
          (interprets_element bytes value))) offset
  -- in place or behind a pointer, as the decoder decides
  | .struct fields version nullable, payload => by
      intro offset bit home hoff dec v dec' hbytes h
      have hfields := interprets_fields bytes fields
      rw [fieldObjects]
      rw [decodeField] at h
      split_ifs at h ⊢
      · exact interprets_follow (fun target home => (interprets_structBody hfields
          (a := none) nofun).nested) offset dec v dec' hbytes h
      · refine (interprets_structBody hfields (a := some home) fun a ha => ?_).nested dec v
          dec' hbytes h
        obtain rfl := Option.some.inj ha
        exact ⟨rfl, hoff⟩
  | .union members nullable inlined, _ => by
      intro offset bit home hoff dec v dec' hbytes h
      have hmembers := interprets_members bytes members
      rw [fieldObjects]
      rw [decodeField] at h
      split_ifs at h ⊢
      · refine interprets_union hmembers (a := some home) (fun a ha => ?_) dec v dec' hbytes h
        obtain rfl := Option.some.inj ha
        exact ⟨rfl, hoff⟩
      · exact interprets_follow (fun target home => interprets_union hmembers
          (a := none) nofun) offset dec v dec' hbytes h
  | .nullableScalar inner, _ => interprets_field bytes inner false
  -- leaves own no object, a handle has to be in range
  | .bool, _ => fun _ _ _ _ => interprets_leaf fun dec v dec' h => by
      obtain ⟨byte, -, h⟩ := bind_eq_ok h
      obtain ⟨rfl, rfl⟩ := Prod.mk.inj (Except.ok.inj h)
      exact ⟨rfl, .of_children nofun nofun nofun⟩
  | .handle, _ => fun _ _ _ _ => interprets_leaf fun dec v dec' h => by
      obtain ⟨index, hread, h⟩ := bind_eq_ok h
      obtain ⟨⟨⟩, hcheck, h⟩ := bind_eq_ok h
      obtain ⟨rfl, rfl⟩ := Prod.mk.inj (Except.ok.inj h)
      exact ⟨rfl, handlesIn_handle (checkHandle_eq_ok hread hcheck)⟩
  | .interface version, _ => fun _ _ _ _ => interprets_leaf fun dec v dec' h => by
      obtain ⟨p, hread, h⟩ := bind_eq_ok h
      obtain ⟨⟨⟩, hcheck, h⟩ := bind_eq_ok h
      obtain ⟨rfl, rfl⟩ := Prod.mk.inj (Except.ok.inj h)
      exact ⟨rfl, handlesIn_interface (checkHandle_eq_ok (readPair_eq_ok hread) hcheck)⟩
  | .associatedInterface version, _ => fun _ _ _ _ => interprets_leaf fun dec v dec' h => by
      obtain ⟨p, -, h⟩ := bind_eq_ok h
      obtain ⟨rfl, rfl⟩ := Prod.mk.inj (Except.ok.inj h)
      exact ⟨rfl, .of_children nofun nofun nofun⟩
  | .i8, _ | .u8, _ | .i16, _ | .u16, _ | .i32, _ | .u32, _ | .i64, _ | .u64, _ | .f32, _ | .f64, _
  | .enum, _ | .associatedEndpoint, _ => fun offset bit _ _ => interprets_scalar _ offset bit

theorem interprets_element (bytes : List UInt8) : ∀ ty : Ty,
    ObjectInterprets bytes HandlesIn (decodeArrayElement ty) (elementObjects bytes ty)
  | .struct fields _ _ => fun _ _ =>
      (interprets_structBody (interprets_fields bytes fields) (a := none) nofun).nested
  | .string _ => interprets_string
  | .map key value _ => interprets_map
      (interprets_arrayBody (interprets_field bytes key false) (interprets_element bytes key))
      (interprets_arrayBody (interprets_field bytes value false) (interprets_element bytes value))
  | .array inner _ => interprets_arrayValue (interprets_field bytes inner false)
      (interprets_element bytes inner)
  | .bool | .i8 | .u8 | .i16 | .u16 | .i32 | .u32 | .i64 | .u64 | .f32 | .f64 | .enum | .handle
  | .union .. | .interface .. | .associatedEndpoint | .associatedInterface .. | .nullableScalar .. =>
      fun _ _ => interprets_leaf fun _ _ _ h => nomatch h

theorem interprets_fields (bytes : List UInt8) : ∀ fields : List FieldType,
    List.Forall₂ (FieldInterprets bytes) (fieldDecoders fields) (fieldWalkers bytes fields)
  | [] => .nil
  | ⟨ty, _⟩ :: fts => .cons (interprets_field bytes ty false) (interprets_fields bytes fts)

theorem interprets_members (bytes : List UInt8) : ∀ members : List Ty,
    List.Forall₂ (FieldInterprets bytes) (memberDecoders members) (memberWalkers bytes members)
  | [] => .nil
  | ty :: tys => .cons (interprets_field bytes ty true) (interprets_members bytes tys)

end

/-! ### Accepted messages -/

/-- An accepted message: the payload decoder claims the homes of the objects,
all of them and one after the other. -/
theorem validate_interpreted {bytes : List UInt8} {handleCount : Nat} {payloadType : Ty}
    {limits : ValidationLimits} {m : ValidatedMessage}
    (h : validateMessage bytes handleCount payloadType limits = .ok m) :
    ∃ fields version nullable dec', payloadType = .struct fields version nullable ∧
      decodeStruct fields (fieldDecoders fields) m.payloadOffset
        (Decoder.new bytes handleCount limits.maxRecursionDepth) = .ok (m.payload, dec') ∧
      HandlesIn handleCount m.payload ∧
      ∀ home, Interpreted (Decoder.new bytes handleCount limits.maxRecursionDepth) dec'
        (messageObjects bytes payloadType m.payloadOffset) home := by
  unfold validateMessage at h
  split_ifs at h
  obtain ⟨⟨header, headerSize⟩, -, h⟩ := bind_eq_ok h
  obtain ⟨payloadOffset, -, h⟩ := bind_eq_ok h
  split_ifs at h
  cases payloadType with
  | struct fields version nullable =>
      obtain ⟨⟨payload, dec'⟩, hdecode, h⟩ := bind_eq_ok h
      obtain rfl := Except.ok.inj h
      have hinter (home : Extent) :=
        ((interprets_structBody (interprets_fields bytes fields) (a := none) nofun).nested :
          Interprets bytes HandlesIn _ (structObjects bytes fields (fieldWalkers bytes fields) none
            payloadOffset) home) _ _ _ rfl hdecode
      exact ⟨fields, version, nullable, dec', rfl, hdecode, (hinter ⟨0, 0⟩).2,
        fun home => (hinter home).1⟩
  | _ => cases h

/-- Every handle that a decoded message mentions is one of the attached ones. -/
theorem handles_in_range {bytes : List UInt8} {handleCount : Nat} {payloadType : Ty}
    {limits : ValidationLimits} {m : ValidatedMessage}
    (h : validateMessage bytes handleCount payloadType limits = .ok m) :
    ∀ i ∈ m.payload.indices, i = encodedInvalidHandleValue ∨ i.toNat < handleCount :=
  (validate_interpreted h).choose_spec.choose_spec.choose_spec.choose_spec.2.2.1

/-- Claims are in order, and every object lies in its home and in no other
claimed range. -/
structure ObjectsClaimed (bytes : List UInt8) (objects : List WireObject) : Prop where
  within : ∀ r ∈ claims objects, r.start < r.stop ∧ r.stop ≤ bytes.length
  ordered : (claims objects).Pairwise fun r r' => r.stop ≤ r'.start
  inside : ∀ o ∈ objects, o.home ∈ claims objects ∧ o.extent.Within o.home ∧
    ∀ r ∈ claims objects, o.extent.Within r → r = o.home

/-- Ranges in order that have a byte in common are the same. -/
theorem eq_of_common {rs : List Extent} (hordered : rs.Pairwise fun r r' => r.stop ≤ r'.start)
    {r r' e : Extent} (hr : r ∈ rs) (hr' : r' ∈ rs) (he : e.start < e.stop) (h : e.Within r)
    (h' : e.Within r') : r = r' := by
  have hsymm : Std.Symm fun r r' : Extent => r.stop ≤ r'.start ∨ r'.stop ≤ r.start :=
    ⟨fun _ _ => Or.symm⟩
  by_contra hne
  have hpairs : rs.Pairwise fun r r' => r.stop ≤ r'.start ∨ r'.stop ≤ r.start :=
    hordered.imp .inl
  have hdisjoint : r.stop ≤ r'.start ∨ r'.stop ≤ r.start := hpairs.forall hr hr' hne
  unfold Extent.Within at h h'
  rcases hdisjoint with hd | hd
  · omega
  · omega

/-- The objects of an accepted message lie in their homes exactly when those in
place, and the NULs of the strings, do not reach behind them. -/
theorem objects_claimed_iff {bytes : List UInt8} {handleCount : Nat} {payloadType : Ty}
    {limits : ValidationLimits} {m : ValidatedMessage}
    (h : validateMessage bytes handleCount payloadType limits = .ok m) :
    ObjectsClaimed bytes (messageObjects bytes payloadType m.payloadOffset) ↔
      ∀ o ∈ messageObjects bytes payloadType m.payloadOffset, o.Enclosed := by
  obtain ⟨fields, version, nullable, dec', -, -, -, hinter⟩ := validate_interpreted h
  obtain ⟨hin, hordered⟩ := Decoder.claimAll_ordered (hinter ⟨0, 0⟩).claimed
  constructor
  · exact fun hclaimed o ho _ => (hclaimed.inside o ho).2.1.2
  · intro henclosed
    refine ⟨fun r hr => (hin r hr).2, hordered, fun o ho => ?_⟩
    -- a home that is not the one of the object
    obtain ⟨hplaced, hhome⟩ := (hinter ⟨o.home.start + 1, 0⟩).placed o ho
    have hmem : o.home ∈ claims (messageObjects bytes payloadType m.payloadOffset) := by
      refine hhome.resolve_left fun heq => ?_
      exact Nat.succ_ne_self _ (congrArg Extent.start heq).symm
    have hwithin : o.extent.Within o.home := ⟨hplaced.start, hplaced.stop (henclosed o ho)⟩
    exact ⟨hmem, hwithin, fun r hr hr' => eq_of_common hordered hr hmem hplaced.nonempty hr' hwithin⟩

/-- A struct with a struct in place, in which a number is, and a second
number. -/
def nestedFields : List FieldType := [⟨.struct [⟨.u32, none⟩] 0 false, none⟩, ⟨.u64, none⟩]

/-- The inner struct takes up the second number too. -/
def nestedBytes : List UInt8 := plainHeaderBytes ++
  [24, 0, 0, 0, 0, 0, 0, 0, 16, 0, 0, 0, 0, 0, 0, 0, 7, 0, 0, 0, 0, 0, 0, 0]

theorem objects_claimed_nested : ∃ m,
    validateMessage nestedBytes 0 (.struct nestedFields 0 false) {} = .ok m ∧
      ObjectsClaimed nestedBytes
        (messageObjects nestedBytes (.struct nestedFields 0 false) m.payloadOffset) := by
  obtain ⟨m, hm, hoffset⟩ : ∃ m,
      validateMessage nestedBytes 0 (.struct nestedFields 0 false) {} = .ok m ∧
        m.payloadOffset = 24 := ⟨_, rfl, rfl⟩
  refine ⟨m, hm, (objects_claimed_iff hm).mpr ?_⟩
  rw [hoffset]
  decide +kernel

/-- Without the second number, the inner struct reaches behind the outer one,
which has 16 bytes; and a string of 8 bytes, without characters, has its NUL
behind it. -/
def overrunBytes : List UInt8 := plainHeaderBytes ++
  [16, 0, 0, 0, 0, 0, 0, 0, 16, 0, 0, 0, 0, 0, 0, 0, 7, 0, 0, 0, 0, 0, 0, 0]

/-- The message with such a string. -/
def openStringBytes : List UInt8 := plainHeaderBytes ++
  [16, 0, 0, 0, 0, 0, 0, 0, 8, 0, 0, 0, 0, 0, 0, 0, 8, 0, 0, 0, 0, 0, 0, 0, 0]

theorem claims_overrun :
    (∃ m, validateMessage overrunBytes 0 (.struct (nestedFields.take 1) 0 false) {} = .ok m ∧
      ¬ ObjectsClaimed overrunBytes
        (messageObjects overrunBytes (.struct (nestedFields.take 1) 0 false) m.payloadOffset)) ∧
    ∃ m, validateMessage openStringBytes 0 (.struct [⟨.string false, none⟩] 0 false) {} = .ok m ∧
      ¬ ObjectsClaimed openStringBytes
        (messageObjects openStringBytes (.struct [⟨.string false, none⟩] 0 false)
          m.payloadOffset) := by
  refine ⟨⟨_, rfl, fun h => ?_⟩, _, rfl, fun h => ?_⟩
  · have hstop := (h.inside ⟨.inlineStruct, ⟨32, 48⟩, ⟨24, 40⟩⟩ (by decide +kernel)).2.1.2
    exact absurd hstop (by decide)
  · have hstop := (h.inside ⟨.string, ⟨40, 49⟩, ⟨40, 48⟩⟩ (by decide +kernel)).2.1.2
    exact absurd hstop (by decide)

/-- A message with one handle field. -/
def handleBytes (index : UInt8) : List UInt8 := plainHeaderBytes ++
  [16, 0, 0, 0, 0, 0, 0, 0, index, 0, 0, 0, 0, 0, 0, 0]

theorem handles_in_range_second : ∃ m,
    validateMessage (handleBytes 1) 2 (.struct [⟨.handle, none⟩] 0 false) {} = .ok m ∧
      ∀ i ∈ m.payload.indices, i = encodedInvalidHandleValue ∨ i.toNat < 2 := by
  obtain ⟨m, hm⟩ : ∃ m,
      validateMessage (handleBytes 1) 2 (.struct [⟨.handle, none⟩] 0 false) {} = .ok m := ⟨_, rfl⟩
  exact ⟨m, hm, handles_in_range hm⟩

/-- A struct with two handle fields may hold the same handle twice. -/
theorem handle_shared : ∃ m,
    validateMessage (handleBytes 0) 1 (.struct [⟨.handle, none⟩, ⟨.handle, none⟩] 0 false) {} =
      .ok m ∧ m.payload.indices = [0, 0] :=
  ⟨_, rfl, rfl⟩

end MojoRs.Wire
