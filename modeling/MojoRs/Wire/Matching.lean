/-
MojoRs/Wire/Matching.lean

Every value matches: wherever a value suits a type, what the encoder writes
for it is what the decoder reads.  The induction is on the size of values; one
lemma for each shape of values says that it matches if the values inside do.

Main result: `matches_all`.
-/
import MojoRs.Wire.StructCodec

namespace MojoRs.Wire

open Lib

/-- A value matches as an array element that is an object of its own. -/
def ElementMatches (v : Value) : Prop :=
  ∀ (m : Mode) (n : Nat) (element : Ty), SuitsElement v m n element →
    ObjectSound m n
      (tallyElement (fun index => if index = encodedInvalidHandleValue then 0 else 1) (fun _ => 0)
        v element)
      (tallyElement (fun _ => 0) id v element) (nestingElement 1 v element)
      (encodeArrayElementAt v element) (decodeArrayElement element) v

/-! ### Values of fixed width -/

/-- A field that stays as it is, where nothing is read. -/
theorem sound_skipped {α : Type} {n need s e : Nat} {D : Decoder → WireResult (α × Decoder)}
    {v : α} : Sound .skipped n 0 0 need s e .ok D v := by
  intro enc enc' _ _ hE
  obtain rfl := Except.ok.inj hE
  exact ⟨Wrote.refl _ _ _, fun hm => absurd rfl hm⟩

theorem scalarCode_ne_bool {v : Value} {ty : Ty} {k : Nat} (h : scalarCode v ty = some k) :
    ty.packKind ≠ .bool := by
  cases ty <;> first | exact Kind.noConfusion | (cases v <;> exact nomatch h)

theorem scalar_sound {m : Mode} {n need off bit : Nat} {payload : Bool} {v : Value} {ty : Ty}
    (h : ScalarSuits m v ty) :
    Sound m n 0 0 need (ty.packKind.slotStart off bit) (ty.packKind.slotEnd off bit)
      (encodeScalar v ty off bit) (decodeField ty payload off bit) v := by
  obtain ⟨hsome, hexact⟩ := h
  obtain ⟨k, hk⟩ := Option.isSome_iff_exists.mp hsome
  have hbool := scalarCode_ne_bool hk
  have hE : encodeScalar v ty off bit = (·.writeLe off (toLE ty.packKind.size k)) := by
    funext enc
    rw [encodeScalar, hk]
  rw [hE, Kind.slotStart, Kind.slotEnd, if_neg hbool, if_neg hbool]
  refine sound_put (scalarCode_lt hk) fun _ =>
    ⟨_, fun hex => ?_, fun dec _ hread => decodeField_scalar (scalarValue_scalarCode hk) hread⟩
  -- an exact enum value fits into 32 bits
  have hfit := hexact hex
  cases v <;> first | rfl | exact congrArg Value.enum hfit

theorem checkHandle_ok {dec : Decoder} {index : UInt32} (h : HandleOk dec.handleCount index) :
    checkHandle dec index.toNat = .ok () := by
  rw [checkHandle]
  refine if_neg fun ⟨hne, hge⟩ => ?_
  rcases h with rfl | hlt
  · exact hne rfl
  · exact Nat.not_le.mpr hlt hge

theorem handle_sound {m : Mode} {n need off bit : Nat} {payload : Bool} {index : UInt32}
    (h : m ≠ .skipped → HandleOk n index) :
    Sound m n (if index = encodedInvalidHandleValue then 0 else 1) 0 need (8 * off) (8 * (off + 4))
      (fun enc => (enc.pushHandle index).writeLe off (toLE 4 index.toNat))
      (decodeField .handle payload off bit) (.handle index) := by
  refine Sound.push index (sound_put index.toNat_lt fun hm =>
    ⟨.handle index, fun _ => rfl, fun dec hn hread => ?_⟩)
  rw [decodeField, hread, ok_bind, checkHandle_ok (hn ▸ h hm), ok_bind, UInt32.ofNat_toNat]

theorem max_ofNat_eq {v version : UInt32} (h : version.toNat ≤ v.toNat) :
    UInt32.ofNat (max (max v.toNat version.toNat) version.toNat) = v := by
  rw [Nat.max_eq_left h, Nat.max_eq_left h, UInt32.ofNat_toNat]

theorem interface_sound {m : Mode} {n need off bit : Nat} {payload : Bool}
    {index v version : UInt32} (h : m ≠ .skipped → HandleOk n index)
    (hver : m = .exact → version.toNat ≤ v.toNat) :
    Sound m n (if index = encodedInvalidHandleValue then 0 else 1) 0 need (8 * off) (8 * (off + 8))
      (fun enc => (enc.pushHandle index).writeLe off (toLE 4 index.toNat) >>=
        (·.writeLe (off + 4) (toLE 4 (max v.toNat version.toNat))))
      (decodeField (.interface version) payload off bit) (.interface index v) := by
  refine Sound.push index (sound_pair index.toNat_lt ?_ fun hm =>
    ⟨.interface index (UInt32.ofNat (max (max v.toNat version.toNat) version.toNat)),
      fun hex => by rw [max_ofNat_eq (hver hex)], fun dec hn hread => ?_⟩)
  · exact Nat.max_lt.mpr ⟨v.toNat_lt, version.toNat_lt⟩
  · rw [decodeField, hread, ok_bind]
    dsimp only
    rw [checkHandle_ok (hn ▸ h hm), ok_bind, UInt32.ofNat_toNat]

theorem associatedInterface_sound {m : Mode} {n need off bit : Nat} {payload : Bool}
    {id v version : UInt32} (hver : m = .exact → version.toNat ≤ v.toNat) :
    Sound m n 0 0 need (8 * off) (8 * (off + 8))
      (fun enc => enc.writeLe off (toLE 4 id.toNat) >>=
        (·.writeLe (off + 4) (toLE 4 (max v.toNat version.toNat))))
      (decodeField (.associatedInterface version) payload off bit)
      (.associatedInterface id v) := by
  refine sound_pair id.toNat_lt ?_ fun _ =>
    ⟨.associatedInterface id (UInt32.ofNat (max (max v.toNat version.toNat) version.toNat)),
      fun hex => by rw [max_ofNat_eq (hver hex)], fun dec _ hread => ?_⟩
  · exact Nat.max_lt.mpr ⟨v.toNat_lt, version.toNat_lt⟩
  · rw [decodeField, hread, ok_bind]
    dsimp only
    rw [UInt32.ofNat_toNat]

theorem bool_sound {m : Mode} {n need off bit : Nat} {payload b : Bool} (hbit : bit < 8) :
    Sound m n 0 0 need (8 * off + bit) (8 * off + bit + 1)
      (fun enc => .ok (enc.writeBit off bit b)) (decodeField .bool payload off bit) (.bool b) := by
  refine sound_bit hbit fun dec byte hbyte hb => ?_
  rw [decodeField, hbyte, ok_bind, hb]

/-- A nullable scalar that is absent, outside of a struct. -/
theorem absentScalar_sound {m : Mode} {n need off bit : Nat} {payload : Bool} (inner : Ty)
    {v : Value} (h : m = .skipped ∨ m = .accepted ∧ ZeroSuits n inner) (hbit : bit < 8) :
    Sound m n 0 0 need (inner.packKind.slotStart off bit) (inner.packKind.slotEnd off bit) .ok
      (decodeField (.nullableScalar inner) payload off bit) v := by
  rcases h with rfl | ⟨rfl, hzero⟩
  · exact sound_skipped
  · exact (sound_zero _ off payload (.nullableScalar inner) (fun _ => hzero) hbit).inexact (by decide)

/-- Null. -/
theorem null_matches : FieldMatches .null := by
  intro m n payload ty off bit hsuits hbit
  cases ty with
  | string nullable =>
      obtain rfl : nullable = true := hsuits
      exact sound_null _
  | array element nullable =>
      obtain rfl : nullable = true := hsuits
      exact sound_null _
  | map key value nullable =>
      obtain rfl : nullable = true := hsuits
      exact sound_null _
  | struct fields version nullable =>
      obtain rfl : nullable = true := hsuits
      have hD : decodeField (.struct fields version true) payload off bit = fun dec =>
          dec.follow off true (decodeStruct fields (fieldDecoders fields)) := by
        funext dec
        rw [decodeField, Bool.or_true, if_pos rfl]
      rw [hD]
      exact sound_null _
  | union members nullable inlined =>
      obtain ⟨hnull, hplace⟩ : nullable = true ∧ (inlined = true →
        m = .skipped ∨ m = .accepted ∧ ZeroSuits n (.union members true true)) := hsuits
      obtain rfl := hnull
      cases inlined with
      | false =>
          have hD : decodeField (.union members true false) payload off bit = fun dec =>
              dec.follow off true (decodeUnionAt (memberDecoders members) true) := by
            funext dec
            rw [decodeField, if_neg Bool.false_ne_true]
          rw [hD]
          exact sound_null _
      | true =>
          rcases hplace rfl with rfl | ⟨rfl, hzero⟩
          · refine ((sound_null (m := .accepted) fun _ _ => .error unexpectedNullPointer).widen
              (Nat.le_refl _) ?_).skip
            show 8 * (off + 8) ≤ 8 * (off + 16)
            omega
          · exact (sound_nullUnion _ off payload members true (fun _ => hzero) hbit).inexact
              (by decide)
  | nullableScalar inner =>
      exact absentScalar_sound inner hsuits hbit
  | _ => exact absurd hsuits id

/-! ### Elements of arrays -/

/-- A value suits as an element of an array. -/
def ItemSuits (m : Mode) (n : Nat) (element : Ty) (v : Value) : Prop :=
  if element.isPod then Suits v m n false element
  else match v with
    | .null => m ≠ .skipped → element.isNullable = true
    | _ => SuitsElement v m n element

theorem suitsItems_iff {m : Mode} {n : Nat} {element : Ty} {vs : List Value} :
    SuitsItems vs m n element ↔ ∀ v ∈ vs, ItemSuits m n element v := by
  induction vs with
  | nil => exact ⟨fun _ => List.forall_mem_nil _, fun _ => trivial⟩
  | cons v vs ih =>
      rw [List.forall_mem_cons, ← ih]
      cases v <;> rfl

/-- The handles or objects of an element. -/
def itemTally (handle : UInt32 → Nat) (object : Nat → Nat) (element : Ty) (v : Value) : Nat :=
  if element.isPod then tally handle object v element
  else match v with
    | .null => 0
    | _ => tallyElement handle object v element

theorem tallyItems_eq (handle : UInt32 → Nat) (object : Nat → Nat) (element : Ty)
    (vs : List Value) :
    tallyItems handle object vs element = (vs.map (itemTally handle object element)).sum := by
  induction vs with
  | nil => rfl
  | cons v vs ih =>
      rw [List.map_cons, List.sum_cons, ← ih]
      cases v <;> rfl

/-- The depth of one item of an array. -/
def itemNesting (s : Nat) (element : Ty) (v : Value) : Nat :=
  if element.isPod then nesting s v false element else nestingElement s v element

theorem itemNesting_le {s : Nat} {element : Ty} {vs : List Value} {v : Value} (h : v ∈ vs) :
    itemNesting s element v ≤ nestingItems s vs element := by
  induction vs with
  | nil => exact nomatch h
  | cons w vs ih =>
      rw [nestingItems]
      rcases List.mem_cons.mp h with rfl | h
      · exact Nat.le_max_left ..
      · exact Nat.le_trans (ih h) (Nat.le_max_right ..)

theorem slot_of_size (k : Kind) (off : Nat) :
    8 * off ≤ k.slotStart off 0 ∧ k.slotEnd off 0 ≤ 8 * (off + k.size) := by
  unfold Kind.slotStart Kind.slotEnd
  split
  · rename_i hk
    rw [hk]
    show _ ∧ _ ≤ 8 * (off + 1)
    omega
  · exact ⟨Nat.le_refl _, Nat.le_refl _⟩

/-- An element that is an object of its own. -/
theorem itemObject {element : Ty} (hpod : ¬element.isPod = true) {v : Value} (hv : v ≠ .null) :
    (∀ m n, ItemSuits m n element v = SuitsElement v m n element) ∧
      (∀ handle object, itemTally handle object element v = tallyElement handle object v element) ∧
      encodeItem v element = fun off enc => enc.appendObject off (encodeArrayElementAt v element) := by
  refine ⟨fun m n => (if_neg hpod).trans ?_, fun handle object => (if_neg hpod).trans ?_,
    funext fun off => funext fun enc => (if_neg hpod).trans ?_⟩
  all_goals cases v <;> first | rfl | exact absurd rfl hv

/-- An element of an array. -/
theorem item_sound {m : Mode} {n : Nat} {element : Ty} {v : Value} (hf : FieldMatches v)
    (he : ElementMatches v) (h : ItemSuits m n element v) (off : Nat) :
    Sound m n
      (itemTally (fun index => if index = encodedInvalidHandleValue then 0 else 1) (fun _ => 0)
        element v)
      (itemTally (fun _ => 0) id element v) (itemNesting 1 element v) (8 * off)
      (8 * (off + element.elemSize)) (encodeItem v element off)
      (decodeItem element (decodeField element false) (decodeArrayElement element) off) v := by
  by_cases hpod : element.isPod = true
  · -- in place
    have hs : Suits v m n false element := by
      unfold ItemSuits at h
      rwa [if_pos hpod] at h
    have htally : ∀ handle object,
        itemTally handle object element v = tally handle object v element := fun _ _ => if_pos hpod
    have hE : encodeItem v element off = encodeFieldAt v false element off 0 :=
      funext fun _ => if_pos hpod
    have hD : decodeItem element (decodeField element false) (decodeArrayElement element) off =
        decodeField element false off 0 := funext fun _ => if_pos hpod
    rw [htally, htally, itemNesting, if_pos hpod, Ty.elemSize, if_pos hpod, hE, hD]
    exact (hf m n false element off 0 hs (by decide)).widen (slot_of_size _ off).1
      (slot_of_size _ off).2
  · -- behind a pointer
    have hD : decodeItem element (decodeField element false) (decodeArrayElement element) off =
        fun dec => dec.follow off element.isNullable (decodeArrayElement element) :=
      funext fun _ => if_neg hpod
    rw [itemNesting, if_neg hpod, Ty.elemSize, if_neg hpod, hD]
    by_cases hnull : v = .null
    · subst hnull
      have htally : ∀ handle object, itemTally handle object element .null = 0 :=
        fun _ _ => if_neg hpod
      have hE : encodeItem .null element off = (·.writeNull off) := funext fun _ => if_neg hpod
      have hs : m ≠ .skipped → element.isNullable = true := by
        unfold ItemSuits at h
        rwa [if_neg hpod] at h
      rw [htally, htally, hE]
      by_cases hm : m = .skipped
      · subst hm
        exact (sound_null (m := .accepted) (decodeArrayElement element)).skip
      · rw [hs hm]
        exact sound_null _
    · obtain ⟨hs, htally, hE⟩ := itemObject hpod hnull
      rw [hs] at h
      rw [htally, htally, hE]
      exact sound_appendObject (he m n element h)

/-- An array whose elements match. -/
theorem array_of_items {m : Mode} {n need count : Nat} {element : Ty} {vs : List Value}
    {D : Nat → Decoder → WireResult (Value × Decoder)} (hh gg : Value → Nat)
    (hitem : ∀ v ∈ vs, ∀ off, Sound m n (hh v) (gg v) need (8 * off)
      (8 * (off + element.elemSize)) (encodeItem v element off) (D off) v)
    (hsize : m = .exact → arraySize element vs.length < sizeFieldLimit)
    (hcount : vs.length = count) :
    ObjectSound m n (vs.map hh).sum (arraySize element vs.length + (vs.map gg).sum) need
      (encodeArrayBody element vs.length (encodeItems vs element))
      (sized count (decodeArrayBody element D)) ⟨vs, hcount⟩ := by
  subst hcount
  exact arrayObject_sound hsize (items_sound hh gg hitem)

theorem arrayValue_of_items {m : Mode} {n need : Nat} {element : Ty} {vs : List Value}
    {D : Nat → Decoder → WireResult (Value × Decoder)} (hh gg : Value → Nat)
    (hitem : ∀ v ∈ vs, ∀ off, Sound m n (hh v) (gg v) need (8 * off)
      (8 * (off + element.elemSize)) (encodeItem v element off) (D off) v)
    (hsize : m = .exact → arraySize element vs.length < sizeFieldLimit) :
    ObjectSound m n (vs.map hh).sum (arraySize element vs.length + (vs.map gg).sum) need
      (encodeArrayBody element vs.length (encodeItems vs element))
      (decodeArrayValue element D) (.array vs) := by
  refine ObjectSound.map (fun a => Value.array a.val) (fun target dec a dec' hok => ?_)
    (array_of_items hh gg hitem hsize rfl)
  rw [decodeArrayValue, sized_eq_ok hok]
  rfl

/-- A map whose keys and values match. -/
theorem mapValue_of_items {m : Mode} {n nk nv : Nat} {key value : Ty} {keys values : List Value}
    {KD VD : Nat → Decoder → WireResult (Value × Decoder)} (hk gk hv gv : Value → Nat)
    (hkey : ∀ v ∈ keys, ∀ off, Sound m n (hk v) (gk v) nk (8 * off)
      (8 * (off + key.elemSize)) (encodeItem v key off) (KD off) v)
    (hvalue : ∀ v ∈ values, ∀ off, Sound m n (hv v) (gv v) nv (8 * off)
      (8 * (off + value.elemSize)) (encodeItem v value off) (VD off) v)
    (hsize : m = .exact → arraySize key keys.length < sizeFieldLimit ∧
      arraySize value values.length < sizeFieldLimit)
    (hcount : keys.length = values.length) :
    ObjectSound m n ((keys.map hk).sum + (values.map hv).sum)
      (mapDataSize + (arraySize key keys.length + (keys.map gk).sum) +
        (arraySize value values.length + (values.map gv).sum))
      (1 + max nk nv)
      (encodeMapAt keys.length values.length
        (encodeArrayBody key keys.length (encodeItems keys key))
        (encodeArrayBody value values.length (encodeItems values value)))
      (decodeMapAt (decodeArrayBody key KD) (decodeArrayBody value VD)) (.map keys values) := by
  have hkeys := array_of_items hk gk hkey (fun hex => (hsize hex).1) rfl
  have hvalues := array_of_items hv gv hvalue (fun hex => (hsize hex).2) hcount.symm
  have hmap := mapObject_sound (hkeys.mono (Nat.le_max_left _ nv))
    (hvalues.mono (Nat.le_max_right nk _))
  rw [Nat.add_assoc mapDataSize]
  rw [show encodeMapAt keys.length values.length = encodeMapAt keys.length keys.length by
    rw [hcount]]
  exact hmap

section Items

variable {m : Mode} {n : Nat} {element : Ty} {vs : List Value}
  (hvs : ∀ v ∈ vs, FieldMatches v ∧ ElementMatches v) (h : SuitsItems vs m n element)
include hvs h

/-- What matches inside matches as the elements of an array. -/
theorem items_match : ∀ v ∈ vs, ∀ off, Sound m n
    (itemTally (fun index => if index = encodedInvalidHandleValue then 0 else 1) (fun _ => 0)
      element v)
    (itemTally (fun _ => 0) id element v) (nestingItems 1 vs element) (8 * off)
    (8 * (off + element.elemSize)) (encodeItem v element off)
    (decodeItem element (decodeField element false) (decodeArrayElement element) off) v := by
  intro v hv off
  have hitem := item_sound (hvs v hv).1 (hvs v hv).2 (suitsItems_iff.mp h v hv) off
  exact hitem.mono (itemNesting_le hv)

theorem arrayValue_sound (hsize : m = .exact → arraySize element vs.length < sizeFieldLimit) :
    ObjectSound m n
      (0 + tallyItems (fun index => if index = encodedInvalidHandleValue then 0 else 1)
        (fun _ => 0) vs element)
      (arraySize element vs.length + tallyItems (fun _ => 0) id vs element)
      (nestingItems 1 vs element)
      (encodeArrayBody element vs.length (encodeItems vs element))
      (decodeArrayValue element
        (decodeItem element (decodeField element false) (decodeArrayElement element)))
      (.array vs) := by
  rw [Nat.zero_add, tallyItems_eq, tallyItems_eq]
  exact arrayValue_of_items _ _ (items_match hvs h) hsize

end Items

theorem mapValue_sound {m : Mode} {n : Nat} {key value : Ty} {keys values : List Value}
    (hkeys : ∀ v ∈ keys, FieldMatches v ∧ ElementMatches v)
    (hvalues : ∀ v ∈ values, FieldMatches v ∧ ElementMatches v)
    (hsize : m = .exact → arraySize key keys.length < sizeFieldLimit ∧
      arraySize value values.length < sizeFieldLimit)
    (hcount : keys.length = values.length) (hk : SuitsItems keys m n key)
    (hv : SuitsItems values m n value) :
    ObjectSound m n
      (0 + (0 + tallyItems (fun index => if index = encodedInvalidHandleValue then 0 else 1)
          (fun _ => 0) keys key) +
        (0 + tallyItems (fun index => if index = encodedInvalidHandleValue then 0 else 1)
          (fun _ => 0) values value))
      (mapDataSize + (arraySize key keys.length + tallyItems (fun _ => 0) id keys key) +
        (arraySize value values.length + tallyItems (fun _ => 0) id values value))
      (1 + max (nestingItems 1 keys key) (nestingItems 1 values value))
      (encodeMapAt keys.length values.length
        (encodeArrayBody key keys.length (encodeItems keys key))
        (encodeArrayBody value values.length (encodeItems values value)))
      (decodeMapAt
        (decodeArrayBody key (decodeItem key (decodeField key false) (decodeArrayElement key)))
        (decodeArrayBody value
          (decodeItem value (decodeField value false) (decodeArrayElement value))))
      (.map keys values) := by
  rw [Nat.zero_add, Nat.zero_add, Nat.zero_add]
  simp only [tallyItems_eq]
  exact mapValue_of_items _ _ _ _ (items_match hkeys hk) (items_match hvalues hv) hsize hcount

/-! ### Structs -/

theorem structValue_sound {m : Mode} {n : Nat} {fields : List FieldType} {version : UInt32}
    {vs : List Value} (hmatch : ∀ i, Matching (vs.getD i .null))
    (hstruct : StructSuits m fields version vs.length)
    (hfields : SuitsFields vs m n version fields) :
    ObjectSound m n
      (0 + tallyFields (fun index => if index = encodedInvalidHandleValue then 0 else 1)
        (fun _ => 0) vs fields)
      (structSize fields + tallyFields (fun _ => 0) id vs fields) (1 + nestingFields 1 vs fields)
      (encodeStructAt fields version .null (fieldValues vs))
      (decodeStruct fields (fieldDecoders fields)) (.struct version vs) := by
  rw [Nat.zero_add]
  have hsound := structObject_sound hstruct.1 (readsFrom_self hstruct)
    (fun hex => by subst hex; exact hstruct.2.2.2) hmatch
    (fieldSuits_of_suitsFields hfields)
  by_cases hex : m = .exact
  · subst hex
    rwa [readBack_self hstruct fun i ft hft _ => fieldSuits_exact hstruct hfields hft] at hsound
  · exact hsound.inexact hex

/-- The empty struct in place. -/
theorem structInline_sound {m : Mode} {n off : Nat} {version : UInt32} {vs : List Value}
    (hmatch : ∀ i, Matching (vs.getD i .null)) (hstruct : StructSuits m [] version vs.length)
    (hfields : SuitsFields vs m n version []) :
    Sound m n
      (0 + tallyFields (fun index => if index = encodedInvalidHandleValue then 0 else 1)
        (fun _ => 0) vs [])
      (0 + tallyFields (fun _ => 0) id vs []) (1 + nestingFields 1 vs [])
      (8 * off) (8 * (off + 8)) (encodeStructAt [] version .null (fieldValues vs) off)
      (decodeStructInline [] (fieldDecoders []) off) (.struct version vs) := by
  rw [Nat.zero_add, Nat.zero_add]
  have hsound := sound_structInline hstruct.1 (readsFrom_self hstruct)
    (fun _ => by decide) hmatch
    (fieldSuits_of_suitsFields hfields) off
  by_cases hex : m = .exact
  · subst hex
    rwa [readBack_self hstruct fun i ft hft _ => fieldSuits_exact hstruct hfields hft] at hsound
  · exact hsound.inexact hex

/-! ### All values -/

/-- What stands for a value of another kind: an empty string. -/
theorem emptyString_sound {m : Mode} {n need : Nat} {v : Value} (hm : m ≠ .exact) :
    ObjectSound m n 0 (stringSize "") need (encodeStringObjectAt · "") decodeStringAt v :=
  (stringObject_sound (fun _ => by unfold NulFree; decide) fun hex => absurd hex hm).inexact hm

/-- And an empty array. -/
theorem emptyArray_sound {m : Mode} {n need : Nat} {inner : Ty} {v : Value} (hm : m ≠ .exact)
    (item : Nat → Decoder → WireResult (Value × Decoder)) :
    ObjectSound m n 0 (arraySize inner 0) need (encodeArrayBody inner 0 fun _ => .ok)
      (decodeArrayValue inner item) v := by
  have harr : ObjectSound m n 0 (arraySize inner 0) need (encodeArrayBody inner 0 fun _ => .ok)
      (sized 0 (decodeArrayBody inner item)) ⟨[], rfl⟩ :=
    @arrayObject_sound m n 0 0 need inner [] _ item (fun hex => absurd hex hm) fun _ => sound_nil []
  refine ObjectSound.inexact hm (v := .array []) ?_
  refine ObjectSound.map (fun a => Value.array a.val) (fun target dec a dec' hok => ?_) harr
  rw [decodeArrayValue, sized_eq_ok hok]
  rfl

section Inside

variable {v : Value} (inside : ∀ w, sizeOf w < sizeOf v → FieldMatches w ∧ ElementMatches w)
include inside

theorem children_match : ∀ w ∈ v.children, FieldMatches w ∧ ElementMatches w :=
  fun w hw => inside w (sizeOf_child_lt hw)

theorem fields_match {version : UInt32} {vs : List Value} (hv : v = .struct version vs) (i : Nat) :
    Matching (vs.getD i .null) := by
  subst hv
  rw [List.getD_eq_getElem?_getD]
  cases hw : vs[i]? with
  | none => exact ⟨null_matches, fun w h => nomatch h⟩
  | some w =>
      have hlt : sizeOf w < sizeOf (Value.struct version vs) :=
        sizeOf_child_lt (List.mem_of_getElem? hw)
      refine ⟨(inside w hlt).1, fun u hu => (inside u (Nat.lt_trans ?_ hlt)).1⟩
      obtain rfl : w = .nullableScalar true u := hu
      exact sizeOf_child_lt (List.mem_singleton_self u)

/-- A value matches as an element, when what is inside it matches. -/
theorem element_matches : ElementMatches v := by
  intro m n element hs
  have hchildren := children_match inside
  cases v with
  | struct version vs =>
      cases element with
      | struct fields sv nullable =>
          exact structValue_sound (fields_match inside rfl) hs.1 hs.2
      | string nullable => exact emptyString_sound hs
      | array inner nullable => exact emptyArray_sound hs _
      | _ => exact absurd hs id
  | array items =>
      have hitems : ∀ w ∈ items, FieldMatches w ∧ ElementMatches w := hchildren
      cases element with
      | array inner nullable => exact arrayValue_sound hitems hs.2 hs.1
      | string nullable => exact emptyString_sound hs
      | _ => exact absurd hs id
  | map keys values =>
      cases element with
      | map key value nullable =>
          exact mapValue_sound (fun w hw => hchildren w (List.mem_append_left _ hw))
            (fun w hw => hchildren w (List.mem_append_right _ hw)) hs.1 hs.2.1 hs.2.2.1 hs.2.2.2
      | string nullable => exact emptyString_sound hs
      | array inner nullable => exact emptyArray_sound hs _
      | _ => exact absurd hs id
  | string s =>
      cases element with
      | string nullable => exact stringObject_sound hs.1 hs.2
      | array inner nullable => exact emptyArray_sound hs _
      | _ => exact absurd hs id
  | _ =>
      cases element with
      | string nullable => exact emptyString_sound hs
      | array inner nullable => exact emptyArray_sound hs _
      | _ => exact absurd hs id

end Inside

/-- The payload of a union. -/
theorem payload_sound {m : Mode} {n : Nat} {value : Value} {member : Ty}
    (hvalue : FieldMatches value) (hkind : member.packKind ≠ .union)
    (hs : Suits value m n true member) (off : Nat) :
    Sound m n (handleTotal value member) (byteTotal value member) (nesting 1 value true member)
      (8 * off) (8 * (off + 8)) (encodeFieldAt value true member off 0)
      (decodeField member true off 0) value := by
  have hsize := Kind.size_le_eight hkind
  obtain ⟨hstart, hstop⟩ := slot_of_size member.packKind off
  exact (hvalue m n true member off 0 hs (by decide)).widen hstart (by omega)

theorem encodeFieldAt_unionPointer {members : List Ty} {tag : UInt32} {member : Ty} {value : Value}
    {payload nullable : Bool} {off bit : Nat} (hm : members[tag.toNat]? = some member) :
    encodeFieldAt (.union tag value) payload (.union members nullable false) off bit = fun enc =>
      enc.appendObject off (encodeUnionInline tag fun dataOff =>
        encodeFieldAt value true member dataOff 0) := by
  funext enc
  simp only [encodeFieldAt, hm, if_neg Bool.false_ne_true]

theorem encodeFieldAt_unionInPlace {members : List Ty} {tag : UInt32} {member : Ty} {value : Value}
    {payload nullable : Bool} {off bit : Nat} (hm : members[tag.toNat]? = some member) :
    encodeFieldAt (.union tag value) payload (.union members nullable true) off bit =
      encodeUnionInline tag (fun dataOff => encodeFieldAt value true member dataOff 0) off := by
  funext enc
  simp only [encodeFieldAt, hm, if_pos]

/-- A union, in place or behind a pointer. -/
theorem union_sound {m : Mode} {n off bit : Nat} {payload : Bool} {tag : UInt32} {value : Value}
    {members : List Ty} {nullable inlined : Bool}
    (hs : Suits (.union tag value) m n payload (.union members nullable inlined))
    (hvalue : FieldMatches value) :
    Sound m n (handleTotal (.union tag value) (.union members nullable inlined))
      (byteTotal (.union tag value) (.union members nullable inlined))
      (nesting 1 (.union tag value) payload (.union members nullable inlined))
      ((Ty.union members nullable inlined).packKind.slotStart off bit)
      ((Ty.union members nullable inlined).packKind.slotEnd off bit)
      (encodeFieldAt (.union tag value) payload (.union members nullable inlined) off bit)
      (decodeField (.union members nullable inlined) payload off bit) (.union tag value) := by
  cases hm : members[tag.toNat]? with
  -- no value suits a member that is not there
  | none =>
      simp only [Suits, hm] at hs
  | some member =>
      simp only [Suits, hm] at hs
      -- the member is encoded last, wherever the union sits
      have hlast : ∀ off, Sound m n (0 + handleTotal value member) (byteTotal value member)
          (nesting 1 value true member) (8 * off) (8 * (off + 8))
          (lastly false (8 * (off + 8)) (encodeFieldAt value true member off 0))
          (decodeField member true off 0) value := by
        intro off
        rw [Nat.zero_add]
        exact sound_lastly_false.mpr (payload_sound hvalue hs.1 hs.2 off)
      have hdec : (memberDecoders members)[tag.toNat]? = some (decodeField member true) := by
        rw [getElem?_memberDecoders, hm]
        rfl
      simp only [handleTotal, byteTotal, tally, nesting, hm]
      cases inlined with
      -- the union sits in its field
      | true =>
          have hD : decodeField (.union members nullable true) payload off bit =
              decodeUnionAt (memberDecoders members) false off := by
            funext dec
            rw [decodeField, if_pos rfl]
          rw [hD, encodeFieldAt_unionInPlace hm, if_pos rfl, if_pos rfl,
            Nat.zero_add (tally (fun _ => 0) id value member)]
          exact sound_lastly_false.mp (sound_unionInline hdec (hlast (off + 8)))
      -- the union sits behind a pointer
      | false =>
          have hD : decodeField (.union members nullable false) payload off bit = fun dec =>
              dec.follow off nullable (decodeUnionAt (memberDecoders members) true) := by
            funext dec
            rw [decodeField, if_neg Bool.false_ne_true]
          rw [hD, encodeFieldAt_unionPointer hm, if_neg Bool.false_ne_true, if_neg Bool.false_ne_true]
          have hobject := unionObject_sound hdec hlast
          rw [aligned_false] at hobject
          exact sound_appendObject hobject

/-- A value matches as a field, when what is inside it matches. -/
theorem field_matches {v : Value}
    (inside : ∀ w, sizeOf w < sizeOf v → FieldMatches w ∧ ElementMatches w) : FieldMatches v := by
  intro m n payload ty off bit hs hbit
  have hchildren := children_match inside
  cases v with
  | bool b =>
      cases ty with
      | bool => exact bool_sound hbit
      | _ => exact absurd hs id
  | handle index =>
      cases ty with
      | handle => exact handle_sound hs
      | _ => exact absurd hs id
  | string s =>
      cases ty with
      | string nullable => exact sound_appendObject (stringObject_sound hs.1 hs.2)
      | _ => exact absurd hs id
  | array items =>
      have hitems : ∀ w ∈ items, FieldMatches w ∧ ElementMatches w := hchildren
      cases ty with
      | array element nullable =>
          have harr := arrayValue_sound hitems hs.2 hs.1
          cases payload with
          | true => exact sound_appendObject harr.nestedDecoder
          | false => exact sound_appendObject harr.nestedEncoder.nestedDecoder
      | _ => exact absurd hs id
  | map keys values =>
      cases ty with
      | map key value nullable =>
          exact sound_appendObject
            (mapValue_sound (fun w hw => hchildren w (List.mem_append_left _ hw))
              (fun w hw => hchildren w (List.mem_append_right _ hw)) hs.1 hs.2.1 hs.2.2.1 hs.2.2.2)
      | _ => exact absurd hs id
  -- a struct behind a pointer may be null, one in place is empty
  | struct version vs =>
      have hmatch := fields_match inside rfl
      cases ty with
      | struct fields sv nullable =>
          obtain ⟨hplace, hstruct, hfields⟩ : (nullable = true ∨ payload = false ∧ fields = []) ∧
            StructSuits m fields version vs.length ∧ SuitsFields vs m n version fields := hs
          cases nullable with
          | true =>
              have hD : decodeField (.struct fields sv true) payload off bit = fun dec =>
                  dec.follow off true (decodeStruct fields (fieldDecoders fields)) := by
                funext dec
                rw [decodeField, Bool.or_true, if_pos rfl]
              rw [hD]
              exact sound_appendObject (structValue_sound hmatch hstruct hfields)
          | false =>
              obtain ⟨rfl, rfl⟩ := hplace.resolve_left Bool.false_ne_true
              exact structInline_sound hmatch hstruct hfields
      | _ => exact absurd hs id
  | union tag value =>
      have hvalue := (hchildren value (List.mem_singleton_self value)).1
      cases ty with
      | union members nullable inlined =>
          exact union_sound hs hvalue
      | _ => exact absurd hs id
  | interface index v =>
      cases ty with
      | interface version => exact interface_sound hs.1 hs.2
      | _ => exact absurd hs id
  | associatedInterface endpoint v =>
      cases ty with
      | associatedInterface version => exact associatedInterface_sound hs
      | _ => exact absurd hs id
  | null => exact null_matches m n payload ty off bit hs hbit
  -- a present value is that of the inner type, the flag is not part of it
  | nullableScalar present value =>
      cases ty with
      | nullableScalar inner =>
          cases present with
          | true =>
              have hvalue := (hchildren value (List.mem_singleton_self value)).1
              exact (hvalue m n false inner off bit hs.2 hbit).inexact hs.1
          | false => exact absentScalar_sound inner hs hbit
      | _ => cases present <;> exact absurd hs id
  -- numbers and enums
  | _ => exact scalar_sound hs

/-- Every value matches. -/
theorem matches_all : ∀ v : Value, FieldMatches v ∧ ElementMatches v :=
  Value.sizeInduction (fun _ inside => ⟨field_matches inside, element_matches inside⟩)

end MojoRs.Wire
