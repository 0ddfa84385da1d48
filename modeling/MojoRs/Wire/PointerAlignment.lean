/-
MojoRs/Wire/PointerAlignment.lean

Where the pointers of an accepted message lead.  They are stored at multiples
of eight: the payload begins at one, a type with pointers is packed and put
into arrays at an alignment of eight, and every object that a pointer leads to
has its fields behind a header of eight bytes.  What a pointer leads to is not
tested for alignment, so that it depends on the word that is stored
(`pointers_aligned_iff`): from the first word that is no multiple of eight on,
nothing is where it should be.

Main result: `pointers_aligned_iff`.
-/
import MojoRs.Wire.Headers
import MojoRs.Wire.OffsetWalk

namespace MojoRs.Wire

open Lib

/-- The visits of the payload of a message. -/
def messageVisits (bytes : List UInt8) (handleCount : Nat) (payloadType : Ty)
    (limits : ValidationLimits) (payloadOffset : Nat) : Visiting (Value × Decoder) :=
  visitStructOf payloadType payloadOffset (.new bytes handleCount limits.maxRecursionDepth)

section Accepted

variable {bytes : List UInt8} {handleCount : Nat} {payloadType : Ty} {limits : ValidationLimits}
  {m : ValidatedMessage}

/-- A message that is accepted has a header, and a payload behind it. -/
theorem validate_eq_ok (h : validateMessage bytes handleCount payloadType limits = .ok m) :
    ∃ headerSize dec', MessageHeader.parse bytes = .ok (m.header, headerSize) ∧
      m.payloadOffset = (headerSize + 7) / 8 * 8 ∧
      (messageVisits bytes handleCount payloadType limits m.payloadOffset).result =
        .ok (m.payload, dec') := by
  unfold validateMessage at h
  split_ifs at h
  obtain ⟨⟨header, headerSize⟩, hheader, h⟩ := bind_eq_ok h
  obtain ⟨payloadOffset, hoffset, h⟩ := bind_eq_ok h
  split_ifs at h
  unfold messageVisits
  cases payloadType with
  | struct fields version nullable =>
      obtain ⟨⟨payload, dec'⟩, hdecode, h⟩ := bind_eq_ok h
      obtain rfl := Except.ok.inj h
      exact ⟨headerSize, dec', hheader, (alignUp_eq_ok hoffset).1,
        (visitStructOf_result ..).trans hdecode⟩
  | _ => cases h

/-- The word of an aligned pointer tells whether its target is aligned. -/
theorem dvd_target_iff {slot raw target : Nat} (hslot : 8 ∣ slot)
    (h : Pointer.decode slot raw = .offset target) : 8 ∣ target ↔ 8 ∣ raw := by
  unfold Pointer.decode at h
  split_ifs at h
  rw [← Pointer.offset.inj h, (Nat.dvd_mod_iff (by decide : 8 ∣ usizeLimit)),
    Nat.dvd_add_right hslot]

/-- Where the pointers of a payload are stored, as the schema leads to them. -/
def pointerSlots (bytes : List UInt8) (payloadType : Ty) (payloadOffset : Nat) : List Nat :=
  (structVisitsOf bytes payloadType payloadOffset).filterMap fun
    | .pointer slot _ => some slot
    | _ => none

/-- The decoder of an accepted message follows the pointers that are stored there. -/
theorem mem_pointerSlots {payloadOffset : Nat} {y : Value × Decoder}
    (h : (messageVisits bytes handleCount payloadType limits payloadOffset).result = .ok y)
    {slot : Nat} :
    slot ∈ pointerSlots bytes payloadType payloadOffset ↔ ∃ target, .pointer slot target ∈
      (messageVisits bytes handleCount payloadType limits payloadOffset).events := by
  have hwalk : (messageVisits bytes handleCount payloadType limits payloadOffset).events =
      structVisitsOf bytes payloadType payloadOffset :=
    ((visitStructOf_follows payloadType payloadOffset
      (.new bytes handleCount limits.maxRecursionDepth)).returns y h).1
  rw [hwalk, pointerSlots, List.mem_filterMap]
  constructor
  · rintro ⟨v, hv, hslot⟩
    cases v with
    | pointer slot' target =>
        obtain rfl := Option.some.inj hslot
        exact ⟨target, hv⟩
    | object => cases hslot
    | sum => cases hslot
  · rintro ⟨target, hv⟩
    exact ⟨_, hv, rfl⟩

/-- The pointers that are followed in an accepted message are aligned just if the
words are that are stored for them. -/
theorem pointers_aligned_iff
    (h : validateMessage bytes handleCount payloadType limits = .ok m) :
    ∃ events dec', messageVisits bytes handleCount payloadType limits m.payloadOffset =
        ⟨events, .ok (m.payload, dec')⟩ ∧
      ((∀ slot target, .pointer slot target ∈ events → 8 ∣ target) ↔
        ∀ slot ∈ pointerSlots bytes payloadType m.payloadOffset, 8 ∣ readLE bytes slot 8) := by
  obtain ⟨headerSize, dec', -, hoffset, hresult⟩ := validate_eq_ok h
  refine ⟨_, dec', congrArg (Traced.mk _) hresult, ?_⟩
  have haligned : 8 ∣ m.payloadOffset := hoffset ▸ Nat.dvd_mul_left 8 _
  have hvisited := visited_structOf payloadType m.payloadOffset
    (.new bytes handleCount limits.maxRecursionDepth)
  have hread := hvisited.read
  constructor
  · intro htargets slot hslot
    obtain ⟨target, hmem⟩ := (mem_pointerSlots hresult).mp hslot
    have hslots := hvisited.slots haligned (fun _ target => 8 ∣ target) (fun _ _ _ h => h) htargets
    exact (dvd_target_iff (hslots slot target hmem) (hread slot target hmem)).mp
      (htargets slot target hmem)
  · intro hwords slot target hmem
    have hword {slot target : Nat} (hmem : .pointer slot target ∈ (messageVisits bytes handleCount
        payloadType limits m.payloadOffset).events) : 8 ∣ readLE bytes slot 8 :=
      hwords slot ((mem_pointerSlots hresult).mpr ⟨target, hmem⟩)
    -- a slot is aligned where the pointers before it lead to aligned offsets
    have hslots := hvisited.slots haligned
      (fun slot target => Pointer.decode slot (readLE bytes slot 8) = .offset target ∧
        8 ∣ readLE bytes slot 8)
      (fun slot target hslot h => (dvd_target_iff hslot h.1).mpr h.2)
      fun slot target hmem => ⟨hread slot target hmem, hword hmem⟩
    exact (dvd_target_iff (hslots slot target hmem) (hread slot target hmem)).mpr (hword hmem)

end Accepted

/-- A message with a string, whose pointer holds `raw`, and whose bytes begin
with `filler`. -/
def stringMessage (raw : UInt8) (filler : List UInt8) : List UInt8 :=
  [24, 0, 0, 0, 0, 0, 0, 0, 0, 0, 0, 0, 0, 0, 0, 0, 0, 0, 0, 0, 0, 0, 0, 0,
    16, 0, 0, 0, 0, 0, 0, 0, raw, 0, 0, 0, 0, 0, 0, 0] ++ filler ++
    [10, 0, 0, 0, 1, 0, 0, 0, 97, 0]

/-- The pointer to the string is the only one, and its word is eight. -/
theorem pointers_aligned_string : ∃ m,
    validateMessage (stringMessage 8 []) 0 (.struct [⟨.string false, none⟩] 0 false) {} = .ok m ∧
    .pointer 32 40 ∈ (messageVisits (stringMessage 8 []) 0 (.struct [⟨.string false, none⟩] 0 false)
      {} m.payloadOffset).events ∧
    ∀ slot target, .pointer slot target ∈ (messageVisits (stringMessage 8 []) 0
      (.struct [⟨.string false, none⟩] 0 false) {} m.payloadOffset).events → 8 ∣ target := by
  refine ⟨_, rfl, by decide +kernel, ?_⟩
  obtain ⟨events, dec', hvisits, hiff⟩ := pointers_aligned_iff
    (rfl : validateMessage (stringMessage 8 []) 0 (.struct [⟨.string false, none⟩] 0 false) {} =
      .ok _)
  rw [show (messageVisits ..).events = events from congrArg Traced.events hvisits]
  exact hiff.mpr (by decide +kernel)

/-- A string behind a byte of padding is accepted, at an odd offset. -/
theorem string_misaligned : ∃ m,
    validateMessage (stringMessage 9 [0]) 0 (.struct [⟨.string false, none⟩] 0 false) {} = .ok m ∧
    .pointer 32 41 ∈ (messageVisits (stringMessage 9 [0]) 0 (.struct [⟨.string false, none⟩] 0 false)
      {} m.payloadOffset).events ∧ ¬ 8 ∣ 41 :=
  ⟨_, rfl, by decide +kernel, by decide⟩

end MojoRs.Wire
