/-
MojoRs/Wire/HeaderRoundTrip.lean

The round trip of headers.  A header has a request id from version 1 on and a
creation time from version 3 on (`MessageHeader.Complete`); every header that
the parser returns does.  Such a header is serialized, and comes back from every
message that begins with it, but for the pointers to the payload, which stand
for the message that it was read from.

Main results:
* `parse_eq_ok` — what the parser returns;
* `parse_returns` — a header comes back from a message that begins with it;
* `encodeMessage_words` — a message that is encoded behind a header does.
-/
import MojoRs.Wire.Headers

namespace MojoRs.Wire

open Lib

namespace MessageHeader

variable {h : MessageHeader} {bytes out : List UInt8} {size : Nat}

/-- The fields of a header are those of its version. -/
def Complete (h : MessageHeader) : Prop :=
  (h.requestId.isSome ↔ 1 ≤ h.version.toNat) ∧ (h.creationTimeticksUs.isSome ↔ 3 ≤ h.version.toNat)

/-- The numbers of a header of 8 bytes and their offsets. -/
def Words (h : MessageHeader) (bytes : List UInt8) : Prop :=
  (∀ id, h.requestId = some id → id = UInt64.ofNat (readLE bytes headerRequestIdOffset 8)) ∧
    ∀ t, h.creationTimeticksUs = some t →
      t = (UInt64.ofNat (readLE bytes headerCreationTimeticksOffset 8)).toInt64

theorem readAt_eq_ok {w off n : Nat} (h : readAt bytes w off = .ok n) :
    n = readLE bytes off w ∧ off + w ≤ bytes.length := by
  unfold readAt at h
  split_ifs at h with hin
  exact ⟨(Except.ok.inj h).symm, hin⟩

theorem sinceVersion_eq_ok {α : Type} {version since : Nat} {read : WireResult α} {a : Option α}
    (h : sinceVersion version since read = .ok a) :
    (a.isSome ↔ since ≤ version) ∧ ∀ b, a = some b → read = .ok b := by
  unfold sinceVersion at h
  split_ifs at h with hle
  · obtain ⟨b, hb, h⟩ := bind_eq_ok h
    obtain rfl := Except.ok.inj h
    exact ⟨⟨fun _ => hle, fun _ => rfl⟩, fun b' hb' => Option.some.inj hb' ▸ hb⟩
  · obtain rfl := Except.ok.inj h
    refine ⟨⟨fun hsome => ?_, fun hle' => absurd hle' hle⟩, fun b hb => ?_⟩
    · cases hsome
    · cases hb

/-- What the parser returns has flags that it accepts and the fields of its
version, as they stand in the message. -/
theorem parse_eq_ok (hp : parse bytes = .ok (h, size)) :
    h.FlagsOk ∧ h.Complete ∧ h.Words bytes := by
  unfold parse at hp
  split at hp
  · cases hp
  obtain ⟨numBytes, -, hp⟩ := bind_eq_ok hp
  obtain ⟨version, hversion, hp⟩ := bind_eq_ok hp
  dsimp only at hp
  split at hp
  · cases hp
  split at hp
  · cases hp
  obtain ⟨interfaceId, -, hp⟩ := bind_eq_ok hp
  obtain ⟨name, -, hp⟩ := bind_eq_ok hp
  obtain ⟨flags, -, hp⟩ := bind_eq_ok hp
  obtain ⟨traceNonce, -, hp⟩ := bind_eq_ok hp
  split at hp
  · cases hp
  rename_i hzero
  split at hp
  · cases hp
  rename_i hboth
  obtain ⟨requestId, hid, hp⟩ := bind_eq_ok hp
  obtain ⟨payload, -, hp⟩ := bind_eq_ok hp
  obtain ⟨ids, -, hp⟩ := bind_eq_ok hp
  obtain ⟨ticks, hticks, hp⟩ := bind_eq_ok hp
  obtain ⟨rfl, -⟩ := Prod.mk.inj (Except.ok.inj hp)
  obtain ⟨hidSome, hid⟩ := sinceVersion_eq_ok hid
  obtain ⟨hticksSome, hticks⟩ := sinceVersion_eq_ok hticks
  have htoNat : (UInt32.ofNat version).toNat = version := by
    apply UInt32.toNat_ofNat_of_lt'
    rw [(readAt_eq_ok hversion).1]
    apply readLE_lt
  refine ⟨⟨fun hv => ?_, hboth⟩, ⟨?_, ?_⟩, fun id hsome => ?_, fun t hsome => ?_⟩
  · -- version 0 has no request id
    by_contra hne
    refine hzero ⟨?_, hne⟩
    rw [← htoNat]
    exact congrArg UInt32.toNat hv
  · show (requestId.map UInt64.ofNat).isSome = true ↔ _
    rw [Option.isSome_map, htoNat]
    exact hidSome
  · show (ticks.map _).isSome = true ↔ _
    rw [Option.isSome_map, htoNat]
    exact hticksSome
  · obtain ⟨n, hn, rfl⟩ := Option.map_eq_some_iff.mp hsome
    rw [(readAt_eq_ok (hid n hn)).1]
  · obtain ⟨n, hn, rfl⟩ := Option.map_eq_some_iff.mp hsome
    rw [(readAt_eq_ok (hticks n hn)).1]

/-- A number that is put comes to stand at its offset. -/
theorem putOption_some {out' : List UInt8} {off n : Nat} (hn : n < 256 ^ 8)
    (hp : putOption out off (some n) = .ok out') : readLE out' off 8 = n ∧ off + 8 ≤ out.length := by
  rw [putOption] at hp
  split_ifs at hp with hin
  obtain rfl := Except.ok.inj hp
  have hlen : (putBytes out off (toLE 8 n)).length = out.length :=
    length_putBytes (by rwa [length_toLE])
  exact ⟨readLE_of_put hin (hlen.symm ▸ hin) hn (.refl _ _ _), hin⟩

theorem readLE_eq_of_sameBits {a b : List UInt8} {off : Nat} (ha : off + 8 ≤ a.length)
    (hb : off + 8 ≤ b.length) (h : SameBits (8 * off) (8 * (off + 8)) a b) :
    readLE a off 8 = readLE b off 8 := by
  rw [readLE, readLE, slice_eq_of_sameBits ha hb h]

theorem putOption_ok {off : Nat} {n : Option Nat} (h : n.isSome = true → off + 8 ≤ out.length) :
    ∃ out', putOption out off n = .ok out' := by
  cases n with
  | none => exact ⟨out, rfl⟩
  | some n => exact ⟨_, if_pos (h rfl)⟩

theorem le_requiredHeaderSize (v : Nat) :
    (1 ≤ v → 32 ≤ requiredHeaderSize v) ∧ (3 ≤ v → 56 ≤ requiredHeaderSize v) := by
  unfold requiredHeaderSize
  split
  · exact ⟨fun h => absurd h (by decide), fun h => absurd h (by decide)⟩
  · exact ⟨fun _ => by decide, fun h => absurd h (by decide)⟩
  · exact ⟨fun _ => by decide, fun h => absurd h (by decide)⟩
  · exact ⟨fun _ => by decide, fun _ => by decide⟩

/-- What a header is serialized to before the fields that it need not have. -/
def base (h : MessageHeader) : List UInt8 :=
  putNumbers 4 (List.replicate (requiredHeaderSize h.version.toNat) 0) h.numbers

theorem length_base (h : MessageHeader) : h.base.length = requiredHeaderSize h.version.toNat := by
  obtain ⟨hsize, -, -⟩ := requiredHeaderSize_bounds h.version.toNat
  rw [base, length_putNumbers fun p hp => (numbers_ok h _ (by rwa [List.length_replicate]) p hp).1,
    List.length_replicate]

theorem serialize_eq (h : MessageHeader) : h.serialize =
    putOption h.base headerRequestIdOffset (h.requestId.map UInt64.toNat) >>= fun out =>
      putOption out headerCreationTimeticksOffset
        (h.creationTimeticksUs.map fun t => t.toUInt64.toNat) :=
  rfl

/-- A complete header is serialized. -/
theorem serialize_ok (hcomplete : h.Complete) : ∃ out, h.serialize = .ok out := by
  obtain ⟨hone, hthree⟩ := le_requiredHeaderSize h.version.toNat
  obtain ⟨out₁, h₁⟩ : ∃ out₁, putOption h.base headerRequestIdOffset
      (h.requestId.map UInt64.toNat) = .ok out₁ := by
    apply putOption_ok
    rw [Option.isSome_map, length_base]
    exact fun hsome => hone (hcomplete.1.mp hsome)
  have hlen : out₁.length = requiredHeaderSize h.version.toNat :=
    (putOption_eq_ok h₁).1.trans (length_base h)
  rw [serialize_eq, h₁, ok_bind]
  apply putOption_ok
  rw [Option.isSome_map, hlen]
  exact fun hsome => hthree (hcomplete.2.mp hsome)

/-- The words of a header stand in what it is serialized to. -/
theorem serialize_words (hs : h.serialize = .ok out) : h.Words out := by
  rw [serialize_eq] at hs
  obtain ⟨out₁, h₁, h₂⟩ := bind_eq_ok hs
  obtain ⟨hlen₁, -⟩ := putOption_eq_ok h₁
  obtain ⟨hlen, hsame⟩ := putOption_eq_ok h₂
  constructor
  · -- the creation time stands behind the request id
    intro id hid
    rw [hid] at h₁
    obtain ⟨hread, hin⟩ := putOption_some id.toNat_lt h₁
    have hrequest : headerRequestIdOffset = 24 := rfl
    have hticks : headerCreationTimeticksOffset = 48 := rfl
    rw [readLE_eq_of_sameBits (b := out₁) (by omega) (by omega)
      (hsame.mono (Nat.zero_le _) (by omega)), hread, UInt64.ofNat_toNat]
  · intro t ht
    rw [ht] at h₂
    obtain ⟨hread, -⟩ := putOption_some t.toUInt64.toNat_lt h₂
    rw [hread, UInt64.ofNat_toNat, Int64.toInt64_toUInt64]

/-- A header that is parsed from where the numbers and words of a complete one
stand is this one, but for its pointers. -/
theorem parse_returns {h' : MessageHeader} (hs : h.serialize = .ok out) (hcomplete : h.Complete)
    (hp : parse bytes = .ok (h', size)) (hnum : h'.numbers = h.numbers)
    (hwords : ∀ off, off = headerRequestIdOffset ∨ off = headerCreationTimeticksOffset →
      off + 8 ≤ out.length → readLE bytes off 8 = readLE out off 8) :
    h' = { h with payload := h'.payload, payloadInterfaceIds := h'.payloadInterfaceIds } := by
  obtain ⟨-, hcomplete', hid', hticks'⟩ := parse_eq_ok hp
  obtain ⟨hid, hticks⟩ := serialize_words hs
  obtain ⟨hout, -⟩ := serialize_eq_ok hs
  obtain ⟨hone, hthree⟩ := le_requiredHeaderSize h.version.toNat
  simp only [numbers, List.cons.injEq, Prod.mk.injEq, true_and, and_true, UInt32.toNat_inj] at hnum
  obtain ⟨-, hversion, hinterface, hname, hflags, hnonce⟩ := hnum
  have hrequest : h'.requestId = h.requestId := by
    have hsome : h'.requestId.isSome ↔ h.requestId.isSome := by
      rw [hcomplete'.1, hcomplete.1, hversion]
    cases hr : h.requestId with
    | none =>
        rw [hr] at hsome
        exact Option.not_isSome_iff_eq_none.mp fun h => by cases hsome.mp h
    | some id =>
        obtain ⟨id', hr'⟩ := Option.isSome_iff_exists.mp (hsome.mpr (by rw [hr]; rfl))
        have hin := hone (hcomplete.1.mp (by rw [hr]; rfl))
        rw [hr', hid' id' hr', hid id hr, hwords _ (.inl rfl) (hout ▸ hin)]
  have htime : h'.creationTimeticksUs = h.creationTimeticksUs := by
    have hsome : h'.creationTimeticksUs.isSome ↔ h.creationTimeticksUs.isSome := by
      rw [hcomplete'.2, hcomplete.2, hversion]
    cases hr : h.creationTimeticksUs with
    | none =>
        rw [hr] at hsome
        exact Option.not_isSome_iff_eq_none.mp fun h => by cases hsome.mp h
    | some t =>
        obtain ⟨t', hr'⟩ := Option.isSome_iff_exists.mp (hsome.mpr (by rw [hr]; rfl))
        have hin := hthree (hcomplete.2.mp (by rw [hr]; rfl))
        rw [hr', hticks' t' hr', hticks t hr, hwords _ (.inr rfl) (hout ▸ hin)]
  rw [← hversion, ← hinterface, ← hname, ← hflags, ← hnonce, ← hrequest, ← htime]

end MessageHeader

/-! ### Behind a header -/

section Message

variable {h : MessageHeader} {header : List UInt8} {fields rfields : List FieldType}
  {vs : List Value} {version : UInt32} {msg : EncodedMessage}

/-- Encoding a payload leaves the words of the header in front of it. -/
theorem encodeMessage_words {m : Mode} {n handles g need : Nat} {sv : UInt32} {nullable : Bool}
    {w : Value}
    (hO : ObjectSound m n handles g need
      (aligned true (encodeStructAt fields version .null (fieldValues vs)))
      (decodeStruct rfields (fieldDecoders rfields)) w)
    (hs : h.serialize = .ok header)
    (henc : encodeMessage header (.struct fields sv nullable) (.struct version vs) = .ok msg)
    {off : Nat} (hoff : off = headerRequestIdOffset ∨ off = headerCreationTimeticksOffset)
    (hin : off + 8 ≤ header.length) : readLE msg.bytes off 8 = readLE header off 8 := by
  obtain ⟨hout, -⟩ := MessageHeader.serialize_eq_ok hs
  obtain ⟨-, -, h8⟩ := MessageHeader.requiredHeaderSize_bounds h.version.toNat
  rw [encodeMessage_eq hs] at henc
  obtain ⟨enc, hE, h₁⟩ := bind_eq_ok henc
  obtain rfl := Except.ok.inj h₁
  obtain ⟨hw, -⟩ := hO ⟨header, 0, 0⟩ enc (provided_eq_ok.mpr ⟨fun _ => hout ▸ h8, hE⟩)
  have hgrow : header.length ≤ enc.buf.length := hw.length_le
  -- the payload is behind the header, and its pointer between the words
  have hkept : SameBits (8 * off) (8 * (off + 8)) (patchPayload header enc.buf) enc.buf := by
    unfold patchPayload
    split
    · have hput := keeps_putLE (w := 8) (Pointer.encode headerPayloadOffset header.length)
        (show headerPayloadOffset + 8 ≤ enc.buf.length by
          have : messageHeaderV2Size = 48 := rfl
          have : headerPayloadOffset = 32 := rfl
          omega)
      refine hput.sameBits (by omega) ?_
      rcases hoff with rfl | rfl <;> decide
    · exact .refl _ _ _
  apply MessageHeader.readLE_eq_of_sameBits
  · show off + 8 ≤ (patchPayload header enc.buf).length
    rw [(patchPayload_spec hgrow).1]
    omega
  · exact hin
  · exact hkept.trans (hw.keeps.sameBits (by show _ ≤ 8 * header.length; omega)
      (.inr (Nat.zero_le _)))

end Message

end MojoRs.Wire
