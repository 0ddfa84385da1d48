/-
MojoRs/Wire/EncoderSoundness.lean

What the encoder writes validates.  The payload need not conform to its type:
the encoder replaces mismatched elements, raises interface versions and leaves
absent values blank, and the validator accepts the result.  It does not accept
everything: `PayloadSuits .accepted` says what the encoder lets through but the
validator refuses.

Main result: `encoder_sound`.
-/
import MojoRs.Wire.RoundTrip

namespace MojoRs.Wire

open Lib

/-- A payload that the validator does not refuse validates with the handles that
the encoder has counted. -/
theorem encoder_sound {h : MessageHeader} {header : List UInt8} {ty : Ty} {value : Value}
    {msg : EncodedMessage} (hs : h.serialize = .ok header) (hver : h.version.toNat ≤ 3)
    (hflags : h.FlagsOk) (henc : encodeMessage header ty value = .ok msg)
    (hvalue : PayloadSuits .accepted msg.handleCount ty value)
    (hsize : msg.bytes.length ≤ defaultMaxMessageSize)
    (hdepth : payloadNesting 1 ty value ≤ defaultMaxRecursionDepth) :
    ∃ r, validateMessage msg.bytes msg.handleCount ty {} = .ok r := by
  unfold PayloadSuits at hvalue
  split at hvalue
  · obtain ⟨hstruct, hfields⟩ := hvalue
    have hO := payload_object hstruct hfields
    have hlimit : defaultMaxMessageSize < sizeFieldLimit ∧ sizeFieldLimit < usizeLimit := by decide
    obtain ⟨r, hr, -, -⟩ := @validate_encoded _ _ _ _ _ _ _ _ _ _ _ _ {} _ _ _ _ _
      (hO.aligned true) (by decide) (Nat.le_trans (structHeaderSize_le _) (Nat.le_add_right _ _)) hs
      hver hflags henc
      (.inr (by omega)) hsize (by omega) hdepth
    exact ⟨r, hr⟩
  · exact absurd hvalue id

/-- A header without flags. -/
def plainHeader : MessageHeader := ⟨0, 0, 0, 0, 0, none, none, none, none⟩

/-- A header of version 0, all else zero. -/
def plainHeaderBytes : List UInt8 :=
  [24, 0, 0, 0, 0, 0, 0, 0, 0, 0, 0, 0, 0, 0, 0, 0, 0, 0, 0, 0, 0, 0, 0, 0]

/-- A payload that does not conform: an interface version that is too small, and a
missing value. -/
theorem encoder_sound_mismatch :
    let ty : Ty := .struct [⟨.interface 3, none⟩, ⟨.nullableScalar .u32, none⟩] 0 false
    let value : Value := .struct 0 [.interface 0 1]
    ∃ header msg r, plainHeader.serialize = .ok header ∧ encodeMessage header ty value = .ok msg ∧
      validateMessage msg.bytes msg.handleCount ty {} = .ok r := by
  intro ty value
  have hs : plainHeader.serialize = .ok plainHeaderBytes := rfl
  obtain ⟨msg, henc⟩ : ∃ msg, encodeMessage plainHeaderBytes ty value = .ok msg := ⟨_, rfl⟩
  have hpack : Packable (packFields [⟨.interface 3, none⟩, ⟨.nullableScalar .u32, none⟩]) :=
    pack_ok_iff.mp ⟨_, rfl⟩
  have hvalue : PayloadSuits .accepted 1 ty value := by
    refine ⟨⟨hpack, .inr (numBytesForVersion_full hpack (Nat.le_refl 0))⟩,
      ⟨fun _ => .inr (by decide), nofun⟩, fun ft hft => ?_⟩
    obtain rfl := List.mem_singleton.mp hft
    exact ⟨.inr (.inr trivial), nofun⟩
  obtain ⟨hcount, hlen⟩ := encodeMessage_size ((payload_object hvalue.1 hvalue.2).aligned true) hs henc
  have hcount' : msg.handleCount = 1 := hcount
  have hsize : msg.bytes.length ≤ defaultMaxMessageSize := by
    rw [hlen]
    decide
  obtain ⟨r, hr⟩ := encoder_sound hs (by decide) (by decide) henc (by rw [hcount']; exact hvalue)
    hsize (by decide)
  exact ⟨_, msg, r, hs, henc, hr⟩

/-- A header that expects a response and is one. -/
def bothFlags : MessageHeader := ⟨0, 0, requestIdFlags, 0, 1, some 0, none, none, none⟩

/-- The message with this header and an empty struct. -/
def bothFlagsBytes : List UInt8 :=
  [32, 0, 0, 0, 1, 0, 0, 0, 0, 0, 0, 0, 0, 0, 0, 0, 3, 0, 0, 0, 0, 0, 0, 0, 0, 0, 0, 0, 0, 0, 0, 0,
    8, 0, 0, 0, 0, 0, 0, 0]

/-- A struct whose handle the message does not carry. -/
def strayHandleBytes : List UInt8 :=
  plainHeaderBytes ++ [16, 0, 0, 0, 0, 0, 0, 0, 7, 0, 0, 0, 0, 0, 0, 0]

/-- What the encoder lets through and the validator refuses. -/
theorem encoder_unsound :
    (bothFlags.serialize = .ok (bothFlagsBytes.take 32) ∧
      encodeMessage (bothFlagsBytes.take 32) (.struct [] 0 false) (.struct 0 []) =
        .ok ⟨bothFlagsBytes, 0⟩ ∧
      validateMessage bothFlagsBytes 0 (.struct [] 0 false) {} =
        .error (.validation .messageHeaderInvalidFlags)) ∧
    plainHeader.serialize = .ok plainHeaderBytes ∧
      encodeMessage plainHeaderBytes (.struct [⟨.handle, none⟩] 0 false)
        (.struct 0 [.handle 7]) = .ok ⟨strayHandleBytes, 1⟩ ∧
      validateMessage strayHandleBytes 1 (.struct [⟨.handle, none⟩] 0 false) {} =
        .error (.validation .illegalHandle) :=
  ⟨⟨rfl, rfl, rfl⟩, rfl, rfl, rfl⟩

end MojoRs.Wire
