/-
MojoRs/Wire/RoundTrip.lean

The round trip of messages.  A payload that conforms to its type is encoded
behind any serialized header whose flags the parser accepts, and the message
validates to the same payload, whatever the limits are that it keeps.

Main result: `round_trip`.
-/
import MojoRs.Wire.Headers

namespace MojoRs.Wire

open Lib

/-- A payload suits its type: a struct whose values suit its fields. -/
def PayloadSuits (m : Mode) (n : Nat) : Ty → Value → Prop
  | .struct fields _ _, .struct version vs =>
      StructSuits m fields version vs.length ∧ SuitsFields vs m n version fields
  | _, _ => False

/-- The depth of a payload: `s = 1` for the decoder, `s = 0` for the encoder. -/
def payloadNesting (s : Nat) : Ty → Value → Nat
  | .struct fields _ _, .struct _ vs => s + nestingFields s vs fields
  | _, _ => 0

/-- The number of bytes that a payload takes. -/
def payloadSize : Ty → Value → Nat
  | .struct fields _ _, .struct _ vs => structSize fields + tallyFields (fun _ => 0) id vs fields
  | _, _ => 0

/-- A payload that suits its type matches. -/
theorem payload_object {m : Mode} {n : Nat} {fields : List FieldType} {version : UInt32}
    {vs : List Value} (hstruct : StructSuits m fields version vs.length)
    (hfields : SuitsFields vs m n version fields) :
    ObjectSound m n
      (tallyFields (fun index => if index = encodedInvalidHandleValue then 0 else 1) (fun _ => 0)
        vs fields)
      (structSize fields + tallyFields (fun _ => 0) id vs fields) (1 + nestingFields 1 vs fields)
      (encodeStructAt fields version .null (fieldValues vs))
      (decodeStruct fields (fieldDecoders fields)) (.struct version vs) := by
  have hsound := structValue_sound (fun i => ⟨(matches_all (vs.getD i .null)).1,
    fun w _ => (matches_all w).1⟩) hstruct hfields
  rwa [Nat.zero_add] at hsound

/-- An exact payload is encoded. -/
theorem encodeMessage_ok {h : MessageHeader} {header : List UInt8} {n : Nat}
    {fields : List FieldType} {sv version : UInt32} {nullable : Bool} {vs : List Value}
    (hs : h.serialize = .ok header) (hstruct : StructSuits .exact fields version vs.length)
    (hfields : SuitsFields vs .exact n version fields)
    (hdepth : nestingFields 0 vs fields ≤ maxEncodeDepth)
    (hsize : header.length + (structSize fields + tallyFields (fun _ => 0) id vs fields) <
      usizeLimit) :
    ∃ msg, encodeMessage header (.struct fields sv nullable) (.struct version vs) = .ok msg := by
  obtain ⟨hout, -⟩ := MessageHeader.serialize_eq_ok hs
  obtain ⟨-, -, h8⟩ := MessageHeader.requiredHeaderSize_bounds h.version.toNat
  obtain ⟨enc, hE, -⟩ := struct_completes (fun i => ⟨(completes_all (vs.getD i .null)).1,
    fun w _ => (completes_all w).1⟩) hstruct hfields ⟨header, 0, 0⟩ (hout ▸ h8) hsize (by
      show 0 + (0 + _) ≤ _
      omega)
  exact ⟨_, by rw [encodeMessage_eq hs, hE, ok_bind]⟩

/-- An exact payload is encoded, and validates to itself. -/
theorem payload_returns (limits : ValidationLimits) {h : MessageHeader} {header : List UInt8}
    {n : Nat} {fields : List FieldType} {sv version : UInt32} {nullable : Bool} {vs : List Value}
    (hs : h.serialize = .ok header) (hver : h.version.toNat ≤ 3) (hflags : h.FlagsOk)
    (hstruct : StructSuits .exact fields version vs.length)
    (hfields : SuitsFields vs .exact n version fields)
    (hencode : nestingFields 0 vs fields ≤ maxEncodeDepth)
    (hdepth : 1 + nestingFields 1 vs fields ≤ limits.maxRecursionDepth)
    (hsize : header.length + (structSize fields + tallyFields (fun _ => 0) id vs fields) ≤
      limits.maxMessageSize)
    (hlimit : limits.maxMessageSize < usizeLimit) :
    ∃ msg r, encodeMessage header (.struct fields sv nullable) (.struct version vs) = .ok msg ∧
      validateMessage msg.bytes n (.struct fields sv nullable) limits = .ok r ∧
      r.payload = .struct version vs := by
  obtain ⟨msg, henc⟩ := encodeMessage_ok hs hstruct hfields hencode (by omega)
  have hO := payload_object hstruct hfields
  obtain ⟨-, hlen⟩ := encodeMessage_size (hO.aligned true) hs henc
  have h8 := structHeaderSize_le
  obtain ⟨r, hr, hpayload, -⟩ := validate_encoded (hO.aligned true) (by decide)
    (Nat.le_trans (h8 _) (Nat.le_add_right _ _)) hs hver hflags henc (.inl rfl) (by omega)
    (by omega) hdepth
  exact ⟨msg, r, henc, hr, hpayload rfl⟩

/-- Every payload that conforms to its type comes back, behind every header
whose flags agree with its version. -/
theorem round_trip (limits : ValidationLimits) {h : MessageHeader} {header : List UInt8} {n : Nat}
    {ty : Ty} {value : Value} (hs : h.serialize = .ok header) (hver : h.version.toNat ≤ 3)
    (hflags : h.FlagsOk) (hvalue : PayloadSuits .exact n ty value)
    (hencode : payloadNesting 0 ty value ≤ maxEncodeDepth)
    (hdepth : payloadNesting 1 ty value ≤ limits.maxRecursionDepth)
    (hsize : header.length + payloadSize ty value ≤ limits.maxMessageSize)
    (hlimit : limits.maxMessageSize < usizeLimit) :
    ∃ msg r, encodeMessage header ty value = .ok msg ∧
      validateMessage msg.bytes n ty limits = .ok r ∧ r.payload = value := by
  unfold PayloadSuits at hvalue
  split at hvalue
  · obtain ⟨hstruct, hfields⟩ := hvalue
    simp only [payloadNesting, payloadSize, Nat.zero_add] at hencode hdepth hsize
    exact payload_returns limits hs hver hflags hstruct hfields hencode hdepth hsize hlimit
  · exact absurd hvalue id

/-- A payload with a string, an array, a union in place and a map. -/
theorem round_trip_mixed :
    let ty : Ty := .struct [⟨.bool, none⟩, ⟨.string true, none⟩,
      ⟨.array (.string false) false, none⟩, ⟨.union [.u8, .string false] false true, none⟩,
      ⟨.map .u8 .handle true, some 2⟩] 2 false
    let value : Value := .struct 2 [.bool true, .null, .array [.string "ab", .string ""],
      .union 1 (.string "c"), .map [.u8 7] [.handle 0]]
    let h : MessageHeader := ⟨1, 2, 1, 0, 3, some 9, none, none, some 4⟩
    ∃ header msg r, h.serialize = .ok header ∧ encodeMessage header ty value = .ok msg ∧
      validateMessage msg.bytes 1 ty {} = .ok r ∧ r.payload = value := by
  intro ty value h
  have hok : h.serialize.isOk = true := by decide +kernel
  obtain ⟨header, hs⟩ : ∃ header, h.serialize = .ok header := by
    cases hs : h.serialize with
    | ok header => exact ⟨header, rfl⟩
    | error e =>
        rw [hs] at hok
        exact absurd hok Bool.false_ne_true
  have hlen : header.length = 56 := (MessageHeader.serialize_eq_ok hs).1
  have hpack : Packable (packFields [⟨.bool, none⟩, ⟨.string true, none⟩,
      ⟨.array (.string false) false, none⟩, ⟨.union [.u8, .string false] false true, none⟩,
      ⟨.map .u8 .handle true, some 2⟩]) := pack_ok_iff.mp ⟨_, rfl⟩
  have hvalue : PayloadSuits .exact 1 ty value := by
    have hnul : NulFree "ab" ∧ NulFree "" ∧ NulFree "c" := by
      unfold NulFree
      decide
    exact ⟨⟨hpack, by decide, rfl, by decide⟩, trivial, rfl,
      ⟨fun _ => by decide, ⟨fun _ => hnul.1, fun _ => by decide⟩,
        ⟨fun _ => hnul.2.1, fun _ => by decide⟩, trivial⟩,
      ⟨by decide, fun _ => hnul.2.2, fun _ => by decide⟩,
      ⟨fun _ => by decide, rfl, ⟨⟨rfl, fun _ => trivial⟩, trivial⟩,
        ⟨fun _ => .inr (by decide), trivial⟩⟩, fun _ hft => nomatch hft⟩
  have hsize : header.length + payloadSize ty value ≤ defaultMaxMessageSize := by
    rw [hlen]
    decide
  obtain ⟨msg, r, henc, hr, hpayload⟩ := round_trip {} hs (by decide) (by decide) hvalue (by decide)
    (by decide) hsize (by decide)
  exact ⟨header, msg, r, hs, henc, hr, hpayload⟩

/-- A header of version 0 that expects a response. -/
def requestV0 : MessageHeader :=
  ⟨0, 0, messageFlagExpectsResponse, 0, 0, none, none, none, none⟩

/-- The empty struct behind it. -/
def requestV0Bytes : List UInt8 :=
  [24, 0, 0, 0, 0, 0, 0, 0, 0, 0, 0, 0, 0, 0, 0, 0, 1, 0, 0, 0, 0, 0, 0, 0, 8, 0, 0, 0, 0, 0, 0, 0]

/-- Such a header is serialized, but no message behind it validates: here for
the empty struct. -/
theorem round_trip_flags :
    PayloadSuits .exact 0 (.struct [] 0 false) (.struct 0 []) ∧
      payloadNesting 1 (.struct [] 0 false) (.struct 0 []) = 1 ∧
      requestV0.serialize = .ok (requestV0Bytes.take 24) ∧
      encodeMessage (requestV0Bytes.take 24) (.struct [] 0 false) (.struct 0 []) =
        .ok ⟨requestV0Bytes, 0⟩ ∧
      validateMessage requestV0Bytes 0 (.struct [] 0 false) {} =
        .error (.validation .messageHeaderMissingRequestId) := by
  have hpack : Packable (packFields []) := pack_ok_iff.mp ⟨_, rfl⟩
  have hparse : MessageHeader.parse requestV0Bytes =
      .error (.validation .messageHeaderMissingRequestId) := rfl
  refine ⟨⟨⟨hpack, Nat.le_refl 0, rfl, by decide⟩, fun _ hft => nomatch hft⟩, rfl, rfl, rfl, ?_⟩
  rw [validateMessage, if_neg (by decide), if_neg (by decide), hparse]
  rfl

end MojoRs.Wire
