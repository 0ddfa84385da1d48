/-
MojoRs/Wire/Headers.lean

Headers inside messages.  A serialized header is read back from every message
that begins with it, whatever stands in its payload pointer, as long as the
flags agree with the version; and a payload that matches behind such a header
validates.

Main results:
* `parse_message` — a message that begins with a serialized header parses;
* `validate_encoded` — a struct that matches at the end of a header validates.
-/
import MojoRs.Wire.Message
import MojoRs.Wire.Progress

namespace MojoRs.Wire

open Lib

namespace MessageHeader

/-- The flags that the parser accepts: a header of version 0 has no request
id, and no message both expects a response and is one. -/
def FlagsOk (h : MessageHeader) : Prop :=
  (h.version = 0 → h.flags &&& requestIdFlags = 0) ∧ h.flags &&& requestIdFlags ≠ requestIdFlags

instance (h : MessageHeader) : Decidable h.FlagsOk := by
  unfold FlagsOk
  infer_instance

/-- The numbers of a header and their offsets. -/
def numbers (h : MessageHeader) : List (Nat × Nat) :=
  [(0, requiredHeaderSize h.version.toNat), (4, h.version.toNat),
    (headerInterfaceIdOffset, h.interfaceId.toNat), (headerNameOffset, h.name.toNat),
    (headerFlagsOffset, h.flags.toNat), (headerTraceNonceOffset, h.traceNonce.toNat)]

theorem requiredHeaderSize_bounds (v : Nat) :
    24 ≤ requiredHeaderSize v ∧ requiredHeaderSize v ≤ 56 ∧ 8 ∣ requiredHeaderSize v := by
  unfold requiredHeaderSize
  split <;> decide

theorem numbers_ok (h : MessageHeader) (buf : List UInt8) (hlen : 24 ≤ buf.length) :
    ∀ p ∈ h.numbers, p.1 + 4 ≤ buf.length ∧ p.2 < 256 ^ 4 := by
  obtain ⟨-, hsize, -⟩ := requiredHeaderSize_bounds h.version.toNat
  have hlt : requiredHeaderSize h.version.toNat < 256 ^ 4 := Nat.lt_of_le_of_lt hsize (by decide)
  simp only [numbers, List.forall_mem_cons]
  refine ⟨⟨?_, hlt⟩, ⟨?_, UInt32.toNat_lt _⟩, ⟨?_, UInt32.toNat_lt _⟩, ⟨?_, UInt32.toNat_lt _⟩,
    ⟨?_, UInt32.toNat_lt _⟩, ⟨?_, UInt32.toNat_lt _⟩, List.forall_mem_nil _⟩
  all_goals
    refine Nat.le_trans ?_ hlen
    decide

theorem numbers_pairwise (h : MessageHeader) :
    h.numbers.Pairwise fun p q => p.1 + 4 ≤ q.1 ∨ q.1 + 4 ≤ p.1 := by
  have hoffsets : (h.numbers.map (·.1)).Pairwise fun a b => a + 4 ≤ b ∨ b + 4 ≤ a := by
    show [0, 4, 8, 12, 16, 20].Pairwise _
    decide
  exact List.pairwise_map.mp hoffsets

theorem putOption_eq_ok {out out' : List UInt8} {off : Nat} {n : Option Nat}
    (h : putOption out off n = .ok out') :
    out'.length = out.length ∧ SameBits 0 (8 * min off out.length) out' out := by
  cases n with
  | none =>
      obtain rfl := Except.ok.inj h
      exact ⟨rfl, SameBits.refl _ _ _⟩
  | some n =>
      rw [putOption] at h
      split at h
      · rename_i hin
        obtain rfl := Except.ok.inj h
        have hlen : off + (toLE 8 n).length ≤ out.length := by rwa [length_toLE]
        exact ⟨length_putBytes hlen, (keeps_putLE n hin).sameBits (by omega) (.inl (by omega))⟩
      · exact nomatch h

/-- A serialized header has the size of its version and holds its numbers. -/
theorem serialize_eq_ok {h : MessageHeader} {out : List UInt8} (hs : h.serialize = .ok out) :
    out.length = requiredHeaderSize h.version.toNat ∧
      SameBits 0 (8 * 24) out
        (putNumbers 4 (List.replicate (requiredHeaderSize h.version.toNat) 0) h.numbers) := by
  obtain ⟨out₁, h₁, h₂⟩ := bind_eq_ok hs
  obtain ⟨hsize, -, -⟩ := requiredHeaderSize_bounds h.version.toNat
  have hlen : (putNumbers 4 (List.replicate (requiredHeaderSize h.version.toNat) 0)
      h.numbers).length = requiredHeaderSize h.version.toNat := by
    rw [length_putNumbers fun p hp => (numbers_ok h _ (by rwa [List.length_replicate]) p hp).1,
      List.length_replicate]
  have h₁' : putOption (putNumbers 4 (List.replicate (requiredHeaderSize h.version.toNat) 0)
      h.numbers) headerRequestIdOffset (h.requestId.map UInt64.toNat) = .ok out₁ := h₁
  obtain ⟨hlen₁, hs₁⟩ := putOption_eq_ok h₁'
  obtain ⟨hlen₂, hs₂⟩ := putOption_eq_ok h₂
  have hrequest : headerRequestIdOffset = 24 := rfl
  have hticks : headerCreationTimeticksOffset = 48 := rfl
  exact ⟨by omega, (hs₂.mono (Nat.le_refl _) (by omega)).trans
    (hs₁.mono (Nat.le_refl _) (by omega))⟩

/-- A number of a header, read in a message that begins with it. -/
theorem read_number {h : MessageHeader} {out bytes : List UInt8} (hs : h.serialize = .ok out)
    (hlen : out.length ≤ bytes.length) (hbytes : SameBits 0 (8 * 24) bytes out) {p : Nat × Nat}
    (hp : p ∈ h.numbers) : readAt bytes 4 p.1 = .ok p.2 := by
  obtain ⟨hout, hsame⟩ := serialize_eq_ok hs
  obtain ⟨hsize, -, -⟩ := requiredHeaderSize_bounds h.version.toNat
  have hnum := numbers_ok h (List.replicate (requiredHeaderSize h.version.toNat) 0)
    (by rwa [List.length_replicate])
  have hin := (numbers_ok h (List.replicate 24 0) (by decide) p hp).1
  rw [List.length_replicate] at hin
  rw [readAt, if_pos (by omega)]
  exact congrArg _ (readLE_putNumbers hnum (numbers_pairwise h) hp (by omega)
    ((hbytes.trans hsame).mono (Nat.zero_le _) (by omega)))

theorem sinceVersion_ok {α : Type} (version since : Nat) (read : WireResult α)
    (h : since ≤ version → ∃ a, read = .ok a) : ∃ r, sinceVersion version since read = .ok r := by
  by_cases hle : since ≤ version
  · obtain ⟨a, ha⟩ := h hle
    exact ⟨some a, by rw [sinceVersion, if_pos hle, ha]; rfl⟩
  · exact ⟨none, if_neg hle⟩

theorem readAt_ok {bytes : List UInt8} {w off : Nat} (h : off + w ≤ bytes.length) :
    readAt bytes w off = .ok (readLE bytes off w) := if_pos h

theorem requiredHeaderSize_ge {v : Nat} (hv : v ≤ 3) :
    (1 ≤ v → 32 ≤ requiredHeaderSize v) ∧ (2 ≤ v → 48 ≤ requiredHeaderSize v) ∧
      (3 ≤ v → 56 ≤ requiredHeaderSize v) := by
  have h : ∀ v ≤ 3, (1 ≤ v → 32 ≤ requiredHeaderSize v) ∧ (2 ≤ v → 48 ≤ requiredHeaderSize v) ∧
      (3 ≤ v → 56 ≤ requiredHeaderSize v) := by decide
  exact h v hv

/-- A message that begins with a serialized header parses, and its numbers
come back. -/
theorem parse_message {h : MessageHeader} {out bytes : List UInt8} (hs : h.serialize = .ok out)
    (hver : h.version.toNat ≤ 3) (hflags : h.FlagsOk) (hlen : out.length ≤ bytes.length)
    (hbytes : SameBits 0 (8 * 24) bytes out)
    (hptr : 2 ≤ h.version.toNat → ∃ p, readPayloadPointer bytes = .ok p) :
    ∃ header, parse bytes = .ok (header, out.length) ∧ header.numbers = h.numbers := by
  obtain ⟨hout, -⟩ := serialize_eq_ok hs
  obtain ⟨hsize, -, -⟩ := requiredHeaderSize_bounds h.version.toNat
  obtain ⟨hone, htwo, hthree⟩ := requiredHeaderSize_ge hver
  have hread : ∀ p ∈ h.numbers, readAt bytes 4 p.1 = .ok p.2 :=
    fun p hp => read_number hs hlen hbytes hp
  simp only [numbers, List.forall_mem_cons] at hread
  obtain ⟨hr₀, hr₁, hr₂, hr₃, hr₄, hr₅, -⟩ := hread
  obtain ⟨requestId, hid⟩ := sinceVersion_ok h.version.toNat 1
    (readAt bytes 8 headerRequestIdOffset) fun hv => ⟨_, readAt_ok (by
      show 24 + 8 ≤ _
      have := hone hv
      omega)⟩
  obtain ⟨payload, hpayload⟩ := sinceVersion_ok h.version.toNat 2 (readPayloadPointer bytes) hptr
  have hids : ∀ hv : 2 ≤ h.version.toNat, ∃ a, (readAt bytes 8 headerPayloadInterfaceIdsOffset >>=
      fun raw => .ok (Pointer.decode headerPayloadInterfaceIdsOffset raw)) = .ok a := by
    intro hv
    rw [readAt_ok (by
      show 40 + 8 ≤ _
      have := htwo hv
      omega), ok_bind]
    exact ⟨_, rfl⟩
  obtain ⟨ids, hids⟩ := sinceVersion_ok h.version.toNat 2 _ hids
  obtain ⟨ticks, hticks⟩ := sinceVersion_ok h.version.toNat 3
    (readAt bytes 8 headerCreationTimeticksOffset) fun hv => ⟨_, readAt_ok (by
      show 48 + 8 ≤ _
      have := hthree hv
      omega)⟩
  have hzero : ¬(h.version.toNat = 0 ∧ h.flags &&& requestIdFlags ≠ 0) := fun ⟨hv, hne⟩ =>
    hne (hflags.1 (UInt32.toNat_inj.mp hv))
  refine ⟨{ h with
    requestId := requestId.map UInt64.ofNat
    payload := payload
    payloadInterfaceIds := ids
    creationTimeticksUs := ticks.map fun n => (UInt64.ofNat n).toInt64 }, ?_, rfl⟩
  rw [parse, if_neg (by
    show ¬bytes.length < 24
    omega), hr₀, ok_bind, hr₁, ok_bind]
  dsimp only
  rw [if_neg fun hand => hand.2 rfl, if_neg fun hand => Nat.not_lt.mpr hver hand.1, hr₂, ok_bind,
    hr₃, ok_bind, hr₄, ok_bind, hr₅, ok_bind, UInt32.ofNat_toNat, if_neg hzero, if_neg hflags.2,
    hid, ok_bind, hpayload, ok_bind, hids, ok_bind, hticks, ok_bind, if_pos hver, ← hout]
  simp only [UInt32.ofNat_toNat]

end MessageHeader

/-! ### Whole messages -/

section Message

variable {h : MessageHeader} {header : List UInt8} {fields rfields : List FieldType}
  {vs : List Value} {version : UInt32} {msg : EncodedMessage}

theorem alignUp_header (hs : h.serialize = .ok header) :
    alignUp header.length = .ok header.length := by
  obtain ⟨hout, -⟩ := MessageHeader.serialize_eq_ok hs
  obtain ⟨-, hsize, h8⟩ := MessageHeader.requiredHeaderSize_bounds h.version.toNat
  rw [← hout] at hsize h8
  rw [alignUp_ok (Nat.lt_of_le_of_lt (Nat.add_le_add_right hsize 7) (by decide))]
  exact congrArg _ (by omega)

/-- Point a header of version 2 or later to the payload behind it. -/
def patchPayload (header bytes : List UInt8) : List UInt8 :=
  if header.length ≥ messageHeaderV2Size then
    putBytes bytes headerPayloadOffset (toLE 8 (Pointer.encode headerPayloadOffset header.length))
  else bytes

/-- Encoding a message comes down to encoding its struct behind the header. -/
theorem encodeMessage_eq (hs : h.serialize = .ok header) {sv : UInt32} {nullable : Bool} :
    encodeMessage header (.struct fields sv nullable) (.struct version vs) =
      encodeStructAt fields version .null (fieldValues vs) header.length ⟨header, 0, 0⟩ >>=
        fun enc => .ok ⟨patchPayload header enc.buf, enc.handles⟩ := by
  rw [encodeMessage, alignUp_header hs, ok_bind, growTo_of_le (Nat.le_refl _)]
  rfl

/-- The payload pointer does not touch what stands behind the header. -/
theorem patchPayload_spec {buf : List UInt8} (hlen : header.length ≤ buf.length) :
    (patchPayload header buf).length = buf.length ∧
      SameBits 0 (8 * 24) (patchPayload header buf) buf ∧
      SameBits (8 * header.length) (8 * buf.length) (patchPayload header buf) buf ∧
      (messageHeaderV2Size ≤ header.length → header.length < usizeLimit →
        ∃ p, readPayloadPointer (patchPayload header buf) = .ok p) := by
  have hoff : headerPayloadOffset = 32 := rfl
  have hv2 : messageHeaderV2Size = 48 := rfl
  unfold patchPayload
  split
  · rename_i hge
    have hin : headerPayloadOffset + 8 ≤ buf.length := by omega
    have hput : (putBytes buf headerPayloadOffset
        (toLE 8 (Pointer.encode headerPayloadOffset header.length))).length = buf.length :=
      length_putBytes (by rwa [length_toLE])
    have hkeep := keeps_putLE (Pointer.encode headerPayloadOffset header.length) hin
    refine ⟨hput, hkeep.sameBits (by omega) (.inl (by omega)),
      hkeep.sameBits (Nat.le_refl _) (.inr (by omega)), fun _ hlt => ?_⟩
    have hread := readLE_of_put hin (hput.symm ▸ hin) (Pointer.encode_lt headerPayloadOffset _)
      (SameBits.refl _ _ _)
    refine ⟨.offset header.length, ?_⟩
    rw [readPayloadPointer, readAt, if_pos (hput.symm ▸ hin), hread, ok_bind,
      Pointer.decode_encode (by decide) hlt (by omega)]
  · rename_i hlt
    exact ⟨rfl, SameBits.refl _ _ _, SameBits.refl _ _ _, fun hge => absurd hge hlt⟩

/-- A struct that matches behind a serialized header validates. -/
theorem validate_encoded {m : Mode} {n handles g need : Nat} {limits : ValidationLimits}
    {sv rsv : UInt32} {nullable rnullable : Bool} {w : Value}
    (hO : ObjectSound m n handles g need
      (aligned true (encodeStructAt fields version .null (fieldValues vs)))
      (decodeStruct rfields (fieldDecoders rfields)) w)
    (hm : m ≠ .skipped) (hg : 8 ≤ g) (hs : h.serialize = .ok header) (hver : h.version.toNat ≤ 3)
    (hflags : h.FlagsOk)
    (henc : encodeMessage header (.struct fields sv nullable) (.struct version vs) = .ok msg)
    (hfit : SizesFit m msg.bytes) (hmax : msg.bytes.length ≤ limits.maxMessageSize)
    (haddr : msg.bytes.length < usizeLimit) (hdepth : need ≤ limits.maxRecursionDepth) :
    ∃ r, validateMessage msg.bytes n (.struct rfields rsv rnullable) limits = .ok r ∧
      (m = .exact → r.payload = w) ∧ r.header.numbers = h.numbers := by
  obtain ⟨hout, -⟩ := MessageHeader.serialize_eq_ok hs
  obtain ⟨hlow, hhigh, h8⟩ := MessageHeader.requiredHeaderSize_bounds h.version.toNat
  rw [encodeMessage_eq hs] at henc
  obtain ⟨enc, hE, h₁⟩ := bind_eq_ok henc
  obtain rfl := Except.ok.inj h₁
  obtain ⟨hw, hrec⟩ := hO ⟨header, 0, 0⟩ enc (provided_eq_ok.mpr ⟨fun _ => hout ▸ h8, hE⟩)
  have hgrow : header.length ≤ enc.buf.length := hw.length_le
  have hlen : enc.buf.length = header.length + g := (hw.length (hout ▸ h8)).1
  obtain ⟨hplen, hpfirst, hpregion, hpptr⟩ := patchPayload_spec hgrow
  dsimp only at hfit hmax haddr ⊢
  -- the header
  have hhead : SameBits 0 (8 * 24) (patchPayload header enc.buf) header :=
    hpfirst.trans (hw.keeps.sameBits (by show _ ≤ 8 * header.length; omega)
      (.inr (Nat.zero_le _)))
  obtain ⟨hd, hparse, hnum⟩ := MessageHeader.parse_message hs hver hflags (by omega) hhead
    fun htwo => hpptr (by
      have := (MessageHeader.requiredHeaderSize_ge hver).2.1 htwo
      show 48 ≤ _
      omega) (by omega)
  -- the payload
  have hfit' : SizesFit m enc.buf := hfit.imp_right fun hlt => hplen ▸ hlt
  obtain ⟨a, hav, hreads⟩ := hrec hm hfit'
  obtain ⟨f, -, hD⟩ := hreads (Decoder.new (patchPayload header enc.buf) n
    limits.maxRecursionDepth) ⟨fun p _ hp => absurd hp (Nat.not_lt_zero p), hpregion, hplen.ge,
      haddr, rfl, Nat.zero_le _, (Nat.zero_add need).symm ▸ hdepth⟩
  refine ⟨⟨hd, a, header.length⟩, ?_, hav, hnum⟩
  rw [validateMessage, if_neg (by show ¬_ < 24; omega), if_neg (by omega), hparse, ok_bind]
  dsimp only
  rw [alignUp_header hs, ok_bind, if_neg (by omega), hD]
  rfl

/-- The handles and the length of a message. -/
theorem encodeMessage_size {m : Mode} {n handles g need : Nat} {sv : UInt32} {nullable : Bool}
    {w : Value}
    (hO : ObjectSound m n handles g need
      (aligned true (encodeStructAt fields version .null (fieldValues vs)))
      (decodeStruct rfields (fieldDecoders rfields)) w)
    (hs : h.serialize = .ok header)
    (henc : encodeMessage header (.struct fields sv nullable) (.struct version vs) = .ok msg) :
    msg.handleCount = handles ∧ msg.bytes.length = header.length + g := by
  obtain ⟨hout, -⟩ := MessageHeader.serialize_eq_ok hs
  obtain ⟨-, -, h8⟩ := MessageHeader.requiredHeaderSize_bounds h.version.toNat
  rw [encodeMessage_eq hs] at henc
  obtain ⟨enc, hE, h₁⟩ := bind_eq_ok henc
  obtain rfl := Except.ok.inj h₁
  obtain ⟨hw, -⟩ := hO ⟨header, 0, 0⟩ enc (provided_eq_ok.mpr ⟨fun _ => hout ▸ h8, hE⟩)
  refine ⟨hw.handles.trans (Nat.zero_add _), ?_⟩
  exact (patchPayload_spec hw.length_le).1.trans (hw.length (hout ▸ h8)).1

end Message

end MojoRs.Wire
