/-
MojoRs/Wire/HeaderBounds.lean

The header of any message.  The parser reads the fields of the version that the
header declares; that the message is as long as the header says is not tested,
only that it has the 24 bytes of version 0 (`header_in_bounds_iff`).  And the
payload is decoded behind the header of a known version, whatever the payload
pointer and the size of the header are (`payload_at_pointer_iff`).

Main results: `header_in_bounds_iff`, `payload_at_pointer_iff`.
-/
import MojoRs.Wire.PointerAlignment

namespace MojoRs.Wire

open Lib MessageHeader

variable {α β : Type}

/-! ### Headers that are refused -/

/-- The size and version that a header declares, and what it says of requests. -/
def headerNumBytes (bytes : List UInt8) : Nat := readLE bytes 0 4

/-- The version word of a header. -/
def headerVersion (bytes : List UInt8) : Nat := readLE bytes 4 4

/-- The flags that ask for a request id. -/
def headerRequests (bytes : List UInt8) : UInt32 :=
  UInt32.ofNat (readLE bytes headerFlagsOffset 4) &&& requestIdFlags

/-- A header with fields to read: its size and its flags are not refused. -/
structure HeaderRead (bytes : List UInt8) : Prop where
  long : minMessageSize ≤ bytes.length
  known : headerVersion bytes ≤ 3 → headerNumBytes bytes = requiredHeaderSize (headerVersion bytes)
  future : headerVersion bytes > 3 → requiredHeaderSize (headerVersion bytes) ≤ headerNumBytes bytes
  requestId : headerVersion bytes = 0 → headerRequests bytes = 0
  flags : headerRequests bytes ≠ requestIdFlags

/-- Where the last field ends that is read of a header: a null payload pointer
is refused before those behind it. -/
def headerFieldsEnd (bytes : List UInt8) : Nat :=
  if headerVersion bytes = 0 then messageHeaderV0Size
  else if headerVersion bytes = 1 then messageHeaderV1Size
  else if readLE bytes headerPayloadOffset 8 = 0 then headerPayloadOffset + 8
  else requiredHeaderSize (headerVersion bytes)

/-- A message that holds the fields of its header, if they are read. -/
def HeaderInBounds (bytes : List UInt8) : Prop :=
  HeaderRead bytes → headerFieldsEnd bytes ≤ bytes.length

/-- A header that is parsed, if it is in the message. -/
def HeaderAccepted (bytes : List UInt8) : Prop :=
  HeaderRead bytes ∧ (2 ≤ headerVersion bytes → readLE bytes headerPayloadOffset 8 ≠ 0)

/-! ### The parser -/

theorem requiredHeaderSize_three {v : Nat} (h : 3 ≤ v) :
    requiredHeaderSize v = messageHeaderV3Size := by
  unfold requiredHeaderSize
  split <;> omega

theorem requiredHeaderSize_two {v : Nat} (h : 2 ≤ v) : 48 ≤ requiredHeaderSize v := by
  rcases Nat.lt_or_ge v 3 with hlt | hge
  · obtain rfl : v = 2 := by omega
    decide
  · rw [requiredHeaderSize_three hge]
    decide

theorem readAt_error {bytes : List UInt8} {w off : Nat} (h : bytes.length < off + w) :
    readAt bytes w off = .error .outOfRange := if_neg (Nat.not_le.mpr h)

theorem sinceVersion_present {version since : Nat} {read : WireResult α} (h : since ≤ version) :
    sinceVersion version since read = read >>= fun a => .ok (some a) := if_pos h

theorem sinceVersion_absent {version since : Nat} {read : WireResult α} (h : version < since) :
    sinceVersion version since read = .ok none := if_neg (Nat.not_le.mpr h)

/-- The payload pointer is read, refused, or out of range. -/
theorem readPayloadPointer_cases (bytes : List UInt8) :
    bytes.length < headerPayloadOffset + 8 ∧ readPayloadPointer bytes = .error .outOfRange ∨
      headerPayloadOffset + 8 ≤ bytes.length ∧
        (readLE bytes headerPayloadOffset 8 = 0 ∧
            readPayloadPointer bytes = .error unexpectedNullPointer ∨
          readLE bytes headerPayloadOffset 8 ≠ 0 ∧ readPayloadPointer bytes =
            .ok (.decode headerPayloadOffset (readLE bytes headerPayloadOffset 8))) := by
  unfold readPayloadPointer
  rcases Nat.lt_or_ge bytes.length (headerPayloadOffset + 8) with hlen | hlen
  · rw [readAt_error hlen]
    exact .inl ⟨hlen, rfl⟩
  · rw [readAt_ok hlen, ok_bind]
    refine .inr ⟨hlen, ?_⟩
    by_cases hraw : readLE bytes headerPayloadOffset 8 = 0
    · refine .inl ⟨hraw, ?_⟩
      rw [hraw]
      rfl
    · refine .inr ⟨hraw, ?_⟩
      rw [Pointer.decode, if_neg hraw]

namespace MessageHeader

/-- What the parser reads behind the first 24 bytes. -/
def fields (bytes : List UInt8) (version : Nat) :
    WireResult (Option Nat × Option Pointer × Option Pointer × Option Nat) := do
  let requestId ← sinceVersion version 1 (readAt bytes 8 headerRequestIdOffset)
  let payload ← sinceVersion version 2 (readPayloadPointer bytes)
  let payloadInterfaceIds ← sinceVersion version 2 do
    let raw ← readAt bytes 8 headerPayloadInterfaceIdsOffset
    .ok (Pointer.decode headerPayloadInterfaceIdsOffset raw)
  let timeticks ← sinceVersion version 3 (readAt bytes 8 headerCreationTimeticksOffset)
  .ok (requestId, payload, payloadInterfaceIds, timeticks)

/-- The payload pointer of a version that has one. -/
def payloadPointer (bytes : List UInt8) (version : Nat) : Option Pointer :=
  if 2 ≤ version then some (.decode headerPayloadOffset (readLE bytes headerPayloadOffset 8))
  else none

/-- The fields are read, or out of range; behind a null payload pointer, nothing
is read. -/
theorem fields_cases {bytes : List UInt8} (hlen : 24 ≤ bytes.length) :
    bytes.length < headerFieldsEnd bytes ∧
        fields bytes (headerVersion bytes) = .error .outOfRange ∨
      headerFieldsEnd bytes ≤ bytes.length ∧
        ((2 ≤ headerVersion bytes ∧ readLE bytes headerPayloadOffset 8 = 0 ∧
            fields bytes (headerVersion bytes) = .error unexpectedNullPointer) ∨
          (2 ≤ headerVersion bytes → readLE bytes headerPayloadOffset 8 ≠ 0) ∧
            ∃ x, fields bytes (headerVersion bytes) = .ok x ∧
              x.2.1 = payloadPointer bytes (headerVersion bytes)) := by
  unfold fields headerFieldsEnd payloadPointer
  generalize headerVersion bytes = version
  have hpayload : headerPayloadOffset + 8 = 40 := rfl
  rcases Nat.eq_zero_or_pos version with rfl | hone
  · rw [sinceVersion_absent (by decide), sinceVersion_absent (by decide),
      sinceVersion_absent (by decide), sinceVersion_absent (by decide)]
    exact .inr ⟨hlen, .inr ⟨fun h => absurd h (by decide), _, rfl, rfl⟩⟩
  rw [if_neg (Nat.ne_of_gt hone), sinceVersion_present hone]
  -- the request id
  rcases Nat.lt_or_ge bytes.length 32 with hshort | h32
  · rw [readAt_error hshort]
    refine .inl ⟨?_, rfl⟩
    split_ifs with h₁ h₂
    · exact hshort
    · omega
    · have := requiredHeaderSize_two (show 2 ≤ version by omega)
      omega
  rw [readAt_ok h32]
  rcases Nat.lt_or_ge version 2 with hlt | htwo
  · obtain rfl : version = 1 := by omega
    rw [sinceVersion_absent (by decide), sinceVersion_absent (by decide),
      sinceVersion_absent (by decide), if_pos rfl]
    exact .inr ⟨h32, .inr ⟨fun h => absurd h (by decide), _, rfl, rfl⟩⟩
  rw [if_neg (by omega), sinceVersion_present htwo, sinceVersion_present htwo, if_pos htwo]
  have hsize := requiredHeaderSize_two htwo
  -- the payload pointer
  rcases readPayloadPointer_cases bytes with ⟨hshort, hread⟩ | ⟨h40, ⟨hraw, hread⟩ | ⟨hraw, hread⟩⟩
  · rw [hread]
    refine .inl ⟨?_, rfl⟩
    split_ifs
    · exact hshort
    · omega
  · rw [hread, if_pos hraw]
    exact .inr ⟨h40, .inl ⟨htwo, hraw, rfl⟩⟩
  rw [hread, if_neg hraw]
  have hids : headerPayloadInterfaceIdsOffset + 8 = 48 := rfl
  rcases Nat.lt_or_ge bytes.length 48 with hshort | h48
  · rw [readAt_error (hids ▸ hshort)]
    exact .inl ⟨Nat.lt_of_lt_of_le hshort hsize, rfl⟩
  rw [readAt_ok (hids ▸ h48)]
  have hticks : headerCreationTimeticksOffset + 8 = 56 := rfl
  rcases Nat.lt_or_ge version 3 with hlt | hthree
  · obtain rfl : version = 2 := by omega
    rw [sinceVersion_absent (by decide)]
    exact .inr ⟨h48, .inr ⟨fun _ => hraw, _, rfl, rfl⟩⟩
  rw [sinceVersion_present hthree, requiredHeaderSize_three hthree]
  rcases Nat.lt_or_ge bytes.length 56 with hshort | h56
  · rw [readAt_error (hticks ▸ hshort)]
    exact .inl ⟨hshort, rfl⟩
  · rw [readAt_ok (hticks ▸ h56)]
    exact .inr ⟨h56, .inr ⟨fun _ => hraw, _, rfl, rfl⟩⟩

/-- The header of the fields that were read. -/
def ofFields (bytes : List UInt8)
    (x : Option Nat × Option Pointer × Option Pointer × Option Nat) : MessageHeader where
  interfaceId := UInt32.ofNat (readLE bytes headerInterfaceIdOffset 4)
  name := UInt32.ofNat (readLE bytes headerNameOffset 4)
  flags := UInt32.ofNat (readLE bytes headerFlagsOffset 4)
  traceNonce := UInt32.ofNat (readLE bytes headerTraceNonceOffset 4)
  version := UInt32.ofNat (headerVersion bytes)
  requestId := x.1.map UInt64.ofNat
  payload := x.2.1
  payloadInterfaceIds := x.2.2.1
  creationTimeticksUs := x.2.2.2.map fun n => (UInt64.ofNat n).toInt64

/-- A header that is not refused is made of its fields. -/
theorem parse_of_read {bytes : List UInt8} (h : HeaderRead bytes) :
    parse bytes = fields bytes (headerVersion bytes) >>= fun x =>
      .ok (ofFields bytes x, requiredHeaderSize (headerVersion bytes)) := by
  obtain ⟨hlong, hknown, hfuture, hrequest, hflags⟩ := h
  have hlen : 24 ≤ bytes.length := hlong
  have hread {off : Nat} (hoff : off + 4 ≤ 24) : readAt bytes 4 off = .ok (readLE bytes off 4) :=
    readAt_ok (Nat.le_trans hoff hlen)
  have hflags' : ¬ UInt32.ofNat (readLE bytes headerFlagsOffset 4) &&& requestIdFlags =
      requestIdFlags := hflags
  have hsize : (if headerVersion bytes ≤ 3 then requiredHeaderSize (headerVersion bytes)
      else messageHeaderV3Size) = requiredHeaderSize (headerVersion bytes) := by
    split_ifs with hv
    · rfl
    · exact (requiredHeaderSize_three (by omega)).symm
  unfold parse fields
  rw [if_neg (Nat.not_lt.mpr hlong), hread (by decide), ok_bind, hread (by decide), ok_bind]
  dsimp only
  rw [if_neg fun h => h.2 (hknown h.1), if_neg fun h => Nat.not_lt.mpr (hfuture h.1) h.2,
    hread (by decide), ok_bind, hread (by decide), ok_bind, hread (by decide), ok_bind,
    hread (by decide), ok_bind, if_neg fun h => h.2 (hrequest h.1), if_neg hflags']
  simp only [bind_assoc, ok_bind]
  rw [← hsize]
  rfl

/-- A header that is refused is refused within the message. -/
theorem parse_of_refused {bytes : List UInt8} (h : ¬ HeaderRead bytes) :
    ∃ e, parse bytes = .error e ∧ e ≠ .outOfRange := by
  unfold parse
  by_cases hlong : bytes.length < minMessageSize
  · rw [if_pos hlong]
    exact ⟨_, rfl, nofun⟩
  rw [if_neg hlong]
  have hlen : 24 ≤ bytes.length := Nat.le_of_not_lt hlong
  have hread {off : Nat} (hoff : off + 4 ≤ 24) : readAt bytes 4 off = .ok (readLE bytes off 4) :=
    readAt_ok (Nat.le_trans hoff hlen)
  rw [hread (by decide), ok_bind, hread (by decide), ok_bind]
  dsimp only
  by_cases hknown : readLE bytes 4 4 ≤ 3 ∧ readLE bytes 0 4 ≠ requiredHeaderSize (readLE bytes 4 4)
  · rw [if_pos hknown]
    exact ⟨_, rfl, nofun⟩
  rw [if_neg hknown]
  by_cases hfuture : readLE bytes 4 4 > 3 ∧ readLE bytes 0 4 < requiredHeaderSize (readLE bytes 4 4)
  · rw [if_pos hfuture]
    exact ⟨_, rfl, nofun⟩
  rw [if_neg hfuture, hread (by decide), ok_bind, hread (by decide), ok_bind, hread (by decide),
    ok_bind, hread (by decide), ok_bind]
  by_cases hrequest : readLE bytes 4 4 = 0 ∧
      UInt32.ofNat (readLE bytes headerFlagsOffset 4) &&& requestIdFlags ≠ 0
  · rw [if_pos hrequest]
    exact ⟨_, rfl, nofun⟩
  rw [if_neg hrequest]
  by_cases hflags : UInt32.ofNat (readLE bytes headerFlagsOffset 4) &&& requestIdFlags = requestIdFlags
  · rw [if_pos hflags]
    exact ⟨_, rfl, nofun⟩
  refine absurd ⟨hlen, fun hv => ?_, fun hv => ?_, fun hv => ?_, hflags⟩ h
  · exact Classical.not_not.mp fun hne => hknown ⟨hv, hne⟩
  · exact Nat.le_of_not_lt fun hlt => hfuture ⟨hv, hlt⟩
  · exact Classical.not_not.mp fun hne => hrequest ⟨hv, hne⟩

/-- A parser goes out of range, fails, or returns what the message says. -/
theorem parse_cases (bytes : List UInt8) :
    ¬ HeaderInBounds bytes ∧ parse bytes = .error .outOfRange ∨
      HeaderInBounds bytes ∧
        (¬ HeaderAccepted bytes ∧ (∃ e, parse bytes = .error e ∧ e ≠ .outOfRange) ∨
          HeaderAccepted bytes ∧ ∃ header, parse bytes =
              .ok (header, requiredHeaderSize (headerVersion bytes)) ∧
            header.payload = payloadPointer bytes (headerVersion bytes) ∧
            header.version = UInt32.ofNat (headerVersion bytes)) := by
  by_cases h : HeaderRead bytes
  · rw [parse_of_read h]
    rcases fields_cases h.long with ⟨hend, hfields⟩ | ⟨hend, ⟨hv, hraw, hfields⟩ | ⟨hraw, x, hfields, hx⟩⟩
    · rw [hfields]
      exact .inl ⟨fun hin => Nat.not_le.mpr hend (hin h), rfl⟩
    · rw [hfields]
      exact .inr ⟨fun _ => hend, .inl ⟨fun hacc => hacc.2 hv hraw, _, rfl, nofun⟩⟩
    · rw [hfields]
      exact .inr ⟨fun _ => hend, .inr ⟨⟨h, hraw⟩, _, rfl, hx, rfl⟩⟩
  · obtain ⟨e, he, hne⟩ := parse_of_refused h
    exact .inr ⟨fun hread => absurd hread h, .inl ⟨fun hacc => h hacc.1, e, he, hne⟩⟩

end MessageHeader

/-! ### Messages -/

theorem requiredHeaderSize_aligned (v : Nat) :
    alignUp (requiredHeaderSize v) = .ok (requiredHeaderSize v) := by
  obtain ⟨-, hle, hdvd⟩ := requiredHeaderSize_bounds v
  have hlimit : 56 + 7 < usizeLimit := by decide
  rw [alignUp_ok (by omega)]
  congr 1
  omega

/-- A payload that is decoded is tested within the address space. -/
def PayloadInRange (bytes : List UInt8) (handleCount : Nat) (payloadType : Ty)
    (limits : ValidationLimits) : Prop :=
  HeaderAccepted bytes → requiredHeaderSize (headerVersion bytes) < bytes.length →
    ObjectsFit (messageVisits bytes handleCount payloadType limits
      (requiredHeaderSize (headerVersion bytes))).events

/-- An error that is passed on. -/
theorem clean_bind_ok_iff (x : WireResult α) (g : α → β) :
    Clean (x >>= fun a => .ok (g a)) ↔ Clean x := by
  cases x with
  | ok a => exact iff_of_true (.ok _) (.ok _)
  | error e => exact ⟨fun h heq => h (congrArg Except.error (Except.error.inj heq)),
      fun h heq => h (congrArg Except.error (Except.error.inj heq))⟩

theorem validate_clean_iff (bytes : List UInt8) (handleCount : Nat) (payloadType : Ty)
    (limits : ValidationLimits) :
    Clean (validateMessage bytes handleCount payloadType limits) ↔
      limits.maxMessageSize < bytes.length ∨
        HeaderInBounds bytes ∧ PayloadInRange bytes handleCount payloadType limits := by
  unfold validateMessage
  by_cases hshort : bytes.length < minMessageSize
  · have hread : ¬ HeaderRead bytes := fun h => Nat.not_lt.mpr h.long hshort
    rw [if_pos hshort]
    exact iff_of_true (.validation _) (.inr ⟨fun h => absurd h hread, fun h => absurd h.1 hread⟩)
  rw [if_neg hshort]
  by_cases hlong : bytes.length > limits.maxMessageSize
  · rw [if_pos hlong]
    exact iff_of_true (.encode _) (.inl hlong)
  rw [if_neg hlong, or_iff_right hlong]
  rcases parse_cases bytes with ⟨hin, hparse⟩ | ⟨hin, ⟨hacc, e, hparse, he⟩ |
    ⟨hacc, header, hparse, -, -⟩⟩
  · rw [hparse]
    exact iff_of_false (fun h => h rfl) fun h => hin h.1
  · rw [hparse]
    exact iff_of_true (fun heq => he (Except.error.inj heq)) ⟨hin, fun h => absurd h hacc⟩
  rw [hparse, ok_bind]
  dsimp only
  rw [requiredHeaderSize_aligned, ok_bind, and_iff_right hin]
  by_cases hend : requiredHeaderSize (headerVersion bytes) ≥ bytes.length
  · rw [if_pos hend]
    exact iff_of_true (.validation _) fun _ hlt => absurd hlt (Nat.not_lt.mpr hend)
  rw [if_neg hend]
  have hpayload : PayloadInRange bytes handleCount payloadType limits ↔
      Clean (decodeStructOf payloadType (requiredHeaderSize (headerVersion bytes))
        (.new bytes handleCount limits.maxRecursionDepth)) := by
    rw [← visitStructOf_result, (visited_structOf ..).clean]
    exact ⟨fun h => h hacc (Nat.lt_of_not_le hend), fun h _ _ => h⟩
  rw [hpayload]
  cases payloadType with
  | struct fields version nullable => exact clean_bind_ok_iff _ _
  | _ => exact iff_of_true (.encode _) (.encode _)

/-- The header of a message is parsed within the message just if the message
holds the fields that are read; and then validation goes out of range for its
payload only. -/
theorem header_in_bounds_iff (bytes : List UInt8) :
    (MessageHeader.parse bytes ≠ .error .outOfRange ↔ HeaderInBounds bytes) ∧
      (validateHeader bytes ≠ .error .outOfRange ↔ HeaderInBounds bytes) ∧
      ∀ handleCount payloadType limits,
        validateMessage bytes handleCount payloadType limits ≠ .error .outOfRange ↔
          limits.maxMessageSize < bytes.length ∨
            HeaderInBounds bytes ∧ PayloadInRange bytes handleCount payloadType limits := by
  have hparse : Clean (MessageHeader.parse bytes) ↔ HeaderInBounds bytes := by
    rcases parse_cases bytes with ⟨hin, hparse⟩ | ⟨hin, ⟨-, e, hparse, he⟩ | ⟨-, header, hparse, -⟩⟩
    · rw [hparse]
      exact iff_of_false (fun h => h rfl) hin
    · rw [hparse]
      exact iff_of_true (fun heq => he (Except.error.inj heq)) hin
    · rw [hparse]
      exact iff_of_true (.ok _) hin
  exact ⟨hparse, (clean_bind_ok_iff _ Prod.fst).trans hparse, validate_clean_iff bytes⟩

/-- A header of version 1 declares 32 bytes, of which a message of 24 has not got
the last. -/
theorem header_out_of_bounds :
    MessageHeader.parse ([32, 0, 0, 0, 1, 0, 0, 0] ++ List.replicate 16 0) = .error .outOfRange ∧
      validateHeader ([32, 0, 0, 0, 1, 0, 0, 0] ++ List.replicate 16 0) = .error .outOfRange ∧
      validateMessage ([32, 0, 0, 0, 1, 0, 0, 0] ++ List.replicate 16 0) 0
        (.struct [] 0 false) {} = .error .outOfRange :=
  ⟨rfl, rfl, rfl⟩

/-! ### The payload -/

/-- The payload of an accepted message begins where the payload pointer leads,
and not before the declared end of the header, just if the header is of the size
that is known of its version and the pointer leads there. -/
theorem payload_at_pointer_iff {bytes : List UInt8} {handleCount : Nat} {payloadType : Ty}
    {limits : ValidationLimits} {m : ValidatedMessage}
    (h : validateMessage bytes handleCount payloadType limits = .ok m)
    (hversion : 2 ≤ m.header.version.toNat) :
    (∃ dec', decodeStructOf payloadType m.payloadOffset
        (.new bytes handleCount limits.maxRecursionDepth) = .ok (m.payload, dec')) ∧
      (m.header.payload = some (.offset m.payloadOffset) ∧ headerNumBytes bytes ≤ m.payloadOffset ↔
        readLE bytes headerPayloadOffset 8 =
            requiredHeaderSize (headerVersion bytes) - headerPayloadOffset ∧
          headerNumBytes bytes = requiredHeaderSize (headerVersion bytes)) := by
  obtain ⟨headerSize, dec', hparse, hoffset, hresult⟩ := validate_eq_ok h
  refine ⟨⟨dec', (visitStructOf_result ..).symm.trans hresult⟩, ?_⟩
  rcases parse_cases bytes with ⟨-, herror⟩ | ⟨-, ⟨-, e, herror, -⟩ |
    ⟨⟨hread, hraw⟩, header, hheader, hpayload, hv⟩⟩
  · rw [herror] at hparse
    cases hparse
  · rw [herror] at hparse
    cases hparse
  rw [hheader] at hparse
  obtain ⟨rfl, rfl⟩ := Prod.mk.inj (Except.ok.inj hparse)
  -- the payload begins at the header size of the version
  have hlt : headerVersion bytes < 2 ^ 32 := readLE_lt ..
  rw [hv, UInt32.toNat_ofNat_of_lt' hlt] at hversion
  obtain ⟨-, hsize, hdvd⟩ := requiredHeaderSize_bounds (headerVersion bytes)
  have hstart : m.payloadOffset = requiredHeaderSize (headerVersion bytes) := by omega
  have hbig := requiredHeaderSize_two hversion
  have hpointer : (m.header.payload = some (.offset m.payloadOffset)) ↔
      readLE bytes headerPayloadOffset 8 =
        requiredHeaderSize (headerVersion bytes) - headerPayloadOffset := by
    have hword : readLE bytes headerPayloadOffset 8 < 2 ^ 64 := readLE_lt ..
    rw [hpayload, payloadPointer, if_pos hversion, Pointer.decode, if_neg (hraw hversion), hstart,
      Option.some.injEq, Pointer.offset.injEq]
    show (32 + readLE bytes headerPayloadOffset 8) % 2 ^ 64 = _ ↔ _ = _ - 32
    omega
  have hdeclared : headerNumBytes bytes ≤ m.payloadOffset ↔
      headerNumBytes bytes = requiredHeaderSize (headerVersion bytes) := by
    rw [hstart]
    constructor
    · intro hle
      rcases Nat.lt_or_ge 3 (headerVersion bytes) with hfuture | hknown
      · exact Nat.le_antisymm hle (hread.future hfuture)
      · exact hread.known hknown
    · exact Nat.le_of_eq
  rw [hpointer, hdeclared]

/-- A header of version 2 with a payload of one struct without fields. -/
def pointedBytes (target : UInt8) (payload : List UInt8) : List UInt8 :=
  [48, 0, 0, 0, 2, 0, 0, 0] ++ List.replicate 24 0 ++ [target, 0, 0, 0, 0, 0, 0, 0] ++
    List.replicate 8 0 ++ payload

theorem payload_at_pointer_plain : ∃ m,
    validateMessage (pointedBytes 16 [8, 0, 0, 0, 0, 0, 0, 0]) 0 (.struct [] 0 false) {} = .ok m ∧
      m.header.payload = some (.offset m.payloadOffset) := by
  obtain ⟨m, hm, hversion⟩ : ∃ m, validateMessage (pointedBytes 16 [8, 0, 0, 0, 0, 0, 0, 0]) 0
      (.struct [] 0 false) {} = .ok m ∧ m.header.version = 2 := ⟨_, rfl, rfl⟩
  have htwo : 2 ≤ m.header.version.toNat := by
    rw [hversion]
    decide
  exact ⟨m, hm, ((payload_at_pointer_iff hm htwo).2.mpr (by decide +kernel)).1⟩

/-- The payload pointer may lead behind the struct that is decoded; and of a
later version, that struct may lie within the header. -/
theorem payload_elsewhere :
    (∃ m, validateMessage (pointedBytes 24 [8, 0, 0, 0, 0, 0, 0, 0, 8, 0, 0, 0, 0, 0, 0, 0]) 0
        (.struct [] 0 false) {} = .ok m ∧
      m.header.payload = some (.offset 56) ∧ m.payloadOffset = 48) ∧
    ∃ m, validateMessage ([64, 0, 0, 0, 4, 0, 0, 0] ++ List.replicate 24 0 ++
        [32, 0, 0, 0, 0, 0, 0, 0] ++ List.replicate 16 0 ++ [8, 0, 0, 0, 0, 0, 0, 0] ++
        [8, 0, 0, 0, 0, 0, 0, 0]) 0 (.struct [] 0 false) {} = .ok m ∧
      m.header.payload = some (.offset 64) ∧ m.payloadOffset = 56 :=
  ⟨⟨_, rfl, rfl, rfl⟩, _, rfl, rfl, rfl⟩

end MojoRs.Wire
