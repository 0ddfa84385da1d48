/-
MojoRs/Wire/Message.lean

Message headers (`message.rs`) and the validation of whole messages
(`validate.rs`).
-/
import MojoRs.Wire.Decode

namespace MojoRs.Wire

open Lib

/-- A message header. -/
structure MessageHeader where
  interfaceId : UInt32
  name : UInt32
  flags : UInt32
  traceNonce : UInt32
  version : UInt32
  requestId : Option UInt64
  payload : Option Pointer
  payloadInterfaceIds : Option Pointer
  creationTimeticksUs : Option Int64
  deriving DecidableEq, Repr

/-- `read_u32_at` and `read_u64_at`: the caller guarantees the bounds. -/
def readAt (bytes : List UInt8) (w offset : Nat) : WireResult Nat :=
  if offset + w ≤ bytes.length then .ok (readLE bytes offset w) else .error .outOfRange

/-- The header size of a version; later versions have at least that of 3. -/
def requiredHeaderSize (version : Nat) : Nat :=
  match version with
  | 0 => messageHeaderV0Size
  | 1 => messageHeaderV1Size
  | 2 => messageHeaderV2Size
  | _ => messageHeaderV3Size

/-- The flags that need a request id. -/
def requestIdFlags : UInt32 := messageFlagExpectsResponse ||| messageFlagIsResponse

/-- A field that is present from version `since` on. -/
def sinceVersion {α : Type} (version since : Nat) (read : WireResult α) :
    WireResult (Option α) :=
  if version ≥ since then do
    let a ← read
    .ok (some a)
  else .ok none

/-- The payload pointer of a header, which must not be null. -/
def readPayloadPointer (bytes : List UInt8) : WireResult Pointer := do
  let raw ← readAt bytes 8 headerPayloadOffset
  match Pointer.decode headerPayloadOffset raw with
  | .null => .error unexpectedNullPointer
  | p => .ok p

namespace MessageHeader

/-- Parse a header; returns also the number of bytes it takes. -/
def parse (bytes : List UInt8) : WireResult (MessageHeader × Nat) :=
  if bytes.length < minMessageSize then
    .error (.encode (.messageTooLarge bytes.length minMessageSize))
  else do
    let numBytes ← readAt bytes 4 0
    let version ← readAt bytes 4 4
    let required := requiredHeaderSize version
    if version ≤ 3 ∧ numBytes ≠ required then .error unexpectedStructHeader
    else if version > 3 ∧ numBytes < required then .error unexpectedStructHeader
    else
      let interfaceId ← readAt bytes 4 headerInterfaceIdOffset
      let name ← readAt bytes 4 headerNameOffset
      let flags ← readAt bytes 4 headerFlagsOffset
      let traceNonce ← readAt bytes 4 headerTraceNonceOffset
      let requests := UInt32.ofNat flags &&& requestIdFlags
      if version = 0 ∧ requests ≠ 0 then
        .error (.validation .messageHeaderMissingRequestId)
      else if requests = requestIdFlags then
        .error (.validation .messageHeaderInvalidFlags)
      else
        let requestId ← sinceVersion version 1 (readAt bytes 8 headerRequestIdOffset)
        let payload ← sinceVersion version 2 (readPayloadPointer bytes)
        let payloadInterfaceIds ← sinceVersion version 2 do
          let raw ← readAt bytes 8 headerPayloadInterfaceIdsOffset
          .ok (Pointer.decode headerPayloadInterfaceIdsOffset raw)
        let timeticks ← sinceVersion version 3 (readAt bytes 8 headerCreationTimeticksOffset)
        .ok ({
          interfaceId := UInt32.ofNat interfaceId
          name := UInt32.ofNat name
          flags := UInt32.ofNat flags
          traceNonce := UInt32.ofNat traceNonce
          version := UInt32.ofNat version
          requestId := requestId.map UInt64.ofNat
          payload := payload
          payloadInterfaceIds := payloadInterfaceIds
          creationTimeticksUs := timeticks.map fun n => (UInt64.ofNat n).toInt64 },
          if version ≤ 3 then required else messageHeaderV3Size)

/-- A slice of the fresh header buffer is overwritten, if it exists. -/
def putOption (out : List UInt8) (offset : Nat) : Option Nat → WireResult (List UInt8)
  | none => .ok out
  | some n =>
      if offset + 8 ≤ out.length then .ok (putBytes out offset (toLE 8 n))
      else .error .outOfRange

/-- Serialize a header; the payload pointers are left null. -/
def serialize (h : MessageHeader) : WireResult (List UInt8) := do
  let size := requiredHeaderSize h.version.toNat
  let out := List.replicate size 0
  let out := putBytes out 0 (toLE 4 size)
  let out := putBytes out 4 (toLE 4 h.version.toNat)
  let out := putBytes out headerInterfaceIdOffset (toLE 4 h.interfaceId.toNat)
  let out := putBytes out headerNameOffset (toLE 4 h.name.toNat)
  let out := putBytes out headerFlagsOffset (toLE 4 h.flags.toNat)
  let out := putBytes out headerTraceNonceOffset (toLE 4 h.traceNonce.toNat)
  let out ← putOption out headerRequestIdOffset (h.requestId.map UInt64.toNat)
  putOption out headerCreationTimeticksOffset
    (h.creationTimeticksUs.map fun t => t.toUInt64.toNat)

end MessageHeader

/-- Validation limits. -/
structure ValidationLimits where
  maxMessageSize : Nat := defaultMaxMessageSize
  maxRecursionDepth : Nat := defaultMaxRecursionDepth
  deriving DecidableEq, Repr

/-- A validated message. -/
structure ValidatedMessage where
  header : MessageHeader
  payload : Value
  payloadOffset : Nat

/-- Validate a message: its header, and its payload struct, which begins at
the next aligned offset behind the header. -/
def validateMessage (bytes : List UInt8) (handleCount : Nat) (payloadType : Ty)
    (limits : ValidationLimits) : WireResult ValidatedMessage :=
  if bytes.length < minMessageSize then .error unexpectedStructHeader
  else if bytes.length > limits.maxMessageSize then
    .error (.encode (.messageTooLarge bytes.length limits.maxMessageSize))
  else do
    let (header, headerSize) ← MessageHeader.parse bytes
    let payloadOffset ← alignUp headerSize
    if payloadOffset ≥ bytes.length then .error unexpectedStructHeader
    else
      match payloadType with
      | .struct fields _ _ =>
          let dec := Decoder.new bytes handleCount limits.maxRecursionDepth
          let (payload, _) ← decodeStruct fields (fieldDecoders fields) payloadOffset dec
          .ok ⟨header, payload, payloadOffset⟩
      | _ => .error (unsupported "expected struct type")

/-- Validate just the header. -/
def validateHeader (bytes : List UInt8) : WireResult MessageHeader := do
  let (header, _) ← MessageHeader.parse bytes
  .ok header

end MojoRs.Wire
