/-
MojoRs/Ipcz/Wire.lean

Node messages on the wire (`wire.rs`): the message header, the builder that
lays out the parameters and the arrays behind it, and the sequence number that
is filled in when a message is sent.

Sizes and offsets are written as the source casts them, modulo `2 ^ 32`.  Its
debug assertions, which hold of every message below that size, are left out.
-/
import MojoRs.Ipcz.Channel

namespace MojoRs.Ipcz

open Lib

/-- The size of the message header. -/
def messageHeaderSize : Nat := 24

/-- The header of a node message. -/
structure MessageHeader where
  size : UInt8
  version : UInt8
  messageId : UInt8
  nodeSequenceNumber : UInt64
  driverObjectDataArray : UInt32
  deriving DecidableEq, Repr

/-- Parse the message header at the start of a payload. -/
def parseMessageHeader (payload : List UInt8) : Except WireError MessageHeader :=
  if payload.length < messageHeaderSize then .error .shortMessageHeader
  else
    let size := payload.getD 0 0
    if size ≠ UInt8.ofNat messageHeaderSize then .error (.unknownMessageHeaderSize size)
    else
      .ok
        { size
          version := payload.getD 1 0
          messageId := payload.getD 2 0
          nodeSequenceNumber := getU64 payload 8
          driverObjectDataArray := getU32 payload 16 }

/-- Round `n` up to a multiple of 8. -/
def align8 (n : Nat) : Nat := (n + 7) / 8 * 8

/-- Zeros up to the size `padded`. -/
def padding (padded len : Nat) : List UInt8 := List.replicate (padded - 8 - len) 0

/-- A message under construction. -/
structure MessageBuilder where
  header : MessageHeader
  body : List UInt8
  deriving DecidableEq, Repr

namespace MessageBuilder

/-- `MessageBuilder::new`. -/
def new (messageId : UInt8) : MessageBuilder :=
  ⟨⟨UInt8.ofNat messageHeaderSize, 0, messageId, 0, 0⟩, []⟩

/-- The length of the message so far. -/
def payloadLen (b : MessageBuilder) : Nat := messageHeaderSize + b.body.length

/-- Append the parameters behind their struct header. -/
def appendParams (b : MessageBuilder) (fields : List UInt8) : MessageBuilder :=
  let padded := align8 (8 + fields.length)
  { b with
    body := b.body ++ (leU32 (UInt32.ofNat padded) ++ (leU32 0 ++
      (fields ++ padding padded fields.length))) }

/-- Append an array of `numElements` elements; the result has its offset, or 0
if there is nothing to append. -/
def appendArray (b : MessageBuilder) (elements : List UInt8) (numElements : UInt32) :
    MessageBuilder × UInt32 :=
  if elements.isEmpty then (b, 0)
  else
    let numBytes := align8 (8 + elements.length)
    ({ b with
        body := b.body ++ (leU32 (UInt32.ofNat numBytes) ++ (leU32 numElements ++
          (elements ++ padding numBytes elements.length))) },
      UInt32.ofNat b.payloadLen)

/-- Where the data of the driver objects is expected, from `off` on. -/
def dataOffsets : Nat → List (List UInt8) → List Nat
  | _, [] => []
  | off, data :: rest =>
      (if data.isEmpty then 0 else off) :: dataOffsets (off + align8 (8 + data.length)) rest

/-- The entries of the driver object array: offset, first descriptor, number of
descriptors. -/
def objectEntries : UInt16 → List Nat → List (List UInt8)
  | _, [] => []
  | numHandles, off :: rest =>
      (leU32 (UInt32.ofNat off) ++ (leU16 numHandles ++ leU16 1)) ::
        objectEntries (numHandles + 1) rest

/-- Append the data of the driver objects, except for empty ones. -/
def appendData (b : MessageBuilder) : List (List UInt8) → MessageBuilder
  | [] => b
  | data :: rest =>
      if data.isEmpty then b.appendData rest
      else (b.appendArray data (UInt32.ofNat data.length)).1.appendData rest

/-- Append the driver object array and the data of each object. -/
def appendDriverObjects (b : MessageBuilder) (driverData : List (List UInt8)) : MessageBuilder :=
  if driverData.isEmpty then b
  else
    let dataOffsets :=
      dataOffsets (b.payloadLen + align8 (8 + driverData.length * 8)) driverData
    let (b, arrOffset) :=
      b.appendArray (objectEntries 0 dataOffsets).flatten (UInt32.ofNat driverData.length)
    let b := b.appendData driverData
    { b with header := { b.header with driverObjectDataArray := arrOffset } }

/-- Serialize the header and the body. -/
def build (b : MessageBuilder) : List UInt8 :=
  [b.header.size, b.header.version, b.header.messageId, 0, 0, 0, 0, 0] ++
    (leU64 b.header.nodeSequenceNumber ++ (leU32 b.header.driverObjectDataArray ++
      (leU32 0 ++ b.body)))

end MessageBuilder

/-- Patch the sequence number of a serialized message. -/
def setMessageSequenceNumber (payload : List UInt8) (seq : UInt64) : List UInt8 :=
  payload.take 8 ++ (leU64 seq ++ payload.drop 16)

end MojoRs.Ipcz
