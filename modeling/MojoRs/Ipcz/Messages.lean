/-
MojoRs/Ipcz/Messages.lean

The node messages (`messages.rs`): what they carry, how they are decoded from
a payload, and the encoders of those that a native node sends.

The decoder reads the parameters field by field and checks them against the
size that the message states.  The fixed parameters of the encoders are one
definition, `encodeFixed`, with the fields of each message in its own.
-/
import MojoRs.Ipcz.Wire

namespace MojoRs.Ipcz

open Lib

/-! ### What messages carry -/

/-- A 128-bit node name. -/
structure NodeName where
  high : UInt64
  low : UInt64
  deriving DecidableEq, Repr

/-- A span of memory within a shared buffer. -/
structure FragmentDescriptor where
  bufferId : UInt64
  offset : UInt32
  size : UInt32
  deriving DecidableEq, Repr

/-- The buffer of a null descriptor. -/
def invalidBufferId : UInt64 := 0xFFFFFFFFFFFFFFFF

/-- `FragmentDescriptor::default`, which references no memory. -/
def FragmentDescriptor.null : FragmentDescriptor := ⟨invalidBufferId, 0, 0⟩

/-- The descriptor refers to no buffer. -/
def FragmentDescriptor.isNull (f : FragmentDescriptor) : Bool := f.bufferId == invalidBufferId

/-- A driver object: its data and its span of the attached descriptors. -/
structure DriverObjectRef where
  data : List UInt8
  firstFd : Nat
  numFds : Nat
  deriving DecidableEq, Repr

/-- A parcel. -/
structure AcceptParcel where
  sublink : UInt64
  sequenceNumber : UInt64
  subparcelIndex : UInt32
  numSubparcels : UInt32
  parcelFragment : FragmentDescriptor
  parcelData : List UInt8
  handleTypes : List UInt32
  newRouters : List UInt8
  driverObjects : List DriverObjectRef
  deriving DecidableEq, Repr

/-- A decoded message. -/
inductive DecodedMessage
  | connectFromBrokerToNonBroker (brokerName receiverName : NodeName)
      (protocolVersion numInitialPortals bufferIndex : UInt32)
  | connectFromNonBrokerToBroker (protocolVersion numInitialPortals : UInt32)
  | referNonBroker (referralId : UInt64) (numInitialPortals transportIndex : UInt32)
  | connectToReferredBroker (protocolVersion numInitialPortals : UInt32)
  | connectToReferredNonBroker (name brokerName referrerName : NodeName)
      (brokerProtocolVersion referrerProtocolVersion numInitialPortals brokerLinkBufferIndex
        referrerLinkTransportIndex referrerLinkBufferIndex : UInt32)
      (driverObjects : List DriverObjectRef)
  | nonBrokerReferralAccepted (referralId : UInt64) (protocolVersion numInitialPortals : UInt32)
      (name : NodeName) (transportIndex bufferIndex : UInt32)
      (driverObjects : List DriverObjectRef)
  | nonBrokerReferralRejected (referralId : UInt64)
  | connectFromBrokerToBroker (name : NodeName)
      (protocolVersion numInitialPortals bufferIndex : UInt32)
  | requestIntroduction (name : NodeName)
  | acceptIntroduction (name : NodeName) (linkSide remoteNodeType remoteProtocolVersion
      transportIndex memoryIndex : UInt32) (driverObjects : List DriverObjectRef)
  | rejectIntroduction (name : NodeName)
  | requestIndirectIntroduction (sourceNode targetNode : NodeName)
  | addBlockBuffer (bufferId : UInt64) (blockSize bufferIndex : UInt32)
  | acceptParcel (parcel : AcceptParcel)
  | acceptParcelDriverObjects (sublink sequenceNumber : UInt64)
      (driverObjects : List DriverObjectRef)
  | routeClosed (sublink sequenceLength : UInt64)
  | routeDisconnected (sublink : UInt64)
  | bypassPeer (sublink : UInt64) (bypassTargetNode : NodeName) (bypassTargetSublink : UInt64)
  | acceptBypassLink (currentPeerNode : NodeName) (currentPeerSublink
      inboundSequenceLengthFromBypassedLink newSublink : UInt64)
      (newLinkStateFragment : FragmentDescriptor)
  | stopProxying (sublink inboundSequenceLength outboundSequenceLength : UInt64)
  | proxyWillStop (sublink inboundSequenceLength : UInt64)
  | bypassPeerWithLink (sublink newSublink : UInt64) (newLinkStateFragment : FragmentDescriptor)
      (inboundSequenceLength : UInt64)
  | stopProxyingToLocalPeer (sublink outboundSequenceLength : UInt64)
  | flushRouter (sublink : UInt64)
  | requestMemory (size : UInt32)
  | provideMemory (size : UInt32)
  | unknown (messageId : UInt8)
  deriving DecidableEq, Repr

/-! ### Message ids -/

/-- The id of `ConnectFromBrokerToNonBroker`. -/
def msgIdConnectFromBrokerToNonBroker : UInt8 := 0
/-- The id of `ConnectFromNonBrokerToBroker`. -/
def msgIdConnectFromNonBrokerToBroker : UInt8 := 1
/-- The id of `ReferNonBroker`. -/
def msgIdReferNonBroker : UInt8 := 2
/-- The id of `ConnectToReferredBroker`. -/
def msgIdConnectToReferredBroker : UInt8 := 3
/-- The id of `ConnectToReferredNonBroker`. -/
def msgIdConnectToReferredNonBroker : UInt8 := 4
/-- The id of `NonBrokerReferralAccepted`. -/
def msgIdNonBrokerReferralAccepted : UInt8 := 5
/-- The id of `NonBrokerReferralRejected`. -/
def msgIdNonBrokerReferralRejected : UInt8 := 6
/-- The id of `ConnectFromBrokerToBroker`. -/
def msgIdConnectFromBrokerToBroker : UInt8 := 7
/-- The id of `RequestIntroduction`. -/
def msgIdRequestIntroduction : UInt8 := 10
/-- The id of `AcceptIntroduction`. -/
def msgIdAcceptIntroduction : UInt8 := 11
/-- The id of `RejectIntroduction`. -/
def msgIdRejectIntroduction : UInt8 := 12
/-- The id of `RequestIndirectIntroduction`. -/
def msgIdRequestIndirectIntroduction : UInt8 := 13
/-- The id of `AddBlockBuffer`. -/
def msgIdAddBlockBuffer : UInt8 := 14
/-- The id of `AcceptParcel`. -/
def msgIdAcceptParcel : UInt8 := 20
/-- The id of `AcceptParcelDriverObjects`. -/
def msgIdAcceptParcelDriverObjects : UInt8 := 21
/-- The id of `RouteClosed`. -/
def msgIdRouteClosed : UInt8 := 22
/-- The id of `RouteDisconnected`. -/
def msgIdRouteDisconnected : UInt8 := 23
/-- The id of `BypassPeer`. -/
def msgIdBypassPeer : UInt8 := 30
/-- The id of `AcceptBypassLink`. -/
def msgIdAcceptBypassLink : UInt8 := 31
/-- The id of `StopProxying`. -/
def msgIdStopProxying : UInt8 := 32
/-- The id of `ProxyWillStop`. -/
def msgIdProxyWillStop : UInt8 := 33
/-- The id of `BypassPeerWithLink`. -/
def msgIdBypassPeerWithLink : UInt8 := 34
/-- The id of `StopProxyingToLocalPeer`. -/
def msgIdStopProxyingToLocalPeer : UInt8 := 35
/-- The id of `FlushRouter`. -/
def msgIdFlushRouter : UInt8 := 36
/-- The id of `RequestMemory`. -/
def msgIdRequestMemory : UInt8 := 64
/-- The id of `ProvideMemory`. -/
def msgIdProvideMemory : UInt8 := 65

/-! ### Arrays and driver objects -/

/-- The element bytes of the array at `off`; no array if `off` is 0. -/
def readArray (payload : List UInt8) (off : UInt32) (elementSize : Nat) :
    Except WireError (List UInt8) :=
  if off = 0 then .ok []
  else if payload.length < off.toNat then .error .badArrayOffset
  else
    let arr := payload.drop off.toNat
    if arr.length < 8 then .error .badArray
    else
      let numBytes := (getU32 arr 0).toNat
      let want := (getU32 arr 4).toNat * elementSize
      if numBytes < 8 ∨ numBytes % 8 ≠ 0 ∨ numBytes > arr.length then .error .badArray
      else if want > numBytes - 8 then .error .badArray
      else .ok ((arr.drop 8).take want)

/-- The loop of `read_driver_objects` over the entries, with the descriptors
before `nextFd` consumed. -/
def readObjects (payload : List UInt8) (numFds : Nat) :
    Nat → List (List UInt8) → Except WireError (List DriverObjectRef × Nat)
  | nextFd, [] => .ok ([], nextFd)
  | nextFd, chunk :: rest => do
      let first := (getU16 chunk 4).toNat
      let num := (getU16 chunk 6).toNat
      if first ≠ nextFd then .error .badDriverObjects
      else if first + num > numFds then .error .badDriverObjects
      else
        let data ← readArray payload (getU32 chunk 0) 1
        let (out, nextFd) ← readObjects payload numFds (first + num) rest
        .ok (⟨data, first, num⟩ :: out, nextFd)

/-- The driver objects of a message with `numFds` descriptors. -/
def readDriverObjects (payload : List UInt8) (hdr : MessageHeader) (numFds : Nat) :
    Except WireError (List DriverObjectRef) :=
  if hdr.driverObjectDataArray = 0 then .ok []
  else do
    let data ← readArray payload hdr.driverObjectDataArray 8
    if data.length % 8 ≠ 0 then .error .badDriverObjects
    else
      let (out, nextFd) ← readObjects payload numFds 0 (chunksExact 8 data)
      if nextFd ≠ numFds then .error .badDriverObjects else .ok out

/-! ### Decoding -/

/-- The parameters of a message: the bytes of the payload from `fields` to
`fieldsEnd`. -/
structure Params where
  payload : List UInt8
  fields : Nat
  fieldsEnd : Nat

namespace Params

/-- Four bytes of the parameters. -/
def u32 (p : Params) (off : Nat) : Except WireError UInt32 :=
  if p.fields + off + 4 > p.fieldsEnd then .error .shortParams
  else .ok (getU32 p.payload (p.fields + off))

/-- Eight bytes of the parameters. -/
def u64 (p : Params) (off : Nat) : Except WireError UInt64 :=
  if p.fields + off + 8 > p.fieldsEnd then .error .shortParams
  else .ok (getU64 p.payload (p.fields + off))

/-- A node name of the parameters. -/
def node (p : Params) (off : Nat) : Except WireError NodeName := do
  let high ← p.u64 off
  let low ← p.u64 (off + 8)
  .ok ⟨high, low⟩

/-- A fragment descriptor of the parameters. -/
def frag (p : Params) (off : Nat) : Except WireError FragmentDescriptor := do
  let bufferId ← p.u64 off
  let offset ← p.u32 (off + 8)
  let size ← p.u32 (off + 12)
  .ok ⟨bufferId, offset, size⟩

/-- The size check at the head of every message. -/
def require (p : Params) (n : Nat) : Except WireError Unit :=
  if p.fieldsEnd < p.fields + n then .error .shortParams else .ok ()

end Params

/-- `with_objects_check`: a message without its object is unknown. -/
def DecodedMessage.withObjectsCheck (m : DecodedMessage) (ok : Bool) : DecodedMessage :=
  if ok then m else .unknown msgIdAddBlockBuffer

/-- One object, and it owns the first descriptor. -/
def singleObject (objects : List DriverObjectRef) : Bool :=
  objects.length == 1 && objects.all (·.firstFd == 0)

/-- The body of `decode_message`, by message id. -/
def decodeParams (hdr : MessageHeader) (p : Params) (numFds : Nat) :
    Except WireError DecodedMessage :=
  let id := hdr.messageId
  if id = msgIdConnectFromBrokerToNonBroker then do
    p.require 48
    let driverObjects ← readDriverObjects p.payload hdr numFds
    let bufferIndex ← p.u32 40
    if !singleObject driverObjects then .error .badDriverObjects
    else
      .ok (.connectFromBrokerToNonBroker (← p.node 0) (← p.node 16) (← p.u32 32) (← p.u32 36)
        bufferIndex)
  else if id = msgIdConnectFromNonBrokerToBroker then do
    p.require 8
    .ok (.connectFromNonBrokerToBroker (← p.u32 0) (← p.u32 4))
  else if id = msgIdReferNonBroker then do
    p.require 16
    let driverObjects ← readDriverObjects p.payload hdr numFds
    let m := DecodedMessage.referNonBroker (← p.u64 0) (← p.u32 8) (← p.u32 12)
    .ok (m.withObjectsCheck (driverObjects.length == 1))
  else if id = msgIdConnectToReferredBroker then do
    p.require 8
    .ok (.connectToReferredBroker (← p.u32 0) (← p.u32 4))
  else if id = msgIdConnectToReferredNonBroker then do
    p.require 72
    let driverObjects ← readDriverObjects p.payload hdr numFds
    .ok (.connectToReferredNonBroker (← p.node 0) (← p.node 16) (← p.node 32) (← p.u32 48)
      (← p.u32 52) (← p.u32 56) (← p.u32 60) (← p.u32 64) (← p.u32 68) driverObjects)
  else if id = msgIdNonBrokerReferralAccepted then do
    p.require 40
    let driverObjects ← readDriverObjects p.payload hdr numFds
    .ok (.nonBrokerReferralAccepted (← p.u64 0) (← p.u32 8) (← p.u32 12) (← p.node 16)
      (← p.u32 32) (← p.u32 36) driverObjects)
  else if id = msgIdNonBrokerReferralRejected then do
    p.require 8
    .ok (.nonBrokerReferralRejected (← p.u64 0))
  else if id = msgIdConnectFromBrokerToBroker then do
    p.require 32
    let driverObjects ← readDriverObjects p.payload hdr numFds
    let m := DecodedMessage.connectFromBrokerToBroker (← p.node 0) (← p.u32 16) (← p.u32 20)
      (← p.u32 24)
    .ok (m.withObjectsCheck (driverObjects.length == 1))
  else if id = msgIdRequestIntroduction then do
    p.require 16
    .ok (.requestIntroduction (← p.node 0))
  else if id = msgIdAcceptIntroduction then do
    p.require 32
    let driverObjects ← readDriverObjects p.payload hdr numFds
    let sideType ← p.u32 16
    let linkSide := sideType &&& 0xff
    let remoteNodeType := (sideType >>> 8) &&& 0xff
    .ok (.acceptIntroduction (← p.node 0) linkSide remoteNodeType (← p.u32 20) (← p.u32 24)
      (← p.u32 28) driverObjects)
  else if id = msgIdRejectIntroduction then do
    p.require 16
    .ok (.rejectIntroduction (← p.node 0))
  else if id = msgIdRequestIndirectIntroduction then do
    p.require 32
    .ok (.requestIndirectIntroduction (← p.node 0) (← p.node 16))
  else if id = msgIdAddBlockBuffer then do
    p.require 16
    let driverObjects ← readDriverObjects p.payload hdr numFds
    let m := DecodedMessage.addBlockBuffer (← p.u64 0) (← p.u32 8) (← p.u32 12)
    .ok (m.withObjectsCheck (driverObjects.length == 1))
  else if id = msgIdAcceptParcel then do
    p.require 64
    let sublink ← p.u64 0
    let sequenceNumber ← p.u64 8
    let subparcelIndex ← p.u32 16
    let numSubparcels ← p.u32 20
    let parcelFragment ← p.frag 24
    let parcelDataOff ← p.u32 40
    let handleTypesOff ← p.u32 44
    let newRoutersOff ← p.u32 48
    let driverObjects ← readDriverObjects p.payload hdr numFds
    let parcelData ← readArray p.payload parcelDataOff 1
    let handleTypes ← readArray p.payload handleTypesOff 4
    let newRouters ← readArray p.payload newRoutersOff 96
    .ok (.acceptParcel
      { sublink, sequenceNumber, subparcelIndex, numSubparcels, parcelFragment, parcelData
        handleTypes := (chunksExact 4 handleTypes).map (getU32 · 0)
        newRouters, driverObjects })
  else if id = msgIdAcceptParcelDriverObjects then do
    p.require 16
    let sublink ← p.u64 0
    let sequenceNumber ← p.u64 8
    let driverObjects ← readDriverObjects p.payload hdr numFds
    .ok (.acceptParcelDriverObjects sublink sequenceNumber driverObjects)
  else if id = msgIdRouteClosed then do
    p.require 16
    .ok (.routeClosed (← p.u64 0) (← p.u64 8))
  else if id = msgIdRouteDisconnected then do
    p.require 8
    .ok (.routeDisconnected (← p.u64 0))
  else if id = msgIdBypassPeerWithLink then do
    p.require 40
    .ok (.bypassPeerWithLink (← p.u64 0) (← p.u64 8) (← p.frag 16) (← p.u64 32))
  else if id = msgIdBypassPeer then do
    p.require 32
    .ok (.bypassPeer (← p.u64 0) (← p.node 16) (← p.u64 24))
  else if id = msgIdAcceptBypassLink then do
    p.require 48
    .ok (.acceptBypassLink (← p.node 0) (← p.u64 16) (← p.u64 24) (← p.u64 32) (← p.frag 40))
  else if id = msgIdStopProxying then do
    p.require 24
    .ok (.stopProxying (← p.u64 0) (← p.u64 8) (← p.u64 16))
  else if id = msgIdProxyWillStop then do
    p.require 16
    .ok (.proxyWillStop (← p.u64 0) (← p.u64 8))
  else if id = msgIdStopProxyingToLocalPeer then do
    p.require 16
    .ok (.stopProxyingToLocalPeer (← p.u64 0) (← p.u64 8))
  else if id = msgIdFlushRouter then do
    p.require 8
    .ok (.flushRouter (← p.u64 0))
  else if id = msgIdRequestMemory then do
    p.require 8
    .ok (.requestMemory (← p.u32 0))
  else if id = msgIdProvideMemory then do
    p.require 8
    let driverObjects ← readDriverObjects p.payload hdr numFds
    let buffer ← p.u32 4
    if buffer ≠ 0 ∨ !singleObject driverObjects then .error .badDriverObjects
    else .ok (.provideMemory (← p.u32 0))
  else .ok (.unknown id)

/-- Decode a node message from its payload and the number of its descriptors. -/
def decodeMessage (payload : List UInt8) (numFds : Nat) : Except WireError DecodedMessage := do
  let hdr ← parseMessageHeader payload
  let po := hdr.size.toNat
  let params := payload.drop po
  if params.length < 8 then .error .shortParams
  else
    let paramsSize := (getU32 params 0).toNat
    if paramsSize < 8 ∨ paramsSize > params.length then .error .badParamsSize
    else decodeParams hdr ⟨payload, po + 8, po + 8 + paramsSize - 8⟩ numFds

end MojoRs.Ipcz
