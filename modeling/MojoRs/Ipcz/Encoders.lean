/-
MojoRs/Ipcz/Encoders.lean

The encoders of node messages (`messages.rs`).  Most messages are their fixed
parameters and nothing else; some attach driver objects, and the greetings and
introductions an array of features.
-/
import MojoRs.Ipcz.Messages

namespace MojoRs.Ipcz

open Lib

/-- Sixteen bytes, the high word first. -/
def NodeName.bytes (n : NodeName) : List UInt8 := leU64 n.high ++ leU64 n.low

/-- Sixteen bytes. -/
def FragmentDescriptor.bytes (f : FragmentDescriptor) : List UInt8 :=
  leU64 f.bufferId ++ (leU32 f.offset ++ leU32 f.size)

/-- A message of fixed parameters. -/
def encodeFixed (messageId : UInt8) (fields : List UInt8) : List UInt8 :=
  ((MessageBuilder.new messageId).appendParams fields).build

/-- A message of fixed parameters with driver objects. -/
def encodeWithObjects (messageId : UInt8) (fields : List UInt8) (objects : List (List UInt8)) :
    List UInt8 :=
  (((MessageBuilder.new messageId).appendParams fields).appendDriverObjects objects).build

/-! ### Routes -/

/-- `encode_route_closed`. -/
def encodeRouteClosed (sublink sequenceLength : UInt64) : List UInt8 :=
  encodeFixed msgIdRouteClosed (leU64 sublink ++ leU64 sequenceLength)

/-- `encode_route_disconnected`. -/
def encodeRouteDisconnected (sublink : UInt64) : List UInt8 :=
  encodeFixed msgIdRouteDisconnected (leU64 sublink)

/-- `encode_flush_router`. -/
def encodeFlushRouter (sublink : UInt64) : List UInt8 :=
  encodeFixed msgIdFlushRouter (leU64 sublink)

/-- `encode_stop_proxying_to_local_peer`. -/
def encodeStopProxyingToLocalPeer (sublink outboundSequenceLength : UInt64) : List UInt8 :=
  encodeFixed msgIdStopProxyingToLocalPeer (leU64 sublink ++ leU64 outboundSequenceLength)

/-- `encode_bypass_peer_with_link`. -/
def encodeBypassPeerWithLink (sublink newSublink : UInt64)
    (newLinkStateFragment : FragmentDescriptor) (inboundSequenceLength : UInt64) : List UInt8 :=
  encodeFixed msgIdBypassPeerWithLink
    (leU64 sublink ++ (leU64 newSublink ++ (newLinkStateFragment.bytes ++
      leU64 inboundSequenceLength)))

/-- The word behind the sublink is reserved. -/
def encodeBypassPeer (sublink : UInt64) (bypassTargetNode : NodeName)
    (bypassTargetSublink : UInt64) : List UInt8 :=
  encodeFixed msgIdBypassPeer
    (leU64 sublink ++ (leU64 0 ++ (bypassTargetNode.bytes ++ leU64 bypassTargetSublink)))

/-- `encode_accept_bypass_link`. -/
def encodeAcceptBypassLink (currentPeerNode : NodeName) (currentPeerSublink
    inboundSequenceLengthFromBypassedLink newSublink : UInt64)
    (newLinkStateFragment : FragmentDescriptor) : List UInt8 :=
  encodeFixed msgIdAcceptBypassLink
    (currentPeerNode.bytes ++ (leU64 currentPeerSublink ++
      (leU64 inboundSequenceLengthFromBypassedLink ++ (leU64 newSublink ++
        newLinkStateFragment.bytes))))

/-- `encode_stop_proxying`. -/
def encodeStopProxying (sublink inboundSequenceLength outboundSequenceLength : UInt64) :
    List UInt8 :=
  encodeFixed msgIdStopProxying
    (leU64 sublink ++ (leU64 inboundSequenceLength ++ leU64 outboundSequenceLength))

/-- `encode_proxy_will_stop`. -/
def encodeProxyWillStop (sublink inboundSequenceLength : UInt64) : List UInt8 :=
  encodeFixed msgIdProxyWillStop (leU64 sublink ++ leU64 inboundSequenceLength)

/-! ### Connections and introductions -/

/-- Protocol version 0, the initial portals, and the offset of the features array
behind the parameters: what both greetings send. -/
def encodeGreeting (messageId : UInt8) (numInitialPortals : UInt32) (features : UInt64) :
    List UInt8 :=
  let featuresOff := align8 (messageHeaderSize + align8 (8 + 12))
  let b := (MessageBuilder.new messageId).appendParams
    (leU32 0 ++ (leU32 numInitialPortals ++ leU32 (UInt32.ofNat featuresOff)))
  (b.appendArray (leU64 features) 1).1.build

/-- `encode_connect_from_non_broker_to_broker`. -/
def encodeConnectFromNonBrokerToBroker (numInitialPortals : UInt32) (features : UInt64) :
    List UInt8 :=
  encodeGreeting msgIdConnectFromNonBrokerToBroker numInitialPortals features

/-- `encode_connect_to_referred_broker`. -/
def encodeConnectToReferredBroker (numInitialPortals : UInt32) (features : UInt64) : List UInt8 :=
  encodeGreeting msgIdConnectToReferredBroker numInitialPortals features

/-- `encode_refer_non_broker`. -/
def encodeReferNonBroker (referralId : UInt64) (numInitialPortals : UInt32)
    (transportObject : List UInt8) : List UInt8 :=
  encodeWithObjects msgIdReferNonBroker
    (leU64 referralId ++ (leU32 numInitialPortals ++ leU32 0)) [transportObject]

/-- `encode_request_introduction`. -/
def encodeRequestIntroduction (name : NodeName) : List UInt8 :=
  encodeFixed msgIdRequestIntroduction name.bytes

/-- `encode_accept_introduction`. -/
def encodeAcceptIntroduction (name : NodeName) (linkSide remoteNodeType : UInt8)
    (remoteProtocolVersion : UInt32) (transportObject memoryObject : List UInt8) : List UInt8 :=
  let v0 := name.bytes ++ ([linkSide, remoteNodeType, 0, 0] ++
    (leU32 remoteProtocolVersion ++ (leU32 0 ++ leU32 1)))
  let featuresOff := messageHeaderSize + align8 (8 + (v0.length + 4))
  let b := (MessageBuilder.new msgIdAcceptIntroduction).appendParams
    (v0 ++ leU32 (UInt32.ofNat featuresOff))
  ((b.appendArray (leU64 0) 1).1.appendDriverObjects [transportObject, memoryObject]).build

/-- `encode_reject_introduction`. -/
def encodeRejectIntroduction (name : NodeName) : List UInt8 :=
  encodeFixed msgIdRejectIntroduction name.bytes

/-- `encode_request_indirect_introduction`. -/
def encodeRequestIndirectIntroduction (sourceNode targetNode : NodeName) : List UInt8 :=
  encodeFixed msgIdRequestIndirectIntroduction (sourceNode.bytes ++ targetNode.bytes)

/-! ### Memory -/

/-- A shared buffer as a driver object; its GUID comes from `seed`. -/
def encodeSharedBufferObject (bufferSize : UInt32) (seed : UInt64) : List UInt8 :=
  leU32 8 ++ (leU32 1 ++ (leU32 32 ++ (leU32 bufferSize ++ (leU32 2 ++ (leU32 0 ++
    (leU64 (seed * 0x9e3779b97f4a7c15) ++ leU64 (seed * 0xbf58476d1ce4e5b9)))))))

/-- `encode_request_memory`. -/
def encodeRequestMemory (size : UInt32) : List UInt8 :=
  encodeFixed msgIdRequestMemory (leU32 size ++ leU32 0)

/-- `encode_provide_memory`. -/
def encodeProvideMemory (size : UInt32) : List UInt8 :=
  encodeWithObjects msgIdProvideMemory (leU32 size ++ leU32 0)
    [encodeSharedBufferObject size size.toUInt64]

/-- `encode_add_block_buffer`. -/
def encodeAddBlockBuffer (id : UInt64) (blockSize bufferIndex bufferSize : UInt32) : List UInt8 :=
  encodeWithObjects msgIdAddBlockBuffer (leU64 id ++ (leU32 blockSize ++ leU32 bufferIndex))
    [encodeSharedBufferObject bufferSize id]

/-! ### Parcels -/

/-- The closure `next`: the offset of an array of `len` bytes, and the offset
behind it. -/
def nextOffset (off len : Nat) : UInt32 × Nat :=
  if len = 0 then (0, off) else (UInt32.ofNat off, off + align8 (8 + len))

/-- `encode_accept_parcel_arrays`. -/
def encodeAcceptParcelArrays (sublink sequenceNumber : UInt64)
    (subparcelIndex numSubparcels : UInt32) (parcelFragment : Option FragmentDescriptor)
    (data : List UInt8) (handleTypes : List UInt32) (newRouters driverData : List (List UInt8)) :
    List UInt8 :=
  let off := align8 (messageHeaderSize + 72)
  let (pdOff, off) := if parcelFragment.isSome then (0, off) else nextOffset off data.length
  let (htOff, off) := nextOffset off (handleTypes.length * 4)
  let (nrOff, _) := nextOffset off (newRouters.map List.length).sum
  let fields := leU64 sublink ++ (leU64 sequenceNumber ++ (leU32 subparcelIndex ++
    (leU32 numSubparcels ++ ((parcelFragment.getD .null).bytes ++ (leU32 pdOff ++ (leU32 htOff ++
      (leU32 nrOff ++ (leU32 0 ++ (leU32 0 ++ leU32 (UInt32.ofNat driverData.length))))))))))
  let b := (MessageBuilder.new msgIdAcceptParcel).appendParams fields
  let b := if !data.isEmpty && parcelFragment.isNone then
      (b.appendArray data (UInt32.ofNat data.length)).1 else b
  let b := if !handleTypes.isEmpty then
      (b.appendArray (handleTypes.flatMap leU32) (UInt32.ofNat handleTypes.length)).1 else b
  let b := if !newRouters.isEmpty then
      (b.appendArray newRouters.flatten (UInt32.ofNat newRouters.length)).1 else b
  let b := if !driverData.isEmpty then b.appendDriverObjects driverData else b
  b.build

/-- `encode_accept_parcel_full`. -/
def encodeAcceptParcelFull (sublink sequenceNumber : UInt64)
    (parcelFragment : Option FragmentDescriptor) (data : List UInt8) (handleTypes : List UInt32)
    (newRouters driverData : List (List UInt8)) : List UInt8 :=
  encodeAcceptParcelArrays sublink sequenceNumber 0 1 parcelFragment data handleTypes newRouters
    driverData

/-- `encode_accept_parcel_driver_objects`. -/
def encodeAcceptParcelDriverObjects (sublink sequenceNumber : UInt64)
    (driverData : List (List UInt8)) : List UInt8 :=
  let b := (MessageBuilder.new msgIdAcceptParcelDriverObjects).appendParams
    (leU64 sublink ++ (leU64 sequenceNumber ++ (leU32 0 ++
      leU32 (UInt32.ofNat driverData.length))))
  let b := if !driverData.isEmpty then b.appendDriverObjects driverData else b
  b.build

end MojoRs.Ipcz
