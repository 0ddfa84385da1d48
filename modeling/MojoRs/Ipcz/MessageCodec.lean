/-
MojoRs/Ipcz/MessageCodec.lean

The codec of node messages.  `NodeMessage` has one constructor for every message
of fixed parameters that is both encoded and decoded, with the arguments of its
encoder.  `decoded` is the message that a decoder makes of them; it arrives, with
two exceptions:

* the decoder of `BypassPeer` reads the sublink where the encoder has put the
  low half of the node name;
* an introduction with an empty transport object and a memory object that is
  not empty has its memory object in another place than it says.

What arrives need not have all the arguments (`arguments`): it has no place for
the features of the two connect replies, the transport object of a referral and
the size of a block buffer, which the decoder reads over.

Main result: `codec_iff`.
-/
import MojoRs.Ipcz.DriverObjects

namespace MojoRs.Ipcz

open Lib

/-- The messages of fixed parameters, with what is handed to their encoders. -/
inductive NodeMessage
  | connectFromNonBrokerToBroker (numInitialPortals : UInt32) (features : UInt64)
  | connectToReferredBroker (numInitialPortals : UInt32) (features : UInt64)
  | referNonBroker (referralId : UInt64) (numInitialPortals : UInt32)
      (transportObject : List UInt8)
  | requestIntroduction (name : NodeName)
  | acceptIntroduction (name : NodeName) (linkSide remoteNodeType : UInt8)
      (remoteProtocolVersion : UInt32) (transportObject memoryObject : List UInt8)
  | rejectIntroduction (name : NodeName)
  | requestIndirectIntroduction (sourceNode targetNode : NodeName)
  | addBlockBuffer (id : UInt64) (blockSize bufferIndex bufferSize : UInt32)
  | routeClosed (sublink sequenceLength : UInt64)
  | routeDisconnected (sublink : UInt64)
  | bypassPeerWithLink (sublink newSublink : UInt64) (newLinkStateFragment : FragmentDescriptor)
      (inboundSequenceLength : UInt64)
  | bypassPeer (sublink : UInt64) (bypassTargetNode : NodeName) (bypassTargetSublink : UInt64)
  | acceptBypassLink (currentPeerNode : NodeName) (currentPeerSublink
      inboundSequenceLengthFromBypassedLink newSublink : UInt64)
      (newLinkStateFragment : FragmentDescriptor)
  | stopProxying (sublink inboundSequenceLength outboundSequenceLength : UInt64)
  | proxyWillStop (sublink inboundSequenceLength : UInt64)
  | stopProxyingToLocalPeer (sublink outboundSequenceLength : UInt64)
  | flushRouter (sublink : UInt64)
  | requestMemory (size : UInt32)
  | provideMemory (size : UInt32)
  deriving DecidableEq, Repr

namespace NodeMessage

/-- The payload that is sent. -/
def encode : NodeMessage → List UInt8
  | connectFromNonBrokerToBroker portals features =>
      encodeConnectFromNonBrokerToBroker portals features
  | connectToReferredBroker portals features => encodeConnectToReferredBroker portals features
  | referNonBroker id portals transport => encodeReferNonBroker id portals transport
  | requestIntroduction name => encodeRequestIntroduction name
  | acceptIntroduction name side type version transport memory =>
      encodeAcceptIntroduction name side type version transport memory
  | rejectIntroduction name => encodeRejectIntroduction name
  | requestIndirectIntroduction source target => encodeRequestIndirectIntroduction source target
  | addBlockBuffer id blockSize index size => encodeAddBlockBuffer id blockSize index size
  | routeClosed sublink length => encodeRouteClosed sublink length
  | routeDisconnected sublink => encodeRouteDisconnected sublink
  | bypassPeerWithLink sublink new fragment length =>
      encodeBypassPeerWithLink sublink new fragment length
  | bypassPeer sublink node target => encodeBypassPeer sublink node target
  | acceptBypassLink node sublink length new fragment =>
      encodeAcceptBypassLink node sublink length new fragment
  | stopProxying sublink inbound outbound => encodeStopProxying sublink inbound outbound
  | proxyWillStop sublink length => encodeProxyWillStop sublink length
  | stopProxyingToLocalPeer sublink length => encodeStopProxyingToLocalPeer sublink length
  | flushRouter sublink => encodeFlushRouter sublink
  | requestMemory size => encodeRequestMemory size
  | provideMemory size => encodeProvideMemory size

/-- The number of descriptors that go with it: one for each driver object. -/
def numFds : NodeMessage → Nat
  | referNonBroker .. | addBlockBuffer .. | provideMemory .. => 1
  | acceptIntroduction .. => 2
  | _ => 0

/-- The message that should arrive. -/
def decoded : NodeMessage → DecodedMessage
  | connectFromNonBrokerToBroker portals _ => .connectFromNonBrokerToBroker 0 portals
  | connectToReferredBroker portals _ => .connectToReferredBroker 0 portals
  | referNonBroker id portals _ => .referNonBroker id portals 0
  | requestIntroduction name => .requestIntroduction name
  | acceptIntroduction name side type version transport memory =>
      .acceptIntroduction name side.toUInt32 type.toUInt32 version 0 1
        (driverRefs 0 [transport, memory])
  | rejectIntroduction name => .rejectIntroduction name
  | requestIndirectIntroduction source target => .requestIndirectIntroduction source target
  | addBlockBuffer id blockSize index _ => .addBlockBuffer id blockSize index
  | routeClosed sublink length => .routeClosed sublink length
  | routeDisconnected sublink => .routeDisconnected sublink
  | bypassPeerWithLink sublink new fragment length =>
      .bypassPeerWithLink sublink new fragment length
  | bypassPeer sublink node target => .bypassPeer sublink node target
  | acceptBypassLink node sublink length new fragment =>
      .acceptBypassLink node sublink length new fragment
  | stopProxying sublink inbound outbound => .stopProxying sublink inbound outbound
  | proxyWillStop sublink length => .proxyWillStop sublink length
  | stopProxyingToLocalPeer sublink length => .stopProxyingToLocalPeer sublink length
  | flushRouter sublink => .flushRouter sublink
  | requestMemory size => .requestMemory size
  | provideMemory size => .provideMemory size

/-- The messages that arrive as they should. -/
def Arrives : NodeMessage → Prop
  | bypassPeer _ node target => target = node.low
  | acceptIntroduction _ _ _ _ transport memory => transport = [] → memory = []
  | _ => True

/-- The messages that arrive with all their arguments. -/
def Understood : NodeMessage → Prop
  | connectFromNonBrokerToBroker _ features | connectToReferredBroker _ features => features = 0
  | referNonBroker _ _ transport => transport = []
  | addBlockBuffer _ _ _ size => size = 0
  | m => m.Arrives

end NodeMessage

/-- The arguments that a decoded message tells its receiver; of those that it has
no field for, nothing is there. -/
def DecodedMessage.arguments : DecodedMessage → Option NodeMessage
  | connectFromNonBrokerToBroker _ portals => some (.connectFromNonBrokerToBroker portals 0)
  | connectToReferredBroker _ portals => some (.connectToReferredBroker portals 0)
  | referNonBroker id portals _ => some (.referNonBroker id portals [])
  | requestIntroduction name => some (.requestIntroduction name)
  | acceptIntroduction name side type version _ _ [transport, memory] =>
      some (.acceptIntroduction name side.toUInt8 type.toUInt8 version transport.data memory.data)
  | rejectIntroduction name => some (.rejectIntroduction name)
  | requestIndirectIntroduction source target => some (.requestIndirectIntroduction source target)
  | addBlockBuffer id blockSize index => some (.addBlockBuffer id blockSize index 0)
  | routeClosed sublink length => some (.routeClosed sublink length)
  | routeDisconnected sublink => some (.routeDisconnected sublink)
  | bypassPeerWithLink sublink new fragment length =>
      some (.bypassPeerWithLink sublink new fragment length)
  | bypassPeer sublink node target => some (.bypassPeer sublink node target)
  | acceptBypassLink node sublink length new fragment =>
      some (.acceptBypassLink node sublink length new fragment)
  | stopProxying sublink inbound outbound => some (.stopProxying sublink inbound outbound)
  | proxyWillStop sublink length => some (.proxyWillStop sublink length)
  | stopProxyingToLocalPeer sublink length => some (.stopProxyingToLocalPeer sublink length)
  | flushRouter sublink => some (.flushRouter sublink)
  | requestMemory size => some (.requestMemory size)
  | provideMemory size => some (.provideMemory size)
  | _ => none

/-- A message that arrives with all its arguments arrives. -/
theorem NodeMessage.Understood.arrives {m : NodeMessage} (h : m.Understood) : m.Arrives := by
  cases m with
  | bypassPeer => exact h
  | acceptIntroduction => exact h
  | _ => trivial

/-- What has the arguments of `m` has them all, if these are not lost. -/
theorem NodeMessage.arguments_decoded (m : NodeMessage) (h : m.Arrives) :
    m.decoded.arguments = some m ↔ m.Understood := by
  cases m with
  | connectFromNonBrokerToBroker portals features =>
      show some (connectFromNonBrokerToBroker portals 0) = some _ ↔ features = 0
      rw [Option.some.injEq, connectFromNonBrokerToBroker.injEq, and_iff_right rfl, eq_comm]
  | connectToReferredBroker portals features =>
      show some (connectToReferredBroker portals 0) = some _ ↔ features = 0
      rw [Option.some.injEq, connectToReferredBroker.injEq, and_iff_right rfl, eq_comm]
  | referNonBroker id portals transport =>
      show some (referNonBroker id portals []) = some _ ↔ transport = []
      rw [Option.some.injEq, referNonBroker.injEq, and_iff_right rfl, and_iff_right rfl, eq_comm]
  | addBlockBuffer id blockSize index size =>
      show some (addBlockBuffer id blockSize index 0) = some _ ↔ size = 0
      rw [Option.some.injEq, addBlockBuffer.injEq, and_iff_right rfl, and_iff_right rfl,
        and_iff_right rfl, eq_comm]
  | acceptIntroduction name side type version transport memory =>
      refine iff_of_true ?_ h
      show some (acceptIntroduction name side.toUInt32.toUInt8 type.toUInt32.toUInt8 version
        transport memory) = some _
      rw [UInt8.toUInt8_toUInt32, UInt8.toUInt8_toUInt32]
  | _ => exact iff_of_true rfl h

/-! ### Messages of parameters only -/

/-- The parameters `fields` of a message as the decoder finds them. -/
theorem decode_built {b : MessageBuilder} {fields rest : List UInt8} {len : Nat}
    (hbody : b.body = paramsBytes fields ++ rest) (hsize : b.header.size = 24)
    (hlen : align8 (8 + fields.length) = 8 + len) (hfit : len < 2 ^ 31) (seq : UInt64)
    (numFds : Nat) :
    ∃ (p : Params) (tail : List UInt8), p.Holds (fields ++ tail) len ∧
      p.payload = { b.header with nodeSequenceNumber := seq }.bytes ++ b.body ∧
      decodeMessage (setMessageSequenceNumber b.build seq) numFds =
        decodeParams { b.header with nodeSequenceNumber := seq } p numFds := by
  obtain ⟨p, hpayload, hp, hdec⟩ := @decodeMessage_build
    { b.header with nodeSequenceNumber := seq } fields rest numFds hsize (by omega)
  rw [hlen, Nat.add_sub_cancel_left] at hp
  refine ⟨p, _, hp, by rw [hbody, hpayload], ?_⟩
  rw [setMessageSequenceNumber_build, hbody, hdec]

theorem decode_fixed (id : UInt8) {fields : List UInt8} {len : Nat}
    (hlen : align8 (8 + fields.length) = 8 + len) (hfit : len < 2 ^ 31) (seq : UInt64)
    (numFds : Nat) :
    ∃ (p : Params) (tail : List UInt8), p.Holds (fields ++ tail) len ∧
      decodeMessage (setMessageSequenceNumber (encodeFixed id fields) seq) numFds =
        decodeParams ⟨24, 0, id, seq, 0⟩ p numFds := by
  obtain ⟨p, tail, hp, -, hdec⟩ := @decode_built ((MessageBuilder.new id).appendParams fields)
    fields [] len (List.append_nil _).symm rfl hlen hfit seq numFds
  exact ⟨p, tail, hp, hdec⟩

section Fixed

attribute [local simp] getU64_skip getU32_skip NodeName.bytes FragmentDescriptor.bytes align8

variable (seq : UInt64)

theorem decode_requestIntroduction (name : NodeName) :
    decodeMessage (setMessageSequenceNumber (encodeRequestIntroduction name) seq) 0 =
      .ok (.requestIntroduction name) := by
  obtain ⟨p, tail, hp, hdec⟩ := @decode_fixed msgIdRequestIntroduction name.bytes 16
    (by simp) (by decide) seq 0
  rw [encodeRequestIntroduction, hdec]
  show (do p.require 16; Except.ok (DecodedMessage.requestIntroduction (← p.node 0))) = _
  simp [hp.require, hp.node]
  rfl

theorem decode_rejectIntroduction (name : NodeName) :
    decodeMessage (setMessageSequenceNumber (encodeRejectIntroduction name) seq) 0 =
      .ok (.rejectIntroduction name) := by
  obtain ⟨p, tail, hp, hdec⟩ := @decode_fixed msgIdRejectIntroduction name.bytes 16
    (by simp) (by decide) seq 0
  rw [encodeRejectIntroduction, hdec]
  show (do p.require 16; Except.ok (DecodedMessage.rejectIntroduction (← p.node 0))) = _
  simp [hp.require, hp.node]
  rfl

theorem decode_requestIndirectIntroduction (source target : NodeName) :
    decodeMessage (setMessageSequenceNumber (encodeRequestIndirectIntroduction source target)
      seq) 0 = .ok (.requestIndirectIntroduction source target) := by
  obtain ⟨p, tail, hp, hdec⟩ := @decode_fixed msgIdRequestIndirectIntroduction
    (source.bytes ++ target.bytes) 32 (by simp) (by decide) seq 0
  rw [encodeRequestIndirectIntroduction, hdec]
  show (do
    p.require 32
    Except.ok (DecodedMessage.requestIndirectIntroduction (← p.node 0) (← p.node 16))) = _
  simp [hp.require, hp.node]
  rfl

theorem decode_routeClosed (sublink length : UInt64) :
    decodeMessage (setMessageSequenceNumber (encodeRouteClosed sublink length) seq) 0 =
      .ok (.routeClosed sublink length) := by
  obtain ⟨p, tail, hp, hdec⟩ := @decode_fixed msgIdRouteClosed (leU64 sublink ++ leU64 length) 16
    (by simp) (by decide) seq 0
  rw [encodeRouteClosed, hdec]
  show (do p.require 16; Except.ok (DecodedMessage.routeClosed (← p.u64 0) (← p.u64 8))) = _
  simp [hp.require, hp.u64]
  rfl

theorem decode_routeDisconnected (sublink : UInt64) :
    decodeMessage (setMessageSequenceNumber (encodeRouteDisconnected sublink) seq) 0 =
      .ok (.routeDisconnected sublink) := by
  obtain ⟨p, tail, hp, hdec⟩ := @decode_fixed msgIdRouteDisconnected (leU64 sublink) 8
    (by simp) (by decide) seq 0
  rw [encodeRouteDisconnected, hdec]
  show (do p.require 8; Except.ok (DecodedMessage.routeDisconnected (← p.u64 0))) = _
  simp [hp.require, hp.u64]
  rfl

theorem decode_bypassPeerWithLink (sublink new length : UInt64) (fragment : FragmentDescriptor) :
    decodeMessage (setMessageSequenceNumber
      (encodeBypassPeerWithLink sublink new fragment length) seq) 0 =
        .ok (.bypassPeerWithLink sublink new fragment length) := by
  obtain ⟨p, tail, hp, hdec⟩ := @decode_fixed msgIdBypassPeerWithLink
    (leU64 sublink ++ (leU64 new ++ (fragment.bytes ++ leU64 length))) 40 (by simp) (by decide)
    seq 0
  rw [encodeBypassPeerWithLink, hdec]
  show (do
    p.require 40
    Except.ok (DecodedMessage.bypassPeerWithLink (← p.u64 0) (← p.u64 8) (← p.frag 16)
      (← p.u64 32))) = _
  simp [hp.require, hp.u64, hp.frag]
  rfl

/-- The decoder takes the low half of the node name for the sublink. -/
theorem decode_bypassPeer (sublink target : UInt64) (node : NodeName) :
    decodeMessage (setMessageSequenceNumber (encodeBypassPeer sublink node target) seq) 0 =
      .ok (.bypassPeer sublink node node.low) := by
  obtain ⟨p, tail, hp, hdec⟩ := @decode_fixed msgIdBypassPeer
    (leU64 sublink ++ (leU64 0 ++ (node.bytes ++ leU64 target))) 40 (by simp) (by decide) seq 0
  rw [encodeBypassPeer, hdec]
  show (do
    p.require 32
    Except.ok (DecodedMessage.bypassPeer (← p.u64 0) (← p.node 16) (← p.u64 24))) = _
  simp [hp.require, hp.u64, hp.node]
  rfl

theorem decode_acceptBypassLink (node : NodeName) (sublink length new : UInt64)
    (fragment : FragmentDescriptor) :
    decodeMessage (setMessageSequenceNumber
      (encodeAcceptBypassLink node sublink length new fragment) seq) 0 =
        .ok (.acceptBypassLink node sublink length new fragment) := by
  obtain ⟨p, tail, hp, hdec⟩ := @decode_fixed msgIdAcceptBypassLink
    (node.bytes ++ (leU64 sublink ++ (leU64 length ++ (leU64 new ++ fragment.bytes)))) 56
    (by simp) (by decide) seq 0
  rw [encodeAcceptBypassLink, hdec]
  show (do
    p.require 48
    Except.ok (DecodedMessage.acceptBypassLink (← p.node 0) (← p.u64 16) (← p.u64 24)
      (← p.u64 32) (← p.frag 40))) = _
  simp [hp.require, hp.u64, hp.node, hp.frag]
  rfl

theorem decode_stopProxying (sublink inbound outbound : UInt64) :
    decodeMessage (setMessageSequenceNumber (encodeStopProxying sublink inbound outbound) seq) 0 =
      .ok (.stopProxying sublink inbound outbound) := by
  obtain ⟨p, tail, hp, hdec⟩ := @decode_fixed msgIdStopProxying
    (leU64 sublink ++ (leU64 inbound ++ leU64 outbound)) 24 (by simp) (by decide) seq 0
  rw [encodeStopProxying, hdec]
  show (do
    p.require 24
    Except.ok (DecodedMessage.stopProxying (← p.u64 0) (← p.u64 8) (← p.u64 16))) = _
  simp [hp.require, hp.u64]
  rfl

theorem decode_proxyWillStop (sublink length : UInt64) :
    decodeMessage (setMessageSequenceNumber (encodeProxyWillStop sublink length) seq) 0 =
      .ok (.proxyWillStop sublink length) := by
  obtain ⟨p, tail, hp, hdec⟩ := @decode_fixed msgIdProxyWillStop
    (leU64 sublink ++ leU64 length) 16 (by simp) (by decide) seq 0
  rw [encodeProxyWillStop, hdec]
  show (do p.require 16; Except.ok (DecodedMessage.proxyWillStop (← p.u64 0) (← p.u64 8))) = _
  simp [hp.require, hp.u64]
  rfl

theorem decode_stopProxyingToLocalPeer (sublink length : UInt64) :
    decodeMessage (setMessageSequenceNumber (encodeStopProxyingToLocalPeer sublink length) seq)
      0 = .ok (.stopProxyingToLocalPeer sublink length) := by
  obtain ⟨p, tail, hp, hdec⟩ := @decode_fixed msgIdStopProxyingToLocalPeer
    (leU64 sublink ++ leU64 length) 16 (by simp) (by decide) seq 0
  rw [encodeStopProxyingToLocalPeer, hdec]
  show (do
    p.require 16
    Except.ok (DecodedMessage.stopProxyingToLocalPeer (← p.u64 0) (← p.u64 8))) = _
  simp [hp.require, hp.u64]
  rfl

theorem decode_flushRouter (sublink : UInt64) :
    decodeMessage (setMessageSequenceNumber (encodeFlushRouter sublink) seq) 0 =
      .ok (.flushRouter sublink) := by
  obtain ⟨p, tail, hp, hdec⟩ := @decode_fixed msgIdFlushRouter (leU64 sublink) 8
    (by simp) (by decide) seq 0
  rw [encodeFlushRouter, hdec]
  show (do p.require 8; Except.ok (DecodedMessage.flushRouter (← p.u64 0))) = _
  simp [hp.require, hp.u64]
  rfl

theorem decode_requestMemory (size : UInt32) :
    decodeMessage (setMessageSequenceNumber (encodeRequestMemory size) seq) 0 =
      .ok (.requestMemory size) := by
  obtain ⟨p, tail, hp, hdec⟩ := @decode_fixed msgIdRequestMemory (leU32 size ++ leU32 0) 8
    (by simp) (by decide) seq 0
  rw [encodeRequestMemory, hdec]
  show (do p.require 8; Except.ok (DecodedMessage.requestMemory (← p.u32 0))) = _
  simp [hp.require, hp.u32]
  rfl

/-! ### Greetings -/

theorem decode_greeting (id : UInt8) (portals : UInt32) (features : UInt64) :
    ∃ p : Params, p.require 8 = .ok () ∧ p.u32 0 = .ok 0 ∧ p.u32 4 = .ok portals ∧
      decodeMessage (setMessageSequenceNumber (encodeGreeting id portals features) seq) 0 =
        decodeParams ⟨24, 0, id, seq, 0⟩ p 0 := by
  have hne : leU64 features ≠ [] := fun h => by
    have hlen := congrArg List.length h
    rw [length_leU64] at hlen
    nomatch hlen
  obtain ⟨p, tail, hp, -, hdec⟩ := @decode_built
    (((MessageBuilder.new id).appendParams (leU32 0 ++ (leU32 portals ++
      leU32 (UInt32.ofNat (align8 (messageHeaderSize + align8 (8 + 12)))))))
      |>.appendArray (leU64 features) 1).1
    (leU32 0 ++ (leU32 portals ++ leU32 (UInt32.ofNat (align8 (messageHeaderSize +
      align8 (8 + 12)))))) (arrayBytes (leU64 features) 1) 16
    (by rw [appendArray_eq hne]; rfl) (by rw [appendArray_eq hne]; rfl) (by simp) (by decide)
    seq 0
  refine ⟨p, hp.require (by decide), ?_, ?_, ?_⟩
  · simp [hp.u32]
  · simp [hp.u32]
  · rw [encodeGreeting, hdec, appendArray_eq hne]
    rfl

theorem decode_connectFromNonBrokerToBroker (portals : UInt32) (features : UInt64) :
    decodeMessage (setMessageSequenceNumber
      (encodeConnectFromNonBrokerToBroker portals features) seq) 0 =
        .ok (.connectFromNonBrokerToBroker 0 portals) := by
  obtain ⟨p, hrequire, hversion, hportals, hdec⟩ :=
    decode_greeting seq msgIdConnectFromNonBrokerToBroker portals features
  rw [encodeConnectFromNonBrokerToBroker, hdec]
  show (do
    p.require 8
    Except.ok (DecodedMessage.connectFromNonBrokerToBroker (← p.u32 0) (← p.u32 4))) = _
  rw [hrequire, hversion, hportals]
  rfl

theorem decode_connectToReferredBroker (portals : UInt32) (features : UInt64) :
    decodeMessage (setMessageSequenceNumber
      (encodeConnectToReferredBroker portals features) seq) 0 =
        .ok (.connectToReferredBroker 0 portals) := by
  obtain ⟨p, hrequire, hversion, hportals, hdec⟩ :=
    decode_greeting seq msgIdConnectToReferredBroker portals features
  rw [encodeConnectToReferredBroker, hdec]
  show (do
    p.require 8
    Except.ok (DecodedMessage.connectToReferredBroker (← p.u32 0) (← p.u32 4))) = _
  rw [hrequire, hversion, hportals]
  rfl

end Fixed

/-! ### Messages with driver objects -/

/-- Driver objects behind the parameters, and whatever else is in front of them. -/
theorem decode_objects {b : MessageBuilder} {fields rest : List UInt8} {len : Nat}
    {driverData : List (List UInt8)} (hbody : b.body = paramsBytes fields ++ rest)
    (hsize : b.header.size = 24) (harray : b.header.driverObjectDataArray = 0)
    (hlen : align8 (8 + fields.length) = 8 + len) (hfit : len < 2 ^ 31)
    (hsmall : (b.appendDriverObjects driverData).build.length + 8 * driverData.length < 2 ^ 32)
    (seq : UInt64) :
    ∃ (hdr : MessageHeader) (p : Params) (tail : List UInt8),
      hdr.messageId = b.header.messageId ∧ p.Holds (fields ++ tail) len ∧
      p.payload = (hdr.bytes ++ b.body) ++ objectBytes b.payloadLen driverData ∧
      (readDriverObjects p.payload hdr driverData.length = .ok (driverRefs 0 driverData) ↔
        EmptyLast driverData ∧ driverData.length ≤ 65536) ∧
      decodeMessage (setMessageSequenceNumber (b.appendDriverObjects driverData).build seq)
        driverData.length = decodeParams hdr p driverData.length := by
  -- the objects come behind the body and the header points at them
  have happ := appendDriverObjects_eq b driverData
  obtain ⟨p, tail, hp, hpayload, hdec⟩ := @decode_built (b.appendDriverObjects driverData)
    fields (rest ++ objectBytes b.payloadLen driverData) len
    (by rw [happ, hbody, List.append_assoc]) (by rw [happ]; exact hsize) hlen hfit seq
    driverData.length
  refine ⟨_, p, tail, ?_, hp, ?_, ?_, hdec⟩
  · rw [happ]
  · rw [hpayload, happ, List.append_assoc]
  -- the header does not change its length, so the objects are where it says
  · have hpre : ∀ hdr : MessageHeader, (hdr.bytes ++ b.body).length = b.payloadLen := by
      intro hdr
      rw [List.length_append, length_headerBytes]
      rfl
    have hcount : (b.appendDriverObjects driverData).build.length =
        b.payloadLen + (objectBytes b.payloadLen driverData).length := by
      rw [build_eq, happ, ← List.append_assoc, List.length_append, hpre]
    have hpos : 0 < b.payloadLen := Nat.lt_of_lt_of_le (by decide) (Nat.le_add_right 24 _)
    rw [hpayload, happ, ← List.append_assoc]
    have hiff := @readDriverObjects_iff
      ({ b.header with
          nodeSequenceNumber := seq
          driverObjectDataArray :=
            if driverData = [] then b.header.driverObjectDataArray
            else UInt32.ofNat b.payloadLen : MessageHeader }.bytes ++ b.body) driverData
      { b.header with
          nodeSequenceNumber := seq
          driverObjectDataArray :=
            if driverData = [] then b.header.driverObjectDataArray
            else UInt32.ofNat b.payloadLen }
      (by rw [hpre]; exact hpos) (by rw [hpre, harray])
      (by rw [hpre, List.length_append, hpre, ← hcount]; exact hsmall)
    rw [hpre] at hiff
    exact hiff

section Objects

attribute [local simp] getU64_skip getU32_skip NodeName.bytes align8

variable (seq : UInt64)

/-- One object is always found. -/
theorem decode_oneObject {id : UInt8} {fields object : List UInt8} {len : Nat}
    (hlen : align8 (8 + fields.length) = 8 + len) (hfit : len < 2 ^ 31)
    (hsmall : (encodeWithObjects id fields [object]).length + 8 < 2 ^ 32) :
    ∃ (hdr : MessageHeader) (p : Params) (tail : List UInt8),
      hdr.messageId = id ∧ p.Holds (fields ++ tail) len ∧
      readDriverObjects p.payload hdr 1 = .ok [⟨object, 0, 1⟩] ∧
      decodeMessage (setMessageSequenceNumber (encodeWithObjects id fields [object]) seq) 1 =
        decodeParams hdr p 1 := by
  obtain ⟨hdr, p, tail, hid, hp, -, hiff, hdec⟩ :=
    @decode_objects ((MessageBuilder.new id).appendParams fields) fields [] len [object]
      (List.append_nil _).symm rfl rfl hlen hfit hsmall seq
  exact ⟨hdr, p, tail, hid, hp, hiff.mpr ⟨List.pairwise_singleton _ _, Nat.le_of_ble_eq_true rfl⟩,
    hdec⟩

theorem decode_referNonBroker (id : UInt64) (portals : UInt32) (transport : List UInt8)
    (hsmall : (encodeReferNonBroker id portals transport).length + 8 < 2 ^ 32) :
    decodeMessage (setMessageSequenceNumber (encodeReferNonBroker id portals transport) seq) 1 =
      .ok (.referNonBroker id portals 0) := by
  obtain ⟨⟨size, version, _, sequence, array⟩, p, tail, rfl, hp, hobjects, hdec⟩ :=
    @decode_oneObject seq msgIdReferNonBroker (leU64 id ++ (leU32 portals ++ leU32 0)) transport 16
      (by simp) (by decide) hsmall
  rw [encodeReferNonBroker, hdec]
  show (do
    p.require 16
    let driverObjects ← readDriverObjects p.payload _ 1
    let m := DecodedMessage.referNonBroker (← p.u64 0) (← p.u32 8) (← p.u32 12)
    Except.ok (m.withObjectsCheck (driverObjects.length == 1))) = _
  rw [hobjects]
  simp [hp.require, hp.u64, hp.u32]
  rfl

theorem decode_addBlockBuffer (id : UInt64) (blockSize index size : UInt32)
    (hsmall : (encodeAddBlockBuffer id blockSize index size).length + 8 < 2 ^ 32) :
    decodeMessage (setMessageSequenceNumber (encodeAddBlockBuffer id blockSize index size) seq)
      1 = .ok (.addBlockBuffer id blockSize index) := by
  obtain ⟨⟨size', version, _, sequence, array⟩, p, tail, rfl, hp, hobjects, hdec⟩ :=
    @decode_oneObject seq msgIdAddBlockBuffer (leU64 id ++ (leU32 blockSize ++ leU32 index))
      (encodeSharedBufferObject size id) 16 (by simp) (by decide) hsmall
  rw [encodeAddBlockBuffer, hdec]
  show (do
    p.require 16
    let driverObjects ← readDriverObjects p.payload _ 1
    let m := DecodedMessage.addBlockBuffer (← p.u64 0) (← p.u32 8) (← p.u32 12)
    Except.ok (m.withObjectsCheck (driverObjects.length == 1))) = _
  rw [hobjects]
  simp [hp.require, hp.u64, hp.u32]
  rfl

theorem decode_provideMemory (size : UInt32)
    (hsmall : (encodeProvideMemory size).length + 8 < 2 ^ 32) :
    decodeMessage (setMessageSequenceNumber (encodeProvideMemory size) seq) 1 =
      .ok (.provideMemory size) := by
  obtain ⟨⟨size', version, _, sequence, array⟩, p, tail, rfl, hp, hobjects, hdec⟩ :=
    @decode_oneObject seq msgIdProvideMemory (leU32 size ++ leU32 0)
      (encodeSharedBufferObject size size.toUInt64) 8 (by simp) (by decide) hsmall
  rw [encodeProvideMemory, hdec]
  show (do
    p.require 8
    let driverObjects ← readDriverObjects p.payload _ 1
    let buffer ← p.u32 4
    if buffer ≠ 0 ∨ !singleObject driverObjects then Except.error WireError.badDriverObjects
    else Except.ok (DecodedMessage.provideMemory (← p.u32 0))) = _
  rw [hobjects]
  simp [hp.require, hp.u32, singleObject]
  rfl

/-- The two single-byte fields of an introduction. -/
theorem sideType_bytes (side type : UInt8) (bs : List UInt8) :
    getU32 ([side, type, 0, 0] ++ bs) 0 &&& 0xff = side.toUInt32 ∧
      (getU32 ([side, type, 0, 0] ++ bs) 0 >>> 8) &&& 0xff = type.toUInt32 := by
  have hside := side.toNat_lt
  have htype := type.toNat_lt
  have hread : readLE ([side, type, 0, 0] ++ bs) 0 4 = side.toNat + 256 * type.toNat := by
    show side.toNat + 256 * (type.toNat + 256 * (0 + 256 * (0 + 256 * 0))) = _
    omega
  have hvalue : (getU32 ([side, type, 0, 0] ++ bs) 0).toNat = side.toNat + 256 * type.toNat := by
    rw [getU32, hread, toNat_ofNat_of_lt (by omega)]
  have hmask : (0xff : UInt32).toNat = 2 ^ 8 - 1 := rfl
  constructor
  · apply UInt32.toNat_inj.mp
    rw [UInt32.toNat_and, hvalue, hmask, Nat.and_two_pow_sub_one_eq_mod, UInt8.toNat_toUInt32]
    omega
  · apply UInt32.toNat_inj.mp
    have hshift : (8 : UInt32).toNat % 32 = 8 := rfl
    rw [UInt32.toNat_and, UInt32.toNat_shiftRight, hvalue, hmask, hshift,
      Nat.and_two_pow_sub_one_eq_mod, UInt8.toNat_toUInt32, Nat.shiftRight_eq_div_pow]
    omega

/-- The parameters of an introduction. -/
def introductionFields (name : NodeName) (side type : UInt8) (version : UInt32) : List UInt8 :=
  (name.bytes ++ ([side, type, 0, 0] ++ (leU32 version ++ (leU32 0 ++ leU32 1)))) ++
    leU32 (UInt32.ofNat 72)

/-- The objects of an introduction come back unless only the first is empty. -/
theorem decode_acceptIntroduction (name : NodeName) (side type : UInt8) (version : UInt32)
    (transport memory : List UInt8)
    (hsmall : (encodeAcceptIntroduction name side type version transport memory).length + 16 <
      2 ^ 32) :
    decodeMessage (setMessageSequenceNumber
        (encodeAcceptIntroduction name side type version transport memory) seq) 2 =
      .ok (.acceptIntroduction name side.toUInt32 type.toUInt32 version 0 1
        (driverRefs 0 [transport, memory])) ↔
    (transport = [] → memory = []) := by
  have hencode : encodeAcceptIntroduction name side type version transport memory =
      ((((MessageBuilder.new msgIdAcceptIntroduction).appendParams
        (introductionFields name side type version)).appendArray (leU64 0) 1).1.appendDriverObjects
          [transport, memory]).build := by
    rw [encodeAcceptIntroduction, introductionFields]
    simp [messageHeaderSize]
  have hne : leU64 0 ≠ [] := by
    intro h
    cases congrArg List.length h
  rw [hencode, appendArray_eq hne] at hsmall ⊢
  obtain ⟨⟨size, hversion, _, sequence, array⟩, p, tail, rfl, hp, -, hiff, hdec⟩ :=
    @decode_objects _ (introductionFields name side type version) (arrayBytes (leU64 0) 1) 40
      [transport, memory] rfl rfl rfl (by simp [introductionFields]) (by decide) hsmall seq
  -- two objects: empty ones come last unless only the first is empty
  have hempty : EmptyLast [transport, memory] ∧ [transport, memory].length ≤ 65536 ↔
      (transport = [] → memory = []) := by
    rw [EmptyLast, List.pairwise_pair]
    exact and_iff_left (Nat.le_of_ble_eq_true rfl)
  rw [← hempty, ← hiff]
  show decodeMessage _ [transport, memory].length = _ ↔ _
  rw [hdec]
  show (do
    p.require 32
    let driverObjects ← readDriverObjects p.payload _ 2
    let sideType ← p.u32 16
    Except.ok (DecodedMessage.acceptIntroduction (← p.node 0) (sideType &&& 0xff)
      ((sideType >>> 8) &&& 0xff) (← p.u32 20) (← p.u32 24) (← p.u32 28) driverObjects)) = _ ↔
    readDriverObjects p.payload _ 2 = _
  -- the parameters come back, the two sides share a word
  have hside : p.u32 16 = .ok (getU32 ([side, type, 0, 0] ++ (leU32 version ++ (leU32 0 ++
      (leU32 1 ++ (leU32 (UInt32.ofNat 72) ++ tail))))) 0) := by
    rw [hp.u32 (by decide), introductionFields]
    simp
  have hname : p.node 0 = .ok name := by
    rw [hp.node (by decide), introductionFields]
    simp
  have hskip : ∀ bs k, 4 ≤ k → getU32 (side :: type :: 0 :: 0 :: bs) k = getU32 bs (k - 4) :=
    fun bs k h => @getU32_skip [side, type, 0, 0] bs k h
  have hfields : p.u32 20 = .ok version ∧ p.u32 24 = .ok 0 ∧ p.u32 28 = .ok 1 := by
    refine ⟨?_, ?_, ?_⟩
    all_goals
      rw [hp.u32 (by decide), introductionFields]
      simp [hskip]
  obtain ⟨hlink, hnode⟩ := sideType_bytes side type (leU32 version ++ (leU32 0 ++
      (leU32 1 ++ (leU32 (UInt32.ofNat 72) ++ tail))))
  rw [hp.require (by decide), hside, hname, hfields.1, hfields.2.1, hfields.2.2]
  -- what is left is whether the objects come back
  cases readDriverObjects p.payload _ 2 with
  | error e =>
      constructor
      · intro h
        cases h
      · intro h
        cases h
  | ok objects =>
      show Except.ok (DecodedMessage.acceptIntroduction name _ _ version 0 1 objects) = _ ↔ _
      rw [hlink, hnode]
      constructor
      · intro h
        injection Except.ok.inj h with _ _ _ _ _ _ hobjects
        rw [hobjects]
      · intro h
        rw [Except.ok.inj h]

end Objects

/-! ### All messages -/

/-- A message arrives if and only if it is not one of the two exceptions. -/
theorem decode_iff (m : NodeMessage) (seq : UInt64)
    (hsmall : m.encode.length + 8 * m.numFds < 2 ^ 32) :
    decodeMessage (setMessageSequenceNumber m.encode seq) m.numFds = .ok m.decoded ↔
      m.Arrives := by
  cases m with
  | connectFromNonBrokerToBroker portals features =>
      exact iff_of_true (decode_connectFromNonBrokerToBroker seq portals features) trivial
  | connectToReferredBroker portals features =>
      exact iff_of_true (decode_connectToReferredBroker seq portals features) trivial
  | referNonBroker id portals transport =>
      exact iff_of_true (decode_referNonBroker seq id portals transport hsmall) trivial
  | requestIntroduction name => exact iff_of_true (decode_requestIntroduction seq name) trivial
  | acceptIntroduction name side type version transport memory =>
      exact decode_acceptIntroduction seq name side type version transport memory hsmall
  | rejectIntroduction name => exact iff_of_true (decode_rejectIntroduction seq name) trivial
  | requestIndirectIntroduction source target =>
      exact iff_of_true (decode_requestIndirectIntroduction seq source target) trivial
  | addBlockBuffer id blockSize index size =>
      exact iff_of_true (decode_addBlockBuffer seq id blockSize index size hsmall) trivial
  | routeClosed sublink length => exact iff_of_true (decode_routeClosed seq sublink length) trivial
  | routeDisconnected sublink => exact iff_of_true (decode_routeDisconnected seq sublink) trivial
  | bypassPeerWithLink sublink new fragment length =>
      exact iff_of_true (decode_bypassPeerWithLink seq sublink new length fragment) trivial
  | bypassPeer sublink node target =>
      show decodeMessage (setMessageSequenceNumber (encodeBypassPeer sublink node target) seq) 0 =
        .ok (.bypassPeer sublink node target) ↔ target = node.low
      rw [decode_bypassPeer]
      constructor
      · intro h
        injection Except.ok.inj h with _ _ htarget
        exact htarget.symm
      · intro h
        rw [h]
  | acceptBypassLink node sublink length new fragment =>
      exact iff_of_true (decode_acceptBypassLink seq node sublink length new fragment) trivial
  | stopProxying sublink inbound outbound =>
      exact iff_of_true (decode_stopProxying seq sublink inbound outbound) trivial
  | proxyWillStop sublink length =>
      exact iff_of_true (decode_proxyWillStop seq sublink length) trivial
  | stopProxyingToLocalPeer sublink length =>
      exact iff_of_true (decode_stopProxyingToLocalPeer seq sublink length) trivial
  | flushRouter sublink => exact iff_of_true (decode_flushRouter seq sublink) trivial
  | requestMemory size => exact iff_of_true (decode_requestMemory seq size) trivial
  | provideMemory size => exact iff_of_true (decode_provideMemory seq size hsmall) trivial

/-- A message comes back with exactly its arguments if and only if it arrives and
none of them is lost. -/
theorem codec_iff (m : NodeMessage) (seq : UInt64)
    (hsmall : m.encode.length + 8 * m.numFds < 2 ^ 32) :
    decodeMessage (setMessageSequenceNumber m.encode seq) m.numFds = .ok m.decoded ∧
        m.decoded.arguments = some m ↔
      m.Understood := by
  rw [decode_iff m seq hsmall]
  constructor
  · rintro ⟨harrives, harguments⟩
    exact (m.arguments_decoded harrives).mp harguments
  · intro h
    exact ⟨h.arrives, (m.arguments_decoded h.arrives).mpr h⟩

/-- An introduction with two objects. -/
def twoObjects : NodeMessage := .acceptIntroduction ⟨1, 2⟩ 1 1 0 [7] [8, 9]

theorem codec_twoObjects :
    decodeMessage (setMessageSequenceNumber twoObjects.encode 5) 2 =
        .ok (.acceptIntroduction ⟨1, 2⟩ 1 1 0 0 1 [⟨[7], 0, 1⟩, ⟨[8, 9], 1, 1⟩]) ∧
      twoObjects.decoded.arguments = some twoObjects := by
  have hlen : twoObjects.encode.length = 144 := rfl
  have hfds : twoObjects.numFds = 2 := rfl
  have hsmall : twoObjects.encode.length + 8 * twoObjects.numFds < 2 ^ 32 := by
    rw [hlen, hfds]
    decide
  have hunderstood : twoObjects.Understood := fun h => nomatch h
  exact (codec_iff twoObjects 5 hsmall).mpr hunderstood

/-- A request to bypass a peer for sublink 4 arrives as one for sublink 3, the low
half of the node name; an introduction without a transport object does not
arrive with its memory object; and the features of a connect reply do not arrive. -/
theorem codec_fails :
    decodeMessage (setMessageSequenceNumber (encodeBypassPeer 1 ⟨2, 3⟩ 4) 0) 0 =
        .ok (.bypassPeer 1 ⟨2, 3⟩ 3) ∧
      decodeMessage (setMessageSequenceNumber (encodeBypassPeer 1 ⟨2, 3⟩ 4) 0) 0 ≠
        .ok (.bypassPeer 1 ⟨2, 3⟩ 4) ∧
      decodeMessage (setMessageSequenceNumber
        (encodeAcceptIntroduction ⟨1, 2⟩ 1 1 0 [] [8, 9]) 0) 2 ≠
          .ok (.acceptIntroduction ⟨1, 2⟩ 1 1 0 0 1 [⟨[], 0, 1⟩, ⟨[8, 9], 1, 1⟩]) ∧
      ∀ d, decodeMessage (setMessageSequenceNumber
        (encodeConnectFromNonBrokerToBroker 1 5) 0) 0 = .ok d →
          d.arguments ≠ some (.connectFromNonBrokerToBroker 1 5) := by
  have hdec : decodeMessage (setMessageSequenceNumber (encodeBypassPeer 1 ⟨2, 3⟩ 4) 0) 0 =
      .ok (.bypassPeer 1 ⟨2, 3⟩ 3) := decode_bypassPeer 0 1 4 ⟨2, 3⟩
  have hlen : (encodeAcceptIntroduction ⟨1, 2⟩ 1 1 0 [] [8, 9]).length = 128 := rfl
  refine ⟨hdec, fun h => ?_, fun h => ?_, fun d hd h => ?_⟩
  · injection Except.ok.inj (hdec.symm.trans h) with _ _ htarget
    exact absurd htarget (by decide)
  · have hmemory := (decode_acceptIntroduction 0 ⟨1, 2⟩ 1 1 0 [] [8, 9]
      (by rw [hlen]; decide)).mp h
    nomatch hmemory rfl
  · obtain rfl := Except.ok.inj ((decode_connectFromNonBrokerToBroker 0 1 5).symm.trans hd)
    injection Option.some.inj h with _ hfeatures
    exact absurd hfeatures (by decide)

end MojoRs.Ipcz
