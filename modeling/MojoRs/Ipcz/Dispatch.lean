/-
MojoRs/Ipcz/Dispatch.lean

The routing node and its messages (`dispatch` in `routing.rs`): how a parcel
is assembled, deferred or routed, how a router is made from a descriptor, and
what else arrives on a link.

`RoutingAcceptor` adds to the routing tables what only these functions touch:
the parcels for sublinks without a router yet, the parcels whose data lies in
a buffer not received yet, the descriptors held for the life of the process,
and as a ghost the routers adopted so far, with the tables they came into.
Messages of the handshakes and of the broker's role are left out.
-/
import MojoRs.Ipcz.RouterOps

namespace MojoRs.Ipcz

open Function (update)
open Lib

/-! ### The node -/

/-- The adoption of sublinks that a peer names: by the descriptor of a new
router, or as the new outward link of router `rid`. -/
inductive Adoption
  | deserialize (linkId : Nat) (d : RouterDescriptor)
  | centralLink (linkId newSublink rid : Nat)

/-- The routing node. -/
structure RoutingAcceptor where
  info : NodeInfo
  tables : RouteTables
  earlyParcels : Nat × Nat → List ParcelMessage
  pendingFragments : Nat × UInt64 → List (ParcelMessage × List OwnedFd × Nat)
  heldDriverFds : List OwnedFd
  adoptions : List (Adoption × RouteTables × RouteTables)

/-- The dispatcher over the node's state. -/
abbrev AcceptorM := EStateM RoutingError RoutingAcceptor

/-- Work on the routing tables. -/
def inTables {α : Type} (f : NodeInfo → RouteM α) : AcceptorM α := fun s =>
  match f s.info s.tables with
  | .ok a t => .ok a { s with tables := t }
  | .error e t => .error e { s with tables := t }

/-- Note an adoption that turned the tables `before` into those of now. -/
def logAdoption (a : Adoption) (before : RouteTables) : AcceptorM Unit :=
  modify fun s => { s with adoptions := s.adoptions ++ [(a, before, s.tables)] }

namespace RoutingAcceptor

/-- A node without routers, with the links `ids`. -/
def fresh (ids : List Nat) : RoutingAcceptor where
  info := .ofLinks ids
  tables := .fresh
  earlyParcels := fun _ => []
  pendingFragments := fun _ => []
  heldDriverFds := []
  adoptions := []

/-- Keep a parcel for a sublink without a router. -/
def pushEarlyParcel (s : RoutingAcceptor) (key : Nat × Nat) (p : ParcelMessage) :
    RoutingAcceptor :=
  { s with earlyParcels := update s.earlyParcels key (s.earlyParcels key ++ [p]) }

/-- Keep a parcel for a buffer that is not registered. -/
def deferParcel (s : RoutingAcceptor) (key : Nat × UInt64)
    (entry : ParcelMessage × List OwnedFd × Nat) : RoutingAcceptor :=
  { s with pendingFragments := update s.pendingFragments key (s.pendingFragments key ++ [entry]) }

/-- A link's buffer registry, changed. -/
def setRegistry (s : RoutingAcceptor) (linkId : Nat) (reg : BufferRegistry) : RoutingAcceptor :=
  { s with
    info := { s.info with
      links := update s.info.links linkId
        ((s.info.links linkId).map fun l => { l with memory := some reg }) } }

end RoutingAcceptor

/-- Remove the early parcels of a sublink. -/
def takeEarlyParcels (key : Nat × Nat) : AcceptorM (List ParcelMessage) := do
  let queued := (← get).earlyParcels key
  modify fun s => { s with earlyParcels := update s.earlyParcels key [] }
  pure queued

/-- Remove the early parcels of some sublinks of a link, in this order. -/
def takeEarly (linkId : Nat) : List Nat → AcceptorM (List ParcelMessage)
  | [] => pure []
  | sublink :: sublinks => do
      let queued ← takeEarlyParcels (linkId, sublink)
      let rest ← takeEarly linkId sublinks
      pure (queued ++ rest)

/-! ### New routers -/

namespace RouterDescriptor

/-- The sublink of the decaying link, if the proxy is bypassed already. -/
def decaying (d : RouterDescriptor) : Option Nat :=
  if d.proxyAlreadyBypassed then some d.newDecayingSublink else none

/-- The sublinks that a descriptor names. -/
def sublinks (d : RouterDescriptor) : List Nat := d.newSublink :: d.decaying.toList

/-- The outward edge of the new router. -/
def outwardEdge (d : RouterDescriptor) (linkId : Nat) : Edge :=
  match d.decaying with
  | some decaying =>
      ((((Edge.empty.setPrimaryLink (.remote linkId decaying .peripheralOutward .b none)).beginDecay
        ).setLengthToDecayingLink d.nextOutgoingSequenceNumber).setLengthFromDecayingLink
          (if d.decayingIncomingSequenceLength > 0 then d.decayingIncomingSequenceLength
            else d.nextIncomingSequenceNumber)).setPrimaryLink
        (.remote linkId d.newSublink .central .b (some d.newLinkStateFragment))
  | none =>
      Edge.empty.setPrimaryLink (.remote linkId d.newSublink .peripheralOutward .b none)

/-- The new router, if the lengths of its descriptor go together. -/
def toRouter (d : RouterDescriptor) (linkId : Nat) : Option Router :=
  let inbound := ParcelQueue.resetSequence d.nextIncomingSequenceNumber
  let r : Router :=
    { Router.bare with
      outward := d.outwardEdge linkId
      inbound
      outbound := ParcelQueue.resetSequence d.nextOutgoingSequenceNumber }
  if d.peerClosed then
    (inbound.setFinalSequenceLength d.closedPeerSequenceLength).map fun inbound =>
      { r with inbound, peerClosed := true }
  else some r

end RouterDescriptor

/-- The new router and its sublinks in the tables. -/
def RouteTables.adopt (s : RouteTables) (linkId : Nat) (d : RouterDescriptor) (r : Router) :
    RouteTables :=
  (d.sublinks.foldl (fun s sublink => s.setOwner (linkId, sublink) d.newSublink) s).setRouter
    d.newSublink r

/-- The checks of `router_deserialize` on a descriptor. -/
def checkDescriptor (d : RouterDescriptor) (linkId : Nat) (info : NodeInfo) : RouteM Unit := do
  if d.newSublink = bootstrapSublink ∨ d.decaying = some d.newSublink ∨
      d.decaying = some bootstrapSublink then
    throw (.badParcel "invalid sublink ids in descriptor")
  if d.decaying.isSome then
    if d.newLinkStateFragment.isNull then throw (.badParcel "central link without link state")
    let reg ← memoryFor info linkId
    liftMemory (reg.fragment d.newLinkStateFragment)
  else if !d.newLinkStateFragment.isNull then
    throw (.badParcel "peripheral link with link state")

section Flush

variable (flush : NodeInfo → Nat → Bool → RouteM Unit)

/-- The new router of a descriptor, before its early parcels. -/
def adoptRouter (d : RouterDescriptor) (linkId : Nat) : AcceptorM Unit := do
  inTables (checkDescriptor d linkId)
  match d.toRouter linkId with
  | none => throw (.badParcel "invalid closed peer sequence length")
  | some r =>
      let before := (← get).tables
      modify fun s => { s with tables := s.tables.adopt linkId d r }
      logAdoption (.deserialize linkId d) before

/-- The end of `router_deserialize`. -/
def startRouter (d : RouterDescriptor) (linkId : Nat) : AcceptorM Unit := do
  if d.proxyPeerNodeName.isValid then
    inTables fun info =>
      routerBypassPeer info (flush info) d.newSublink linkId d.proxyPeerNodeName d.proxyPeerSublink
  inTables fun info => flush info d.newSublink false

/-- What a pass over a parcel returns: its data and the new portals. -/
structure ProcessedParcel where
  payload : List UInt8
  identities : List Nat
  deriving DecidableEq, Repr

variable (process : ParcelMessage → List OwnedFd → Nat → AcceptorM ProcessedParcel)

/-- Replay early parcels, without the descriptors they came with. -/
def replayEarlyParcels (linkId : Nat) (early : List ParcelMessage) : AcceptorM Unit :=
  early.forM fun p => do
    let _ ← process p [] linkId

/-- `router_deserialize`. -/
def routerDeserialize (d : RouterDescriptor) (linkId : Nat) : AcceptorM Nat := do
  adoptRouter d linkId
  let early ← takeEarly linkId d.sublinks
  replayEarlyParcels process linkId early
  startRouter flush d linkId
  pure d.newSublink

/-- The loop of `deserialize_portals`. -/
def deserializeAll (linkId : Nat) : List RouterDescriptor → AcceptorM (List Nat)
  | [] => pure []
  | d :: ds => do
      let rid ← routerDeserialize flush process d linkId
      let rids ← deserializeAll linkId ds
      pure (rid :: rids)

/-- `deserialize_portals`. -/
def deserializePortals (p : ParcelMessage) (linkId : Nat) : AcceptorM (List Nat) :=
  if p.newRouters.length ≠ p.handleTypes.count handleTypePortal then
    throw (.badParcel "portal count mismatch")
  else deserializeAll flush process linkId p.newRouters

/-! ### Parcels -/

/-- `parcel_data`. -/
def parcelData (info : NodeInfo) (memories : Nat → SharedMemory) (p : ParcelMessage)
    (linkId : Nat) : Except RoutingError (List UInt8) :=
  if p.parcelFragment.isNull then .ok p.parcelData
  else do
    let reg ← registryFor info linkId
    ((memories linkId).readParcelFragment reg p.parcelFragment).mapError .memory

/-- The loop over the handle types: the objects for the router, the driver
objects that are left over, and whether the parcel is split.  The descriptors
of a driver object are taken out of the list and held. -/
def claimObjects : List UInt32 → List Nat → List DriverObjectRef → List OwnedFd →
    AcceptorM (List Object × List DriverObjectRef × Bool)
  | [], _, refs, _ => pure ([], refs, false)
  | ht :: handleTypes, identities, refs, fds =>
      if ht = handleTypePortal then
        match identities with
        | [] => throw (.badParcel "missing router descriptor")
        | rid :: identities => do
            let (objects, rest) ← claimObjects handleTypes identities refs fds
            pure (.router rid :: objects, rest)
      else if ht = handleTypeBoxedDriverObject then
        match refs with
        | [] => throw (.badParcel "missing driver object")
        | obj :: refs => do
            if fds.length < obj.firstFd + obj.numFds then
              throw (.badParcel "driver object fd range")
            modify fun s => { s with
              heldDriverFds := s.heldDriverFds ++ (fds.drop obj.firstFd).take obj.numFds }
            claimObjects handleTypes identities refs
              (fds.take obj.firstFd ++ fds.drop (obj.firstFd + obj.numFds))
      else if ht = handleTypeRelayedBoxedDriverObject then do
        let (objects, refs, _) ← claimObjects handleTypes identities refs fds
        pure (objects, refs, true)
      else if ht = handleTypeBoxedSubparcel then
        throw (.unsupported msgIdAcceptParcel
          "boxed subparcels not exercised by the routing court")
      else throw (.badParcel "unknown handle type")

/-- The objects of a parcel, all of its driver objects claimed. -/
def assembleObjects (p : ParcelMessage) (identities : List Nat) (fds : List OwnedFd) :
    AcceptorM (List Object) := do
  let (objects, unclaimed, isSplit) ← claimObjects p.handleTypes identities p.driverObjects fds
  if !unclaimed.isEmpty then throw (.badParcel "unclaimed driver objects")
  if isSplit then
    throw (.unsupported msgIdAcceptParcel "split parcels not exercised by the routing court")
  pure objects

/-- Queue a parcel at the router that owns its sublink. -/
def acceptAt (rid linkId : Nat) (p : ParcelMessage) (payload : List UInt8)
    (objects : List Object) : RouteM Unit := do
  let r ← getRouter rid "parcel for unknown router"
  let onOutward := r.outward.on linkId p.sublink
  if !onOutward && !r.inward.any (·.on linkId p.sublink) then
    throw (.badParcel "parcel for unbound sublink")
  let parcel : Parcel := ⟨p.sequenceNumber, payload, objects, none⟩
  match if onOutward then r.acceptInbound parcel else r.acceptOutbound parcel with
  | none => throw (.badParcel "route sequence gap or duplicate")
  | some r => putRouter rid r

/-- The end of `process_accept_parcel`: route the parcel, or keep it for a
router to come. -/
def routeParcel (p : ParcelMessage) (linkId : Nat) (payload : List UInt8)
    (objects : List Object) : AcceptorM Unit := do
  match (← get).tables.owners (linkId, p.sublink) with
  | none => modify (·.pushEarlyParcel (linkId, p.sublink) p)
  | some rid =>
      inTables fun _ => acceptAt rid linkId p payload objects
      inTables fun info => flush info rid false

/-- The pass over a parcel whose data is there. -/
def acceptParcel (p : ParcelMessage) (fds : List OwnedFd) (linkId : Nat)
    (payload : List UInt8) : AcceptorM ProcessedParcel := do
  let identities ← deserializePortals flush process p linkId
  let objects ← assembleObjects p identities fds
  routeParcel flush p linkId payload objects
  pure ⟨payload, identities⟩

/-- `process_accept_parcel`, with nested parcels processed by `process`. -/
def processAcceptParcelWith (p : ParcelMessage) (fds : List OwnedFd) (linkId : Nat) :
    AcceptorM ProcessedParcel := do
  if p.numSubparcels = 0 ∨ p.numSubparcels ≤ p.subparcelIndex ∨ 16 < p.numSubparcels then
    throw (.badParcel "invalid subparcel bounds")
  if 1 < p.numSubparcels then
    throw (.unsupported msgIdAcceptParcel
      "multi-subparcel parcels not exercised by the routing court")
  let s ← get
  match parcelData s.info s.tables.memories p linkId with
  | .ok payload => acceptParcel flush process p fds linkId payload
  | .error (.memory .unknownBuffer) =>
      modify (·.deferParcel (linkId, p.parcelFragment.bufferId) (p, fds, linkId))
      pure ⟨[], []⟩
  | .error e => throw e

end Flush

/-- `process_accept_parcel`, with at most `depth` passes and flushes nested in
one another. -/
def processAcceptParcel : Nat → ParcelMessage → List OwnedFd → Nat → AcceptorM ProcessedParcel
  | 0, _, _, _ => throw .depth
  | depth + 1, p, fds, linkId =>
      processAcceptParcelWith (fun info => routerFlush info depth) (processAcceptParcel depth) p fds
        linkId

/-! ### Other messages -/

section Messages

variable (depth : Nat)

/-- Replay the parcels that waited for a buffer. -/
def resolveParcels (queued : List (ParcelMessage × List OwnedFd × Nat)) : AcceptorM Unit :=
  queued.forM fun (p, fds, linkId) => do
    let _ ← processAcceptParcel depth p fds linkId

/-- `AddBlockBuffer` in `dispatch`. -/
def onAddBlockBuffer (bufferId : UInt64) (blockSize bufferIndex : Nat) (fds : List OwnedFd)
    (linkId : Nat) : AcceptorM Unit := do
  match fds[bufferIndex]? with
  | none => throw (.badParcel "AddBlockBuffer index out of range")
  | some fd =>
      -- `memory_mut` is the memory of the broker link
      let reg ← inTables fun info => memoryFor info linkIdBroker
      match reg.addBlockBuffer bufferId fd.size blockSize with
      | .error e => throw (.io e)
      | .ok reg =>
          modify (·.setRegistry linkIdBroker reg)
          let queued := (← get).pendingFragments (linkId, bufferId)
          modify fun s => { s with
            pendingFragments := update s.pendingFragments (linkId, bufferId) [] }
          resolveParcels depth queued

/-- `on_bypass_peer_with_link`. -/
def onBypassPeerWithLink (sublink newSublink : Nat) (fragment : FragmentDescriptor)
    (inboundSequenceLength linkId : Nat) : AcceptorM Unit := do
  if fragment.isNull then throw (.badParcel "bypass with null link state")
  inTables fun info => do
    let reg ← memoryFor info linkId
    liftMemory (reg.fragment fragment)
  match (← get).tables.owners (linkId, sublink) with
  | none => pure ()
  | some rid =>
      let before := (← get).tables
      match ← inTables fun _ =>
          adoptCentralLink rid linkId newSublink fragment inboundSequenceLength with
      | none => pure ()
      | some (oldSublink, length) =>
          logAdoption (.centralLink linkId newSublink rid) before
          inTables fun info =>
            sendLinkMessageOn info linkId (.stopProxyingToLocalPeer oldSublink length) []
          let early ← takeEarlyParcels (linkId, newSublink)
          replayEarlyParcels (processAcceptParcel depth) linkId early
          inTables fun info => routerFlush info depth rid false

/-- `on_accept_bypass_link`. -/
def onAcceptBypassLinkMessage (currentPeerNode : NodeName) (currentPeerSublink
    inboundSequenceLength newSublink : Nat) (fragment : FragmentDescriptor) (newLinkId : Nat) :
    AcceptorM Unit := do
  match linkIdForNode (← get).info currentPeerNode with
  | none => pure ()
  | some oldLinkId =>
      match (← get).tables.owners (oldLinkId, currentPeerSublink) with
      | none => pure ()
      | some rid =>
          inTables fun info => do
            let reg ← memoryFor info newLinkId
            liftMemory (reg.fragment fragment)
          if ← inTables fun info => checkBypassSource info rid newLinkId then
            let before := (← get).tables
            match ← inTables fun _ =>
                adoptCentralLink rid newLinkId newSublink fragment inboundSequenceLength with
            | none => pure ()
            | some (oldSublink, length) =>
                logAdoption (.centralLink newLinkId newSublink rid) before
                inTables fun info => do
                  notifyBypassed info oldLinkId newLinkId oldSublink newSublink length
                    inboundSequenceLength
                  routerFlush info depth rid false

/-- `on_provide_memory`: share the buffer, then register it. -/
def onProvideMemory (size : Nat) (fd : OwnedFd) (linkId : Nat) : AcceptorM Unit := do
  match (← get).tables.pendingMemoryRequests (linkId, size) with
  | [] => throw (.badParcel "ProvideMemory without a pending request")
  | blockSize :: rest =>
      let reg ← inTables fun info => do
        modify fun s => { s with
          pendingMemoryRequests := update s.pendingMemoryRequests (linkId, size) rest }
        memoryFor info linkId
      let id := ((← get).tables.memories linkId).nextBufferId
      inTables fun info => do
        modify fun s => s.setMemory linkId { s.memories linkId with nextBufferId := id + 1 }
        sendLinkMessageOn info linkId (.addBlockBuffer id blockSize 0) [fd]
      match reg.registerBlockBuffer id fd.size blockSize with
      | .error e => throw (.io e)
      | .ok reg =>
          modify (·.setRegistry linkId reg)
          inTables fun _ => modify fun s => { s with
            capacityPending := update s.capacityPending (linkId, blockSize) false }

/-- The router that owns a sublink handles a message; without one the message
is dropped. -/
def withOwner (linkId sublink : Nat) (f : NodeInfo → Nat → RouteM Unit) : AcceptorM Unit := do
  match (← get).tables.owners (linkId, sublink) with
  | none => pure ()
  | some rid => inTables fun info => f info rid

/-- Complete the requests for a node in their order. -/
def completeIntroductions (name : NodeName) : AcceptorM Unit :=
  inTables fun info => do
    let pending := (← get).pendingIntroductions name
    modify fun s => { s with pendingIntroductions := update s.pendingIntroductions name [] }
    pending.forM fun request => completePendingIntro info (routerFlush info depth) name request

/-- A system call on a descriptor, with its `?`. -/
def NodeInfo.callFd (info : NodeInfo) (call : FdCall) (fd : OwnedFd) :
    Except RoutingError Unit :=
  match info.fdError call fd with
  | some e => .error (.io e)
  | none => .ok ()

/-- The descriptors of an introduced link: both are duplicated, the socket is
adopted by `Channel::adopt`, and the memory by `LinkMemory::adopt_primary`. -/
def adoptIntroducedFds (info : NodeInfo) (transportIndex memoryIndex : Nat)
    (fds : List OwnedFd) : Except RoutingError Unit :=
  match fds[transportIndex]? with
  | none => .error (.badParcel "introduction transport index out of range")
  | some transport => do
      info.callFd .dup transport
      match fds[memoryIndex]? with
      | none => .error (.badParcel "introduction memory index out of range")
      | some memory => do
          info.callFd .dup memory
          info.callFd .setNonblocking transport
          info.callFd .fstat memory
          if memory.size < primaryBufferSize then
            .error (.io "descriptor smaller than declared size")
          else info.callFd .mmap memory

/-- `on_accept_introduction`.  What is in the memory behind the new link is
whatever the broker made of it. -/
def onAcceptIntroduction (name : NodeName) (transportIndex memoryIndex : Nat)
    (fds : List OwnedFd) : AcceptorM Unit := do
  let s ← get
  if (s.info.links linkIdIntroduced).isNone then
    match adoptIntroducedFds s.info transportIndex memoryIndex fds with
    | .error e => throw e
    | .ok _ =>
        modify fun s => { s with
          info := { s.info with
            links := update s.info.links linkIdIntroduced (some ⟨name, some .empty⟩)
            linkOrder := s.info.linkOrder ++ [linkIdIntroduced] }
          tables := s.tables.setChannel linkIdIntroduced ⟨[], 0, false⟩ }
        completeIntroductions depth name

/-- `dispatch`. -/
def dispatch (msg : RouteMessage) (fds : List OwnedFd) (linkId : Nat) : AcceptorM Unit :=
  match msg with
  | .addBlockBuffer bufferId blockSize bufferIndex =>
      onAddBlockBuffer depth bufferId blockSize bufferIndex fds linkId
  | .acceptParcel p => do
      let _ ← processAcceptParcel depth p fds linkId
  | .routeClosed sublink sequenceLength =>
      withOwner linkId sublink fun info rid =>
        routerRouteClosed (routerFlush info depth) rid sublink sequenceLength
  | .routeDisconnected sublink =>
      withOwner linkId sublink fun info rid => routerDisconnected info rid
  | .bypassPeerWithLink sublink newSublink fragment inboundSequenceLength =>
      onBypassPeerWithLink depth sublink newSublink fragment inboundSequenceLength linkId
  | .stopProxying sublink inboundSequenceLength outboundSequenceLength =>
      withOwner linkId sublink fun info rid =>
        routerStopProxying (routerFlush info depth) rid inboundSequenceLength
          outboundSequenceLength
  | .stopProxyingToLocalPeer sublink outboundSequenceLength =>
      withOwner linkId sublink fun info rid =>
        routerStopProxyingToLocalPeer (routerFlush info depth) rid outboundSequenceLength
  | .flushRouter sublink =>
      withOwner linkId sublink fun info rid => routerFlush info depth rid true
  | .requestMemory _ =>
      throw (.unsupported msgIdRequestMemory "native broker role not exercised by a sealed court")
  | .provideMemory size =>
      match fds with
      | [fd] => onProvideMemory size fd linkId
      | _ => throw (.badParcel "ProvideMemory without exactly one buffer descriptor")
  | .bypassPeer _ _ _ =>
      throw (.unsupported msgIdBypassPeer "inbound BypassPeer not exercised by the routing court")
  | .acceptBypassLink currentPeerNode currentPeerSublink inboundSequenceLength newSublink
      fragment =>
      onAcceptBypassLinkMessage depth currentPeerNode currentPeerSublink inboundSequenceLength
        newSublink fragment linkId
  | .proxyWillStop sublink inboundSequenceLength =>
      withOwner linkId sublink fun info rid =>
        routerProxyWillStop (routerFlush info depth) rid inboundSequenceLength
  | .requestIntroduction _ =>
      throw (.unsupported msgIdRequestIntroduction
        "native broker role not exercised by a sealed court")
  | .acceptIntroduction name transportIndex memoryIndex =>
      onAcceptIntroduction depth name transportIndex memoryIndex fds
  | .rejectIntroduction name => completeIntroductions depth name

end Messages

end MojoRs.Ipcz
