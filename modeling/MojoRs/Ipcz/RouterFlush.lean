/-
MojoRs/Ipcz/RouterFlush.lean

Flushing a router (`router_flush` in `routing.rs`) and all that it may do on
the way: parcels over local and remote links, the transfer of the portals
attached to them, bypasses of bridge routers, closures, and the flushes of
local peers inside of the flush.

The functions take the nested flush as an argument, `flush`; `routerFlush`
ties the knot to a given depth.  `router_flush` itself is cut into its blocks,
in their order.
-/
import MojoRs.Ipcz.Node

namespace MojoRs.Ipcz

open Function (update)
open Lib

variable (info : NodeInfo) (flush : Nat → Bool → RouteM Unit)

/-! ### Wake-ups and closures -/

/-- `flush_other_side_if_waiting`. -/
def flushOtherSideIfWaiting (link : Link) : RouteM Unit :=
  match link.linkState, link.localState with
  | some desc, _ => do
      if ← onLinkStatus info link.linkId desc (·.resetWaitingBit link.side.opposite) then
        sendLinkMessageOn info link.linkId (.flushRouter link.sublink) []
  | none, some cell => do
      if ← onLocalStatus cell (·.resetWaitingBit link.side.opposite) then
        if let some peer := link.localPeer then flush peer true
  | none, none => pure ()

/-- `AcceptRouteClosureFrom` over a local link: what it changes in the
router. -/
def Router.acceptLocalClosure (r : Router) (kind : LinkKind) (sequenceLength : Nat) :
    Option Router :=
  match kind with
  | .central | .peripheralOutward =>
      (r.inbound.setFinalSequenceLength sequenceLength).map fun q =>
        { r with inbound := q, peerClosed := r.peerClosed || (r.inward.isNone && r.bridge.isNone) }
  | .peripheralInward =>
      (r.outbound.setFinalSequenceLength sequenceLength).map fun q => { r with outbound := q }
  | .bridge =>
      (r.outbound.setFinalSequenceLength sequenceLength).map fun q =>
        { r with outbound := q, bridge := none }

/-- `router_route_closed_local`. -/
def routerRouteClosedLocal (rid : Nat) (kind : LinkKind) (sequenceLength : Nat) :
    RouteM Unit := do
  let r ← getRouter rid "route closed for unknown router"
  match r.acceptLocalClosure kind sequenceLength with
  | none => throw (.badParcel "closure sequence regression")
  | some r => putRouter rid r
  flush rid false

/-- `deliver_route_closed`. -/
def deliverRouteClosed (link : Link) (len : Nat) : RouteM Unit :=
  match link.localPeer with
  | some peer => routerRouteClosedLocal flush peer link.kind len
  | none => sendLinkMessageOn info link.linkId (.routeClosed link.sublink len) []

/-! ### Bridge bypass -/

/-- `begin_primary_link_decay` or an error, and then the lengths. -/
def Edge.decayOr (e : Edge) (msg : String) (out inc : Option Nat) : RouteM Edge :=
  match e.beginPrimaryLinkDecay with
  | none => throw (.badParcel msg)
  | some e =>
      let e := match out with | some n => e.setLengthToDecayingLink n | none => e
      pure (match inc with | some n => e.setLengthFromDecayingLink n | none => e)

/-- Put the outward edge of a router into decay. -/
def decayOutward (rid : Nat) (missing msg : String) (out inc : Option Nat) : RouteM Unit := do
  let r ← getRouter rid missing
  let outward ← r.outward.decayOr msg out inc
  putRouter rid { r with outward }

/-- Put the bridge edge of a router into decay. -/
def decayBridge (rid : Nat) (missing noBridge msg : String) (out inc : Option Nat) :
    RouteM Unit := do
  let r ← getRouter rid missing
  match r.bridge with
  | none => throw (.badParcel noBridge)
  | some bridge =>
      let bridge ← bridge.decayOr msg out inc
      putRouter rid { r with bridge := some bridge }

/-- `self.routers.get(&rid).map(|r| r.outbound_length()).unwrap_or(0)`. -/
def outboundLengthOf (rid : Nat) : RouteM Nat := do
  pure (((← get).routers rid).map Router.outboundLength |>.getD 0)

/-- The first snapshot of `start_bridge_bypass_from_local_peer`: the local
peer and the other bridge router, if the bridge is stable. -/
def RouteTables.localBypass (s : RouteTables) (rid : Nat) : Option (Nat × Nat) := do
  let router ← s.routers rid
  let bridge ← router.bridge
  guard bridge.isStable
  let localPeer ← router.outward.getLocalPeer
  let otherBridge ← bridge.getLocalPeer
  pure (localPeer, otherBridge)

/-- The second one: the other bridge router's outward link, which has to be
remote. -/
def bypassRemoteLink (otherBridge : Nat) (linkState : FragmentDescriptor) : RouteM Link := do
  let other ← getRouter otherBridge "bridge peer missing"
  match other.outward.primary with
  | none => throw (.badParcel "bridge peer has no outward link")
  | some link =>
      if link.isLocal then throw (.badParcel "bridge peer outward link is local")
      else if linkState.isNull then throw (.badParcel "null link state for bridge bypass")
      else pure link

/-- Decay the five edges of a bypass from a local peer. -/
def decayFiveEdges (rid localPeer otherBridge len : Nat) : RouteM Unit := do
  decayOutward localPeer "local peer missing" "failed to decay local peer's outward edge"
    (some len) none
  decayOutward otherBridge "bridge peer missing" "failed to decay bridge peer's outward edge"
    (some len) none
  decayBridge rid "bridge router missing" "bridge missing" "failed to decay this bridge edge"
    (some len) none
  decayOutward rid "bridge router missing" "failed to decay this outward edge" none (some len)
  decayBridge otherBridge "bridge peer missing" "bridge peer missing bridge"
    "failed to decay bridge peer's bridge edge" none (some len)

/-- `start_bridge_bypass_from_local_peer`. -/
def startBridgeBypassFromLocalPeer (rid : Nat) (linkState : FragmentDescriptor) :
    RouteM Unit := do
  match (← get).localBypass rid with
  | none => pure ()
  | some (localPeer, otherBridge) =>
      let remoteLink ← bypassRemoteLink otherBridge linkState
      let len ← outboundLengthOf localPeer
      let bypassSublink ← allocateSublinkIds info remoteLink.linkId 1
      decayFiveEdges rid localPeer otherBridge len
      sendLinkMessageOn info remoteLink.linkId
        (.bypassPeerWithLink remoteLink.sublink bypassSublink linkState len) []
      setOutwardLink info localPeer
        (.remote remoteLink.linkId bypassSublink .central .a (some linkState))
      insertOwner remoteLink.linkId bypassSublink localPeer
      flush rid false
      flush otherBridge false
      flush localPeer false

/-- The node on the other side of a link, invalid if it is this one. -/
def peerNodeOf (link : Link) : RouteM NodeName :=
  if link.isLocal then pure .invalid else remoteNameFor info link.linkId

/-- The second case of `maybe_start_bridge_bypass`: only the outward peer of
`initiator` is local, and the new link state comes from the memory of the
other router's outward link. -/
def bypassFromLocalPeer (initiator remoteLinkId : Nat) : RouteM Unit := do
  match ← tryAllocateLinkState info remoteLinkId with
  | none => requestBlockCapacity info routerLinkStateSize remoteLinkId
  | some linkState =>
      addLinkStateRef info remoteLinkId linkState
      startBridgeBypassFromLocalPeer info flush initiator linkState

/-- One round of the loop of the first case.  A router without a bridge edge
has none to decay. -/
def decayBothEdges (rid : Nat) : RouteM Unit := do
  if let some router := (← get).routers rid then
    let outward ← router.outward.decayOr "failed to decay outward edge" none none
    putRouter rid { router with outward }
    if let some bridge := router.bridge then
      let bridge ← bridge.decayOr "failed to decay bridge edge" none none
      putRouter rid { router with outward, bridge := some bridge }

/-- The first case: neither outward peer is local. -/
def bypassRemotePeers (rid secondBridge : Nat) (firstLink secondLink : Link) : RouteM Unit := do
  [rid, secondBridge].forM decayBothEdges
  let bypassTarget ← remoteNameFor info secondLink.linkId
  sendLinkMessageOn info firstLink.linkId
    (.bypassPeer firstLink.sublink bypassTarget secondLink.sublink) []

/-- `Link::local_pair` with a fresh shared state. -/
def newLocalPair (kind : LinkKind) (sideForFirst : LinkSide) (ridA ridB : Nat)
    (initialStable : Bool) : RouteM (Link × Link) := do
  let cell := (← get).nextLocalState
  modify fun s =>
    { s.setLocalState cell (.new initialStable) with nextLocalState := cell + 1 }
  pure (Link.localPair kind sideForFirst ridA ridB cell)

/-- Decay the six edges of the third case. -/
def decaySixEdges (rid secondBridge firstLocal secondLocal fromFirst fromSecond : Nat) :
    RouteM Unit := do
  decayOutward firstLocal "bridge peer missing" "failed to decay first peer edge"
    (some fromFirst) (some fromSecond)
  decayOutward secondLocal "bridge peer missing" "failed to decay second peer edge"
    (some fromSecond) (some fromFirst)
  decayOutward rid "bridge router missing" "failed to decay this outward edge"
    (some fromSecond) (some fromFirst)
  decayOutward secondBridge "bridge peer missing" "failed to decay bridge peer edge"
    (some fromFirst) (some fromSecond)
  decayBridge rid "bridge router missing" "bridge missing" "failed to decay this bridge edge"
    (some fromFirst) (some fromSecond)
  decayBridge secondBridge "bridge peer missing" "bridge peer missing bridge"
    "failed to decay bridge peer's bridge edge" (some fromSecond) (some fromFirst)

/-- The outward edge of a router takes a new primary link. -/
def setPrimaryOutward (rid : Nat) (link : Link) : RouteM Unit := do
  let r ← getRouter rid "bridge peer missing"
  putRouter rid { r with outward := r.outward.setPrimaryLink link }

/-- The third case: both outward peers are local. -/
def bypassLocalPeers (rid secondBridge firstLocal secondLocal : Nat) : RouteM Unit := do
  let fromFirst ← outboundLengthOf firstLocal
  let fromSecond ← outboundLengthOf secondLocal
  decaySixEdges rid secondBridge firstLocal secondLocal fromFirst fromSecond
  let (linkA, linkB) ← newLocalPair .central .a firstLocal secondLocal true
  setPrimaryOutward firstLocal linkA
  setPrimaryOutward secondLocal linkB
  flush rid false
  flush secondBridge false
  flush firstLocal false
  flush secondLocal false

/-- The snapshots of `maybe_start_bridge_bypass`: the bridge peer and the
outward links of both bridge routers, if the bridge of this one is stable. -/
def RouteTables.bridgePair (s : RouteTables) (rid : Nat) : Option (Nat × Link × Link) := do
  let router ← s.routers rid
  let bridge ← router.bridge
  guard bridge.isStable
  let secondBridge ← bridge.getLocalPeer
  let firstLink ← router.outward.primary
  let second ← s.routers secondBridge
  let secondLink ← second.outward.primary
  pure (secondBridge, firstLink, secondLink)

/-- Lock both outward links, or neither. -/
def lockBridge (firstLink secondLink : Link) : RouteM Bool := do
  let firstPeerNode ← peerNodeOf info firstLink
  let secondPeerNode ← peerNodeOf info secondLink
  if ← tryLockLinkForBypass info firstLink secondPeerNode then
    if ← tryLockLinkForBypass info secondLink firstPeerNode then pure true
    else
      unlockLinkForBypass info firstLink
      pure false
  else pure false

/-- The cases of `maybe_start_bridge_bypass`, both links locked. -/
def bypassBridge (rid secondBridge : Nat) (firstLink secondLink : Link) : RouteM Unit :=
  match firstLink.localPeer, secondLink.localPeer with
  | none, none => bypassRemotePeers info rid secondBridge firstLink secondLink
  | some _, none => bypassFromLocalPeer info flush rid secondLink.linkId
  | none, some _ => bypassFromLocalPeer info flush secondBridge firstLink.linkId
  | some firstLocal, some secondLocal => bypassLocalPeers flush rid secondBridge firstLocal secondLocal

/-- `maybe_start_bridge_bypass`. -/
def maybeStartBridgeBypass (rid : Nat) : RouteM Unit := do
  match (← get).bridgePair rid with
  | none => pure ()
  | some (secondBridge, firstLink, secondLink) =>
      if ← lockBridge info firstLink secondLink then
        bypassBridge info flush rid secondBridge firstLink secondLink

/-! ### Transfer of a portal -/

/-- `serialize_router_with_local_peer`. -/
def serializeRouterWithLocalPeer (rid localPeer linkId : Nat) :
    RouteM (Option RouterDescriptor) := do
  match ← tryAllocateLinkState info linkId with
  | none =>
      requestBlockCapacity info routerLinkStateSize linkId
      return none
  | some newLinkState =>
      addLinkStateRef info linkId newLinkState
      let peer ← getRouter localPeer "serialize with unknown local peer"
      let proxyInboundSequenceLength := peer.outbound.current
      if peer.outward.primary.isNone then throw (.badParcel "local peer has no outward link")
      putRouter localPeer { peer with outward := peer.outward.releasePrimaryLink }
      let newSublink ← allocateSublinkIds info linkId 2
      insertOwner linkId newSublink localPeer
      insertOwner linkId (newSublink + 1) rid
      let router ← getRouter rid "serialize for unknown router"
      let inward := (Edge.empty.beginDecay.setLengthToDecayingLink proxyInboundSequenceLength
        |>.setLengthFromDecayingLink router.outbound.current)
      let d :=
        { RouterDescriptor.default with
          newSublink
          newLinkStateFragment := newLinkState
          newDecayingSublink := newSublink + 1
          proxyAlreadyBypassed := true
          nextOutgoingSequenceNumber := router.outbound.current
          nextIncomingSequenceNumber := router.inbound.current
          decayingIncomingSequenceLength := proxyInboundSequenceLength
          peerClosed := router.inbound.finalLength.isSome
          closedPeerSequenceLength := router.inbound.finalLength.getD 0 }
      putProxy rid linkId { router with inward := some inward } d
      return some d

/-- The plain transfer in `serialize_router`: what it leaves of the router
and the descriptor, with the outward primary link and the node behind it. -/
def Router.serializeAsProxy (r : Router) (newSublink : Nat) (initiateProxyBypass : Bool)
    (outwardRemote : NodeName) : Router × RouterDescriptor :=
  let d : RouterDescriptor :=
    { RouterDescriptor.default with
      newSublink
      nextOutgoingSequenceNumber := r.outbound.current
      nextIncomingSequenceNumber := r.inbound.current }
  if r.peerClosed then
    let len := r.inbound.finalLength.getD 0
    let inward := (Edge.empty.beginDecay.setLengthToDecayingLink len
      |>.setLengthFromDecayingLink r.outbound.current)
    ({ r with inward := some inward },
      { d with peerClosed := true, closedPeerSequenceLength := len })
  else
    match r.outward.primary with
    | some primary =>
        if initiateProxyBypass && !primary.isLocal then
          ({ r with inward := some Edge.empty.beginDecay, outward := r.outward.beginDecay },
            { d with proxyPeerNodeName := outwardRemote, proxyPeerSublink := primary.sublink })
        else ({ r with inward := some .empty }, d)
    | none => ({ r with inward := some .empty }, d)

/-- The path of `serialize_router` that leaves a proxy which is not bypassed
yet. -/
def serializeRouterAsProxy (rid linkId : Nat) (primary : Link) (locked : Bool) :
    RouteM (Nat × RouterDescriptor) := do
  let outwardRemote ← peerNodeOf info primary
  let newSublink ← allocateSublinkIds info linkId 1
  let router ← getRouter rid "serialize for unknown router"
  let (router, d) := router.serializeAsProxy newSublink locked outwardRemote
  putProxy rid linkId router d
  insertOwner linkId newSublink rid
  pure (rid, d)

/-- `serialize_router`. -/
def serializeRouter (rid linkId : Nat) : RouteM (Nat × RouterDescriptor) := do
  let router ← getRouter rid "serialize for unknown router"
  if router.inward.isSome then throw (.badParcel "serializing a proxy")
  let some primary := router.outward.primary
    | throw (.badParcel "serialize for router with no outward link")
  let source ← remoteNameFor info linkId
  let locked ← tryLockLinkForBypass info primary source
  match primary.localPeer, locked with
  | some localPeer, true =>
      match ← serializeRouterWithLocalPeer info rid localPeer linkId with
      | some d => pure (rid, d)
      | none =>
          unlockLinkForBypass info primary
          serializeRouterAsProxy info rid linkId primary locked
  | _, _ => serializeRouterAsProxy info rid linkId primary locked

/-- The first branch of `begin_proxying`: the local peer adopts the central
link, this router the decaying one. -/
def beginProxyingBypassed (rid : Nat) (d : RouterDescriptor) (linkId : Nat) : RouteM Unit := do
  let router ← getRouter rid "begin_proxying for unknown router"
  putRouter rid { router with outward := router.outward.releasePrimaryLink }
  let some localPeer := router.outward.getLocalPeer
    | throw (.badParcel "with-local-peer transfer without a local peer")
  let router ← getRouter rid "begin_proxying for unknown router"
  if !router.disconnected then
    match router.inward with
    | none => throw (.badParcel "no inward edge after with-local-peer serialization")
    | some inward =>
        putRouter rid { router with
          inward := some (inward.setPrimaryLink
            (.remote linkId d.newDecayingSublink .peripheralInward .a none)) }
  setOutwardLink info localPeer
    (.remote linkId d.newSublink .central .a (some d.newLinkStateFragment))
  flush rid true
  flush localPeer true

/-- Mark the outward link of a stable proxy, always as side A. -/
def markProxyStable (outward inward : Edge) : RouteM Unit :=
  match outward.primary with
  | none => pure ()
  | some primary =>
      if outward.isStable && inward.isStable then
        match primary.linkState with
        | none => pure ()
        | some state => onLinkStatus info primary.linkId state fun st => ((), st.setSideStable .a)
      else pure ()

/-- `begin_proxying`. -/
def beginProxying (rid : Nat) (d : RouterDescriptor) (linkId : Nat) : RouteM Unit := do
  if d.proxyAlreadyBypassed then beginProxyingBypassed info flush rid d linkId
  else
    let router ← getRouter rid "begin_proxying for unknown router"
    let some inward := router.inward
      | throw (.badParcel "begin_proxying on a terminal router")
    let live := router.outbound.finalLength.isNone && !router.disconnected
    let inward :=
      if live then
        inward.setPrimaryLink (.remote linkId d.newSublink .peripheralInward .a none)
      else inward
    putRouter rid { router with inward := some inward }
    markProxyStable info router.outward inward
    if live then flush rid false

/-! ### Parcels -/

/-- Delivery of a parcel over a local link. -/
def Router.acceptLocal (r : Router) (kind : LinkKind) (p : Parcel) : Option Router :=
  if kind.isCentral then r.acceptInbound p else r.acceptOutbound p

/-- The objects of a parcel for the wire: each portal's router is serialized. -/
def serializeObjects (linkId : Nat) :
    List Object → RouteM (List UInt32 × List (Nat × RouterDescriptor))
  | [] => pure ([], [])
  | .fd _ :: _ =>
      throw (.unsupported msgIdAcceptParcel "fd transmission not exercised by the routing court")
  | .router rid :: objects => do
      let d ← serializeRouter info rid linkId
      modify (·.logSerialized linkId d)
      let (handleTypes, serialized) ← serializeObjects linkId objects
      pure (handleTypePortal :: handleTypes, d :: serialized)

/-- `encode_accept_parcel_full` as the peer decodes it. -/
def encodeParcel (sublink : Nat) (p : Parcel) (handleTypes : List UInt32)
    (newRouters : List RouterDescriptor) : ParcelMessage :=
  { sublink
    sequenceNumber := p.sequenceNumber
    subparcelIndex := 0
    numSubparcels := 1
    parcelFragment := p.fragment.getD .null
    parcelData := if p.fragment.isSome then [] else p.data
    handleTypes
    newRouters
    driverObjects := [] }

/-- `transmit_parcel`. -/
def transmitParcel (link : Link) (parcel : Parcel) : RouteM Unit := do
  match link.localPeer with
  | some peer =>
      match link.kind with
      | .peripheralOutward | .peripheralInward => throw (.badParcel "peripheral local link")
      | .central | .bridge =>
          match ((← get).routers peer).bind (·.acceptLocal link.kind parcel) with
          | none => throw (.badParcel "local delivery sequence gap")
          | some r => putAccepted peer r link.kind.isCentral parcel
          flush peer false
  | none =>
      let (handleTypes, serialized) ← serializeObjects info link.linkId parcel.objects
      let msg := encodeParcel link.sublink parcel handleTypes (serialized.map (·.2))
      sendLinkMessageOn info link.linkId (.acceptParcel msg) []
      serialized.forM fun (rid, d) => beginProxying info flush rid d link.linkId

/-! ### Flush -/

/-- What a flush captures before it changes anything. -/
structure FlushStart where
  onCentral : Bool
  hadDecayingOutward : Bool
  hadDecayingInward : Bool
  deriving DecidableEq, Repr

/-- The first block of `router_flush`. -/
def flushStart (rid : Nat) : RouteM FlushStart := do
  let r ← getRouter rid "flush for unknown router"
  pure ⟨r.onCentralLink, r.outwardHasDecaying, r.inwardHasDecaying⟩

/-- The parcels to transmit: outward, and then inward or over the bridge. -/
def Router.collectToFlush (r : Router) : List (Link × Parcel) × List (Link × Parcel) × Router :=
  let (outbound, r) := r.collectOutbound
  let (inbound, r) :=
    if r.inward.isSome then r.collectInbound
    else if r.bridge.isSome then r.collectBridge
    else ([], r)
  (outbound, inbound, r)

/-- Write a router back from whose inbound queue parcels were popped. -/
def putPopped (rid : Nat) (r : Router) (inbound : List (Link × Parcel)) : RouteM Unit :=
  modify fun s =>
    if inbound.isEmpty then s.setRouter rid r else (s.setRouter rid r).note rid (.popped inbound)

/-- Transmit parcels that were popped from the inbound queue, and note each. -/
def transmitInbound (rid : Nat) (parcels : List (Link × Parcel)) : RouteM Unit :=
  parcels.forM fun (link, parcel) => do
    transmitParcel info flush link parcel
    modify (·.note rid (.transmitted link parcel))

/-- Transmit parcels that were popped, the outbound ones first; note if a failure leaves
inbound ones behind. -/
def transmitPopped (rid : Nat) (outbound inbound : List (Link × Parcel)) : RouteM Unit := fun s =>
  let all : RouteM Unit := do
    outbound.forM fun (link, parcel) => transmitParcel info flush link parcel
    transmitInbound info flush rid inbound
  match all.run s with
  | .ok a s => .ok a s
  | .error e s => .error e (if inbound.isEmpty then s else s.note rid .abandoned)

theorem transmitPopped_run (rid : Nat) (outbound inbound : List (Link × Parcel)) (s : RouteTables) :
    (transmitPopped info flush rid outbound inbound).run s =
      match ((outbound.forM fun x => transmitParcel info flush x.1 x.2) >>= fun _ =>
        transmitInbound info flush rid inbound).run s with
      | .ok a s => .ok a s
      | .error e s => .error e (if inbound.isEmpty then s else s.note rid .abandoned) := rfl

/-- Without inbound parcels nothing is noted. -/
theorem transmitPopped_nil (rid : Nat) (outbound : List (Link × Parcel)) :
    transmitPopped info flush rid outbound [] =
      outbound.forM fun (link, parcel) => transmitParcel info flush link parcel := by
  funext s
  have hall : (do
      outbound.forM fun (link, parcel) => transmitParcel info flush link parcel
      transmitInbound info flush rid [] : RouteM Unit) =
      outbound.forM fun (link, parcel) => transmitParcel info flush link parcel := bind_pure _
  unfold transmitPopped
  simp only [hall, EStateM.run]
  split
  · next h => exact h.symm
  · next h => exact h.symm

/-- Pop the parcels that have links, and transmit them. -/
def flushParcels (rid : Nat) : RouteM Unit := do
  let r ← getRouter rid "flush for unknown router"
  let (outbound, inbound, r) := r.collectToFlush
  putPopped rid r inbound
  transmitPopped info flush rid outbound inbound

/-- Give up the links whose decay is over; whether the outward and the inward
edge had one. -/
def flushDecays (rid : Nat) : RouteM (Bool × Bool) := do
  let r ← getRouter rid "flush for unknown router"
  let ((outLink, outDecayed), (inLink, inDecayed), r) := r.finishBridgeDecay.finishDecays
  putRouter rid r
  outLink.toList.forM (releaseLinkState info)
  inLink.toList.forM (releaseLinkState info)
  pure (outDecayed, inDecayed)

/-- Deliver to the portal of a terminal router; whether the router is a proxy
without outward links. -/
def flushDelivery (rid : Nat) : RouteM Bool := do
  let r ← getRouter rid "flush for unknown router"
  if !info.keepQueuedFlush && r.inward.isNone then putRouter rid r.deliver
  pure (r.inward.isSome && r.outward.primary.isNone && r.outward.decaying.isNone)

/-- Mark this side stable once its last decay is over. -/
def flushStability (rid : Nat) (start : FlushStart) (outDecayed inDecayed : Bool) :
    RouteM Bool := do
  let r ← getRouter rid "flush for unknown router"
  let outwardStable := r.outward.primary.isSome && (!start.hadDecayingOutward || outDecayed)
  let inwardStable := r.inward.isNone || !start.hadDecayingInward || inDecayed
  if start.onCentral && (outDecayed || inDecayed) && outwardStable && inwardStable then
    match r.outward.primary with
    | some link =>
        markSideStableOnLink info link
        pure true
    | none => pure false
  else pure false

/-- The closures that a router is ready to pass on: the outward link to lock,
the link whose closure is forwarded inward or over the bridge, whether the
outward link is given up, and what is left of the router. -/
def Router.closures (r : Router) (onCentral : Bool) :
    Option (Link × Nat) × Option (Link × Nat) × Bool × Router :=
  let (tryLock, deadOutward, outward) :=
    if onCentral && r.outbound.isSequenceFullyConsumed then
      (r.outward.primary.bind fun l => r.outbound.finalLength.map fun n => (l, n),
        false, r.outward)
    else if !r.inbound.expectsMoreElements && r.outward.primary.isSome then
      (none, true, r.outward.releasePrimaryLink)
    else (none, false, r.outward)
  let r := { r with outward }
  if r.inbound.isSequenceFullyConsumed then
    match r.inbound.finalLength, r.inward, r.bridge with
    | some len, some inward, _ =>
        (tryLock, inward.primary.map (·, len), deadOutward,
          { r with inward := some inward.releasePrimaryLink })
    | some len, none, some _ =>
        match r.bridgeLink with
        | some link => (tryLock, some (link, len), deadOutward, { r with bridge := none })
        | none => (tryLock, none, deadOutward, r)
    | _, _, _ => (tryLock, none, deadOutward, r)
  else (tryLock, none, deadOutward, r)

/-- The closures to deliver, and whether the outward link is gone. -/
def flushClosures (rid : Nat) (start : FlushStart) :
    RouteM (Option (Link × Nat) × Option (Link × Nat) × Bool) := do
  let r ← getRouter rid "flush for unknown router"
  let (tryLock, forwardClosed, deadOutward, r) := r.closures start.onCentral
  putRouter rid r
  match tryLock with
  | none => pure (none, forwardClosed, deadOutward)
  | some (link, len) =>
      if ← tryLockLinkForClosure info link then
        let r ← getRouter rid "flush for unknown router"
        putRouter rid { r with outward := r.outward.releasePrimaryLink }
        pure (some (link, len), forwardClosed, true)
      else pure (none, forwardClosed, deadOutward)

/-- Attempt a bypass at a bridge router with a stable outward link. -/
def flushBridge (rid : Nat) (start : FlushStart) (outDecayed inDecayed : Bool) : RouteM Unit := do
  let r ← getRouter rid "flush for unknown router"
  let hasStableOutward := r.outward.primary.isSome && (!start.hadDecayingOutward || outDecayed)
  let hasNoInward := r.inward.isNone && (!start.hadDecayingInward || inDecayed)
  if r.bridge.isSome && hasStableOutward && hasNoInward then
    maybeStartBridgeBypass info flush rid

/-- The end of a flush: wake the other side if it waits for this one. -/
def flushTail (rid : Nat) (force : Bool) (start : FlushStart) (deadOutward dropped : Bool) :
    RouteM Unit := do
  if !deadOutward && start.onCentral && (dropped || force) then
    if let some link := ((← get).routers rid).bind (·.outward.primary) then
      flushOtherSideIfWaiting info flush link

/-- `router_flush`, with nested flushes done by `flush`. -/
def routerFlushWith (rid : Nat) (force : Bool) : RouteM Unit := do
  let start ← flushStart rid
  flushParcels info flush rid
  let (outDecayed, inDecayed) ← flushDecays info rid
  if ← flushDelivery info rid then removeRouter info rid
  else
    let dropped ← flushStability info rid start outDecayed inDecayed
    let (routeClosed, forwardClosed, deadOutward) ← flushClosures info rid start
    flushBridge info flush rid start outDecayed inDecayed
    routeClosed.toList.forM fun (link, len) => deliverRouteClosed info flush link len
    forwardClosed.toList.forM fun (link, len) => deliverRouteClosed info flush link len
    flushTail info flush rid force start deadOutward dropped

/-- `router_flush`, with at most `depth` flushes nested in one another. -/
def routerFlush : Nat → Nat → Bool → RouteM Unit
  | 0, _, _ => throw .depth
  | depth + 1, rid, force => routerFlushWith info (routerFlush depth) rid force

end MojoRs.Ipcz
