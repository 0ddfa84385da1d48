/-
MojoRs/Ipcz/RouterOps.lean

The operations on a router that end in a flush: `put` and `close_route` of an
application, the closures, disconnections and bypass messages that arrive for
a router, and the bypass of a proxy by a new remote link (`routing.rs`).

`flush` is the flush of a router, to whatever depth.
-/
import MojoRs.Ipcz.RouterFlush

namespace MojoRs.Ipcz

open Function (update)
open Lib

variable (info : NodeInfo) (flush : Nat → Bool → RouteM Unit)

/-! ### The application's side -/

/-- `write_parcel_fragment_or_inline`. -/
def writeParcelFragmentOrInline (data : List UInt8) (linkId : Nat) :
    RouteM (Option FragmentDescriptor) := do
  let reg ← memoryFor info linkId
  match ((← get).memories linkId).writeParcelFragment reg data with
  | none => pure none
  | some (block, m) =>
      modify (·.setMemory linkId m)
      pure (some block)

/-- `put`. -/
def put (rid : Nat) (data : List UInt8) (objects : List Object) :
    RouteM (Option FragmentDescriptor) := do
  let r ← getRouter rid "put for unknown router"
  let useFragment := !data.isEmpty && r.outward.primary.any (!·.isLocal)
  let fragmentLink := (r.outward.primary.map (·.linkId)).getD linkIdBroker
  let fragment ←
    if useFragment then writeParcelFragmentOrInline info data fragmentLink else pure none
  let parcel : Parcel := ⟨r.outbound.current, data, objects, fragment⟩
  let r ← getRouter rid "put for unknown router"
  match r.acceptOutbound parcel with
  | none => throw (.badParcel "outbound sequence regression")
  | some r => putRouter rid r
  flush rid false
  pure fragment

/-- `close_route`. -/
def closeRoute (rid : Nat) : RouteM Unit := do
  let r ← getRouter rid "close for unknown router"
  if r.inward.isSome then throw (.badParcel "closing a proxy")
  match r.outbound.setFinalSequenceLength r.outbound.current with
  | none => throw (.badParcel "close sequence regression")
  | some q => putRouter rid { r with outbound := q }
  flush rid false

/-- `setup_bootstrap_bridge`: a new pair of portals, one of them merged with
the router `remoteRid`; the other is the attachment. -/
def setupBootstrapBridge (remoteRid : Nat) : RouteM Nat := do
  let bridgeRid := (← get).nextRid
  let attachmentRid := bridgeRid + 1
  modify fun s => { s with nextRid := s.nextRid + 2 }
  let (attachLink, bridgeCentralLink) ←
    newLocalPair .central .a attachmentRid bridgeRid true
  let (remoteBridgeLink, bridgeBridgeLink) ←
    newLocalPair .bridge .a remoteRid bridgeRid false
  match (← get).routers remoteRid with
  | none => throw (.unexpected "bootstrap router missing")
  | some r => putRouter remoteRid { r with bridge := some ⟨some remoteBridgeLink, none⟩ }
  putRouter bridgeRid
    { Router.newTerminal bridgeCentralLink with bridge := some ⟨some bridgeBridgeLink, none⟩ }
  putRouter attachmentRid (.newTerminal attachLink)
  pure attachmentRid

/-! ### Closure and disconnection -/

/-- `router_route_closed`: the link is looked up by its sublink only. -/
def routerRouteClosed (rid sublink sequenceLength : Nat) : RouteM Unit := do
  let r ← getRouter rid "route closed for unknown router"
  let onOutward := r.outward.primary.any (·.sublink == sublink) ||
    r.outward.decayingLink.any (·.sublink == sublink)
  if onOutward then
    match r.inbound.setFinalSequenceLength sequenceLength with
    | some q =>
        putRouter rid { r with inbound := q, peerClosed := true }
        flush rid false
    | none =>
        -- a second closure with a longer tail is ignored
        if !r.inbound.finalLength.any (· ≤ sequenceLength) then
          throw (.badParcel "closure sequence regression")
  else
    match r.outbound.setFinalSequenceLength sequenceLength with
    | some q =>
        putRouter rid { r with outbound := q }
        flush rid false
    | none => throw (.badParcel "closure sequence regression")

/-- What a disconnection leaves of a router. -/
def Router.disconnect (r : Router) : Router :=
  let release (e : Edge) := e.releasePrimaryLink.releaseDecayingLink
  { r with
    disconnected := true
    outward := release r.outward
    inward := r.inward.map release
    bridge := if r.inward.isSome then r.bridge else r.bridge.map release
    peerClosed := true
    inbound := (r.inbound.setFinalSequenceLength r.inbound.current).getD r.inbound }

/-- `router_disconnected`. -/
def routerDisconnected (rid : Nat) : RouteM Unit := do
  let r ← getRouter rid "disconnect for unknown router"
  putRouter rid r.disconnect
  removeRouter info rid

/-! ### The end of a proxy -/

/-- `router_stop_proxying`. -/
def routerStopProxying (rid inboundSequenceLength outboundSequenceLength : Nat) :
    RouteM Unit := do
  let r ← getRouter rid "stop proxying for unknown router"
  if r.outward.isStable then throw (.badParcel "StopProxying on a non-proxy")
  let some inward := r.inward | throw (.badParcel "StopProxying on a terminal router")
  if inward.isStable then throw (.badParcel "StopProxying with stable inward edge")
  if inward.lengthToDecayingLink.isSome || inward.lengthFromDecayingLink.isSome ||
      r.outward.lengthToDecayingLink.isSome || r.outward.lengthFromDecayingLink.isSome then
    throw (.badParcel "StopProxying with set lengths")
  putRouter rid { r with
    inward := some ((inward.setLengthToDecayingLink inboundSequenceLength).setLengthFromDecayingLink
      outboundSequenceLength)
    outward := (r.outward.setLengthToDecayingLink outboundSequenceLength).setLengthFromDecayingLink
      inboundSequenceLength }
  flush rid false

/-- The common case of `router_stop_proxying_to_local_peer`. -/
def stopProxyingToLocalPeer (rid localPeer outboundSequenceLength : Nat) : RouteM Unit := do
  let r ← getRouter rid "stop proxying for unknown router"
  let some peer := (← get).routers localPeer | return ()
  let some ourLink := r.outward.decayingLink | return ()
  let some peerLink := peer.outward.decayingLink | return ()
  let valid := ourLink.isLocal && peerLink.isLocal && ourLink.localPeer == some localPeer &&
    peerLink.localPeer == some rid && r.inward.isSome &&
    peer.outward.lengthFromDecayingLink.isNone && r.outward.lengthToDecayingLink.isNone &&
    r.inward.all (·.lengthFromDecayingLink.isNone)
  if !valid then throw (.badParcel "invalid proxy")
  putRouter localPeer { peer with
    outward := peer.outward.setLengthFromDecayingLink outboundSequenceLength }
  let r ← getRouter rid "stop proxying for unknown router"
  putRouter rid { r with
    outward := r.outward.setLengthToDecayingLink outboundSequenceLength
    inward := r.inward.map (·.setLengthFromDecayingLink outboundSequenceLength) }
  flush rid false
  flush localPeer false

/-- The bridge case of `router_stop_proxying_to_local_peer`. -/
def stopProxyingToBridgePeer (rid bridgePeer outboundSequenceLength : Nat) : RouteM Unit := do
  let bp ← getRouter bridgePeer "bridge peer missing"
  if bp.outward.isStable then throw (.badParcel "invalid bridge peer")
  let some localPeer := bp.outward.getDecayingLocalPeer
    | throw (.badParcel "bridge peer has no decaying local peer")
  let r ← getRouter rid "stop proxying for unknown router"
  let some peer := (← get).routers localPeer | return ()
  let valid := !r.outward.isStable && !peer.outward.isStable && !bp.outward.isStable &&
    peer.outward.lengthFromDecayingLink.isNone && r.outward.lengthFromDecayingLink.isNone &&
    r.bridge.all (·.lengthToDecayingLink.isNone) && bp.outward.lengthToDecayingLink.isNone &&
    bp.bridge.all (·.lengthFromDecayingLink.isNone)
  if !valid then throw (.badParcel "invalid bridge proxy")
  putRouter localPeer { peer with
    outward := peer.outward.setLengthFromDecayingLink outboundSequenceLength }
  let r ← getRouter rid "stop proxying for unknown router"
  putRouter rid { r with
    outward := r.outward.setLengthFromDecayingLink outboundSequenceLength
    bridge := r.bridge.map (·.setLengthToDecayingLink outboundSequenceLength) }
  let bp ← getRouter bridgePeer "bridge peer missing"
  putRouter bridgePeer { bp with
    outward := bp.outward.setLengthToDecayingLink outboundSequenceLength
    bridge := bp.bridge.map (·.setLengthFromDecayingLink outboundSequenceLength) }
  flush rid false
  flush localPeer false
  flush bridgePeer false

/-- `router_stop_proxying_to_local_peer`: the local peer is that of the
decaying bridge link, or that of the decaying outward link. -/
def routerStopProxyingToLocalPeer (rid outboundSequenceLength : Nat) : RouteM Unit := do
  let r ← getRouter rid "stop proxying for unknown router"
  match r.bridge with
  | some b =>
      match b.getDecayingLocalPeer with
      | some bridgePeer => stopProxyingToBridgePeer flush rid bridgePeer outboundSequenceLength
      | none => unless r.disconnected do
          throw (.badParcel "no local peer for StopProxyingToLocalPeer")
  | none =>
      match r.outward.getDecayingLocalPeer with
      | some localPeer => stopProxyingToLocalPeer flush rid localPeer outboundSequenceLength
      | none => unless r.disconnected do
          throw (.badParcel "no local peer for StopProxyingToLocalPeer")

/-- `router_proxy_will_stop`. -/
def routerProxyWillStop (rid inboundSequenceLength : Nat) : RouteM Unit := do
  let r ← getRouter rid "proxy-will-stop for unknown router"
  if r.outward.isStable then
    if !r.disconnected then throw (.badParcel "proxy-will-stop at a stable outward edge")
  else
    if r.outward.lengthFromDecayingLink.isSome then
      throw (.badParcel "proxy-will-stop length already set")
    putRouter rid { r with outward := r.outward.setLengthFromDecayingLink inboundSequenceLength }
    flush rid false

/-! ### Bypass of a proxy by a new remote link -/

/-- `bypass_peer_with_new_remote_link`. -/
def bypassPeerWithNewRemoteLink (rid requestorLinkId bypassTargetSublink targetLinkId : Nat) :
    RouteM Unit := do
  let requestorNode ← remoteNameFor info requestorLinkId
  let some newLinkState ← tryAllocateLinkState info targetLinkId | return ()
  addLinkStateRef info targetLinkId newLinkState
  let newSublink ← allocateSublinkIds info targetLinkId 1
  let r ← getRouter rid "bypass for unknown router"
  if r.disconnected then return ()
  let outward ← r.outward.decayOr "failed to decay the outward link" (some r.outbound.current) none
  putRouter rid { r with outward }
  sendLinkMessageOn info targetLinkId
    (.acceptBypassLink requestorNode bypassTargetSublink r.outbound.current newSublink
      newLinkState) []
  insertOwner targetLinkId newSublink rid
  setOutwardLink info rid (.remote targetLinkId newSublink .central .a (some newLinkState))
  flush rid true

/-- `complete_pending_intro`. -/
def completePendingIntro (name : NodeName) (request : PendingIntroRequest) : RouteM Unit :=
  match linkIdForNode info name with
  | none => routerDisconnected info request.rid
  | some targetLinkId =>
      bypassPeerWithNewRemoteLink info flush request.rid request.requestorLinkId
        request.bypassTargetSublink targetLinkId

/-- `establish_link`: only the first request for a name is sent. -/
def establishLink (name : NodeName) (request : PendingIntroRequest) : RouteM Unit := do
  if (linkIdForNode info name).isSome then completePendingIntro info flush name request
  else
    let pending := (← get).pendingIntroductions name
    modify fun s => { s with
      pendingIntroductions := update s.pendingIntroductions name (pending ++ [request]) }
    if pending.isEmpty then
      sendLinkMessageOn info linkIdBroker (.requestIntroduction name) []

/-- `router_bypass_peer`. -/
def routerBypassPeer (rid requestorLinkId : Nat) (bypassTargetNode : NodeName)
    (bypassTargetSublink : Nat) : RouteM Unit := do
  let r ← getRouter rid "bypass for unknown router"
  let some primary := r.outward.primary | return ()
  if primary.linkId ≠ requestorLinkId then
    throw (.badParcel "rejecting BypassPeer from a non-outward peer")
  if bypassTargetNode = info.localName then
    throw (.unsupported msgIdBypassPeer
      "BypassPeerWithNewLocalLink not exercised by a sealed court")
  match linkIdForNode info bypassTargetNode with
  | some targetLinkId =>
      bypassPeerWithNewRemoteLink info flush rid requestorLinkId bypassTargetSublink targetLinkId
  | none =>
      establishLink info flush bypassTargetNode
        ⟨rid, requestorLinkId, primary.sublink, bypassTargetSublink⟩

/-! ### Adoption of a new central link -/

/-- The checks of `on_accept_bypass_link` on the link to be replaced. -/
def checkBypassSource (rid newLinkId : Nat) : RouteM Bool := do
  let r ← getRouter rid "bypass for unknown router"
  match r.disconnected, r.outward.primary with
  | false, some old =>
      if old.isLocal then throw (.badParcel "unexpected bypass at a local link")
      if old.linkId ≠ newLinkId then
        let some state := old.linkState
          | throw (.badParcel "bypass source link without state")
        let allowed ← readAllowedBypassSource info old.linkId state
        if allowed ≠ (← remoteNameFor info newLinkId) then
          throw (.badParcel "unauthorized BypassProxy")
      pure true
  | _, _ => pure false

/-- The block that `on_accept_bypass_link` and `on_bypass_peer_with_link`
share: the outward link decays and the new central link takes its place.
None if the route is dysfunctional; else the old sublink and the length of
what goes over it. -/
def adoptCentralLink (rid linkId newSublink : Nat) (fragment : FragmentDescriptor)
    (inboundSequenceLength : Nat) : RouteM (Option (Nat × Nat)) := do
  let r ← getRouter rid "bypass for unknown router"
  match r.disconnected, r.outward.primary with
  | false, some old =>
      if old.isLocal then throw (.badParcel "unexpected bypass at a local link")
      let outward ← r.outward.decayOr "failure to decay link" (some r.outbound.current)
        (some inboundSequenceLength)
      putRouter rid { r with
        outward := outward.setPrimaryLink
          (.remote linkId newSublink .central .b (some fragment)) }
      insertOwner linkId newSublink rid
      pure (some (old.sublink, r.outbound.current))
  | _, _ => pure none

/-- The messages of `on_accept_bypass_link` to the bypassed proxy and to the
new peer. -/
def notifyBypassed (oldLinkId newLinkId oldSublink newSublink length
    inboundSequenceLength : Nat) : RouteM Unit := do
  if oldLinkId ≠ newLinkId then
    sendLinkMessageOn info oldLinkId (.stopProxying oldSublink length inboundSequenceLength) []
    sendLinkMessageOn info newLinkId (.proxyWillStop newSublink length) []
  else
    sendLinkMessageOn info oldLinkId (.stopProxyingToLocalPeer oldSublink length) []

end MojoRs.Ipcz
