/-
MojoRs/Ipcz/Connect.lean

The Connect handshake (`connect` in `routing.rs`), and the routing tables that
it leaves.  The broker's first message brings the memory of the link and the
number of initial portals; the node makes their routers and merges the
bootstrap portal with a new pair of portals (`connect_finalize`).

`connect_handshake` ends with `connect_finalize`, and so do both of its
callers: the bootstrap portal is merged twice, and its second bridge takes the
place of the first one.  The first bridge router keeps its link to the portal,
which no longer has the other end.  `AtBootstrap` is what holds of every router
between the two calls and after them, a bypass of the first bridge included.

Main results: `connect_bridged`, `connect_never_wellFormed`.
-/
import MojoRs.Ipcz.BypassSteps
import MojoRs.Ipcz.DispatchFrames
import MojoRs.Ipcz.LocalFlush
import MojoRs.Ipcz.RouterIdentity

namespace MojoRs.Ipcz

open Function (update)
open Lib

/-! ### The handshake -/

/-- What comes from outside as the node connects: the first message, the
memories behind descriptors, and the far end of the socket pair of the
shared-memory client. -/
structure Handshake where
  first : Except RoutingError (Option (DecodedMessage × List OwnedFd))
  adoptPrimary : OwnedFd → Except String SharedMemory
  socketPair : Except String OwnedFd

/-- `RoutingAcceptor::new`: one link, to the broker, without a memory. -/
def RoutingAcceptor.new : RoutingAcceptor :=
  { RoutingAcceptor.fresh [] with
    info := { NodeInfo.ofLinks [] with
      links := fun id => if id = linkIdBroker then some ⟨.invalid, none⟩ else none
      linkOrder := [linkIdBroker] } }

/-- The link state of an initial portal. -/
def initialLinkState (i : Nat) : FragmentDescriptor :=
  ⟨primaryBufferId, .ofNat (initialLinkStatesOffset + i * routerLinkStateSize),
    .ofNat routerLinkStateSize⟩

/-- The router of an initial portal, on the sublink of its number. -/
def RouteTables.establishPortal (t : RouteTables) (i : Nat) : RouteTables :=
  (t.setOwner (linkIdBroker, i) i).setRouter i
    (.newTerminal (.remote linkIdBroker i .central .b (some (initialLinkState i))))

/-- The first `n` portals of a new link. -/
def RouteTables.establishPortals (t : RouteTables) (n : Nat) : RouteTables :=
  (List.range n).foldl establishPortal t

/-- The broker link gets its memory and its name, and this node its own. -/
def RoutingAcceptor.adoptBroker (s : RoutingAcceptor) (memory : SharedMemory)
    (brokerName receiverName : NodeName) : RoutingAcceptor :=
  { s with
    info := { s.info with
      links := update s.info.links linkIdBroker (some ⟨brokerName, some .empty⟩)
      brokerName
      localName := receiverName }
    tables := s.tables.setMemory linkIdBroker memory }

section Connect

variable (depth : Nat)

/-- `connect_finalize`. -/
def connectFinalize : AcceptorM Unit :=
  inTables fun info => do
    let _ ← setupBootstrapBridge bootstrapSublink
    routerFlush info depth bootstrapSublink false

/-- `connect_handshake`.  The reply is no message of the routers: it goes out
if the broker still takes one. -/
def connectHandshake (hs : Handshake) : AcceptorM Unit := do
  match hs.first with
  | .error e => throw e
  | .ok none => throw (.unexpected "peer closed before Connect")
  | .ok (some (.connectFromBrokerToNonBroker brokerName receiverName _ numInitialPortals _, fds)) =>
      if maxInitialPortals < numInitialPortals.toNat then
        throw (.badParcel "excessive initial portals")
      match fds with
      | [fd] =>
          match hs.adoptPrimary fd with
          | .error e => throw (.io e)
          | .ok memory =>
              modify (·.adoptBroker memory brokerName receiverName)
              if ((← get).tables.channels linkIdBroker).broken then throw .channel
              inTables fun _ => modify (·.establishPortals numInitialPortals.toNat)
              connectFinalize depth
      | _ => throw (.unexpected "Connect carries no link memory")
  | .ok (some _) => throw (.unexpected "first message was not ConnectFromBrokerToNonBroker")

/-- The boxed transport of `send_shared_memory_client_on`: an object header and
a transport header. -/
def sharedMemoryTransport : List UInt8 := [8, 0, 0, 0, 0, 0, 0, 0, 1, 0, 0, 0, 0, 0, 0, 0]

/-- `send_shared_memory_client`. -/
def sendSharedMemoryClient (hs : Handshake) : AcceptorM Unit :=
  inTables fun info => do
    match hs.socketPair with
    | .error e => throw (.io e)
    | .ok fd =>
        sendLinkMessageOn info linkIdBroker
          (.acceptParcel ⟨0, 0, 0, 1, .null, [], [handleTypeBoxedDriverObject], [],
            [⟨sharedMemoryTransport, 0, 1⟩]⟩) [fd]
        sendLinkMessageOn info linkIdBroker (.routeClosed 0 1) []

/-- `connect`. -/
def connect (hs : Handshake) : AcceptorM Unit := do
  connectHandshake depth hs
  sendSharedMemoryClient hs
  connectFinalize depth

/-- `connect_without_shm`. -/
def connectWithoutShm (hs : Handshake) : AcceptorM Unit := do
  connectHandshake depth hs
  connectFinalize depth

end Connect

/-! ### Routing tables -/

/-- All links of a router. -/
def Router.allLinks (r : Router) : List Link :=
  r.routeLinks ++ (r.bridge.map Edge.links).getD []

/-- Every local link has its other end in a live router, every owned sublink is
one of its live owner's links, and every remote link is owned. -/
structure RouteTables.WellFormed (t : RouteTables) : Prop where
  localLinks : ∀ rid r, t.routers rid = some r → ∀ l ∈ r.allLinks, ∀ peer,
    l.localPeer = some peer → ∃ r', t.routers peer = some r' ∧
      ∃ l' ∈ r'.allLinks, l'.localPeer = some rid ∧ l'.localState = l.localState
  owners : ∀ key rid, t.owners key = some rid → ∃ r, t.routers rid = some r ∧
    ∃ l ∈ r.allLinks, l.isLocal = false ∧ l.on key.1 key.2 = true
  remoteLinks : ∀ rid r, t.routers rid = some r → ∀ l ∈ r.allLinks, l.isLocal = false →
    (t.owners (l.linkId, l.sublink)).isSome

/-- What a connected node does: it puts messages, with portals or without,
closes routes, and takes messages that arrive. -/
inductive NodeOp
  | put (rid : Nat) (data : List UInt8) (objects : List Object)
  | close (rid : Nat)
  | receive (m : Arrival)

/-- The node after an operation, whether it succeeded or failed. -/
def RoutingAcceptor.perform (depth : Nat) (s : RoutingAcceptor) : NodeOp → RoutingAcceptor
  | .put rid data objects => endState ((inTables fun info =>
      Ipcz.put info (routerFlush info depth) rid data objects).run s)
  | .close rid => endState ((inTables fun info => closeRoute (routerFlush info depth) rid).run s)
  | .receive m => s.receive depth m

/-! ### Routers with nothing to do -/

/-- No decay of the edge can end, as one of its lengths is not known. -/
def Edge.Undecided (e : Edge) : Prop :=
  ∀ d ∈ e.decaying, d.outgoingLength = none ∨ d.incomingLength = none

theorem Edge.Undecided.maybeFinishDecay {e : Edge} (h : e.Undecided) (sent received : Nat) :
    e.maybeFinishDecay sent received = (false, e) := by
  obtain ⟨primary, decaying⟩ := e
  cases decaying with
  | none => rfl
  | some d =>
      obtain ⟨link, out, inc⟩ := d
      rcases h ⟨link, out, inc⟩ rfl with hout | hinc
      · obtain rfl : out = none := hout
        cases link <;> rfl
      · obtain rfl : inc = none := hinc
        cases link <;> cases out <;> rfl

/-- A router without parcels, open on both sides, whose decays cannot end. -/
inductive Router.Idle : Router → Prop
  | intro {portal : Option Portal} {outward : Edge} {bridge : Option Edge} {n m : Nat}
      {closed disconnected : Bool} (houtward : outward.Undecided)
      (hbridge : ∀ b ∈ bridge, b.Undecided) :
      Idle ⟨portal, outward, none, bridge, ⟨n, none, []⟩, ⟨m, none, []⟩, closed, disconnected⟩

/-- The router is a bridge router that may look for a bypass. -/
def Router.mayBypass (r : Router) : Bool :=
  r.bridge.isSome && (r.outward.primary.isSome && r.outward.isStable)

namespace Router.Idle

variable {r : Router} (h : r.Idle)
include h

theorem collectToFlush : r.collectToFlush = ([], [], r) := by
  cases h with
  | @intro portal outward bridge => cases bridge <;> rfl

theorem finishDecays : r.finishBridgeDecay.finishDecays = ((none, false), (none, false), r) := by
  cases h with
  | @intro portal outward bridge n m closed disconnected houtward hbridge =>
      have hfinish : Router.finishBridgeDecay ⟨portal, outward, none, bridge, ⟨n, none, []⟩,
          ⟨m, none, []⟩, closed, disconnected⟩ = ⟨portal, outward, none, bridge, ⟨n, none, []⟩,
          ⟨m, none, []⟩, closed, disconnected⟩ := by
        cases bridge with
        | none => rfl
        | some b =>
            unfold finishBridgeDecay
            dsimp only
            rw [(hbridge b rfl).maybeFinishDecay]
            rfl
      rw [hfinish]
      unfold Router.finishDecays
      dsimp only
      rw [houtward.maybeFinishDecay]
      rfl

theorem deliver : r.deliver = r := by
  cases h with
  | @intro portal =>
      cases portal with
      | none => rfl
      | some portal =>
          show (⟨some ⟨portal.messages ++ []⟩, _, _, _, _, _, _, _⟩ : Router) = _
          rw [List.append_nil]

theorem inward_none : r.inward = none := by
  cases h with
  | intro => rfl

theorem closures (onCentral : Bool) : r.closures onCentral = (none, none, false, r) := by
  cases h with
  | intro => cases onCentral <;> rfl

end Router.Idle

section Flush

variable {info : NodeInfo} {flush : Nat → Bool → RouteM Unit} {x : Nat} {r : Router}
  {s : RouteTables}

/-- Flushing such a router comes down to the search for a bypass. -/
theorem flush_idle (h : s.routers x = some r) (hr : r.Idle) :
    (routerFlushWith info flush x false).run s =
      (if r.mayBypass then maybeStartBridgeBypass info flush x else pure ⟨⟩ : RouteM Unit).run s := by
  have hparcels : (flushParcels info flush x).run s = .ok ⟨⟩ (s.setRouter x r) :=
    flushParcels_none h hr.collectToFlush
  have hdecays : (flushDecays info x).run s = .ok (false, false) (s.setRouter x r) :=
    flushDecays_run h hr.finishDecays nofun
  have hdelivery : (flushDelivery info x).run s = .ok false s := by
    unfold flushDelivery
    rw [run_bind_of_ok (getRouter_some _ h), hr.deliver]
    dsimp only
    split
    · rw [run_bind_of_ok (putRouter_run _ _ _), RouteTables.setRouter_self h, hr.inward_none]
      rfl
    · rw [hr.inward_none]
      rfl
  have hclosures : ∀ start : FlushStart, (flushClosures info x start).run s =
      .ok (none, none, false) (s.setRouter x r) :=
    fun start => flushClosures_quiet h (hr.closures _)
  rw [RouteTables.setRouter_self h] at hparcels hdecays hclosures
  unfold routerFlushWith
  rw [run_bind_of_ok (flushStart_run h), run_bind_of_ok hparcels, run_bind_of_ok hdecays]
  dsimp only
  rw [run_bind_of_ok hdelivery, if_neg Bool.false_ne_true,
    run_bind_of_ok (flushStability_quiet h _), run_bind_of_ok (hclosures _)]
  dsimp only
  have hbridge : (flushBridge info flush x ⟨r.onCentralLink, r.outwardHasDecaying,
      r.inwardHasDecaying⟩ false false).run s =
      (if r.mayBypass then maybeStartBridgeBypass info flush x else pure ⟨⟩ : RouteM Unit).run s := by
    unfold flushBridge
    rw [run_bind_of_ok (getRouter_some _ h)]
    simp only [Router.mayBypass, hr.inward_none, Router.outwardHasDecaying,
      Router.inwardHasDecaying, Edge.isStable, Option.not_isSome, Bool.or_false, Option.any_none,
      Option.isNone_none, Bool.not_false, Bool.and_true]
    rfl
  rw [EStateM.run_bind, hbridge]
  cases (if r.mayBypass then maybeStartBridgeBypass info flush x else pure ⟨⟩ : RouteM Unit).run s with
  | ok _ s' => exact flushTail_quiet _ _
  | error e s' => rfl

end Flush

/-! ### Routers at the bootstrap portal -/

/-- The edge with its link in decay. -/
def Edge.decayed (e : Edge) (out inc : Option Nat) : Edge := ⟨none, some ⟨e.primary, out, inc⟩⟩

/-- A router while the bridge routers `bridges` have been made for the bootstrap
portal, the last one first: bridges lead to that portal and from it to the last
one, and every bridge router still holds its link. -/
structure Router.AtBootstrap (bridges : List Nat) (rid : Nat) (r : Router) : Prop where
  idle : r.Idle
  remote : rid = bootstrapSublink → ∀ l ∈ r.outward.links, l.isLocal = false
  bridge : ∀ b, r.bridge = some b → ∀ l ∈ b.links,
    l.localPeer = if rid = bootstrapSublink then bridges.head? else some bootstrapSublink
  held : rid ∈ bridges → ∃ b, r.bridge = some b ∧ b.links ≠ []

/-- All routers are as the bootstrap left them, and the bridges are there. -/
structure RouteTables.AtBootstrap (bridges : List Nat) (s : RouteTables) : Prop where
  routers : ∀ rid r, s.routers rid = some r → r.AtBootstrap bridges rid
  live : ∀ b ∈ bridges, (s.routers b).isSome

section Edges

variable {e e' : Edge} {l : Link} {msg : String} {out inc : Option Nat}

theorem Edge.undecided_decayed (e : Edge) (h : out = none ∨ inc = none) :
    (e.decayed out inc).Undecided := by
  intro d hd
  obtain rfl := Option.some.inj hd
  exact h

theorem Edge.links_decayed (h : e.decaying = none) : (e.decayed out inc).links = e.links := by
  simp [decayed, links, decayingLink, h]

theorem Edge.Undecided.setPrimaryLink (h : e.Undecided) (l : Link) :
    (e.setPrimaryLink l).Undecided := by
  obtain ⟨primary, decaying⟩ := e
  rcases decaying with - | ⟨link | old, out, inc⟩
  · exact nofun
  · intro d hd
    obtain rfl := Option.some.inj hd
    exact h ⟨none, out, inc⟩ rfl
  · exact h

theorem Edge.mem_links_setPrimaryLink {l' : Link} (h : l' ∈ (e.setPrimaryLink l).links) :
    l' = l ∨ l' ∈ e.links := by
  obtain ⟨primary, decaying⟩ := e
  rcases decaying with - | ⟨link | old, out, inc⟩
  · left
    simpa [setPrimaryLink, links, decayingLink] using h
  · obtain h | h : l' ∈ primary.toList ∨ l' = l := by
      simpa [setPrimaryLink, links, decayingLink] using h
    · exact .inr (List.mem_append_left _ h)
    · exact .inl h
  · obtain h | h : l' = l ∨ l' = old := by
      simpa [setPrimaryLink, links, decayingLink] using h
    · exact .inl h
    · exact .inr (List.mem_append_right _ (h ▸ List.mem_singleton_self _))

/-- The edge in decay, if none of its links decayed yet. -/
theorem decayOr_yields {P : RouteTables → Prop} :
    Yields P (e.decayOr msg out inc) fun e' => e.decaying = none ∧ e' = e.decayed out inc := by
  obtain ⟨primary, decaying⟩ := e
  cases decaying with
  | some d => exact yields_throw _
  | none => cases out <;> cases inc <;> exact yields_pure ⟨rfl, rfl⟩

end Edges

namespace Router.AtBootstrap

variable {bs : List Nat} {rid : Nat} {r : Router} {b : Edge} {out inc : Option Nat}
  (h : r.AtBootstrap bs rid)
include h

theorem withOutward {e : Edge} (he : e.Undecided)
    (hremote : rid = bootstrapSublink → ∀ l ∈ e.links, l.isLocal = false) :
    ({ r with outward := e }).AtBootstrap bs rid := by
  refine ⟨?_, hremote, h.bridge, h.held⟩
  cases h.idle with
  | intro houtward hbridge => exact .intro he hbridge

theorem decayOutward (hlen : out = none ∨ inc = none) (hdecaying : r.outward.decaying = none) :
    ({ r with outward := r.outward.decayed out inc }).AtBootstrap bs rid :=
  h.withOutward (Edge.undecided_decayed _ hlen) (by
    rw [Edge.links_decayed hdecaying]
    exact h.remote)

theorem decayBridge (hlen : out = none ∨ inc = none) (hb : r.bridge = some b)
    (hdecaying : b.decaying = none) :
    ({ r with bridge := some (b.decayed out inc) }).AtBootstrap bs rid where
  idle := by
    cases h.idle with
    | intro houtward hbridge =>
        refine .intro houtward fun e he => ?_
        obtain rfl := Option.some.inj he
        exact Edge.undecided_decayed _ hlen
  remote := h.remote
  bridge e he := by
    obtain rfl := Option.some.inj he
    rw [Edge.links_decayed hdecaying]
    exact h.bridge b hb
  held hmem := by
    obtain ⟨b', hb', hlinks⟩ := h.held hmem
    obtain rfl := Option.some.inj (hb.symm.trans hb')
    exact ⟨_, rfl, (Edge.links_decayed hdecaying).symm ▸ hlinks⟩

theorem setPrimaryOutward {l : Link} (hl : l.isLocal = false) :
    ({ r with outward := r.outward.setPrimaryLink l }).AtBootstrap bs rid := by
  refine h.withOutward ?_ fun hrid l' hl' => ?_
  · cases h.idle with
    | intro houtward hbridge => exact houtward.setPrimaryLink l
  · rcases Edge.mem_links_setPrimaryLink hl' with rfl | hl'
    · exact hl
    · exact h.remote hrid l' hl'

end Router.AtBootstrap

/-! ### Bypasses at the bootstrap portal -/

section Bypass

variable {info : NodeInfo} {bs : List Nat} {rid : Nat} {r : Router} {s s' : RouteTables}
  {flush : Nat → Bool → RouteM Unit} {out inc : Option Nat}

theorem RouteTables.AtBootstrap.ofRouters (h : s.AtBootstrap bs) (hr : s'.routers = s.routers) :
    s'.AtBootstrap bs :=
  ⟨hr ▸ h.routers, hr ▸ h.live⟩

theorem RouteTables.AtBootstrap.setRouter (h : s.AtBootstrap bs) (hr : r.AtBootstrap bs rid) :
    (s.setRouter rid r).AtBootstrap bs := by
  constructor
  · intro rid' r' hr'
    by_cases hrid : rid' = rid
    · subst hrid
      rw [setRouter_routers_self] at hr'
      obtain rfl := Option.some.inj hr'
      exact hr
    · rw [setRouter_routers_ne _ _ hrid] at hr'
      exact h.routers rid' r' hr'
  · intro b hb
    by_cases hrid : b = rid
    · rw [hrid, setRouter_routers_self]
      rfl
    · rw [setRouter_routers_ne _ _ hrid]
      exact h.live b hb

theorem atBootstrap_quiet {α : Type} {x : RouteM α} (hx : Maintains RouteTables.Quiet x) :
    Yields (RouteTables.AtBootstrap bs) x fun _ => True :=
  hx.yields fun _ _ hq h => h.ofRouters hq.routers

theorem atBootstrap_sameStatus {α : Type} {x : RouteM α} (hx : Maintains RouteTables.SameStatus x) :
    Yields (RouteTables.AtBootstrap bs) x fun _ => True :=
  hx.yields fun _ _ hq h => h.ofRouters hq.routers

theorem putRouter_atBootstrap (hr : r.AtBootstrap bs rid) :
    Yields (RouteTables.AtBootstrap bs) (putRouter rid r) fun _ => True :=
  yields_modify fun _ h => h.setRouter hr

theorem getRouter_atBootstrap (missing : String) :
    Yields (RouteTables.AtBootstrap bs) (getRouter rid missing) (·.AtBootstrap bs rid) := by
  refine fun s hs => ⟨?_, fun r s' hrun => hs.routers rid r (getRouter_ok hrun).1⟩
  rcases getRouter_cases rid missing s with ⟨err, hget⟩ | ⟨r, -, hget⟩
  · rw [hget]
    exact hs
  · rw [hget]
    exact hs

theorem decayOutward_atBootstrap (missing msg : String) (hlen : out = none ∨ inc = none) :
    Yields (RouteTables.AtBootstrap bs) (decayOutward rid missing msg out inc) fun _ => True := by
  unfold decayOutward
  refine Yields.bind (getRouter_atBootstrap _) fun r hr => ?_
  refine Yields.bind decayOr_yields ?_
  rintro _ ⟨hdecaying, rfl⟩
  exact putRouter_atBootstrap (hr.decayOutward hlen hdecaying)

theorem decayBridge_atBootstrap (missing noBridge msg : String) (hlen : out = none ∨ inc = none) :
    Yields (RouteTables.AtBootstrap bs) (decayBridge rid missing noBridge msg out inc)
      fun _ => True := by
  unfold decayBridge
  refine Yields.bind (getRouter_atBootstrap _) fun r hr => ?_
  cases hb : r.bridge with
  | none => exact yields_throw _
  | some b =>
      refine Yields.bind decayOr_yields ?_
      rintro _ ⟨hdecaying, rfl⟩
      exact putRouter_atBootstrap (hr.decayBridge hlen hb hdecaying)

theorem decayFiveEdges_atBootstrap (a p o len : Nat) :
    Yields (RouteTables.AtBootstrap bs) (decayFiveEdges a p o len) fun _ => True := by
  unfold decayFiveEdges
  refine Yields.bind (decayOutward_atBootstrap _ _ (.inr rfl)) fun _ _ => ?_
  refine Yields.bind (decayOutward_atBootstrap _ _ (.inr rfl)) fun _ _ => ?_
  refine Yields.bind (decayBridge_atBootstrap _ _ _ (.inr rfl)) fun _ _ => ?_
  refine Yields.bind (decayOutward_atBootstrap _ _ (.inl rfl)) fun _ _ => ?_
  exact decayBridge_atBootstrap _ _ _ (.inl rfl)

theorem decayBothEdges_atBootstrap (rid : Nat) :
    Yields (RouteTables.AtBootstrap bs) (decayBothEdges rid) fun _ => True := by
  unfold decayBothEdges
  refine Yields.bind yields_get fun s hs => ?_
  cases hr : s.routers rid with
  | none => exact yields_pure trivial
  | some r =>
      have h := hs.routers rid r hr
      refine Yields.bind decayOr_yields ?_
      rintro _ ⟨hdecaying, rfl⟩
      have hout : ({ r with outward := r.outward.decayed none none }).AtBootstrap bs rid :=
        h.decayOutward (.inl rfl) hdecaying
      refine Yields.bind (putRouter_atBootstrap hout) fun _ _ => ?_
      cases hb : r.bridge with
      | none => exact yields_pure trivial
      | some b =>
          refine Yields.bind decayOr_yields ?_
          rintro _ ⟨hdecaying', rfl⟩
          exact putRouter_atBootstrap (hout.decayBridge (.inl rfl) hb hdecaying')

theorem setOutwardLink_atBootstrap {l : Link} (hl : l.isLocal = false) :
    Yields (RouteTables.AtBootstrap bs) (setOutwardLink info rid l) fun _ => True := by
  have hput : Yields (RouteTables.AtBootstrap bs) (do
      let r ← getRouter rid "set outward link for unknown router"
      if !r.disconnected then
        putRouter rid { r with outward := r.outward.setPrimaryLink l }) fun _ => True := by
    refine Yields.bind (getRouter_atBootstrap _) fun r hr => ?_
    split_ifs
    · exact putRouter_atBootstrap (hr.setPrimaryOutward hl)
    · exact yields_pure trivial
  unfold setOutwardLink
  refine Yields.bind (getRouter_atBootstrap _) fun r hr => ?_
  split_ifs
  · exact Yields.bind (atBootstrap_quiet (markSideStableOnLink_quiet l)) fun _ _ => hput
  · exact hput

theorem remotePeers_atBootstrap (first second : Link) (second' : Nat) :
    Yields (RouteTables.AtBootstrap bs) (bypassRemotePeers info rid second' first second)
      fun _ => True := by
  unfold bypassRemotePeers
  refine Yields.bind (yields_forM fun _ _ => decayBothEdges_atBootstrap _) fun _ _ => ?_
  refine Yields.bind (atBootstrap_quiet (remoteNameFor_keeps _)) fun _ _ => ?_
  exact atBootstrap_sameStatus (sendLinkMessageOn_sameStatus _ _ _)

/-- One of the two outward links of a bridge is remote. -/
theorem bridgePair_remote {second : Nat} {first secondLink : Link} (h : s.AtBootstrap bs)
    (hpair : s.bridgePair rid = some (second, first, secondLink)) :
    first.localPeer = none ∨ secondLink.localPeer = none := by
  obtain ⟨r, b, r', hr, hb, -, hsecond, hfirst, hr', hsecondLink⟩ := bridgePair_eq_some.mp hpair
  have hprimary : ∀ {e : Edge} {l : Link}, e.primary = some l → l ∈ e.links := by
    intro e l hl
    rw [Edge.links, hl]
    exact List.mem_cons_self
  have hremote : ∀ {l : Link}, l.isLocal = false → l.localPeer = none := by
    intro l hl
    simpa [Link.isLocal] using hl
  by_cases hrid : rid = bootstrapSublink
  · left
    exact hremote ((h.routers rid r hr).remote hrid first (hprimary hfirst))
  · right
    -- the bridge of any other router leads to the bootstrap portal
    obtain ⟨l, hl, hpeer⟩ := Option.bind_eq_some_iff.mp hsecond
    have hto := (h.routers rid r hr).bridge b hb l (hprimary hl)
    rw [if_neg hrid, hpeer] at hto
    exact hremote ((h.routers second r' hr').remote (Option.some.inj hto) _ (hprimary hsecondLink))

variable (hflush : ∀ rid, Yields (RouteTables.AtBootstrap bs) (flush rid false) fun _ => True)
include hflush

theorem startBypass_atBootstrap (linkState : FragmentDescriptor) :
    Yields (RouteTables.AtBootstrap bs) (startBridgeBypassFromLocalPeer info flush rid linkState)
      fun _ => True := by
  unfold startBridgeBypassFromLocalPeer
  refine Yields.bind yields_get fun s _ => ?_
  cases s.localBypass rid with
  | none => exact yields_pure trivial
  | some peers =>
      refine Yields.bind (atBootstrap_quiet bypassRemoteLink_keeps) fun link _ => ?_
      refine Yields.bind (atBootstrap_quiet outboundLengthOf_keeps) fun len _ => ?_
      refine Yields.bind (atBootstrap_quiet (allocateSublinkIds_quiet _ _)) fun sublink _ => ?_
      refine Yields.bind (decayFiveEdges_atBootstrap _ _ _ _) fun _ _ => ?_
      refine Yields.bind (atBootstrap_sameStatus (sendLinkMessageOn_sameStatus _ _ _)) fun _ _ => ?_
      refine Yields.bind (setOutwardLink_atBootstrap rfl) fun _ _ => ?_
      refine Yields.bind (atBootstrap_quiet (insertOwner_quiet _ _ _)) fun _ _ => ?_
      refine Yields.bind (hflush _) fun _ _ => ?_
      exact Yields.bind (hflush _) fun _ _ => hflush _

theorem bypassFromLocalPeer_atBootstrap (linkId : Nat) :
    Yields (RouteTables.AtBootstrap bs) (bypassFromLocalPeer info flush rid linkId)
      fun _ => True := by
  unfold bypassFromLocalPeer
  refine Yields.bind (atBootstrap_quiet (tryAllocateLinkState_quiet _)) fun block _ => ?_
  cases block with
  | none => exact atBootstrap_sameStatus (requestBlockCapacity_sameStatus _ _)
  | some linkState =>
      refine Yields.bind (atBootstrap_quiet (addLinkStateRef_quiet _ _)) fun _ _ => ?_
      exact startBypass_atBootstrap hflush linkState

theorem bypassBridge_atBootstrap {second : Nat} {first secondLink : Link}
    (hremote : first.localPeer = none ∨ secondLink.localPeer = none) :
    Yields (RouteTables.AtBootstrap bs) (bypassBridge info flush rid second first secondLink)
      fun _ => True := by
  unfold bypassBridge
  split
  · exact remotePeers_atBootstrap _ _ _
  · exact bypassFromLocalPeer_atBootstrap hflush _
  · exact bypassFromLocalPeer_atBootstrap hflush _
  · next h h' =>
      rw [h, h'] at hremote
      exact absurd hremote (by simp)

theorem maybeStartBridgeBypass_atBootstrap :
    Yields (RouteTables.AtBootstrap bs) (maybeStartBridgeBypass info flush rid) fun _ => True := by
  intro s hs
  unfold maybeStartBridgeBypass
  rw [run_get_bind]
  rcases hpair : s.bridgePair rid with - | ⟨second, first, secondLink⟩
  · exact yields_pure trivial s hs
  · have hremote := bridgePair_remote hs hpair
    refine Yields.bind (atBootstrap_quiet ?_) (fun locked _ => ?_) s hs
    · exact lockBridge_quiet _ _
    · split_ifs
      · exact bypassBridge_atBootstrap hflush hremote
      · exact yields_pure trivial

end Bypass

/-- A flush of a router that is gone. -/
theorem flush_gone {info : NodeInfo} {flush : Nat → Bool → RouteM Unit} {rid : Nat} {force : Bool}
    {s : RouteTables} (h : s.routers rid = none) :
    endState ((routerFlushWith info flush rid force).run s) = s := by
  have hstart : ∃ e, (flushStart rid).run s = .error e s := by
    unfold flushStart
    rw [EStateM.run_bind, getRouter_none _ h]
    exact ⟨_, rfl⟩
  obtain ⟨e, hstart⟩ := hstart
  unfold routerFlushWith
  rw [EStateM.run_bind, hstart]
  rfl

theorem routerFlush_atBootstrap {info : NodeInfo} {bs : List Nat} (depth rid : Nat) :
    Yields (RouteTables.AtBootstrap bs) (routerFlush info depth rid false) fun _ => True := by
  induction depth generalizing rid with
  | zero => exact yields_throw _
  | succ depth ih =>
      refine fun s hs => ⟨?_, fun _ _ _ => trivial⟩
      show RouteTables.AtBootstrap bs (endState ((routerFlushWith info _ rid false).run s))
      cases hr : s.routers rid with
      | none =>
          rw [flush_gone hr]
          exact hs
      | some r =>
          rw [flush_idle hr (hs.routers rid r hr).idle]
          split_ifs
          · exact (maybeStartBridgeBypass_atBootstrap ih s hs).1
          · exact hs

/-! ### Two bridges for one portal -/

section Finalize

variable {bs : List Nat} {s s' : RouteTables} {rid n : Nat}

theorem idle_newTerminal (l : Link) : (Router.newTerminal l).Idle := by
  refine .intro (fun d hd => ?_) fun b hb => ?_
  · cases hd
  · cases hb

theorem newLocalPair_run (kind : LinkKind) (side : LinkSide) (a b : Nat) (stable : Bool) :
    ∃ s' : RouteTables, s'.routers = s.routers ∧ s'.nextRid = s.nextRid ∧
      (newLocalPair kind side a b stable).run s =
        .ok (Link.localPair kind side a b s.nextLocalState) s' :=
  ⟨{ s.setLocalState s.nextLocalState (.new stable) with
    nextLocalState := s.nextLocalState + 1 }, rfl, rfl, rfl⟩

/-- The routers after `setup_bootstrap_bridge`. -/
theorem setupBootstrapBridge_ok (h : (setupBootstrapBridge rid).run s = .ok n s') :
    ∃ r toBridge toPortal central attach, s.routers rid = some r ∧
      toBridge.localPeer = some s.nextRid ∧ toPortal.localPeer = some rid ∧
      s'.nextRid = s.nextRid + 2 ∧
      s'.routers = update (update (update s.routers rid
        (some { r with bridge := some ⟨some toBridge, none⟩ })) s.nextRid
        (some { Router.newTerminal central with bridge := some ⟨some toPortal, none⟩ }))
        (s.nextRid + 1) (some (.newTerminal attach)) := by
  unfold setupBootstrapBridge at h
  rw [run_get_bind, run_bind_of_ok (run_modify _ _)] at h
  dsimp only at h
  obtain ⟨s₁, hrouters₁, hnext₁, hroute⟩ := newLocalPair_run
    (s := { s with nextRid := s.nextRid + 2 }) .central .a (s.nextRid + 1) s.nextRid true
  rw [run_bind_of_ok hroute] at h
  obtain ⟨s₂, hrouters₂, hnext₂, hbridge⟩ := newLocalPair_run
    (s := s₁) .bridge .a rid s.nextRid false
  dsimp only at h
  rw [run_bind_of_ok hbridge, run_get_bind, hrouters₂, hrouters₁] at h
  dsimp only at h
  cases hr : s.routers rid with
  | none =>
      rw [hr] at h
      exact absurd h nofun
  | some r =>
      rw [hr] at h
      dsimp only at h
      rw [run_bind_of_ok (putRouter_run _ _ _), run_bind_of_ok (putRouter_run _ _ _),
        run_bind_of_ok (putRouter_run _ _ _)] at h
      obtain ⟨-, hs⟩ := pure_eq_ok.mp h
      subst hs
      refine ⟨r, (Link.localPair .bridge .a rid s.nextRid s₁.nextLocalState).1,
        (Link.localPair .bridge .a rid s.nextRid s₁.nextLocalState).2,
        (Link.localPair .central .a (s.nextRid + 1) s.nextRid s.nextLocalState).2,
        (Link.localPair .central .a (s.nextRid + 1) s.nextRid s.nextLocalState).1,
        rfl, rfl, rfl, ?_, ?_⟩
      · exact hnext₂.trans hnext₁
      · show update (update (update s₂.routers _ _) _ _) _ _ = _
        rw [hrouters₂, hrouters₁]
/-- A router with a new bridge. -/
theorem Router.Idle.atBridge {r : Router} (hidle : r.Idle) {l : Link}
    (hremote : rid = bootstrapSublink → ∀ l ∈ r.outward.links, l.isLocal = false)
    (hl : l.localPeer = if rid = bootstrapSublink then bs.head? else some bootstrapSublink) :
    ({ r with bridge := some ⟨some l, none⟩ }).AtBootstrap bs rid where
  idle := by
    cases hidle with
    | intro houtward hbridge =>
        refine .intro houtward fun b hb d hd => ?_
        obtain rfl := Option.some.inj hb
        cases hd
  remote := hremote
  bridge b hb l' hl' := by
    obtain rfl := Option.some.inj hb
    rw [List.mem_singleton.mp hl', hl]
  held _ := ⟨_, rfl, List.cons_ne_nil _ _⟩

/-- A router without a bridge. -/
theorem Router.Idle.offBridge {r : Router} (hidle : r.Idle) (hb : r.bridge = none)
    (hremote : rid = bootstrapSublink → ∀ l ∈ r.outward.links, l.isLocal = false)
    (hmem : rid ∉ bs) : r.AtBootstrap bs rid where
  idle := hidle
  remote := hremote
  bridge b hb' := by
    rw [hb] at hb'
    cases hb'
  held h := absurd h hmem

/-- A new bridge router takes the place of the last one. -/
theorem setupBootstrapBridge_atBootstrap (hs : s.AtBootstrap bs)
    (hfresh : bootstrapSublink < s.nextRid) (hbs : ∀ b ∈ bs, b < s.nextRid)
    (h : (setupBootstrapBridge bootstrapSublink).run s = .ok n s') :
    s'.AtBootstrap (s.nextRid :: bs) ∧ s'.nextRid = s.nextRid + 2 := by
  obtain ⟨r, toBridge, toPortal, central, attach, hr, hbridge, hportal, hnext, hrouters⟩ :=
    setupBootstrapBridge_ok h
  have hattach : s.nextRid + 1 ≠ bootstrapSublink := by omega
  have hnew : s.nextRid ≠ bootstrapSublink := by omega
  refine ⟨⟨fun rid r' hr' => ?_, fun b hb => ?_⟩, hnext⟩
  -- four kinds of routers: the terminal to attach, the new bridge, the portal, and the others
  · rw [hrouters] at hr'
    by_cases h₁ : rid = s.nextRid + 1
    · subst h₁
      rw [Function.update_self] at hr'
      obtain rfl := Option.some.inj hr'
      refine (idle_newTerminal attach).offBridge rfl (fun h => absurd h hattach) fun hmem => ?_
      rcases List.mem_cons.mp hmem with hmem | hmem
      · omega
      · have := hbs _ hmem
        omega
    rw [Function.update_of_ne h₁] at hr'
    by_cases h₂ : rid = s.nextRid
    · subst h₂
      rw [Function.update_self] at hr'
      obtain rfl := Option.some.inj hr'
      refine (idle_newTerminal central).atBridge (fun h => absurd h hnew) ?_
      rw [if_neg hnew, hportal]
    rw [Function.update_of_ne h₂] at hr'
    by_cases h₃ : rid = bootstrapSublink
    · subst h₃
      rw [Function.update_self] at hr'
      obtain rfl := Option.some.inj hr'
      -- the bootstrap portal is bridged to the new router now
      have hold := hs.routers _ r hr
      refine hold.idle.atBridge hold.remote ?_
      rw [if_pos rfl, hbridge]
      rfl
    · rw [Function.update_of_ne h₃] at hr'
      have hold := hs.routers rid r' hr'
      refine ⟨hold.idle, hold.remote, ?_, fun hmem => ?_⟩
      -- a router that was the last bridge is one of the others
      · rw [if_neg h₃]
        have hto := hold.bridge
        rwa [if_neg h₃] at hto
      · exact hold.held ((List.mem_cons.mp hmem).resolve_left h₂)
  · rw [hrouters]
    by_cases h₁ : b = s.nextRid + 1
    · rw [h₁, Function.update_self]
      rfl
    rw [Function.update_of_ne h₁]
    by_cases h₂ : b = s.nextRid
    · rw [h₂, Function.update_self]
      rfl
    rw [Function.update_of_ne h₂]
    by_cases h₃ : b = bootstrapSublink
    · rw [h₃, Function.update_self]
      rfl
    · rw [Function.update_of_ne h₃]
      exact hs.live b ((List.mem_cons.mp hb).resolve_left h₂)

/-- The bridge routers of the bootstrap portal, with numbers that will not come again. -/
structure RouteTables.Bridged (bs : List Nat) (s : RouteTables) : Prop where
  atBootstrap : s.AtBootstrap bs
  portal : bootstrapSublink < s.nextRid
  numbers : ∀ b ∈ bs, bootstrapSublink < b ∧ b < s.nextRid
  distinct : bs.Nodup

/-- A flush makes no routers. -/
theorem nextRid_frame (k : Nat) : FlushFrame (fun s => s.nextRid = k) fun _ => True where
  holds _ _ := .any _
  quiet h hq := hq.nextRid.trans h
  setRouter _ _ h _ := h
  note _ _ h := h
  dropRouter _ h := h
  send _ _ _ h _ := h
  log _ _ h := h

theorem connectFinalize_bridged {depth : Nat} {s s' : RoutingAcceptor} (hs : s.tables.Bridged bs)
    (h : (connectFinalize depth).run s = .ok ⟨⟩ s') :
    s'.tables.Bridged (s.tables.nextRid :: bs) := by
  obtain ⟨n, t, hsetup, hflush⟩ := bind_eq_ok.mp (inTables_ok h)
  obtain ⟨ht, hnext⟩ := setupBootstrapBridge_atBootstrap hs.atBootstrap hs.portal
    (fun b hb => (hs.numbers b hb).2) hsetup
  have hat := (routerFlush_atBootstrap depth bootstrapSublink).ok ht hflush
  have hrid : s'.tables.nextRid = s.tables.nextRid + 2 :=
    ((nextRid_frame _).routerFlush depth false).ok hnext hflush
  have hportal := hs.portal
  refine ⟨hat, by omega, fun b hb => ?_, List.nodup_cons.mpr ⟨fun hmem => ?_, hs.distinct⟩⟩
  · rcases List.mem_cons.mp hb with rfl | hb
    · omega
    · have := hs.numbers b hb
      omega
  · exact absurd (hs.numbers _ hmem).2 (lt_irrefl _)

/-- With two bridge routers, the first is left behind. -/
theorem RouteTables.Bridged.not_wellFormed {b b' : Nat} (hs : s.Bridged (b :: b' :: bs)) :
    ¬ s.WellFormed := by
  intro hwf
  have hb' : b' ∈ b :: b' :: bs := List.mem_cons_of_mem _ List.mem_cons_self
  obtain ⟨r, hr⟩ := Option.isSome_iff_exists.mp (hs.atBootstrap.live b' hb')
  have hleft := hs.atBootstrap.routers b' r hr
  obtain ⟨e, he, hlinks⟩ := hleft.held hb'
  obtain ⟨l, hl⟩ := List.exists_mem_of_ne_nil _ hlinks
  have hne : b' ≠ bootstrapSublink := (hs.numbers b' hb').1.ne'
  have hpeer := hleft.bridge e he l hl
  rw [if_neg hne] at hpeer
  have hlinks : l ∈ r.allLinks := by
    rw [Router.allLinks, he]
    exact List.mem_append_right _ hl
  obtain ⟨r', hr', l', hl', hback, -⟩ := hwf.localLinks b' r hr l hlinks _ hpeer
  have hportal := hs.atBootstrap.routers _ r' hr'
  rw [Router.allLinks, Router.routeLinks, hportal.idle.inward_none, List.append_assoc] at hl'
  rcases List.mem_append.mp hl' with hl' | hl'
  · have hremote := hportal.remote rfl l' hl'
    rw [Link.isLocal, hback] at hremote
    cases hremote
  · obtain ⟨e', he', hl'⟩ : ∃ e', r'.bridge = some e' ∧ l' ∈ e'.links := by
      cases hbridge : r'.bridge with
      | none =>
          rw [hbridge] at hl'
          cases hl'
      | some e' =>
          rw [hbridge] at hl'
          exact ⟨e', rfl, hl'⟩
    -- the portal's bridge leads to the new bridge router
    have hto := hportal.bridge e' he' l' hl'
    rw [if_pos rfl, hback] at hto
    obtain rfl : b' = b := Option.some.inj hto
    exact (List.nodup_cons.mp hs.distinct).1 List.mem_cons_self

end Finalize

/-! ### The handshake makes the first bridge -/

section Handshake

variable {depth : Nat} {hs : Handshake} {s' : RoutingAcceptor}

/-- The routers of the initial portals have remote links only. -/
theorem establishPortals_bridged {t : RouteTables} (ht : t.Bridged []) (n : Nat) :
    (t.establishPortals n).Bridged [] := by
  unfold RouteTables.establishPortals
  induction List.range n generalizing t with
  | nil => exact ht
  | cons i is ih =>
      apply ih
      refine ⟨?_, ht.portal, nofun, List.nodup_nil⟩
      have hidle := idle_newTerminal
        (.remote linkIdBroker i .central .b (some (initialLinkState i)))
      refine (ht.atBootstrap.ofRouters rfl : (t.setOwner (linkIdBroker, i) i).AtBootstrap []).setRouter
        (hidle.offBridge rfl (fun _ l hl => ?_) List.not_mem_nil)
      obtain rfl := List.mem_singleton.mp hl
      rfl

theorem new_bridged : RoutingAcceptor.new.tables.Bridged [] := by
  have hnone : RoutingAcceptor.new.tables.routers = fun _ => none := rfl
  refine ⟨⟨fun rid r hr => ?_, fun b hb => ?_⟩, by decide, fun b hb => ?_, List.nodup_nil⟩
  · rw [hnone] at hr
    cases hr
  · exact absurd hb List.not_mem_nil
  · exact absurd hb List.not_mem_nil

/-- The first call of `connect_finalize` has been made. -/
theorem connectHandshake_bridged (h : (connectHandshake depth hs).run .new = .ok ⟨⟩ s') :
    ∃ b, s'.tables.Bridged [b] := by
  unfold connectHandshake at h
  split at h
  · exact absurd h nofun
  · exact absurd h nofun
  · next brokerName receiverName _ n _ fds _ =>
      split_ifs at h
      · exact absurd h nofun
      dsimp only at h
      split at h
      · split at h
        · exact absurd h nofun
        · next memory _ =>
            obtain ⟨⟨⟩, s₁, hadopt, h₁⟩ := bind_eq_ok.mp h
            have ht : s₁.tables.Bridged [] := by
              cases hadopt
              exact ⟨new_bridged.atBootstrap.ofRouters rfl, new_bridged.portal, nofun,
                List.nodup_nil⟩
            rw [run_get_bind] at h₁
            split_ifs at h₁
            · exact absurd h₁ nofun
            · obtain ⟨⟨⟩, s₂, hportals, hfinalize⟩ := bind_eq_ok.mp h₁
              have hportals' := inTables_ok hportals
              have ht' : s₂.tables.Bridged [] := by
                injection hportals' with _ hs
                exact hs ▸ establishPortals_bridged ht n.toNat
              exact ⟨_, connectFinalize_bridged ht' hfinalize⟩
      · exact absurd h nofun
  · exact absurd h nofun

/-- What goes to the broker leaves the routers alone. -/
theorem sendSharedMemoryClient_bridged {s : RoutingAcceptor} {bs : List Nat}
    (hs' : s.tables.Bridged bs) (h : (sendSharedMemoryClient hs).run s = .ok ⟨⟩ s') :
    s'.tables.Bridged bs := by
  have hsend : ∀ info msg fds, Yields (RouteTables.Bridged bs)
      (sendLinkMessageOn info linkIdBroker msg fds) fun _ => True := by
    intro info msg fds
    refine yields_send _ _ _ fun t ht => ?_
    exact ⟨ht.atBootstrap.ofRouters rfl, ht.portal, ht.numbers, ht.distinct⟩
  have hrun := inTables_ok h
  split at hrun
  · exact absurd hrun nofun
  · exact (Yields.bind (hsend _ _ _) fun _ _ => hsend _ _ _).ok hs' hrun

/-- Whichever way it connects, the node has called `connect_finalize` twice. -/
theorem connect_bridged (h : (connect depth hs).run .new = .ok ⟨⟩ s' ∨
    (connectWithoutShm depth hs).run .new = .ok ⟨⟩ s') :
    ∃ b b', s'.tables.Bridged [b, b'] := by
  rcases h with h | h
  · obtain ⟨⟨⟩, s₁, hshake, h₁⟩ := bind_eq_ok.mp h
    obtain ⟨⟨⟩, s₂, hsend, hfinalize⟩ := bind_eq_ok.mp h₁
    obtain ⟨b, hb⟩ := connectHandshake_bridged hshake
    exact ⟨_, b, connectFinalize_bridged (sendSharedMemoryClient_bridged hb hsend) hfinalize⟩
  · obtain ⟨⟨⟩, s₁, hshake, hfinalize⟩ := bind_eq_ok.mp h
    obtain ⟨b, hb⟩ := connectHandshake_bridged hshake
    exact ⟨_, b, connectFinalize_bridged hb hfinalize⟩

end Handshake

/-- A node that has connected has tables that are not well formed, before any
operation and so in every run. -/
theorem connect_never_wellFormed (depth : Nat) (hs : Handshake) (s : RoutingAcceptor)
    (h : (connect depth hs).run .new = .ok ⟨⟩ s ∨ (connectWithoutShm depth hs).run .new = .ok ⟨⟩ s)
    (ops : List NodeOp) :
    ¬ Always (RoutingAcceptor.perform depth) (fun s => s.tables.WellFormed) s ops := by
  obtain ⟨b, b', hbridged⟩ := connect_bridged h
  intro halways
  have hwf : s.tables.WellFormed := by
    cases ops with
    | nil => exact halways
    | cons op ops => exact halways.1
  exact hbridged.not_wellFormed hwf

/-- A broker's message with two initial portals, and its memory. -/
def twoPortalHandshake : Handshake where
  first := .ok (some (.connectFromBrokerToNonBroker ⟨1, 1⟩ ⟨2, 2⟩ 0 2 0, [⟨5, 131072⟩]))
  adoptPrimary _ := .ok .fresh
  socketPair := .ok ⟨6, 0⟩

theorem connect_twoPortals_ok : ∃ s, (connect 1 twoPortalHandshake).run .new = .ok ⟨⟩ s := by
  have hok : (match (connect 1 twoPortalHandshake).run .new with
      | .ok _ _ => true
      | .error _ _ => false) = true := by decide +kernel
  cases hrun : (connect 1 twoPortalHandshake).run .new with
  | ok _ s => exact ⟨s, rfl⟩
  | error e s =>
      rw [hrun] at hok
      cases hok

theorem connect_twoPortals : ∃ s, (connect 1 twoPortalHandshake).run .new = .ok ⟨⟩ s ∧
    ∀ ops, ¬ Always (RoutingAcceptor.perform 1) (fun s => s.tables.WellFormed) s ops := by
  obtain ⟨s, h⟩ := connect_twoPortals_ok
  exact ⟨s, h, connect_never_wellFormed 1 twoPortalHandshake s (.inl h)⟩

/-- Its first bridge router holds a link to a router that holds none back. -/
theorem twoPortals_orphaned : ∃ s, (connect 1 twoPortalHandshake).run .new = .ok ⟨⟩ s ∧
    ¬ s.tables.WellFormed := by
  obtain ⟨s, h⟩ := connect_twoPortals_ok
  obtain ⟨b, b', hbridged⟩ := connect_bridged (.inl h)
  exact ⟨s, h, hbridged.not_wellFormed⟩

end MojoRs.Ipcz
