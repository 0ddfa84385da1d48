/-
MojoRs/Ipcz/BypassAuthority.lean

Who may take over a route (`on_bypass_peer_with_link` and
`on_accept_bypass_link`).  A bypass message names a sublink, and the router that
owns it gets a new outward link on the node link of the message; the old link
decays, and the node behind it is told to stop.  The old link is found in the
router: it may lie on another node link than the named sublink.

What a bypass message does is said by three things: the replacements in the log
of the node, the sublinks that are told to stop (`RouteTables.stops`), and the
routers.  All that follows a replacement, the replay of early parcels and the
flush, replaces no link and tells nobody to stop (`Follows`).

Main results: `receive_refused`, `receive_taken`, `bypass_authorized_iff`.
-/
import MojoRs.Ipcz.RouterIdentity

namespace MojoRs.Ipcz

open Function (update)
open Lib

/-! ### Bypass messages -/

namespace RouteMessage

/-- The messages that bring a new outward link. -/
def isBypass : RouteMessage → Bool
  | .bypassPeerWithLink .. | .acceptBypassLink .. => true
  | _ => false

/-- The sublink of a message that tells a proxy to stop. -/
def stopSublink : RouteMessage → Option Nat
  | .stopProxying sublink _ _ | .stopProxyingToLocalPeer sublink _ => some sublink
  | _ => none

end RouteMessage

/-- The sublinks that were told to stop on each link, in order. -/
def RouteTables.stops (t : RouteTables) (linkId : Nat) : List Nat :=
  (t.channels linkId).sent.filterMap fun entry => entry.2.1.stopSublink

namespace RoutingAcceptor

variable (s : RoutingAcceptor)

/-- The routers that got a new outward link on the way to `s'`, with the tables
before and after. -/
def replacements (s' : RoutingAcceptor) : List (Nat × RouteTables × RouteTables) :=
  (s'.adoptions.drop s.adoptions.length).filterMap fun e => e.1.router.map (·, e.2)

/-- The sublinks that were told to stop on the way to `s'`. -/
def newStops (s' : RoutingAcceptor) (linkId : Nat) : List Nat :=
  (s'.tables.stops linkId).drop (s.tables.stops linkId).length

/-- The link is locked, and the node behind `linkId` may request its bypass. -/
def LockedFor (old : Link) (linkId : Nat) : Prop :=
  ∃ state ∈ old.linkState, ∃ l ∈ s.info.links linkId,
    let st := (s.tables.memories old.linkId).states state.key
    (st.status.locked .a || st.status.locked .b) = true ∧
      st.allowedBypassRequestSource = l.remoteName

/-- The node behind `linkId` may replace the link. -/
def MayReplace (old : Link) (linkId : Nat) : Prop := old.linkId = linkId ∨ s.LockedFor old linkId

/-- A message that came on `linkId` and led to `s'` kept to its authority:
links are replaced and told to stop as they may be, and else no router
changes. -/
structure Authorized (linkId : Nat) (s' : RoutingAcceptor) : Prop where
  replaced : ∀ rid t t', (rid, t, t') ∈ s.replacements s' →
    ∃ r old, t.routers rid = some r ∧ r.outward.primary = some old ∧ old.isLocal = false ∧
      ({ s with tables := t } : RoutingAcceptor).MayReplace old linkId ∧
      (t'.routers rid).bind (·.outward.decayingLink) = some old ∧
      ∀ l, ∀ sublink ∈ s.newStops s' l, (l, sublink) = (old.linkId, old.sublink)
  others : s.replacements s' = [] →
    s'.tables.routers = s.tables.routers ∧ ∀ l, s.newStops s' l = []

/-! ### What a message replaces -/

/-- The router of a bypass message, and the link on which it tells a proxy to
stop. -/
def bypassTarget (m : Arrival) : Option (Nat × Nat) :=
  match m.message with
  | .bypassPeerWithLink sublink .. => (s.tables.owners (m.linkId, sublink)).map (·, m.linkId)
  | .acceptBypassLink currentPeerNode currentPeerSublink .. =>
      (linkIdForNode s.info currentPeerNode).bind fun oldLinkId =>
        (s.tables.owners (oldLinkId, currentPeerSublink)).map (·, oldLinkId)
  | _ => none

/-- The fragment lies in the memory of the link. -/
def fits (linkId : Nat) (fragment : FragmentDescriptor) : Bool :=
  match registryFor s.info linkId with
  | .ok reg => (reg.fragment fragment).toBool
  | .error _ => false

/-- The checks of a bypass message for router `rid`. -/
def admits (m : Arrival) (rid : Nat) : Bool :=
  match m.message with
  | .bypassPeerWithLink _ _ fragment _ => s.fits m.linkId fragment
  | .acceptBypassLink _ _ _ _ fragment =>
      s.fits m.linkId fragment &&
        match (checkBypassSource s.info rid m.linkId).run s.tables with
        | .ok allowed _ => allowed
        | .error _ _ => false
  | _ => false

/-- The channel of a link takes messages. -/
def takes (linkId : Nat) : Bool :=
  (s.info.links linkId).isSome && !(s.tables.channels linkId).broken

end RoutingAcceptor

/-- The outward link of a router, if it is remote and stable. -/
def RouteTables.replaceable (t : RouteTables) (rid : Nat) : Option (Router × Link) :=
  (t.routers rid).bind fun r => r.outward.primary.bind fun old =>
    if r.disconnected || old.isLocal || !r.outward.isStable then none else some (r, old)

/-- The link that a bypass message replaces, and the one on which it tells the
old proxy to stop. -/
def RoutingAcceptor.takenLink (s : RoutingAcceptor) (m : Arrival) : Option (Link × Nat) :=
  (s.bypassTarget m).bind fun (rid, replyLinkId) =>
    if s.admits m rid then (s.tables.replaceable rid).map fun x => (x.2, replyLinkId) else none

/-- A message that replaces a link may do so, and tells the node behind this
link to stop. -/
def RoutingAcceptor.InOrder (s : RoutingAcceptor) (m : Arrival) : Prop :=
  ∀ old replyLinkId, s.takenLink m = some (old, replyLinkId) →
    s.MayReplace old m.linkId ∧ (s.takes replyLinkId = true → replyLinkId = old.linkId)

/-! ### Messages that tell to stop -/

variable {info : NodeInfo}

/-- What sending `msg` adds. -/
theorem stops_send (t : RouteTables) (linkId : Nat) (msg : RouteMessage) (fds : List OwnedFd) :
    (t.setChannel linkId ((t.channels linkId).send msg fds)).stops =
      if (t.channels linkId).broken then t.stops
      else update t.stops linkId (t.stops linkId ++ msg.stopSublink.toList) := by
  funext l
  by_cases hl : l = linkId
  · subst hl
    simp only [RouteTables.stops, RouteTables.setChannel, Function.update_self, LinkChannel.send]
    split_ifs
    · rfl
    · rw [Function.update_self, List.filterMap_append]
      cases hmsg : msg.stopSublink <;> simp [hmsg]
  · have hne : (t.setChannel linkId ((t.channels linkId).send msg fds)).stops l = t.stops l := by
      simp only [RouteTables.stops, RouteTables.setChannel, Function.update_of_ne hl]
    rw [hne]
    split_ifs
    · rfl
    · rw [Function.update_of_ne hl]

theorem stops_send_none (t : RouteTables) (linkId : Nat) {msg : RouteMessage} (fds : List OwnedFd)
    (h : msg.stopSublink = none) :
    (t.setChannel linkId ((t.channels linkId).send msg fds)).stops = t.stops := by
  rw [stops_send, h, Option.toList_none, List.append_nil, Function.update_eq_self, ite_self]

/-- A flush tells nobody to stop. -/
theorem stops_frame (k : Nat → List Nat) :
    FlushFrame (fun t => t.stops = k) fun _ => True where
  holds _ _ := .any _
  quiet hs h := by
    unfold RouteTables.stops
    rw [h.channels]
    exact hs
  setRouter := fun _ _ hs _ => hs
  note _ _ hs := hs
  dropRouter _ hs := hs
  send := by
    intro t linkId msg fds hs hmsg
    have hnone : msg.stopSublink = none := by
      cases msg <;> first | rfl | exact hmsg.elim
    rw [stops_send_none t linkId fds hnone, hs]
  log _ _ hs := hs

section Bypass

variable {k : Nat → List Nat} {flush : Nat → Bool → RouteM Unit} {rid : Nat}

theorem sendControl_stops (linkId : Nat) {msg : RouteMessage} (fds : List OwnedFd)
    (h : msg.stopSublink = none) :
    Yields (fun t => t.stops = k) (sendLinkMessageOn info linkId msg fds) fun _ => True :=
  yields_send linkId msg fds fun t ht => (stops_send_none t linkId fds h).trans ht

variable (hflush : ∀ rid force, Yields (fun t => t.stops = k) (flush rid force) fun _ => True)
include hflush

theorem routerBypassPeer_stops (requestorLinkId : Nat) (name : NodeName) (targetSublink : Nat) :
    Yields (fun t => t.stops = k)
      (routerBypassPeer info flush rid requestorLinkId name targetSublink) fun _ => True := by
  have hP := stops_frame k
  have hsend : ∀ linkId node peerSublink length sublink block, Yields (fun t => t.stops = k)
      (sendLinkMessageOn info linkId
        (.acceptBypassLink node peerSublink length sublink block) []) fun _ => True :=
    fun _ _ _ _ _ _ => sendControl_stops _ _ rfl
  unfold routerBypassPeer
  refine Yields.bind (hP.getRouter _) fun r _ => ?_
  cases r.outward.primary with
  | none => exact yields_pure trivial
  | some primary =>
      dsimp only
      split
      · exact yields_throw_bind _ _
      split
      · exact yields_throw_bind _ _
      · split
        · exact bypassPeerWithNewRemoteLink_frame hP hflush hsend _ _ _
        · unfold establishLink
          split
          · exact completePendingIntro_frame hP hflush hsend _ _
          · refine Yields.bind yields_get fun t ht => ?_
            refine Yields.bind (yields_modify fun t ht => ht) fun _ _ => ?_
            split_ifs
            · exact sendControl_stops _ _ rfl
            · exact yields_pure trivial

end Bypass

/-! ### What follows a replacement -/

theorem checkDescriptor_quiet {linkId : Nat} (d : RouterDescriptor) :
    Maintains RouteTables.Quiet (checkDescriptor d linkId info) := by
  unfold checkDescriptor
  dsimp only
  split_ifs
  all_goals try exact keeps_throw_bind _ _
  · exact (memoryFor_keeps linkId).bind fun _ => liftMemory_keeps _
  · exact keeps_throw _
  · exact keeps_pure _

theorem adopt_channels (t : RouteTables) (linkId : Nat) (d : RouterDescriptor) (r : Router) :
    (t.adopt linkId d r).channels = t.channels := by
  show (d.sublinks.foldl (fun s sublink => s.setOwner (linkId, sublink) d.newSublink) t).channels = _
  generalize d.sublinks = sublinks
  induction sublinks generalizing t with
  | nil => rfl
  | cons sublink sublinks ih => exact ih _

/-- Nobody is told to stop, and no link is replaced. -/
structure RoutingAcceptor.Follows (s s' : RoutingAcceptor) : Prop where
  stops : s'.tables.stops = s.tables.stops
  adoptions : ∃ l, s'.adoptions = s.adoptions ++ l ∧ ∀ e ∈ l, e.1.router = none

namespace RoutingAcceptor

instance : Std.Refl Follows := ⟨fun _ => ⟨rfl, [], (List.append_nil _).symm, nofun⟩⟩

instance : IsTrans RoutingAcceptor Follows where
  trans := by
    rintro s s' s'' ⟨hstops, l, hl, hnone⟩ ⟨hstops', l', hl', hnone'⟩
    refine ⟨hstops'.trans hstops, l ++ l', by rw [hl', hl, List.append_assoc], fun e he => ?_⟩
    rcases List.mem_append.mp he with he | he
    · exact hnone e he
    · exact hnone' e he

/-- Work on the tables that tells nobody to stop. -/
theorem follows_inTables {α : Type} {f : NodeInfo → RouteM α}
    (h : ∀ k info, Yields (fun t => t.stops = k) (f info) fun _ => True) :
    Maintains Follows (inTables f) := by
  intro s
  have hlog : Maintains (fun s s' : RoutingAcceptor => s'.adoptions = s.adoptions) (inTables f) :=
    inTables_keeps (fun _ _ => rfl) f
  refine ⟨?_, [], ?_, nofun⟩
  · exact (inTables_yields (h s.tables.stops) s rfl).1
  · rw [List.append_nil]
    exact hlog s

theorem follows_framed (linkId : Nat) : Framed Follows linkId where
  flush depth _ force := follows_inTables fun k _ => (stops_frame k).routerFlush depth force
  bypass depth _ _ _ := follows_inTables fun k _ =>
    routerBypassPeer_stops (fun _ force => (stops_frame k).routerFlush depth force) _ _ _
  accept _ _ _ _ := follows_inTables fun k _ => acceptAt_frame (stops_frame k) trivial
  queues _ _ _ := ⟨rfl, [], (List.append_nil _).symm, nofun⟩
  adopt d := by
    unfold adoptRouter
    refine Maintains.bind (follows_inTables fun k info => ?_) fun _ => ?_
    · exact (stops_frame k).ofQuiet (checkDescriptor_quiet d)
    · cases hr : d.toRouter linkId with
      | none => exact keeps_throw _
      | some r =>
          intro s
          refine ⟨?_, [(.deserialize linkId d, s.tables, s.tables.adopt linkId d r)], rfl, ?_⟩
          · show (s.tables.adopt linkId d r).stops = s.tables.stops
            unfold RouteTables.stops
            rw [adopt_channels]
          · intro e he
            obtain rfl := List.mem_singleton.mp he
            rfl
  defer _ _ _ _ := ⟨rfl, [], (List.append_nil _).symm, nofun⟩

end RoutingAcceptor

open RoutingAcceptor

/-! ### The replacement -/

/-- The outward edge after the replacement. -/
def Edge.replaced (e : Edge) (out inc : Nat) (l : Link) : Edge :=
  ((e.beginDecay.setLengthToDecayingLink out).setLengthFromDecayingLink inc).setPrimaryLink l

/-- The tables after the replacement. -/
def RouteTables.replace (t : RouteTables) (rid linkId newSublink : Nat)
    (fragment : FragmentDescriptor) (inboundSequenceLength : Nat) (r : Router) : RouteTables :=
  (t.setRouter rid { r with
    outward := r.outward.replaced r.outbound.current inboundSequenceLength
      (.remote linkId newSublink .central .b (some fragment)) }).setOwner (linkId, newSublink) rid

theorem replaceable_some {t : RouteTables} {rid : Nat} {r : Router} {old : Link}
    (h : t.replaceable rid = some (r, old)) : t.routers rid = some r ∧ r.outward.primary = some old ∧
      r.disconnected = false ∧ old.isLocal = false ∧ r.outward.isStable = true := by
  obtain ⟨r', hr, h⟩ := Option.bind_eq_some_iff.mp h
  obtain ⟨old', hold, h⟩ := Option.bind_eq_some_iff.mp h
  split_ifs at h with hcond
  obtain ⟨rfl, rfl⟩ := Prod.mk.inj (Option.some.inj h)
  simpa [hr, hold, and_assoc] using hcond

theorem beginPrimaryLinkDecay_stable {e : Edge} (h : e.isStable = true) :
    e.beginPrimaryLinkDecay = some e.beginDecay := by
  have hnone : e.decaying = none := Option.isNone_iff_eq_none.mp h
  simp [Edge.beginDecay, Edge.beginPrimaryLinkDecay, hnone]

theorem replaced_decayingLink {e : Edge} {old : Link} (h : e.isStable = true)
    (hold : e.primary = some old) (out inc : Nat) (l : Link) :
    (e.replaced out inc l).decayingLink = some old := by
  have hnone : e.decaying = none := Option.isNone_iff_eq_none.mp h
  simp [Edge.replaced, Edge.beginDecay, Edge.beginPrimaryLinkDecay, hnone, hold,
    Edge.setLengthToDecayingLink, Edge.setLengthFromDecayingLink, Edge.setPrimaryLink,
    Edge.decayingLink]

section Adopt

variable {t : RouteTables} {rid linkId newSublink inboundSequenceLength : Nat}
  {fragment : FragmentDescriptor}

/-- A remote, stable outward link is replaced. -/
theorem adoptCentralLink_taken {r : Router} {old : Link}
    (h : t.replaceable rid = some (r, old)) :
    (adoptCentralLink rid linkId newSublink fragment inboundSequenceLength).run t =
      .ok (some (old.sublink, r.outbound.current))
        (t.replace rid linkId newSublink fragment inboundSequenceLength r) := by
  obtain ⟨hr, hold, hdisc, hlocal, hstable⟩ := replaceable_some h
  unfold adoptCentralLink
  rw [run_bind_of_ok (getRouter_some _ hr)]
  split
  · next old' _ hold' =>
      obtain rfl := Option.some.inj (hold.symm.trans hold')
      rw [if_neg (by simp [hlocal]), Edge.decayOr, beginPrimaryLinkDecay_stable hstable]
      rfl
  · next hother => exact absurd hold (hother old hdisc)

/-- Any other is left alone. -/
theorem adoptCentralLink_refused (h : t.replaceable rid = none) :
    (∃ e, (adoptCentralLink rid linkId newSublink fragment inboundSequenceLength).run t =
      .error e t) ∨
    (adoptCentralLink rid linkId newSublink fragment inboundSequenceLength).run t =
      .ok none t := by
  unfold adoptCentralLink
  cases hr : t.routers rid with
  | none => exact .inl ⟨_, by rw [EStateM.run_bind, getRouter_none _ hr]⟩
  | some r =>
      rw [run_bind_of_ok (getRouter_some _ hr)]
      simp only [RouteTables.replaceable, hr, Option.bind_some] at h
      cases hdisc : r.disconnected with
      | true => exact .inr rfl
      | false =>
          cases hold : r.outward.primary with
          | none => exact .inr rfl
          | some old =>
              rw [hdisc, hold] at h
              cases hlocal : old.isLocal with
              | true => exact .inl ⟨_, by simp only [hlocal]; rfl⟩
              | false =>
                  have hdecay : r.outward.beginPrimaryLinkDecay = none := by
                    cases hd : r.outward.decaying with
                    | none => simp [hlocal, Edge.isStable, hd] at h
                    | some d => rw [Edge.beginPrimaryLinkDecay, hd]
                  refine .inl ⟨.badParcel "failure to decay link", ?_⟩
                  simp only [hlocal, Edge.decayOr, hdecay]
                  rfl

end Adopt

/-- The stops after sublink `sublink` of a link was told to stop, if its
channel takes messages. -/
def RoutingAcceptor.stopsTold (s : RoutingAcceptor) (linkId sublink : Nat) : Nat → List Nat :=
  if s.takes linkId then update s.tables.stops linkId (s.tables.stops linkId ++ [sublink])
  else s.tables.stops

/-- The outward link `old` was replaced on the way to `s'`, once, and `sublink`
of link `replyLinkId` alone was told to stop. -/
structure RoutingAcceptor.Took (s s' : RoutingAcceptor) (old : Link) (replyLinkId : Nat) :
    Prop where
  replaced : ∃ a rid r t' l, s'.adoptions = s.adoptions ++ (a, s.tables, t') :: l ∧
    a.router = some rid ∧ (∀ e ∈ l, e.1.router = none) ∧ s.tables.routers rid = some r ∧
    r.outward.primary = some old ∧ old.isLocal = false ∧
    (t'.routers rid).bind (·.outward.decayingLink) = some old
  stops : s'.tables.stops = s.stopsTold replyLinkId old.sublink

section Reply

variable {α β : Type} {linkId sublink : Nat}

/-- `x` tells `sublink` of a link to stop, and nobody else. -/
def Tells (info : NodeInfo) (linkId sublink : Nat) (x : RouteM α) : Prop :=
  ∀ s : RoutingAcceptor, s.info = info →
    (endState (x.run s.tables)).stops = s.stopsTold linkId sublink

theorem tells_send {msg : RouteMessage} (fds : List OwnedFd) (h : msg.stopSublink = some sublink) :
    Tells info linkId sublink (sendLinkMessageOn info linkId msg fds) := by
  rintro s rfl
  unfold sendLinkMessageOn stopsTold takes
  cases hl : s.info.links linkId with
  | none => rfl
  | some l =>
      have hsend := stops_send s.tables linkId msg fds
      unfold LinkChannel.send at hsend
      rw [h, Option.toList_some] at hsend
      dsimp only
      rw [run_get_bind, run_bind_of_ok (run_modify _ _)]
      cases hbroken : (s.tables.channels linkId).broken <;> rw [hbroken] at hsend <;> exact hsend

theorem Tells.bind {x : RouteM α} {f : α → RouteM β} (hx : Tells info linkId sublink x)
    (hf : ∀ k a, Yields (fun t => t.stops = k) (f a) fun _ => True) :
    Tells info linkId sublink (x >>= f) := by
  intro s hinfo
  have hstops := hx s hinfo
  rw [EStateM.run_bind]
  cases hrun : x.run s.tables with
  | ok a t =>
      rw [hrun] at hstops
      exact (hf _ a t hstops).1
  | error e t =>
      rw [hrun] at hstops
      exact hstops

theorem tells_notifyBypassed (newLinkId newSublink length inboundSequenceLength : Nat) :
    Tells info linkId sublink (notifyBypassed info linkId newLinkId sublink newSublink length
      inboundSequenceLength) := by
  unfold notifyBypassed
  split
  · exact (tells_send [] rfl).bind fun k _ => sendControl_stops _ _ rfl
  · exact tells_send [] rfl

/-- A replacement, the reply to it and what follows. -/
theorem took_of_reply {s : RoutingAcceptor} {rid newLinkId newSublink len : Nat}
    {fragment : FragmentDescriptor} {r : Router} {old : Link} {f : NodeInfo → RouteM Unit}
    {rest : AcceptorM Unit} {k : Option (Nat × Nat) → AcceptorM Unit}
    (h : s.tables.replaceable rid = some (r, old))
    (hk : k (some (old.sublink, r.outbound.current)) = (do
      logAdoption (.centralLink newLinkId newSublink rid) s.tables
      inTables f
      rest))
    (hf : ∀ info, Tells info linkId old.sublink (f info)) (hrest : Maintains Follows rest) :
    s.Took (endState ((inTables (fun _ =>
      adoptCentralLink rid newLinkId newSublink fragment len) >>= k).run s)) old linkId := by
  obtain ⟨hr, hold, -, hlocal, hstable⟩ := replaceable_some h
  let t' := s.tables.replace rid newLinkId newSublink fragment len r
  let s₁ : RoutingAcceptor := { s with
    tables := t'
    adoptions := s.adoptions ++ [(.centralLink newLinkId newSublink rid, s.tables, t')] }
  have hadopt : (inTables fun _ => adoptCentralLink rid newLinkId newSublink fragment len).run s =
      .ok (some (old.sublink, r.outbound.current)) { s with tables := t' } :=
    inTables_of_ok (adoptCentralLink_taken h)
  rw [run_bind_of_ok hadopt, hk]
  show s.Took (endState ((inTables f >>= fun _ => rest).run s₁)) old linkId
  have hreply : (endState ((inTables f).run s₁)).tables.stops = s.stopsTold linkId old.sublink := by
    rw [inTables_end]
    exact hf s.info s₁ rfl
  have hlog : (endState ((inTables f).run s₁)).adoptions = s₁.adoptions := by
    rw [inTables_end]
  have hfollows : (endState ((inTables f).run s₁)).Follows
      (endState ((inTables f >>= fun _ => rest).run s₁)) := by
    rw [EStateM.run_bind]
    cases (inTables f).run s₁ with
    | ok _ s₂ => exact hrest s₂
    | error _ s₂ => exact Std.Refl.refl s₂
  obtain ⟨l, hl, hnone⟩ := hfollows.adoptions
  refine ⟨⟨.centralLink newLinkId newSublink rid, rid, r, t', l, ?_, rfl, hnone, hr, hold, hlocal,
    ?_⟩, hfollows.stops.trans hreply⟩
  · rw [hl, hlog]
    exact List.append_assoc ..
  · show ((update s.tables.routers rid _) rid).bind _ = _
    rw [Function.update_self]
    exact replaced_decayingLink hstable hold _ _ _

/-- No replacement. -/
theorem end_of_refused {s : RoutingAcceptor} {rid newLinkId newSublink len : Nat}
    {fragment : FragmentDescriptor} {k : Option (Nat × Nat) → AcceptorM Unit}
    (h : s.tables.replaceable rid = none) (hk : k none = pure ()) :
    endState ((inTables (fun _ =>
      adoptCentralLink rid newLinkId newSublink fragment len) >>= k).run s) = s := by
  rw [EStateM.run_bind]
  rcases adoptCentralLink_refused h with ⟨e, hrun⟩ | hrun
  · rw [inTables_of_error (f := fun _ => adoptCentralLink rid newLinkId newSublink fragment len) hrun]
    rfl
  · rw [inTables_of_ok (f := fun _ => adoptCentralLink rid newLinkId newSublink fragment len) hrun]
    show endState ((k none).run s) = s
    rw [hk]
    rfl

end Reply

/-! ### The checks -/

section Checks

variable {s : RoutingAcceptor} {linkId : Nat} {fragment : FragmentDescriptor}

/-- The check of the fragment. -/
theorem fits_run (h : s.fits linkId fragment = true) : (inTables fun info => do
    let reg ← memoryFor info linkId
    liftMemory (reg.fragment fragment)).run s = .ok ⟨⟩ s := by
  apply inTables_of_ok
  unfold fits at h
  cases hreg : registryFor s.info linkId with
  | error e => simp [hreg] at h
  | ok reg =>
      rw [hreg] at h
      rw [memoryFor, hreg]
      cases hfrag : reg.fragment fragment with
      | error e => simp [hfrag, Except.toBool] at h
      | ok u =>
          show (liftMemory (reg.fragment fragment)).run s.tables = _
          rw [hfrag]
          rfl

theorem fits_refused (h : s.fits linkId fragment = false) : ∃ e, (inTables fun info => do
    let reg ← memoryFor info linkId
    liftMemory (reg.fragment fragment)).run s = .error e s := by
  unfold fits at h
  cases hreg : registryFor s.info linkId with
  | error e =>
      refine ⟨e, inTables_of_error ?_⟩
      rw [memoryFor, hreg]
      rfl
  | ok reg =>
      rw [hreg] at h
      cases hfrag : reg.fragment fragment with
      | ok u => simp [hfrag, Except.toBool] at h
      | error e =>
          refine ⟨.memory e, inTables_of_error ?_⟩
          rw [memoryFor, hreg]
          show (liftMemory (reg.fragment fragment)).run s.tables = _
          rw [hfrag]
          rfl

/-- A fragment that fits is not null. -/
theorem not_null_of_fits (h : s.fits linkId fragment = true) : fragment.isNull = false := by
  unfold fits at h
  cases hreg : registryFor s.info linkId with
  | error e => simp [hreg] at h
  | ok reg =>
      cases hnull : fragment.isNull with
      | false => rfl
      | true => simp [hreg, BufferRegistry.fragment, hnull, Except.toBool] at h

/-- The check of the source reads only. -/
theorem checkBypassSource_same (info : NodeInfo) (rid newLinkId : Nat) :
    Maintains Eq (checkBypassSource info rid newLinkId) := by
  unfold checkBypassSource
  refine Maintains.bind (getRouter_keeps _) fun r => ?_
  dsimp only
  split
  · split_ifs
    · exact keeps_throw_bind _ _
    · exact keeps_throw_bind _ _
    · split
      · have hread (state : FragmentDescriptor) (linkId : Nat) :
            Maintains Eq (readAllowedBypassSource info linkId state) := by
          unfold readAllowedBypassSource
          refine Maintains.bind (memoryFor_keeps _) fun _ => ?_
          refine Maintains.bind (liftMemory_keeps _) fun _ => ?_
          split
          · exact keeps_throw_bind _ _
          · exact keeps_get_bind fun _ => rfl
        refine Maintains.bind (hread _ _) fun allowed => ?_
        refine Maintains.bind (remoteNameFor_keeps _) fun name => ?_
        split
        · exact keeps_throw_bind _ _
        · exact keeps_pure _
      · exact keeps_throw_bind _ _
    · exact keeps_pure _
  · exact keeps_pure _

/-- It allows the bypass, or ends the message, if only by an error. -/
theorem checkBypassSource_cases (s : RoutingAcceptor) (rid newLinkId : Nat) :
    (∃ b, (inTables fun info => checkBypassSource info rid newLinkId).run s = .ok b s ∧
      (checkBypassSource s.info rid newLinkId).run s.tables = .ok b s.tables) ∨
    ∃ e, (inTables fun info => checkBypassSource info rid newLinkId).run s = .error e s ∧
      (checkBypassSource s.info rid newLinkId).run s.tables = .error e s.tables := by
  have hsame := checkBypassSource_same s.info rid newLinkId s.tables
  cases hrun : (checkBypassSource s.info rid newLinkId).run s.tables with
  | ok b t =>
      rw [hrun] at hsame
      obtain rfl : s.tables = t := hsame
      exact .inl ⟨b, inTables_of_ok (f := fun info => checkBypassSource info rid newLinkId) hrun, rfl⟩
  | error e t =>
      rw [hrun] at hsame
      obtain rfl : s.tables = t := hsame
      exact .inr ⟨e, inTables_of_error (f := fun info => checkBypassSource info rid newLinkId) hrun,
        rfl⟩

end Checks

/-! ### Bypass messages -/

section Receive

variable {depth : Nat} {s : RoutingAcceptor} {m : Arrival}

theorem receive_refused (h : m.message.isBypass = true) (htaken : s.takenLink m = none) :
    s.receive depth m = s := by
  obtain ⟨msg, fds, linkId⟩ := m
  -- once the message has a router that admits it, the outward link is at fault
  have hrepl : ∀ rid reply, s.bypassTarget ⟨msg, fds, linkId⟩ = some (rid, reply) →
      s.admits ⟨msg, fds, linkId⟩ rid = true → s.tables.replaceable rid = none := by
    intro rid reply htarget hadmits
    rw [takenLink, htarget, Option.bind_some] at htaken
    dsimp only at htaken
    rw [if_pos hadmits] at htaken
    exact Option.map_eq_none_iff.mp htaken
  unfold receive dispatch
  cases msg with
  | bypassPeerWithLink sublink newSublink fragment len =>
      dsimp only
      unfold onBypassPeerWithLink
      cases hfits : s.fits linkId fragment with
      | false =>
          obtain ⟨e, hrun⟩ := fits_refused hfits
          split
          · rfl
          · rw [EStateM.run_bind, hrun]
            rfl
      | true =>
          rw [not_null_of_fits hfits, if_neg (by decide), run_bind_of_ok (fits_run hfits),
            run_get_bind]
          cases howner : s.tables.owners (linkId, sublink) with
          | none => rfl
          | some rid =>
              dsimp only
              rw [run_get_bind]
              exact end_of_refused (hrepl rid linkId (by simp [bypassTarget, howner]) hfits) rfl
  | acceptBypassLink node peerSublink len newSublink fragment =>
      dsimp only
      unfold onAcceptBypassLinkMessage
      rw [run_get_bind]
      cases hnode : linkIdForNode s.info node with
      | none => rfl
      | some oldLinkId =>
          dsimp only
          rw [run_get_bind]
          cases howner : s.tables.owners (oldLinkId, peerSublink) with
          | none => rfl
          | some rid =>
              dsimp only
              cases hfits : s.fits linkId fragment with
              | false =>
                  obtain ⟨e, hrun⟩ := fits_refused hfits
                  rw [EStateM.run_bind, hrun]
                  rfl
              | true =>
                  rw [run_bind_of_ok (fits_run hfits)]
                  rcases checkBypassSource_cases s rid linkId with ⟨b, hrun, hcheck⟩ | ⟨e, hrun, -⟩
                  · rw [run_bind_of_ok hrun]
                    cases b with
                    | false => rfl
                    | true =>
                        rw [if_pos rfl, run_get_bind]
                        refine end_of_refused (hrepl rid oldLinkId ?_ ?_) rfl
                        · simp [bypassTarget, hnode, howner]
                        · simp [admits, hfits, hcheck]
                  · rw [EStateM.run_bind, hrun]
                    rfl
  | _ => cases h

theorem receive_taken (h : m.message.isBypass = true) {old : Link} {replyLinkId : Nat}
    (htaken : s.takenLink m = some (old, replyLinkId)) :
    s.Took (s.receive depth m) old replyLinkId := by
  obtain ⟨msg, fds, linkId⟩ := m
  obtain ⟨⟨rid, reply⟩, htarget, htaken⟩ := Option.bind_eq_some_iff.mp htaken
  dsimp only at htaken
  split_ifs at htaken with hadmits
  obtain ⟨⟨r, old'⟩, hrepl, htaken⟩ := Option.map_eq_some_iff.mp htaken
  obtain ⟨rfl, rfl⟩ := Prod.mk.inj htaken
  -- two messages take a route over, each behind its own check
  unfold receive dispatch
  cases msg with
  -- the message comes over the link it replaces, so only the link state has to fit
  | bypassPeerWithLink sublink newSublink fragment len =>
      obtain ⟨rid', howner, hkey⟩ := Option.map_eq_some_iff.mp htarget
      obtain ⟨rfl, rfl⟩ := Prod.mk.inj hkey
      have hfits : s.fits linkId fragment = true := hadmits
      dsimp only at howner ⊢
      unfold onBypassPeerWithLink
      rw [not_null_of_fits hfits]
      rw [if_neg (by decide), run_bind_of_ok (fits_run hfits), run_get_bind, howner]
      dsimp only
      rw [run_get_bind]
      refine took_of_reply hrepl rfl (fun info => tells_send [] rfl) ?_
      refine Maintains.bind (takeEarlyParcels_keeps (follows_framed linkId) _) fun early => ?_
      refine Maintains.bind ?_ fun _ => (follows_framed linkId).flush _ _ _
      exact replayEarlyParcels_keeps (processAcceptParcel_keeps (follows_framed linkId) depth) early
  -- the message comes over another link, so the state of the old one has to name its sender
  | acceptBypassLink node peerSublink len newSublink fragment =>
      obtain ⟨oldLinkId, hnode, htarget⟩ := Option.bind_eq_some_iff.mp htarget
      obtain ⟨rid', howner, hkey⟩ := Option.map_eq_some_iff.mp htarget
      obtain ⟨rfl, rfl⟩ := Prod.mk.inj hkey
      obtain ⟨hfits, hallowed⟩ := Bool.and_eq_true_iff.mp hadmits
      dsimp only at hnode howner hfits hallowed ⊢
      unfold onAcceptBypassLinkMessage
      rw [run_get_bind, hnode]
      dsimp only
      rw [run_get_bind, howner]
      dsimp only
      rw [run_bind_of_ok (fits_run hfits)]
      rcases checkBypassSource_cases s rid' linkId with ⟨b, hrun, hcheck⟩ | ⟨e, hrun, hcheck⟩
      · rw [hcheck] at hallowed
        obtain rfl : b = true := hallowed
        rw [run_bind_of_ok hrun, if_pos rfl, run_get_bind]
        have htells (info : NodeInfo) : Tells info oldLinkId old'.sublink (do
            notifyBypassed info oldLinkId linkId old'.sublink newSublink r.outbound.current len
            routerFlush info depth rid' false) :=
          (tells_notifyBypassed _ _ _ _).bind fun k _ =>
            (stops_frame k).routerFlush depth false
        refine took_of_reply hrepl ?_ htells (keeps_pure ⟨⟩)
        simp only [bind_pure_unit]
      · rw [hcheck] at hallowed
        cases hallowed
  | _ => cases h

end Receive

/-! ### Authority -/

theorem replacements_same (s : RoutingAcceptor) : s.replacements s = [] := by
  rw [replacements, List.drop_length]
  rfl

theorem newStops_same (s : RoutingAcceptor) (linkId : Nat) : s.newStops s linkId = [] := by
  rw [newStops, List.drop_length]

theorem RoutingAcceptor.Took.replacements {s s' : RoutingAcceptor} {old : Link} {replyLinkId : Nat}
    (h : s.Took s' old replyLinkId) : ∃ rid r t', s.replacements s' = [(rid, s.tables, t')] ∧
      s.tables.routers rid = some r ∧ r.outward.primary = some old ∧ old.isLocal = false ∧
      (t'.routers rid).bind (·.outward.decayingLink) = some old := by
  obtain ⟨a, rid, r, t', l, hl, ha, hnone, hr, hold, hlocal, hdecay⟩ := h.replaced
  refine ⟨rid, r, t', ?_, hr, hold, hlocal, hdecay⟩
  have hrest : l.filterMap (fun e => e.1.router.map (·, e.2)) = [] := by
    rw [List.filterMap_eq_nil_iff]
    intro e he
    rw [hnone e he]
    rfl
  rw [RoutingAcceptor.replacements, hl, List.drop_left, List.filterMap_cons_some, hrest]
  rw [ha]
  rfl

theorem RoutingAcceptor.Took.newStops {s s' : RoutingAcceptor} {old : Link} {replyLinkId : Nat}
    (h : s.Took s' old replyLinkId) (l : Nat) : s.newStops s' l =
      if s.takes replyLinkId = true ∧ l = replyLinkId then [old.sublink] else [] := by
  rw [RoutingAcceptor.newStops, h.stops, stopsTold]
  by_cases htakes : s.takes replyLinkId = true
  · rw [if_pos htakes]
    by_cases hl : l = replyLinkId
    · subst hl
      rw [Function.update_self, List.drop_left, if_pos ⟨htakes, rfl⟩]
    · rw [Function.update_of_ne hl, List.drop_length, if_neg fun hcond => hl hcond.2]
  · rw [if_neg htakes, List.drop_length, if_neg fun hcond => htakes hcond.1]

section Authority

variable {depth : Nat} {s : RoutingAcceptor} {m : Arrival}

theorem inOrder_of_authorized (h : m.message.isBypass = true)
    (hauth : s.Authorized m.linkId (s.receive depth m)) : s.InOrder m := by
  intro old replyLinkId htaken
  have htook : s.Took (s.receive depth m) old replyLinkId := receive_taken h htaken
  obtain ⟨rid, r, t', hrepl, hr, hold, -, -⟩ := htook.replacements
  obtain ⟨r', old', hr', hold', -, hmay, -, hstops⟩ :=
    hauth.replaced rid s.tables t' (by rw [hrepl]; exact List.mem_singleton_self _)
  obtain rfl := Option.some.inj (hr.symm.trans hr')
  obtain rfl := Option.some.inj (hold.symm.trans hold')
  refine ⟨hmay, fun htakes => ?_⟩
  have hmem : old.sublink ∈ s.newStops (s.receive depth m) replyLinkId := by
    rw [htook.newStops, if_pos ⟨htakes, rfl⟩]
    exact List.mem_singleton_self _
  exact (Prod.mk.inj (hstops replyLinkId old.sublink hmem)).1

theorem authorized_of_inOrder (h : m.message.isBypass = true) (hinOrder : s.InOrder m) :
    s.Authorized m.linkId (s.receive depth m) := by
  cases htaken : s.takenLink m with
  | none =>
      rw [receive_refused h htaken]
      refine ⟨fun rid t t' hmem => ?_, fun _ => ⟨rfl, newStops_same s⟩⟩
      rw [replacements_same] at hmem
      cases hmem
  | some x =>
      obtain ⟨old, replyLinkId⟩ := x
      have htook : s.Took (s.receive depth m) old replyLinkId := receive_taken h htaken
      obtain ⟨rid, r, t', hrepl, hr, hold, hlocal, hdecay⟩ := htook.replacements
      obtain ⟨hmay, hreply⟩ := hinOrder old replyLinkId htaken
      refine ⟨fun rid' t₁ t₂ hmem => ?_, fun hnone => ?_⟩
      · rw [hrepl] at hmem
        obtain ⟨rfl, heq⟩ := Prod.mk.inj (List.mem_singleton.mp hmem)
        obtain ⟨rfl, rfl⟩ := Prod.mk.inj heq
        refine ⟨r, old, hr, hold, hlocal, hmay, hdecay, fun l sublink hmem => ?_⟩
        rw [htook.newStops] at hmem
        split_ifs at hmem with hcond
        · rw [List.mem_singleton.mp hmem, hcond.2, hreply hcond.1]
        · cases hmem
      · rw [hrepl] at hnone
        cases hnone

end Authority

/-- A bypass message keeps to its authority, whatever the state of the node,
if and only if it is in order there. -/
theorem bypass_authorized_iff (depth : Nat) (s : RoutingAcceptor) (m : Arrival)
    (h : m.message.isBypass = true) :
    s.Authorized m.linkId (s.receive depth m) ↔ s.InOrder m :=
  ⟨inOrder_of_authorized h, authorized_of_inOrder h⟩

/-- A proxy between sublink 3 of link 0, its outward link, and sublink 5 of
link 1. -/
def proxyBetween : RoutingAcceptor :=
  { RoutingAcceptor.fresh [0, 1] with
    tables := ((RouteTables.fresh.setOwner (0, 3) 7).setOwner (1, 5) 7).setRouter 7
      { Router.newTerminal (.remote 0 3 .peripheralOutward .b none) with
        inward := some ⟨some (.remote 1 5 .peripheralInward .a none), none⟩ } }

/-- A new central link for the router with sublink `sublink` of link `linkId`. -/
def bypassOn (linkId sublink : Nat) : Arrival :=
  ⟨.bypassPeerWithLink sublink 9 ⟨0, 0x440, 64⟩ 0, [], linkId⟩

/-- The node behind the outward link replaces it. -/
theorem authorized_outward : proxyBetween.InOrder (bypassOn 0 3) ∧
    proxyBetween.Authorized 0 (proxyBetween.receive 2 (bypassOn 0 3)) := by
  have hinOrder : proxyBetween.InOrder (bypassOn 0 3) := by
    intro old replyLinkId htaken
    have htaken' : proxyBetween.takenLink (bypassOn 0 3) =
        some (.remote 0 3 .peripheralOutward .b none, 0) := by decide +kernel
    rw [htaken'] at htaken
    obtain ⟨rfl, rfl⟩ := Prod.mk.inj (Option.some.inj htaken)
    exact ⟨.inl rfl, fun _ => rfl⟩
  exact ⟨hinOrder, (bypass_authorized_iff 2 proxyBetween (bypassOn 0 3) rfl).mpr hinOrder⟩

/-- The node behind the inward link replaces the outward link all the same. -/
theorem unauthorized_inward :
    ¬proxyBetween.Authorized 1 (proxyBetween.receive 2 (bypassOn 1 5)) := by
  intro hauth
  have htaken : proxyBetween.takenLink (bypassOn 1 5) =
      some (.remote 0 3 .peripheralOutward .b none, 1) := by decide +kernel
  obtain ⟨hmay, -⟩ := inOrder_of_authorized (m := bypassOn 1 5) rfl hauth _ _ htaken
  rcases hmay with hlink | ⟨state, hstate, -⟩
  · cases hlink
  · cases hstate

end MojoRs.Ipcz
