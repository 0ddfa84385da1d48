/-
MojoRs/Ipcz/RouterIdentity.lean

Whose router a sublink is (`router_deserialize`, `on_bypass_peer_with_link` and
`on_accept_bypass_link`).  A peer names the sublinks of a new router or of a
new central link; the router is kept under the bare number of the first one,
whatever link it belongs to.

Every adoption in a run is noted with the tables before and after it, so that
what holds of all adoptions of a run is a statement about its log.  The one
thing to know of an adoption is what it writes (`Adoption.Effect`); it takes
nothing from a live router exactly where the names are free (`Adoption.Fresh`).
Main results: `Adoption.Effect.keeps_iff`, `identities_kept_iff`.
-/
import MojoRs.Ipcz.DispatchFrames
import MojoRs.Ipcz.LinkLocks
import MojoRs.Lib.Run

namespace MojoRs.Ipcz

open Function (update)
open Lib

/-! ### What an adoption does -/

namespace Adoption

/-- The router that gets a new outward link, if it is not a new one. -/
def router : Adoption → Option Nat
  | .deserialize _ _ => none
  | .centralLink _ _ rid => some rid

/-- What an adoption writes. -/
inductive Effect : Adoption → RouteTables → RouteTables → Prop
  | deserialize {linkId : Nat} {d : RouterDescriptor} {r : Router} {s : RouteTables}
      (h : d.toRouter linkId = some r) :
      Effect (.deserialize linkId d) s (s.adopt linkId d r)
  | centralLink {linkId newSublink rid : Nat} {r : Router} {s : RouteTables} (e : Edge)
      (h : s.routers rid = some r) :
      Effect (.centralLink linkId newSublink rid) s
        ((s.setRouter rid { r with outward := e }).setOwner (linkId, newSublink) rid)

/-- Every live router is still there, with its portal and its queues and, but
for the outward edge of the router that the new link is for, its edges; and
the sublinks of live routers still are theirs. -/
structure Keeps (a : Adoption) (s s' : RouteTables) : Prop where
  routers : ∀ rid r, s.routers rid = some r → ∃ r', s'.routers rid = some r' ∧
    { r' with outward := r.outward } = r ∧ (a.router ≠ some rid → r'.outward = r.outward)
  owners : ∀ rid key, s.routers rid ≠ none → s.owners key = some rid → s'.owners key = some rid

/-- The names of an adoption are free: no live router has the identity of a
new one, unless they are the same, and no other live router has one of the
sublinks. -/
def Fresh : Adoption → RouteTables → Prop
  | .deserialize linkId d, s =>
      (∀ r, s.routers d.newSublink = some r → d.toRouter linkId = some r) ∧
        ∀ sublink ∈ d.sublinks, ∀ rid, s.routers rid ≠ none →
          s.owners (linkId, sublink) = some rid → rid = d.newSublink
  | .centralLink linkId newSublink rid, s =>
      ∀ rid', s.routers rid' ≠ none → s.owners (linkId, newSublink) = some rid' → rid' = rid

end Adoption

/-! ### The tables of an adoption -/

namespace RouteTables

theorem setOwners_owners (linkId rid : Nat) (sublinks : List Nat) (s : RouteTables)
    (key : Nat × Nat) :
    (sublinks.foldl (fun s sublink => s.setOwner (linkId, sublink) rid) s).owners key =
      if key.1 = linkId ∧ key.2 ∈ sublinks then some rid else s.owners key := by
  induction sublinks generalizing s with
  | nil => simp
  | cons sublink sublinks ih =>
      rw [List.foldl_cons, ih]
      by_cases hkey : key = (linkId, sublink)
      · simp [setOwner, hkey]
      · have hne : ¬(key.1 = linkId ∧ key.2 = sublink) := fun h => hkey (Prod.ext h.1 h.2)
        simp only [setOwner, Function.update_of_ne hkey, List.mem_cons]
        by_cases hrest : key.1 = linkId ∧ key.2 ∈ sublinks
        · rw [if_pos hrest, if_pos ⟨hrest.1, .inr hrest.2⟩]
        · rw [if_neg hrest, if_neg]
          rintro ⟨hlink, hsub | hsub⟩
          · exact hne ⟨hlink, hsub⟩
          · exact hrest ⟨hlink, hsub⟩

theorem setOwners_routers (linkId rid : Nat) (sublinks : List Nat) (s : RouteTables) :
    (sublinks.foldl (fun s sublink => s.setOwner (linkId, sublink) rid) s).routers = s.routers := by
  induction sublinks generalizing s with
  | nil => rfl
  | cons sublink sublinks ih =>
      rw [List.foldl_cons, ih]
      rfl

theorem adopt_owners (s : RouteTables) (linkId : Nat) (d : RouterDescriptor) (r : Router)
    (key : Nat × Nat) : (s.adopt linkId d r).owners key =
      if key.1 = linkId ∧ key.2 ∈ d.sublinks then some d.newSublink else s.owners key :=
  setOwners_owners linkId d.newSublink d.sublinks s key

theorem adopt_routers (s : RouteTables) (linkId : Nat) (d : RouterDescriptor) (r : Router) :
    (s.adopt linkId d r).routers = update s.routers d.newSublink (some r) := by
  show update _ _ _ = _
  rw [setOwners_routers]

end RouteTables

/-- A new router takes nothing from a live one exactly where its names are
free. -/
theorem keeps_deserialize_iff {linkId : Nat} {d : RouterDescriptor} {r : Router}
    {s : RouteTables} (h : d.toRouter linkId = some r) :
    (Adoption.deserialize linkId d).Keeps s (s.adopt linkId d r) ↔
      (Adoption.deserialize linkId d).Fresh s := by
  constructor
  · intro hkeeps
    refine ⟨fun old hold => ?_, fun sublink hsub rid hlive hown => ?_⟩
    · obtain ⟨r', hr', hsame, hout⟩ := hkeeps.routers _ old hold
      rw [RouteTables.adopt_routers, Function.update_self] at hr'
      obtain rfl := Option.some.inj hr'
      have hrouter : r.outward = old.outward := hout nofun
      rw [← hrouter] at hsame
      rw [h, ← hsame]
    · have hafter := hkeeps.owners rid (linkId, sublink) hlive hown
      rw [RouteTables.adopt_owners, if_pos ⟨rfl, hsub⟩] at hafter
      exact (Option.some.inj hafter).symm
  · rintro ⟨hrouter, howner⟩
    constructor
    · intro rid old hold
      refine ⟨old, ?_, rfl, fun _ => rfl⟩
      rw [RouteTables.adopt_routers]
      by_cases hrid : rid = d.newSublink
      · subst hrid
        rw [Function.update_self, ← h, hrouter old hold]
      · rw [Function.update_of_ne hrid, hold]
    · intro rid key hlive hown
      rw [RouteTables.adopt_owners]
      split_ifs with hkey
      · obtain ⟨rfl, hsub⟩ := hkey
        rw [howner key.2 hsub rid hlive hown]
      · exact hown

theorem keeps_centralLink_iff {linkId newSublink rid : Nat} {r : Router} {s : RouteTables}
    (e : Edge) (h : s.routers rid = some r) :
    (Adoption.centralLink linkId newSublink rid).Keeps s
        ((s.setRouter rid { r with outward := e }).setOwner (linkId, newSublink) rid) ↔
      (Adoption.centralLink linkId newSublink rid).Fresh s := by
  constructor
  · intro hkeeps rid' hlive hown
    have hafter := hkeeps.owners rid' (linkId, newSublink) hlive hown
    have howner := hafter.symm.trans (Function.update_self ..)
    exact Option.some.inj howner
  · intro howner
    constructor
    · intro rid' old hold
      by_cases hrid : rid' = rid
      · subst hrid
        obtain rfl := Option.some.inj (h.symm.trans hold)
        exact ⟨_, Function.update_self .., rfl, fun hne => absurd rfl hne⟩
      · exact ⟨old, (Function.update_of_ne hrid ..).trans hold, rfl, fun _ => rfl⟩
    · intro rid' key hlive hown
      by_cases hkey : key = (linkId, newSublink)
      · subst hkey
        rw [howner rid' hlive hown]
        exact Function.update_self ..
      · exact (Function.update_of_ne hkey ..).trans hown

theorem Adoption.Effect.keeps_iff {a : Adoption} {s s' : RouteTables} (h : a.Effect s s') :
    a.Keeps s s' ↔ a.Fresh s := by
  cases h with
  | deserialize h => exact keeps_deserialize_iff h
  | centralLink e h => exact keeps_centralLink_iff e h

theorem decayOr_ok {e e' : Edge} {msg : String} {out inc : Option Nat} {s s' : RouteTables}
    (h : (e.decayOr msg out inc).run s = .ok e' s') : s' = s := by
  unfold Edge.decayOr at h
  split at h
  · cases h
  · cases h
    rfl

/-- The block that adopts a new central link, where it does. -/
theorem adoptCentralLink_effect {rid linkId newSublink inboundSequenceLength : Nat}
    {fragment : FragmentDescriptor} {x : Nat × Nat} {s s' : RouteTables}
    (h : (adoptCentralLink rid linkId newSublink fragment inboundSequenceLength).run s =
      .ok (some x) s') : (Adoption.centralLink linkId newSublink rid).Effect s s' := by
  unfold adoptCentralLink at h
  obtain ⟨r, s₁, hget, h₁⟩ := bind_eq_ok.mp h
  obtain ⟨hr, rfl⟩ := getRouter_ok hget
  dsimp only at h₁
  split at h₁
  · next old _ _ =>
      split_ifs at h₁
      · exact absurd h₁ nofun
      · obtain ⟨e, s₂, hdecay, h₂⟩ := bind_eq_ok.mp h₁
        obtain rfl := decayOr_ok hdecay
        cases h₂
        exact .centralLink _ hr
  · exact absurd (pure_eq_ok.mp h₁).1 nofun

/-! ### The log of a node -/

/-- What was logged on the way are adoptions, with what they did. -/
def RoutingAcceptor.Logs (s s' : RoutingAcceptor) : Prop :=
  ∃ l, s'.adoptions = s.adoptions ++ l ∧ ∀ e ∈ l, e.1.Effect e.2.1 e.2.2

namespace RoutingAcceptor

theorem Logs.same {s s' : RoutingAcceptor} (h : s'.adoptions = s.adoptions) : s.Logs s' :=
  ⟨[], by rw [h, List.append_nil], nofun⟩

instance : Std.Refl Logs := ⟨fun _ => .same rfl⟩

instance : IsTrans RoutingAcceptor Logs where
  trans := by
    rintro s s' s'' ⟨l, hl, heffect⟩ ⟨l', hl', heffect'⟩
    refine ⟨l ++ l', by rw [hl', hl, List.append_assoc], fun e he => ?_⟩
    rcases List.mem_append.mp he with he | he
    · exact heffect e he
    · exact heffect' e he

end RoutingAcceptor

open RoutingAcceptor

theorem inTables_logs {α : Type} (f : NodeInfo → RouteM α) : Maintains Logs (inTables f) :=
  inTables_keeps (fun _ _ => .same rfl) f

section Adopt

variable {linkId : Nat}

theorem adoptRouter_logs (d : RouterDescriptor) : Maintains Logs (adoptRouter d linkId) := by
  unfold adoptRouter
  refine Maintains.bind (inTables_logs _) fun _ => ?_
  cases hr : d.toRouter linkId with
  | none => exact keeps_throw _
  | some r =>
      intro s
      refine ⟨[(.deserialize linkId d, s.tables, s.tables.adopt linkId d r)], rfl, ?_⟩
      intro e he
      obtain rfl := List.mem_singleton.mp he
      exact .deserialize hr

/-- A router adopts a central link, and what follows begins with the note. -/
theorem adoptCentral_logs {rid newSublink inboundSequenceLength : Nat}
    {fragment : FragmentDescriptor} {k : Option (Nat × Nat) → AcceptorM Unit}
    {s : RoutingAcceptor} (hnone : Maintains Logs (k none))
    (hsome : ∀ x, ∃ rest : AcceptorM Unit, Maintains Logs rest ∧
      k (some x) = (do
        logAdoption (.centralLink linkId newSublink rid) s.tables
        rest)) :
    s.Logs (endState ((inTables (fun _ =>
      adoptCentralLink rid linkId newSublink fragment inboundSequenceLength) >>= k).run s)) := by
  have hlogs : Maintains Logs (inTables fun _ =>
      adoptCentralLink rid linkId newSublink fragment inboundSequenceLength) := inTables_logs _
  rw [EStateM.run_bind]
  cases hrun : (inTables fun _ =>
      adoptCentralLink rid linkId newSublink fragment inboundSequenceLength).run s with
  | error e s' =>
      have h := hlogs s
      rw [hrun] at h
      exact h
  | ok x s' =>
      have h := hlogs.ok hrun
      cases x with
      | none => exact IsTrans.trans _ _ _ h (hnone s')
      | some x =>
          obtain ⟨rest, hrest, hk⟩ := hsome x
          have hlog : s'.Logs (endState ((logAdoption (.centralLink linkId newSublink rid)
              s.tables).run s')) := by
            refine ⟨[(.centralLink linkId newSublink rid, s.tables, s'.tables)], rfl, ?_⟩
            intro e he
            obtain rfl := List.mem_singleton.mp he
            exact adoptCentralLink_effect (inTables_ok hrun)
          dsimp only
          rw [hk]
          exact IsTrans.trans _ _ _ (IsTrans.trans _ _ _ h hlog) (hrest _)

end Adopt

theorem logs_framed (linkId : Nat) : Framed Logs linkId :=
  .ofTables (fun _ _ => .same rfl) (fun _ _ _ => .same rfl) adoptRouter_logs
    fun _ _ _ _ => .same rfl

/-! ### Other messages -/

section Dispatch

variable (depth : Nat)

theorem resolveParcels_logs (queued : List (ParcelMessage × List OwnedFd × Nat)) :
    Maintains Logs (resolveParcels depth queued) :=
  keeps_forM fun _ _ => (processAcceptParcel_keeps (logs_framed _) _ _ _).bind fun _ => keeps_pure _

theorem onAddBlockBuffer_logs (bufferId : UInt64) (blockSize bufferIndex : Nat)
    (fds : List OwnedFd) (linkId : Nat) :
    Maintains Logs (onAddBlockBuffer depth bufferId blockSize bufferIndex fds linkId) := by
  unfold onAddBlockBuffer
  cases fds[bufferIndex]? with
  | none => exact keeps_throw _
  | some fd =>
      refine Maintains.bind (inTables_logs _) fun reg => ?_
      cases reg.addBlockBuffer bufferId fd.size blockSize with
      | error e => exact keeps_throw _
      | ok reg =>
          refine Maintains.bind (keeps_modify fun _ => .same rfl) fun _ => ?_
          apply keeps_get_bind
          intro s
          refine Maintains.bind (keeps_modify fun _ => .same rfl) (fun _ => ?_) s
          exact resolveParcels_logs depth _

theorem onBypassPeerWithLink_logs (sublink newSublink : Nat) (fragment : FragmentDescriptor)
    (inboundSequenceLength linkId : Nat) :
    Maintains Logs (onBypassPeerWithLink depth sublink newSublink fragment inboundSequenceLength
      linkId) := by
  unfold onBypassPeerWithLink
  dsimp only
  split
  · exact keeps_throw_bind _ _
  · refine Maintains.bind (inTables_logs _) fun _ => ?_
    apply keeps_get_bind
    intro s
    cases s.tables.owners (linkId, sublink) with
    | none => exact Std.Refl.refl s
    | some rid =>
        apply keeps_get_bind (R := Logs) _ s
        intro s
        refine adoptCentral_logs (keeps_pure _) fun x => ⟨_, ?_, rfl⟩
        refine Maintains.bind (inTables_logs _) fun _ => ?_
        refine Maintains.bind (takeEarlyParcels_keeps (logs_framed linkId) _) fun early => ?_
        refine Maintains.bind ?_ fun _ => inTables_logs _
        exact replayEarlyParcels_keeps (processAcceptParcel_keeps (logs_framed linkId) depth) early

theorem onAcceptBypassLinkMessage_logs (currentPeerNode : NodeName) (currentPeerSublink
    inboundSequenceLength newSublink : Nat) (fragment : FragmentDescriptor) (newLinkId : Nat) :
    Maintains Logs (onAcceptBypassLinkMessage depth currentPeerNode currentPeerSublink
      inboundSequenceLength newSublink fragment newLinkId) := by
  unfold onAcceptBypassLinkMessage
  apply keeps_get_bind
  intro s
  cases linkIdForNode s.info currentPeerNode with
  | none => exact Std.Refl.refl s
  | some oldLinkId =>
      apply keeps_get_bind (R := Logs) _ s
      intro s
      cases s.tables.owners (oldLinkId, currentPeerSublink) with
      | none => exact Std.Refl.refl s
      | some rid =>
          refine Maintains.bind (inTables_logs _) (fun _ => ?_) s
          refine Maintains.bind (inTables_logs _) fun allowed => ?_
          split
          · apply keeps_get_bind
            intro s
            exact adoptCentral_logs (keeps_pure _) fun x => ⟨_, inTables_logs _, rfl⟩
          · exact keeps_pure _

theorem onProvideMemory_logs (size : Nat) (fd : OwnedFd) (linkId : Nat) :
    Maintains Logs (onProvideMemory size fd linkId) := by
  unfold onProvideMemory
  apply keeps_get_bind
  intro s
  cases s.tables.pendingMemoryRequests (linkId, size) with
  | nil => exact Std.Refl.refl s
  | cons blockSize rest =>
      refine Maintains.bind (inTables_logs _) (fun reg => ?_) s
      apply keeps_get_bind
      intro s
      refine Maintains.bind (inTables_logs _) (fun _ => ?_) s
      cases reg.registerBlockBuffer _ fd.size blockSize with
      | error e => exact keeps_throw _
      | ok reg =>
          refine Maintains.bind (keeps_modify fun _ => .same rfl) fun _ => ?_
          exact inTables_logs _

theorem withOwner_logs (linkId sublink : Nat) (f : NodeInfo → Nat → RouteM Unit) :
    Maintains Logs (withOwner linkId sublink f) := by
  unfold withOwner
  apply keeps_get_bind
  intro s
  cases s.tables.owners (linkId, sublink) with
  | none => exact Std.Refl.refl s
  | some rid => exact inTables_logs _ s

theorem completeIntroductions_logs (name : NodeName) :
    Maintains Logs (completeIntroductions depth name) := inTables_logs _

theorem onAcceptIntroduction_logs (name : NodeName) (transportIndex memoryIndex : Nat)
    (fds : List OwnedFd) :
    Maintains Logs (onAcceptIntroduction depth name transportIndex memoryIndex fds) := by
  unfold onAcceptIntroduction
  apply keeps_get_bind
  intro s
  dsimp only
  split
  · split
    · exact Std.Refl.refl s
    · refine Maintains.bind (keeps_modify fun _ => .same rfl) (fun _ => ?_) s
      exact completeIntroductions_logs depth name
  · exact Std.Refl.refl s

theorem dispatch_logs (msg : RouteMessage) (fds : List OwnedFd) (linkId : Nat) :
    Maintains Logs (dispatch depth msg fds linkId) := by
  cases msg with
  | acceptParcel p => exact (processAcceptParcel_keeps (logs_framed _) _ _ _).bind fun _ => keeps_pure _
  | addBlockBuffer bufferId blockSize bufferIndex => exact onAddBlockBuffer_logs depth _ _ _ _ _
  | routeClosed sublink sequenceLength => exact withOwner_logs _ _ _
  | routeDisconnected sublink => exact withOwner_logs _ _ _
  | bypassPeer sublink bypassTargetNode bypassTargetSublink => exact keeps_throw _
  | acceptBypassLink node peerSublink length newSublink fragment =>
      exact onAcceptBypassLinkMessage_logs depth _ _ _ _ _ _
  | stopProxying sublink inLength outLength => exact withOwner_logs _ _ _
  | proxyWillStop sublink inLength => exact withOwner_logs _ _ _
  | bypassPeerWithLink sublink newSublink fragment length =>
      exact onBypassPeerWithLink_logs depth _ _ _ _ _
  | stopProxyingToLocalPeer sublink outLength => exact withOwner_logs _ _ _
  | flushRouter sublink => exact withOwner_logs _ _ _
  | requestMemory size => exact keeps_throw _
  | provideMemory size =>
      unfold dispatch
      dsimp only
      split
      · exact onProvideMemory_logs _ _ _
      · exact keeps_throw _
  | requestIntroduction name => exact keeps_throw _
  | acceptIntroduction name transportIndex memoryIndex =>
      exact onAcceptIntroduction_logs depth _ _ _ _
  | rejectIntroduction name => exact completeIntroductions_logs depth name

end Dispatch

/-! ### Runs -/

/-- A message that arrives, with its descriptors and its link. -/
structure Arrival where
  message : RouteMessage
  fds : List OwnedFd
  linkId : Nat

/-- The node after a message, whether it was taken or refused. -/
def RoutingAcceptor.receive (depth : Nat) (s : RoutingAcceptor) (m : Arrival) : RoutingAcceptor :=
  endState ((dispatch depth m.message m.fds m.linkId).run s)

/-- The node with an empty log. -/
def RoutingAcceptor.unlogged (s : RoutingAcceptor) : RoutingAcceptor := { s with adoptions := [] }

theorem exec_logs (depth : Nat) (s : RoutingAcceptor) (msgs : List Arrival) :
    s.Logs (exec (receive depth) s msgs) := by
  induction msgs generalizing s with
  | nil => exact Std.Refl.refl s
  | cons m msgs ih =>
      exact IsTrans.trans _ _ _ (dispatch_logs depth m.message m.fds m.linkId s) (ih _)

/-- In every run of a node, no adoption takes anything from a live router if
and only if the names of all adoptions are free. -/
theorem identities_kept_iff (depth : Nat) (s : RoutingAcceptor) (msgs : List Arrival) :
    (∀ e ∈ (exec (receive depth) s.unlogged msgs).adoptions, e.1.Keeps e.2.1 e.2.2) ↔
      ∀ e ∈ (exec (receive depth) s.unlogged msgs).adoptions, e.1.Fresh e.2.1 := by
  obtain ⟨l, hl, heffect⟩ := exec_logs depth s.unlogged msgs
  have hlog : (exec (receive depth) s.unlogged msgs).adoptions = l := hl
  rw [hlog]
  exact forall₂_congr fun e he => (heffect e he).keeps_iff

/-- A node with a portal on each of two links. -/
def twoLinks : RoutingAcceptor :=
  { RoutingAcceptor.fresh [0, 1] with
    tables := (((RouteTables.fresh.setOwner (0, 2) 2).setRouter 2
      (.newTerminal (.remote 0 2 .peripheralOutward .b none))).setOwner (1, 3) 3).setRouter 3
      (.newTerminal (.remote 1 3 .peripheralOutward .b none)) }

/-- The first parcel on a sublink, with a portal on sublink 12 or without. -/
def firstParcel (sublink : Nat) (data : List UInt8) (portal : Bool) : ParcelMessage :=
  ⟨sublink, 0, 0, 1, .null, data, if portal then [handleTypePortal] else [],
    if portal then [{ RouterDescriptor.default with newSublink := 12 }] else [], []⟩

/-- Both links bring a portal on their sublink 12, and the first one gets a
message in between. -/
def twoPortals : List Arrival :=
  [⟨.acceptParcel (firstParcel 2 [1] true), [], 0⟩, ⟨.acceptParcel (firstParcel 12 [7] false), [], 0⟩,
    ⟨.acceptParcel (firstParcel 3 [2] true), [], 1⟩]

/-- What router 12 has delivered before and after the second adoption. -/
theorem twoPortals_second :
    (exec (receive 2) twoLinks.unlogged twoPortals).adoptions[1]?.map
        (fun e => ((e.2.1.routers 12).bind (·.portal), (e.2.2.routers 12).bind (·.portal))) =
      some (some ⟨[([7], [])]⟩, some ⟨[]⟩) := by
  decide +kernel

/-- The portal of the first link is replaced, with its unread message. -/
theorem identity_stolen :
    ¬∀ e ∈ (exec (receive 2) twoLinks.unlogged twoPortals).adoptions, e.1.Keeps e.2.1 e.2.2 := by
  intro h
  obtain ⟨e, he, hportals⟩ := Option.map_eq_some_iff.mp twoPortals_second
  obtain ⟨hbefore, hafter⟩ := Prod.mk.inj hportals
  obtain ⟨r, hr, hportal⟩ := Option.bind_eq_some_iff.mp hbefore
  obtain ⟨r', hr', hsame, -⟩ := (h e (List.mem_of_getElem? he)).routers 12 r hr
  have hempty : r'.portal = some ⟨[]⟩ := by simpa [hr'] using hafter
  have hkept : r'.portal = r.portal := by rw [← hsame]
  rw [hempty, hportal] at hkept
  cases hkept

end MojoRs.Ipcz
