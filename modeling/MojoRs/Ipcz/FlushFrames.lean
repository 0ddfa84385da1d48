/-
MojoRs/Ipcz/FlushFrames.lean

The walk through a flush (`router_flush`), with all nested flushes, proxies,
bridges and transfers of portals, taken once for every property of the tables
that it may be asked to keep.  `FlushSteps P C` lists the changes that a flush
makes by itself, for a family `P` of properties, some of which may compare with
the tables a run began in; `FlushFrame P C` has one property and fewer, rougher
changes: routers come from routers and go, messages are sent, serialized routers
are noted, and all else is quiet.  What is kept there is kept throughout.  `C`
bounds the parcels, as no flush makes parcels of its own.

Main results: `transmitParcel_frame`, `routerFlush_frame`, `routerFlush_notes`,
`carries_frame`.
-/
import MojoRs.Ipcz.ParcelContents

namespace MojoRs.Ipcz

open Function (update)
open Lib RouteTables

/-- The channel after a message. -/
def LinkChannel.send (ch : LinkChannel) (msg : RouteMessage) (fds : List OwnedFd) : LinkChannel :=
  { ch with
    sent := if ch.broken then ch.sent else ch.sent ++ [(ch.nextLinkSeq, msg, fds)]
    nextLinkSeq := ch.nextLinkSeq + 1 }

/-- The messages of a flush, on a link for which `log` was serialized. -/
def RouteMessage.FromFlush (C : Contents) (log : List (Nat × RouterDescriptor)) :
    RouteMessage → Prop
  | .acceptParcel m => m.In C log
  | .routeClosed .. | .bypassPeer .. | .bypassPeerWithLink .. | .flushRouter _ | .requestMemory _ =>
      True
  | _ => False

/-- A router was serialized for a link, as its history has it. -/
def RouteTables.NotedFor (s : RouteTables) (linkId rid : Nat) (d : RouterDescriptor) : Prop :=
  ∃ unread, .serialized linkId d unread ∈ s.history rid

/-- The changes that a flush makes by itself keep each invariant of the family `P`,
if parcels are in `C`.  A member may be about what a run has done since it began,
so that the parcels of a flush are one change: while they are transmitted, more
flushes run. -/
structure FlushSteps {ι : Type} (P : ι → RouteTables → Prop) (C : Contents) : Prop where
  holds : ∀ {i s rid r}, P i s → s.routers rid = some r → r.Holds C
  quiet : ∀ {i s s'}, P i s → s.Quiet s' → P i s'
  rewire : ∀ {i s rid r r'}, P i s → s.routers rid = some r → r.Rewired r' →
    P i (s.setRouter rid r')
  acceptInbound : ∀ {i s rid r r' p}, P i s → s.routers rid = some r → p.In C →
    r.acceptInbound p = some r' → P i ((s.setRouter rid r').note rid (.accepted p))
  acceptOutbound : ∀ {i s rid r r' p}, P i s → s.routers rid = some r → p.In C →
    r.acceptOutbound p = some r' → P i (s.setRouter rid r')
  deliver : ∀ {i s rid r}, P i s → s.routers rid = some r → r.inward = none →
    P i (s.setRouter rid r.deliver)
  becomeProxy : ∀ {i s rid r} linkId {inward : Edge} (outward : Edge) {d : RouterDescriptor},
    P i s → s.routers rid = some r → r.inward = none → inward.links = [] →
      d.nextIncomingSequenceNumber = r.inbound.current →
        P i ((s.setRouter rid { r with inward := some inward, outward }).note rid
          (.serialized linkId d r.unread))
  proxyLink : ∀ {i s rid r inward linkId d sublink}, P i s → s.routers rid = some r →
    r.inward = some inward → s.NotedFor linkId rid d →
      (sublink = d.newSublink ∨ sublink = d.newDecayingSublink) →
        P i (s.setRouter rid
          { r with inward := inward.setPrimaryLink (.remote linkId sublink .peripheralInward .a none) })
  parcels : ∀ {i info flush} rid,
    (∀ j rid force, Yields (P j) (flush rid force) fun _ => True) →
      (∀ j link (parcel : Parcel), parcel.In C →
        Yields (P j) (transmitParcel info flush link parcel) fun _ => True) →
        Yields (P i) (flushParcels info flush rid) fun _ => True
  dropRouter : ∀ {i s} rid, P i s → P i (s.dropRouter rid)
  send : ∀ {i s} linkId {msg} fds, P i s → msg.FromFlush C (s.serializedFor linkId) →
    P i (s.setChannel linkId ((s.channels linkId).send msg fds))
  log : ∀ {i s} linkId d, P i s → P i (s.logSerialized linkId d)

/-- The same for an invariant that any change of routers keeps. -/
structure FlushFrame (P : RouteTables → Prop) (C : Contents) : Prop where
  holds : ∀ {s rid r}, P s → s.routers rid = some r → r.Holds C
  quiet : ∀ {s s'}, P s → s.Quiet s' → P s'
  setRouter : ∀ {s} rid {r}, P s → r.Holds C → P (s.setRouter rid r)
  note : ∀ {s} rid e, P s → P (s.note rid e)
  dropRouter : ∀ {s} rid, P s → P (s.dropRouter rid)
  send : ∀ {s} linkId {msg} fds, P s → msg.FromFlush C (s.serializedFor linkId) →
    P (s.setChannel linkId ((s.channels linkId).send msg fds))
  log : ∀ {s} linkId d, P s → P (s.logSerialized linkId d)

section Send

variable {P : RouteTables → Prop} {info : NodeInfo}

/-- A message goes to its channel, or is refused before. -/
theorem sendLinkMessageOn_end {s : RouteTables} (linkId : Nat) (msg : RouteMessage)
    (fds : List OwnedFd) (hs : P s)
    (h : P (s.setChannel linkId ((s.channels linkId).send msg fds))) :
    P (endState ((sendLinkMessageOn info linkId msg fds).run s)) := by
  unfold sendLinkMessageOn
  cases info.links linkId with
  | none => exact hs
  | some l =>
      dsimp only
      rw [run_get_bind, run_bind_of_ok (run_modify _ _)]
      unfold LinkChannel.send at h
      split_ifs at h ⊢ with hbroken
      · exact h
      · exact h

theorem yields_send (linkId : Nat) (msg : RouteMessage) (fds : List OwnedFd)
    (h : ∀ s, P s → P (s.setChannel linkId ((s.channels linkId).send msg fds))) :
    Yields P (sendLinkMessageOn info linkId msg fds) fun _ => True :=
  fun s hs => ⟨sendLinkMessageOn_end linkId msg fds hs (h s hs), fun _ _ _ => trivial⟩

/-- The parcels that were popped are transmitted one by one, and the ghosts note it. -/
theorem yields_transmitPopped {rid : Nat} {flush : Nat → Bool → RouteM Unit}
    {outbound inbound : List (Link × Parcel)}
    (htransmitted : ∀ s link parcel, P s → P (s.note rid (.transmitted link parcel)))
    (habandoned : ∀ s, P s → P (s.note rid .abandoned))
    (hout : ∀ x ∈ outbound, Yields P (transmitParcel info flush x.1 x.2) fun _ => True)
    (hin : ∀ x ∈ inbound, Yields P (transmitParcel info flush x.1 x.2) fun _ => True) :
    Yields P (transmitPopped info flush rid outbound inbound) fun _ => True := by
  have hall : Yields P ((outbound.forM fun x => transmitParcel info flush x.1 x.2) >>= fun _ =>
      transmitInbound info flush rid inbound) fun _ => True := by
    refine Yields.bind (yields_forM hout) fun _ _ => ?_
    apply yields_forM
    intro x hx
    exact (hin x hx).bind fun _ _ => yields_modify fun s hs => htransmitted s x.1 x.2 hs
  intro s hs
  refine ⟨?_, fun _ _ _ => trivial⟩
  have hend := (hall s hs).1
  rw [transmitPopped_run]
  split
  · next h =>
    rw [h] at hend
    exact hend
  · next h =>
    rw [h] at hend
    show P (if inbound.isEmpty then _ else _)
    split_ifs
    · exact hend
    · exact habandoned _ hend

end Send

/-! ### Any change of routers -/

namespace FlushFrame

variable {P : RouteTables → Prop} {C : Contents} {info : NodeInfo} {rid : Nat}

/-- A step that is quiet. -/
theorem ofQuiet (hP : FlushFrame P C) {α : Type} {x : RouteM α} (h : Maintains Quiet x) :
    Yields P x fun _ => True :=
  h.yields fun _ _ hq hs => hP.quiet hs hq

theorem sendMessage (hP : FlushFrame P C) (linkId : Nat) {msg : RouteMessage} (fds : List OwnedFd)
    (h : ∀ log, msg.FromFlush C log) :
    Yields P (sendLinkMessageOn info linkId msg fds) fun _ => True :=
  yields_send linkId msg fds fun _ hs => hP.send linkId fds hs (h _)

theorem getRouter (hP : FlushFrame P C) (missing : String) :
    Yields P (getRouter rid missing) fun r => r.Holds C := by
  intro s hs
  rcases getRouter_cases rid missing s with ⟨err, h⟩ | ⟨r, hr, h⟩
  · rw [h]
    refine ⟨hs, fun a s' hrun => ?_⟩
    cases hrun
  · rw [h]
    refine ⟨hs, fun a s' hrun => ?_⟩
    injection hrun with ha
    exact ha ▸ hP.holds hs hr

theorem putRouter (hP : FlushFrame P C) {r : Router} (hr : r.Holds C) :
    Yields P (putRouter rid r) fun _ => True :=
  yields_modify fun _ hs => hP.setRouter _ hs hr

/-- One router changed, its parcels as they were. -/
theorem modifyRouter (hP : FlushFrame P C) {missing : String} {f : Router → RouteM Unit}
    (h : ∀ r, r.Holds C → Yields P (f r) fun _ => True) :
    Yields P (Ipcz.getRouter rid missing >>= f) fun _ => True :=
  (hP.getRouter missing).bind h

theorem putPopped (hP : FlushFrame P C) {r : Router} (hr : r.Holds C)
    (inbound : List (Link × Parcel)) : Yields P (putPopped rid r inbound) fun _ => True := by
  refine yields_modify fun s hs => ?_
  have hset := hP.setRouter rid hs hr
  split_ifs
  · exact hset
  · exact hP.note rid _ hset

theorem steps (hP : FlushFrame P C) : FlushSteps (fun _ : Unit => P) C where
  holds := hP.holds
  quiet := hP.quiet
  rewire hs hr h := hP.setRouter _ hs (h.holds (hP.holds hs hr))
  acceptInbound hs hr hp h := hP.note _ _ (hP.setRouter _ hs ((hP.holds hs hr).acceptInbound hp h))
  acceptOutbound hs hr hp h := hP.setRouter _ hs ((hP.holds hs hr).acceptOutbound hp h)
  deliver hs hr _ := hP.setRouter _ hs (hP.holds hs hr).deliver
  becomeProxy _ _ _ _ hs hr _ _ _ :=
    hP.note _ _ (hP.setRouter _ hs ((hP.holds hs hr).of_eq rfl rfl rfl))
  proxyLink hs hr _ _ _ := hP.setRouter _ hs ((hP.holds hs hr).of_eq rfl rfl rfl)
  parcels rid _ htransmit := by
    unfold flushParcels
    refine Yields.bind (hP.getRouter _) fun r hr => ?_
    obtain ⟨hout, hin, hrest⟩ := hr.collectToFlush
    refine Yields.bind (hP.putPopped hrest _) fun _ _ => ?_
    exact yields_transmitPopped (fun _ _ _ hs => hP.note _ _ hs) (fun _ hs => hP.note _ _ hs)
      (fun x hx => htransmit () x.1 x.2 (hout x hx)) fun x hx => htransmit () x.1 x.2 (hin x hx)
  dropRouter := hP.dropRouter
  send := hP.send
  log := hP.log

end FlushFrame

/-! ### Steps on the tables -/

variable {ι : Type} {P : ι → RouteTables → Prop} {C : Contents} {i : ι} {info : NodeInfo}
  {rid : Nat}

namespace FlushSteps

variable (hP : FlushSteps P C)
include hP

/-- A step that is quiet. -/
theorem ofQuiet {α : Type} {x : RouteM α} (h : Maintains Quiet x) :
    Yields (P i) x fun _ => True :=
  h.yields fun _ _ hq hs => hP.quiet hs hq

theorem sendMessage (linkId : Nat) {msg : RouteMessage} (fds : List OwnedFd)
    (h : ∀ log, msg.FromFlush C log) :
    Yields (P i) (sendLinkMessageOn info linkId msg fds) fun _ => True :=
  yields_send linkId msg fds fun _ hs => hP.send linkId fds hs (h _)

omit hP in
/-- A step that reads a router goes on in the state it read it from. -/
theorem runRouter {α : Type} {missing : String} {f : Router → RouteM α}
    {W : α → RouteTables → Prop} {s : RouteTables} (hs : P i s)
    (h : ∀ r, s.routers rid = some r →
      P i (endState ((f r).run s)) ∧ ∀ a s', (f r).run s = .ok a s' → W a s') :
    P i (endState ((Ipcz.getRouter rid missing >>= f).run s)) ∧
      ∀ a s', (Ipcz.getRouter rid missing >>= f).run s = .ok a s' → W a s' := by
  rcases getRouter_cases rid missing s with ⟨err, hrun⟩ | ⟨r, hr, hrun⟩
  · rw [EStateM.run_bind, hrun]
    exact ⟨hs, nofun⟩
  · rw [run_bind_of_ok hrun]
    exact h r hr

omit hP in
theorem readRouter {α : Type} {missing : String} {f : Router → RouteM α} {s : RouteTables}
    (hs : P i s) (h : ∀ r, s.routers rid = some r → P i (endState ((f r).run s))) :
    P i (endState ((Ipcz.getRouter rid missing >>= f).run s)) :=
  (runRouter hs fun r hr => ⟨h r hr, fun _ _ _ => trivial⟩ : _ ∧ ∀ _ _, _ → True).1

omit hP in
theorem modifyRouter {missing : String} {f : Router → RouteM Unit}
    (h : ∀ s r, P i s → s.routers rid = some r → P i (endState ((f r).run s))) :
    Yields (P i) (Ipcz.getRouter rid missing >>= f) fun _ => True :=
  fun s hs => runRouter hs fun r hr => ⟨h s r hs hr, fun _ _ _ => trivial⟩

theorem getRouter (missing : String) :
    Yields (P i) (Ipcz.getRouter rid missing) fun r => r.Holds C := by
  intro s hs
  rw [← bind_pure (Ipcz.getRouter rid missing)]
  refine runRouter hs fun r hr => ⟨hs, fun a s' hrun => ?_⟩
  obtain ⟨rfl, -⟩ := pure_eq_ok.mp hrun
  exact hP.holds hs hr

/-- A local peer accepts a parcel. -/
theorem putAccepted {s : RouteTables} {r r' : Router} {kind : LinkKind} {p : Parcel} (hs : P i s)
    (hr : s.routers rid = some r) (hp : p.In C) (h : r.acceptLocal kind p = some r') :
    P i (endState ((putAccepted rid r' kind.isCentral p).run s)) := by
  unfold Ipcz.putAccepted
  rw [run_modify]
  show P i (if kind.isCentral then _ else _)
  unfold Router.acceptLocal at h
  split_ifs at h ⊢
  · exact hP.acceptInbound hs hr hp h
  · exact hP.acceptOutbound hs hr hp h

/-- A router that was read is rewired. -/
theorem putRewired {α : Type} {s : RouteTables} {r r' : Router} (hs : P i s)
    (hr : s.routers rid = some r) (h : r.Rewired r') {f : PUnit → RouteM α}
    (hf : ∀ s, P i s → s.routers rid = some r' → P i (endState ((f ⟨⟩).run s))) :
    P i (endState ((putRouter rid r' >>= f).run s)) := by
  rw [run_bind_of_ok (putRouter_run _ _ _)]
  exact hf _ (hP.rewire hs hr h) (RouteTables.setRouter_routers_self ..)

end FlushSteps

variable (hP : FlushSteps P C)
include hP

theorem setOutwardLink_frame (l : Link) :
    Yields (P i) (setOutwardLink info rid l) fun _ => True := by
  have hput : Yields (P i) (do
      let router ← getRouter rid "set outward link for unknown router"
      if !router.disconnected then
        putRouter rid { router with outward := router.outward.setPrimaryLink l } : RouteM Unit)
      fun _ => True := by
    apply FlushSteps.modifyRouter
    intro s r hs hr
    split_ifs
    · exact hP.rewire hs hr (.outward _ _)
    · exact hs
  unfold setOutwardLink
  refine Yields.bind (hP.getRouter _) fun r _ => ?_
  split_ifs
  · exact (hP.ofQuiet (markSideStableOnLink_quiet l)).bind fun _ _ => hput
  · exact hput

theorem removeRouter_frame : Yields (P i) (removeRouter info rid) fun _ => True := by
  unfold removeRouter
  refine Yields.bind yields_get fun s _ => ?_
  cases s.routers rid with
  | none => exact yields_pure trivial
  | some r =>
      dsimp only
      refine Yields.bind (hP.ofQuiet (keeps_modify fun s => ⟨rfl, rfl, rfl, rfl, rfl, rfl⟩)) fun _ _ => ?_
      refine Yields.bind (yields_forM fun l _ => ?_) fun _ _ => ?_
      · exact hP.ofQuiet (ignoreError_keeps (releaseLinkState_quiet l))
      · exact yields_modify fun s hs => hP.dropRouter rid hs

theorem requestBlockCapacity_frame (blockSize linkId : Nat) :
    Yields (P i) (requestBlockCapacity info blockSize linkId) fun _ => True := by
  unfold requestBlockCapacity
  refine Yields.bind yields_get fun s _ => ?_
  split_ifs
  · refine Yields.bind (hP.ofQuiet (keeps_modify fun s => ⟨rfl, rfl, rfl, rfl, rfl, rfl⟩)) fun _ _ => ?_
    dsimp only
    split_ifs
    · exact yields_throw_bind _ _
    · refine Yields.bind (hP.ofQuiet (keeps_modify fun s => ⟨rfl, rfl, rfl, rfl, rfl, rfl⟩)) fun _ _ => ?_
      exact hP.sendMessage _ _ fun _ => trivial
  · exact yields_pure trivial

/-! ### Bypasses -/

omit hP in
theorem decayOr_frame {P : RouteTables → Prop} (e : Edge) (msg : String) (out inc : Option Nat) :
    Yields P (e.decayOr msg out inc) fun _ => True := by
  unfold Edge.decayOr
  cases e.beginPrimaryLinkDecay with
  | none => exact yields_throw _
  | some e => exact yields_pure trivial

omit hP in
theorem decayOr_cases (e : Edge) (msg : String) (out inc : Option Nat) :
    (∃ e' : Edge, e.decayOr msg out inc = pure e') ∨ ∃ err, e.decayOr msg out inc = throw err := by
  unfold Edge.decayOr
  cases e.beginPrimaryLinkDecay with
  | none => exact .inr ⟨_, rfl⟩
  | some e => exact .inl ⟨_, rfl⟩

theorem decayOutward_frame (missing msg : String) (out inc : Option Nat) :
    Yields (P i) (decayOutward rid missing msg out inc) fun _ => True := by
  unfold decayOutward
  apply FlushSteps.modifyRouter
  intro s r hs hr
  rcases decayOr_cases r.outward msg out inc with ⟨outward, h⟩ | ⟨err, h⟩ <;> rw [h]
  · exact hP.rewire hs hr (.outward _ _)
  · exact hs

theorem decayBridge_frame (missing noBridge msg : String) (out inc : Option Nat) :
    Yields (P i) (decayBridge rid missing noBridge msg out inc) fun _ => True := by
  unfold decayBridge
  apply FlushSteps.modifyRouter
  intro s r hs hr
  cases hb : r.bridge with
  | none => exact hs
  | some b =>
      dsimp only
      rcases decayOr_cases b msg out inc with ⟨bridge, h⟩ | ⟨err, h⟩ <;> rw [h]
      · exact hP.rewire hs hr (.bridgeEdge hb _)
      · exact hs

theorem decayFiveEdges_frame (p o len : Nat) :
    Yields (P i) (decayFiveEdges rid p o len) fun _ => True := by
  unfold decayFiveEdges
  refine Yields.bind (decayOutward_frame hP _ _ _ _) fun _ _ => ?_
  refine Yields.bind (decayOutward_frame hP _ _ _ _) fun _ _ => ?_
  refine Yields.bind (decayBridge_frame hP _ _ _ _ _) fun _ _ => ?_
  refine Yields.bind (decayOutward_frame hP _ _ _ _) fun _ _ => ?_
  exact decayBridge_frame hP _ _ _ _ _

theorem decaySixEdges_frame (second p q m n : Nat) :
    Yields (P i) (decaySixEdges rid second p q m n) fun _ => True := by
  unfold decaySixEdges
  refine Yields.bind (decayOutward_frame hP _ _ _ _) fun _ _ => ?_
  refine Yields.bind (decayOutward_frame hP _ _ _ _) fun _ _ => ?_
  refine Yields.bind (decayOutward_frame hP _ _ _ _) fun _ _ => ?_
  refine Yields.bind (decayOutward_frame hP _ _ _ _) fun _ _ => ?_
  refine Yields.bind (decayBridge_frame hP _ _ _ _ _) fun _ _ => ?_
  exact decayBridge_frame hP _ _ _ _ _

theorem decayBothEdges_frame : Yields (P i) (decayBothEdges rid) fun _ => True := by
  intro s hs
  refine ⟨?_, fun _ _ _ => trivial⟩
  unfold decayBothEdges
  rw [run_get_bind]
  cases hr : s.routers rid with
  | none => exact hs
  | some router =>
      dsimp only
      rcases decayOr_cases router.outward "failed to decay outward edge" none none with
        ⟨outward, h⟩ | ⟨err, h⟩ <;> rw [h]
      · rw [pure_bind]
        refine hP.putRewired hs hr (.outward _ outward) fun s hs hr => ?_
        cases hb : router.bridge with
        | none => exact hs
        | some b =>
            dsimp only
            rcases decayOr_cases b "failed to decay bridge edge" none none with
              ⟨bridge, h⟩ | ⟨err, h⟩ <;> rw [h]
            · have hb : ({ router with outward } : Router).bridge = some b := hb
              exact hP.rewire hs hr (.bridgeEdge hb bridge)
            · exact hs
      · exact hs

theorem setPrimaryOutward_frame (l : Link) :
    Yields (P i) (setPrimaryOutward rid l) fun _ => True := by
  unfold setPrimaryOutward
  exact FlushSteps.modifyRouter fun s r hs hr => hP.rewire hs hr (.outward _ _)

theorem bypassRemotePeers_frame (second : Nat) (first secondLink : Link) :
    Yields (P i) (bypassRemotePeers info rid second first secondLink) fun _ => True := by
  unfold bypassRemotePeers
  refine Yields.bind (yields_forM fun _ _ => decayBothEdges_frame hP) fun _ _ => ?_
  refine Yields.bind (hP.ofQuiet (remoteNameFor_keeps _)) fun _ _ => ?_
  exact hP.sendMessage _ _ fun _ => trivial

theorem bypassRemoteLink_frame (o : Nat) (linkState : FragmentDescriptor) :
    Yields (P i) (bypassRemoteLink o linkState) fun _ => True := by
  unfold bypassRemoteLink
  refine Yields.bind (hP.getRouter _) fun r _ => ?_
  cases r.outward.primary with
  | none => exact yields_throw _
  | some l =>
      dsimp only
      split_ifs
      · exact yields_throw _
      · exact yields_throw _
      · exact yields_pure trivial

omit hP in
theorem lockBridge_quiet (first secondLink : Link) :
    Maintains Quiet (lockBridge info first secondLink) := by
  unfold lockBridge
  refine Maintains.bind (peerNodeOf_quiet _) fun _ => ?_
  refine Maintains.bind (peerNodeOf_quiet _) fun _ => ?_
  refine Maintains.bind (tryLockLinkForBypass_quiet _ _) fun locked => ?_
  split_ifs
  · refine Maintains.bind (tryLockLinkForBypass_quiet _ _) fun locked => ?_
    split_ifs
    · exact keeps_pure _
    · exact (unlockLinkForBypass_quiet _).bind fun _ => keeps_pure _
  · exact keeps_pure _

section Flush

variable {flush : Nat → Bool → RouteM Unit}
  (hflush : ∀ i rid force, Yields (P i) (flush rid force) fun _ => True)
include hflush

theorem flushOtherSideIfWaiting_frame (l : Link) :
    Yields (P i) (flushOtherSideIfWaiting info flush l) fun _ => True := by
  unfold flushOtherSideIfWaiting
  split
  · refine Yields.bind (hP.ofQuiet (onLinkStatus_quiet _ _ _)) fun waiting _ => ?_
    split_ifs
    · exact hP.sendMessage _ _ fun _ => trivial
    · exact yields_pure trivial
  · refine Yields.bind (hP.ofQuiet (onLocalStatus_quiet _ _)) fun waiting _ => ?_
    split_ifs
    · cases l.localPeer with
      | none => exact yields_pure trivial
      | some peer => exact hflush _ _ _
    · exact yields_pure trivial
  · exact yields_pure trivial

theorem routerRouteClosedLocal_frame (kind : LinkKind) (n : Nat) :
    Yields (P i) (routerRouteClosedLocal flush rid kind n) fun _ => True := by
  unfold routerRouteClosedLocal
  apply FlushSteps.modifyRouter
  intro s r hs hr
  cases hclosed : r.acceptLocalClosure kind n with
  | none => exact hs
  | some r' =>
      exact hP.putRewired hs hr (.acceptLocalClosure hclosed) fun s hs _ => (hflush i rid false s hs).1

theorem deliverRouteClosed_frame (l : Link) (n : Nat) :
    Yields (P i) (deliverRouteClosed info flush l n) fun _ => True := by
  unfold deliverRouteClosed
  cases l.localPeer with
  | none => exact hP.sendMessage _ _ fun _ => trivial
  | some peer => exact routerRouteClosedLocal_frame hP hflush _ _

theorem startBridgeBypassFromLocalPeer_frame (linkState : FragmentDescriptor) :
    Yields (P i) (startBridgeBypassFromLocalPeer info flush rid linkState) fun _ => True := by
  unfold startBridgeBypassFromLocalPeer
  refine Yields.bind yields_get fun s _ => ?_
  rcases s.localBypass rid with - | ⟨p, o⟩
  · exact yields_pure trivial
  · refine Yields.bind (bypassRemoteLink_frame hP _ _) fun remoteLink _ => ?_
    refine Yields.bind (hP.ofQuiet fun s => Std.Refl.refl s) fun len _ => ?_
    refine Yields.bind (hP.ofQuiet (allocateSublinkIds_quiet _ _)) fun sublink _ => ?_
    refine Yields.bind (decayFiveEdges_frame hP _ _ _) fun _ _ => ?_
    refine Yields.bind (hP.sendMessage _ _ fun _ => trivial) fun _ _ => ?_
    refine Yields.bind (setOutwardLink_frame hP _) fun _ _ => ?_
    refine Yields.bind (hP.ofQuiet (insertOwner_quiet _ _ _)) fun _ _ => ?_
    exact (hflush _ _ _).bind fun _ _ => (hflush _ _ _).bind fun _ _ => hflush _ _ _

theorem bypassFromLocalPeer_frame (linkId : Nat) :
    Yields (P i) (bypassFromLocalPeer info flush rid linkId) fun _ => True := by
  unfold bypassFromLocalPeer
  refine Yields.bind (hP.ofQuiet (tryAllocateLinkState_quiet _)) fun block _ => ?_
  cases block with
  | none => exact requestBlockCapacity_frame hP _ _
  | some desc =>
      refine Yields.bind (hP.ofQuiet (addLinkStateRef_quiet _ _)) fun _ _ => ?_
      exact startBridgeBypassFromLocalPeer_frame hP hflush _

theorem bypassLocalPeers_frame (second p q : Nat) :
    Yields (P i) (bypassLocalPeers flush rid second p q) fun _ => True := by
  unfold bypassLocalPeers
  refine Yields.bind (hP.ofQuiet fun s => Std.Refl.refl s) fun m _ => ?_
  refine Yields.bind (hP.ofQuiet fun s => Std.Refl.refl s) fun n _ => ?_
  refine Yields.bind (decaySixEdges_frame hP _ _ _ _ _) fun _ _ => ?_
  refine Yields.bind (hP.ofQuiet (newLocalPair_quiet _ _ _ _ _)) ?_
  rintro ⟨linkA, linkB⟩ _
  refine Yields.bind (setPrimaryOutward_frame hP _) fun _ _ => ?_
  refine Yields.bind (setPrimaryOutward_frame hP _) fun _ _ => ?_
  exact (hflush _ _ _).bind fun _ _ => (hflush _ _ _).bind fun _ _ =>
    (hflush _ _ _).bind fun _ _ => hflush _ _ _

theorem maybeStartBridgeBypass_frame :
    Yields (P i) (maybeStartBridgeBypass info flush rid) fun _ => True := by
  unfold maybeStartBridgeBypass
  refine Yields.bind yields_get fun s _ => ?_
  rcases s.bridgePair rid with - | ⟨second, first, secondLink⟩
  · exact yields_pure trivial
  · refine Yields.bind (hP.ofQuiet (lockBridge_quiet _ _)) fun locked _ => ?_
    split_ifs
    · unfold bypassBridge
      split
      · exact bypassRemotePeers_frame hP _ _ _
      · exact bypassFromLocalPeer_frame hP hflush _
      · exact bypassFromLocalPeer_frame hP hflush _
      · exact bypassLocalPeers_frame hP hflush _ _ _
    · exact yields_pure trivial

end Flush

/-! ### Transfer of a portal -/

/-- No proxy. -/
def RouteTables.Terminal (s : RouteTables) (rid : Nat) : Prop :=
  ∀ r, s.routers rid = some r → r.inward = none

/-- A step that leaves the routers as they are leaves a router terminal. -/
theorem yields_terminal {α : Type} {x : RouteM α} (h : Maintains Quiet x) :
    Yields (fun s => P i s ∧ s.Terminal rid) x fun _ => True :=
  h.yields fun _ _ hq hs => ⟨hP.quiet hs.1 hq, fun r hr => hs.2 r (hq.routers ▸ hr)⟩

/-- A terminal router with a local peer becomes a proxy, or there is no block for
a link state and it stays terminal. -/
theorem serializeRouterWithLocalPeer_frame (localPeer linkId : Nat) {s : RouteTables}
    (hs : P i s ∧ s.Terminal rid) :
    P i (endState ((serializeRouterWithLocalPeer info rid localPeer linkId).run s)) ∧
      ∀ d s', (serializeRouterWithLocalPeer info rid localPeer linkId).run s = .ok d s' →
        d = none → s'.Terminal rid := by
  have quiet : ∀ {α : Type} {x : RouteM α}, Maintains Quiet x →
      Yields (fun s => P i s ∧ s.Terminal rid) x fun _ => True := yields_terminal hP
  unfold serializeRouterWithLocalPeer
  refine (quiet (tryAllocateLinkState_quiet _)).before (fun _ h => h.1) (fun block s hs _ => ?_) hs
  cases block with
  -- no block for the link state: capacity is requested, and the router stays terminal
  | none =>
      have hrequest : Yields (P i) (do
          requestBlockCapacity info routerLinkStateSize linkId
          return none : RouteM (Option RouterDescriptor)) fun _ => True :=
        (requestBlockCapacity_frame hP _ _).bind fun _ _ => yields_pure trivial
      refine ⟨(hrequest s hs.1).1, fun d s' hrun _ => ?_⟩
      obtain ⟨⟨⟩, s₁, h₁, k₁⟩ := bind_eq_ok.mp hrun
      obtain ⟨-, rfl⟩ := pure_eq_ok.mp k₁
      have hsame := ((requestBlockCapacity_sameStatus _ _).ok h₁).routers
      exact fun r hr => hs.2 r (hsame ▸ hr)
  -- the local peer gives its link up before this router becomes a proxy
  | some newLinkState =>
      refine (quiet (addLinkStateRef_quiet _ _)).before (fun _ h => h.1) (fun _ s hs _ => ?_) hs
      refine FlushSteps.runRouter hs.1 fun peer hpeer => ?_
      dsimp only
      split_ifs
      · exact ⟨hs.1, nofun⟩
      rw [run_bind_of_ok (putRouter_run _ _ _)]
      -- the router itself has no inward edge yet, whichever of the two it is
      have hset : P i (s.setRouter localPeer { peer with
            outward := peer.outward.releasePrimaryLink }) ∧
          (s.setRouter localPeer { peer with
            outward := peer.outward.releasePrimaryLink }).Terminal rid := by
        refine ⟨hP.rewire hs.1 hpeer (.outward _ _), fun r hr => ?_⟩
        by_cases hself : rid = localPeer
        · subst hself
          rw [RouteTables.setRouter_routers_self] at hr
          rw [← Option.some.inj hr]
          exact hs.2 peer hpeer
        · rw [RouteTables.setRouter_routers_ne _ _ hself] at hr
          exact hs.2 r hr
      refine (quiet (allocateSublinkIds_quiet _ _)).before (fun _ h => h.1)
        (fun sublink s hs _ => ?_) hset
      refine (quiet (insertOwner_quiet _ _ _)).before (fun _ h => h.1) (fun _ s hs _ => ?_) hs
      refine (quiet (insertOwner_quiet _ _ _)).before (fun _ h => h.1) (fun _ s hs _ => ?_) hs
      refine FlushSteps.runRouter hs.1 fun router hrouter => ?_
      refine ⟨hP.becomeProxy linkId router.outward hs.1 hrouter (hs.2 router hrouter) rfl rfl, ?_⟩
      intro d s' hrun hd
      obtain ⟨⟨⟩, s₁, -, k₁⟩ := bind_eq_ok.mp hrun
      obtain ⟨hval, -⟩ := pure_eq_ok.mp k₁
      rw [hd] at hval
      cases hval

omit hP in
/-- Only the edges of a router change when it becomes a proxy. -/
theorem serializeAsProxy_edges (r : Router) (newSublink : Nat) (initiate : Bool)
    (name : NodeName) : ∃ inward outward : Edge, inward.links = [] ∧
      (r.serializeAsProxy newSublink initiate name).1 =
        { r with inward := some inward, outward } ∧
      (r.serializeAsProxy newSublink initiate name).2.nextIncomingSequenceNumber =
        r.inbound.current := by
  unfold Router.serializeAsProxy
  dsimp only
  split_ifs
  · exact ⟨_, _, rfl, rfl, rfl⟩
  · split
    · split_ifs <;> exact ⟨_, _, rfl, rfl, rfl⟩
    · exact ⟨_, _, rfl, rfl, rfl⟩

/-- What serializing a router returns is about this router. -/
theorem serializeRouterAsProxy_frame (linkId : Nat) (primary : Link) (locked : Bool)
    {s : RouteTables} (hs : P i s ∧ s.Terminal rid) :
    P i (endState ((serializeRouterAsProxy info rid linkId primary locked).run s)) ∧
      ∀ x s', (serializeRouterAsProxy info rid linkId primary locked).run s = .ok x s' →
        x.1 = rid := by
  have quiet : ∀ {α : Type} {x : RouteM α}, Maintains Quiet x →
      Yields (fun s => P i s ∧ s.Terminal rid) x fun _ => True := yields_terminal hP
  unfold serializeRouterAsProxy
  refine (quiet (peerNodeOf_quiet _)).before (fun _ h => h.1) (fun name s hs _ => ?_) hs
  refine (quiet (allocateSublinkIds_quiet _ _)).before (fun _ h => h.1)
    (fun sublink s hs _ => ?_) hs
  refine FlushSteps.runRouter hs.1 fun router hrouter => ?_
  obtain ⟨inward, outward, hlinks, hproxy, hnext⟩ :=
    serializeAsProxy_edges router sublink locked name
  dsimp only
  rw [hproxy, run_bind_of_ok (show (putProxy rid linkId { router with
    inward := some inward, outward } (router.serializeAsProxy sublink locked name).2).run s =
    .ok ⟨⟩ _ from rfl)]
  have hput := hP.becomeProxy linkId outward hs.1 hrouter (hs.2 router hrouter) hlinks hnext
  have hrest : Yields (P i) (do
      insertOwner linkId sublink rid
      pure (rid, (router.serializeAsProxy sublink locked name).2) : RouteM _)
      fun x => x.1 = rid :=
    (hP.ofQuiet (insertOwner_quiet _ _ _)).bind fun _ _ => yields_pure rfl
  exact hrest _ hput

theorem serializeRouter_frame (linkId : Nat) :
    Yields (P i) (serializeRouter info rid linkId) fun x => x.1 = rid := by
  intro s hs
  have quiet : ∀ {α : Type} {x : RouteM α}, Maintains Quiet x →
      Yields (fun s => P i s ∧ s.Terminal rid) x fun _ => True := yields_terminal hP
  unfold serializeRouter
  refine FlushSteps.runRouter hs fun router hrouter => ?_
  dsimp only
  split_ifs with hinward
  · exact ⟨hs, nofun⟩
  -- the router is terminal, and stays so until it is serialized
  have hterminal : s.Terminal rid := by
    intro r hr
    rw [← Option.some.inj (hrouter.symm.trans hr)]
    simpa using hinward
  cases router.outward.primary with
  | none => exact ⟨hs, nofun⟩
  | some primary =>
      refine (quiet (remoteNameFor_keeps linkId)).before (fun _ h => h.1)
        (fun source s hs _ => ?_) ⟨hs, hterminal⟩
      refine (quiet (tryLockLinkForBypass_quiet _ _)).before (fun _ h => h.1)
        (fun locked s hs _ => ?_) hs
      split
      · next localPeer _ =>
          obtain ⟨hend, hnone⟩ := serializeRouterWithLocalPeer_frame hP localPeer linkId hs
          rw [EStateM.run_bind]
          split
          · next d s₁ hrun =>
              rw [hrun] at hend
              cases d with
              | some d =>
                  refine ⟨hend, fun x s' hx => ?_⟩
                  obtain ⟨rfl, -⟩ := pure_eq_ok.mp hx
                  rfl
              | none =>
                  refine (quiet (unlockLinkForBypass_quiet _)).before (fun _ h => h.1)
                    (fun _ s hs _ => ?_) ⟨hend, hnone _ _ hrun rfl⟩
                  exact serializeRouterAsProxy_frame hP _ _ _ hs
          · next err s₁ hrun =>
              rw [hrun] at hend
              exact ⟨hend, nofun⟩
      · exact serializeRouterAsProxy_frame hP _ _ _ hs

/-- The objects of a parcel are serialized in their order. -/
theorem serializeObjects_frame (linkId : Nat) (objects : List Object) :
    Yields (P i) (serializeObjects info linkId objects) fun x =>
      x.2.map (fun y => .router y.1) = objects ∧
        x.1 = x.2.map fun _ => handleTypePortal := by
  induction objects with
  | nil => exact yields_pure ⟨rfl, rfl⟩
  | cons o objects ih =>
      cases o with
      | fd fd => exact yields_throw _
      | router rid =>
          unfold serializeObjects
          refine Yields.bind (serializeRouter_frame hP linkId) fun d hd => ?_
          refine Yields.bind (yields_modify fun s hs => hP.log linkId d hs) fun _ _ => ?_
          refine Yields.bind ih ?_
          rintro ⟨handleTypes, serialized⟩ ⟨hobjects, htypes⟩
          apply yields_pure
          simp only at hobjects htypes
          simp [hd, hobjects, htypes]

omit hP in
/-- What was noted stays noted. -/
theorem serialized_frame (linkId : Nat) (d : Nat × RouterDescriptor) :
    FlushFrame (fun s => d ∈ s.serializedFor linkId) fun _ => True where
  holds _ _ := .any _
  quiet h hq := by
    rw [serializedFor, hq.serialized]
    exact h
  setRouter _ _ h _ := h
  dropRouter _ h := h
  note _ _ h := h
  send _ _ _ h _ := h
  log l d' h := by
    rw [serializedFor, logSerialized, List.filter_append, List.map_append]
    exact List.mem_append_left _ h

omit hP in
/-- Each descriptor is one that its router was serialized into. -/
theorem serializeObjects_logged {linkId : Nat} {objects : List Object} {s s' : RouteTables}
    {handleTypes : List UInt32} {serialized : List (Nat × RouterDescriptor)}
    (h : (serializeObjects info linkId objects).run s = .ok (handleTypes, serialized) s') :
    ∀ d ∈ serialized, d ∈ s'.serializedFor linkId := by
  induction objects generalizing s handleTypes serialized with
  | nil =>
      cases h
      exact nofun
  | cons o objects ih =>
      cases o with
      | fd fd => cases h
      | router rid =>
          obtain ⟨d, s₁, -, h⟩ := bind_eq_ok.mp h
          rw [run_bind_of_ok (run_modify _ _)] at h
          obtain ⟨⟨types, rest⟩, s₂, hrest, h⟩ := bind_eq_ok.mp h
          cases h
          have hd : d ∈ (s₁.logSerialized linkId d).serializedFor linkId := by
            rw [serializedFor, logSerialized, List.filter_append, List.map_append]
            exact List.mem_append_right _ (by simp)
          have hkept := (serializeObjects_frame (i := ()) (serialized_frame linkId d).steps linkId
            objects).ok hd hrest
          exact List.forall_mem_cons.mpr ⟨hkept, ih hrest⟩

omit hP in
/-- What a history tells is not forgotten. -/
theorem noted_frame (rid : Nat) (e : ParcelEvent) :
    FlushFrame (fun s : RouteTables => e ∈ s.history rid) fun _ => True where
  holds _ _ := .any _
  quiet h hq := by
    rw [hq.history]
    exact h
  setRouter _ _ h _ := h
  note rid' e' h := mem_history_note rid' e' h
  dropRouter rid' h := mem_history_dropRouter rid' h
  send _ _ _ h _ := h
  log _ _ h := h

omit hP in
/-- What is noted when a router is serialized. -/
theorem putProxy_noted (rid linkId : Nat) (r : Router) (d : RouterDescriptor) (s : RouteTables) :
    ∃ s', (putProxy rid linkId r d).run s = .ok ⟨⟩ s' ∧ s'.NotedFor linkId rid d := by
  refine ⟨_, rfl, r.unread, ?_⟩
  rw [note_history_self]
  exact List.mem_append_right _ List.mem_cons_self

omit hP in
theorem serializeRouterAsProxy_noted {linkId : Nat} {primary : Link} {locked : Bool}
    {s s' : RouteTables} {x : Nat × RouterDescriptor}
    (h : (serializeRouterAsProxy info rid linkId primary locked).run s = .ok x s') :
    s'.NotedFor linkId x.1 x.2 := by
  obtain ⟨name, s₁, -, k₁⟩ := bind_eq_ok.mp h
  obtain ⟨newSublink, s₂, -, k₂⟩ := bind_eq_ok.mp k₁
  obtain ⟨r, s₃, -, k₃⟩ := bind_eq_ok.mp k₂
  dsimp only at k₃
  obtain ⟨⟨⟩, s₄, h₄, k₄⟩ := bind_eq_ok.mp k₃
  obtain ⟨⟨⟩, s₅, h₅, k₅⟩ := bind_eq_ok.mp k₄
  obtain ⟨rfl, rfl⟩ := pure_eq_ok.mp k₅
  obtain ⟨s₆, h₆, unread, hmem⟩ := putProxy_noted rid linkId
    (r.serializeAsProxy newSublink locked name).1 (r.serializeAsProxy newSublink locked name).2 s₃
  obtain ⟨-, rfl⟩ := EStateM.Result.ok.inj (h₆.symm.trans h₄)
  have hsame := ((insertOwner_quiet linkId newSublink rid).ok h₅).history
  exact ⟨unread, by rw [hsame]; exact hmem⟩

omit hP in
theorem serializeRouterWithLocalPeer_noted {localPeer linkId : Nat} {s s' : RouteTables}
    {d : RouterDescriptor}
    (h : (serializeRouterWithLocalPeer info rid localPeer linkId).run s = .ok (some d) s') :
    s'.NotedFor linkId rid d := by
  obtain ⟨block, s₁, -, k₁⟩ := bind_eq_ok.mp h
  cases block with
  | none =>
      obtain ⟨⟨⟩, s₂, -, k₂⟩ := bind_eq_ok.mp k₁
      obtain ⟨hnone, -⟩ := pure_eq_ok.mp k₂
      cases hnone
  | some newLinkState =>
      obtain ⟨⟨⟩, s₂, -, k₂⟩ := bind_eq_ok.mp k₁
      obtain ⟨peer, s₃, -, k₃⟩ := bind_eq_ok.mp k₂
      dsimp only at k₃
      split at k₃
      · cases k₃
      obtain ⟨⟨⟩, s₄, -, k₄⟩ := bind_eq_ok.mp k₃
      obtain ⟨newSublink, s₅, -, k₅⟩ := bind_eq_ok.mp k₄
      obtain ⟨⟨⟩, s₆, -, k₆⟩ := bind_eq_ok.mp k₅
      obtain ⟨⟨⟩, s₇, -, k₇⟩ := bind_eq_ok.mp k₆
      obtain ⟨r, s₈, -, k₈⟩ := bind_eq_ok.mp k₇
      obtain ⟨⟨⟩, s₉, h₉, k₉⟩ := bind_eq_ok.mp k₈
      obtain ⟨hd, rfl⟩ := pure_eq_ok.mp k₉
      obtain rfl := Option.some.inj hd
      obtain ⟨s', h', hnoted⟩ := putProxy_noted rid linkId _ _ s₈
      obtain ⟨-, rfl⟩ := EStateM.Result.ok.inj (h'.symm.trans h₉)
      exact hnoted

omit hP in
/-- Either way of sending a portal notes it. -/
theorem serializeRouter_noted {linkId : Nat} {s s' : RouteTables} {x : Nat × RouterDescriptor}
    (h : (serializeRouter info rid linkId).run s = .ok x s') : s'.NotedFor linkId x.1 x.2 := by
  obtain ⟨r, s₁, -, k₁⟩ := bind_eq_ok.mp h
  dsimp only at k₁
  split at k₁
  · cases k₁
  split at k₁
  · obtain ⟨source, s₂, -, k₂⟩ := bind_eq_ok.mp k₁
    obtain ⟨locked, s₃, -, k₃⟩ := bind_eq_ok.mp k₂
    split at k₃
    · obtain ⟨result, s₄, h₄, k₄⟩ := bind_eq_ok.mp k₃
      cases result with
      | some d =>
          obtain ⟨rfl, rfl⟩ := pure_eq_ok.mp k₄
          exact serializeRouterWithLocalPeer_noted h₄
      | none =>
          obtain ⟨⟨⟩, s₅, -, k₅⟩ := bind_eq_ok.mp k₄
          exact serializeRouterAsProxy_noted k₅
    · exact serializeRouterAsProxy_noted k₃
  · cases k₁

omit hP in
/-- All portals of a parcel are noted. -/
theorem serializeObjects_noted {linkId : Nat} {objects : List Object} {s s' : RouteTables}
    {handleTypes : List UInt32} {serialized : List (Nat × RouterDescriptor)}
    (h : (serializeObjects info linkId objects).run s = .ok (handleTypes, serialized) s') :
    ∀ x ∈ serialized, s'.NotedFor linkId x.1 x.2 := by
  induction objects generalizing s handleTypes serialized with
  | nil =>
      cases h
      exact nofun
  | cons o objects ih =>
      cases o with
      | fd fd => cases h
      | router rid =>
          obtain ⟨d, s₁, hd, h⟩ := bind_eq_ok.mp h
          rw [run_bind_of_ok (run_modify _ _)] at h
          obtain ⟨⟨types, rest⟩, s₂, hrest, h⟩ := bind_eq_ok.mp h
          cases h
          obtain ⟨unread, hmem⟩ := serializeRouter_noted hd
          have hkept := (serializeObjects_frame (i := ()) (noted_frame d.1 _).steps linkId
            objects).ok (s := s₁.logSerialized linkId d) hmem hrest
          exact List.forall_mem_cons.mpr ⟨⟨unread, hkept⟩, ih hrest⟩

section Flush

variable {flush : Nat → Bool → RouteM Unit}
  (hflush : ∀ i rid force, Yields (P i) (flush rid force) fun _ => True)
include hflush

theorem beginProxyingBypassed_frame {d : RouterDescriptor} {linkId : Nat} {s : RouteTables}
    (hs : P i s) (hnoted : s.NotedFor linkId rid d) :
    P i (endState ((beginProxyingBypassed info flush rid d linkId).run s)) := by
  unfold beginProxyingBypassed
  refine FlushSteps.readRouter hs fun router hr => ?_
  rw [run_bind_of_ok (putRouter_run _ _ _)]
  have hs := hP.rewire hs hr (.outward router router.outward.releasePrimaryLink)
  cases router.outward.getLocalPeer with
  | none => exact hs
  | some localPeer =>
      have hrest : Yields (P i) (do
          setOutwardLink info localPeer
            (.remote linkId d.newSublink .central .a (some d.newLinkStateFragment))
          flush rid true
          flush localPeer true) fun _ => True :=
        (setOutwardLink_frame hP _).bind fun _ _ => (hflush _ _ _).bind fun _ _ => hflush _ _ _
      refine FlushSteps.readRouter hs fun router hr => ?_
      dsimp only
      split_ifs
      · cases hinward : router.inward with
        | none => exact hs
        | some inward =>
            dsimp only
            rw [run_bind_of_ok (putRouter_run _ _ _)]
            exact (hrest _ (hP.proxyLink hs hr hinward hnoted (.inr rfl))).1
      · exact (hrest _ hs).1

theorem beginProxying_frame {d : RouterDescriptor} {linkId : Nat} {s : RouteTables} (hs : P i s)
    (hnoted : s.NotedFor linkId rid d) :
    P i (endState ((beginProxying info flush rid d linkId).run s)) := by
  unfold beginProxying
  split_ifs
  · exact beginProxyingBypassed_frame hP hflush hs hnoted
  refine FlushSteps.readRouter hs fun router hr => ?_
  cases hinward : router.inward with
  | none => exact hs
  | some inward =>
      dsimp only
      generalize hlive : (router.outbound.finalLength.isNone && !router.disconnected) = live
      rw [run_bind_of_ok (putRouter_run _ _ _)]
      have hput : P i (s.setRouter rid { router with
          inward := some
            (if live then inward.setPrimaryLink (.remote linkId d.newSublink .peripheralInward .a none)
            else inward) }) := by
        cases live with
        | true => exact hP.proxyLink hs hr hinward hnoted (.inl rfl)
        | false => exact hP.rewire hs hr (.inwardEdge hinward fun _ hl => hl)
      refine (Yields.bind (W := fun _ => True) (hP.ofQuiet (markProxyStable_quiet _ _))
        (fun _ _ => ?_) _ hput).1
      cases live with
      | true => exact hflush _ _ _
      | false => exact yields_pure trivial

/-- Delivery of a parcel to a local peer. -/
theorem deliverLocal_frame (peer : Nat) (kind : LinkKind) {parcel : Parcel} (hp : parcel.In C) :
    Yields (P i) (do
      match ((← get).routers peer).bind (·.acceptLocal kind parcel) with
      | none => throw (.badParcel "local delivery sequence gap")
      | some r => putAccepted peer r kind.isCentral parcel
      flush peer false : RouteM Unit) fun _ => True := by
  intro s hs
  refine ⟨?_, fun _ _ _ => trivial⟩
  rw [run_get_bind]
  cases hr : (s.routers peer).bind (·.acceptLocal kind parcel) with
  | none => exact hs
  | some r =>
      obtain ⟨router, hrouter, haccept⟩ := Option.bind_eq_some_iff.mp hr
      exact (hflush i peer false _ (hP.putAccepted hs hrouter hp haccept)).1

variable (hnotes : ∀ rid' (e : ParcelEvent) rid force,
  Yields (fun s : RouteTables => e ∈ s.history rid') (flush rid force) fun _ => True)
include hnotes

/-- The proxies that a parcel leaves behind, each noted when its router was
serialized. -/
theorem beginProxies_frame (linkId : Nat) (serialized : List (Nat × RouterDescriptor))
    {s : RouteTables} (hs : P i s) (hnoted : ∀ x ∈ serialized, s.NotedFor linkId x.1 x.2) :
    P i (endState ((serialized.forM fun (rid, d) =>
      beginProxying info flush rid d linkId).run s)) := by
  induction serialized generalizing s with
  | nil => exact hs
  | cons x serialized ih =>
      show P i (endState ((beginProxying info flush x.1 x.2 linkId >>= fun _ =>
        serialized.forM fun (rid, d) => beginProxying info flush rid d linkId).run s))
      rw [EStateM.run_bind]
      have hhead := hnoted x List.mem_cons_self
      have hend : P i (endState ((beginProxying info flush x.1 x.2 linkId).run s)) :=
        beginProxying_frame hP hflush hs hhead
      have hkept (e : ParcelEvent) (rid : Nat) (h : e ∈ s.history rid) :
          e ∈ (endState ((beginProxying info flush x.1 x.2 linkId).run s)).history rid :=
        beginProxying_frame (i := ()) (noted_frame rid e).steps (fun _ => hnotes rid e) h hhead
      split
      · next hrun =>
          rw [hrun] at hend hkept
          refine ih hend fun y hy => ?_
          obtain ⟨unread, hmem⟩ := hnoted y (List.mem_cons_of_mem _ hy)
          exact ⟨unread, hkept _ _ hmem⟩
      · next hrun =>
          rw [hrun] at hend
          exact hend

theorem transmitParcel_frame (l : Link) {parcel : Parcel} (hp : parcel.In C) :
    Yields (P i) (transmitParcel info flush l parcel) fun _ => True := by
  unfold transmitParcel
  cases l.localPeer with
  | some peer =>
      dsimp only
      split
      · exact yields_throw _
      · exact yields_throw _
      · exact deliverLocal_frame hP hflush peer l.kind hp
      · exact deliverLocal_frame hP hflush peer l.kind hp
  | none =>
      refine Yields.bind_ran (serializeObjects_frame hP _ _) ?_
      rintro ⟨handleTypes, serialized⟩ s s' hs' ⟨hobjects, htypes⟩ hrun
      obtain rfl : handleTypes = serialized.map fun _ => handleTypePortal := htypes
      -- it is here that the descriptors are known to be noted
      have hsent := @sendLinkMessageOn_end (P i) info s' l.linkId
        (.acceptParcel (encodeParcel l.sublink parcel (serialized.map fun _ => handleTypePortal)
          (serialized.map (·.2)))) [] hs'
        (hP.send l.linkId [] hs' ⟨parcel, serialized, hp, hobjects.symm,
          serializeObjects_logged hrun, rfl⟩)
      have hnoted := serializeObjects_noted hrun
      dsimp only
      rw [EStateM.run_bind]
      split
      · next h =>
        rw [h] at hsent
        refine ⟨beginProxies_frame hP hflush hnotes l.linkId serialized hsent fun x hx => ?_,
          fun _ _ _ => trivial⟩
        obtain ⟨unread, hmem⟩ := hnoted x hx
        have hkept := @sendLinkMessageOn_end (fun s => .serialized l.linkId x.2 unread ∈
          s.history x.1) info s' l.linkId (.acceptParcel (encodeParcel l.sublink parcel
            (serialized.map fun _ => handleTypePortal) (serialized.map (·.2)))) [] hmem hmem
        rw [h] at hkept
        exact ⟨unread, hkept⟩
      · next h =>
        rw [h] at hsent
        exact ⟨hsent, nofun⟩

/-! ### Flush -/

theorem flushParcels_frame : Yields (P i) (flushParcels info flush rid) fun _ => True :=
  hP.parcels rid hflush fun _ l _ hp => transmitParcel_frame hP hflush hnotes l hp

omit hflush hnotes in
theorem flushDecays_frame : Yields (P i) (flushDecays info rid) fun _ => True := by
  intro s hs
  unfold flushDecays
  refine FlushSteps.runRouter hs fun r hr => ⟨?_, fun _ _ _ => trivial⟩
  have hrewired := Router.Rewired.finishDecays r
  generalize r.finishBridgeDecay.finishDecays = x at hrewired ⊢
  obtain ⟨⟨outLink, outDecayed⟩, ⟨inLink, inDecayed⟩, r'⟩ := x
  dsimp only at hrewired ⊢
  refine hP.putRewired hs hr hrewired fun s hs _ => ?_
  have hrelease : ∀ ls : List Link, Yields (P i) (ls.forM (releaseLinkState info)) fun _ => True :=
    fun ls => yields_forM fun l _ => hP.ofQuiet (releaseLinkState_quiet l)
  have hrest : Yields (P i) (do
      outLink.toList.forM (releaseLinkState info)
      inLink.toList.forM (releaseLinkState info)
      pure (outDecayed, inDecayed) : RouteM (Bool × Bool)) fun _ => True :=
    (hrelease _).bind fun _ _ => (hrelease _).bind fun _ _ => yields_pure trivial
  exact (hrest s hs).1

omit hflush hnotes in
theorem flushDelivery_frame : Yields (P i) (flushDelivery info rid) fun _ => True := by
  intro s hs
  unfold flushDelivery
  refine FlushSteps.runRouter hs fun r hr => ⟨?_, fun _ _ _ => trivial⟩
  split_ifs with hdeliver
  · rw [Bool.and_eq_true] at hdeliver
    exact hP.deliver hs hr (Option.isNone_iff_eq_none.mp hdeliver.2)
  · exact hs

omit hflush hnotes in
theorem flushStability_frame (start : FlushStart) (outDecayed inDecayed : Bool) :
    Yields (P i) (flushStability info rid start outDecayed inDecayed) fun _ => True := by
  unfold flushStability
  refine Yields.bind (hP.getRouter _) fun r _ => ?_
  dsimp only
  split_ifs
  · split
    · exact (hP.ofQuiet (markSideStableOnLink_quiet _)).bind fun _ _ => yields_pure trivial
    · exact yields_pure trivial
  · exact yields_pure trivial

omit hflush hnotes in
theorem flushClosures_frame (start : FlushStart) :
    Yields (P i) (flushClosures info rid start) fun _ => True := by
  intro s hs
  unfold flushClosures
  refine FlushSteps.runRouter hs fun r hr => ⟨?_, fun _ _ _ => trivial⟩
  have hrewired := Router.Rewired.closures r start.onCentral
  generalize r.closures start.onCentral = x at hrewired ⊢
  obtain ⟨tryLock, forwardClosed, deadOutward, r'⟩ := x
  dsimp only at hrewired ⊢
  refine hP.putRewired hs hr hrewired fun s hs _ => ?_
  cases tryLock with
  | none => exact hs
  | some x =>
      have hlock : Yields (P i) (do
          if ← tryLockLinkForClosure info x.1 then
            let r ← getRouter rid "flush for unknown router"
            putRouter rid { r with outward := r.outward.releasePrimaryLink }
            pure (some (x.1, x.2), forwardClosed, true)
          else pure (none, forwardClosed, deadOutward) :
          RouteM (Option (Link × Nat) × Option (Link × Nat) × Bool)) fun _ => True := by
        refine Yields.bind (hP.ofQuiet (tryLockLinkForClosure_quiet _)) fun locked _ => ?_
        split_ifs
        · exact fun s hs => FlushSteps.runRouter hs fun r hr =>
            ⟨hP.putRewired hs hr (.outward _ _) fun s hs _ => hs, fun _ _ _ => trivial⟩
        · exact yields_pure trivial
      exact (hlock s hs).1

omit hnotes in
theorem flushBridge_frame (start : FlushStart) (outDecayed inDecayed : Bool) :
    Yields (P i) (flushBridge info flush rid start outDecayed inDecayed) fun _ => True := by
  unfold flushBridge
  refine Yields.bind (hP.getRouter _) fun r _ => ?_
  dsimp only
  split_ifs
  · exact maybeStartBridgeBypass_frame hP hflush
  · exact yields_pure trivial

omit hnotes in
theorem flushTail_frame (force : Bool) (start : FlushStart) (deadOutward dropped : Bool) :
    Yields (P i) (flushTail info flush rid force start deadOutward dropped)
      fun _ => True := by
  unfold flushTail
  split_ifs
  · refine Yields.bind yields_get fun s _ => ?_
    cases (s.routers rid).bind (·.outward.primary) with
    | none => exact yields_pure trivial
    | some l => exact flushOtherSideIfWaiting_frame hP hflush l
  · exact yields_pure trivial

omit hnotes in
/-- What a flush does once its parcels are transmitted. -/
theorem flushRest_frame (force : Bool) (start : FlushStart) :
    Yields (P i) (do
      let (outDecayed, inDecayed) ← flushDecays info rid
      if ← flushDelivery info rid then removeRouter info rid
      else
        let dropped ← flushStability info rid start outDecayed inDecayed
        let (routeClosed, forwardClosed, deadOutward) ← flushClosures info rid start
        flushBridge info flush rid start outDecayed inDecayed
        routeClosed.toList.forM fun (link, len) => deliverRouteClosed info flush link len
        forwardClosed.toList.forM fun (link, len) => deliverRouteClosed info flush link len
        flushTail info flush rid force start deadOutward dropped : RouteM Unit) fun _ => True := by
  refine Yields.bind (flushDecays_frame hP) ?_
  rintro ⟨outDecayed, inDecayed⟩ _
  refine Yields.bind (flushDelivery_frame hP) fun gone _ => ?_
  split_ifs
  · exact removeRouter_frame hP
  refine Yields.bind (flushStability_frame hP _ _ _) fun dropped _ => ?_
  refine Yields.bind (flushClosures_frame hP _) ?_
  rintro ⟨routeClosed, forwardClosed, deadOutward⟩ _
  refine Yields.bind (flushBridge_frame hP hflush _ _ _) fun _ _ => ?_
  refine Yields.bind (yields_forM fun x _ => deliverRouteClosed_frame hP hflush _ _) fun _ _ => ?_
  refine Yields.bind (yields_forM fun x _ => deliverRouteClosed_frame hP hflush _ _) fun _ _ => ?_
  exact flushTail_frame hP hflush _ _ _ _

theorem routerFlushWith_frame (force : Bool) :
    Yields (P i) (routerFlushWith info flush rid force) fun _ => True := by
  have hstart : Yields (P i) (flushStart rid) fun _ => True :=
    Yields.bind (hP.getRouter _) fun _ _ => yields_pure trivial
  unfold routerFlushWith
  refine Yields.bind hstart fun start _ => ?_
  exact (flushParcels_frame hP hflush hnotes).bind fun _ _ => flushRest_frame hP hflush force start

end Flush

omit hP in
/-- No flush forgets a history. -/
theorem routerFlush_notes (depth rid' : Nat) (e : ParcelEvent) (rid : Nat) (force : Bool) :
    Yields (fun s => e ∈ s.history rid') (routerFlush info depth rid force) fun _ => True := by
  induction depth generalizing rid' e rid force with
  | zero => exact yields_throw _
  | succ depth ih =>
      exact routerFlushWith_frame (i := ()) (noted_frame rid' e).steps (fun _ => ih rid' e) ih force

/-- A flush, with all that it sets off, keeps what its changes keep. -/
theorem routerFlush_frame (depth : Nat) (force : Bool) :
    Yields (P i) (routerFlush info depth rid force) fun _ => True := by
  induction depth generalizing i rid force with
  | zero => exact yields_throw _
  | succ depth ih =>
      exact routerFlushWith_frame hP (fun _ _ force => ih force) (routerFlush_notes depth) force

omit hP

theorem FlushFrame.routerFlush {P : RouteTables → Prop} (hP : FlushFrame P C) (depth : Nat)
    (force : Bool) : Yields P (routerFlush info depth rid force) fun _ => True :=
  routerFlush_frame (i := ()) hP.steps depth force

/-! ### Contents -/

/-- No flush makes parcels of its own. -/
theorem carries_frame (C : Contents) : FlushFrame (Carries C) C where
  note _ _ hs := ⟨hs.routers, hs.sent⟩
  holds hs hr := hs.routers _ _ hr
  quiet hs h := by
    refine ⟨by rw [h.routers]; exact hs.routers, fun l => ?_⟩
    rw [h.channels, serializedFor, h.serialized]
    exact hs.sent l
  setRouter := by
    intro s rid r hs hr
    refine ⟨fun rid' r' hr' => ?_, hs.sent⟩
    by_cases hrid : rid' = rid
    · subst hrid
      have heq : r = r' := by simpa [RouteTables.setRouter] using hr'
      exact heq ▸ hr
    · exact hs.routers rid' r' (by simpa [RouteTables.setRouter, hrid] using hr')
  dropRouter := by
    intro s rid hs
    refine ⟨fun rid' r' hr' => ?_, hs.sent⟩
    by_cases hrid : rid' = rid
    · simp [RouteTables.dropRouter, hrid] at hr'
    · exact hs.routers rid' r' (by simpa [RouteTables.dropRouter, hrid] using hr')
  send := by
    intro s linkId msg fds hs hmsg
    refine ⟨hs.routers, fun l entry hentry m hm => ?_⟩
    by_cases hl : l = linkId
    · subst hl
      simp only [RouteTables.setChannel, Function.update_self, LinkChannel.send] at hentry
      split_ifs at hentry
      · exact hs.sent l entry hentry m hm
      · rcases List.mem_append.mp hentry with hentry | hentry
        · exact hs.sent l entry hentry m hm
        · rw [List.mem_singleton.mp hentry] at hm
          obtain rfl : msg = .acceptParcel m := hm
          exact hmsg
    · exact hs.sent l entry (by simpa [RouteTables.setChannel, hl] using hentry) m hm
  log linkId d hs := by
    refine ⟨hs.routers, fun l entry hentry m hm => (hs.sent l entry hentry m hm).mono fun x hx => ?_⟩
    rw [serializedFor, logSerialized, List.filter_append, List.map_append]
    exact List.mem_append_left _ hx

end MojoRs.Ipcz
