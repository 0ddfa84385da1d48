/-
MojoRs/Ipcz/DispatchFrames.lean

The walk through a pass over a parcel (`process_accept_parcel`), taken once for
every relation between states of the node that the pass may be asked to keep.
`Framed R linkId` lists the changes that a pass makes by itself: the flush of a
router, a bypass, a parcel taken by a router, changes to the early parcels and
the descriptors held, the deferral of a parcel whose buffer is not known, and
the adoption of a new router; what keeps `R` there keeps it throughout.

Main result: `processAcceptParcel_keeps`.
-/
import MojoRs.Ipcz.Dispatch
import MojoRs.Ipcz.FlushFrames

namespace MojoRs.Ipcz

open Lib

variable {R : RoutingAcceptor → RoutingAcceptor → Prop}

/-- The changes of a pass over a parcel of link `linkId` keep `R`. -/
structure Framed (R : RoutingAcceptor → RoutingAcceptor → Prop) (linkId : Nat) : Prop where
  flush : ∀ depth rid force, Maintains R (inTables fun info => routerFlush info depth rid force)
  bypass : ∀ depth rid name sublink, Maintains R (inTables fun info =>
    routerBypassPeer info (routerFlush info depth) rid linkId name sublink)
  accept : ∀ rid p payload objects,
    Maintains R (inTables fun _ => acceptAt rid linkId p payload objects)
  queues : ∀ s early held, R s { s with earlyParcels := early, heldDriverFds := held }
  adopt : ∀ d, Maintains R (adoptRouter d linkId)
  defer : ∀ s p fds, parcelData s.info s.tables.memories p linkId =
    .error (.memory .unknownBuffer) →
      R s (s.deferParcel (linkId, p.parcelFragment.bufferId) (p, fds, linkId))

/-! ### The tables -/

theorem inTables_keeps {α : Type} (h : ∀ s t, R s { s with tables := t })
    (f : NodeInfo → RouteM α) : Maintains R (inTables f) := by
  intro s
  unfold inTables EStateM.run
  dsimp only
  cases f s.info s.tables with
  | ok a t => exact h s t
  | error e t => exact h s t

/-- The tables may change in any way. -/
theorem Framed.ofTables {linkId : Nat} (tables : ∀ s t, R s { s with tables := t })
    (queues : ∀ s early held, R s { s with earlyParcels := early, heldDriverFds := held })
    (adopt : ∀ d, Maintains R (adoptRouter d linkId))
    (defer : ∀ s p fds, parcelData s.info s.tables.memories p linkId =
      .error (.memory .unknownBuffer) →
        R s (s.deferParcel (linkId, p.parcelFragment.bufferId) (p, fds, linkId))) :
    Framed R linkId where
  flush _ _ _ := inTables_keeps tables _
  bypass _ _ _ _ := inTables_keeps tables _
  accept _ _ _ _ := inTables_keeps tables _
  queues := queues
  adopt := adopt
  defer := defer

theorem inTables_ok {α : Type} {f : NodeInfo → RouteM α} {a : α} {s s' : RoutingAcceptor}
    (h : (inTables f).run s = .ok a s') : (f s.info).run s.tables = .ok a s'.tables := by
  unfold inTables EStateM.run at h
  dsimp only at h
  unfold EStateM.run
  split at h
  · next hrun =>
      cases h
      exact hrun
  · cases h

theorem inTables_of_ok {α : Type} {f : NodeInfo → RouteM α} {a : α} {s : RoutingAcceptor}
    {t : RouteTables} (h : (f s.info).run s.tables = .ok a t) :
    (inTables f).run s = .ok a { s with tables := t } := by
  have hrun : f s.info s.tables = .ok a t := h
  unfold inTables EStateM.run
  dsimp only
  rw [hrun]

theorem inTables_of_error {α : Type} {f : NodeInfo → RouteM α} {e : RoutingError}
    {s : RoutingAcceptor} {t : RouteTables} (h : (f s.info).run s.tables = .error e t) :
    (inTables f).run s = .error e { s with tables := t } := by
  have hrun : f s.info s.tables = .error e t := h
  unfold inTables EStateM.run
  dsimp only
  rw [hrun]

theorem inTables_end {α : Type} (f : NodeInfo → RouteM α) (s : RoutingAcceptor) :
    endState ((inTables f).run s) = { s with tables := endState ((f s.info).run s.tables) } := by
  cases h : (f s.info).run s.tables with
  | ok a t => rw [inTables_of_ok h]; rfl
  | error e t => rw [inTables_of_error h]; rfl

/-- A property of the tables. -/
theorem inTables_yields {α : Type} {P : RouteTables → Prop} {f : NodeInfo → RouteM α}
    (h : ∀ info, Yields P (f info) fun _ => True) :
    Yields (fun s => P s.tables) (inTables f) fun _ => True := by
  intro s hs
  rw [inTables_end]
  exact ⟨(h s.info s.tables hs).1, fun _ _ _ => trivial⟩

theorem takeEarlyParcels_keeps {linkId : Nat} (hR : Framed R linkId) (key : Nat × Nat) :
    Maintains R (takeEarlyParcels key) := fun s => hR.queues s _ _

/-! ### New routers -/

section Adopt

variable [Std.Refl R] [IsTrans RoutingAcceptor R]
  {process : ParcelMessage → List OwnedFd → Nat → AcceptorM ProcessedParcel} {linkId : Nat}

theorem takeEarly_keeps (hR : Framed R linkId) (l : Nat) (sublinks : List Nat) :
    Maintains R (takeEarly l sublinks) := by
  induction sublinks with
  | nil => exact keeps_pure _
  | cons sublink sublinks ih =>
      unfold takeEarly
      refine Maintains.bind (takeEarlyParcels_keeps hR _) fun _ => ?_
      exact ih.bind fun _ => keeps_pure _

omit [Std.Refl R] in
theorem startRouter_keeps (hR : Framed R linkId) (depth : Nat) (d : RouterDescriptor) :
    Maintains R (startRouter (fun info => routerFlush info depth) d linkId) := by
  unfold startRouter
  dsimp only
  split_ifs
  · exact Maintains.bind (hR.bypass _ _ _ _) fun _ => hR.flush _ _ _
  · exact hR.flush _ _ _

variable (hprocess : ∀ p fds, Maintains R (process p fds linkId))

include hprocess

theorem replayEarlyParcels_keeps (early : List ParcelMessage) :
    Maintains R (replayEarlyParcels process linkId early) :=
  keeps_forM fun _ _ => (hprocess _ _).bind fun _ => keeps_pure _

theorem routerDeserialize_keeps (hR : Framed R linkId) (depth : Nat) (d : RouterDescriptor) :
    Maintains R (routerDeserialize (fun info => routerFlush info depth) process d linkId) := by
  unfold routerDeserialize
  refine Maintains.bind (hR.adopt d) fun _ => ?_
  refine Maintains.bind (takeEarly_keeps hR linkId _) fun early => ?_
  refine Maintains.bind (replayEarlyParcels_keeps hprocess early) fun _ => ?_
  exact (startRouter_keeps hR depth d).bind fun _ => keeps_pure _

theorem deserializeAll_keeps (hR : Framed R linkId) (depth : Nat) (ds : List RouterDescriptor) :
    Maintains R (deserializeAll (fun info => routerFlush info depth) process linkId ds) := by
  induction ds with
  | nil => exact keeps_pure _
  | cons d ds ih =>
      unfold deserializeAll
      refine Maintains.bind (routerDeserialize_keeps hprocess hR depth d) fun _ => ?_
      exact ih.bind fun _ => keeps_pure _

theorem deserializePortals_keeps (hR : Framed R linkId) (depth : Nat) (p : ParcelMessage) :
    Maintains R (deserializePortals (fun info => routerFlush info depth) process p linkId) := by
  unfold deserializePortals
  split_ifs
  · exact keeps_throw _
  · exact deserializeAll_keeps hprocess hR depth _

end Adopt

/-! ### Parcels -/

/-- A parcel taken by a router brings no parcel but itself. -/
theorem acceptAt_frame {P : RouteTables → Prop} {C : Contents} (hP : FlushFrame P C)
    {rid linkId : Nat} {p : ParcelMessage} {payload : List UInt8} {objects : List Object}
    (hp : C ⟨p.sequenceNumber, payload, objects, none⟩) :
    Yields P (acceptAt rid linkId p payload objects) fun _ => True := by
  unfold acceptAt
  refine Yields.bind (hP.getRouter _) fun r hr => ?_
  dsimp only
  have hparcel : Parcel.In ⟨p.sequenceNumber, payload, objects, none⟩ C := hp
  split
  · exact yields_throw_bind _ _
  · cases haccept : (if r.outward.on linkId p.sublink
        then r.acceptInbound ⟨p.sequenceNumber, payload, objects, none⟩
        else r.acceptOutbound ⟨p.sequenceNumber, payload, objects, none⟩) with
    | none => exact yields_throw _
    | some r' =>
        apply hP.putRouter
        split_ifs at haccept
        · exact hr.acceptInbound hparcel haccept
        · exact hr.acceptOutbound hparcel haccept

/-- A parcel is deferred only where its buffer is not known. -/
theorem parcelData_unknown {p : ParcelMessage} {linkId : Nat} {info : NodeInfo}
    {memories : Nat → SharedMemory}
    (h : parcelData info memories p linkId = .error (.memory .unknownBuffer)) :
    ∃ l reg, info.links linkId = some l ∧ l.memory = some reg ∧
      reg.bufferFor p.parcelFragment.bufferId = .error .unknownBuffer := by
  rw [parcelData] at h
  split_ifs at h
  obtain ⟨l, reg, hl, hreg⟩ : ∃ l reg, info.links linkId = some l ∧ l.memory = some reg := by
    cases hlink : info.links linkId with
    | none => simp [registryFor, hlink, bind, Except.bind] at h
    | some l =>
        cases hreg : l.memory with
        | none => simp [registryFor, hlink, hreg, bind, Except.bind] at h
        | some reg => exact ⟨l, reg, rfl, hreg⟩
  refine ⟨l, reg, hl, hreg, (memories linkId).readParcelFragment_unknownBuffer ?_⟩
  simp only [registryFor, hl, hreg, bind, Except.bind] at h
  cases hread : (memories linkId).readParcelFragment reg p.parcelFragment with
  | ok data => simp [hread, Except.mapError] at h
  | error e => simpa [hread, Except.mapError] using h

/-! ### Bypass and disconnection -/

section Bypass

variable {P : RouteTables → Prop} {C : Contents} (hP : FlushFrame P C) {info : NodeInfo} {rid : Nat}

include hP

theorem routerDisconnected_frame : Yields P (routerDisconnected info rid) fun _ => True := by
  unfold routerDisconnected
  refine Yields.bind (hP.getRouter _) fun r hr => ?_
  have hdisconnect : r.disconnect.Holds C := by
    refine ⟨?_, hr.outbound, hr.portal⟩
    show ParcelQueue.Holds ((r.inbound.setFinalSequenceLength r.inbound.current).getD r.inbound) C
    cases hq : r.inbound.setFinalSequenceLength r.inbound.current with
    | none => exact hr.inbound
    | some q => exact ParcelQueue.Holds.setFinalSequenceLength hr.inbound hq
  exact (hP.putRouter hdisconnect).bind fun _ _ => removeRouter_frame (i := ()) hP.steps

/-- A bypass keeps what a flush keeps and its own message keeps. -/
theorem bypassPeerWithNewRemoteLink_frame {flush : Nat → Bool → RouteM Unit}
    (hflush : ∀ rid force, Yields P (flush rid force) fun _ => True)
    (hsend : ∀ linkId node peerSublink length sublink block,
      Yields P (sendLinkMessageOn info linkId
        (.acceptBypassLink node peerSublink length sublink block) []) fun _ => True)
    (requestorLinkId targetSublink targetLinkId : Nat) :
    Yields P
      (bypassPeerWithNewRemoteLink info flush rid requestorLinkId targetSublink targetLinkId)
      fun _ => True := by
  unfold bypassPeerWithNewRemoteLink
  refine Yields.bind (hP.ofQuiet (remoteNameFor_keeps _)) fun _ _ => ?_
  refine Yields.bind (hP.ofQuiet (tryAllocateLinkState_quiet _)) fun block _ => ?_
  cases block with
  | none => exact yields_pure trivial
  | some desc =>
      refine Yields.bind (hP.ofQuiet (addLinkStateRef_quiet _ _)) fun _ _ => ?_
      refine Yields.bind (hP.ofQuiet (allocateSublinkIds_quiet _ _)) fun _ _ => ?_
      refine Yields.bind (hP.getRouter _) fun r hr => ?_
      split
      · exact yields_pure trivial
      · refine Yields.bind (decayOr_frame _ _ _ _) fun _ _ => ?_
        refine Yields.bind (hP.putRouter (hr.of_eq rfl rfl rfl)) fun _ _ => ?_
        refine Yields.bind (hsend _ _ _ _ _ _) fun _ _ => ?_
        refine Yields.bind (hP.ofQuiet (insertOwner_quiet _ _ _)) fun _ _ => ?_
        exact (setOutwardLink_frame (i := ()) hP.steps _).bind fun _ _ => hflush _ _

/-- The same for a pending request, whichever way it is completed. -/
theorem completePendingIntro_frame {flush : Nat → Bool → RouteM Unit}
    (hflush : ∀ rid force, Yields P (flush rid force) fun _ => True)
    (hsend : ∀ linkId node peerSublink length sublink block,
      Yields P (sendLinkMessageOn info linkId
        (.acceptBypassLink node peerSublink length sublink block) []) fun _ => True)
    (name : NodeName) (request : PendingIntroRequest) :
    Yields P (completePendingIntro info flush name request) fun _ => True := by
  unfold completePendingIntro
  split
  · exact routerDisconnected_frame hP
  · exact bypassPeerWithNewRemoteLink_frame hP hflush hsend _ _ _

theorem adoptCentralLink_frame (linkId newSublink : Nat) (fragment : FragmentDescriptor)
    (inboundSequenceLength : Nat) :
    Yields P (adoptCentralLink rid linkId newSublink fragment inboundSequenceLength)
      fun _ => True := by
  unfold adoptCentralLink
  refine Yields.bind (hP.getRouter _) fun r hr => ?_
  split
  · split
    · exact yields_throw_bind _ _
    · refine Yields.bind (decayOr_frame _ _ _ _) fun _ _ => ?_
      refine Yields.bind (hP.putRouter (hr.of_eq rfl rfl rfl)) fun _ _ => ?_
      refine Yields.bind (hP.ofQuiet (insertOwner_quiet _ _ _)) fun _ _ => ?_
      exact yields_pure trivial
  · exact yields_pure trivial

end Bypass

/-! ### Messages for a router -/

section Messages

variable {P : RouteTables → Prop} {C : Contents} (hP : FlushFrame P C)
  {flush : Nat → Bool → RouteM Unit}
  (hflush : ∀ rid force, Yields P (flush rid force) fun _ => True) (rid : Nat)

include hP hflush

theorem routerRouteClosed_frame (sublink sequenceLength : Nat) :
    Yields P (routerRouteClosed flush rid sublink sequenceLength) fun _ => True := by
  unfold routerRouteClosed
  refine Yields.bind (hP.getRouter _) fun r hr => ?_
  dsimp only
  split
  · cases hq : r.inbound.setFinalSequenceLength sequenceLength with
    | none =>
        dsimp only
        split
        · exact yields_throw _
        · exact yields_pure trivial
    | some q =>
        have hin := ParcelQueue.Holds.setFinalSequenceLength hr.inbound hq
        exact Yields.bind (hP.putRouter ⟨hin, hr.outbound, hr.portal⟩) fun _ _ => hflush _ _
  · cases hq : r.outbound.setFinalSequenceLength sequenceLength with
    | none => exact yields_throw _
    | some q =>
        have hout := ParcelQueue.Holds.setFinalSequenceLength hr.outbound hq
        exact Yields.bind (hP.putRouter ⟨hr.inbound, hout, hr.portal⟩) fun _ _ => hflush _ _

theorem routerStopProxying_frame (inboundSequenceLength outboundSequenceLength : Nat) :
    Yields P (routerStopProxying flush rid inboundSequenceLength outboundSequenceLength)
      fun _ => True := by
  unfold routerStopProxying
  refine Yields.bind (hP.getRouter _) fun r hr => ?_
  dsimp only
  split
  · exact yields_throw_bind _ _
  cases r.inward with
  | none => exact yields_throw _
  | some inward =>
      dsimp only
      split
      · exact yields_throw_bind _ _
      split
      · exact yields_throw_bind _ _
      · exact Yields.bind (hP.putRouter (hr.of_eq rfl rfl rfl)) fun _ _ => hflush _ _

theorem stopProxyingToLocalPeer_frame (localPeer outboundSequenceLength : Nat) :
    Yields P (stopProxyingToLocalPeer flush rid localPeer outboundSequenceLength)
      fun _ => True := by
  unfold stopProxyingToLocalPeer
  refine Yields.bind (hP.getRouter _) fun r _ => ?_
  refine Yields.bind yields_get fun t ht => ?_
  cases hpeer : t.routers localPeer with
  | none => exact yields_pure trivial
  | some peer =>
      have hpeer' := hP.holds ht hpeer
      dsimp only
      cases r.outward.decayingLink with
      | none => exact yields_pure trivial
      | some ourLink =>
          dsimp only
          cases peer.outward.decayingLink with
          | none => exact yields_pure trivial
          | some peerLink =>
              dsimp only
              split
              · exact yields_throw_bind _ _
              · refine Yields.bind (hP.putRouter (hpeer'.of_eq rfl rfl rfl)) fun _ _ => ?_
                refine Yields.bind (hP.getRouter _) fun r hr => ?_
                refine Yields.bind (hP.putRouter (hr.of_eq rfl rfl rfl)) fun _ _ => ?_
                exact (hflush _ _).bind fun _ _ => hflush _ _

theorem stopProxyingToBridgePeer_frame (bridgePeer outboundSequenceLength : Nat) :
    Yields P (stopProxyingToBridgePeer flush rid bridgePeer outboundSequenceLength)
      fun _ => True := by
  unfold stopProxyingToBridgePeer
  refine Yields.bind (hP.getRouter _) fun bp _ => ?_
  dsimp only
  split
  · exact yields_throw_bind _ _
  cases bp.outward.getDecayingLocalPeer with
  | none => exact yields_throw _
  | some localPeer =>
      refine Yields.bind (hP.getRouter _) fun r _ => ?_
      refine Yields.bind yields_get fun t ht => ?_
      cases hpeer : t.routers localPeer with
      | none => exact yields_pure trivial
      | some peer =>
          have hpeer' := hP.holds ht hpeer
          dsimp only
          split
          · exact yields_throw_bind _ _
          · refine Yields.bind (hP.putRouter (hpeer'.of_eq rfl rfl rfl)) fun _ _ => ?_
            refine Yields.bind (hP.getRouter _) fun r hr => ?_
            refine Yields.bind (hP.putRouter (hr.of_eq rfl rfl rfl)) fun _ _ => ?_
            refine Yields.bind (hP.getRouter _) fun bp hbp => ?_
            refine Yields.bind (hP.putRouter (hbp.of_eq rfl rfl rfl)) fun _ _ => ?_
            exact (hflush _ _).bind fun _ _ => (hflush _ _).bind fun _ _ => hflush _ _

theorem routerStopProxyingToLocalPeer_frame (outboundSequenceLength : Nat) :
    Yields P (routerStopProxyingToLocalPeer flush rid outboundSequenceLength) fun _ => True := by
  unfold routerStopProxyingToLocalPeer
  refine Yields.bind (hP.getRouter _) fun r _ => ?_
  have hlost : Yields P (if r.disconnected = true then pure () else
      throw (.badParcel "no local peer for StopProxyingToLocalPeer") : RouteM Unit)
        fun _ => True := by
    split
    · exact yields_pure trivial
    · exact yields_throw _
  cases r.bridge with
  | some b =>
      dsimp only
      cases b.getDecayingLocalPeer with
      | some bridgePeer => exact stopProxyingToBridgePeer_frame hP hflush rid _ _
      | none => exact hlost
  | none =>
      dsimp only
      cases r.outward.getDecayingLocalPeer with
      | some localPeer => exact stopProxyingToLocalPeer_frame hP hflush rid _ _
      | none => exact hlost

theorem routerProxyWillStop_frame (inboundSequenceLength : Nat) :
    Yields P (routerProxyWillStop flush rid inboundSequenceLength) fun _ => True := by
  unfold routerProxyWillStop
  refine Yields.bind (hP.getRouter _) fun r hr => ?_
  split
  · split
    · exact yields_throw _
    · exact yields_pure trivial
  · dsimp only
    split
    · exact yields_throw_bind _ _
    · exact Yields.bind (hP.putRouter (hr.of_eq rfl rfl rfl)) fun _ _ => hflush _ _

end Messages

section Parcels

variable [Std.Refl R] [IsTrans RoutingAcceptor R] {linkId : Nat} (hR : Framed R linkId)

include hR

theorem claimObjects_keeps (handleTypes : List UInt32) (identities : List Nat)
    (refs : List DriverObjectRef) (fds : List OwnedFd) :
    Maintains R (claimObjects handleTypes identities refs fds) := by
  induction handleTypes generalizing identities refs fds with
  | nil => exact keeps_pure _
  | cons ht handleTypes ih =>
      unfold claimObjects
      split_ifs
      · cases identities with
        | nil => exact keeps_throw _
        | cons rid identities => exact (ih _ _ _).bind fun _ => keeps_pure _
      · cases refs with
        | nil => exact keeps_throw _
        | cons obj refs =>
            dsimp only
            split_ifs
            · exact keeps_throw_bind _ _
            · exact Maintains.bind (keeps_modify fun s => hR.queues s _ _) fun _ => ih _ _ _
      · exact (ih _ _ _).bind fun _ => keeps_pure _
      · exact keeps_throw _
      · exact keeps_throw _

theorem assembleObjects_keeps (p : ParcelMessage) (identities : List Nat) (fds : List OwnedFd) :
    Maintains R (assembleObjects p identities fds) := by
  unfold assembleObjects
  refine Maintains.bind (claimObjects_keeps hR _ _ _ _) fun x => ?_
  obtain ⟨objects, unclaimed, isSplit⟩ := x
  dsimp only
  split
  · exact keeps_throw_bind _ _
  · split
    · exact keeps_throw_bind _ _
    · exact keeps_pure _

omit [Std.Refl R] in
theorem routeParcel_keeps (depth : Nat) (p : ParcelMessage) (payload : List UInt8)
    (objects : List Object) :
    Maintains R (routeParcel (fun info => routerFlush info depth) p linkId payload objects) := by
  unfold routeParcel
  apply keeps_get_bind
  intro s
  cases s.tables.owners (linkId, p.sublink) with
  | none => exact hR.queues s _ _
  | some rid =>
      exact Maintains.bind (hR.accept _ _ _ _) (fun _ => hR.flush _ _ _) s

/-- A pass over a parcel keeps what its changes keep. -/
theorem processAcceptParcel_keeps (depth : Nat) (p : ParcelMessage) (fds : List OwnedFd) :
    Maintains R (processAcceptParcel depth p fds linkId) := by
  induction depth generalizing p fds with
  | zero => exact keeps_throw _
  | succ depth ih =>
      have haccept : ∀ payload, Maintains R
          (acceptParcel (fun info => routerFlush info depth) (processAcceptParcel depth) p fds
            linkId payload) := by
        intro payload
        unfold acceptParcel
        refine Maintains.bind (deserializePortals_keeps ih hR depth p) fun _ => ?_
        refine Maintains.bind (assembleObjects_keeps hR _ _ _) fun _ => ?_
        exact (routeParcel_keeps hR _ _ _ _).bind fun _ => keeps_pure _
      show Maintains R (processAcceptParcelWith _ _ p fds linkId)
      unfold processAcceptParcelWith
      dsimp only
      split
      · exact keeps_throw_bind _ _
      · split
        · exact keeps_throw_bind _ _
        · apply keeps_get_bind
          intro s
          split
          · exact haccept _ s
          · exact hR.defer s p fds ‹_›
          · exact keeps_throw _ s

end Parcels

end MojoRs.Ipcz
