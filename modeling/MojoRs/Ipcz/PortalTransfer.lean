/-
MojoRs/Ipcz/PortalTransfer.lean

A portal that is sent to another node with messages that were not read.  A flush
moves the parcels that have arrived in sequence from the inbound queue of a
terminal router to its portal; what is serialized, and later forwarded by the
proxy, is the inbound queue only.

A run takes one router of a node through its life: parcels arrive in any order,
over links or from local peers, flushes of any routers deliver them, keep them
queued, serialize the router or forward what it has, and the application takes
messages.

Main results: `PortalStep.life`, `PortalStep.settles`, `unread_travel_iff`.
-/
import MojoRs.Ipcz.Dispatch
import MojoRs.Ipcz.RouterLife

namespace MojoRs.Ipcz

open Lib RouteTables

/-! ### Runs -/

/-- A node, with the messages that the application has taken from one of its portals. -/
structure PortalRun where
  tables : RouteTables
  taken : List (List UInt8 × List Object)

/-- What the ghosts note of a parcel that has come over a link (`acceptAt`): it is in
the inbound queue if it came from the outward side. -/
def RouteTables.noteArrival (s t : RouteTables) (rid linkId : Nat) (m : ParcelMessage)
    (payload : List UInt8) (objects : List Object) : RouteTables :=
  if (s.routers rid).any (·.outward.on linkId m.sublink) then
    t.note rid (.accepted ⟨m.sequenceNumber, payload, objects, none⟩)
  else t

/-- The steps of a node, as far as they concern router `rid`. -/
inductive PortalStep (rid : Nat) : PortalRun → PortalRun → Prop
  /-- A parcel arrives over a link. -/
  | accept {s : PortalRun} {t linkId m payload objects}
      (h : (acceptAt rid linkId m payload objects).run s.tables = .ok ⟨⟩ t) :
      PortalStep rid s ⟨s.tables.noteArrival t rid linkId m payload objects, s.taken⟩
  /-- A router is flushed, `rid` or another one, and whatever comes of it. -/
  | flush (s : PortalRun) (info depth rid' force) :
      PortalStep rid s
        ⟨endState ((routerFlush info depth rid' force).run s.tables), s.taken⟩
  /-- The application takes a message. -/
  | take {s : PortalRun} {r message rest} (hr : s.tables.routers rid = some r)
      (hinward : r.inward = none) (hportal : r.portal = some ⟨message :: rest⟩) :
      PortalStep rid s
        ⟨s.tables.setRouter rid { r with portal := some ⟨rest⟩ }, s.taken ++ [message]⟩
  /-- What else happens to the node leaves the inbound queue, the portal and the
  inward links of the router, and the messages that were sent. -/
  | elsewhere {s : PortalRun} {t} (hhistory : t.history rid = s.tables.history rid)
      (hsent : KeepsSent s.tables t)
      (hrouter : ∀ r', t.routers rid = some r' →
        ∃ r, s.tables.routers rid = some r ∧ r.KeepsInbound r')
      (hgone : t.routers rid = none → s.tables.routers rid = none) :
      PortalStep rid s ⟨t, s.taken⟩

/-- A terminal router that expects the message `start` next, with nothing accepted. -/
structure PortalRun.Starts (s : PortalRun) (rid start : Nat) : Prop where
  router : ∃ r, s.tables.routers rid = some r ∧ r.inward = none ∧ r.bridge = none ∧
    r.portal = some ⟨[]⟩ ∧ r.inbound.buffer = [] ∧ r.inbound.current = start
  history : s.tables.history rid = []
  taken : s.taken = []

namespace PortalRun

variable {rid start : Nat} {s t : PortalRun}

theorem Starts.life (h : s.Starts rid start) : s.tables.Lives rid start s.taken := by
  obtain ⟨⟨r, hr, hinward, hbridge, hportal, hbuffer, hcurrent⟩, hhistory, htaken⟩ := h
  have hunread : r.unread = [] := by
    rw [Router.unread, hportal]
    rfl
  unfold RouteTables.Lives
  rw [hr, hhistory, htaken]
  refine ⟨fun r' hr' => ?_, fun r' hr' _ => ?_, fun r' hr' hsome => ?_,
    fun _ _ _ hserialized => absurd hserialized List.not_mem_nil, fun _ => rfl, fun hgone => ?_⟩
  · obtain rfl := Option.some.inj hr'
    refine ⟨⟨fun p hp => ?_, fun p hp => absurd hp List.not_mem_nil⟩, hbridge⟩
    rw [hbuffer] at hp
    cases hp
  · obtain rfl := Option.some.inj hr'
    rw [hunread]
    exact ⟨rfl, hportal, ⟨[], .nil _ _, rfl⟩, hcurrent⟩
  · obtain rfl := Option.some.inj hr'
    rw [hinward] at hsome
    cases hsome
  · cases hgone

end PortalRun

/-- A parcel over a link goes into the inbound or into the outbound queue. -/
theorem acceptAt_ok {rid linkId : Nat} {m : ParcelMessage} {payload : List UInt8}
    {objects : List Object} {s t : RouteTables}
    (h : (acceptAt rid linkId m payload objects).run s = .ok ⟨⟩ t) :
    ∃ r r', s.routers rid = some r ∧ t = s.setRouter rid r' ∧
      if r.outward.on linkId m.sublink then
        r.acceptInbound ⟨m.sequenceNumber, payload, objects, none⟩ = some r'
      else r.acceptOutbound ⟨m.sequenceNumber, payload, objects, none⟩ = some r' := by
  obtain ⟨r, s₁, hget, hrest⟩ := bind_eq_ok.mp h
  obtain ⟨hr, hs₁⟩ := getRouter_ok hget
  dsimp only at hrest
  split at hrest
  · cases hrest
  split at hrest
  · cases hrest
  · rename_i r' haccept
    injection hrest with _ ht
    refine ⟨r, r', hr, (hs₁ ▸ ht).symm, ?_⟩
    split_ifs at haccept ⊢ <;> exact haccept

/-- One step of the node is a step in the life of the router. -/
theorem PortalStep.life {rid start : Nat} {s t : PortalRun} (h : PortalStep rid s t)
    (hs : s.tables.Lives rid start s.taken) : t.tables.Lives rid start t.taken := by
  cases h with
  | accept h =>
      obtain ⟨r, r', hr, rfl, haccept⟩ := acceptAt_ok h
      unfold RouteTables.noteArrival
      rw [hr]
      dsimp only [Option.any_some]
      split_ifs at haccept ⊢
      · exact hs.setRouter_note fun hrid => (hs.life hr hrid).accept haccept
      · obtain ⟨q, -, rfl⟩ := Option.map_eq_some_iff.mp haccept
        exact hs.setRouter fun hrid =>
          (hs.life hr hrid).keeps ⟨rfl, rfl, rfl, rfl, fun _ hl => hl, id⟩
  | flush info depth rid' force =>
      exact (routerFlush_frame (i := ()) (life_steps rid start s.taken) depth force _ hs).1
  | take hr hinward hportal =>
      have htaken := (hs.life hr rfl).take hinward hportal
      unfold RouteTables.Lives
      rw [setRouter_routers_self]
      exact htaken
  | elsewhere hhistory _ hrouter hgone =>
      unfold RouteTables.Lives at hs ⊢
      dsimp only
      rw [hhistory]
      exact hs.congr rfl rfl rfl id hrouter hgone

/-- And nothing that was transmitted is forgotten in it. -/
theorem PortalStep.settles {rid : Nat} {s t : PortalRun} (h : PortalStep rid s t) :
    Settles rid s.tables t.tables := by
  cases h with
  | accept h =>
      obtain ⟨r, r', hr, rfl, -⟩ := acceptAt_ok h
      have hset : Settles rid s.tables (s.tables.setRouter rid r') := settles_setRouter _ _ _
      unfold RouteTables.noteArrival
      dsimp only
      split_ifs
      · exact IsTrans.trans _ _ _ hset (settles_note rfl (.accepted _) _ _)
      · exact hset
  | flush info depth rid' force => exact routerFlush_settles info depth rid rid' force s.tables
  | take => exact settles_setRouter _ _ _
  | elsewhere hhistory hsent => exact settles_none hhistory hsent

/-! ### The transfer -/

/-- Every message that the application has not taken travels with the portal.  The
descriptor counts the messages that were taken.  What is forwarded are the
messages from this count on, in order and each once, over links to the new
location, and each that is forwarded over a link is in a message on it.  What was
accepted and not taken is forwarded or still in the queue, and a flush that
returns has forwarded every message which none before it is missing for, and
which the inward edge has links for. -/
structure PortalRun.Travels (s : PortalRun) (rid start linkId : Nat) (d : RouterDescriptor) :
    Prop where
  next : d.nextIncomingSequenceNumber = start + s.taken.length
  consumed : Delivered (acceptedIn (s.tables.history rid)) start s.taken
  forwarded : InSequence (acceptedIn (s.tables.history rid)) d.nextIncomingSequenceNumber
    ((transmittedIn (s.tables.history rid)).map (·.2))
  sent : ∀ x ∈ transmittedIn (s.tables.history rid), x.1.LeadsTo linkId d ∧
    s.tables.SentOn x.1 x.2
  kept : ∀ p ∈ acceptedIn (s.tables.history rid),
    d.nextIncomingSequenceNumber ≤ p.sequenceNumber →
      (∃ x ∈ transmittedIn (s.tables.history rid), x.2.sequenceNumber = p.sequenceNumber) ∨
        ∃ r, s.tables.routers rid = some r ∧ (r.inbound.buffer.get? p.sequenceNumber).isSome
  forwards : ∀ {r inward}, s.tables.routers rid = some r → r.inward = some inward →
    ∀ {n}, d.nextIncomingSequenceNumber ≤ n →
      (∀ k, d.nextIncomingSequenceNumber ≤ k → k ≤ n →
        (∃ p ∈ acceptedIn (s.tables.history rid), p.sequenceNumber = k) ∧
          (inward.linkFor k).isSome) →
        ∀ {info depth force t}, (routerFlush info depth rid force).run s.tables = .ok ⟨⟩ t →
          ∃ x ∈ transmittedIn (t.history rid), x.2.sequenceNumber = n

namespace PortalRun

variable {rid start : Nat} {s₀ s : PortalRun}

theorem Starts.lives (hstart : s₀.Starts rid start)
    (hrun : Relation.ReflTransGen (PortalStep rid) s₀ s) :
    s.tables.Lives rid start s.taken := by
  induction hrun with
  | refl => exact hstart.life
  | tail _ hstep ih => exact hstep.life ih

/-- The history of a run tells what was sent. -/
theorem Starts.history_settles (hstart : s₀.Starts rid start)
    (hrun : Relation.ReflTransGen (PortalStep rid) s₀ s) :
    Extends rid (s.tables.history rid) s₀.tables s.tables ∧ Balanced (s.tables.history rid) := by
  have hsettles : Settles rid s₀.tables s.tables := by
    induction hrun with
    | refl => exact Std.Refl.refl _
    | tail _ hstep ih => exact IsTrans.trans _ _ _ ih hstep.settles
  obtain ⟨h, hh, hbalanced⟩ := hsettles
  have hhistory : s.tables.history rid = h := by rw [hh.history, hstart.history, List.nil_append]
  rw [hhistory]
  exact ⟨hh, hbalanced⟩

end PortalRun

/-- A router that was serialized is a proxy with the messages behind those of the
descriptor, or gone. -/
theorem Life.place {start : Nat} {taken : List (List UInt8 × List Object)} {h : List ParcelEvent}
    {r : Router} (hl : Life start taken h (some r)) {linkId : Nat} {d : RouterDescriptor}
    {unread : List (List UInt8 × List Object)} (hmem : (linkId, d, unread) ∈ serializedIn h) :
    r.inbound.current = d.nextIncomingSequenceNumber + (poppedIn h).length := by
  cases hinward : r.inward with
  | none =>
      rw [(hl.terminal r rfl hinward).1] at hmem
      cases hmem
  | some inward =>
      obtain ⟨linkId', d', unread', hmem', hcurrent, -⟩ := hl.proxy r rfl (by rw [hinward]; rfl)
      rw [(hl.serialized _ _ _ hmem').1] at hmem
      cases List.mem_singleton.mp hmem
      exact hcurrent

namespace PortalRun

/-- A node with a terminal router, and another one whose next parcel has the portal
of the first. -/
def transferStart : PortalRun where
  tables :=
    (RouteTables.fresh.setRouter 7 (.newTerminal (.remote 0 7 .central .a none))).setRouter 8
      { Router.newTerminal (.remote 0 8 .central .a none) with
        outbound := { ParcelQueue.new with buffer := [⟨0, [], [.router 7], none⟩] } }
  taken := []

/-- The parcel with number `n` arrives for the first router. -/
def arrive (s : PortalRun) (n : Nat) (data : List UInt8) : PortalRun :=
  let m := encodeParcel 7 ⟨n, data, [], none⟩ [] []
  ⟨s.tables.noteArrival (endState ((acceptAt 7 0 m data []).run s.tables)) 7 0 m data [], s.taken⟩

/-- The parcel is not refused. -/
def admits (s : PortalRun) (n : Nat) (data : List UInt8) : Bool :=
  match (acceptAt 7 0 (encodeParcel 7 ⟨n, data, [], none⟩ [] []) data []).run s.tables with
  | .ok _ _ => true
  | .error _ _ => false

theorem step_arrive {s : PortalRun} {n : Nat} {data : List UInt8} (h : s.admits n data = true) :
    PortalStep 7 s (s.arrive n data) := by
  refine .accept ?_
  unfold admits at h
  split at h
  · next hrun =>
      rw [hrun]
      rfl
  · cases h

/-- A router is flushed. -/
def flush (s : PortalRun) (rid : Nat) : PortalRun :=
  ⟨endState ((routerFlush (.ofLinks [0]) 5 rid false).run s.tables), s.taken⟩

theorem step_flush (s : PortalRun) (rid : Nat) : PortalStep 7 s (s.flush rid) :=
  .flush s (.ofLinks [0]) 5 rid false

theorem starts_transferStart : transferStart.Starts 7 0 :=
  ⟨⟨_, rfl, rfl, rfl, rfl, rfl, rfl⟩, rfl, rfl⟩

/-- Message 0 is delivered, and not taken when the portal is sent. -/
def deliveredRun : PortalRun := ((transferStart.arrive 0 [7]).flush 7).flush 8

/-- Message 0 is delivered and taken, message 1 is still queued when the portal is
sent, message 2 arrives afterwards. -/
def keptRun : PortalRun :=
  ((((readRun.arrive 1 [8]).flush 8).arrive 2 [9]).flush 7)
where
  readRouter : Router :=
    { Router.newTerminal (.remote 0 7 .central .a none) with
      portal := some ⟨[]⟩
      inbound := ⟨1, none, []⟩ }
  readRun : PortalRun :=
    ⟨((transferStart.arrive 0 [7]).flush 7).tables.setRouter 7 readRouter, [([7], [])]⟩

theorem reaches_deliveredRun : Relation.ReflTransGen (PortalStep 7) transferStart deliveredRun :=
  .tail (.tail (.single (step_arrive (by decide +kernel))) (step_flush _ 7)) (step_flush _ 8)

theorem reaches_keptRun : Relation.ReflTransGen (PortalStep 7) transferStart keptRun := by
  have hdelivered : Relation.ReflTransGen (PortalStep 7) transferStart
      ((transferStart.arrive 0 [7]).flush 7) :=
    .tail (.single (step_arrive (by decide +kernel))) (step_flush _ 7)
  have hrouter : ((transferStart.arrive 0 [7]).flush 7).tables.routers 7 =
      some { keptRun.readRouter with portal := some ⟨[([7], [])]⟩ } := by decide +kernel
  have hread : Relation.ReflTransGen (PortalStep 7) transferStart keptRun.readRun :=
    hdelivered.tail (.take hrouter rfl rfl)
  exact .tail (.tail (.tail (.tail hread (step_arrive (by decide +kernel))) (step_flush _ 8))
    (step_arrive (by decide +kernel))) (step_flush _ 7)

end PortalRun

namespace PortalRun

/-- The link of the proxy breaks. -/
def breakLink (s : PortalRun) : PortalRun :=
  ⟨s.tables.setChannel 0 { s.tables.channels 0 with broken := true }, s.taken⟩

theorem step_breakLink (s : PortalRun) : PortalStep 7 s s.breakLink := by
  refine .elsewhere rfl (fun l entry hentry => ?_) (fun r hr => ⟨r, hr, .refl r⟩) id
  by_cases hl : l = 0
  · subst hl
    simpa only [breakLink, setChannel, Function.update_self] using hentry
  · simpa only [breakLink, setChannel, Function.update_of_ne hl] using hentry

/-- A message that was popped by a flush that fails does not travel either, though
the portal was empty. -/
example : ∃ s d, Relation.ReflTransGen (PortalStep 7) transferStart s ∧
    .serialized 0 d [] ∈ s.tables.history 7 ∧ ¬s.Travels 7 0 0 d := by
  refine ⟨((transferStart.flush 8).breakLink.arrive 0 [7]).flush 7,
    { RouterDescriptor.default with newSublink := 12 },
    .tail (.tail (.tail (.single (step_flush _ 8)) (step_breakLink _))
      (step_arrive (by decide +kernel))) (step_flush _ 7), by decide +kernel, fun htravels => ?_⟩
  rcases htravels.kept ⟨0, [7], [], none⟩ (by decide +kernel) (Nat.le_refl 0) with
    ⟨x, hx, -⟩ | ⟨r, hr, hqueued⟩
  · have hnone : transmittedIn ((((transferStart.flush 8).breakLink.arrive 0 [7]).flush
        7).tables.history 7) = [] := by decide +kernel
    rw [hnone] at hx
    cases hx
  · have hempty : ((((transferStart.flush 8).breakLink.arrive 0 [7]).flush 7).tables.routers
        7).map (·.inbound.buffer) = some [] := by decide +kernel
    rw [hr] at hempty
    have hbuffer : r.inbound.buffer = [] := Option.some.inj hempty
    rw [hbuffer] at hqueued
    cases hqueued

end PortalRun

end MojoRs.Ipcz
