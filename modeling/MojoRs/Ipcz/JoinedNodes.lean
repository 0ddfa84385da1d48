/-
MojoRs/Ipcz/JoinedNodes.lean

Two nodes joined by one central link, each with a terminal router on it.  The
nodes share the memory of the link, and every message that one sends is on
its way to the other until that one takes it.  Applications put data and
close their ends.

Each node does to its end what `RouteTeardown` says (`end_put`, `end_close`,
`end_receive`), so a run of the two nodes is a run of a route
(`joined_simulates`).  Both routers give their links up exactly if no end
closes while the closure of the other one is on its way (`released_iff`).

Main results: `joined_simulates`, `released_iff`.
-/
import MojoRs.Ipcz.ClosureDirection
import MojoRs.Ipcz.ParcelFragments
import MojoRs.Ipcz.RouteTeardown

namespace MojoRs.Ipcz

open Function (update)
open Lib Teardown

/-! ### The link between the nodes -/

/-- A central link: the router, the node link and the buffers at each end, the
sublink, and the state that the ends share. -/
structure CentralLink where
  rid : LinkSide → Nat
  linkId : LinkSide → Nat
  sublink : Nat
  state : FragmentDescriptor
  buffers : BufferRegistry

namespace CentralLink

variable (c : CentralLink)

/-- One side of it. -/
def link (x : LinkSide) : Link := .remote (c.linkId x) c.sublink .central x (some c.state)

/-- A node with the link, whose portals take what comes. -/
structure HoldsInfo (x : LinkSide) (info : NodeInfo) : Prop where
  delivers : info.keepQueuedFlush = false
  link : ∃ name, info.links (c.linkId x) = some ⟨name, some c.buffers⟩

/-- Both sides of the link are stable, and it is locked or not. -/
structure HoldsMemory (locked : Bool) (m : SharedMemory) : Prop where
  placed : m.Placed c.buffers
  stable : ∀ y, (m.states c.state.key).status.stable y = true
  locked : (∃ y, (m.states c.state.key).status.locked y = true) ↔ locked = true

/-- The router at an end. -/
def HoldsRouter (x : LinkSide) (e : RouteEnd) (r : Router) : Prop :=
  ∃ messages outbound peerClosed,
    r = endRouter (if e.linked then some (c.link x) else none) messages
      ⟨e.received, e.peerFinal, []⟩ outbound peerClosed ∧
    outbound.current = e.sent ∧ outbound.finalLength = e.final ∧
    (e.linked = true → outbound.buffer = []) ∧ ∀ n ∈ e.final, n ≤ e.sent

/-- The tables of a node. -/
structure HoldsEnd (x : LinkSide) (e : RouteEnd) (locked : Bool) (t : RouteTables) : Prop where
  owner : t.owners (c.linkId x, c.sublink) = some (c.rid x)
  intact : (t.channels (c.linkId x)).broken = false
  router : ∃ r, t.routers (c.rid x) = some r ∧ c.HoldsRouter x e r
  memory : c.HoldsMemory locked (t.memories (c.linkId x))

/-- A message of the route as it goes over the node link. -/
inductive Carries : Msg → Nat × RouteMessage × List OwnedFd → Prop
  | parcel {n seq : Nat} {fragment : FragmentDescriptor} {data : List UInt8} :
      fragment = .null ∨ c.buffers.IsBlock fragment →
      Carries (.parcel n)
        (seq, .acceptParcel ⟨c.sublink, n, 0, 1, fragment, data, [], [], []⟩, [])
  | closed {n seq : Nat} : Carries (.closed n) (seq, .routeClosed c.sublink n, [])

/-- What an end has become, and what it has sent. -/
structure Becomes (x : LinkSide) (t : RouteTables) (r : RouteEnd × Bool × List Msg)
    (t' : RouteTables) : Prop where
  holds : c.HoldsEnd x r.1 r.2.1 t'
  sent : ∃ added, (t'.channels (c.linkId x)).sent = (t.channels (c.linkId x)).sent ++ added ∧
    List.Forall₂ c.Carries r.2.2 added

end CentralLink

/-! ### Small steps at an end -/

/-- The tables after a message. -/
def RouteTables.sendOn (t : RouteTables) (linkId : Nat) (msg : RouteMessage) : RouteTables :=
  t.setChannel linkId { t.channels linkId with
    sent := (t.channels linkId).sent ++ [((t.channels linkId).nextLinkSeq, msg, [])]
    nextLinkSeq := (t.channels linkId).nextLinkSeq + 1 }

@[simp] theorem sendOn_sent (t : RouteTables) (linkId : Nat) (msg : RouteMessage) :
    ((t.sendOn linkId msg).channels linkId).sent =
      (t.channels linkId).sent ++ [((t.channels linkId).nextLinkSeq, msg, [])] := by
  simp [RouteTables.sendOn, RouteTables.setChannel]

@[simp] theorem sendOn_broken (t : RouteTables) (linkId : Nat) (msg : RouteMessage) :
    ((t.sendOn linkId msg).channels linkId).broken = (t.channels linkId).broken := by
  simp [RouteTables.sendOn, RouteTables.setChannel]

section Steps

variable {c : CentralLink} {x : LinkSide} {info : NodeInfo} {t : RouteTables}

theorem memoryFor_run (h : c.HoldsInfo x info) (t : RouteTables) :
    (memoryFor info (c.linkId x)).run t = .ok c.buffers t := by
  obtain ⟨name, hlink⟩ := h.link
  rw [memoryFor, registryFor, hlink]
  rfl

/-- A message goes on its way. -/
theorem sendLinkMessageOn_run (h : c.HoldsInfo x info)
    (hintact : (t.channels (c.linkId x)).broken = false) (msg : RouteMessage) :
    (sendLinkMessageOn info (c.linkId x) msg []).run t = .ok ⟨⟩ (t.sendOn (c.linkId x) msg) := by
  obtain ⟨name, hlink⟩ := h.link
  unfold sendLinkMessageOn RouteTables.sendOn
  rw [hlink, run_get_bind]
  dsimp only
  rw [hintact]
  rfl

/-- The lock is taken where it is free. -/
theorem CentralLink.HoldsMemory.tryLock {locked : Bool} {m : SharedMemory}
    (hm : c.HoldsMemory locked m) (x : LinkSide) :
    (m.onStatus c.state (·.tryLock x)).1 = !locked ∧
      c.HoldsMemory true (m.onStatus c.state (·.tryLock x)).2 := by
  have hset (st : LinkStatus) (hstable : ∀ y, st.stable y = true)
      (hlocked : ∃ y, st.locked y = true) : c.HoldsMemory true
        (m.setState c.state { m.states c.state.key with status := st }) := by
    refine ⟨⟨hm.placed.free, hm.placed.fits⟩, ?_, ?_⟩
    · simpa [SharedMemory.setState] using hstable
    · simpa [SharedMemory.setState] using hlocked
  cases locked with
  | true =>
      obtain ⟨y, hy⟩ := hm.locked.mpr rfl
      have hfail : (m.states c.state.key).status.tryLock x =
          (false, (m.states c.state.key).status) := by
        rw [LinkStatus.tryLock, if_pos]
        cases y
        · exact .inl hy
        · exact .inr (.inl hy)
      rw [SharedMemory.onStatus, hfail]
      exact ⟨rfl, hset _ hm.stable ⟨y, hy⟩⟩
  | false =>
      have hfree : ∀ y, (m.states c.state.key).status.locked y = false := by
        simpa using hm.locked
      have hlock : (m.states c.state.key).status.tryLock x =
          (true, { (m.states c.state.key).status with
            locked := update (m.states c.state.key).status.locked x true }) := by
        simp [LinkStatus.tryLock, hfree, hm.stable]
      rw [SharedMemory.onStatus, hlock]
      exact ⟨rfl, hset _ hm.stable ⟨x, Function.update_self ..⟩⟩

theorem tryLockLinkForClosure_run (h : c.HoldsInfo x info)
    (hstate : c.buffers.fragment c.state = .ok ()) {locked : Bool}
    (hm : c.HoldsMemory locked (t.memories (c.linkId x))) :
    ∃ m, (tryLockLinkForClosure info (c.link x)).run t =
        .ok (!locked) (t.setMemory (c.linkId x) m) ∧ c.HoldsMemory true m := by
  obtain ⟨hfree, hlocked⟩ := hm.tryLock x
  refine ⟨_, ?_, hlocked⟩
  rw [← hfree]
  show (onLinkStatus info (c.linkId x) c.state (·.tryLock x)).run t = _
  unfold onLinkStatus
  rw [run_bind_of_ok (memoryFor_run h t), hstate]
  rfl

end Steps

/-! ### Flushing an end -/

section Flush

variable {c : CentralLink} {x : LinkSide} {info : NodeInfo} {flush : Nat → Bool → RouteM Unit}
  {t t₁ : RouteTables} {messages : List (List UInt8 × List Object)}
  {inbound inbound' outbound : ParcelQueue} {closed : Bool} {parcels : List Parcel} {n : Nat}

/-- An end that has closed tries the lock. -/
theorem endRouter_closures_closed {l : Link} (hfinal : outbound.finalLength = some n)
    (hn : n ≤ outbound.current) :
    (endRouter (some l) messages inbound outbound closed).closures true =
      (some (l, n), none, false, endRouter (some l) messages inbound outbound closed) := by
  have hdone : outbound.isSequenceFullyConsumed = true := by
    rw [ParcelQueue.isSequenceFullyConsumed, hfinal]
    exact decide_eq_true hn
  unfold Router.closures endRouter
  dsimp only
  rw [hdone, hfinal]
  cases hdone' : inbound.isSequenceFullyConsumed <;> cases hfinal' : inbound.finalLength <;> rfl

/-- A flush up to the closures. -/
theorem flush_upToClosures {primary : Option Link}
    {messages₀ : List (List UInt8 × List Object)} {inbound₀ outbound₀ : ParcelQueue}
    (hinfo : c.HoldsInfo x info) {rid : Nat}
    (h : t.routers rid = some (endRouter primary messages₀ inbound₀ outbound₀ closed))
    (hparcels : (flushParcels info flush rid).run t = .ok ⟨⟩ t₁)
    (h₁ : t₁.routers rid = some (endRouter primary messages inbound outbound closed))
    (hdrain : inbound.drain = (parcels, inbound')) {s : RouteTables}
    {routeClosed forwardClosed : Option (Link × Nat)} {dead : Bool}
    (hclosures : (flushClosures info rid ⟨primary.any (·.kind.isCentral), false, false⟩).run
      (t₁.setRouter rid (endRouter primary
        (messages ++ parcels.map fun p => (p.data, p.objects)) inbound' outbound closed)) =
      .ok (routeClosed, forwardClosed, dead) s)
    {r : Router} (hr : s.routers rid = some r) (hbridge : r.bridge = none) :
    (routerFlushWith info flush rid false).run t =
      (finishFlush info flush rid false ⟨primary.any (·.kind.isCentral), false, false⟩ routeClosed
        forwardClosed dead false).run s := by
  have hdecays : (flushDecays info rid).run t₁ = .ok (false, false) t₁ := by
    have hrun : (flushDecays info rid).run t₁ = .ok (false, false) (t₁.setRouter rid _) :=
      flushDecays_run h₁ rfl nofun
    exact hrun.trans (congrArg _ (RouteTables.setRouter_self h₁))
  have hdelivery : (flushDelivery info rid).run t₁ = .ok false (t₁.setRouter rid _) :=
    flushDelivery_run h₁ hinfo.delivers rfl
  rw [endRouter_deliver hdrain] at hdelivery
  exact routerFlushWith_run (flushStart_run h) hparcels hdecays hdelivery
    (flushStability_quiet (RouteTables.setRouter_routers_self ..) _) hclosures
    (flushBridge_none hr hbridge _ _ _)

/-- An end that has changed and sent nothing. -/
theorem becomes_setRouter {e : RouteEnd} {locked : Bool} {r : Router}
    (howner : t.owners (c.linkId x, c.sublink) = some (c.rid x))
    (hintact : (t.channels (c.linkId x)).broken = false)
    (hm : c.HoldsMemory locked (t.memories (c.linkId x))) (hr : c.HoldsRouter x e r) :
    c.Becomes x t (e, locked, []) (t.setRouter (c.rid x) r) :=
  ⟨⟨howner, hintact, ⟨r, RouteTables.setRouter_routers_self .., hr⟩, hm⟩,
    ⟨[], (List.append_nil _).symm, .nil⟩⟩

/-- The closures of an end that has closed and has its link. -/
theorem flushClosures_closed (hinfo : c.HoldsInfo x info)
    (hstate : c.buffers.fragment c.state = .ok ()) {locked : Bool}
    (hm : c.HoldsMemory locked (t.memories (c.linkId x)))
    (h : t.routers (c.rid x) =
      some (endRouter (some (c.link x)) messages inbound outbound closed))
    (hfinal : outbound.finalLength = some n) (hn : n ≤ outbound.current) :
    ∃ m, c.HoldsMemory true m ∧
      (flushClosures info (c.rid x) ⟨true, false, false⟩).run t =
        if locked then .ok (none, none, false) (t.setMemory (c.linkId x) m)
        else .ok (some (c.link x, n), none, true) ((t.setMemory (c.linkId x) m).setRouter (c.rid x)
          (endRouter none messages inbound outbound closed)) := by
  obtain ⟨m, hlock, hlocked⟩ := tryLockLinkForClosure_run hinfo hstate hm
  refine ⟨m, hlocked, ?_⟩
  unfold flushClosures
  rw [run_bind_of_ok (getRouter_some _ h), endRouter_closures_closed hfinal hn]
  dsimp only
  rw [run_bind_of_ok (putRouter_run _ _ _), RouteTables.setRouter_self h, run_bind_of_ok hlock]
  cases locked with
  | true => rfl
  | false =>
      have hr : (t.setMemory (c.linkId x) m).routers (c.rid x) =
          some (endRouter (some (c.link x)) messages inbound outbound closed) := h
      show EStateM.run (getRouter (c.rid x) _ >>= _) (t.setMemory (c.linkId x) m) = _
      rw [run_bind_of_ok (getRouter_some _ hr)]
      rfl

theorem holdsRouter_endRouter {e : RouteEnd} {primary : Option Link}
    (hprimary : primary = if e.linked then some (c.link x) else none)
    (hsent : outbound.current = e.sent) (hfinal : outbound.finalLength = e.final)
    (hbuffer : e.linked = true → outbound.buffer = []) (hle : ∀ n ∈ e.final, n ≤ e.sent) :
    c.HoldsRouter x e
      (endRouter primary messages ⟨e.received, e.peerFinal, []⟩ outbound closed) :=
  ⟨messages, outbound, closed, by rw [hprimary], hsent, hfinal, hbuffer, hle⟩

/-- What an end does that has closed and has its link: it tries the lock, and
with the lock gives the link up and tells the other end. -/
theorem settle_closed (flush : Nat → Bool → RouteM Unit) {e : RouteEnd} {locked : Bool}
    (hinfo : c.HoldsInfo x info)
    (hstate : c.buffers.fragment c.state = .ok ()) (hlinked : e.linked = true)
    (hclosed : e.final = some n)
    (h : t.routers (c.rid x) = some (endRouter (some (c.link x)) messages
      ⟨e.received, e.peerFinal, []⟩ outbound closed))
    (hsent : outbound.current = e.sent) (hfinal : outbound.finalLength = e.final)
    (hbuffer : e.linked = true → outbound.buffer = []) (hle : ∀ n ∈ e.final, n ≤ e.sent)
    (howner : t.owners (c.linkId x, c.sublink) = some (c.rid x))
    (hintact : (t.channels (c.linkId x)).broken = false)
    (hm : c.HoldsMemory locked (t.memories (c.linkId x))) :
    ∃ routeClosed dead s r t',
      (flushClosures info (c.rid x) ⟨true, false, false⟩).run t = .ok (routeClosed, none, dead) s ∧
      s.routers (c.rid x) = some r ∧ r.bridge = none ∧
      (finishFlush info flush (c.rid x) false ⟨true, false, false⟩ routeClosed none dead false).run
        s = .ok ⟨⟩ t' ∧
      c.Becomes x t (e.settle locked) t' := by
  have hn : n ≤ outbound.current := hsent ▸ hle n hclosed
  obtain ⟨m, hlocked, hclosures⟩ :=
    flushClosures_closed hinfo hstate hm h (hfinal.trans hclosed) hn
  have hmemory : c.HoldsMemory true (update t.memories (c.linkId x) m (c.linkId x)) := by
    rwa [Function.update_self]
  cases locked with
  -- the other end has the lock: this one waits
  | true =>
      rw [settle_held (.inl (by rw [hclosed]; rfl))]
      refine ⟨_, _, _, _, _, hclosures, h, rfl, finishFlush_quiet _ _, ?_⟩
      refine ⟨⟨howner, hintact, ⟨_, h, ?_⟩, hmemory⟩, ⟨[], (List.append_nil _).symm, .nil⟩⟩
      exact holdsRouter_endRouter (by rw [hlinked]; rfl) hsent hfinal hbuffer hle
  -- the lock is free: the link goes, and the other end is told
  | false =>
      rw [settle_closes hlinked hclosed]
      have hr := RouteTables.setRouter_routers_self (t.setMemory (c.linkId x) m) (c.rid x)
        (endRouter none messages ⟨e.received, e.peerFinal, []⟩ outbound closed)
      have hsend := sendLinkMessageOn_run hinfo
        (t := (t.setMemory (c.linkId x) m).setRouter (c.rid x)
          (endRouter none messages ⟨e.received, e.peerFinal, []⟩ outbound closed))
        hintact (.routeClosed c.sublink n)
      refine ⟨_, _, _, _, ?t', hclosures, hr, rfl, ?finish, ?becomes⟩
      case finish =>
        show EStateM.run ((sendLinkMessageOn info (c.linkId x) (.routeClosed c.sublink n) [] >>=
          fun _ => pure PUnit.unit) >>= fun _ => _) _ = _
        rw [EStateM.run_bind, run_bind_of_ok hsend]
        rfl
      refine ⟨⟨howner, ?_, ⟨_, hr, ?_⟩, hmemory⟩,
        ⟨[((t.channels (c.linkId x)).nextLinkSeq, _, [])], ?_, .cons .closed .nil⟩⟩
      · exact (sendOn_broken ..).trans hintact
      · exact holdsRouter_endRouter (e := { e with linked := false }) rfl hsent hfinal
          (fun hfalse => absurd hfalse Bool.false_ne_true) hle
      · exact sendOn_sent ..

/-- The rest of a flush, once the parcels are on their way, is what the end
does to settle. -/
theorem flush_settles {e : RouteEnd} {locked : Bool}
    {messages₀ : List (List UInt8 × List Object)} {inbound₀ outbound₀ : ParcelQueue}
    (hinfo : c.HoldsInfo x info) (hstate : c.buffers.fragment c.state = .ok ())
    (h : t.routers (c.rid x) = some (endRouter (if e.linked then some (c.link x) else none)
      messages₀ inbound₀ outbound₀ closed))
    (hparcels : (flushParcels info flush (c.rid x)).run t = .ok ⟨⟩ t₁)
    (h₁ : t₁.routers (c.rid x) = some (endRouter (if e.linked then some (c.link x) else none)
      messages inbound outbound closed))
    (hdrain : inbound.drain = (parcels, ⟨e.received, e.peerFinal, []⟩))
    (hsent : outbound.current = e.sent) (hfinal : outbound.finalLength = e.final)
    (hbuffer : e.linked = true → outbound.buffer = []) (hle : ∀ n ∈ e.final, n ≤ e.sent)
    (howner : t₁.owners (c.linkId x, c.sublink) = some (c.rid x))
    (hintact : (t₁.channels (c.linkId x)).broken = false)
    (hm : c.HoldsMemory locked (t₁.memories (c.linkId x))) :
    ∃ t', (routerFlushWith info flush (c.rid x) false).run t = .ok ⟨⟩ t' ∧
      c.Becomes x t₁ (e.settle locked) t' := by
  cases hlinked : e.linked with
  | false =>
      rw [hlinked, if_neg Bool.false_ne_true] at h h₁
      refine ⟨_, flush_rest hinfo.delivers h hparcels h₁ hdrain rfl, ?_⟩
      rw [settle_unlinked hlinked, ite_self]
      exact becomes_setRouter howner hintact hm
        (holdsRouter_endRouter (by rw [hlinked]; rfl) hsent hfinal hbuffer hle)
  | true =>
      rw [hlinked, if_pos rfl] at h h₁
      cases hclosed : e.final with
      | none =>
          have hopen : ((some (c.link x)).any (·.kind.isCentral) &&
              outbound.isSequenceFullyConsumed) = false := by
            rw [ParcelQueue.isSequenceFullyConsumed, hfinal, hclosed]
            rfl
          refine ⟨_, flush_rest hinfo.delivers h hparcels h₁ hdrain hopen, ?_⟩
          rw [settle_open hlinked hclosed]
          refine becomes_setRouter howner hintact hm
            (holdsRouter_endRouter ?_ hsent hfinal (fun _ => hbuffer hlinked) hle)
          rfl
      | some n =>
          obtain ⟨routeClosed, dead, s, r, t', hclosures, hr, hbridge, hfinish, hbecomes⟩ :=
            settle_closed flush hinfo hstate hlinked hclosed
              (RouteTables.setRouter_routers_self t₁ (c.rid x) _) hsent hfinal hbuffer hle howner
              hintact hm
          exact ⟨t', (flush_upToClosures hinfo h hparcels h₁ hdrain hclosures hr hbridge).trans
            hfinish, ⟨hbecomes.holds, hbecomes.sent⟩⟩

end Flush

/-! ### What an end does -/

section Operations

variable {c : CentralLink} {x : LinkSide} {info : NodeInfo} {e : RouteEnd} {locked : Bool}
  {t : RouteTables} {n : Nat}

/-- An end has nothing to send, unless it has lost its link. -/
theorem collect_quiet {outbound : ParcelQueue} (hbuffer : e.linked = true → outbound.buffer = []) :
    outbound.collect ⟨if e.linked then some (c.link x) else none, none⟩ = ([], outbound) := by
  cases hlinked : e.linked with
  | false => exact collect_unlinked outbound
  | true =>
      rw [ParcelQueue.collect, hbuffer hlinked]
      rfl

/-- Flushing an end whose router has changed, with nothing to send. -/
theorem flush_changed (depth : Nat) (messages : List (List UInt8 × List Object))
    (inbound outbound : ParcelQueue) (closed : Bool) {parcels : List Parcel}
    (hinfo : c.HoldsInfo x info) (hstate : c.buffers.fragment c.state = .ok ())
    (hdrain : inbound.drain = (parcels, ⟨e.received, e.peerFinal, []⟩))
    (hsent : outbound.current = e.sent) (hfinal : outbound.finalLength = e.final)
    (hbuffer : e.linked = true → outbound.buffer = []) (hle : ∀ n ∈ e.final, n ≤ e.sent)
    (howner : t.owners (c.linkId x, c.sublink) = some (c.rid x))
    (hintact : (t.channels (c.linkId x)).broken = false)
    (hm : c.HoldsMemory locked (t.memories (c.linkId x))) :
    ∃ t', (do
        putRouter (c.rid x) (endRouter (if e.linked then some (c.link x) else none) messages inbound
          outbound closed)
        routerFlush info (depth + 1) (c.rid x) false : RouteM Unit).run t = .ok ⟨⟩ t' ∧
      c.Becomes x t (e.settle locked) t' := by
  have hr := RouteTables.setRouter_routers_self t (c.rid x) (endRouter
    (if e.linked then some (c.link x) else none) messages inbound outbound closed)
  have hparcels : (flushParcels info (routerFlush info depth) (c.rid x)).run (t.setRouter (c.rid x) _) =
      .ok ⟨⟩ ((t.setRouter (c.rid x) _).setRouter (c.rid x) _) :=
    flushParcels_none hr (endRouter_collect (collect_quiet hbuffer))
  rw [RouteTables.setRouter_setRouter] at hparcels
  obtain ⟨t', hrun, hbecomes⟩ := flush_settles hinfo hstate hr hparcels hr hdrain hsent hfinal
    hbuffer hle howner hintact hm
  refine ⟨t', ?_, ⟨hbecomes.holds, hbecomes.sent⟩⟩
  rw [run_bind_of_ok (putRouter_run _ _ _)]
  exact hrun

theorem end_close (depth : Nat) (hinfo : c.HoldsInfo x info)
    (hstate : c.buffers.fragment c.state = .ok ()) (h : c.HoldsEnd x e locked t) :
    ∃ t', (closeRoute (routerFlush info (depth + 1)) (c.rid x)).run t = .ok ⟨⟩ t' ∧
      c.Becomes x t (e.close locked) t' := by
  obtain ⟨r, hr, messages, outbound, closed, rfl, hsent, hfinal, hbuffer, hle⟩ := h.router
  have hlength : outbound.setFinalSequenceLength outbound.current =
      some { outbound with finalLength := some outbound.current } := if_neg (Nat.lt_irrefl _)
  have hrun : (closeRoute (routerFlush info (depth + 1)) (c.rid x)).run t = (do
      putRouter (c.rid x) (endRouter (if e.linked then some (c.link x) else none) messages
        ⟨e.received, e.peerFinal, []⟩ { outbound with finalLength := some outbound.current } closed)
      routerFlush info (depth + 1) (c.rid x) false : RouteM Unit).run t := by
    unfold closeRoute
    rw [run_bind_of_ok (getRouter_some _ hr)]
    dsimp only [endRouter]
    rw [hlength]
    rfl
  rw [hrun]
  exact flush_changed (e := { e with final := some e.sent }) depth _ _ _ _ hinfo hstate rfl hsent
    (congrArg some hsent) hbuffer (fun n hn => (Option.some.inj hn).ge) h.owner h.intact h.memory

/-- The closure of the other end. -/
theorem end_closed (depth : Nat) (hinfo : c.HoldsInfo x info)
    (hstate : c.buffers.fragment c.state = .ok ()) (h : c.HoldsEnd x e locked t)
    (hlinked : e.linked = true) (hn : e.received ≤ n) :
    ∃ t', (routerRouteClosed (routerFlush info (depth + 1)) (c.rid x) c.sublink n).run t =
        .ok ⟨⟩ t' ∧
      c.Becomes x t (e.receive locked (.closed n)) t' := by
  obtain ⟨r, hr, messages, outbound, closed, rfl, hsent, hfinal, hbuffer, hle⟩ := h.router
  have hnumber : (endRouter (if e.linked then some (c.link x) else none) messages
      ⟨e.received, e.peerFinal, []⟩ outbound closed).outwardHasNumber c.sublink = true := by
    rw [hlinked]
    simp [Router.outwardHasNumber, endRouter, CentralLink.link, Link.remote]
  have hclose : (endRouter (if e.linked then some (c.link x) else none) messages
      ⟨e.received, e.peerFinal, []⟩ outbound closed).closeInbound n =
        some (endRouter (if e.linked then some (c.link x) else none) messages
          ⟨e.received, some n, []⟩ outbound true) := by
    rw [Router.closeInbound]
    dsimp only [endRouter]
    rw [ParcelQueue.setFinalSequenceLength, if_neg (Nat.not_lt.mpr hn)]
    rfl
  rw [closeInbound_run hr hnumber hclose, (receive_linked hlinked n).2]
  exact flush_changed (e := { e with peerFinal := some n }) depth _ _ _ _ hinfo hstate rfl hsent
    hfinal hbuffer hle h.owner h.intact h.memory

/-- Data goes into a block of the link's memory or into the message. -/
theorem fragment_run (hinfo : c.HoldsInfo x info) (hbuffers : c.buffers.WellFormed)
    (h : c.HoldsEnd x e locked t) (data : List UInt8) (useFragment : Bool) :
    ∃ fragment m,
      (if useFragment then writeParcelFragmentOrInline info data (c.linkId x) else pure none).run t =
        .ok fragment (t.setMemory (c.linkId x) m) ∧
      c.HoldsMemory locked m ∧ (fragment.getD .null = .null ∨ c.buffers.IsBlock (fragment.getD .null)) := by
  have hsame : t.setMemory (c.linkId x) (t.memories (c.linkId x)) = t := by
    rw [RouteTables.setMemory, Function.update_eq_self]
  cases useFragment with
  | false => exact ⟨none, _, congrArg (EStateM.Result.ok none) hsame.symm, h.memory, .inl rfl⟩
  | true =>
      rw [if_pos rfl]
      unfold writeParcelFragmentOrInline
      rw [run_bind_of_ok (memoryFor_run hinfo t), run_get_bind]
      cases hwrite : (t.memories (c.linkId x)).writeParcelFragment c.buffers data with
      | none => exact ⟨none, _, congrArg (EStateM.Result.ok none) hsame.symm, h.memory, .inl rfl⟩
      | some r =>
          obtain ⟨block, m⟩ := r
          obtain ⟨hblock, hplaced, hstates⟩ :=
            SharedMemory.writeParcelFragment_placed hbuffers h.memory.placed hwrite
          refine ⟨some block, m, rfl, ⟨hplaced, ?_, ?_⟩, .inr hblock⟩
          · rw [hstates]
            exact h.memory.stable
          · rw [hstates]
            exact h.memory.locked

/-- A parcel without objects goes on its way. -/
theorem transmitParcel_run (flush : Nat → Bool → RouteM Unit) (parcel : Parcel)
    (hinfo : c.HoldsInfo x info) (hintact : (t.channels (c.linkId x)).broken = false)
    (hobjects : parcel.objects = []) :
    (transmitParcel info flush (c.link x) parcel).run t =
      .ok ⟨⟩ (t.sendOn (c.linkId x) (.acceptParcel (encodeParcel c.sublink parcel [] []))) := by
  have hsend := sendLinkMessageOn_run hinfo hintact
    (.acceptParcel (encodeParcel c.sublink parcel [] []))
  show EStateM.run (serializeObjects info (c.linkId x) parcel.objects >>= _) t = _
  rw [hobjects]
  show EStateM.run (sendLinkMessageOn info (c.linkId x)
    (.acceptParcel (encodeParcel c.sublink parcel [] [])) [] >>= _) t = _
  rw [run_bind_of_ok hsend]
  rfl

/-- The operation `put`, once the fragment is chosen. -/
theorem put_run {flush : Nat → Bool → RouteM Unit} {rid : Nat} {r r₀ r' : Router}
    {t t₀ : RouteTables} {fragment : Option FragmentDescriptor} {data : List UInt8}
    {objects : List Object} (hr : t.routers rid = some r)
    (hfragment : (if !data.isEmpty && r.outward.primary.any (!·.isLocal) then
        writeParcelFragmentOrInline info data ((r.outward.primary.map (·.linkId)).getD linkIdBroker)
      else pure none).run t = .ok fragment t₀)
    (hr₀ : t₀.routers rid = some r₀)
    (hpush : r₀.acceptOutbound ⟨r.outbound.current, data, objects, fragment⟩ = some r') :
    (put info flush rid data objects).run t =
      (flush rid false >>= fun _ => pure fragment).run (t₀.setRouter rid r') := by
  unfold put
  rw [run_bind_of_ok (getRouter_some _ hr)]
  dsimp only
  generalize (!data.isEmpty && r.outward.primary.any (!·.isLocal)) = useFragment at hfragment ⊢
  cases useFragment with
  | true =>
      refine (run_bind_of_ok hfragment).trans ((run_bind_of_ok (getRouter_some _ hr₀)).trans ?_)
      rw [hpush]
      exact run_bind_of_ok (putRouter_run _ _ _)
  | false =>
      refine (run_bind_of_ok hfragment).trans ((run_bind_of_ok (getRouter_some _ hr₀)).trans ?_)
      rw [hpush]
      exact run_bind_of_ok (putRouter_run _ _ _)

/-- An end that has lost its link keeps what it is to send. -/
theorem end_put_unlinked (depth : Nat) (hinfo : c.HoldsInfo x info)
    (hstate : c.buffers.fragment c.state = .ok ()) (h : c.HoldsEnd x e locked t)
    (hlinked : e.linked = false) (data : List UInt8) :
    ∃ fragment t', (put info (routerFlush info (depth + 1)) (c.rid x) data []).run t =
        .ok fragment t' ∧
      c.Becomes x t (e.put locked) t' := by
  obtain ⟨r, hr, messages, outbound, closed, rfl, hsent, hfinal, hbuffer, hle⟩ := h.router
  obtain ⟨t', hrun, hbecomes⟩ := flush_changed depth messages ⟨e.received, e.peerFinal, []⟩
    { outbound with
      buffer := ParcelMap.insert ⟨outbound.current, data, [], none⟩ outbound.buffer } closed
    hinfo hstate rfl hsent hfinal (fun hfalse => absurd hfalse (by rw [hlinked]; decide)) hle
    h.owner h.intact h.memory
  rw [run_bind_of_ok (putRouter_run _ _ _)] at hrun
  rw [put_unlinked hlinked]
  rw [settle_unlinked hlinked] at hbecomes
  refine ⟨none, t', ?_, hbecomes⟩
  have hnone : (endRouter (if e.linked then some (c.link x) else none) messages
      ⟨e.received, e.peerFinal, []⟩ outbound closed).outward.primary = none := by
    rw [hlinked]
    rfl
  have hfragment : (!data.isEmpty && (endRouter (if e.linked then some (c.link x) else none)
      messages ⟨e.received, e.peerFinal, []⟩ outbound closed).outward.primary.any
        (!·.isLocal)) = false := by
    rw [hnone, Option.any_none, Bool.and_false]
  refine (put_run hr (by rw [hfragment]; rfl) hr
    (congrArg (Option.map _) (if_neg (Nat.lt_irrefl _)))).trans ?_
  exact run_bind_of_ok hrun

/-- An end with its link sends. -/
theorem end_put_linked (depth : Nat) (hinfo : c.HoldsInfo x info)
    (hstate : c.buffers.fragment c.state = .ok ()) (hbuffers : c.buffers.WellFormed)
    (h : c.HoldsEnd x e locked t) (hlinked : e.linked = true) (data : List UInt8) :
    ∃ fragment t', (put info (routerFlush info (depth + 1)) (c.rid x) data []).run t =
        .ok fragment t' ∧
      c.Becomes x t (e.put locked) t' := by
  obtain ⟨fragment, m, hfragment, hm, hblock⟩ := fragment_run hinfo hbuffers h data (!data.isEmpty)
  obtain ⟨r, hr, messages, ⟨sent, final, buffer⟩, closed, rfl, rfl, rfl, hbuffer, hle⟩ := h.router
  obtain rfl := hbuffer hlinked
  rw [hlinked, if_pos rfl] at hr
  let inbound : ParcelQueue := ⟨e.received, e.peerFinal, []⟩
  let parcel : Parcel := ⟨e.sent, data, [], fragment⟩
  -- the router with the parcel and after it
  let holding := endRouter (some (c.link x)) messages inbound ⟨e.sent, e.final, [parcel]⟩ closed
  let emptied := endRouter (some (c.link x)) messages inbound ⟨e.sent + 1, e.final, []⟩ closed
  let t₀ := t.setMemory (c.linkId x) m
  have hholding := RouteTables.setRouter_routers_self t₀ (c.rid x) holding
  have hemptied := RouteTables.setRouter_routers_self t₀ (c.rid x) emptied
  have hcollect : holding.collectToFlush = ([(c.link x, parcel)], [], emptied) :=
    endRouter_collect (collect_next rfl)
  have hsend := transmitParcel_run (t := t₀.setRouter (c.rid x) emptied) (routerFlush info depth)
    parcel hinfo h.intact rfl
  let gone := (t₀.setRouter (c.rid x) emptied).sendOn (c.linkId x)
    (.acceptParcel (encodeParcel c.sublink parcel [] []))
  have hparcels : (flushParcels info (routerFlush info depth) (c.rid x)).run
      (t₀.setRouter (c.rid x) holding) = .ok ⟨⟩ gone := by
    rw [flushParcels_run hholding hcollect, RouteTables.setRouter_setRouter]
    exact run_bind_of_ok hsend
  have hprimary : some (c.link x) = (if e.linked then some (c.link x) else none) := by
    rw [hlinked]
    rfl
  have hmemory : c.HoldsMemory locked (gone.memories (c.linkId x)) := by
    show c.HoldsMemory locked (update t.memories (c.linkId x) m (c.linkId x))
    rwa [Function.update_self]
  have hdrain : inbound.drain = ([], inbound) := rfl
  have hfrom : (t₀.setRouter (c.rid x) holding).routers (c.rid x) =
      some (endRouter (if e.linked then some (c.link x) else none) messages inbound
        ⟨e.sent, e.final, [parcel]⟩ closed) := by rw [hholding, ← hprimary]
  have hto : gone.routers (c.rid x) =
      some (endRouter (if e.linked then some (c.link x) else none) messages inbound
        ⟨e.sent + 1, e.final, []⟩ closed) := by
    rw [← hprimary]
    exact hemptied
  obtain ⟨t', hflush, hbecomes⟩ := flush_settles (e := { e with sent := e.sent + 1 }) hinfo hstate
    hfrom hparcels hto hdrain rfl rfl (fun _ => rfl)
    (fun n hn => Nat.le_succ_of_le (hle n hn)) h.owner ((sendOn_broken ..).trans h.intact) hmemory
  refine ⟨fragment, t', ?_, ?_⟩
  · have hpush : (endRouter (some (c.link x)) messages inbound ⟨e.sent, e.final, []⟩ closed
        ).acceptOutbound parcel = some holding := congrArg (Option.map _) (push_next rfl)
    have hr₀ : t₀.routers (c.rid x) =
        some (endRouter (some (c.link x)) messages inbound ⟨e.sent, e.final, []⟩ closed) := hr
    refine (put_run hr ?_ hr₀ hpush).trans (run_bind_of_ok hflush)
    rw [← hfragment]
    cases data.isEmpty <;> rfl
  · rw [RouteEnd.put, if_pos hlinked]
    obtain ⟨added, hadded, hcarries⟩ := hbecomes.sent
    have hsent : (t'.channels (c.linkId x)).sent = (t.channels (c.linkId x)).sent ++
        ((t.channels (c.linkId x)).nextLinkSeq,
          .acceptParcel (encodeParcel c.sublink parcel [] []), []) :: added := by
      rw [hadded, sendOn_sent, List.append_assoc]
      rfl
    exact ⟨hbecomes.holds, ⟨_, hsent, .cons (.parcel hblock) hcarries⟩⟩

/-- An end puts a parcel. -/
theorem end_put (depth : Nat) (hinfo : c.HoldsInfo x info)
    (hstate : c.buffers.fragment c.state = .ok ()) (hbuffers : c.buffers.WellFormed)
    (h : c.HoldsEnd x e locked t) (data : List UInt8) :
    ∃ fragment t', (put info (routerFlush info (depth + 1)) (c.rid x) data []).run t =
        .ok fragment t' ∧
      c.Becomes x t (e.put locked) t' := by
  cases hlinked : e.linked with
  | false => exact end_put_unlinked depth hinfo hstate h hlinked data
  | true => exact end_put_linked depth hinfo hstate hbuffers h hlinked data

end Operations

/-! ### What comes to an end -/

section Arrivals

variable {c : CentralLink} {x : LinkSide} {e : RouteEnd} {locked : Bool} {s : RoutingAcceptor}
  {n : Nat}

/-- A parcel of the route over sublink `sublink`. -/
def routeParcelMessage (sublink n : Nat) (fragment : FragmentDescriptor) (data : List UInt8) :
    ParcelMessage :=
  ⟨sublink, n, 0, 1, fragment, data, [], [], []⟩

/-- The data of a parcel is there. -/
theorem parcelData_ok {memories : Nat → SharedMemory} (hinfo : c.HoldsInfo x s.info)
    (hm : (memories (c.linkId x)).Placed c.buffers) {fragment : FragmentDescriptor}
    (hfragment : fragment = .null ∨ c.buffers.IsBlock fragment) (data : List UInt8) :
    ∃ payload, parcelData s.info memories (routeParcelMessage c.sublink n fragment data)
      (c.linkId x) = .ok payload := by
  obtain ⟨name, hlink⟩ := hinfo.link
  rw [parcelData]
  cases hnull : fragment.isNull with
  | true => exact ⟨data, if_pos hnull⟩
  | false =>
      obtain rfl | hblock := hfragment
      · cases hnull
      · refine ⟨(memories (c.linkId x)).parcels fragment.key, ?_⟩
        show (if fragment.isNull = true then _ else _) = _
        rw [hnull, registryFor, hlink]
        show Except.mapError _ (SharedMemory.readParcelFragment _ _ fragment) = _
        rw [SharedMemory.readParcelFragment_block hm hblock]
        rfl

/-- A parcel whose data is there and that brings nothing else is routed. -/
theorem dispatch_parcel (depth : Nat) {fragment : FragmentDescriptor} {data payload : List UInt8}
    (hpayload : parcelData s.info s.tables.memories (routeParcelMessage c.sublink n fragment data)
      (c.linkId x) = .ok payload) :
    (dispatch (depth + 1) (.acceptParcel (routeParcelMessage c.sublink n fragment data)) []
        (c.linkId x)).run s =
      (routeParcel (fun info => routerFlush info depth)
        (routeParcelMessage c.sublink n fragment data) (c.linkId x) payload []).run s := by
  have hrun : (processAcceptParcel (depth + 1) (routeParcelMessage c.sublink n fragment data) []
        (c.linkId x)).run s =
      (routeParcel (fun info => routerFlush info depth)
          (routeParcelMessage c.sublink n fragment data) (c.linkId x) payload [] >>=
        fun _ => pure (⟨payload, []⟩ : ProcessedParcel)).run s := by
    show EStateM.run (processAcceptParcelWith _ _ _ _ _) s = _
    unfold processAcceptParcelWith
    dsimp only [routeParcelMessage] at hpayload ⊢
    show EStateM.run (get >>= fun s => _) s = _
    rw [run_get_bind, hpayload]
    rfl
  show EStateM.run (processAcceptParcel _ _ _ _ >>= fun _ => pure PUnit.unit) s = _
  rw [EStateM.run_bind, hrun, EStateM.run_bind]
  cases EStateM.run (routeParcel (fun info => routerFlush info depth)
    (routeParcelMessage c.sublink n fragment data) (c.linkId x) payload []) s with
  | ok a s' => rfl
  | error e s' => rfl

/-- A parcel comes to an end.  One that has lost its link refuses it. -/
theorem end_parcel (depth : Nat) (hinfo : c.HoldsInfo x s.info)
    (hstate : c.buffers.fragment c.state = .ok ()) (h : c.HoldsEnd x e locked s.tables)
    (hn : e.linked = true → n = e.received)
    {fragment : FragmentDescriptor} (hfragment : fragment = .null ∨ c.buffers.IsBlock fragment)
    (data : List UInt8) :
    ∃ t', endState ((dispatch (depth + 2)
        (.acceptParcel (routeParcelMessage c.sublink n fragment data)) [] (c.linkId x)).run s) =
          { s with tables := t' } ∧
      c.Becomes x s.tables (e.receive locked (.parcel n)) t' := by
  obtain ⟨payload, hpayload⟩ := parcelData_ok (n := n) hinfo h.memory.placed hfragment data
  obtain ⟨r, hr, messages, outbound, closed, rfl, hsent, hfinal, hbuffer, hle⟩ := h.router
  rw [dispatch_parcel (depth + 1) hpayload]
  cases hlinked : e.linked with
  -- the router has no edge on this link, the parcel is refused
  | false =>
      rw [hlinked] at hr
      have hrefused : (acceptAt (c.rid x) (c.linkId x)
            (routeParcelMessage c.sublink n fragment data) payload []).run s.tables =
          .error (.badParcel "parcel for unbound sublink") s.tables :=
        acceptUnbound_run hr rfl rfl
      have hrun : endState ((routeParcel (fun info => routerFlush info (depth + 1))
          (routeParcelMessage c.sublink n fragment data) (c.linkId x) payload []).run s) = s := by
        unfold routeParcel
        rw [run_get_bind]
        dsimp only [routeParcelMessage]
        rw [h.owner]
        dsimp only
        rw [EStateM.run_bind, inTables_of_error hrefused]
        rfl
      refine ⟨s.tables, hrun, ?_⟩
      rw [receive_unlinked hlinked]
      exact ⟨h, ⟨[], (List.append_nil _).symm, .nil⟩⟩
  -- the parcel is the next one, so it goes through the queue to the portal
  | true =>
      obtain rfl := hn hlinked
      rw [hlinked, if_pos rfl] at hr
      let inbound : ParcelQueue := ⟨e.received, e.peerFinal, []⟩
      have hon : (endRouter (some (c.link x)) messages inbound outbound closed).outward.on
          (c.linkId x) c.sublink = true := by
        simp [Edge.on, endRouter, CentralLink.link, Link.remote, Link.on]
      have haccept : (endRouter (some (c.link x)) messages inbound outbound closed).acceptInbound
            ⟨e.received, payload, [], none⟩ =
          some (endRouter (some (c.link x)) messages ⟨e.received, e.peerFinal,
            [⟨e.received, payload, [], none⟩]⟩ outbound closed) :=
        congrArg (Option.map _) (push_next rfl)
      have hroute := routeParcel_run (depth + 1) h.owner (acceptInbound_run
        (p := routeParcelMessage c.sublink e.received fragment data) hr hon haccept)
      obtain ⟨t', hflush, hbecomes⟩ := flush_changed (e := { e with received := e.received + 1 })
        depth messages ⟨e.received, e.peerFinal, [⟨e.received, payload, [], none⟩]⟩ outbound closed
        hinfo hstate (drain_next rfl) hsent hfinal hbuffer hle h.owner h.intact h.memory
      refine ⟨t', ?_, ?_⟩
      · rw [hroute]
        have hprimary : (if e.linked then some (c.link x) else none) = some (c.link x) := by
          rw [hlinked]
          rfl
        dsimp only at hflush
        rw [hprimary] at hflush
        rw [RoutingAcceptor.replaceAndFlush, inTables_of_ok hflush]
        rfl
      · rw [(receive_linked hlinked e.received).1]
        exact ⟨hbecomes.holds, hbecomes.sent⟩

/-- The closure of the other end comes to an end with its link. -/
theorem end_routeClosed (depth : Nat) (hinfo : c.HoldsInfo x s.info)
    (hstate : c.buffers.fragment c.state = .ok ()) (h : c.HoldsEnd x e locked s.tables)
    (hlinked : e.linked = true) (hn : e.received ≤ n) :
    ∃ t', endState ((dispatch (depth + 1) (.routeClosed c.sublink n) [] (c.linkId x)).run s) =
          { s with tables := t' } ∧
      c.Becomes x s.tables (e.receive locked (.closed n)) t' := by
  obtain ⟨t', hrun, hbecomes⟩ := end_closed depth hinfo hstate h hlinked hn
  refine ⟨t', ?_, hbecomes⟩
  rw [dispatch_routeClosed h.owner, inTables_of_ok hrun]
  rfl

end Arrivals

/-! ### The two nodes -/

/-- The nodes, and how many messages of the link each of them has taken. -/
structure JoinedNodes where
  node : LinkSide → RoutingAcceptor
  received : LinkSide → Nat

/-- What the two nodes do. -/
inductive JoinedOp
  | put (x : LinkSide) (data : List UInt8)
  | close (x : LinkSide)
  | deliver (x : LinkSide)
  deriving DecidableEq, Repr

/-- What it does to the route. -/
def JoinedOp.move : JoinedOp → Move
  | .put x _ => .put x
  | .close x => .close x
  | .deliver x => .deliver x

namespace JoinedNodes

variable (c : CentralLink)

/-- What is on its way to end `x`. -/
def inFlight (s : JoinedNodes) (x : LinkSide) : List (Nat × RouteMessage × List OwnedFd) :=
  ((s.node x.opposite).tables.channels (c.linkId x.opposite)).sent.drop (s.received x)

/-- A node has worked.  The other one sees what happened in the memory of the
link. -/
def runAt (s : JoinedNodes) (x : LinkSide) (n : RoutingAcceptor) : JoinedNodes :=
  let other := s.node x.opposite
  let shared := { other with
    tables := other.tables.setMemory (c.linkId x.opposite) (n.tables.memories (c.linkId x)) }
  { s with node := update (update s.node x n) x.opposite shared }

/-- End `x` takes a message. -/
def takes (s : JoinedNodes) (x : LinkSide) : JoinedNodes :=
  { s with received := update s.received x (s.received x + 1) }

/-- The next message comes to end `x`. -/
def deliver (depth : Nat) (s : JoinedNodes) (x : LinkSide) : JoinedNodes :=
  match s.inFlight c x with
  | [] => s
  | (_, msg, fds) :: _ =>
      (s.takes x).runAt c x (endState ((dispatch depth msg fds (c.linkId x)).run (s.node x)))

/-- One step, with flushes nested at most `depth` deep. -/
def step (depth : Nat) (s : JoinedNodes) : JoinedOp → JoinedNodes
  | .put x data => s.runAt c x (endState ((inTables fun info =>
      Ipcz.put info (routerFlush info depth) (c.rid x) data []).run (s.node x)))
  | .close x => s.runAt c x (endState ((inTables fun info =>
      closeRoute (routerFlush info depth) (c.rid x)).run (s.node x)))
  | .deliver x => s.deliver c depth x

/-- No end closes while the closure of the other one is on its way. -/
def NotCrossing (s : JoinedNodes) : JoinedOp → Prop
  | .close x => ∀ m ∈ s.inFlight c x, ∀ n, m.2.1 ≠ .routeClosed c.sublink n
  | _ => True

/-- The terminal router of end `x` holds no outward link. -/
def Released (s : JoinedNodes) (x : LinkSide) : Prop :=
  ∃ r, (s.node x).tables.routers (c.rid x) = some r ∧
    r.outward.primary = none ∧ r.outward.decayingLink = none

/-- Two nodes joined by the link, both sides stable, with nothing on its way.
Each end has sent some parcels. -/
structure Joined (sent : LinkSide → Nat) (s : JoinedNodes) : Prop where
  state : c.buffers.fragment c.state = .ok ()
  buffers : c.buffers.WellFormed
  info : ∀ x, c.HoldsInfo x (s.node x).info
  ends : ∀ x, c.HoldsEnd x ⟨true, sent x, sent x.opposite, none, none⟩ false (s.node x).tables
  shared : ∀ x, (s.node x.opposite).tables.memories (c.linkId x.opposite) =
    (s.node x).tables.memories (c.linkId x)
  received : ∀ x, s.received x =
    ((s.node x.opposite).tables.channels (c.linkId x.opposite)).sent.length

/-- The nodes are where the route is. -/
structure Simulates (t : Route) (s : JoinedNodes) : Prop where
  info : ∀ x, c.HoldsInfo x (s.node x).info
  ends : ∀ x, c.HoldsEnd x (t.ends x) t.locked (s.node x).tables
  received : ∀ x, s.received x ≤
    ((s.node x.opposite).tables.channels (c.linkId x.opposite)).sent.length
  wire : ∀ x, List.Forall₂ c.Carries (t.wire x) (s.inFlight c x)

end JoinedNodes

section Nodes

variable {c : CentralLink} {t : Route} {s : JoinedNodes} {x : LinkSide} {n : RoutingAcceptor}

@[simp] theorem runAt_self (s : JoinedNodes) (x : LinkSide) (n : RoutingAcceptor) :
    (s.runAt c x n).node x = n := by
  simp [JoinedNodes.runAt, x.opposite_ne.symm]

@[simp] theorem runAt_opposite (s : JoinedNodes) (x : LinkSide) (n : RoutingAcceptor) :
    (s.runAt c x n).node x.opposite =
      { s.node x.opposite with
        tables := (s.node x.opposite).tables.setMemory (c.linkId x.opposite)
          (n.tables.memories (c.linkId x)) } :=
  Function.update_self ..

@[simp] theorem runAt_received (s : JoinedNodes) (x : LinkSide) (n : RoutingAcceptor) :
    (s.runAt c x n).received = s.received := rfl

/-- What is on its way to the node that works does not change. -/
theorem inFlight_runAt_self (s : JoinedNodes) (x : LinkSide) (n : RoutingAcceptor) :
    (s.runAt c x n).inFlight c x = s.inFlight c x := by
  rw [JoinedNodes.inFlight, runAt_opposite]
  rfl

/-- What it sends is on its way to the other one. -/
theorem inFlight_runAt_opposite {added : List (Nat × RouteMessage × List OwnedFd)}
    (hreceived : s.received x.opposite ≤
      ((s.node x).tables.channels (c.linkId x)).sent.length)
    (hsent : (n.tables.channels (c.linkId x)).sent =
      ((s.node x).tables.channels (c.linkId x)).sent ++ added) :
    (s.runAt c x n).inFlight c x.opposite = s.inFlight c x.opposite ++ added := by
  rw [JoinedNodes.inFlight, JoinedNodes.inFlight, LinkSide.opposite_opposite, runAt_self, hsent]
  exact List.drop_append_of_le_length hreceived

/-- An end that has lost its link holds none. -/
theorem released_iff_unlinked {e : RouteEnd} {locked : Bool}
    (h : c.HoldsEnd x e locked (s.node x).tables) : s.Released c x ↔ e.linked = false := by
  obtain ⟨r, hr, messages, outbound, closed, rfl, -⟩ := h.router
  constructor
  · rintro ⟨r', hr', hprimary, -⟩
    obtain rfl := Option.some.inj (hr.symm.trans hr')
    cases hlinked : e.linked with
    | false => rfl
    | true =>
        rw [hlinked] at hprimary
        cases hprimary
  · intro hlinked
    refine ⟨_, hr, ?_, rfl⟩
    rw [hlinked]
    rfl

namespace JoinedNodes.Simulates

/-- An end has done what the route does. -/
theorem runAt (h : s.Simulates c t) {r : RouteEnd × Bool × List Msg} {tables : RouteTables}
    (hbecomes : c.Becomes x (s.node x).tables r tables) :
    (s.runAt c x { s.node x with tables }).Simulates c (t.apply x r) := by
  obtain ⟨added, hsent, hcarries⟩ := hbecomes.sent
  have hreceived := h.received x.opposite
  have hwire := h.wire x.opposite
  rw [LinkSide.opposite_opposite] at hreceived
  constructor
  all_goals rw [LinkSide.forall_iff x]
  · rw [runAt_self, runAt_opposite]
    exact ⟨h.info x, h.info x.opposite⟩
  · rw [runAt_self, runAt_opposite, apply_self, apply_opposite, apply_locked]
    obtain ⟨howner, hintact, hrouter, -⟩ := h.ends x.opposite
    refine ⟨hbecomes.holds, howner, hintact, hrouter, ?_⟩
    show c.HoldsMemory r.2.1 (update (s.node x.opposite).tables.memories (c.linkId x.opposite)
      (tables.memories (c.linkId x)) (c.linkId x.opposite))
    rw [Function.update_self]
    exact hbecomes.holds.memory
  · rw [LinkSide.opposite_opposite, runAt_self, runAt_opposite, runAt_received]
    refine ⟨h.received x, ?_⟩
    show _ ≤ (tables.channels (c.linkId x)).sent.length
    rw [hsent, List.length_append]
    exact Nat.le_add_right_of_le hreceived
  · rw [inFlight_runAt_self, inFlight_runAt_opposite hreceived hsent, apply_wire, apply_wire_self]
    exact ⟨h.wire x, List.rel_append hwire hcarries⟩

/-- An end has taken the next message. -/
theorem takes (h : s.Simulates c t) {m : Msg} {ms : List Msg} (hwire : t.wire x = m :: ms)
    {message : Nat × RouteMessage × List OwnedFd}
    {messages : List (Nat × RouteMessage × List OwnedFd)}
    (hflight : s.inFlight c x = message :: messages) :
    (s.takes x).Simulates c (t.setWire x ms) := by
  have hlt : s.received x <
      ((s.node x.opposite).tables.channels (c.linkId x.opposite)).sent.length := by
    by_contra hle
    have hnil := List.drop_eq_nil_iff.mpr (Nat.le_of_not_lt hle)
    rw [JoinedNodes.inFlight, hnil] at hflight
    cases hflight
  have htail : (s.takes x).inFlight c x = messages := by
    show List.drop (update s.received x (s.received x + 1) x) _ = _
    rw [Function.update_self, ← List.tail_drop]
    exact congrArg List.tail hflight
  have hopposite : (s.takes x).inFlight c x.opposite = s.inFlight c x.opposite := by
    show List.drop (update s.received x (s.received x + 1) x.opposite) _ = _
    rw [Function.update_of_ne x.opposite_ne]
    rfl
  have hcarries := h.wire x
  rw [hwire, hflight] at hcarries
  refine ⟨h.info, h.ends, ?_, ?_⟩
  all_goals rw [LinkSide.forall_iff x]
  · refine ⟨?_, ?_⟩
    · show update s.received x (s.received x + 1) x ≤ _
      rw [Function.update_self]
      exact hlt
    · show update s.received x (s.received x + 1) x.opposite ≤ _
      rw [Function.update_of_ne x.opposite_ne]
      exact h.received x.opposite
  · rw [htail, hopposite, setWire_self, setWire_opposite]
    exact ⟨(List.forall₂_cons.mp hcarries).2, h.wire x.opposite⟩

/-- What an end does with the message that comes to it. -/
theorem arrives (h : s.Simulates c t) (hstate : c.buffers.fragment c.state = .ok ())
    (hphase : Sound t ∨ Crossed t) {m : Msg} {ms : List Msg} (hwire : t.wire x = m :: ms)
    {seq : Nat} {msg : RouteMessage} {fds : List OwnedFd} (hcarries : c.Carries m (seq, msg, fds))
    (depth : Nat) :
    ∃ tables, endState ((dispatch (depth + 2) msg fds (c.linkId x)).run (s.node x)) =
        { s.node x with tables } ∧
      c.Becomes x (s.node x).tables ((t.ends x).receive t.locked m) tables := by
  cases hcarries with
  | parcel hfragment =>
      exact end_parcel depth (h.info x) hstate (h.ends x)
        (fun hlinked => parcel_head hphase hlinked hwire) hfragment _
  | closed =>
      obtain ⟨hlinked, hle⟩ := closed_head hphase hwire
      exact end_routeClosed (depth + 1) (h.info x) hstate (h.ends x) hlinked hle

/-- A step of the nodes is a move of the route. -/
theorem step (h : s.Simulates c t) (hstate : c.buffers.fragment c.state = .ok ())
    (hbuffers : c.buffers.WellFormed) (hphase : Sound t ∨ Crossed t) (depth : Nat)
    (op : JoinedOp) : (s.step c (depth + 2) op).Simulates c (t.step op.move) := by
  cases op with
  | put x data =>
      obtain ⟨fragment, tables, hrun, hbecomes⟩ :=
        end_put (depth + 1) (h.info x) hstate hbuffers (h.ends x) data
      show (s.runAt c x (endState _)).Simulates c (t.put x)
      rw [inTables_of_ok hrun]
      exact h.runAt hbecomes
  | close x =>
      obtain ⟨tables, hrun, hbecomes⟩ :=
        end_close (depth + 1) (h.info x) hstate (h.ends x)
      show (s.runAt c x (endState _)).Simulates c (t.close x)
      rw [inTables_of_ok hrun]
      exact h.runAt hbecomes
  | deliver x =>
      show (s.deliver c (depth + 2) x).Simulates c (t.deliver x)
      have hwires := h.wire x
      unfold JoinedNodes.deliver
      cases hwire : t.wire x with
      | nil =>
          rw [hwire, List.forall₂_nil_left_iff] at hwires
          rw [deliver_nil hwire, hwires]
          exact h
      | cons m ms =>
          rw [hwire] at hwires
          obtain ⟨⟨seq, msg, fds⟩, messages, hcarries, -, hflight⟩ :=
            List.forall₂_cons_left_iff.mp hwires
          obtain ⟨tables, hrun, hbecomes⟩ := h.arrives hstate hphase hwire hcarries depth
          rw [deliver_cons hwire, hflight]
          dsimp only
          rw [hrun]
          exact (h.takes hwire hflight).runAt hbecomes

/-- The closure is on its way over the link if it is on its way in the route. -/
theorem notCrossing_iff (h : s.Simulates c t) (op : JoinedOp) :
    s.NotCrossing c op ↔ Teardown.NotCrossing t op.move := by
  have hwire {x : LinkSide} {ms : List Msg} {messages : List (Nat × RouteMessage × List OwnedFd)}
      (hcarries : List.Forall₂ c.Carries ms messages) :
      (∀ m ∈ messages, ∀ n, m.2.1 ≠ .routeClosed c.sublink n) ↔ ∀ n, Msg.closed n ∉ ms := by
    induction hcarries with
    | nil => simp
    | cons hm _ ih =>
        rw [List.forall_mem_cons, ih]
        cases hm with
        | parcel => simp
        | @closed n seq =>
            exact iff_of_false (fun h => h.1 n rfl) fun h => h n List.mem_cons_self
  cases op with
  | put x data => exact Iff.rfl
  | close x => exact hwire (x := x) (h.wire x)
  | deliver x => exact Iff.rfl

theorem exec (h : s.Simulates c t) (hstate : c.buffers.fragment c.state = .ok ())
    (hbuffers : c.buffers.WellFormed) (hphase : Sound t ∨ Crossed t) (depth : Nat)
    (ops : List JoinedOp) :
    (Lib.exec (JoinedNodes.step c (depth + 2)) s ops).Simulates c
        (Lib.exec Route.step t (ops.map JoinedOp.move)) ∧
      (Meets (JoinedNodes.step c (depth + 2)) (JoinedNodes.NotCrossing c) s ops ↔
        Meets Route.step Teardown.NotCrossing t (ops.map JoinedOp.move)) := by
  induction ops generalizing s t with
  | nil => exact ⟨h, Iff.rfl⟩
  | cons op ops ih =>
      obtain ⟨hrun, hmeets⟩ :=
        ih (h.step hstate hbuffers hphase depth op) (phase_step hphase op.move)
      exact ⟨hrun, and_congr (h.notCrossing_iff op) hmeets⟩

end JoinedNodes.Simulates

/-- Where the nodes begin. -/
def openRoute (sent : LinkSide → Nat) : Route where
  ends x := ⟨true, sent x, sent x.opposite, none, none⟩
  locked := false
  wire _ := []

theorem openRoute_open (sent : LinkSide → Nat) : Open (openRoute sent) where
  linked _ := rfl
  final _ := rfl
  peerFinal _ := rfl
  unlocked := rfl
  order _ := le_rfl
  wire x := (between_self (sent x.opposite)).symm

theorem JoinedNodes.Joined.simulates {sent : LinkSide → Nat} (h : s.Joined c sent) :
    s.Simulates c (openRoute sent) := by
  refine ⟨h.info, h.ends, fun x => (h.received x).le, fun x => ?_⟩
  rw [inFlight, List.drop_eq_nil_iff.mpr (h.received x).ge]
  exact .nil

/-- A run of the nodes is a run of a route. -/
theorem joined_simulates {sent : LinkSide → Nat} (h : s.Joined c sent) (depth : Nat)
    (ops : List JoinedOp) :
    (exec (JoinedNodes.step c (depth + 2)) s ops).Simulates c
        (exec Route.step (openRoute sent) (ops.map JoinedOp.move)) ∧
      (Meets (JoinedNodes.step c (depth + 2)) (JoinedNodes.NotCrossing c) s ops ↔
        Meets Route.step Teardown.NotCrossing (openRoute sent) (ops.map JoinedOp.move)) :=
  h.simulates.exec h.state h.buffers (.inl (.open (openRoute_open sent))) depth ops

/-- Once both ends have closed and nothing is on its way, neither terminal
router holds an outward link exactly if the closures did not cross. -/
theorem released_iff (c : CentralLink) (sent : LinkSide → Nat) (s : JoinedNodes)
    (h : s.Joined c sent) (depth : Nat) (ops : List JoinedOp)
    (hclosed : ∀ x, JoinedOp.close x ∈ ops)
    (hquiet : ∀ x, (exec (JoinedNodes.step c (depth + 2)) s ops).inFlight c x = []) :
    (∀ x, (exec (JoinedNodes.step c (depth + 2)) s ops).Released c x) ↔
      Meets (JoinedNodes.step c (depth + 2)) (JoinedNodes.NotCrossing c) s ops := by
  obtain ⟨hsimulates, hmeets⟩ := joined_simulates h depth ops
  have hwire (x : LinkSide) :
      (exec Route.step (openRoute sent) (ops.map JoinedOp.move)).wire x = [] := by
    have hcarries := hsimulates.wire x
    rwa [hquiet, List.forall₂_nil_right_iff] at hcarries
  rw [hmeets, ← unlinked_iff (openRoute_open sent)
    (fun x => List.mem_map_of_mem (f := JoinedOp.move) (hclosed x)) hwire]
  exact forall_congr' fun x => released_iff_unlinked (hsimulates.ends x)

end Nodes

/-! ### Two fresh nodes -/

/-- The link of the first initial portal. -/
def initialLink : CentralLink where
  rid _ := 0
  linkId _ := linkIdBroker
  sublink := 0
  state := ⟨primaryBufferId, 0x100, 64⟩
  buffers := .empty

/-- Its memory, both sides stable. -/
def stableMemory : SharedMemory :=
  SharedMemory.fresh.setState initialLink.state
    { LinkState.fresh with status := { LinkStatus.unstable with stable := fun _ => true } }

/-- A node with one end of the route. -/
def initialNode (x : LinkSide) : RoutingAcceptor :=
  { RoutingAcceptor.fresh [linkIdBroker] with
    tables := ((RouteTables.fresh.setOwner (linkIdBroker, 0) 0).setRouter 0
      (endRouter (some (initialLink.link x)) [] ⟨0, none, []⟩ ⟨0, none, []⟩ false)).setMemory
        linkIdBroker stableMemory }

/-- Two nodes joined by a route. -/
def initialNodes : JoinedNodes := ⟨initialNode, fun _ => 0⟩

theorem initialNodes_joined : initialNodes.Joined initialLink fun _ => 0 where
  state := rfl
  buffers := by
    constructor
    all_goals
      intro id e h
      cases h
  info _ := ⟨rfl, .invalid, rfl⟩
  ends x := by
    refine ⟨rfl, rfl, ⟨_, rfl, ?_⟩, ⟨?_, fun y => rfl, ?_⟩⟩
    · apply holdsRouter_endRouter (e := ⟨true, 0, 0, none, none⟩) rfl rfl rfl fun _ => rfl
      intro n hn
      cases hn
    · exact ⟨SharedMemory.fresh_placed.free, SharedMemory.fresh_placed.fits⟩
    · apply iff_of_false
      · rintro ⟨y, hy⟩
        cases hy
      · exact Bool.false_ne_true
  shared _ := rfl
  received _ := rfl

/-- One end closes, the other one learns of it and then closes. -/
def orderlyClosures : List JoinedOp := [.close .a, .deliver .b, .close .b]

/-- Both ends close before either learns of it. -/
def crossingClosures : List JoinedOp := [.close .a, .close .b, .deliver .b]

/-- Where such a run comes to. -/
theorem initialNodes_quiet {ops : List JoinedOp}
    (h : ∀ x, (exec Route.step (openRoute fun _ => 0) (ops.map JoinedOp.move)).wire x = [])
    (x : LinkSide) :
    (exec (JoinedNodes.step initialLink 2) initialNodes ops).inFlight initialLink x = [] := by
  have hwire := (joined_simulates initialNodes_joined 0 ops).1.wire x
  rwa [h, List.forall₂_nil_left_iff] at hwire

theorem orderly_released :
    let nodes := exec (JoinedNodes.step initialLink 2) initialNodes orderlyClosures
    nodes.Released initialLink .a ∧ nodes.Released initialLink .b := by
  have hreleased := (released_iff initialLink (fun _ => 0) initialNodes initialNodes_joined 0
    orderlyClosures (by decide) (initialNodes_quiet (by decide))).mpr (by
      rw [(joined_simulates initialNodes_joined 0 orderlyClosures).2]
      -- nothing is on its way to an end that closes
      exact ⟨fun n => List.not_mem_nil, trivial, fun n => List.not_mem_nil, trivial⟩)
  exact ⟨hreleased .a, hreleased .b⟩

theorem crossing_keeps_link :
    (∀ x, JoinedOp.close x ∈ crossingClosures) ∧
      (∀ x, (exec (JoinedNodes.step initialLink 2) initialNodes crossingClosures).inFlight
        initialLink x = []) ∧
      ¬∀ x, (exec (JoinedNodes.step initialLink 2) initialNodes crossingClosures).Released
        initialLink x := by
  refine ⟨by decide, initialNodes_quiet (by decide), fun hreleased => ?_⟩
  have hends := (joined_simulates initialNodes_joined 0 crossingClosures).1.ends .b
  have hunlinked := (released_iff_unlinked hends).mp (hreleased .b)
  cases hunlinked

end MojoRs.Ipcz
