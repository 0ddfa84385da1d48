/-
MojoRs/Ipcz/LocalFlush.lean

Flushing routers that have only local links, statement by statement
(`router_flush` in `routing.rs`).  There is one lemma for each block of the
flush, which says what the block returns and which router it leaves, and from
them the flush of an end of a local route.

Main results: `routerFlushWith_run`, `flush_rest`.
-/
import MojoRs.Ipcz.RouterOps
import MojoRs.Ipcz.LinkLocks

namespace MojoRs.Ipcz

open Function (update)
open Lib

/-! ### The blocks of a flush -/

section Blocks

variable {info : NodeInfo} {flush : Nat → Bool → RouteM Unit} {rid : Nat} {r r' : Router}
  {s : RouteTables}

theorem flushStart_run (h : s.routers rid = some r) : (flushStart rid).run s =
    .ok ⟨r.onCentralLink, r.outwardHasDecaying, r.inwardHasDecaying⟩ s := by
  unfold flushStart
  rw [run_bind_of_ok (getRouter_some _ h)]
  rfl

/-- A flush that pops no inbound parcel. -/
theorem flushParcels_run {parcels : List (Link × Parcel)} (h : s.routers rid = some r)
    (hcollect : r.collectToFlush = (parcels, [], r')) : (flushParcels info flush rid).run s =
      (parcels.forM fun (link, parcel) => transmitParcel info flush link parcel).run
        (s.setRouter rid r') := by
  unfold flushParcels
  rw [run_bind_of_ok (getRouter_some _ h), hcollect]
  show (transmitPopped info flush rid parcels []).run (s.setRouter rid r') = _
  rw [transmitPopped_nil]

theorem flushParcels_none (h : s.routers rid = some r) (hnone : r.collectToFlush = ([], [], r')) :
    (flushParcels info flush rid).run s = .ok ⟨⟩ (s.setRouter rid r') := by
  rw [flushParcels_run h hnone]
  rfl

theorem releaseLinkState_local {l : Link} (hl : l.linkState = none) (s : RouteTables) :
    (releaseLinkState info l).run s = .ok ⟨⟩ s := by
  unfold releaseLinkState
  rw [hl]
  rfl

/-- Decays of a router without an inward edge, its links local. -/
theorem flushDecays_run {out : Option Link} {done : Bool} (h : s.routers rid = some r)
    (hfinish : r.finishBridgeDecay.finishDecays = ((out, done), (none, false), r'))
    (hlocal : ∀ l, out = some l → l.linkState = none) :
    (flushDecays info rid).run s = .ok (done, false) (s.setRouter rid r') := by
  unfold flushDecays
  rw [run_bind_of_ok (getRouter_some _ h), hfinish]
  dsimp only
  rw [run_bind_of_ok (putRouter_run _ _ _)]
  cases out with
  | none => rfl
  | some l =>
      have hrelease : (([l] : List Link).forM (releaseLinkState info)).run (s.setRouter rid r') =
          .ok ⟨⟩ (s.setRouter rid r') := by
        show (releaseLinkState info l >>= fun _ => pure PUnit.unit).run _ = _
        rw [run_bind_of_ok (releaseLinkState_local (hlocal l rfl) _)]
        rfl
      rw [Option.toList_some, run_bind_of_ok hrelease]
      rfl

theorem flushDelivery_run (h : s.routers rid = some r) (hqueued : info.keepQueuedFlush = false)
    (hinward : r.inward = none) :
    (flushDelivery info rid).run s = .ok false (s.setRouter rid r.deliver) := by
  unfold flushDelivery
  rw [run_bind_of_ok (getRouter_some _ h)]
  simp only [hqueued, hinward]
  rfl

theorem flushStability_quiet (h : s.routers rid = some r) (start : FlushStart) :
    (flushStability info rid start false false).run s = .ok false s := by
  unfold flushStability
  rw [run_bind_of_ok (getRouter_some _ h)]
  simp only [Bool.or_self, Bool.and_false, Bool.false_and]
  rfl

theorem flushClosures_quiet {start : FlushStart} {forward : Option (Link × Nat)} {dead : Bool}
    (h : s.routers rid = some r)
    (hclosures : r.closures start.onCentral = (none, forward, dead, r')) :
    (flushClosures info rid start).run s = .ok (none, forward, dead) (s.setRouter rid r') := by
  unfold flushClosures
  rw [run_bind_of_ok (getRouter_some _ h), hclosures]
  rfl

theorem flushBridge_none (h : s.routers rid = some r) (hbridge : r.bridge = none)
    (start : FlushStart) (out inc : Bool) :
    (flushBridge info flush rid start out inc).run s = .ok ⟨⟩ s := by
  unfold flushBridge
  rw [run_bind_of_ok (getRouter_some _ h)]
  simp only [hbridge]
  rfl

theorem flushTail_quiet (start : FlushStart) (dead : Bool) :
    (flushTail info flush rid false start dead false).run s = .ok ⟨⟩ s := by
  unfold flushTail
  simp only [Bool.or_self, Bool.and_false]
  rfl

/-- What follows the blocks of a flush: the closures, and the wake-up. -/
def finishFlush (info : NodeInfo) (flush : Nat → Bool → RouteM Unit) (rid : Nat) (force : Bool)
    (start : FlushStart) (routeClosed forwardClosed : Option (Link × Nat)) (dead dropped : Bool) :
    RouteM Unit := do
  routeClosed.toList.forM fun (link, len) => deliverRouteClosed info flush link len
  forwardClosed.toList.forM fun (link, len) => deliverRouteClosed info flush link len
  flushTail info flush rid force start dead dropped

/-- A flush that goes through its blocks. -/
theorem routerFlushWith_run {force out inc dropped dead : Bool} {start : FlushStart}
    {routeClosed forwardClosed : Option (Link × Nat)} {s₁ s₂ s₃ s₄ s₅ s₆ : RouteTables}
    (hstart : (flushStart rid).run s = .ok start s)
    (hparcels : (flushParcels info flush rid).run s = .ok ⟨⟩ s₁)
    (hdecays : (flushDecays info rid).run s₁ = .ok (out, inc) s₂)
    (hdelivery : (flushDelivery info rid).run s₂ = .ok false s₃)
    (hstability : (flushStability info rid start out inc).run s₃ = .ok dropped s₄)
    (hclosures : (flushClosures info rid start).run s₄ =
      .ok (routeClosed, forwardClosed, dead) s₅)
    (hbridge : (flushBridge info flush rid start out inc).run s₅ = .ok ⟨⟩ s₆) :
    (routerFlushWith info flush rid force).run s =
      (finishFlush info flush rid force start routeClosed forwardClosed dead dropped).run s₆ := by
  unfold routerFlushWith finishFlush
  rw [run_bind_of_ok hstart, run_bind_of_ok hparcels, run_bind_of_ok hdecays]
  dsimp only
  rw [run_bind_of_ok hdelivery, if_neg Bool.false_ne_true, run_bind_of_ok hstability,
    run_bind_of_ok hclosures]
  dsimp only
  rw [run_bind_of_ok hbridge]

/-- Nothing to pass on and nobody to wake. -/
theorem finishFlush_quiet (start : FlushStart) (dead : Bool) :
    (finishFlush info flush rid false start none none dead false).run s = .ok ⟨⟩ s :=
  flushTail_quiet start dead

end Blocks

/-! ### The end of a route -/

/-- A terminal router: its outward link, its portal, and its queues. -/
def endRouter (primary : Option Link) (messages : List (List UInt8 × List Object))
    (inbound outbound : ParcelQueue) (peerClosed : Bool) : Router :=
  ⟨some ⟨messages⟩, ⟨primary, none⟩, none, none, inbound, outbound, peerClosed, false⟩

section Ends

variable {info : NodeInfo} {flush : Nat → Bool → RouteM Unit} {x : Nat} {primary : Option Link}
  {messages : List (List UInt8 × List Object)} {inbound outbound : ParcelQueue} {closed : Bool}
  {s s₁ : RouteTables}

theorem endRouter_deliver {parcels : List Parcel} {inbound' : ParcelQueue}
    (hdrain : inbound.drain = (parcels, inbound')) :
    (endRouter primary messages inbound outbound closed).deliver =
      endRouter primary (messages ++ parcels.map fun p => (p.data, p.objects)) inbound' outbound
        closed := by
  simp only [Router.deliver, endRouter, hdrain]

/-- An end that has not closed gives its link up when nothing more will
come. -/
theorem endRouter_closures {central : Bool}
    (hopen : (central && outbound.isSequenceFullyConsumed) = false) :
    (endRouter primary messages inbound outbound closed).closures central =
      (none, none, !inbound.expectsMoreElements && primary.isSome,
        endRouter (if inbound.expectsMoreElements then primary else none) messages inbound outbound
          closed) := by
  unfold Router.closures endRouter
  dsimp only
  rw [hopen]
  cases hexpects : inbound.expectsMoreElements <;> cases primary <;>
    cases hdone : inbound.isSequenceFullyConsumed <;> cases hfinal : inbound.finalLength <;> rfl

/-- What is left of a flush once the parcels are on their way. -/
theorem flush_rest {messages₀ : List (List UInt8 × List Object)} {inbound₀ outbound₀ : ParcelQueue}
    {parcels : List Parcel} {inbound' : ParcelQueue} (hqueued : info.keepQueuedFlush = false)
    (h : s.routers x = some (endRouter primary messages₀ inbound₀ outbound₀ closed))
    (hparcels : (flushParcels info flush x).run s = .ok ⟨⟩ s₁)
    (h₁ : s₁.routers x = some (endRouter primary messages inbound outbound closed))
    (hdrain : inbound.drain = (parcels, inbound'))
    (hopen : (primary.any (·.kind.isCentral) && outbound.isSequenceFullyConsumed) = false) :
    (routerFlushWith info flush x false).run s =
      .ok ⟨⟩ (s₁.setRouter x (endRouter (if inbound'.expectsMoreElements then primary else none)
        (messages ++ parcels.map fun p => (p.data, p.objects)) inbound' outbound closed)) := by
  have hdecays : (flushDecays info x).run s₁ = .ok (false, false) s₁ := by
    have hrun : (flushDecays info x).run s₁ = .ok (false, false) (s₁.setRouter x _) :=
      flushDecays_run h₁ rfl nofun
    exact hrun.trans (congrArg _ (RouteTables.setRouter_self h₁))
  have hdelivery : (flushDelivery info x).run s₁ = .ok false (s₁.setRouter x _) :=
    flushDelivery_run h₁ hqueued rfl
  rw [endRouter_deliver hdrain] at hdelivery
  have hx₂ := RouteTables.setRouter_routers_self s₁ x (endRouter primary
    (messages ++ parcels.map fun p => (p.data, p.objects)) inbound' outbound closed)
  have hclosures : (flushClosures info x ⟨primary.any (·.kind.isCentral), false, false⟩).run
      (s₁.setRouter x _) = .ok (none, none, _) ((s₁.setRouter x _).setRouter x _) :=
    flushClosures_quiet hx₂ (endRouter_closures hopen)
  rw [RouteTables.setRouter_setRouter] at hclosures
  have hx₃ := RouteTables.setRouter_routers_self s₁ x (endRouter
    (if inbound'.expectsMoreElements then primary else none)
    (messages ++ parcels.map fun p => (p.data, p.objects)) inbound' outbound closed)
  refine (routerFlushWith_run (flushStart_run h) hparcels hdecays hdelivery
    (flushStability_quiet hx₂ _) hclosures (flushBridge_none hx₃ rfl _ _ _)).trans ?_
  exact finishFlush_quiet _ _

theorem endRouter_collect {parcels : List (Link × Parcel)} {outbound' : ParcelQueue}
    (hcollect : outbound.collect ⟨primary, none⟩ = (parcels, outbound')) :
    (endRouter primary messages inbound outbound closed).collectToFlush =
      (parcels, [], endRouter primary messages inbound outbound' closed) := by
  unfold Router.collectToFlush Router.collectOutbound endRouter
  dsimp only
  rw [hcollect]
  simp

end Ends

/-! ### Queues -/

section Queues

variable {k : Nat} {final : Option Nat} {p : Parcel} {l : Link}

theorem collect_unlinked (q : ParcelQueue) : q.collect .empty = ([], q) := by
  unfold ParcelQueue.collect
  cases q.buffer.length with
  | zero => rfl
  | succ n => rfl

/-- The next parcel goes out on the link. -/
theorem collect_next (hp : p.sequenceNumber = k) :
    ParcelQueue.collect ⟨k, final, [p]⟩ ⟨some l, none⟩ = ([(l, p)], ⟨k + 1, final, []⟩) := by
  subst hp
  simp [ParcelQueue.collect, ParcelQueue.collectLoop, Edge.linkFor,
    Edge.shouldTransmitOnDecayingLink, ParcelQueue.pop, ParcelMap.get?_cons, ParcelMap.erase]

/-- The next parcel comes out of the queue. -/
theorem drain_next (hp : p.sequenceNumber = k) :
    ParcelQueue.drain ⟨k, final, [p]⟩ = ([p], ⟨k + 1, final, []⟩) := by
  subst hp
  simp [ParcelQueue.drain, ParcelQueue.drainLoop, ParcelQueue.pop, ParcelMap.get?_cons,
    ParcelMap.erase]

theorem push_next (hp : p.sequenceNumber = k) :
    ParcelQueue.push ⟨k, final, []⟩ p = some ⟨k, final, [p]⟩ := by
  subst hp
  exact if_neg (Nat.lt_irrefl _)

end Queues

end MojoRs.Ipcz
