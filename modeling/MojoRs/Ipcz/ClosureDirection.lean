/-
MojoRs/Ipcz/ClosureDirection.lean

Two ways to tell which side of a router a message is about.  A parcel is
classified by the node link and the sublink it came over (`acceptAt`), a
`RouteClosed` message by the number of the sublink only (`routerRouteClosed`).
Every link counts its sublinks from the same start, so a proxy between two
links may well have one number on both sides.

The two agree on a sublink exactly if the router knows it by its number: it is
on an outward link, or it is on an inward link and no outward link has its
number (`Router.KnowsSublink`).

Main results: `closes_iff`, `accepts_iff`, `closure_agrees_iff`.
-/
import MojoRs.Ipcz.DispatchFrames
import MojoRs.Ipcz.LocalFlush
import MojoRs.Ipcz.RouterIdentity

namespace MojoRs.Ipcz

open Lib

/-! ### What a message is applied to -/

namespace Router

/-- A closure applied to the inbound sequence. -/
def closeInbound (r : Router) (n : Nat) : Option Router :=
  (r.inbound.setFinalSequenceLength n).map fun q => { r with inbound := q, peerClosed := true }

/-- A closure applied to the outbound sequence. -/
def closeOutbound (r : Router) (n : Nat) : Option Router :=
  (r.outbound.setFinalSequenceLength n).map fun q => { r with outbound := q }

/-- Some outward link has this number, on whatever node link. -/
def outwardHasNumber (r : Router) (sublink : Nat) : Bool :=
  r.outward.primary.any (·.sublink == sublink) || r.outward.decayingLink.any (·.sublink == sublink)

/-- The sublink is on one of the inward links. -/
def inwardOn (r : Router) (linkId sublink : Nat) : Bool := r.inward.any (·.on linkId sublink)

/-- The number of the sublink tells its side. -/
def KnowsSublink (r : Router) (linkId sublink : Nat) : Prop :=
  r.outward.on linkId sublink = true ∨
    (r.outwardHasNumber sublink = false ∧ r.inwardOn linkId sublink = true)

end Router

namespace RoutingAcceptor

/-- Put the changed router back and flush it. -/
def replaceAndFlush (depth rid : Nat) (r : Router) : AcceptorM Unit :=
  inTables fun info => do
    putRouter rid r
    routerFlush info depth rid false

/-- A closure that comes over the sublink goes to the sequence that `f` closes. -/
def ClosesBy (s : RoutingAcceptor) (linkId sublink : Nat) (f : Router → Nat → Option Router) :
    Prop :=
  ∀ rid r, s.tables.owners (linkId, sublink) = some rid → s.tables.routers rid = some r →
    ∀ n r', f r n = some r' → ∀ depth fds,
      (dispatch depth (.routeClosed sublink n) fds linkId).run s =
        (replaceAndFlush depth rid r').run s

/-- A parcel that comes over the sublink goes to the queue that `f` pushes to. -/
def AcceptsBy (s : RoutingAcceptor) (linkId sublink : Nat) (f : Router → Parcel → Option Router) :
    Prop :=
  ∀ rid r, s.tables.owners (linkId, sublink) = some rid → s.tables.routers rid = some r →
    ∀ (p : ParcelMessage) payload objects r', p.sublink = sublink →
      f r ⟨p.sequenceNumber, payload, objects, none⟩ = some r' → ∀ depth,
        (routeParcel (fun info => routerFlush info depth) p linkId payload objects).run s =
          (replaceAndFlush depth rid r').run s

end RoutingAcceptor

open RoutingAcceptor

variable {s : RoutingAcceptor} {linkId sublink rid : Nat} {r r' : Router}

theorem replaceAndFlush_zero (rid : Nat) (r : Router) (s : RoutingAcceptor) :
    (replaceAndFlush 0 rid r).run s =
      .error .depth { s with tables := s.tables.setRouter rid r } := rfl

/-- Before the flush, the router in its place tells them apart. -/
theorem replaceAndFlush_inj (h : (replaceAndFlush 0 rid r).run s = (replaceAndFlush 0 rid r').run s) :
    r = r' := by
  rw [replaceAndFlush_zero, replaceAndFlush_zero] at h
  injection h with _ hs
  have hr := congrArg (fun s : RoutingAcceptor => s.tables.routers rid) hs
  simpa using hr

/-- Runs that agree on the tables. -/
theorem inTables_congr {α : Type} {f g : NodeInfo → RouteM α}
    (h : (f s.info).run s.tables = (g s.info).run s.tables) :
    (inTables f).run s = (inTables g).run s := by
  have hrun : f s.info s.tables = g s.info s.tables := h
  unfold inTables EStateM.run
  dsimp only
  rw [hrun]

/-! ### Closures -/

theorem dispatch_routeClosed (howner : s.tables.owners (linkId, sublink) = some rid)
    (depth n : Nat) (fds : List OwnedFd) :
    (dispatch depth (.routeClosed sublink n) fds linkId).run s =
      (inTables fun info => routerRouteClosed (routerFlush info depth) rid sublink n).run s := by
  show (withOwner linkId sublink _).run s = _
  unfold withOwner
  rw [run_get_bind, howner]

theorem closeInbound_run {flush : Nat → Bool → RouteM Unit} {t : RouteTables} {n : Nat}
    (hr : t.routers rid = some r) (hnumber : r.outwardHasNumber sublink = true)
    (hn : r.closeInbound n = some r') :
    (routerRouteClosed flush rid sublink n).run t =
      (do putRouter rid r'; flush rid false : RouteM Unit).run t := by
  obtain ⟨q, hq, rfl⟩ := Option.map_eq_some_iff.mp hn
  unfold routerRouteClosed
  rw [run_bind_of_ok (getRouter_some _ hr)]
  rw [Router.outwardHasNumber] at hnumber
  dsimp only
  rw [if_pos hnumber, hq]

theorem closeOutbound_run {flush : Nat → Bool → RouteM Unit} {t : RouteTables} {n : Nat}
    (hr : t.routers rid = some r) (hnumber : r.outwardHasNumber sublink = false)
    (hn : r.closeOutbound n = some r') :
    (routerRouteClosed flush rid sublink n).run t =
      (do putRouter rid r'; flush rid false : RouteM Unit).run t := by
  obtain ⟨q, hq, rfl⟩ := Option.map_eq_some_iff.mp hn
  unfold routerRouteClosed
  rw [run_bind_of_ok (getRouter_some _ hr)]
  rw [Router.outwardHasNumber] at hnumber
  dsimp only
  rw [if_neg (Bool.eq_false_iff.mp hnumber), hq]

/-- A length that both queues take and neither has yet. -/
theorem exists_newLength (q q' : ParcelQueue) :
    ∃ n, q.setFinalSequenceLength n = some { q with finalLength := some n } ∧
      q'.setFinalSequenceLength n = some { q' with finalLength := some n } ∧
      q'.finalLength ≠ some n := by
  refine ⟨q.current + q'.current + q'.finalLength.getD 0 + 1, if_neg (by omega),
    if_neg (by omega), fun h => ?_⟩
  have hlen := congrArg (Option.getD · 0) h
  dsimp only [Option.getD_some] at hlen
  omega

/-- No sublink closes both sequences. -/
theorem closes_one (howner : s.tables.owners (linkId, sublink) = some rid)
    (hr : s.tables.routers rid = some r) (hin : s.ClosesBy linkId sublink Router.closeInbound)
    (hout : s.ClosesBy linkId sublink Router.closeOutbound) : False := by
  obtain ⟨n, hn, hn', hnew⟩ := exists_newLength r.inbound r.outbound
  have hcin : r.closeInbound n = some _ := congrArg (Option.map _) hn
  have hcout : r.closeOutbound n = some _ := congrArg (Option.map _) hn'
  have hsame := replaceAndFlush_inj
    ((hin rid r howner hr n _ hcin 0 []).symm.trans (hout rid r howner hr n _ hcout 0 []))
  exact hnew (congrArg (fun r : Router => r.outbound.finalLength) hsame)

/-- A closure goes to the inbound sequence if an outward link has the number,
and else to the outbound sequence. -/
theorem closes_iff (howner : s.tables.owners (linkId, sublink) = some rid)
    (hr : s.tables.routers rid = some r) :
    (s.ClosesBy linkId sublink Router.closeInbound ↔ r.outwardHasNumber sublink = true) ∧
      (s.ClosesBy linkId sublink Router.closeOutbound ↔ r.outwardHasNumber sublink = false) := by
  have hinbound (hnumber : r.outwardHasNumber sublink = true) :
      s.ClosesBy linkId sublink Router.closeInbound := by
    intro rid' r₁ howner' hr₁ n r' hn depth fds
    obtain rfl := Option.some.inj (howner.symm.trans howner')
    obtain rfl := Option.some.inj (hr.symm.trans hr₁)
    rw [dispatch_routeClosed howner]
    exact inTables_congr (closeInbound_run hr hnumber hn)
  have houtbound (hnumber : r.outwardHasNumber sublink = false) :
      s.ClosesBy linkId sublink Router.closeOutbound := by
    intro rid' r₁ howner' hr₁ n r' hn depth fds
    obtain rfl := Option.some.inj (howner.symm.trans howner')
    obtain rfl := Option.some.inj (hr.symm.trans hr₁)
    rw [dispatch_routeClosed howner]
    exact inTables_congr (closeOutbound_run hr hnumber hn)
  refine ⟨⟨fun h => ?_, hinbound⟩, fun h => ?_, houtbound⟩
  · by_contra hnumber
    exact closes_one howner hr h (houtbound (Bool.eq_false_of_not_eq_true hnumber))
  · by_contra hnumber
    exact closes_one howner hr (hinbound (Bool.eq_true_of_not_eq_false hnumber)) h

/-! ### Parcels -/

/-- A parcel that its router takes. -/
theorem routeParcel_run {p : ParcelMessage} {payload : List UInt8} {objects : List Object} (depth : Nat)
    (howner : s.tables.owners (linkId, p.sublink) = some rid)
    (haccept : (acceptAt rid linkId p payload objects).run s.tables =
      .ok ⟨⟩ (s.tables.setRouter rid r')) :
    (routeParcel (fun info => routerFlush info depth) p linkId payload objects).run s =
      (replaceAndFlush depth rid r').run s := by
  unfold routeParcel
  rw [run_get_bind, howner]
  dsimp only
  rw [run_bind_of_ok (inTables_of_ok haccept)]
  rfl

theorem acceptInbound_run {t : RouteTables} {p : ParcelMessage} {payload : List UInt8}
    {objects : List Object} (hr : t.routers rid = some r)
    (hon : r.outward.on linkId p.sublink = true)
    (haccept : r.acceptInbound ⟨p.sequenceNumber, payload, objects, none⟩ = some r') :
    (acceptAt rid linkId p payload objects).run t = .ok ⟨⟩ (t.setRouter rid r') := by
  unfold acceptAt
  rw [run_bind_of_ok (getRouter_some _ hr)]
  simp only [hon, Bool.not_true, Bool.false_and, Bool.false_eq_true, if_false, if_true, haccept]
  rfl

theorem acceptOutbound_run {t : RouteTables} {p : ParcelMessage} {payload : List UInt8}
    {objects : List Object} (hr : t.routers rid = some r)
    (hon : r.outward.on linkId p.sublink = false) (hinward : r.inwardOn linkId p.sublink = true)
    (haccept : r.acceptOutbound ⟨p.sequenceNumber, payload, objects, none⟩ = some r') :
    (acceptAt rid linkId p payload objects).run t = .ok ⟨⟩ (t.setRouter rid r') := by
  rw [Router.inwardOn] at hinward
  unfold acceptAt
  rw [run_bind_of_ok (getRouter_some _ hr)]
  simp only [hon, hinward, Bool.not_true, Bool.and_false, Bool.false_eq_true, if_false, haccept]
  rfl

/-- A parcel for neither side is refused. -/
theorem acceptUnbound_run {t : RouteTables} {p : ParcelMessage} {payload : List UInt8}
    {objects : List Object} (hr : t.routers rid = some r)
    (hon : r.outward.on linkId p.sublink = false)
    (hinward : r.inwardOn linkId p.sublink = false) :
    (acceptAt rid linkId p payload objects).run t =
      .error (.badParcel "parcel for unbound sublink") t := by
  rw [Router.inwardOn] at hinward
  unfold acceptAt
  rw [run_bind_of_ok (getRouter_some _ hr)]
  simp only [hon, hinward, Bool.not_false, Bool.and_true, if_true]
  rfl

/-- A number that both queues take and the second has no parcel for. -/
theorem exists_newNumber (q q' : ParcelQueue) :
    ∃ n, q.current ≤ n ∧ q'.current ≤ n ∧
      ∀ p : Parcel, p.sequenceNumber = n → ParcelMap.insert p q'.buffer ≠ q'.buffer := by
  have hbound : ∃ k, ∀ p ∈ q'.buffer, p.sequenceNumber < k := by
    induction q'.buffer with
    | nil => exact ⟨0, fun p hp => absurd hp List.not_mem_nil⟩
    | cons a m ih =>
        obtain ⟨k, hk⟩ := ih
        refine ⟨k + a.sequenceNumber + 1, fun p hp => ?_⟩
        rcases List.mem_cons.mp hp with rfl | hp
        · omega
        · have := hk p hp
          omega
  obtain ⟨k, hk⟩ := hbound
  refine ⟨q.current + q'.current + k, by omega, by omega, fun p hp h => ?_⟩
  have hget : q'.buffer.get? p.sequenceNumber = some p := by
    rw [← h, ParcelMap.get?_insert, if_pos rfl]
  have := hk p (List.mem_of_find?_eq_some hget)
  omega

/-- No sublink brings parcels for both queues. -/
theorem accepts_one (howner : s.tables.owners (linkId, sublink) = some rid)
    (hr : s.tables.routers rid = some r) (hin : s.AcceptsBy linkId sublink Router.acceptInbound)
    (hout : s.AcceptsBy linkId sublink Router.acceptOutbound) : False := by
  obtain ⟨n, hn, hn', hnew⟩ := exists_newNumber r.inbound r.outbound
  let p : ParcelMessage := ⟨sublink, n, 0, 1, .null, [], [], [], []⟩
  let parcel : Parcel := ⟨n, [], [], none⟩
  have hpin : r.acceptInbound parcel = some _ := congrArg (Option.map _) (if_neg (Nat.not_lt.mpr hn))
  have hpout : r.acceptOutbound parcel = some _ :=
    congrArg (Option.map _) (if_neg (Nat.not_lt.mpr hn'))
  have hsame := replaceAndFlush_inj ((hin rid r howner hr p [] [] _ rfl hpin 0).symm.trans
    (hout rid r howner hr p [] [] _ rfl hpout 0))
  exact hnew parcel rfl (congrArg (fun r : Router => r.outbound.buffer) hsame).symm

/-- A parcel that neither side of the router knows goes to no queue. -/
theorem accepts_none {f : Router → Parcel → Option Router} {n : Nat}
    (howner : s.tables.owners (linkId, sublink) = some rid) (hr : s.tables.routers rid = some r)
    (hon : r.outward.on linkId sublink = false) (hinward : r.inwardOn linkId sublink = false)
    (hf : f r ⟨n, [], [], none⟩ = some r') : ¬ s.AcceptsBy linkId sublink f := by
  intro h
  let p : ParcelMessage := ⟨sublink, n, 0, 1, .null, [], [], [], []⟩
  have hrun := h rid r howner hr p [] [] r' rfl hf 0
  have hrefused : (acceptAt rid linkId p [] []).run s.tables =
      .error (.badParcel "parcel for unbound sublink") s.tables :=
    acceptUnbound_run hr hon hinward
  unfold routeParcel at hrun
  rw [run_get_bind, howner, replaceAndFlush_zero] at hrun
  dsimp only at hrun
  rw [EStateM.run_bind, inTables_of_error hrefused] at hrun
  cases hrun

/-- A parcel goes to the inbound queue if an outward link is the sublink, and
to the outbound queue if only an inward link is. -/
theorem accepts_iff (howner : s.tables.owners (linkId, sublink) = some rid)
    (hr : s.tables.routers rid = some r) :
    (s.AcceptsBy linkId sublink Router.acceptInbound ↔ r.outward.on linkId sublink = true) ∧
      (s.AcceptsBy linkId sublink Router.acceptOutbound ↔
        r.outward.on linkId sublink = false ∧ r.inwardOn linkId sublink = true) := by
  have hinbound (hon : r.outward.on linkId sublink = true) :
      s.AcceptsBy linkId sublink Router.acceptInbound := by
    rintro rid' r₁ howner' hr₁ p payload objects r' rfl hp depth
    obtain rfl := Option.some.inj (howner.symm.trans howner')
    obtain rfl := Option.some.inj (hr.symm.trans hr₁)
    exact routeParcel_run depth howner (acceptInbound_run hr hon hp)
  have houtbound (hon : r.outward.on linkId sublink = false)
      (hinward : r.inwardOn linkId sublink = true) :
      s.AcceptsBy linkId sublink Router.acceptOutbound := by
    rintro rid' r₁ howner' hr₁ p payload objects r' rfl hp depth
    obtain rfl := Option.some.inj (howner.symm.trans howner')
    obtain rfl := Option.some.inj (hr.symm.trans hr₁)
    exact routeParcel_run depth howner (acceptOutbound_run hr hon hinward hp)
  have hpush (q : ParcelQueue) : q.push ⟨q.current, [], [], none⟩ = some _ :=
    if_neg (lt_irrefl _)
  have hpin := congrArg (Option.map fun q => { r with inbound := q }) (hpush r.inbound)
  have hpout := congrArg (Option.map fun q => { r with outbound := q }) (hpush r.outbound)
  refine ⟨⟨fun h => ?_, hinbound⟩, fun h => ?_, fun h => houtbound h.1 h.2⟩
  · by_contra hon
    replace hon := Bool.eq_false_of_not_eq_true hon
    cases hinward : r.inwardOn linkId sublink with
    | true => exact accepts_one howner hr h (houtbound hon hinward)
    | false => exact accepts_none howner hr hon hinward hpin h
  · have hon : r.outward.on linkId sublink = false := by
      by_contra hon
      exact accepts_one howner hr (hinbound (Bool.eq_true_of_not_eq_false hon)) h
    refine ⟨hon, ?_⟩
    by_contra hinward
    exact accepts_none howner hr hon (Bool.eq_false_of_not_eq_true hinward) hpout h

/-! ### Agreement -/

theorem Router.outwardHasNumber_of_on (hon : r.outward.on linkId sublink = true) :
    r.outwardHasNumber sublink = true := by
  have hmatch : ∀ l : Option Link, l.any (·.on linkId sublink) = true →
      l.any (·.sublink == sublink) = true := by
    rintro (- | l) hl
    · exact hl
    · exact (Bool.and_eq_true_iff.mp hl).2
  rw [Edge.on, Bool.or_eq_true] at hon
  rw [outwardHasNumber, Bool.or_eq_true]
  exact hon.imp (hmatch _) (hmatch _)

/-- Closures and parcels of an owned sublink go the same way exactly if the
router knows the sublink by its number. -/
theorem closure_agrees_iff (s : RoutingAcceptor) (linkId sublink rid : Nat) (r : Router)
    (howner : s.tables.owners (linkId, sublink) = some rid)
    (hr : s.tables.routers rid = some r) :
    ((s.ClosesBy linkId sublink Router.closeInbound ↔
        s.AcceptsBy linkId sublink Router.acceptInbound) ∧
      (s.ClosesBy linkId sublink Router.closeOutbound ↔
        s.AcceptsBy linkId sublink Router.acceptOutbound)) ↔
      r.KnowsSublink linkId sublink := by
  obtain ⟨hcin, hcout⟩ := closes_iff howner hr
  obtain ⟨hain, haout⟩ := accepts_iff howner hr
  rw [hcin, hcout, hain, haout, Router.KnowsSublink]
  cases hon : r.outward.on linkId sublink with
  | true => simp [Router.outwardHasNumber_of_on hon]
  | false => cases r.outwardHasNumber sublink <;> cases r.inwardOn linkId sublink <;> simp

/-- A proxy whose two links have the same number on different node links. -/
def sameNumberProxy : Router :=
  { Router.newTerminal (.remote 0 5 .peripheralOutward .b none) with
    inward := some ⟨some (.remote 1 5 .peripheralInward .a none), none⟩ }

/-- A proxy with the same sublink number on two node links. -/
def sameNumberNode : RoutingAcceptor :=
  { RoutingAcceptor.fresh [0, 1] with
    tables := ((RouteTables.fresh.setOwner (0, 5) 7).setOwner (1, 5) 7).setRouter 7 sameNumberProxy }

/-- Over the inward link it closes the inbound sequence, where parcels go to
the outbound queue. -/
theorem sameNumber_disagrees :
    ¬ (sameNumberNode.ClosesBy 1 5 Router.closeInbound ↔
      sameNumberNode.AcceptsBy 1 5 Router.acceptInbound) := by
  have howner : sameNumberNode.tables.owners (1, 5) = some 7 := rfl
  have hr : sameNumberNode.tables.routers 7 = some sameNumberProxy := rfl
  rw [(closes_iff howner hr).1, (accepts_iff howner hr).1]
  decide

theorem sameNumber_agrees_outward :
    ((sameNumberNode.ClosesBy 0 5 Router.closeInbound ↔
        sameNumberNode.AcceptsBy 0 5 Router.acceptInbound) ∧
      (sameNumberNode.ClosesBy 0 5 Router.closeOutbound ↔
        sameNumberNode.AcceptsBy 0 5 Router.acceptOutbound)) ↔
      sameNumberProxy.KnowsSublink 0 5 :=
  closure_agrees_iff sameNumberNode 0 5 7 sameNumberProxy rfl rfl

end MojoRs.Ipcz
