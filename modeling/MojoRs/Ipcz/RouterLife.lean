/-
MojoRs/Ipcz/RouterLife.lean

The parcels of one router from its beginning to its end (`router_flush`,
`serialize_router` and `begin_proxying` in `routing.rs`, `ParcelQueue` in
`router.rs`).  A terminal router hands the parcels that have arrived in sequence to
its portal; serialized, it becomes a proxy, and hands the next ones on to the new
location of the portal, until it is removed.

`Life` is the invariant: it says where each accepted parcel is, by the ghost
history of the router.  No flush breaks it.

Main results: `Life.serialized`, `life_steps`.
-/
import MojoRs.Ipcz.DecayHandover
import MojoRs.Ipcz.ParcelHistory

namespace MojoRs.Ipcz

open Lib RouteTables

/-! ### What a queue hands out -/

/-- What the application gets of a parcel. -/
def Parcel.message (p : Parcel) : List UInt8 × List Object := (p.data, p.objects)

/-- Accepted parcels with the numbers from `start` on, in order. -/
structure InSequence (accepted : List Parcel) (start : Nat) (parcels : List Parcel) : Prop where
  accepted : ∀ p ∈ parcels, p ∈ accepted
  numbers : parcels.map (·.sequenceNumber) = List.range' start parcels.length

namespace InSequence

variable {accepted accepted' parcels parcels' : List Parcel} {start : Nat}

theorem nil (accepted : List Parcel) (start : Nat) : InSequence accepted start [] := ⟨nofun, rfl⟩

theorem append (h : InSequence accepted start parcels)
    (h' : InSequence accepted (start + parcels.length) parcels') :
    InSequence accepted start (parcels ++ parcels') where
  accepted p hp := (List.mem_append.mp hp).elim (h.accepted p) (h'.accepted p)
  numbers := by rw [List.map_append, h.numbers, h'.numbers, List.range'_append_1, List.length_append]

theorem mono (h : InSequence accepted start parcels) (haccepted : ∀ p ∈ accepted, p ∈ accepted') :
    InSequence accepted' start parcels :=
  ⟨fun p hp => haccepted p (h.accepted p hp), h.numbers⟩

theorem left (h : InSequence accepted start (parcels ++ parcels')) :
    InSequence accepted start parcels := by
  refine ⟨fun p hp => h.accepted p (List.mem_append_left _ hp), ?_⟩
  have hnumbers := h.numbers
  rw [List.map_append, List.length_append, ← List.range'_append_1] at hnumbers
  exact (List.append_inj hnumbers (by rw [List.length_map, List.length_range'])).1

/-- A number of the sequence is the number of one of its parcels. -/
theorem mem (h : InSequence accepted start parcels) {n : Nat} (hstart : start ≤ n)
    (hn : n < start + parcels.length) : n ∈ parcels.map (·.sequenceNumber) := by
  rw [h.numbers]
  exact List.mem_range'_1.mpr ⟨hstart, hn⟩

end InSequence

/-- Messages of accepted parcels, with the numbers from `start` on, in order. -/
def Delivered (accepted : List Parcel) (start : Nat)
    (messages : List (List UInt8 × List Object)) : Prop :=
  ∃ parcels, InSequence accepted start parcels ∧ parcels.map Parcel.message = messages

theorem Delivered.mono {accepted accepted' : List Parcel} {start : Nat}
    {messages : List (List UInt8 × List Object)} (h : Delivered accepted start messages)
    (haccepted : ∀ p ∈ accepted, p ∈ accepted') : Delivered accepted' start messages := by
  obtain ⟨parcels, hparcels, hmessages⟩ := h
  exact ⟨parcels, hparcels.mono haccepted, hmessages⟩

/-- What was delivered first. -/
theorem Delivered.left {accepted : List Parcel} {start : Nat}
    {messages messages' : List (List UInt8 × List Object)}
    (h : Delivered accepted start (messages ++ messages')) :
    Delivered accepted start messages := by
  obtain ⟨parcels, hparcels, hmessages⟩ := h
  obtain ⟨first, rest, rfl, hfirst, -⟩ := List.map_eq_append_iff.mp hmessages
  exact ⟨first, hparcels.left, hfirst⟩

namespace ParcelQueue

/-- A drain is a collection over an edge that has a link for every number. -/
theorem drain_eq_collect (q : ParcelQueue) (link : Link) :
    q.drain = ((q.collect ⟨some link, none⟩).1.map (·.2), (q.collect ⟨some link, none⟩).2) := by
  have hloop (fuel : Nat) : ∀ q : ParcelQueue, drainLoop fuel q =
      ((q.collectLoop ⟨some link, none⟩ fuel).1.map (·.2),
        (q.collectLoop ⟨some link, none⟩ fuel).2) := by
    induction fuel with
    | zero => exact fun q => rfl
    | succ fuel ih =>
        intro q
        have hlink : Edge.linkFor ⟨some link, none⟩ q.current = some link := rfl
        rw [drainLoop, collectLoop, hlink]
        cases hpop : q.pop with
        | none => rfl
        | some x =>
            obtain ⟨p, q'⟩ := x
            dsimp only
            rw [ih q']
            rfl
  exact hloop _ q

/-- What has a number that is not collected stays. -/
theorem get?_collect (q : ParcelQueue) (edge : Edge) {n : Nat}
    (hn : (q.collect edge).2.current ≤ n) :
    (q.collect edge).2.buffer.get? n = q.buffer.get? n := by
  have hloop (fuel : Nat) : ∀ q : ParcelQueue, (q.collectLoop edge fuel).2.current ≤ n →
      q.current ≤ n ∧ (q.collectLoop edge fuel).2.buffer.get? n = q.buffer.get? n := by
    induction fuel with
    | zero => exact fun q hn => ⟨hn, rfl⟩
    | succ fuel ih =>
        intro q hn
        rw [collectLoop] at hn ⊢
        split at hn
        · rename_i link p q' _ hpop
          obtain ⟨-, rfl⟩ := pop_eq hpop
          obtain ⟨hlt, hget⟩ := ih _ hn
          refine ⟨Nat.le_of_lt hlt, hget.trans ?_⟩
          rw [ParcelMap.get?_erase, if_neg (Nat.ne_of_lt hlt)]
        · exact ⟨hn, rfl⟩
  exact (hloop _ q hn).2

/-- The queue has what was accepted and not yet handed out. -/
structure Keeps (q : ParcelQueue) (accepted : List Parcel) : Prop where
  holds : q.Holds (· ∈ accepted)
  kept : ∀ p ∈ accepted, p.sequenceNumber < q.current ∨ (q.buffer.get? p.sequenceNumber).isSome

namespace Keeps

variable {q q' : ParcelQueue} {accepted : List Parcel} {n : Nat}

/-- Only the numbers that were handed out, and the buffer, matter. -/
theorem of_eq (h : q.Keeps accepted) (hbuffer : q'.buffer = q.buffer)
    (hcurrent : q'.current = q.current) : q'.Keeps accepted := by
  refine ⟨fun p hp => h.holds p (hbuffer ▸ hp), ?_⟩
  rw [hbuffer, hcurrent]
  exact h.kept

theorem push (h : q.Keeps accepted) {p : Parcel} (hq : q.push p = some q') :
    q'.Keeps (accepted ++ [p]) := by
  have hlast : p ∈ accepted ++ [p] := List.mem_append_right _ List.mem_cons_self
  have hholds : q.Holds (· ∈ accepted ++ [p]) := fun x hx =>
    List.mem_append_left _ (h.holds x hx)
  refine ⟨hholds.push hlast hq, fun x hx => ?_⟩
  unfold ParcelQueue.push at hq
  split_ifs at hq
  obtain rfl := Option.some.inj hq
  show _ ∨ ((ParcelMap.insert p q.buffer).get? x.sequenceNumber).isSome
  rw [ParcelMap.isSome_get?_insert]
  rcases List.mem_append.mp hx with hx | hx
  · exact (h.kept x hx).imp id .inr
  · obtain rfl := List.mem_singleton.mp hx
    exact .inr (.inl rfl)

theorem collect (h : q.Keeps accepted) (edge : Edge) : (q.collect edge).2.Keeps accepted := by
  refine ⟨(Holds.collect h.holds edge).2, fun p hp => ?_⟩
  by_cases hlt : p.sequenceNumber < (q.collect edge).2.current
  · exact .inl hlt
  · have hle := Nat.not_lt.mp hlt
    have hcurrent := (collect_spec q edge).2.1
    refine .inr ?_
    rw [q.get?_collect edge hle]
    exact (h.kept p hp).resolve_left (by omega)

/-- A collection hands out what was accepted from the current number on. -/
theorem collected (h : q.Keeps accepted) (edge : Edge) :
    InSequence accepted q.current ((q.collect edge).1.map (·.2)) := by
  refine ⟨fun p hp => ?_, ?_⟩
  · obtain ⟨x, hx, rfl⟩ := List.mem_map.mp hp
    exact (Holds.collect h.holds edge).1 x hx
  · rw [List.map_map, List.length_map]
    exact (collect_spec q edge).1

/-- And it hands out all numbers without a gap that the edge has links for. -/
theorem handed_out (h : q.Keeps accepted) {edge : Edge}
    (hall : ∀ k, q.current ≤ k → k ≤ n →
      (∃ p ∈ accepted, p.sequenceNumber = k) ∧ (edge.linkFor k).isSome) :
    n < (q.collect edge).2.current := by
  by_contra hlt
  have hcurrent := (collect_spec q edge).2.1
  obtain ⟨⟨p, hp, hnumber⟩, hlink⟩ :=
    hall (q.collect edge).2.current (by omega) (Nat.not_lt.mp hlt)
  rcases collect_stops q edge with hstop | hstop
  · rw [hstop] at hlink
    cases hlink
  · have hsome := ((h.collect edge).kept p hp).resolve_left (by omega)
    rw [hnumber, hstop] at hsome
    cases hsome

theorem drain (h : q.Keeps accepted) : q.drain.2.Keeps accepted := by
  rw [q.drain_eq_collect (.remote linkIdBroker 0 .central .a none)]
  exact h.collect _

/-- What is delivered to a portal. -/
theorem drained (h : q.Keeps accepted) :
    InSequence accepted q.current q.drain.1 ∧
      q.drain.2.current = q.current + q.drain.1.length := by
  rw [q.drain_eq_collect (.remote linkIdBroker 0 .central .a none), List.length_map]
  exact ⟨h.collected _, (collect_spec q _).2.1⟩

end Keeps

end ParcelQueue

/-! ### The life of a router -/

/-- The link goes to the new location of a router that was serialized into `d`. -/
structure Link.LeadsTo (l : Link) (linkId : Nat) (d : RouterDescriptor) : Prop where
  remote : l.localPeer = none
  linkId : l.linkId = linkId
  sublink : l.sublink = d.newSublink ∨ l.sublink = d.newDecayingSublink

/-- The inbound queue of a router, its portal and its place on the route stay, and
its inward edge has no new links. -/
structure Router.KeepsInbound (r r' : Router) : Prop where
  buffer : r'.inbound.buffer = r.inbound.buffer
  current : r'.inbound.current = r.inbound.current
  portal : r'.portal = r.portal
  inward : r'.inward.isSome = r.inward.isSome
  links : ∀ l ∈ r'.inwardLinks, l ∈ r.inwardLinks
  bridge : r'.bridge.isSome → r.bridge.isSome

theorem Router.Rewired.keepsInbound {r r' : Router} (h : r.Rewired r') : r.KeepsInbound r' :=
  ⟨h.inbound, h.current, h.portal, h.inward, h.links, h.bridge⟩

theorem Router.KeepsInbound.refl (r : Router) : r.KeepsInbound r :=
  ⟨rfl, rfl, rfl, rfl, fun _ hl => hl, id⟩

/-- A router with the messages that its application has taken, after history `h`.
While it is terminal, what was taken and what is in the portal are the messages
from `start` on; when it is serialized the descriptor goes on behind these, and
from there the proxy hands out what it has accepted, over links to the new
location, until it is gone. -/
structure Life (start : Nat) (taken : List (List UInt8 × List Object)) (h : List ParcelEvent)
    (router : Option Router) : Prop where
  queue : ∀ r, router = some r → r.inbound.Keeps (acceptedIn h) ∧ r.bridge = none
  terminal : ∀ r, router = some r → r.inward = none →
    serializedIn h = [] ∧ r.portal = some ⟨r.unread⟩ ∧
      Delivered (acceptedIn h) start (taken ++ r.unread) ∧
      r.inbound.current = start + (taken ++ r.unread).length
  proxy : ∀ r, router = some r → r.inward.isSome → ∃ linkId d unread,
    (linkId, d, unread) ∈ serializedIn h ∧
      r.inbound.current = d.nextIncomingSequenceNumber + (poppedIn h).length ∧
      ∀ l ∈ r.inwardLinks, l.LeadsTo linkId d
  serialized : ∀ linkId d unread, (linkId, d, unread) ∈ serializedIn h →
    serializedIn h = [(linkId, d, unread)] ∧
      Delivered (acceptedIn h) start (taken ++ unread) ∧
      d.nextIncomingSequenceNumber = start + (taken ++ unread).length ∧
      InSequence (acceptedIn h) d.nextIncomingSequenceNumber ((poppedIn h).map (·.2)) ∧
      ∀ x ∈ poppedIn h, x.1.LeadsTo linkId d
  unserialized : serializedIn h = [] → poppedIn h = []
  gone : router = none → .removed ∉ h → ∀ linkId d unread,
    (linkId, d, unread) ∈ serializedIn h →
      ∀ p ∈ acceptedIn h, p.sequenceNumber < d.nextIncomingSequenceNumber + (poppedIn h).length

namespace Life

variable {start : Nat} {taken : List (List UInt8 × List Object)} {h h' : List ParcelEvent}
  {r r' : Router}

/-- A history that tells no more of accepted, serialized and popped parcels, and a
router that is as it was. -/
theorem congr {router router' : Option Router} (hl : Life start taken h router)
    (haccepted : acceptedIn h' = acceptedIn h) (hserialized : serializedIn h' = serializedIn h)
    (hpopped : poppedIn h' = poppedIn h) (hremoved : .removed ∈ h → .removed ∈ h')
    (hrouter : ∀ r', router' = some r' → ∃ r, router = some r ∧ r.KeepsInbound r')
    (hgone : router' = none → router = none) :
    Life start taken h' router' := by
  refine ⟨fun r' hr' => ?_, fun r' hr' hinward => ?_, fun r' hr' hinward => ?_, ?_, ?_, ?_⟩
  · obtain ⟨r, hr, hkeeps⟩ := hrouter r' hr'
    obtain ⟨hqueue, hbridge⟩ := hl.queue r hr
    rw [haccepted]
    refine ⟨hqueue.of_eq hkeeps.buffer hkeeps.current, ?_⟩
    by_contra hsome
    have hsome := hkeeps.bridge (Option.isSome_iff_ne_none.mpr hsome)
    rw [hbridge] at hsome
    cases hsome
  · obtain ⟨r, hr, hkeeps⟩ := hrouter r' hr'
    have hunread : r'.unread = r.unread := by rw [Router.unread, hkeeps.portal, Router.unread]
    rw [haccepted, hserialized, hunread, hkeeps.portal, hkeeps.current]
    refine hl.terminal r hr ?_
    rw [← Option.not_isSome_iff_eq_none, ← hkeeps.inward, hinward]
    exact Bool.false_ne_true
  · obtain ⟨r, hr, hkeeps⟩ := hrouter r' hr'
    rw [hserialized, hpopped, hkeeps.current]
    obtain ⟨linkId, d, unread, hmem, hcurrent, hlinks⟩ := hl.proxy r hr (hkeeps.inward ▸ hinward)
    exact ⟨linkId, d, unread, hmem, hcurrent, fun l h => hlinks l (hkeeps.links l h)⟩
  · rw [haccepted, hserialized, hpopped]
    exact hl.serialized
  · rw [hserialized, hpopped]
    exact hl.unserialized
  · rw [haccepted, hserialized, hpopped]
    exact fun hnone hno => hl.gone (hgone hnone) fun hmem => hno (hremoved hmem)

theorem keeps (hl : Life start taken h (some r)) (hr : r.KeepsInbound r') :
    Life start taken h (some r') :=
  hl.congr rfl rfl rfl id (fun _ h' => ⟨r, rfl, Option.some.inj h' ▸ hr⟩) nofun

/-- What is noted while parcels are transmitted. -/
theorem note {router : Option Router} {e : ParcelEvent} (hl : Life start taken h router)
    (haccepted : acceptedIn [e] = []) (hserialized : serializedIn [e] = [])
    (hpopped : poppedIn [e] = []) : Life start taken (h ++ [e]) router := by
  refine hl.congr ?_ ?_ ?_ (List.mem_append_left _) (fun r h => ⟨r, h, .refl r⟩) id
  · rw [acceptedIn_append, haccepted, List.append_nil]
  · rw [serializedIn_append, hserialized, List.append_nil]
  · rw [poppedIn_append, hpopped, List.append_nil]

theorem ofNone {Q : Router → Prop} (r : Router) (hr : none = some r) : Q r := by cases hr

/-- A router is gone, and what was in its queue with it. -/
theorem remove (hl : Life start taken h (some r)) :
    Life start taken (if !r.inbound.buffer.isEmpty then h ++ [.removed] else h) none := by
  split_ifs with hempty
  · have haccepted : acceptedIn (h ++ [.removed]) = acceptedIn h :=
      (acceptedIn_append ..).trans (List.append_nil _)
    have hserialized : serializedIn (h ++ [.removed]) = serializedIn h :=
      (serializedIn_append ..).trans (List.append_nil _)
    have hpopped : poppedIn (h ++ [.removed]) = poppedIn h :=
      (poppedIn_append ..).trans (List.append_nil _)
    refine ⟨ofNone, ofNone, ofNone, ?_, ?_, fun _ hno => ?_⟩
    · rw [haccepted, hserialized, hpopped]
      exact hl.serialized
    · rw [hserialized, hpopped]
      exact hl.unserialized
    · exact absurd (List.mem_append_right _ List.mem_cons_self) hno
  · refine ⟨ofNone, ofNone, ofNone, hl.serialized, hl.unserialized,
      fun _ _ linkId d unread hmem p hp => ?_⟩
    have hbuffer : r.inbound.buffer = [] := by simpa using hempty
    have hkept := (hl.queue r rfl).1.kept p hp
    rw [hbuffer, ParcelMap.get?_nil] at hkept
    have hlt := hkept.resolve_right Bool.false_ne_true
    -- only a proxy was serialized
    cases hinward : r.inward with
    | none =>
        rw [(hl.terminal r rfl hinward).1] at hmem
        cases hmem
    | some inward =>
        obtain ⟨linkId', d', unread', hmem', hcurrent, -⟩ := hl.proxy r rfl (by rw [hinward]; rfl)
        rw [(hl.serialized _ _ _ hmem').1] at hmem
        cases List.mem_singleton.mp hmem
        rw [← hcurrent]
        exact hlt

theorem accept {p : Parcel} (hl : Life start taken h (some r)) (hr : r.acceptInbound p = some r') :
    Life start taken (h ++ [.accepted p]) (some r') := by
  obtain ⟨q, hq, rfl⟩ := Option.map_eq_some_iff.mp hr
  obtain ⟨hqueue, hbridge⟩ := hl.queue r rfl
  have haccepted : acceptedIn (h ++ [.accepted p]) = acceptedIn h ++ [p] := acceptedIn_append ..
  have hserialized : serializedIn (h ++ [.accepted p]) = serializedIn h :=
    (serializedIn_append ..).trans (List.append_nil _)
  have hpopped : poppedIn (h ++ [.accepted p]) = poppedIn h :=
    (poppedIn_append ..).trans (List.append_nil _)
  have hmore : ∀ x ∈ acceptedIn h, x ∈ acceptedIn h ++ [p] := fun x hx =>
    List.mem_append_left _ hx
  have hcurrent : q.current = r.inbound.current := by
    unfold ParcelQueue.push at hq
    split_ifs at hq
    rw [← Option.some.inj hq]
  refine ⟨fun r' hr' => ?_, fun r' hr' hinward => ?_, fun r' hr' hinward => ?_, ?_, ?_, nofun⟩
  · obtain rfl := Option.some.inj hr'
    rw [haccepted]
    exact ⟨hqueue.push hq, hbridge⟩
  · obtain rfl := Option.some.inj hr'
    obtain ⟨hnone, hportal, hdelivered, hnext⟩ := hl.terminal r rfl hinward
    rw [haccepted, hserialized]
    exact ⟨hnone, hportal, hdelivered.mono hmore, hcurrent.trans hnext⟩
  · obtain rfl := Option.some.inj hr'
    obtain ⟨linkId, d, unread, hmem, hnext, hlinks⟩ := hl.proxy r rfl hinward
    rw [hserialized, hpopped]
    exact ⟨linkId, d, unread, hmem, hcurrent.trans hnext, hlinks⟩
  · rw [haccepted, hserialized, hpopped]
    intro linkId d unread hmem
    obtain ⟨hone, hdelivered, hnext, hsequence, hleads⟩ := hl.serialized linkId d unread hmem
    exact ⟨hone, hdelivered.mono hmore, hnext, hsequence.mono hmore, hleads⟩
  · rw [hserialized, hpopped]
    exact hl.unserialized

theorem deliver (hl : Life start taken h (some r)) (hinward : r.inward = none) :
    Life start taken h (some r.deliver) := by
  obtain ⟨hqueue, hbridge⟩ := hl.queue r rfl
  obtain ⟨hnone, hportal, ⟨parcels, hparcels, hmessages⟩, hcurrent⟩ := hl.terminal r rfl hinward
  obtain ⟨hdrained, hnext⟩ := hqueue.drained
  have hdeliver : r.deliver = { r with
      inbound := r.inbound.drain.2
      portal := some ⟨r.unread ++ r.inbound.drain.1.map Parcel.message⟩ } := by
    unfold Router.deliver
    rw [hportal]
    rfl
  have hlength : (taken ++ r.unread).length = parcels.length := by
    rw [← hmessages, List.length_map]
  rw [hdeliver]
  refine ⟨fun r' hr' => ?_, fun r' hr' _ => ?_, fun r' hr' hsome => ?_, hl.serialized,
    hl.unserialized, nofun⟩
  · obtain rfl := Option.some.inj hr'
    exact ⟨hqueue.drain, hbridge⟩
  · obtain rfl := Option.some.inj hr'
    show serializedIn h = [] ∧ _ = some (Portal.mk _) ∧
      Delivered _ start (taken ++ (r.unread ++ r.inbound.drain.1.map Parcel.message)) ∧
      r.inbound.drain.2.current =
        start + (taken ++ (r.unread ++ r.inbound.drain.1.map Parcel.message)).length
    rw [← List.append_assoc]
    refine ⟨hnone, rfl, ⟨parcels ++ r.inbound.drain.1, hparcels.append ?_, ?_⟩, ?_⟩
    · rw [← hlength, ← hcurrent]
      exact hdrained
    · rw [List.map_append, hmessages]
    · rw [List.length_append, List.length_map, hnext, hcurrent, Nat.add_assoc]
  · obtain rfl := Option.some.inj hr'
    rw [hinward] at hsome
    cases hsome

/-- A terminal router is serialized, its inbound queue as it is. -/
theorem becomeProxy (hl : Life start taken h (some r)) (hinward : r.inward = none) (linkId : Nat)
    {d : RouterDescriptor} (hnext : d.nextIncomingSequenceNumber = r.inbound.current)
    {inward : Edge} (hlinks : inward.links = []) (outward : Edge) :
    Life start taken (h ++ [.serialized linkId d r.unread])
      (some { r with inward := some inward, outward }) := by
  obtain ⟨hqueue, hbridge⟩ := hl.queue r rfl
  obtain ⟨hnone, hportal, hdelivered, hcurrent⟩ := hl.terminal r rfl hinward
  have haccepted : acceptedIn (h ++ [.serialized linkId d r.unread]) = acceptedIn h :=
    (acceptedIn_append ..).trans (List.append_nil _)
  have hserialized : serializedIn (h ++ [.serialized linkId d r.unread]) =
      [(linkId, d, r.unread)] := by
    rw [serializedIn_append, hnone]
    rfl
  have hpopped : poppedIn (h ++ [.serialized linkId d r.unread]) = [] := by
    rw [poppedIn_append, hl.unserialized hnone]
    rfl
  refine ⟨fun r' hr' => ?_, fun r' hr' hinward => ?_, fun r' hr' hinward => ?_, ?_, ?_, nofun⟩
  · obtain rfl := Option.some.inj hr'
    rw [haccepted]
    exact ⟨hqueue, hbridge⟩
  · obtain rfl := Option.some.inj hr'
    cases hinward
  · obtain rfl := Option.some.inj hr'
    refine ⟨linkId, d, r.unread, ?_, ?_, fun l hl => ?_⟩
    · rw [hserialized]
      exact List.mem_cons_self
    · rw [hpopped]
      exact hnext.symm
    · have hmem : l ∈ inward.links := hl
      rw [hlinks] at hmem
      cases hmem
  · intro linkId' d' unread' hmem
    rw [hserialized] at hmem ⊢
    cases List.mem_singleton.mp hmem
    rw [haccepted, hpopped]
    exact ⟨rfl, hdelivered, hnext.trans hcurrent, .nil _ _, nofun⟩
  · intro hempty
    rw [hserialized] at hempty
    cases hempty

/-- The proxy gets a link to the new location. -/
theorem proxyLink {inward : Edge} (hl : Life start taken h (some r)) (hinward : r.inward = some inward)
    {linkId sublink : Nat} {d : RouterDescriptor} {unread : List (List UInt8 × List Object)}
    (hnoted : .serialized linkId d unread ∈ h)
    (hsublink : sublink = d.newSublink ∨ sublink = d.newDecayingSublink) :
    Life start taken h (some { r with
      inward := inward.setPrimaryLink (.remote linkId sublink .peripheralInward .a none) }) := by
  refine ⟨fun r' hr' => ?_, fun r' hr' hnone => ?_, fun r' hr' _ => ?_, hl.serialized,
    hl.unserialized, nofun⟩
  · obtain rfl := Option.some.inj hr'
    exact hl.queue r rfl
  · obtain rfl := Option.some.inj hr'
    cases hnone
  · obtain rfl := Option.some.inj hr'
    obtain ⟨linkId', d', unread', hmem, hcurrent, hlinks⟩ := hl.proxy r rfl (by rw [hinward]; rfl)
    have hnoted := mem_serializedIn.mpr hnoted
    rw [(hl.serialized _ _ _ hmem).1] at hnoted
    cases List.mem_singleton.mp hnoted
    refine ⟨linkId, d, unread, hmem, hcurrent, fun l hl => ?_⟩
    rcases inward.links_setPrimaryLink _ l hl with rfl | hold
    · exact ⟨rfl, rfl, hsublink⟩
    · refine hlinks l ?_
      rw [Router.inwardLinks, hinward]
      exact hold

/-- What a flush collects of a proxy. -/
theorem collectToFlush_proxy {edge : Edge} (hinward : r.inward = some edge) :
    r.collectToFlush.2 = ((r.inbound.collect edge).1,
      { r with
        inbound := (r.inbound.collect edge).2
        outbound := (r.outbound.collect r.outward).2 }) := by
  simp [Router.collectToFlush, Router.collectOutbound, Router.collectInbound, hinward]

/-- A flush takes parcels for the inward edge of a proxy. -/
theorem popInward {edge : Edge} (hl : Life start taken h (some r)) (hinward : r.inward = some edge)
    (outbound : ParcelQueue) :
    Life start taken (h ++ [.popped (r.inbound.collect edge).1])
      (some { r with inbound := (r.inbound.collect edge).2, outbound }) := by
  obtain ⟨hqueue, hbridge⟩ := hl.queue r rfl
  obtain ⟨linkId, d, unread, hmem, hcurrent, hlinks⟩ := hl.proxy r rfl (by rw [hinward]; rfl)
  obtain ⟨hone, hdelivered, hnext, hsequence, hleads⟩ := hl.serialized linkId d unread hmem
  obtain ⟨-, hend, hedge, -⟩ := collect_spec r.inbound edge
  have haccepted : acceptedIn (h ++ [.popped (r.inbound.collect edge).1]) = acceptedIn h :=
    (acceptedIn_append ..).trans (List.append_nil _)
  have hserialized : serializedIn (h ++ [.popped (r.inbound.collect edge).1]) = serializedIn h :=
    (serializedIn_append ..).trans (List.append_nil _)
  have hpopped : poppedIn (h ++ [.popped (r.inbound.collect edge).1]) =
      poppedIn h ++ (r.inbound.collect edge).1 := by
    rw [poppedIn_append]
    exact congrArg _ (List.append_nil _)
  refine ⟨fun r' hr' => ?_, fun r' hr' hnone => ?_, fun r' hr' hsome => ?_, ?_, ?_, nofun⟩
  · obtain rfl := Option.some.inj hr'
    rw [haccepted]
    exact ⟨hqueue.collect edge, hbridge⟩
  · obtain rfl := Option.some.inj hr'
    cases hinward.symm.trans hnone
  · obtain rfl := Option.some.inj hr'
    refine ⟨linkId, d, unread, hserialized ▸ hmem, ?_, hlinks⟩
    show (r.inbound.collect edge).2.current = _
    rw [hend, hcurrent, hpopped, List.length_append, Nat.add_assoc]
  · intro linkId' d' unread' hmem'
    rw [hserialized, hone] at hmem'
    cases List.mem_singleton.mp hmem'
    rw [haccepted, hserialized, hpopped, List.map_append]
    refine ⟨hone, hdelivered, hnext, hsequence.append ?_, fun x hx => ?_⟩
    · rw [List.length_map, ← hcurrent]
      exact hqueue.collected edge
    · rcases List.mem_append.mp hx with hx | hx
      · exact hleads x hx
      · refine hlinks x.1 ?_
        rw [Router.inwardLinks, hinward]
        exact Edge.linkFor_mem (hedge x hx)
  · intro hempty
    rw [hserialized, hone] at hempty
    cases hempty

/-- The application takes a message. -/
theorem take {message : List UInt8 × List Object} {rest : List (List UInt8 × List Object)}
    (hl : Life start taken h (some r)) (hinward : r.inward = none)
    (hportal : r.portal = some ⟨message :: rest⟩) :
    Life start (taken ++ [message]) h (some { r with portal := some ⟨rest⟩ }) := by
  obtain ⟨hnone, -, hdelivered, hcurrent⟩ := hl.terminal r rfl hinward
  have hunread : r.unread = message :: rest := by
    rw [Router.unread, hportal]
    rfl
  have hsplit : taken ++ [message] ++ rest = taken ++ r.unread := by
    rw [hunread, List.append_assoc, List.singleton_append]
  refine ⟨fun r' hr' => ?_, fun r' hr' _ => ?_, fun r' hr' hsome => ?_, ?_, hl.unserialized, nofun⟩
  · obtain rfl := Option.some.inj hr'
    exact hl.queue r rfl
  · obtain rfl := Option.some.inj hr'
    refine ⟨hnone, rfl, ?_, ?_⟩
    · exact hsplit ▸ hdelivered
    · exact hcurrent.trans (by rw [← hsplit]; rfl)
  · obtain rfl := Option.some.inj hr'
    rw [hinward] at hsome
    cases hsome
  · intro linkId d unread hmem
    rw [hnone] at hmem
    cases hmem

/-- What a flush collects of a router that is no bridge. -/
theorem collectToFlush (hl : Life start taken h (some r)) :
    Life start taken (h ++ [.popped r.collectToFlush.2.1]) (some r.collectToFlush.2.2) := by
  have hbridge := (hl.queue r rfl).2
  cases hinward : r.inward with
  | none =>
      have hcollect : r.collectToFlush.2 =
          ([], { r with outbound := (r.outbound.collect r.outward).2 }) := by
        simp [Router.collectToFlush, Router.collectOutbound, hinward, hbridge]
      rw [hcollect]
      have hkept : Life start taken h (some { r with outbound := (r.outbound.collect r.outward).2 }) :=
        hl.keeps ⟨rfl, rfl, rfl, rfl, fun _ hl => hl, id⟩
      exact hkept.note rfl rfl rfl
  | some edge =>
      rw [collectToFlush_proxy hinward]
      exact hl.popInward hinward _

end Life

/-! ### Flushes -/

/-- Router `rid` of a node lives, or is gone. -/
def RouteTables.Lives (rid start : Nat) (taken : List (List UInt8 × List Object))
    (s : RouteTables) : Prop := Life start taken (s.history rid) (s.routers rid)

namespace RouteTables.Lives

variable {rid rid' start : Nat} {taken : List (List UInt8 × List Object)} {s : RouteTables}
  {r : Router}

theorem life (hs : s.Lives rid start taken) (hr : s.routers rid' = some r) (hrid : rid' = rid) :
    Life start taken (s.history rid) (some r) := by
  subst hrid
  exact hr ▸ hs

theorem setRouter (hs : s.Lives rid start taken)
    (h : rid' = rid → Life start taken (s.history rid) (some r)) :
    (s.setRouter rid' r).Lives rid start taken := by
  unfold Lives
  by_cases hrid : rid' = rid
  · subst hrid
    rw [setRouter_routers_self]
    exact h rfl
  · rw [setRouter_routers_ne _ _ (Ne.symm hrid)]
    exact hs

theorem note {e : ParcelEvent} (hs : s.Lives rid start taken)
    (h : rid' = rid → Life start taken (s.history rid ++ [e]) (s.routers rid)) :
    (s.note rid' e).Lives rid start taken := by
  unfold Lives
  by_cases hrid : rid' = rid
  · subst hrid
    rw [note_history_self]
    exact h rfl
  · rw [note_history_ne _ _ (Ne.symm hrid)]
    exact hs

theorem setRouter_note {e : ParcelEvent} (hs : s.Lives rid start taken)
    (h : rid' = rid → Life start taken (s.history rid ++ [e]) (some r)) :
    ((s.setRouter rid' r).note rid' e).Lives rid start taken := by
  unfold Lives
  by_cases hrid : rid' = rid
  · subst hrid
    rw [note_history_self]
    show Life _ _ _ ((s.setRouter rid' r).routers rid')
    rw [setRouter_routers_self]
    exact h rfl
  · rw [note_history_ne _ _ (Ne.symm hrid)]
    show Life _ _ _ ((s.setRouter rid' r).routers rid)
    rw [setRouter_routers_ne _ _ (Ne.symm hrid)]
    exact hs

theorem dropRouter (hs : s.Lives rid start taken) (rid' : Nat) :
    (s.dropRouter rid').Lives rid start taken := by
  unfold Lives at hs ⊢
  by_cases hrid : rid' = rid
  · subst hrid
    have hnone : (s.dropRouter rid').routers rid' = none := Function.update_self ..
    rw [dropRouter_history_self, hnone]
    cases hr : s.routers rid' with
    | none =>
        rw [hr] at hs
        exact hs
    | some r =>
        rw [hr] at hs
        exact hs.remove
  · have hsame : (s.dropRouter rid').routers rid = s.routers rid :=
      Function.update_of_ne (Ne.symm hrid) ..
    rw [dropRouter_history_ne _ (Ne.symm hrid), hsame]
    exact hs

/-- A router is written back from which a flush has taken its parcels. -/
theorem putPopped (hs : s.Lives rid start taken) (hr : s.routers rid' = some r) :
    (endState ((putPopped rid' r.collectToFlush.2.2 r.collectToFlush.2.1).run s)).Lives
      rid start taken := by
  have hcollect (hrid : rid' = rid) := (hs.life hr hrid).collectToFlush
  unfold Ipcz.putPopped
  rw [run_modify]
  show Lives rid start taken (if _ then _ else _)
  split_ifs with hempty
  · -- nothing is noted where nothing was taken
    refine hs.setRouter fun hrid => ?_
    have hlife := hcollect hrid
    rw [List.isEmpty_iff.mp hempty] at hlife
    refine hlife.congr ?_ ?_ ?_ (fun hmem => ?_) (fun r h => ⟨r, h, .refl r⟩) id
    · rw [acceptedIn_append]
      exact (List.append_nil _).symm
    · rw [serializedIn_append]
      exact (List.append_nil _).symm
    · rw [poppedIn_append]
      exact (List.append_nil _).symm
    · simpa using hmem
  · exact hs.setRouter_note hcollect

end RouteTables.Lives

/-- Whatever a flush does, a router with its history lives on. -/
theorem life_steps (rid start : Nat) (taken : List (List UInt8 × List Object)) :
    FlushSteps (fun _ : Unit => RouteTables.Lives rid start taken) fun _ => True where
  holds _ _ := .any _
  quiet hs hq := by
    unfold RouteTables.Lives
    rw [hq.history, hq.routers]
    exact hs
  rewire hs hr h := hs.setRouter fun hrid => (hs.life hr hrid).keeps h.keepsInbound
  acceptInbound hs hr _ h := hs.setRouter_note fun hrid => (hs.life hr hrid).accept h
  acceptOutbound := by
    intro _ s rid' r r' p hs hr _ h
    obtain ⟨q, -, rfl⟩ := Option.map_eq_some_iff.mp h
    exact hs.setRouter fun hrid =>
      (hs.life hr hrid).keeps ⟨rfl, rfl, rfl, rfl, fun _ hl => hl, id⟩
  deliver hs hr hinward := hs.setRouter fun hrid => (hs.life hr hrid).deliver hinward
  becomeProxy linkId _ outward _ hs hr hinward hlinks hnext :=
    hs.setRouter_note fun hrid => (hs.life hr hrid).becomeProxy hinward linkId hnext hlinks outward
  proxyLink := by
    intro _ s rid' r inward linkId d sublink hs hr hinward hnoted hsublink
    obtain ⟨unread, hmem⟩ := hnoted
    exact hs.setRouter fun hrid => (hs.life hr hrid).proxyLink hinward (hrid ▸ hmem) hsublink
  parcels := by
    intro _ info flush rid' _ htransmit
    unfold flushParcels
    refine FlushSteps.modifyRouter fun s r hs hr => ?_
    have hput := hs.putPopped hr
    generalize r.collectToFlush = collected at hput ⊢
    obtain ⟨outbound, inbound, r'⟩ := collected
    have hpopped : Yields (RouteTables.Lives rid start taken)
        (transmitPopped info flush rid' outbound inbound) fun _ => True := by
      refine yields_transmitPopped (fun s link p hs => ?_) (fun s hs => ?_)
        (fun x _ => htransmit () x.1 x.2 trivial) fun x _ => htransmit () x.1 x.2 trivial
      · exact hs.note fun _ => Life.note hs rfl rfl rfl
      · exact hs.note fun _ => Life.note hs rfl rfl rfl
    exact (hpopped _ hput).1
  dropRouter rid' hs := hs.dropRouter rid'
  send _ _ _ hs _ := hs
  log _ _ hs := hs

end MojoRs.Ipcz
