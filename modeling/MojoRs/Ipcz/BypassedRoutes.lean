/-
MojoRs/Ipcz/BypassedRoutes.lean

Routes of the acceptor that the broker bypasses, once or more often.  A route
starts on a sublink and every bypass gives it another one; the broker sends its
parcels with consecutive numbers, some over each sublink, and closes it on the
last one.

A bypassed router stays where it is in the map of the routers, under the
sublink it started on.  So what comes over a later sublink finds no router: a
parcel waits for ever, a closure is ignored and a further bypass is an error.
The route is served exactly if nothing comes over a later sublink
(`delivers_iff`).

Main results: `arrive_sameView`, `view_exec`, `over_of_delivers`,
`delivers_iff`.
-/
import MojoRs.Lib.Run
import MojoRs.Ipcz.AcceptorEffects

namespace MojoRs.Ipcz

open Lib
open Function (update)

namespace Acceptor

/-! ### Runs -/

/-- The acceptor after an arrival. -/
def step (s : Acceptor) (a : Arrival) : Acceptor := endState ((arrive a).run s)

/-- The handler does not fail. -/
def Returns (s : Acceptor) (a : Arrival) : Prop := ∃ s', (arrive a).run s = .ok ⟨⟩ s'

/-- A parcel as its portal gets it. -/
def assemble (s : Acceptor) (p : AcceptParcel) (fds : List OwnedFd) : Option Message :=
  match (parcelData p).run s with
  | .error _ _ => none
  | .ok data _ =>
      match claimObjects fds p.handleTypes p.driverObjects with
      | .ok (objects, [], false) => some (data, objects)
      | _ => none

/-- The number of a parcel that comes over a sublink. -/
def numberOver (sublink : UInt64) : Arrival → Option Nat
  | .message (.acceptParcel p) _ =>
      if p.sublink = sublink then some p.sequenceNumber.toNat else none
  | _ => none

/-- What the parcel of an arrival over a sublink delivers. -/
def messageOver (sublink : UInt64) (s : Acceptor) : Arrival → Option Message
  | .message (.acceptParcel p) fds => if p.sublink = sublink then assemble s p fds else none
  | _ => none

/-- What comes over a sublink in a run. -/
def messagesOver (sublink : UInt64) : Acceptor → List Arrival → List Message
  | _, [] => []
  | s, a :: as => (messageOver sublink s a).toList ++ messagesOver sublink (step s a) as

/-- A bypass of a route on these sublinks, from where and to where. -/
def bypassAmong (sublinks : List UInt64) : Arrival → Option (UInt64 × UInt64)
  | .message (.bypassPeerWithLink sublink newSublink _ _) _ =>
      if sublink ∈ sublinks ∨ newSublink ∈ sublinks then some (sublink, newSublink) else none
  | _ => none

/-- Something of a route that comes over a sublink. -/
def Arrival.Over (sublink : UInt64) (a : Arrival) : Prop :=
  (numberOver sublink a).isSome ∨ a.Closes sublink ∨ a.Bypasses sublink

/-! ### What the broker does, and what is expected of the acceptor -/

/-- A link state that can be adopted. -/
def Adoptable (s : Acceptor) (desc : FragmentDescriptor) : Prop :=
  desc.isNull = false ∧ routerLinkStateSize ≤ desc.size.toNat ∧ s.broken = false ∧
    ∃ reg, s.linkMemory = some reg ∧ reg.fragment desc = .ok ()

/-- Parcels of the route come whole, and its bypasses with a link state;
everything else is handled without an error. -/
def Expected (sublinks : List UInt64) (s : Acceptor) (a : Arrival) : Prop :=
  match a with
  | .message (.acceptParcel p) fds =>
      if p.sublink ∈ sublinks then
        p.numSubparcels = 1 ∧ p.subparcelIndex = 0 ∧ (assemble s p fds).isSome
      else Returns s a
  | .message (.acceptParcelDriverObjects sublink _ _) _ => sublink ∉ sublinks ∧ Returns s a
  | .message (.routeDisconnected sublink) _ => sublink ∉ sublinks
  | .message (.bypassPeerWithLink sublink newSublink desc _) _ =>
      if sublink ∈ sublinks ∨ newSublink ∈ sublinks then Adoptable s desc else Returns s a
  | _ => Returns s a

/-- The route starts on `sublink`, and nothing is known of its later ones. -/
structure AtStart (s : Acceptor) (sublink : UInt64) (later : List UInt64) (r : Router)
    (p : Portal) : Prop where
  router : s.routers sublink = some r
  portal : r.portal = some p
  opened : r.closed = false
  unused : ∀ l ∈ later, s.routers l = none

/-- Consecutive parcels from number `n` on, over one sublink after the other,
though they need not arrive so; a bypass from each sublink to the next; and a
closure, if any, on the last one. -/
structure BrokerSends (sublink : UInt64) (later : List UInt64) (n : Nat) (as : List Arrival) :
    Prop where
  nodup : (sublink :: later).Nodup
  consecutive : ∃ count,
    (sublink :: later).flatMap (fun l => as.filterMap (numberOver l)) = List.range' n count
  bypasses : as.filterMap (bypassAmong (sublink :: later)) = (sublink :: later).zip later
  closure : ∀ a ∈ as, ∀ l ∈ sublink :: later, a.Closes l →
    l = (sublink :: later).getLast (List.cons_ne_nil _ _)

/-- No handler fails, the portal gets every parcel once, in the order of their
numbers, and the closure closes the route. -/
structure Delivers (s : Acceptor) (sublink : UInt64) (later : List UInt64) (p : Portal)
    (as : List Arrival) : Prop where
  returns : Meets step Returns s as
  delivered : ∃ r' p', (exec step s as).routers sublink = some r' ∧ r'.portal = some p' ∧
    p'.delivered = p.delivered ++ (sublink :: later).flatMap (fun l => messagesOver l s as) ∧
    ((∃ a ∈ as, ∃ l ∈ sublink :: later, a.Closes l) → r'.closed = true)

/-! ### One sublink -/

/-- What an arrival may change of the router on a sublink. -/
structure RouteView where
  inboundSeq : Nat
  closed : Bool
  delivered : Option (List Message)
  deriving DecidableEq

/-- What counts of a router for the route. -/
def Router.view (r : Router) : RouteView :=
  ⟨r.inboundSeq, r.closed, r.portal.map (·.delivered)⟩

/-- The same for the router of a sublink. -/
def view (s : Acceptor) (sublink : UInt64) : Option RouteView := (s.routers sublink).map (·.view)

/-- The route of a sublink stays. -/
def SameView (sublink : UInt64) (s s' : Acceptor) : Prop := s'.view sublink = s.view sublink

/-- A sublink without a router stays without. -/
def KeepsNone (sublink : UInt64) (s s' : Acceptor) : Prop :=
  s.routers sublink = none → s'.routers sublink = none

section Steps

variable {sublink : UInt64} {a : Arrival} {s s' : Acceptor} {r : Router}

instance : Std.Refl (SameView sublink) := ⟨fun _ => rfl⟩

instance : IsTrans Acceptor (SameView sublink) := ⟨fun _ _ _ h h' => Eq.trans h' h⟩

instance : Std.Refl (KeepsNone sublink) := ⟨fun _ h => h⟩

instance : IsTrans Acceptor (KeepsNone sublink) := ⟨fun _ _ _ h h' hs => h' (h hs)⟩

theorem setRouter_view {sublink' : UInt64} (hrouter : s.routers sublink' = some r) {r' : Router}
    (h : sublink' = sublink → r'.view = r.view) :
    (s.setRouter sublink' r').view sublink = s.view sublink := by
  by_cases hsublink : sublink' = sublink
  · subst hsublink
    rw [view, view, setRouter_self, hrouter]
    exact congrArg some (h rfl)
  · rw [view, view, setRouter_of_ne (Ne.symm hsublink)]

theorem setRouter_none {sublink' : UInt64} (hrouter : s.routers sublink' = some r) (r' : Router) :
    KeepsNone sublink s (s.setRouter sublink' r') := by
  intro hnone
  have hsublink : sublink ≠ sublink' := by
    rintro rfl
    rw [hnone] at hrouter
    cases hrouter
  rw [setRouter_of_ne hsublink, hnone]

/-- What is not about a route leaves it. -/
theorem arrive_sameView (hover : ¬a.DeliversOver sublink) (hcloses : ¬a.Closes sublink) :
    Maintains (SameView sublink) (arrive a) := by
  apply maintains_of_effect
  intro s s' h
  cases h with
  | quiet hrouters hpending => exact congrArg (Option.map Router.view) (congrFun hrouters sublink)
  | pending half hkey => rfl
  | accepts message hover' hrouter =>
      apply setRouter_view hrouter
      rintro rfl
      exact absurd hover' hover
  | edges primary decaying hbypass hrouter => exact setRouter_view hrouter fun _ => rfl
  | closes hcloses' hrouter =>
      apply setRouter_view hrouter
      rintro rfl
      exact absurd hcloses' hcloses
  | takes hrouter =>
      refine setRouter_view hrouter fun _ => ?_
      rw [Router.view, Router.view, Option.map_map]
      congr 2
      funext p
      exact p.pop_delivered

/-- A router never comes to a sublink that has none. -/
theorem arrive_keepsNone (a : Arrival) : Maintains (KeepsNone sublink) (arrive a) := by
  apply maintains_of_effect
  intro s s' h
  cases h with
  | quiet hrouters hpending => exact fun hnone => (congrFun hrouters sublink).trans hnone
  | pending half hkey => exact id
  | accepts message hover hrouter => exact setRouter_none hrouter _
  | edges primary decaying hbypass hrouter => exact setRouter_none hrouter _
  | closes hcloses hrouter => exact setRouter_none hrouter _
  | takes hrouter => exact setRouter_none hrouter _

end Steps

/-! ### Parcels of the route -/

section Parcels

variable {sublink : UInt64} {sublinks : List UInt64} {s : Acceptor} {p : AcceptParcel}
  {fds : List OwnedFd} {message : Message} {r : Router}

/-- A whole parcel is delivered. -/
theorem onAcceptParcel_run (hsingle : p.numSubparcels = 1) (hindex : p.subparcelIndex = 0)
    (h : assemble s p fds = some message) :
    (onAcceptParcel p fds).run s =
      (deliverParcel p.sublink p.sequenceNumber.toNat message.1 message.2).run s := by
  rw [assemble] at h
  cases hdata : (parcelData p).run s with
  | error e s' =>
      rw [hdata] at h
      cases h
  | ok data s' =>
      rw [hdata] at h
      obtain rfl := parcelData_ok hdata
      dsimp only at h
      split at h
      next objects hclaim =>
        cases h
        unfold onAcceptParcel
        rw [hsingle, hindex, hclaim]
        show (parcelData p >>= _).run s = _
        rw [run_bind_of_ok hdata]
        rfl
      · cases h

/-- Where its number is the next one, its portal gets it. -/
theorem parcel_next (hsingle : p.numSubparcels = 1) (hindex : p.subparcelIndex = 0)
    (h : assemble s p fds = some message) (hrouter : s.routers p.sublink = some r)
    (hnumber : p.sequenceNumber.toNat = r.inboundSeq) :
    Returns s (.message (.acceptParcel p) fds) ∧
      (step s (.message (.acceptParcel p) fds)).routers p.sublink =
        some (r.accept p.sublink message) := by
  obtain ⟨replyReady, hdeliver⟩ := deliverParcel_next hrouter message.1 message.2
  have hrun : (onAcceptParcel p fds).run s = _ :=
    (onAcceptParcel_run hsingle hindex h).trans (hnumber ▸ hdeliver)
  refine ⟨⟨_, hrun⟩, ?_⟩
  show (endState ((onAcceptParcel p fds).run s)).routers p.sublink = _
  rw [hrun]
  exact setRouter_self ..

/-- Otherwise the run ends. -/
theorem parcel_returns (hsingle : p.numSubparcels = 1) (hindex : p.subparcelIndex = 0)
    (h : assemble s p fds = some message) (hrouter : s.routers p.sublink = some r)
    (hreturns : Returns s (.message (.acceptParcel p) fds)) :
    p.sequenceNumber.toNat = r.inboundSeq := by
  obtain ⟨s', hrun⟩ := hreturns
  have hrun' : (onAcceptParcel p fds).run s = .ok ⟨⟩ s' := hrun
  rw [onAcceptParcel_run hsingle hindex h] at hrun'
  by_contra hnumber
  unfold deliverParcel at hrun'
  rw [run_get_bind, hrouter] at hrun'
  dsimp only at hrun'
  rw [if_pos hnumber] at hrun'
  cases hrun'

theorem messageOver_isSome {a : Arrival} (hexpected : Expected sublinks s a)
    (hsublink : sublink ∈ sublinks) :
    (messageOver sublink s a).isSome = (numberOver sublink a).isSome := by
  cases a with
  | written shared => rfl
  | taken sublink' => rfl
  | message msg fds =>
      cases msg with
      | acceptParcel p =>
          show (if _ then _ else _ : Option Message).isSome = (if _ then _ else _ : Option Nat).isSome
          split_ifs with hp
          · subst hp
            have hparcel : p.numSubparcels = 1 ∧ p.subparcelIndex = 0 ∧ (assemble s p fds).isSome :=
              (if_pos hsublink).mp hexpected
            rw [hparcel.2.2]
            rfl
          · rfl
      | _ => rfl

end Parcels

/-! ### Bypasses of the route -/

section Bypasses

variable {sublink newSublink n : UInt64} {s : Acceptor} {desc : FragmentDescriptor} {r : Router}

theorem sendLinkMessage_ok (hbroken : s.broken = false) (msg : DecodedMessage) :
    (sendLinkMessage msg).run s = .ok ⟨⟩ { s with
      nextLinkSeq := s.nextLinkSeq + 1, sent := s.sent ++ [(s.nextLinkSeq, msg)] } := by
  unfold sendLinkMessage
  rw [run_get_bind, hbroken]
  rfl

theorem bypass_unknown (hnone : s.routers sublink = none) (s' : Acceptor) :
    (onBypassPeerWithLink sublink newSublink desc n).run s ≠ .ok ⟨⟩ s' := by
  intro hrun
  unfold onBypassPeerWithLink at hrun
  dsimp only at hrun
  split at hrun
  · cases hrun
  obtain ⟨reg, s₁, hreg, hrest⟩ := bind_eq_ok.mp hrun
  obtain ⟨-, rfl⟩ := memory_ok hreg
  split at hrest
  · cases hrest
  rw [run_get_bind, hnone] at hrest
  cases hrest

theorem drain_returns (hnone : s.routers newSublink = none) (queued : List Message) :
    ∃ s', (queued.forM fun (data, objects) => deliverParcel newSublink 0 data objects :
      DispatchM Unit).run s = .ok ⟨⟩ s' := by
  induction queued generalizing s with
  | nil => exact ⟨s, rfl⟩
  | cons message queued ih =>
      obtain ⟨s', hs'⟩ := ih (s := { s with
        earlyParcels := update s.earlyParcels newSublink
          (s.earlyParcels newSublink ++ [(message.1, message.2)]) }) hnone
      refine ⟨s', ?_⟩
      show EStateM.run (deliverParcel newSublink 0 message.1 message.2 >>= fun _ => _) s = _
      rw [run_bind_of_ok (deliverParcel_early hnone 0 message.1 message.2)]
      exact hs'

theorem setSideBStable_returns {reg : BufferRegistry} (hreg : s.linkMemory = some reg)
    (hfragment : reg.fragment desc = .ok ()) (hsize : routerLinkStateSize ≤ desc.size.toNat) :
    ∃ shared, (setSideBStable desc).run s = .ok ⟨⟩ { s with shared } := by
  unfold setSideBStable
  rw [run_bind_of_ok (memory_of_some hreg), if_neg (not_lt.mpr hsize), hfragment]
  exact ⟨_, rfl⟩

/-- A link that can be adopted is. -/
theorem bypass_returns (hrouter : s.routers sublink = some r) (hnew : s.routers newSublink = none)
    (hadopt : Adoptable s desc) :
    ∃ s', (onBypassPeerWithLink sublink newSublink desc n).run s = .ok ⟨⟩ s' := by
  obtain ⟨hnull, hsize, hbroken, reg, hreg, hfragment⟩ := hadopt
  have hne : newSublink ≠ sublink := by
    rintro rfl
    rw [hnew] at hrouter
    cases hrouter
  have hdrain (s' : Acceptor) (hs' : s'.routers newSublink = none) : ∃ s'', (do
      let queued := (← get).earlyParcels newSublink
      modify fun s => { s with earlyParcels := update s.earlyParcels newSublink [] }
      queued.forM fun (data, objects) => deliverParcel newSublink 0 data objects :
        DispatchM Unit).run s' = .ok ⟨⟩ s'' :=
    drain_returns (s := { s' with earlyParcels := update s'.earlyParcels newSublink [] }) hs' _
  unfold onBypassPeerWithLink
  dsimp only
  rw [if_neg (Bool.eq_false_iff.mp hnull), run_bind_of_ok (memory_of_some hreg), hfragment,
    run_get_bind, hrouter]
  show ∃ s', EStateM.run (sendLinkMessage _ >>= _)
    (s.setRouter sublink (r.bypassed newSublink desc)) = .ok () s'
  set bypassed := s.setRouter sublink (r.bypassed newSublink desc)
  have hnone : bypassed.routers newSublink = none := (setRouter_of_ne hne ..).trans hnew
  obtain ⟨s₁, hsend, hmemory, hrouters⟩ : ∃ s₁, (sendLinkMessage (.stopProxyingToLocalPeer
      r.primary.sublink (.ofNat r.outboundSeq))).run bypassed = .ok () s₁ ∧
      s₁.linkMemory = some reg ∧ s₁.routers = bypassed.routers :=
    ⟨_, sendLinkMessage_ok (s := bypassed) hbroken _, hreg, rfl⟩
  rw [run_bind_of_ok hsend]
  split
  · -- the old link has decayed
    set decayed := s₁.setRouter sublink { r.bypassed newSublink desc with decaying := none }
    obtain ⟨shared, hstable⟩ := setSideBStable_returns (s := decayed) hmemory hfragment hsize
    show ∃ s', EStateM.run (setSideBStable desc >>= _) decayed = .ok () s'
    rw [run_bind_of_ok hstable]
    apply hdrain
    show decayed.routers newSublink = none
    rw [setRouter_of_ne hne, hrouters, hnone]
  · apply hdrain
    rw [hrouters, hnone]

end Bypasses

/-! ### The sublink that a route started on -/

section Run

variable {sublink : UInt64} {sublinks later : List UInt64} {s : Acceptor} {a : Arrival}
  {as : List Arrival} {v : RouteView} {d : List Message}

theorem numberOver_isSome (h : (numberOver sublink a).isSome) :
    ∃ p fds, a = .message (.acceptParcel p) fds ∧ p.sublink = sublink ∧
      numberOver sublink a = some p.sequenceNumber.toNat := by
  cases a with
  | written shared => cases h
  | taken sublink' => cases h
  | message msg fds =>
      cases msg with
      | acceptParcel p =>
          change (if _ then _ else _ : Option Nat).isSome at h
          split_ifs at h with hp
          · exact ⟨p, fds, rfl, hp, if_pos hp⟩
          · cases h
      | _ => cases h

theorem messageOver_eq_none (hnumber : (numberOver sublink a).isSome = false) (s : Acceptor) :
    messageOver sublink s a = none := by
  cases a with
  | written shared => rfl
  | taken sublink' => rfl
  | message msg fds =>
      cases msg with
      | acceptParcel p =>
          change (if _ then _ else _ : Option Nat).isSome = false at hnumber
          split_ifs at hnumber with hp
          · cases hnumber
          · exact if_neg hp
      | _ => rfl

/-- What is delivered over a sublink of the route, if it is not one of its
parcels, are early parcels of a bypass. -/
theorem not_deliversOver (hsublink : sublink ∈ sublinks) (hexpected : Expected sublinks s a)
    (hbypass : ∀ pair, bypassAmong sublinks a = some pair → pair.2 ≠ sublink)
    (hnumber : ¬(numberOver sublink a).isSome) : ¬a.DeliversOver sublink := by
  intro hover
  cases a with
  | written shared => exact hover
  | taken sublink' => exact hover
  | message msg fds =>
      cases msg with
      | acceptParcel p => exact hnumber (congrArg Option.isSome (if_pos hover))
      | acceptParcelDriverObjects sublink' n driverObjects =>
          change sublink' = sublink at hover
          exact absurd (hover ▸ hsublink) hexpected.1
      | bypassPeerWithLink sublink' newSublink desc n =>
          change newSublink = sublink at hover
          exact hbypass (sublink', newSublink) (if_pos (Or.inr (hover ▸ hsublink))) hover
      | _ => exact hover

/-- A closure closes the router on its sublink and does nothing else to it. -/
theorem routeClosed_view {n : UInt64} {fds : List OwnedFd} (hv : s.view sublink = some v) :
    (step s (.message (.routeClosed sublink n) fds)).view sublink =
      some { v with closed := true } := by
  obtain ⟨r, hrouter, rfl⟩ := Option.map_eq_some_iff.mp hv
  show (endState ((onRouteClosed sublink).run s)).view sublink = _
  unfold onRouteClosed
  rw [run_get_bind, hrouter]
  show ((s.setRouter sublink { r with closed := true }).routers sublink).map _ = _
  rw [setRouter_self]
  rfl

/-- A route is closed, not disconnected. -/
theorem closes_expected (hsublink : sublink ∈ sublinks) (hexpected : Expected sublinks s a)
    (hcloses : a.Closes sublink) : ∃ n fds, a = .message (.routeClosed sublink n) fds := by
  cases a with
  | written shared => exact absurd hcloses id
  | taken sublink' => exact absurd hcloses id
  | message msg fds =>
      cases msg with
      | routeClosed sublink' n =>
          change sublink' = sublink at hcloses
          exact ⟨n, fds, by rw [hcloses]⟩
      | routeDisconnected sublink' =>
          change sublink' = sublink at hcloses
          exact absurd (hcloses ▸ hsublink) hexpected
      | _ => exact absurd hcloses id

/-- What one arrival does for the route. -/
theorem view_step (hv : s.view sublink = some v) (hd : v.delivered = some d)
    (hsublink : sublink ∈ sublinks) (hexpected : Expected sublinks s a) (hreturns : Returns s a)
    (hbypass : ∀ pair, bypassAmong sublinks a = some pair → pair.2 ≠ sublink) :
    ∃ v', (step s a).view sublink = some v' ∧
      v'.inboundSeq = v.inboundSeq + (numberOver sublink a).toList.length ∧
      v'.delivered = some (d ++ (messageOver sublink s a).toList) ∧
      (v'.closed = true ↔ v.closed = true ∨ a.Closes sublink) := by
  by_cases hnumber : (numberOver sublink a).isSome
  · -- one of its parcels
    obtain ⟨p, fds, rfl, rfl, hnumber⟩ := numberOver_isSome hnumber
    obtain ⟨hsingle, hindex, hassemble⟩ := (if_pos hsublink).mp hexpected
    obtain ⟨message, hmessage⟩ := Option.isSome_iff_exists.mp hassemble
    obtain ⟨r, hrouter, rfl⟩ := Option.map_eq_some_iff.mp hv
    have hnext := parcel_returns hsingle hindex hmessage hrouter hreturns
    obtain ⟨-, hrouter'⟩ := parcel_next hsingle hindex hmessage hrouter hnext
    have hover : messageOver p.sublink s (.message (.acceptParcel p) fds) = some message :=
      (if_pos rfl).trans hmessage
    refine ⟨(r.accept p.sublink message).view, ?_, ?_, ?_, ?_⟩
    · rw [view, hrouter']
      rfl
    · rw [hnumber]
      rfl
    · obtain ⟨portal, hportal, hdelivered⟩ := Option.map_eq_some_iff.mp hd
      rw [hover]
      show (r.portal.map _).map _ = some _
      rw [hportal, ← hdelivered]
      exact congrArg some (portal.push_delivered message)
    · exact (or_iff_left id).symm
  · rw [messageOver_eq_none (Bool.eq_false_of_not_eq_true hnumber) s,
      Option.not_isSome_iff_eq_none.mp hnumber, Option.toList_none, Option.toList_none,
      List.append_nil]
    by_cases hcloses : a.Closes sublink
    · -- its closure
      obtain ⟨n, fds, rfl⟩ := closes_expected hsublink hexpected hcloses
      exact ⟨_, routeClosed_view hv, rfl, hd, (iff_of_true rfl (Or.inr hcloses))⟩
    · -- nothing that concerns it
      have hover := not_deliversOver hsublink hexpected hbypass hnumber
      have hsame : (step s a).view sublink = s.view sublink := arrive_sameView hover hcloses s
      exact ⟨v, hsame.trans hv, rfl, hd, (or_iff_left hcloses).symm⟩

/-- What a whole run does for it. -/
theorem view_exec (hv : s.view sublink = some v) (hd : v.delivered = some d)
    (hsublink : sublink ∈ sublinks) (hexpected : Meets step (Expected sublinks) s as)
    (hreturns : Meets step Returns s as)
    (hbypass : ∀ a ∈ as, ∀ pair, bypassAmong sublinks a = some pair → pair.2 ≠ sublink) :
    ∃ v', (exec step s as).view sublink = some v' ∧
      v'.delivered = some (d ++ messagesOver sublink s as) ∧
      (v'.closed = true ↔ v.closed = true ∨ ∃ a ∈ as, a.Closes sublink) := by
  induction as generalizing s v d with
  | nil => exact ⟨v, hv, by rw [messagesOver, List.append_nil, hd], by simp⟩
  | cons a as ih =>
      rw [List.forall_mem_cons] at hbypass
      obtain ⟨v₁, hv₁, -, hd₁, hclosed₁⟩ :=
        view_step hv hd hsublink hexpected.1 hreturns.1 hbypass.1
      obtain ⟨v', hv', hd', hclosed'⟩ := ih hv₁ hd₁ hexpected.2 hreturns.2 hbypass.2
      refine ⟨v', hv', ?_, ?_⟩
      · rw [hd', messagesOver, List.append_assoc]
      · simp [hclosed', hclosed₁, or_assoc]

/-- Nothing comes over a sublink if no message does. -/
theorem numberOver_eq_none (hsublink : sublink ∈ sublinks)
    (hexpected : Meets step (Expected sublinks) s as) (h : messagesOver sublink s as = []) :
    ∀ a ∈ as, (numberOver sublink a).isSome = false := by
  induction as generalizing s with
  | nil => simp
  | cons a as ih =>
      obtain ⟨hhead, htail⟩ := List.append_eq_nil_iff.mp h
      rw [List.forall_mem_cons, ← messageOver_isSome hexpected.1 hsublink]
      refine ⟨?_, ih hexpected.2 htail⟩
      rw [Option.toList_eq_nil_iff.mp hhead]
      rfl

theorem messagesOver_eq_nil (h : as.filterMap (numberOver sublink) = []) (s : Acceptor) :
    messagesOver sublink s as = [] := by
  rw [List.filterMap_eq_nil_iff] at h
  induction as generalizing s with
  | nil => rfl
  | cons a as ih =>
      rw [List.forall_mem_cons] at h
      rw [messagesOver, messageOver_eq_none (by rw [h.1]; rfl), ih h.2]
      rfl

/-- A bypass of a sublink without a router is an error. -/
theorem not_bypasses (hnone : s.routers sublink = none) (hreturns : Meets step Returns s as) :
    ∀ a ∈ as, ¬a.Bypasses sublink := by
  induction as generalizing s with
  | nil => simp
  | cons a as ih =>
      rw [List.forall_mem_cons]
      refine ⟨fun hbypass => ?_, ih (arrive_keepsNone a s hnone) hreturns.2⟩
      obtain ⟨s', hrun⟩ := hreturns.1
      cases a with
      | written shared => exact hbypass
      | taken sublink' => exact hbypass
      | message msg fds =>
          cases msg with
          | bypassPeerWithLink sublink' newSublink desc n =>
              change sublink' = sublink at hbypass
              subst hbypass
              exact bypass_unknown hnone s' hrun
          | _ => exact hbypass

/-- An arrival of the route returns if it comes over the sublink that the route
started on. -/
theorem returns_step {r : Router} (hrouter : s.routers sublink = some r)
    (hunused : ∀ l ∈ later, s.routers l = none)
    (hexpected : Expected (sublink :: later) s a)
    (hnumber : ∀ n ∈ numberOver sublink a, n = r.inboundSeq)
    (hbypass : ∀ pair, bypassAmong (sublink :: later) a = some pair →
      pair.1 ∈ sublink :: later ∧ pair.2 ∈ later)
    (hover : ∀ l ∈ later, ¬a.Over l) : Returns s a := by
  cases a with
  | written shared => exact hexpected
  | taken sublink' => exact hexpected
  | message msg fds =>
      cases msg with
      | acceptParcel p =>
          by_cases hp : p.sublink ∈ sublink :: later
          · obtain ⟨hsingle, hindex, hassemble⟩ := (if_pos hp).mp hexpected
            obtain ⟨message, hmessage⟩ := Option.isSome_iff_exists.mp hassemble
            obtain rfl | hlater := List.mem_cons.mp hp
            · exact (parcel_next hsingle hindex hmessage hrouter (hnumber _ (if_pos rfl))).1
            · exact absurd (Or.inl (congrArg Option.isSome (if_pos rfl))) (hover _ hlater)
          · exact (if_neg hp).mp hexpected
      | acceptParcelDriverObjects sublink' n driverObjects => exact hexpected.2
      | routeDisconnected sublink' =>
          show ∃ s', (onRouteClosed sublink').run s = .ok ⟨⟩ s'
          unfold onRouteClosed
          rw [run_get_bind]
          split
          · exact ⟨_, rfl⟩
          · exact ⟨_, rfl⟩
      | bypassPeerWithLink sublink' newSublink desc n =>
          by_cases hours : sublink' ∈ sublink :: later ∨ newSublink ∈ sublink :: later
          · obtain ⟨hfrom, hto⟩ := hbypass (sublink', newSublink) (if_pos hours)
            obtain rfl | hlater := List.mem_cons.mp hfrom
            · exact bypass_returns hrouter (hunused _ hto) ((if_pos hours).mp hexpected)
            · exact absurd (Or.inr (Or.inr rfl)) (hover _ hlater)
          · exact (if_neg hours).mp hexpected
      | _ => exact hexpected

/-- If all of the route comes over that sublink, no handler fails. -/
theorem returns_exec (hnodup : (sublink :: later).Nodup) {r : Router}
    (hrouter : s.routers sublink = some r) (hportal : r.portal.isSome)
    (hunused : ∀ l ∈ later, s.routers l = none)
    (hexpected : Meets step (Expected (sublink :: later)) s as) {count : Nat}
    (hnumbers : as.filterMap (numberOver sublink) = List.range' r.inboundSeq count)
    (hbypass : ∀ a ∈ as, ∀ pair, bypassAmong (sublink :: later) a = some pair →
      pair.1 ∈ sublink :: later ∧ pair.2 ∈ later)
    (hover : ∀ a ∈ as, ∀ l ∈ later, ¬a.Over l) : Meets step Returns s as := by
  induction as generalizing s r count with
  | nil => trivial
  | cons a as ih =>
      rw [List.forall_mem_cons] at hbypass hover
      -- the parcel, if it is one, has the first of the numbers
      obtain ⟨hnumber, count', hnumbers'⟩ : (∀ n ∈ numberOver sublink a, n = r.inboundSeq) ∧
          ∃ count', as.filterMap (numberOver sublink) =
            List.range' (r.inboundSeq + (numberOver sublink a).toList.length) count' := by
        cases hn : numberOver sublink a with
        | none =>
            rw [List.filterMap_cons_none hn] at hnumbers
            exact ⟨by simp, count, hnumbers⟩
        | some n =>
            rw [List.filterMap_cons_some hn] at hnumbers
            cases count with
            | zero => cases hnumbers
            | succ count =>
                obtain ⟨hhead, htail⟩ := List.cons.inj hnumbers
                refine ⟨fun m hm => ?_, count, htail⟩
                rw [← hhead, ← Option.some.inj hm]
      have hreturns := returns_step hrouter hunused hexpected.1 hnumber hbypass.1 hover.1
      refine ⟨hreturns, ?_⟩
      have hnotin : sublink ∉ later := (List.nodup_cons.mp hnodup).1
      obtain ⟨portal, hsome⟩ := Option.isSome_iff_exists.mp hportal
      obtain ⟨v', hv', hseq, hd', -⟩ := view_step (congrArg (Option.map Router.view) hrouter)
        (congrArg (Option.map Portal.delivered) hsome) List.mem_cons_self hexpected.1 hreturns
        fun pair hpair hto => hnotin (hto ▸ (hbypass.1 pair hpair).2)
      obtain ⟨r', hrouter', rfl⟩ := Option.map_eq_some_iff.mp hv'
      refine ih hrouter' ?_ (fun l hl => arrive_keepsNone a s (hunused l hl)) hexpected.2
        (hseq ▸ hnumbers') hbypass.2 hover.2
      change r'.portal.map _ = some _ at hd'
      rw [← Option.isSome_map, hd']
      rfl

end Run

/-! ### Every sublink of the route -/

section Route

variable {s : Acceptor} {sublink : UInt64} {later : List UInt64} {r : Router} {p : Portal}
  {as : List Arrival}

theorem BrokerSends.bypass_pair {n : Nat} (hsends : BrokerSends sublink later n as) {a : Arrival}
    (ha : a ∈ as) {pair : UInt64 × UInt64} (h : bypassAmong (sublink :: later) a = some pair) :
    pair.1 ∈ sublink :: later ∧ pair.2 ∈ later := by
  have hpair : pair ∈ as.filterMap (bypassAmong (sublink :: later)) :=
    List.mem_filterMap.mpr ⟨a, ha, h⟩
  rw [hsends.bypasses] at hpair
  exact List.of_mem_zip hpair

theorem BrokerSends.notMem {n : Nat} (hsends : BrokerSends sublink later n as) :
    sublink ∉ later := (List.nodup_cons.mp hsends.nodup).1

theorem AtStart.view_eq (hstart : AtStart s sublink later r p) :
    s.view sublink = some ⟨r.inboundSeq, false, some p.delivered⟩ := by
  rw [view, hstart.router, Option.map_some, Router.view, hstart.portal, hstart.opened]
  rfl

/-- The router of the route at the end of a run without an error. -/
theorem AtStart.exec_view (hstart : AtStart s sublink later r p)
    (hsends : BrokerSends sublink later r.inboundSeq as)
    (hexpected : Meets step (Expected (sublink :: later)) s as)
    (hreturns : Meets step Returns s as) :
    ∃ r' p', (exec step s as).routers sublink = some r' ∧ r'.portal = some p' ∧
      p'.delivered = p.delivered ++ messagesOver sublink s as ∧
      (r'.closed = true ↔ ∃ a ∈ as, a.Closes sublink) := by
  obtain ⟨v, hv, hd, hclosed⟩ := view_exec hstart.view_eq rfl List.mem_cons_self hexpected hreturns
    fun a ha pair hpair hto => hsends.notMem (hto ▸ (hsends.bypass_pair ha hpair).2)
  obtain ⟨r', hrouter', rfl⟩ := Option.map_eq_some_iff.mp hv
  obtain ⟨p', hportal', hdelivered⟩ := Option.map_eq_some_iff.mp hd
  refine ⟨r', p', hrouter', hportal', hdelivered, ?_⟩
  show r'.closed = true ↔ _
  rw [show r'.closed = r'.view.closed from rfl, hclosed]
  simp

/-- A route that is served has nothing over a later sublink. -/
theorem over_of_delivers (hstart : AtStart s sublink later r p)
    (hsends : BrokerSends sublink later r.inboundSeq as)
    (hexpected : Meets step (Expected (sublink :: later)) s as)
    (h : Delivers s sublink later p as) : ∀ a ∈ as, ∀ l ∈ later, ¬a.Over l := by
  obtain ⟨r', p', hrouter, hportal, hdelivered, hclosed⟩ := h.delivered
  obtain ⟨r₁, p₁, hrouter₁, hportal₁, hdelivered₁, hclosed₁⟩ :=
    hstart.exec_view hsends hexpected h.returns
  obtain rfl : r₁ = r' := Option.some.inj (hrouter₁.symm.trans hrouter)
  obtain rfl : p₁ = p' := Option.some.inj (hportal₁.symm.trans hportal)
  -- the portal has nothing of the later sublinks
  have hlater : later.flatMap (fun l => messagesOver l s as) = [] := by
    rw [hdelivered₁, List.flatMap_cons] at hdelivered
    exact List.self_eq_append_right.mp (List.append_cancel_left hdelivered)
  rintro a ha l hl (hnumber | hcloses | hbypass)
  · have hempty := List.flatMap_eq_nil_iff.mp hlater l hl
    rw [numberOver_eq_none (List.mem_cons_of_mem _ hl) hexpected hempty a ha] at hnumber
    cases hnumber
  · obtain ⟨b, hb, hcloses'⟩ := hclosed₁.mp (hclosed ⟨a, ha, l, List.mem_cons_of_mem _ hl, hcloses⟩)
    have hlast := hsends.closure b hb sublink List.mem_cons_self hcloses'
    rw [List.getLast_cons (List.ne_nil_of_mem hl)] at hlast
    exact hsends.notMem (hlast ▸ List.getLast_mem _)
  · exact not_bypasses (hstart.unused l hl) h.returns a ha hbypass

/-- The route is served exactly if nothing of it, neither a parcel nor its
closure nor a further bypass, comes over a sublink that a bypass has given
it. -/
theorem delivers_iff (hstart : AtStart s sublink later r p)
    (hsends : BrokerSends sublink later r.inboundSeq as)
    (hexpected : Meets step (Expected (sublink :: later)) s as) :
    Delivers s sublink later p as ↔ ∀ a ∈ as, ∀ l ∈ later, ¬a.Over l := by
  constructor
  · exact over_of_delivers hstart hsends hexpected
  intro hover
  have hnothing : ∀ l ∈ later, as.filterMap (numberOver l) = [] := by
    intro l hl
    rw [List.filterMap_eq_nil_iff]
    intro a ha
    exact Option.not_isSome_iff_eq_none.mp fun hnumber => hover a ha l hl (Or.inl hnumber)
  obtain ⟨count, hnumbers⟩ := hsends.consecutive
  rw [List.flatMap_cons, List.flatMap_eq_nil_iff.mpr hnothing, List.append_nil] at hnumbers
  have hreturns : Meets step Returns s as := by
    refine returns_exec hsends.nodup hstart.router ?_ hstart.unused hexpected hnumbers
      (fun a ha pair => hsends.bypass_pair ha) hover
    rw [hstart.portal]
    rfl
  refine ⟨hreturns, ?_⟩
  obtain ⟨r', p', hrouter', hportal', hdelivered, hclosed⟩ :=
    hstart.exec_view hsends hexpected hreturns
  refine ⟨r', p', hrouter', hportal', ?_, ?_⟩
  · rw [hdelivered, List.flatMap_cons, List.flatMap_eq_nil_iff.mpr, List.append_nil]
    exact fun l hl => messagesOver_eq_nil (hnothing l hl) s
  · rintro ⟨a, ha, l, hl, hcloses⟩
    obtain rfl | hlater := List.mem_cons.mp hl
    · exact hclosed.mpr ⟨a, ha, hcloses⟩
    · exact absurd (Or.inr (Or.inl hcloses)) (hover a ha l hlater)

/-- Parcel `n` over a sublink. -/
def brokerParcel (sublink n : UInt64) : Arrival :=
  .message (.acceptParcel ⟨sublink, n, 0, 1, .null, [7], [], [], []⟩) []

/-- The bootstrap route gets sublink 12. -/
def brokerBypass (inboundSequenceLength : UInt64) : Arrival :=
  .message (.bypassPeerWithLink 1 12 ⟨primaryBufferId, 0x400, 64⟩ inboundSequenceLength) []

theorem connected_atStart :
    AtStart (connected 8 .empty .fresh) 1 [12] (initialRouter 8 1) ⟨[], []⟩ := by
  refine ⟨rfl, rfl, rfl, ?_⟩
  simp [connected, maxInitialPortals]

/-- All of the route, three parcels, came before the bypass. -/
theorem delivers_before_bypass :
    Delivers (connected 8 .empty .fresh) 1 [12] ⟨[], []⟩
      [brokerParcel 1 0, brokerParcel 1 1, brokerParcel 1 2, brokerBypass 3] := by
  refine (delivers_iff connected_atStart ⟨by decide, ⟨3, rfl⟩, rfl, ?_⟩ ?_).mpr ?_
  · simp [brokerParcel, brokerBypass, Arrival.Closes]
  · exact ⟨⟨rfl, rfl, rfl⟩, ⟨rfl, rfl, rfl⟩, ⟨rfl, rfl, rfl⟩,
      ⟨rfl, by decide, rfl, .empty, rfl, rfl⟩, trivial⟩
  · simp [brokerParcel, brokerBypass, Arrival.Over, Arrival.Closes, Arrival.Bypasses, numberOver]

/-- The first parcel over the sublink of a bypass is lost. -/
theorem parcel_after_bypass :
    AtStart (connected 8 .empty .fresh) 1 [12] (initialRouter 8 1) ⟨[], []⟩ ∧
      BrokerSends 1 [12] 0 [brokerBypass 0, brokerParcel 12 0] ∧
      Meets step (Expected [1, 12]) (connected 8 .empty .fresh)
        [brokerBypass 0, brokerParcel 12 0] ∧
      ¬Delivers (connected 8 .empty .fresh) 1 [12] ⟨[], []⟩
        [brokerBypass 0, brokerParcel 12 0] := by
  have hsends : BrokerSends 1 [12] 0 [brokerBypass 0, brokerParcel 12 0] := by
    refine ⟨by decide, ⟨1, rfl⟩, rfl, ?_⟩
    simp [brokerParcel, brokerBypass, Arrival.Closes]
  have hexpected : Meets step (Expected [1, 12]) (connected 8 .empty .fresh)
      [brokerBypass 0, brokerParcel 12 0] :=
    ⟨⟨rfl, by decide, rfl, .empty, rfl, rfl⟩, ⟨rfl, rfl, rfl⟩, trivial⟩
  refine ⟨connected_atStart, hsends, hexpected, fun h => ?_⟩
  have hover := over_of_delivers connected_atStart hsends hexpected h
  exact hover _ (List.mem_cons_of_mem _ List.mem_cons_self) 12 List.mem_cons_self (Or.inl rfl)

end Route

end Acceptor

end MojoRs.Ipcz
