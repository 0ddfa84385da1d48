/-
MojoRs/Ipcz/EarlyParcels.lean

Parcels that come before the router of their sublink (`early_parcels` in
`process_accept_parcel`).  Such a parcel goes through the whole function, is
kept at its end, and goes through all of it again when the sublink is adopted,
then without the descriptors it came with.

What the first pass does besides keeping the parcel is to make the routers of
its portals and to take the descriptors of its driver objects, and the second
pass tries to do both again.  Just a parcel that has neither is deferred without
a trace, and its replay is the pass that it would have had.

Main results: `deferral_traceless_iff`, `replay_eq_pass`.
-/
import MojoRs.Ipcz.AttachedObjects
import MojoRs.Ipcz.DescriptorSpans
import MojoRs.Ipcz.DispatchFrames

namespace MojoRs.Ipcz

open Lib RoutingAcceptor

/-! ### Spans of descriptors -/

/-- The spans of driver objects follow one another from descriptor `n` on. -/
def Consecutive : Nat → List DriverObjectRef → Prop
  | _, [] => True
  | n, r :: refs => r.firstFd = n ∧ Consecutive (n + r.numFds) refs

/-- No driver object has a descriptor. -/
def NoDescriptors (refs : List DriverObjectRef) : Prop := ∀ r ∈ refs, r.numFds = 0

theorem noDescriptors_iff {refs : List DriverObjectRef} :
    NoDescriptors refs ↔ (refs.map (·.numFds)).sum = 0 := by
  induction refs with
  | nil => exact iff_of_true nofun rfl
  | cons r refs ih =>
      rw [List.map_cons, List.sum_cons, Nat.add_eq_zero_iff, ← ih]
      exact List.forall_mem_cons

theorem Consecutive.first_eq {refs : List DriverObjectRef} {n : Nat} (h : Consecutive n refs)
    (hnone : NoDescriptors refs) : ∀ r ∈ refs, r.firstFd = n := by
  induction refs with
  | nil => exact nofun
  | cons r refs ih =>
      obtain ⟨hr, hrest⟩ := h
      rw [hnone r List.mem_cons_self, Nat.add_zero] at hrest
      intro r' hr'
      rcases List.mem_cons.mp hr' with rfl | hr'
      · exact hr
      · exact ih hrest (fun x hx => hnone x (List.mem_cons_of_mem _ hx)) r' hr'

/-! ### What the objects of a parcel take -/

/-- As many descriptors are held as the claimed objects have. -/
theorem claimObjects_ok {handleTypes : List UInt32} {identities : List Nat}
    {refs unclaimed : List DriverObjectRef} {fds : List OwnedFd} {objects : List Object}
    {split : Bool} {s s' : RoutingAcceptor}
    (h : (claimObjects handleTypes identities refs fds).run s =
      .ok (objects, unclaimed, split) s') :
    ∃ held, s' = { s with heldDriverFds := s.heldDriverFds ++ held } ∧
      held.length + (unclaimed.map (·.numFds)).sum = (refs.map (·.numFds)).sum := by
  induction handleTypes generalizing identities refs fds objects split s with
  | nil =>
      obtain ⟨hval, rfl⟩ := pure_eq_ok.mp h
      injection hval with _ hval
      injection hval with hrefs
      exact ⟨[], by simp, by simp [hrefs]⟩
  | cons ht handleTypes ih =>
      unfold claimObjects at h
      split_ifs at h
      · -- a portal
        cases identities with
        | nil => exact absurd h throw_ne_ok.mp
        | cons rid identities =>
            obtain ⟨⟨objects', rest⟩, s₁, hrun, h₁⟩ := bind_eq_ok.mp h
            obtain ⟨hval, rfl⟩ := pure_eq_ok.mp h₁
            injection hval with _ hval
            subst hval
            exact ih hrun
      · -- a driver object
        cases refs with
        | nil => exact absurd h throw_ne_ok.mp
        | cons r refs =>
            dsimp only at h
            split_ifs at h with hrange
            · cases h
            · obtain ⟨⟨⟩, s₁, hmod, h₁⟩ := bind_eq_ok.mp h
              rw [run_modify] at hmod
              injection hmod with _ hs₁
              obtain ⟨held, hs', hlen⟩ := ih h₁
              refine ⟨(fds.drop r.firstFd).take r.numFds ++ held, ?_, ?_⟩
              · rw [hs', ← hs₁]
                simp
              · rw [List.length_append, List.length_take, List.length_drop, List.map_cons,
                  List.sum_cons]
                omega
      · -- a split parcel
        obtain ⟨⟨objects', refs', split'⟩, s₁, hrun, h₁⟩ := bind_eq_ok.mp h
        obtain ⟨hval, rfl⟩ := pure_eq_ok.mp h₁
        injection hval with _ hval
        injection hval with hrefs
        subst hrefs
        exact ih hrun
      · exact absurd h throw_ne_ok.mp
      · exact absurd h throw_ne_ok.mp

theorem assembleObjects_ok {p : ParcelMessage} {identities : List Nat} {fds : List OwnedFd}
    {objects : List Object} {s s' : RoutingAcceptor}
    (h : (assembleObjects p identities fds).run s = .ok objects s') :
    ∃ held, s' = { s with heldDriverFds := s.heldDriverFds ++ held } ∧
      held.length = (p.driverObjects.map (·.numFds)).sum := by
  unfold assembleObjects at h
  obtain ⟨⟨objects', unclaimed, isSplit⟩, s₁, hclaim, h₁⟩ := bind_eq_ok.mp h
  obtain ⟨held, hs₁, hlen⟩ := claimObjects_ok hclaim
  dsimp only at h₁
  split at h₁
  · exact absurd h₁ nofun
  · next hnone =>
      split at h₁
      · exact absurd h₁ nofun
      · obtain ⟨-, rfl⟩ := pure_eq_ok.mp h₁
        have hempty : unclaimed = [] := by simpa using hnone
        subst hempty
        exact ⟨held, hs₁, hlen⟩

/-- Objects without descriptors do not look at any. -/
theorem claimObjects_noDescriptors (handleTypes : List UInt32) (identities : List Nat)
    {refs : List DriverObjectRef} (fds : List OwnedFd)
    (hnone : ∀ r ∈ refs, r.firstFd = 0 ∧ r.numFds = 0) :
    claimObjects handleTypes identities refs fds = claimObjects handleTypes identities refs [] := by
  induction handleTypes generalizing identities refs with
  | nil => rfl
  | cons ht handleTypes ih =>
      unfold claimObjects
      cases refs with
      | nil => simp only [ih _ hnone]
      | cons r refs =>
          obtain ⟨hfirst, hnum⟩ := hnone r List.mem_cons_self
          have hrest := fun identities => ih identities fun x hx => hnone x (List.mem_cons_of_mem _ hx)
          simp only [ih _ hnone, hfirst, hnum]
          simp [hrest]

theorem assembleObjects_noDescriptors {p : ParcelMessage} (identities : List Nat)
    (fds : List OwnedFd) (hcons : Consecutive 0 p.driverObjects)
    (hnone : NoDescriptors p.driverObjects) :
    assembleObjects p identities fds = assembleObjects p identities [] := by
  unfold assembleObjects
  rw [claimObjects_noDescriptors _ _ fds fun r hr => ⟨hcons.first_eq hnone r hr, hnone r hr⟩]

/-! ### The first pass -/

/-- The statements of a pass that returns. -/
theorem processAcceptParcel_ok {depth : Nat} {p : ParcelMessage} {fds : List OwnedFd}
    {linkId : Nat} {payload : List UInt8} {r : ProcessedParcel} {s s' : RoutingAcceptor}
    (hdata : parcelData s.info s.tables.memories p linkId = .ok payload)
    (h : (processAcceptParcel depth p fds linkId).run s = .ok r s') :
    ∃ flush process identities objects s₁ s₂,
      (deserializePortals flush process p linkId).run s = .ok identities s₁ ∧
      (assembleObjects p identities fds).run s₁ = .ok objects s₂ ∧
      (routeParcel flush p linkId payload objects).run s₂ = .ok ⟨⟩ s' ∧
      r = ⟨payload, identities⟩ := by
  cases depth with
  | zero => exact absurd h throw_ne_ok.mp
  | succ depth =>
      have h : (processAcceptParcelWith _ _ p fds linkId).run s = .ok r s' := h
      unfold processAcceptParcelWith at h
      dsimp only at h
      split at h
      · exact absurd h nofun
      split at h
      · exact absurd h nofun
      rw [run_get_bind, hdata] at h
      obtain ⟨identities, s₁, hids, h₁⟩ := bind_eq_ok.mp h
      obtain ⟨objects, s₂, hobjects, h₂⟩ := bind_eq_ok.mp h₁
      obtain ⟨⟨⟩, s₃, hroute, h₃⟩ := bind_eq_ok.mp h₂
      obtain ⟨rfl, rfl⟩ := pure_eq_ok.mp h₃
      exact ⟨_, _, identities, objects, s₁, s₂, hids, hobjects, hroute, rfl⟩

section Pass

variable {depth linkId : Nat} {p : ParcelMessage} {fds : List OwnedFd} {payload : List UInt8}
  {r : ProcessedParcel} {s s' : RoutingAcceptor}

theorem routeParcel_unowned {flush : NodeInfo → Nat → Bool → RouteM Unit} {objects : List Object}
    (hown : s.tables.owners (linkId, p.sublink) = none)
    (h : (routeParcel flush p linkId payload objects).run s = .ok ⟨⟩ s') :
    s' = s.pushEarlyParcel (linkId, p.sublink) p := by
  unfold routeParcel at h
  rw [run_get_bind, hown] at h
  cases h
  rfl

/-- The router of no portal is made. -/
theorem deserializePortals_nil {flush : NodeInfo → Nat → Bool → RouteM Unit}
    {process : ParcelMessage → List OwnedFd → Nat → AcceptorM ProcessedParcel}
    {identities : List Nat} (hportals : p.newRouters = [])
    (h : (deserializePortals flush process p linkId).run s = .ok identities s') :
    identities = [] ∧ s' = s := by
  unfold deserializePortals at h
  split_ifs at h
  · exact absurd h throw_ne_ok.mp
  · rw [hportals] at h
    obtain ⟨hval, hs⟩ := pure_eq_ok.mp h
    exact ⟨hval.symm, hs.symm⟩

/-- A parcel without portals and descriptors is kept, and that is all. -/
theorem pass_keepsOnly (hdata : parcelData s.info s.tables.memories p linkId = .ok payload)
    (hown : s.tables.owners (linkId, p.sublink) = none)
    (h : (processAcceptParcel depth p fds linkId).run s = .ok r s')
    (hportals : p.newRouters = []) (hnone : NoDescriptors p.driverObjects) :
    r = ⟨payload, []⟩ ∧ s' = s.pushEarlyParcel (linkId, p.sublink) p := by
  obtain ⟨flush, process, identities, objects, s₁, s₂, hids, hobjects, hroute, rfl⟩ :=
    processAcceptParcel_ok hdata h
  obtain ⟨rfl, rfl⟩ := deserializePortals_nil hportals hids
  -- no descriptor is held
  have hsame : s₂ = s₁ := by
    obtain ⟨held, hs₂, hlen⟩ := assembleObjects_ok hobjects
    obtain rfl := List.eq_nil_of_length_eq_zero (hlen.trans (noDescriptors_iff.mp hnone))
    rw [hs₂, List.append_nil]
  subst hsame
  exact ⟨rfl, routeParcel_unowned hown hroute⟩

/-- A pass that makes no router and holds no descriptor. -/
theorem pass_attachments (hdata : parcelData s.info s.tables.memories p linkId = .ok payload)
    (hown : s.tables.owners (linkId, p.sublink) = none)
    (h : (processAcceptParcel depth p fds linkId).run s = .ok r s') (hids : r.identities = [])
    (hheld : s'.heldDriverFds = s.heldDriverFds) :
    p.newRouters = [] ∧ NoDescriptors p.driverObjects := by
  obtain ⟨flush, process, identities, objects, s₁, s₂, hids', hobjects, hroute, rfl⟩ :=
    processAcceptParcel_ok hdata h
  have hportals : p.newRouters = [] := by
    have hmap := (deserializePortals_ok hids').1
    rw [show identities = [] from hids] at hmap
    exact List.map_eq_nil_iff.mp hmap.symm
  obtain ⟨-, rfl⟩ := deserializePortals_nil hportals hids'
  obtain ⟨held, hs₂, hlen⟩ := assembleObjects_ok hobjects
  have hown₂ : s₂.tables.owners (linkId, p.sublink) = none := by
    rw [hs₂]
    exact hown
  rw [routeParcel_unowned hown₂ hroute, hs₂] at hheld
  obtain rfl : held = [] := List.append_right_eq_self.mp hheld
  exact ⟨hportals, noDescriptors_iff.mpr hlen.symm⟩

end Pass

/-- The deferral of a parcel makes no router and takes no descriptor, which are for
the replay to do once, just if the parcel has no portals and no descriptors. -/
theorem deferral_traceless_iff {depth linkId : Nat} {p : ParcelMessage} {fds : List OwnedFd}
    {payload : List UInt8} {r : ProcessedParcel} {s s' : RoutingAcceptor}
    (hdata : parcelData s.info s.tables.memories p linkId = .ok payload)
    (hown : s.tables.owners (linkId, p.sublink) = none)
    (h : (processAcceptParcel depth p fds linkId).run s = .ok r s') :
    (r = ⟨payload, []⟩ ∧ s' = s.pushEarlyParcel (linkId, p.sublink) p) ↔
      p.newRouters = [] ∧ NoDescriptors p.driverObjects := by
  constructor
  · rintro ⟨hr, hs'⟩
    refine pass_attachments hdata hown h ?_ ?_
    · rw [hr]
    · rw [hs']
      rfl
  · rintro ⟨hportals, hnone⟩
    exact pass_keepsOnly hdata hown h hportals hnone

/-! ### The replay -/

section Replay

variable {linkId : Nat} {p : ParcelMessage} {fds : List OwnedFd}

/-- Without descriptors to take, the replay does what the parcel itself would
have done. -/
theorem replay_eq_pass (depth : Nat) (hcons : Consecutive 0 p.driverObjects)
    (hnone : NoDescriptors p.driverObjects) {s : RoutingAcceptor}
    (hknown : parcelData s.info s.tables.memories p linkId ≠ .error (.memory .unknownBuffer)) :
    (processAcceptParcel depth p fds linkId).run s =
      (processAcceptParcel depth p [] linkId).run s := by
  cases depth with
  | zero => rfl
  | succ depth =>
      show (processAcceptParcelWith _ _ p fds linkId).run s =
        (processAcceptParcelWith _ _ p [] linkId).run s
      unfold processAcceptParcelWith
      dsimp only
      split
      · rfl
      split
      · rfl
      rw [run_get_bind, run_get_bind]
      split
      · unfold acceptParcel
        simp only [assembleObjects_noDescriptors _ fds hcons hnone]
      · next h => exact absurd h hknown
      · rfl

end Replay

/-! ### A parcel that is lost -/

/-- A parcel for sublink 12 with a driver object that has a descriptor. -/
def boxedEarly : ParcelMessage :=
  ⟨12, 0, 0, 1, .null, [7], [handleTypeBoxedDriverObject], [], [⟨[9], 0, 1⟩]⟩

/-- A parcel for sublink 5 with a portal on sublink 12. -/
def announcing : ParcelMessage :=
  ⟨5, 0, 0, 1, .null, [1], [handleTypePortal], [{ RouterDescriptor.default with newSublink := 12 }],
    []⟩

/-- What the portal on sublink 12 has received in the end. -/
def deliveredAt12 (x : AcceptorM Unit) : Option Portal :=
  ((endState (x.run oneRouter)).tables.routers 12).bind (·.portal)

/- The parcel with the driver object is lost where it comes first, and delivered
where the announcement does. -/
example :
    deliveredAt12 (do
        dispatch 3 (.acceptParcel boxedEarly) [⟨3, 64⟩] 0
        dispatch 3 (.acceptParcel announcing) [] 0) = some ⟨[]⟩ ∧
      deliveredAt12 (do
        dispatch 3 (.acceptParcel announcing) [] 0
        dispatch 3 (.acceptParcel boxedEarly) [⟨3, 64⟩] 0) = some ⟨[([7], [])]⟩ := by
  decide +kernel

end MojoRs.Ipcz
