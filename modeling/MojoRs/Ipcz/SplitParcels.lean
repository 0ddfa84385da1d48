/-
MojoRs/Ipcz/SplitParcels.lean

Parcels that the broker sends in two halves: an `AcceptParcel` with the data
and the boxed driver objects, and an `AcceptParcelDriverObjects` with those it
has to relay.  The acceptor keeps the half that arrives first by its sublink
and sequence number.

It keeps a data half as it was decoded, without the descriptors of the message
and without what its fragment holds, and an objects half without descriptors;
and a data half that arrives second it keeps in place of the first one.  So a
parcel comes out whole only if its data half comes first and has nothing but
inline data (`reassembles_iff`).

Main results: `objectsHalf_run`, `dataHalf_run`, `reassembles_iff`.
-/
import MojoRs.Ipcz.AcceptorEffects

namespace MojoRs.Ipcz

open Lib
open Function (update)

namespace Acceptor

/-! ### Split parcels -/

/-- The objects in the order of the handle types. -/
def mergeObjects : List UInt32 → List OwnedFd → List OwnedFd → List OwnedFd
  | [], _, _ => []
  | ht :: handleTypes, boxed, relayed =>
      if ht = handleTypeBoxedDriverObject then
        boxed.take 1 ++ mergeObjects handleTypes (boxed.drop 1) relayed
      else relayed.take 1 ++ mergeObjects handleTypes boxed (relayed.drop 1)

/-- What a parcel's data is when its data half arrives. -/
def HoldsData (s : Acceptor) (p : AcceptParcel) (data : List UInt8) : Prop :=
  (parcelData p).run s = .ok data s

/-- A well-formed split parcel: its two halves, its data, and the descriptors
of its boxed and of its relayed objects. -/
structure SplitParcel where
  half : AcceptParcel
  fds : List OwnedFd
  driverObjects : List DriverObjectRef
  objectFds : List OwnedFd
  data : List UInt8
  boxed : List OwnedFd
  relayed : List OwnedFd
  single : half.numSubparcels = 1 ∧ half.subparcelIndex = 0
  claims : claimObjects fds half.handleTypes half.driverObjects = .ok (boxed, [], true)
  unwraps : (driverObjects.mapM fun obj => unwrapWrappedPlatformHandle obj objectFds) = .ok relayed
  count : half.handleTypes.count handleTypeRelayedBoxedDriverObject = relayed.length
  readable : ∃ s, HoldsData s half data

/-- Which half arrives first. -/
inductive SplitOrder
  | dataFirst
  | objectsFirst
  deriving DecidableEq, Repr

namespace SplitParcel

variable (sp : SplitParcel)

/-- The key of the pending half. -/
def key : UInt64 × UInt64 := (sp.half.sublink, sp.half.sequenceNumber)

/-- The objects of the whole parcel. -/
def objects : List OwnedFd := mergeObjects sp.half.handleTypes sp.boxed sp.relayed

/-- The data half arrives. -/
def dataHalf : DispatchM Unit := dispatch (.acceptParcel sp.half) sp.fds

/-- The objects half arrives. -/
def objectsHalf : DispatchM Unit :=
  dispatch (.acceptParcelDriverObjects sp.half.sublink sp.half.sequenceNumber sp.driverObjects)
    sp.objectFds

/-- The half that arrives first. -/
def firstHalf : SplitOrder → DispatchM Unit
  | .dataFirst => sp.dataHalf
  | .objectsFirst => sp.objectsHalf

/-- The half that arrives second. -/
def secondHalf : SplitOrder → DispatchM Unit
  | .dataFirst => sp.objectsHalf
  | .objectsFirst => sp.dataHalf

/-- The delivery of the whole parcel. -/
def deliver : DispatchM Unit :=
  deliverParcel sp.half.sublink sp.half.sequenceNumber.toNat sp.data sp.objects

/-- The first half delivers nothing, and the second one, whatever arrives in
between, the whole parcel. -/
def Reassembles (order : SplitOrder) : Prop :=
  ∀ s, s.pendingSplit sp.key = none → (order = .dataFirst → HoldsData s sp.half sp.data) →
    ∃ s₁, (sp.firstHalf order).run s = .ok ⟨⟩ s₁ ∧
      s₁.routers = s.routers ∧ s₁.earlyParcels = s.earlyParcels ∧
      ∀ (others : List Arrival) (s₂ : Acceptor), (∀ a ∈ others, ¬Arrival.Concerns sp.key a) →
        (others.forM arrive).run s₁ = .ok ⟨⟩ s₂ →
        (order = .objectsFirst → HoldsData s₂ sp.half sp.data) →
        (sp.secondHalf order).run s₂ = sp.deliver.run (s₂.setPendingSplit sp.key none)

end SplitParcel

/-! ### The halves, one by one -/

section Halves

variable {sp : SplitParcel} {s : Acceptor}

@[simp] theorem setPendingSplit_setPendingSplit (s : Acceptor) (key : UInt64 × UInt64)
    (h h' : Option SplitHalf) :
    (s.setPendingSplit key h).setPendingSplit key h' = s.setPendingSplit key h' := by
  simp [setPendingSplit]

@[simp] theorem setPendingSplit_pendingSplit (s : Acceptor) (key : UInt64 × UInt64)
    (h : Option SplitHalf) : (s.setPendingSplit key h).pendingSplit key = h :=
  Function.update_self ..

/-- A data half is kept, whatever was kept before. -/
theorem dataHalf_run (hdata : HoldsData s sp.half sp.data) :
    sp.dataHalf.run s = .ok ⟨⟩ (s.setPendingSplit sp.key (some (.data sp.half))) := by
  show (onAcceptParcel sp.half sp.fds).run s = _
  unfold onAcceptParcel
  rw [sp.single.1, sp.single.2, sp.claims]
  show (parcelData sp.half >>= _).run s = _
  rw [run_bind_of_ok hdata]
  rfl

/-- An objects half takes what is kept and delivers its inline data with the
relayed objects. -/
theorem objectsHalf_run (s : Acceptor) :
    sp.objectsHalf.run s =
      match s.pendingSplit sp.key with
      | some (.data parcel) =>
          (if parcel.handleTypes.count handleTypeRelayedBoxedDriverObject ≠ sp.relayed.length then
              throw (.badParcel "split parcel object count mismatch")
            else deliverParcel sp.half.sublink sp.half.sequenceNumber.toNat parcel.parcelData
              sp.relayed : DispatchM Unit).run (s.setPendingSplit sp.key none)
      | some (.objects _) =>
          .error (.badParcel "duplicate split parcel objects") (s.setPendingSplit sp.key none)
      | none => .ok ⟨⟩ (s.setPendingSplit sp.key (some (.objects sp.driverObjects))) := by
  show (onAcceptParcelObjects _ _ _ _).run s = _
  unfold onAcceptParcelObjects
  rw [sp.unwraps]
  show (match s.pendingSplit sp.key with
    | some (.data parcel) => _
    | some (.objects _) => _
    | none => _ : DispatchM Unit).run (s.setPendingSplit sp.key none) = _
  cases s.pendingSplit sp.key with
  | none =>
      show EStateM.Result.ok _ (((s.setPendingSplit sp.key none).setPendingSplit sp.key _)) = _
      rw [setPendingSplit_setPendingSplit]
  | some half =>
      cases half with
      | data parcel => rfl
      | objects driverObjects => rfl

end Halves

/-! ### What arrives in between -/

/-- Nothing happens to what is kept for a parcel. -/
def SamePending (key : UInt64 × UInt64) (s s' : Acceptor) : Prop :=
  s'.pendingSplit key = s.pendingSplit key

section Pending

variable {key : UInt64 × UInt64}

instance : Std.Refl (SamePending key) := ⟨fun _ => rfl⟩

instance : IsTrans Acceptor (SamePending key) := ⟨fun _ _ _ h h' => Eq.trans h' h⟩

/-- What arrives for other parcels leaves this one's half. -/
theorem arrive_samePending {a : Arrival} (ha : ¬a.Concerns key) :
    Maintains (SamePending key) (arrive a) := by
  apply maintains_of_effect
  intro s s' h
  cases h with
  | quiet hrouters hpending => exact congrFun hpending key
  | pending half hkey =>
      apply Function.update_of_ne
      rintro rfl
      exact ha hkey
  | accepts => rfl
  | edges => rfl
  | closes => rfl
  | takes => rfl

end Pending

/-! ### The order of the objects -/

/-- The boxed objects are as many as their handle types, and there are no other
handle types than those of driver objects. -/
theorem claimObjects_ok {fds boxed : List OwnedFd} {handleTypes : List UInt32}
    {refs rest : List DriverObjectRef} {isSplit : Bool}
    (h : claimObjects fds handleTypes refs = .ok (boxed, rest, isSplit)) :
    handleTypes.count handleTypeBoxedDriverObject = boxed.length ∧
      ∀ ht ∈ handleTypes,
        ht = handleTypeBoxedDriverObject ∨ ht = handleTypeRelayedBoxedDriverObject := by
  induction handleTypes generalizing refs boxed rest isSplit with
  | nil =>
      cases h
      exact ⟨rfl, by simp⟩
  | cons ht handleTypes ih =>
      unfold claimObjects at h
      rw [List.forall_mem_cons]
      -- a boxed object takes the next reference, and it has to unwrap
      by_cases hboxed : ht = handleTypeBoxedDriverObject
      · subst hboxed
        rw [if_pos rfl] at h
        cases refs with
        | nil => cases h
        | cons obj refs =>
            dsimp only at h
            cases hunwrap : unwrapWrappedPlatformHandle obj fds with
            | error e =>
                rw [hunwrap] at h
                cases h
            | ok fd =>
                rw [hunwrap] at h
                cases hclaim : claimObjects fds handleTypes refs with
                | error e =>
                    rw [hclaim] at h
                    cases h
                | ok res =>
                    obtain ⟨objects, rest', isSplit'⟩ := res
                    rw [hclaim] at h
                    cases h
                    obtain ⟨hcount, htypes⟩ := ih hclaim
                    rw [List.count_cons_self, hcount]
                    exact ⟨rfl, Or.inl rfl, htypes⟩
      rw [if_neg hboxed] at h
      -- a relayed one splits the parcel and takes no reference
      by_cases hrelayed : ht = handleTypeRelayedBoxedDriverObject
      · subst hrelayed
        rw [if_pos rfl] at h
        cases hclaim : claimObjects fds handleTypes refs with
        | error e =>
            rw [hclaim] at h
            cases h
        | ok res =>
            obtain ⟨objects, rest', isSplit'⟩ := res
            rw [hclaim] at h
            cases h
            obtain ⟨hcount, htypes⟩ := ih hclaim
            rw [List.count_cons_of_ne hboxed, hcount]
            exact ⟨rfl, Or.inr rfl, htypes⟩
      -- any other handle type is refused
      · rw [if_neg hrelayed] at h
        split_ifs at h

theorem length_mergeObjects {handleTypes : List UInt32} {boxed relayed : List OwnedFd}
    (htypes : ∀ ht ∈ handleTypes,
      ht = handleTypeBoxedDriverObject ∨ ht = handleTypeRelayedBoxedDriverObject)
    (hboxed : handleTypes.count handleTypeBoxedDriverObject = boxed.length)
    (hrelayed : handleTypes.count handleTypeRelayedBoxedDriverObject = relayed.length) :
    (mergeObjects handleTypes boxed relayed).length = boxed.length + relayed.length := by
  induction handleTypes generalizing boxed relayed with
  | nil =>
      rw [← hboxed, ← hrelayed]
      rfl
  | cons ht handleTypes ih =>
      rw [List.forall_mem_cons] at htypes
      obtain ⟨rfl | rfl, htypes⟩ := htypes
      · rw [List.count_cons_self] at hboxed
        rw [List.count_cons_of_ne (by decide)] at hrelayed
        cases boxed with
        | nil => cases hboxed
        | cons fd boxed =>
            have hlen := ih htypes (Nat.succ_injective hboxed) hrelayed
            show (fd :: mergeObjects handleTypes boxed relayed).length = _
            rw [List.length_cons, hlen, List.length_cons]
            exact Nat.add_right_comm ..
      · rw [List.count_cons_of_ne (by decide)] at hboxed
        rw [List.count_cons_self] at hrelayed
        cases relayed with
        | nil => cases hrelayed
        | cons fd relayed =>
            have hlen := ih htypes hboxed (Nat.succ_injective hrelayed)
            show (fd :: mergeObjects handleTypes boxed relayed).length = _
            rw [List.length_cons, hlen]
            rfl

/-- Where nothing is boxed, the relayed objects are in order. -/
theorem mergeObjects_relayed {handleTypes : List UInt32} {relayed : List OwnedFd}
    (htypes : ∀ ht ∈ handleTypes,
      ht = handleTypeBoxedDriverObject ∨ ht = handleTypeRelayedBoxedDriverObject)
    (hboxed : handleTypes.count handleTypeBoxedDriverObject = 0)
    (hrelayed : handleTypes.count handleTypeRelayedBoxedDriverObject = relayed.length) :
    mergeObjects handleTypes [] relayed = relayed := by
  induction handleTypes generalizing relayed with
  | nil => exact (List.length_eq_zero_iff.mp hrelayed.symm).symm
  | cons ht handleTypes ih =>
      rw [List.forall_mem_cons] at htypes
      obtain ⟨rfl | rfl, htypes⟩ := htypes
      · rw [List.count_cons_self] at hboxed
        cases hboxed
      · rw [List.count_cons_of_ne (by decide)] at hboxed
        rw [List.count_cons_self] at hrelayed
        cases relayed with
        | nil => cases hrelayed
        | cons fd relayed =>
            show fd :: mergeObjects handleTypes [] relayed = _
            rw [ih htypes hboxed (Nat.succ_injective hrelayed)]

/-! ### Exactly when a parcel comes out whole -/

section Reassembly

variable {sp : SplitParcel} {s s' : Acceptor}

/-- Data is read from the link memory only. -/
theorem HoldsData.congr {p : AcceptParcel} {data : List UInt8} (h : HoldsData s p data)
    (hmemory : s'.linkMemory = s.linkMemory) (hshared : s'.shared = s.shared) :
    HoldsData s' p data := by
  unfold HoldsData parcelData at h ⊢
  split_ifs at h ⊢
  · cases h
    rfl
  · obtain ⟨reg, s₁, hreg, hread⟩ := bind_eq_ok.mp h
    obtain ⟨hsome, rfl⟩ := memory_ok hreg
    rw [run_bind_of_ok (memory_of_some (hmemory.trans hsome))]
    rw [run_get_bind] at hread ⊢
    rw [hshared]
    cases hdata : s.shared.readParcelFragment reg p.parcelFragment with
    | error e =>
        rw [hdata] at hread
        cases hread
    | ok data' =>
        rw [hdata] at hread
        cases hread
        rfl

/-- A router that waits for the parcel. -/
def awaiting (sp : SplitParcel) (s : Acceptor) : Acceptor :=
  { s with
    routers := update s.routers sp.half.sublink (some
      ⟨some ⟨[], []⟩, ⟨sp.half.sublink, .null⟩, none, 0, sp.half.sequenceNumber.toNat,
        fun _ => 0, false⟩)
    pendingSplit := fun _ => none }

theorem SplitParcel.objects_eq_iff (sp : SplitParcel) : sp.objects = sp.relayed ↔ sp.boxed = [] := by
  obtain ⟨hcount, htypes⟩ := claimObjects_ok sp.claims
  constructor
  · intro h
    have hlen := length_mergeObjects htypes hcount sp.count
    change sp.objects.length = _ at hlen
    rw [h] at hlen
    exact List.length_eq_zero_iff.mp (by omega)
  · intro h
    rw [h] at hcount
    show mergeObjects _ sp.boxed _ = _
    rw [h]
    exact mergeObjects_relayed htypes hcount sp.count

/-- In either order, the half that arrives second meets what the first one
left. -/
theorem samePending_between {key : UInt64 × UInt64} {others : List Arrival}
    (hothers : ∀ a ∈ others, ¬a.Concerns key) (h : (others.forM arrive).run s = .ok ⟨⟩ s') :
    s'.pendingSplit key = s.pendingSplit key := by
  have hkeeps : Maintains (SamePending key) (others.forM arrive) :=
    keeps_forM fun a ha => arrive_samePending (hothers a ha)
  exact hkeeps.ok h

/-- A data half that comes first and has nothing but inline data. -/
theorem reassembles_dataFirst (hboxed : sp.boxed = []) (hinline : sp.data = sp.half.parcelData) :
    sp.Reassembles .dataFirst := by
  intro s _ hdata
  refine ⟨_, dataHalf_run (hdata rfl), rfl, rfl, fun others s₂ hothers hrun _ => ?_⟩
  have hpending : s₂.pendingSplit sp.key = some (.data sp.half) :=
    (samePending_between hothers hrun).trans (setPendingSplit_pendingSplit ..)
  show sp.objectsHalf.run s₂ = _
  rw [objectsHalf_run, hpending]
  show EStateM.run (if _ then _ else _) _ = _
  rw [if_neg (not_not.mpr sp.count), SplitParcel.deliver, sp.objects_eq_iff.mpr hboxed, hinline]

/-- What a whole delivery adds to the waiting router. -/
theorem deliver_awaiting (sp : SplitParcel) (s' : Acceptor) (data : List UInt8)
    (objects : List OwnedFd)
    (hrouter : s.routers sp.half.sublink = (awaiting sp s').routers sp.half.sublink) :
    ∃ s₁ r, (deliverParcel sp.half.sublink sp.half.sequenceNumber.toNat data objects).run s =
        .ok ⟨⟩ s₁ ∧ s₁.routers sp.half.sublink = some r ∧
      r.portal = some ⟨[(data, objects)], []⟩ ∧ r.inboundSeq = sp.half.sequenceNumber.toNat + 1 := by
  have hsome : s.routers sp.half.sublink = some _ := hrouter.trans (Function.update_self ..)
  obtain ⟨replyReady, hrun⟩ := deliverParcel_next hsome data objects
  exact ⟨_, _, hrun, setRouter_self .., rfl, rfl⟩

theorem not_reassembles_objectsFirst (sp : SplitParcel) : ¬sp.Reassembles .objectsFirst := by
  intro h
  obtain ⟨s₀, hread⟩ := sp.readable
  obtain ⟨s₁, hfirst, hrouters, -, hsecond⟩ := h (awaiting sp s₀) rfl (by simp)
  have hs₁ : (awaiting sp s₀).setPendingSplit sp.key (some (.objects sp.driverObjects)) = s₁ := by
    change sp.objectsHalf.run _ = _ at hfirst
    rw [objectsHalf_run] at hfirst
    injection hfirst
  subst hs₁
  have hdata : HoldsData ((awaiting sp s₀).setPendingSplit sp.key
      (some (.objects sp.driverObjects))) sp.half sp.data := hread.congr rfl rfl
  have hwhole := hsecond [] _ (by simp) rfl fun _ => hdata
  change sp.dataHalf.run _ = _ at hwhole
  obtain ⟨s₂, r, hdeliver, hr, -, hseq⟩ := deliver_awaiting sp s₀ sp.data sp.objects
    (s := (awaiting sp s₀).setPendingSplit sp.key none) rfl
  rw [dataHalf_run hdata, setPendingSplit_setPendingSplit, SplitParcel.deliver] at hwhole
  rw [setPendingSplit_setPendingSplit, hdeliver] at hwhole
  injection hwhole with _ hwhole
  -- the delivered parcel would have been counted
  rw [← hwhole] at hr
  have hwaiting : some r = (awaiting sp s₀).routers sp.half.sublink := hr.symm
  rw [awaiting] at hwaiting
  dsimp only at hwaiting
  rw [Function.update_self] at hwaiting
  cases hwaiting
  exact absurd hseq (Nat.ne_of_lt (Nat.lt_succ_self _))

/-- In the data half that came first, nothing is boxed and the data is inline,
if the parcel comes out whole. -/
theorem inline_of_reassembles (h : sp.Reassembles .dataFirst) :
    sp.boxed = [] ∧ sp.data = sp.half.parcelData := by
  obtain ⟨s₀, hread⟩ := sp.readable
  have hdata : HoldsData (awaiting sp s₀) sp.half sp.data := hread.congr rfl rfl
  obtain ⟨s₁, hfirst, -, -, hsecond⟩ := h (awaiting sp s₀) rfl fun _ => hdata
  have hs₁ : (awaiting sp s₀).setPendingSplit sp.key (some (.data sp.half)) = s₁ := by
    change sp.dataHalf.run _ = _ at hfirst
    rw [dataHalf_run hdata] at hfirst
    injection hfirst
  subst hs₁
  have hwhole := hsecond [] _ (by simp) rfl (by simp)
  change sp.objectsHalf.run _ = _ at hwhole
  rw [objectsHalf_run, setPendingSplit_pendingSplit] at hwhole
  change EStateM.run (if _ then _ else _) _ = _ at hwhole
  rw [if_neg (not_not.mpr sp.count), SplitParcel.deliver, setPendingSplit_setPendingSplit] at hwhole
  obtain ⟨s₂, r, hdeliver, hr, hportal, -⟩ := deliver_awaiting sp s₀ sp.half.parcelData sp.relayed
    (s := (awaiting sp s₀).setPendingSplit sp.key none) rfl
  obtain ⟨s₃, r', hdeliver', hr', hportal', -⟩ := deliver_awaiting sp s₀ sp.data sp.objects
    (s := (awaiting sp s₀).setPendingSplit sp.key none) rfl
  rw [hdeliver, hdeliver'] at hwhole
  injection hwhole with _ hsame
  rw [hsame, hr'] at hr
  cases hr
  rw [hportal'] at hportal
  injection hportal with hportal
  injection hportal with hmessages
  injection hmessages with hmessage
  injection hmessage with hpayload hobjects
  exact ⟨sp.objects_eq_iff.mp hobjects, hpayload⟩

theorem reassembles_iff (sp : SplitParcel) (order : SplitOrder) :
    sp.Reassembles order ↔
      order = .dataFirst ∧ sp.boxed = [] ∧ sp.data = sp.half.parcelData := by
  cases order with
  | dataFirst =>
      constructor
      · exact fun h => ⟨rfl, inline_of_reassembles h⟩
      · rintro ⟨-, hboxed, hinline⟩
        exact reassembles_dataFirst hboxed hinline
  | objectsFirst =>
      constructor
      · exact fun h => absurd h (not_reassembles_objectsFirst sp)
      · rintro ⟨horder, -⟩
        cases horder

/-- One relayed object, and two bytes of inline data. -/
def relayedParcel : SplitParcel where
  half := ⟨1, 0, 0, 1, .null, [7, 8], [handleTypeRelayedBoxedDriverObject], [], []⟩
  fds := []
  driverObjects := [⟨[8, 0, 0, 0, 4, 0, 0, 0, 8, 0, 0, 0, 0, 0, 0, 0], 0, 1⟩]
  objectFds := [⟨5, 0⟩]
  data := [7, 8]
  boxed := []
  relayed := [⟨5, 0⟩]
  single := ⟨rfl, rfl⟩
  claims := rfl
  unwraps := rfl
  count := rfl
  readable := ⟨connected 8 .empty .fresh, rfl⟩

/-- With the objects first it never arrives. -/
theorem relayedParcel_lost : ¬relayedParcel.Reassembles .objectsFirst :=
  not_reassembles_objectsFirst relayedParcel

end Reassembly

end Acceptor

end MojoRs.Ipcz
