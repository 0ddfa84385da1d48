/-
MojoRs/Ipcz/DescriptorBounds.lean

Which bytes an operation on a peer's descriptor touches.  `fragment` makes
sure that the bytes that the descriptor names are in its buffer, and some
operations look at its size before they go on.  The operations on the reference
count and on the status word do neither: they access four bytes at the start of
the fragment, or four bytes behind them, of a fragment that may be empty and
lie at the end of its buffer.

An adoption resolves the descriptor and touches nothing; the link state is used
by the operations that run on it afterwards, in the flush of its router first.
The functions that adopt one take it exactly where it resolves and their other
checks pass (`StateOffer.takesState_iff`).

Main results: `StateOffer.takesState_iff`, `descriptor_bounds_iff`.
-/
import MojoRs.Ipcz.BypassAuthority
import MojoRs.Ipcz.LinkPrograms

namespace MojoRs.Ipcz

open Lib Prog

/-! ### Operations on a descriptor -/

/-- The operations on a descriptor, with what the callers pass.  The status
word is exchanged at least once. -/
inductive LinkCall
  | addLinkStateRef
  | releaseLinkStateRef
  | setSideStable (side : LinkSide) (spurious : Bool) (weak : List Bool)
  | tryLockLinkState (side : LinkSide) (spurious : Bool) (weak : List Bool)
  | unlockLinkState (side : LinkSide) (spurious : Bool) (weak : List Bool)
  | resetWaitingBit (side : LinkSide) (spurious : Bool) (weak : List Bool)
  | readLinkStatus
  | setLinkStatusBits (bits : UInt32)
  | readAllowedBypassSource
  | writeAllowedBypassSource (value : NodeName)
  | readParcelFragment
  deriving DecidableEq, Repr

namespace LinkCall

/-- The operation, without what it returns. -/
def prog (b : LinkBuffers) (desc : FragmentDescriptor) : LinkCall → LinkProg Unit
  | addLinkStateRef => LinkMemory.addLinkStateRef b desc
  | releaseLinkStateRef => do let _ ← LinkMemory.releaseLinkStateRef b desc
  | setSideStable side spurious weak => do
      let _ ← LinkMemory.setSideStable b desc side (spurious :: weak)
  | tryLockLinkState side spurious weak => do
      let _ ← LinkMemory.tryLockLinkState b desc side (spurious :: weak)
  | unlockLinkState side spurious weak => do
      let _ ← LinkMemory.unlockLinkState b desc side (spurious :: weak)
  | resetWaitingBit side spurious weak => do
      let _ ← LinkMemory.resetWaitingBit b desc side (spurious :: weak)
  | readLinkStatus => do let _ ← LinkMemory.readLinkStatus b desc
  | setLinkStatusBits bits => do let _ ← LinkMemory.setLinkStatusBits b desc bits
  | readAllowedBypassSource => do let _ ← LinkMemory.readAllowedBypassSource b desc
  | writeAllowedBypassSource value => LinkMemory.writeAllowedBypassSource b desc value
  | readParcelFragment => do let _ ← LinkMemory.readParcelFragment b desc

/-- The bytes of the fragment that an operation accesses whatever its size. -/
def unchecked : LinkCall → Nat
  | addLinkStateRef | releaseLinkStateRef => 4
  | setSideStable .. | tryLockLinkState .. | unlockLinkState .. | resetWaitingBit .. => 8
  | readLinkStatus | setLinkStatusBits _ | readAllowedBypassSource | writeAllowedBypassSource _
  | readParcelFragment => 0

end LinkCall

/-- The event touches no byte outside of the fragment. -/
def InFragment (memory : MappedMemory) (desc : FragmentDescriptor) :
    Event LinkWord MappedMemory → Prop
  | .read _ key off len _ | .write _ key off len _ _ =>
      key = memory ∧ desc.offset.toNat ≤ off ∧ off + len ≤ desc.offset.toNat + desc.size.toNat
  | .fits .. => True

/-- A program on a descriptor fails, or touches only the bytes that the
descriptor names, in the buffer that it names, whatever it finds there. -/
def StaysInside {α : Type} (b : LinkBuffers) (desc : FragmentDescriptor) (p : LinkProg α) : Prop :=
  ∀ es r, Execution p es r → (∃ e, r = some (.error e)) ∨
    ∃ memory, b.fragment desc = .ok memory ∧ ∀ ev ∈ es, InFragment memory desc ev

/-- No buffer has the bytes that the descriptor names. -/
def Unresolved (b : LinkBuffers) (desc : FragmentDescriptor) : Prop :=
  ∃ e, b.fragment desc = .error e

variable {b : LinkBuffers} {desc : FragmentDescriptor} {memory : MappedMemory} {α : Type}

/-! ### Within the size -/

section Within

variable (hm : b.fragment desc = .ok memory)
include hm

theorem fetchUpdate_emits (word : LinkWord) {at_ : Nat} (f : UInt32 → UInt32)
    (h : at_ + 4 ≤ desc.size.toNat) :
    Emits (InFragment memory desc) (LinkMemory.fetchUpdate b word desc at_ f) := by
  refine Emits.lift_bind fun found hfound => ?_
  obtain rfl := Except.ok.inj (hm.symm.trans hfound)
  refine Emits.bind (emits_updateBytes fun _ _ => ?_) fun _ => emits_pure _
  exact ⟨rfl, Nat.le_add_right _ _, by omega⟩

omit hm in
theorem statusLoop_emits (h : linkStatusOffset + 4 ≤ desc.size.toNat) (weak : List Bool)
    (a : LinkAttempt) :
    Emits (InFragment memory desc)
      (LinkMemory.statusLoop memory (desc.offset.toNat + linkStatusOffset) weak a) := by
  induction weak generalizing a with
  | nil => exact emits_stuck
  | cons spurious weak ih =>
      refine Emits.bind (emits_updateBytes fun _ _ => ?_) fun bytes => ?_
      · exact ⟨rfl, Nat.le_add_right _ _, by omega⟩
      · dsimp only
        split
        · exact emits_pure _
        · split
          · exact emits_pure _
          · exact ih _

theorem onLinkState_emits (h : linkStatusOffset + 4 ≤ desc.size.toNat) (op : LinkOp)
    (side : LinkSide) (weak : List Bool) :
    Emits (InFragment memory desc) (LinkMemory.onLinkState b op desc side weak) := by
  refine Emits.lift_bind fun found hfound => ?_
  obtain rfl := Except.ok.inj (hm.symm.trans hfound)
  exact statusLoop_emits h weak _

theorem readLinkStatus_emits : Emits (InFragment memory desc) (LinkMemory.readLinkStatus b desc) := by
  unfold LinkMemory.readLinkStatus
  split
  · exact emits_lift _
  · rename_i hsize
    refine Emits.lift_bind fun found hfound => ?_
    obtain rfl := Except.ok.inj (hm.symm.trans hfound)
    refine Emits.bind (emits_loadBytes fun _ => ?_) fun _ => emits_pure _
    simp only [routerLinkStateSize] at hsize
    refine ⟨rfl, Nat.le_add_right _ _, ?_⟩
    simp only [linkStatusOffset]
    omega

/-- An operation that accesses no more than there is stays inside. -/
theorem LinkCall.emits (call : LinkCall) (h : call.unchecked ≤ desc.size.toNat) :
    Emits (InFragment memory desc) (call.prog b desc) := by
  cases call with
  | addLinkStateRef => exact (fetchUpdate_emits hm _ _ h).bind fun _ => emits_pure _
  | releaseLinkStateRef =>
      exact ((fetchUpdate_emits hm _ _ h).bind fun _ => emits_pure _).bind fun _ => emits_pure _
  | setSideStable | tryLockLinkState | unlockLinkState | resetWaitingBit =>
      exact (onLinkState_emits hm h _ _ _).bind fun _ => emits_pure _
  | readLinkStatus => exact (readLinkStatus_emits hm).bind fun _ => emits_pure _
  | setLinkStatusBits bits =>
      refine Emits.bind ?_ fun _ => emits_pure _
      unfold LinkMemory.setLinkStatusBits
      split
      · exact emits_lift _
      · rename_i hsize
        simp only [routerLinkStateSize] at hsize
        refine (fetchUpdate_emits hm _ _ ?_).bind fun _ => readLinkStatus_emits hm
        simp only [linkStatusOffset]
        omega
  | readAllowedBypassSource =>
      refine Emits.bind (Emits.lift_bind fun found hfound => ?_) fun _ => emits_pure _
      obtain rfl := Except.ok.inj (hm.symm.trans hfound)
      split
      · exact emits_lift _
      · rename_i hsize
        refine Emits.bind (emits_loadBytes fun _ => ?_) fun _ => emits_pure _
        exact ⟨rfl, Nat.le_add_right _ _, by omega⟩
  | writeAllowedBypassSource value =>
      refine Emits.lift_bind fun found hfound => ?_
      obtain rfl := Except.ok.inj (hm.symm.trans hfound)
      split
      · exact emits_lift _
      · rename_i hsize
        have hlen : (leU64 value.high ++ leU64 value.low).length = 16 := by
          rw [List.length_append, length_leU64, length_leU64]
        refine emits_storeBytes fun _ => ⟨rfl, Nat.le_add_right _ _, ?_⟩
        omega
  | readParcelFragment =>
      refine Emits.bind ?_ fun _ => emits_pure _
      unfold LinkMemory.readParcelFragment
      split
      · exact emits_lift _
      · rename_i hsize
        refine Emits.lift_bind fun found hfound => ?_
        obtain rfl := Except.ok.inj (hm.symm.trans hfound)
        simp only [fragmentHeaderSize] at hsize
        refine Emits.bind (emits_loadBytes fun _ => ?_) fun bytes => ?_
        · exact ⟨rfl, Nat.le_refl _, by omega⟩
        · dsimp only
          split
          · exact emits_lift _
          · rename_i hfits
            refine emits_loadBytes fun _ => ⟨rfl, Nat.le_add_right _ _, ?_⟩
            omega

end Within

/-! ### Beyond the size -/

/-- An operation that never fails once its descriptor is resolved. -/
def NeverFails (p : LinkProg α) : Prop := ∀ es r, Execution p es r → ∀ e, r ≠ some (.error e)

theorem neverFails_pure (a : α) : NeverFails (pure a : LinkProg α) := by
  rintro es r ⟨⟩ e h
  cases h

theorem NeverFails.bind {β : Type} {p : LinkProg α} {g : α → LinkProg β} (hp : NeverFails p)
    (hg : ∀ a, NeverFails (g a)) : NeverFails (p >>= g) := by
  intro es r hrun e
  rcases execution_bind hrun with ⟨es₁, es₂, a, -, h₂, -⟩ | ⟨-, rfl⟩ | ⟨e', h₁, -⟩
  · exact hg a _ _ h₂ e
  · exact nofun
  · exact absurd rfl (hp _ _ h₁ e')

theorem neverFails_updateBytes {word : LinkWord} {off len : Nat} {f : List UInt8 → List UInt8} :
    NeverFails (updateBytes word memory off len f : LinkProg _) := by
  rintro es r ⟨⟩ e h
  rename_i hrest
  cases hrest
  cases h

theorem statusLoop_neverFails (off : Nat) (weak : List Bool) (a : LinkAttempt) :
    NeverFails (LinkMemory.statusLoop memory off weak a) := by
  induction weak generalizing a with
  | nil =>
      rintro es r ⟨⟩ e h
      cases h
  | cons spurious weak ih =>
      refine neverFails_updateBytes.bind fun bytes => ?_
      dsimp only
      split
      · exact neverFails_pure _
      · split
        · exact neverFails_pure _
        · exact ih _

/-- The first access of a program that does not fail lies inside. -/
theorem StaysInside.first {word : LinkWord} {off len : Nat} {f : List UInt8 → List UInt8}
    {k : List UInt8 → LinkProg α} {p : LinkProg α} (h : StaysInside b desc p)
    (hp : p = .update word memory off len f k) (hk : ∀ found, NeverFails (k found)) :
    off + len ≤ desc.offset.toNat + desc.size.toNat := by
  subst hp
  obtain ⟨es, r, hrun⟩ := exists_execution (k (List.replicate len 0))
  rcases h _ _ (.update List.length_replicate hrun) with ⟨e, he⟩ | ⟨memory', -, hall⟩
  · exact absurd he (hk _ _ _ hrun e)
  · exact (List.forall_mem_cons.mp hall).1.2.2

section Beyond

variable (hm : b.fragment desc = .ok memory)
include hm

theorem onLinkState_le {op : LinkOp} {side : LinkSide} {spurious : Bool} {weak : List Bool}
    (h : StaysInside b desc (do
      let _ ← LinkMemory.onLinkState b op desc side (spurious :: weak) : LinkProg Unit)) :
    8 ≤ desc.size.toNat := by
  have hlast := h.first (by rw [LinkMemory.onLinkState, hm]; rfl) fun found => ?_
  · simp only [linkStatusOffset] at hlast
    omega
  · refine NeverFails.bind ?_ fun _ => neverFails_pure _
    show NeverFails (ite _ _ _)
    split
    · exact neverFails_pure _
    · split
      · exact neverFails_pure _
      · exact statusLoop_neverFails _ _ _

/-- An operation that stays inside accesses no more than there is. -/
theorem LinkCall.unchecked_le {call : LinkCall} (h : StaysInside b desc (call.prog b desc)) :
    call.unchecked ≤ desc.size.toNat := by
  cases call with
  | addLinkStateRef =>
      have hlast := h.first (by
        rw [prog, LinkMemory.addLinkStateRef, LinkMemory.fetchUpdate, hm]
        rfl) fun _ => neverFails_pure _
      show 4 ≤ _
      omega
  | releaseLinkStateRef =>
      have hlast := h.first (by
        rw [prog, LinkMemory.releaseLinkStateRef, LinkMemory.fetchUpdate, hm]
        rfl) fun _ => neverFails_pure _
      show 4 ≤ _
      omega
  | setSideStable | tryLockLinkState | unlockLinkState | resetWaitingBit =>
      exact onLinkState_le hm h
  | readLinkStatus | setLinkStatusBits | readAllowedBypassSource | writeAllowedBypassSource
  | readParcelFragment => exact Nat.zero_le _

end Beyond

/-! ### All descriptors -/

/-- The program fails before its first access. -/
def Fails (p : LinkProg α) : Prop := ∃ e, p = .lift (.error e)

theorem Fails.bind {β : Type} {p : LinkProg α} {g : α → LinkProg β} (h : Fails p) :
    Fails (p >>= g) := by
  obtain ⟨e, rfl⟩ := h
  exact ⟨e, rfl⟩

theorem Fails.staysInside {p : LinkProg α} (h : Fails p) : StaysInside b desc p := by
  obtain ⟨e, rfl⟩ := h
  rintro es r ⟨⟩
  exact .inl ⟨e, rfl⟩

theorem Unresolved.fails {β : Type} {g : MappedMemory → LinkProg β} (h : Unresolved b desc) :
    Fails (Prog.lift (b.fragment desc) >>= g) := by
  obtain ⟨e, he⟩ := h
  rw [he]
  exact ⟨e, rfl⟩

/-- Where no buffer has the bytes, every operation fails. -/
theorem Unresolved.call (h : Unresolved b desc) (call : LinkCall) : Fails (call.prog b desc) := by
  have hread : Fails (LinkMemory.readLinkStatus b desc) := by
    unfold LinkMemory.readLinkStatus
    split
    · exact ⟨_, rfl⟩
    · exact h.fails
  cases call with
  | addLinkStateRef | setSideStable | tryLockLinkState | unlockLinkState | resetWaitingBit
  | readAllowedBypassSource => exact h.fails.bind
  | releaseLinkStateRef => exact h.fails.bind.bind
  | writeAllowedBypassSource => exact h.fails
  | readLinkStatus => exact hread.bind
  | setLinkStatusBits =>
      refine Fails.bind ?_
      unfold LinkMemory.setLinkStatusBits
      split
      · exact ⟨_, rfl⟩
      · exact h.fails.bind
  | readParcelFragment =>
      refine Fails.bind ?_
      unfold LinkMemory.readParcelFragment
      split
      · exact ⟨_, rfl⟩
      · exact h.fails

/-- Which operations stay inside of which fragments. -/
theorem LinkCall.staysInside_iff (b : LinkBuffers) (desc : FragmentDescriptor) (call : LinkCall) :
    StaysInside b desc (call.prog b desc) ↔
      Unresolved b desc ∨ call.unchecked ≤ desc.size.toNat := by
  cases hm : b.fragment desc with
  | error e =>
      have hnone : Unresolved b desc := ⟨e, hm⟩
      exact ⟨fun _ => .inl hnone, fun _ => (hnone.call call).staysInside⟩
  | ok memory =>
      have hsome : ¬Unresolved b desc := fun ⟨e, he⟩ => nomatch hm.symm.trans he
      rw [or_iff_right hsome]
      refine ⟨call.unchecked_le hm, fun h es r hrun => .inr ⟨memory, hm, ?_⟩⟩
      exact call.emits hm h es r hrun

/-! ### Adoptions -/

/-- Where a peer names a link state: in the descriptor of a router, and in the
two bypass messages. -/
inductive StateOffer
  | descriptor (d : RouterDescriptor)
  | bypassPeerWithLink (sublink newSublink inboundSequenceLength : Nat)
  | acceptBypassLink (currentPeerNode : NodeName)
      (currentPeerSublink inboundSequenceLength newSublink : Nat)

/-- The function that takes the offer of `desc`, on a link. -/
def StateOffer.accept (depth linkId : Nat) (desc : FragmentDescriptor) :
    StateOffer → AcceptorM Unit
  | descriptor d => do
      let _ ← routerDeserialize (fun info => routerFlush info depth) (processAcceptParcel depth)
        { d with newLinkStateFragment := desc } linkId
  | bypassPeerWithLink sublink newSublink inboundSequenceLength =>
      onBypassPeerWithLink depth sublink newSublink desc inboundSequenceLength linkId
  | acceptBypassLink currentPeerNode currentPeerSublink inboundSequenceLength newSublink =>
      onAcceptBypassLinkMessage depth currentPeerNode currentPeerSublink inboundSequenceLength
        newSublink desc linkId

/-- All checks but the one of the link state. -/
def StateOffer.Due (s : RoutingAcceptor) (linkId : Nat) : StateOffer → Prop
  | descriptor d =>
      d.newSublink ≠ bootstrapSublink ∧ d.decaying ≠ some d.newSublink ∧
        d.decaying ≠ some bootstrapSublink ∧ d.decaying.isSome = true ∧ (d.toRouter linkId).isSome = true
  | bypassPeerWithLink sublink _ _ =>
      ∃ rid ∈ s.tables.owners (linkId, sublink), (s.tables.replaceable rid).isSome = true
  | acceptBypassLink currentPeerNode currentPeerSublink _ _ =>
      ∃ oldLinkId ∈ linkIdForNode s.info currentPeerNode,
        ∃ rid ∈ s.tables.owners (oldLinkId, currentPeerSublink),
          (checkBypassSource s.info rid linkId).run s.tables = .ok true s.tables ∧
            (s.tables.replaceable rid).isSome = true

/-- The router that an adoption is for. -/
def Adoption.identity : Adoption → Nat
  | .deserialize _ d => d.newSublink
  | .centralLink _ _ rid => rid

/-- The first adoption on the way to `s'` gave a router the link state `desc` of
the link. -/
def RoutingAcceptor.TakesState (s s' : RoutingAcceptor) (linkId : Nat)
    (desc : FragmentDescriptor) : Prop :=
  ∃ a t l r link, s'.adoptions = s.adoptions ++ (a, s.tables, t) :: l ∧
    t.routers a.identity = some r ∧ r.outward.primary = some link ∧ link.linkId = linkId ∧
      link.linkState = some desc

/-- The function takes no link state, or all operations that run on the one it
takes, in the flush of the router or later, stay inside. -/
def AdoptionStaysInside (b : LinkBuffers) (s : RoutingAcceptor) (depth linkId : Nat)
    (desc : FragmentDescriptor) (offer : StateOffer) (calls : List LinkCall) : Prop :=
  s.TakesState (endState ((offer.accept depth linkId desc).run s)) linkId desc →
    ∀ call ∈ calls, StaysInside b desc (call.prog b desc)

section Adopt

variable {s s' : RoutingAcceptor} {linkId : Nat}

theorem not_takesState (h : s'.adoptions = s.adoptions) : ¬s.TakesState s' linkId desc := by
  rintro ⟨a, t, l, r, link, hlog, -⟩
  rw [h] at hlog
  have hlen := congrArg List.length hlog
  rw [List.length_append, List.length_cons] at hlen
  omega

theorem not_takesState_of_end {x : AcceptorM Unit} (h : endState (x.run s) = s) :
    ¬s.TakesState (endState (x.run s)) linkId desc :=
  not_takesState (congrArg RoutingAcceptor.adoptions h)

/-- Only the first adoption counts. -/
theorem takesState_iff_of_log {a : Adoption} {t : RouteTables}
    {l : List (Adoption × RouteTables × RouteTables)}
    (h : s'.adoptions = s.adoptions ++ (a, s.tables, t) :: l) :
    s.TakesState s' linkId desc ↔ ∃ r link, t.routers a.identity = some r ∧
      r.outward.primary = some link ∧ link.linkId = linkId ∧ link.linkState = some desc := by
  constructor
  · rintro ⟨a', t', l', r, link, hlog, hr⟩
    rw [h] at hlog
    injection List.append_cancel_left hlog with hentry
    injection hentry with ha htables
    injection htables with _ ht
    subst ha ht
    exact ⟨r, link, hr⟩
  · rintro ⟨r, link, hr⟩
    exact ⟨a, t, l, r, link, h, hr⟩

/-- A logged adoption stays the first one, whatever follows. -/
theorem takesState_bind_iff {β : Type} {a : Adoption} {t : RouteTables} {x : AcceptorM Unit}
    {rest : Unit → AcceptorM β} (hx : x.run s = .ok ⟨⟩ s')
    (hlog : s'.adoptions = s.adoptions ++ [(a, s.tables, t)])
    (hrest : Maintains RoutingAcceptor.Logs (rest ⟨⟩)) :
    s.TakesState (endState ((x >>= rest).run s)) linkId desc ↔
      ∃ r link, t.routers a.identity = some r ∧ r.outward.primary = some link ∧
        link.linkId = linkId ∧ link.linkState = some desc := by
  obtain ⟨l, hl, -⟩ := hrest s'
  rw [run_bind_of_ok hx]
  refine takesState_iff_of_log (l := l) ?_
  rw [hl, hlog, List.append_assoc, List.singleton_append]

/-! ### Descriptors of routers -/

theorem toRouter_outward {d : RouterDescriptor} {r : Router} (h : d.toRouter linkId = some r) :
    r.outward = d.outwardEdge linkId := by
  unfold RouterDescriptor.toRouter at h
  dsimp only at h
  split_ifs at h
  · obtain ⟨inbound, -, rfl⟩ := Option.map_eq_some_iff.mp h
    rfl
  · obtain rfl := Option.some.inj h
    rfl

/-- Whether the lengths go together is not up to the link state. -/
theorem toRouter_isSome (d : RouterDescriptor) (desc : FragmentDescriptor) :
    (({ d with newLinkStateFragment := desc } : RouterDescriptor).toRouter linkId).isSome =
      (d.toRouter linkId).isSome := by
  unfold RouterDescriptor.toRouter
  dsimp only
  split_ifs
  · rw [Option.isSome_map, Option.isSome_map]
  · rfl

/-- The outward link of a new router. -/
theorem outwardEdge_primary (d : RouterDescriptor) : (d.outwardEdge linkId).primary = some
    (match d.decaying with
    | some _ => .remote linkId d.newSublink .central .b (some d.newLinkStateFragment)
    | none => .remote linkId d.newSublink .peripheralOutward .b none) := by
  unfold RouterDescriptor.outwardEdge
  cases d.decaying with
  | some decaying => rfl
  | none => rfl

/-- The adoption of a router. -/
theorem adoptRouter_run {d : RouterDescriptor} {r : Router}
    (hcheck : (inTables (checkDescriptor d linkId)).run s = .ok ⟨⟩ s)
    (hr : d.toRouter linkId = some r) : (adoptRouter d linkId).run s = .ok ⟨⟩
      { s with
        tables := s.tables.adopt linkId d r
        adoptions := s.adoptions ++
          [(.deserialize linkId d, s.tables, s.tables.adopt linkId d r)] } := by
  unfold adoptRouter
  rw [run_bind_of_ok hcheck, hr]
  rfl

/-- The checks on the sublinks of a descriptor. -/
def BadSublinks (d : RouterDescriptor) : Prop :=
  d.newSublink = bootstrapSublink ∨ d.decaying = some d.newSublink ∨
    d.decaying = some bootstrapSublink

/-- A descriptor with a link state passes its checks where its sublinks and the link
state do; one without may pass them, too. -/
theorem checkDescriptor_cases (s : RoutingAcceptor) (linkId : Nat) (d : RouterDescriptor) :
    ((inTables (checkDescriptor d linkId)).run s = .ok ⟨⟩ s ∧ ¬BadSublinks d ∧
        (d.decaying.isSome = true → s.fits linkId d.newLinkStateFragment = true)) ∨
      (∃ e, (inTables (checkDescriptor d linkId)).run s = .error e s) ∧
        (BadSublinks d ∨ d.decaying.isSome = true → BadSublinks d ∨
          s.fits linkId d.newLinkStateFragment = false) := by
  unfold checkDescriptor
  by_cases hsublinks : BadSublinks d
  · refine .inr ⟨⟨.badParcel "invalid sublink ids in descriptor", ?_⟩, fun _ => .inl hsublinks⟩
    apply inTables_of_error
    unfold BadSublinks at hsublinks
    simp only [if_pos hsublinks]
    rfl
  have hskip : ¬(d.newSublink = bootstrapSublink ∨ d.decaying = some d.newSublink ∨
    d.decaying = some bootstrapSublink) := hsublinks
  simp only [if_neg hskip]
  cases d.decaying.isSome with
  | true =>
      cases hfits : s.fits linkId d.newLinkStateFragment with
      | true =>
          rw [not_null_of_fits hfits]
          exact .inl ⟨fits_run hfits, hsublinks, fun _ => rfl⟩
      | false =>
          refine .inr ⟨?_, fun _ => .inr rfl⟩
          cases d.newLinkStateFragment.isNull with
          | true => exact ⟨_, rfl⟩
          | false => exact fits_refused hfits
  | false =>
      cases d.newLinkStateFragment.isNull with
      | true => exact .inl ⟨rfl, hsublinks, nofun⟩
      | false => exact .inr ⟨⟨_, rfl⟩, fun h => absurd (h.resolve_left hsublinks) Bool.false_ne_true⟩

/-- A router whose descriptor passes its checks takes the link state it names, if it
names one. -/
theorem descriptor_takes_iff (depth : Nat) {d : RouterDescriptor} {r : Router}
    (hcheck : (inTables (checkDescriptor d linkId)).run s = .ok ⟨⟩ s)
    (hr : d.toRouter linkId = some r) :
    s.TakesState (endState ((routerDeserialize (fun info => routerFlush info depth)
      (processAcceptParcel depth) d linkId).run s)) linkId d.newLinkStateFragment ↔
        d.decaying.isSome = true := by
  have hframed := logs_framed linkId
  have hrest : Maintains RoutingAcceptor.Logs (do
      let early ← takeEarly linkId d.sublinks
      replayEarlyParcels (processAcceptParcel depth) linkId early
      startRouter (fun info => routerFlush info depth) d linkId
      pure d.newSublink) := by
    refine Maintains.bind (takeEarly_keeps hframed linkId _) fun early => ?_
    refine Maintains.bind ?_ fun _ => (startRouter_keeps hframed depth d).bind fun _ => keeps_pure _
    exact replayEarlyParcels_keeps (processAcceptParcel_keeps hframed depth) early
  unfold routerDeserialize
  rw [takesState_bind_iff (adoptRouter_run hcheck hr) rfl hrest]
  have hrouter : (s.tables.adopt linkId d r).routers d.newSublink = some r := by
    rw [RouteTables.adopt_routers, Function.update_self]
  have hprimary := @outwardEdge_primary linkId d
  rw [← toRouter_outward hr] at hprimary
  cases hdecaying : d.decaying with
  | some decaying =>
      rw [hdecaying] at hprimary
      exact iff_of_true ⟨r, _, hrouter, hprimary, rfl, rfl⟩ rfl
  | none =>
      rw [hdecaying] at hprimary
      refine iff_of_false ?_ Bool.false_ne_true
      rintro ⟨r', link, hr', hlink, -, hstate⟩
      obtain rfl := Option.some.inj (hrouter.symm.trans hr')
      obtain rfl := Option.some.inj (hprimary.symm.trans hlink)
      cases hstate

/-- A router with a remote, stable outward link takes a new one. -/
theorem centralLink_takes {rid newSublink len : Nat} {r : Router} {old : Link}
    {k : Option (Nat × Nat) → AcceptorM Unit} {rest : AcceptorM Unit}
    (h : s.tables.replaceable rid = some (r, old))
    (hk : k (some (old.sublink, r.outbound.current)) = (do
      logAdoption (.centralLink linkId newSublink rid) s.tables
      rest))
    (hrest : Maintains RoutingAcceptor.Logs rest) :
    s.TakesState (endState ((inTables (fun _ =>
      adoptCentralLink rid linkId newSublink desc len) >>= k).run s)) linkId desc := by
  obtain ⟨hr, hold, -, -, hstable⟩ := replaceable_some h
  let t := s.tables.replace rid linkId newSublink desc len r
  have hadopt : (inTables fun _ => adoptCentralLink rid linkId newSublink desc len).run s =
      .ok (some (old.sublink, r.outbound.current)) { s with tables := t } :=
    inTables_of_ok (adoptCentralLink_taken h)
  obtain ⟨l, hl, -⟩ := hrest { s with
    tables := t
    adoptions := s.adoptions ++ [(.centralLink linkId newSublink rid, s.tables, t)] }
  rw [run_bind_of_ok hadopt, hk]
  refine ⟨.centralLink linkId newSublink rid, t, l,
    { r with
      outward := r.outward.replaced r.outbound.current len
        (.remote linkId newSublink .central .b (some desc)) },
    .remote linkId newSublink .central .b (some desc), ?_, Function.update_self .., ?_, rfl, rfl⟩
  · refine hl.trans ?_
    exact List.append_assoc ..
  · have hnone : r.outward.decaying = none := Option.isNone_iff_eq_none.mp hstable
    simp [Edge.replaced, Edge.beginDecay, Edge.beginPrimaryLinkDecay, hnone, hold,
      Edge.setLengthToDecayingLink, Edge.setLengthFromDecayingLink, Edge.setPrimaryLink]

/-- A descriptor that is refused adopts nothing. -/
theorem not_takesState_descriptor (depth : Nat) {d : RouterDescriptor}
    (h : (∃ e, (inTables (checkDescriptor d linkId)).run s = .error e s) ∨
      (inTables (checkDescriptor d linkId)).run s = .ok ⟨⟩ s ∧ d.toRouter linkId = none) :
    ¬s.TakesState (endState ((routerDeserialize (fun info => routerFlush info depth)
      (processAcceptParcel depth) d linkId).run s)) linkId desc := by
  obtain ⟨e, hadopt⟩ : ∃ e, (adoptRouter d linkId).run s = .error e s := by
    unfold adoptRouter
    rcases h with ⟨e, hcheck⟩ | ⟨hcheck, hr⟩
    · exact ⟨e, by rw [EStateM.run_bind, hcheck]⟩
    · exact ⟨_, by rw [run_bind_of_ok hcheck, hr]; rfl⟩
  refine not_takesState ?_
  unfold routerDeserialize
  rw [EStateM.run_bind, hadopt]
  rfl

theorem descriptor_offer_iff (depth : Nat) (d : RouterDescriptor) :
    s.TakesState (endState (((StateOffer.descriptor d).accept depth linkId desc).run s)) linkId desc ↔
      (StateOffer.descriptor d).Due s linkId ∧ s.fits linkId desc = true := by
  set d' : RouterDescriptor := { d with newLinkStateFragment := desc } with hd'
  have haccept : endState (((StateOffer.descriptor d).accept depth linkId desc).run s) =
      endState ((routerDeserialize (fun info => routerFlush info depth) (processAcceptParcel depth)
        d' linkId).run s) := by
    unfold StateOffer.accept
    rw [EStateM.run_bind]
    cases (routerDeserialize (fun info => routerFlush info depth) (processAcceptParcel depth)
      d' linkId).run s <;> rfl
  have hdue : (StateOffer.descriptor d).Due s linkId ↔ ¬BadSublinks d' ∧
      d'.decaying.isSome = true ∧ (d'.toRouter linkId).isSome = true := by
    unfold StateOffer.Due BadSublinks
    rw [hd', toRouter_isSome d desc, not_or, not_or, and_assoc, and_assoc]
    rfl
  rw [haccept, hdue]
  rcases checkDescriptor_cases s linkId d' with ⟨hcheck, hsublinks, hfits⟩ | ⟨herror, hbad⟩
  · cases hr : d'.toRouter linkId with
    | some r =>
        rw [descriptor_takes_iff (d := d') depth hcheck hr]
        exact ⟨fun h => ⟨⟨hsublinks, h, rfl⟩, hfits h⟩, fun h => h.1.2.1⟩
    | none =>
        refine iff_of_false (not_takesState_descriptor depth (.inr ⟨hcheck, hr⟩)) fun h => ?_
        exact absurd h.1.2.2 Bool.false_ne_true
  · refine iff_of_false (not_takesState_descriptor depth (.inl herror)) ?_
    rintro ⟨⟨hsublinks, hdecaying, -⟩, hfits⟩
    have hno := (hbad (.inr hdecaying)).resolve_left hsublinks
    exact absurd (hno.symm.trans hfits) Bool.false_ne_true

/-- A link state is taken where all checks are passed, and nowhere else. -/
theorem StateOffer.takesState_iff (depth : Nat) (offer : StateOffer) :
    s.TakesState (endState ((offer.accept depth linkId desc).run s)) linkId desc ↔
      offer.Due s linkId ∧ s.fits linkId desc = true := by
  cases offer with
  | descriptor d => exact descriptor_offer_iff depth d
  | bypassPeerWithLink sublink newSublink len =>
      unfold accept onBypassPeerWithLink
      cases hfits : s.fits linkId desc with
      | false =>
          obtain ⟨e, hrun⟩ := fits_refused hfits
          refine iff_of_false (not_takesState ?_) fun h => absurd h.2 Bool.false_ne_true
          dsimp only
          split
          · rfl
          · rw [EStateM.run_bind, hrun]
            rfl
      | true =>
          dsimp only
          rw [not_null_of_fits hfits, if_neg (by decide), run_bind_of_ok (fits_run hfits),
            run_get_bind]
          cases howner : s.tables.owners (linkId, sublink) with
          | none =>
              refine iff_of_false (not_takesState rfl) ?_
              rintro ⟨⟨rid, hrid, -⟩, -⟩
              cases howner.symm.trans hrid
          | some rid =>
              dsimp only
              rw [run_get_bind]
              cases hrepl : s.tables.replaceable rid with
              | none =>
                  refine iff_of_false (not_takesState_of_end (end_of_refused hrepl rfl)) ?_
                  rintro ⟨⟨rid', hrid', hsome⟩, -⟩
                  obtain rfl := Option.some.inj (howner.symm.trans hrid')
                  rw [hrepl] at hsome
                  cases hsome
              | some x =>
                  refine iff_of_true (centralLink_takes hrepl rfl ?_)
                    ⟨⟨rid, howner, by rw [hrepl]; rfl⟩, rfl⟩
                  have hframed := logs_framed linkId
                  refine (inTables_logs _).bind fun _ => ?_
                  refine Maintains.bind (takeEarlyParcels_keeps hframed _) fun early => ?_
                  refine Maintains.bind ?_ fun _ => inTables_logs _
                  exact replayEarlyParcels_keeps (processAcceptParcel_keeps hframed depth) early
  | acceptBypassLink node peerSublink len newSublink =>
      unfold accept onAcceptBypassLinkMessage
      rw [run_get_bind]
      cases hnode : linkIdForNode s.info node with
      | none =>
          refine iff_of_false (not_takesState rfl) ?_
          rintro ⟨⟨oldLinkId, hold, -⟩, -⟩
          cases hnode.symm.trans hold
      | some oldLinkId =>
          dsimp only
          rw [run_get_bind]
          -- the router that the message is for
          have hdue (h : (acceptBypassLink node peerSublink len newSublink).Due s linkId) :
              ∃ rid ∈ s.tables.owners (oldLinkId, peerSublink),
                (checkBypassSource s.info rid linkId).run s.tables = .ok true s.tables ∧
                  (s.tables.replaceable rid).isSome = true := by
            obtain ⟨oldLinkId', hold, hrest⟩ := h
            obtain rfl := Option.some.inj (hnode.symm.trans hold)
            exact hrest
          cases howner : s.tables.owners (oldLinkId, peerSublink) with
          | none =>
              refine iff_of_false (not_takesState rfl) fun h => ?_
              obtain ⟨rid, hrid, -⟩ := hdue h.1
              cases howner.symm.trans hrid
          | some rid =>
              have hdue (h : (acceptBypassLink node peerSublink len newSublink).Due s linkId) :
                  (checkBypassSource s.info rid linkId).run s.tables = .ok true s.tables ∧
                    (s.tables.replaceable rid).isSome = true := by
                obtain ⟨rid', hrid', hrest⟩ := hdue h
                obtain rfl := Option.some.inj (howner.symm.trans hrid')
                exact hrest
              dsimp only
              cases hfits : s.fits linkId desc with
              | false =>
                  obtain ⟨e, hrun⟩ := fits_refused hfits
                  refine iff_of_false (not_takesState ?_) fun h => absurd h.2 Bool.false_ne_true
                  rw [EStateM.run_bind, hrun]
                  rfl
              | true =>
                  rw [run_bind_of_ok (fits_run hfits)]
                  rcases checkBypassSource_cases s rid linkId with ⟨b, hrun, hcheck⟩ | ⟨e, hrun, hcheck⟩
                  · rw [run_bind_of_ok hrun]
                    cases b with
                    | false =>
                        refine iff_of_false (not_takesState rfl) fun h => ?_
                        cases hcheck.symm.trans (hdue h.1).1
                    | true =>
                        rw [if_pos rfl, run_get_bind]
                        cases hrepl : s.tables.replaceable rid with
                        | none =>
                            refine iff_of_false (not_takesState_of_end (end_of_refused hrepl rfl))
                              fun h => ?_
                            have hsome := (hdue h.1).2
                            rw [hrepl] at hsome
                            cases hsome
                        | some x =>
                            refine iff_of_true (centralLink_takes hrepl rfl (inTables_logs _)) ?_
                            exact ⟨⟨oldLinkId, hnode, rid, howner, hcheck, by rw [hrepl]; rfl⟩, rfl⟩
                  · refine iff_of_false (not_takesState ?_) fun h => ?_
                    · rw [EStateM.run_bind, hrun]
                      rfl
                    · cases hcheck.symm.trans (hdue h.1).1

end Adopt

/-- A link state fits into the buffers of its link where it resolves. -/
theorem fits_iff {s : RoutingAcceptor} {linkId : Nat}
    (hreg : registryFor s.info linkId = .ok b.registry) :
    s.fits linkId desc = true ↔ ¬Unresolved b desc := by
  have hfragment := b.registry_fragment desc
  rw [RoutingAcceptor.fits, hreg]
  dsimp only
  rw [← hfragment]
  cases hm : b.fragment desc with
  | error e => exact iff_of_false Bool.false_ne_true (not_not.mpr ⟨e, hm⟩)
  | ok memory => exact iff_of_true rfl fun ⟨e, he⟩ => nomatch hm.symm.trans he

/-- Every operation on every descriptor, and every adoption of one, either
fails or touches only bytes that the descriptor names, exactly where the
descriptor names no bytes that a buffer has, or at least those that the
operations access unchecked; an adoption also where another check refuses it. -/
theorem descriptor_bounds_iff (b : LinkBuffers) (desc : FragmentDescriptor) :
    (∀ call : LinkCall, StaysInside b desc (call.prog b desc) ↔
      Unresolved b desc ∨ call.unchecked ≤ desc.size.toNat) ∧
    ∀ (s : RoutingAcceptor) (linkId : Nat), registryFor s.info linkId = .ok b.registry →
      ∀ (depth : Nat) (offer : StateOffer) (calls : List LinkCall),
        AdoptionStaysInside b s depth linkId desc offer calls ↔
          ¬offer.Due s linkId ∨ Unresolved b desc ∨
            ∀ call ∈ calls, call.unchecked ≤ desc.size.toNat := by
  refine ⟨LinkCall.staysInside_iff b desc, fun s linkId hreg depth offer calls => ?_⟩
  rw [AdoptionStaysInside, offer.takesState_iff, fits_iff hreg]
  by_cases hdue : offer.Due s linkId
  · rw [or_iff_right (not_not.mpr hdue), and_iff_right hdue]
    by_cases hnone : Unresolved b desc
    · exact iff_of_true (fun h => absurd hnone h) (.inl hnone)
    · rw [or_iff_right hnone, imp_iff_right hnone]
      refine forall₂_congr fun call _ => ?_
      rw [LinkCall.staysInside_iff, or_iff_right hnone]
  · exact iff_of_true (fun h => absurd h.1 hdue) (.inl hdue)

/-- An empty fragment at the end of the primary buffer. -/
def emptyFragment : FragmentDescriptor := ⟨primaryBufferId, 131072, 0⟩

/-- A reference is taken behind the end of the buffer. -/
theorem reference_out_of_bounds :
    ¬StaysInside .adopted emptyFragment (LinkCall.addLinkStateRef.prog .adopted emptyFragment) := by
  rw [LinkCall.staysInside_iff, not_or]
  refine ⟨?_, by decide⟩
  rintro ⟨e, he⟩
  have hok : LinkBuffers.adopted.fragment emptyFragment = .ok .primary := rfl
  cases hok.symm.trans he

end MojoRs.Ipcz
