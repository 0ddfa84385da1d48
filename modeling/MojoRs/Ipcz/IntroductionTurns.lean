/-
MojoRs/Ipcz/IntroductionTurns.lean

Completing one pending request for an introduction (`complete_pending_intro`
and what it calls in `routing.rs`), when its turn comes.

With a link to the node, the router of the request is bypassed: it gets a new
central link in place of its outward link, which decays, and the node is told.
Without one the route is disconnected.  A request whose router is lost is
dropped.  The code looks only for some of this: `CanBypass` and `CanDrop` say
when it does what is said here.

Main results: `bypass_iff`, `disconnect_iff`.
-/
import MojoRs.Ipcz.FlushFrames
import MojoRs.Ipcz.LocalFlush

namespace MojoRs.Ipcz

open Function (update)
open Lib

/-! ### What becomes of a request -/

/-- The edge with `link` in place of its primary link, which decays at `length`. -/
def Edge.bypassedBy (e : Edge) (link : Link) (length : Nat) : Edge :=
  ⟨some link, some ⟨e.primary, some length, none⟩⟩

namespace RouteTables

/-- The router has gone or has lost its outward link. -/
def Lost (t : RouteTables) (rid : Nat) : Prop :=
  ∀ r, t.routers rid = some r → r.outward.primary = none

/-- The request is dropped: its router is lost, and the routers, the messages
and the pending requests stay as they are. -/
def Dropped (req : PendingIntroRequest) (t t' : RouteTables) : Prop :=
  t.Lost req.rid ∧ t.Quiet t'

/-- The router is gone, with its sublinks. -/
def disconnectRoute (t : RouteTables) (rid : Nat) : RouteTables :=
  (t.dropOwners rid []).dropRouter rid

/-- The route of the request is disconnected. -/
def Disconnected (req : PendingIntroRequest) (t t' : RouteTables) : Prop :=
  (t.routers req.rid).isSome = true ∧ t' = t.disconnectRoute req.rid

section Bypass

variable (info : NodeInfo) (depth linkId : Nat) (req : PendingIntroRequest) (t : RouteTables)

/-- What a bypass over link `linkId` starts from: the node that requested it, a
free link state in the memory of the link, and the router. -/
structure BypassStart (requestor : LinkInfo) (block : FragmentDescriptor) (m : SharedMemory)
    (r : Router) : Prop where
  requestor : info.links req.requestorLinkId = some requestor
  block : ∃ reg, registryFor info linkId = .ok reg ∧ reg.fragment block = .ok () ∧
    (t.memories linkId).tryAllocateLinkState reg = some (block, m)
  router : t.routers req.rid = some r

/-- The tables with a second reference to the link state `block`, and with a
sublink for it. -/
def withSublink (block : FragmentDescriptor) (m : SharedMemory) : RouteTables :=
  let m' := m.addLinkStateRef block
  t.setMemory linkId { m' with nextSublinkId := m.nextSublinkId + 1 }

/-- The tables with the new central link: the node behind it is told, and the
old outward link decays. -/
def withCentralLink (requestor : NodeName) (block : FragmentDescriptor) (m : SharedMemory)
    (r : Router) : RouteTables :=
  let link := Link.remote linkId m.nextSublinkId .central .a (some block)
  (((t.withSublink linkId block m).setChannel linkId
    ((t.channels linkId).send (.acceptBypassLink requestor req.bypassTargetSublink
      r.outbound.current m.nextSublinkId block) [])).setOwner
        (linkId, m.nextSublinkId) req.rid).setRouter req.rid
    { r with outward := r.outward.bypassedBy link r.outbound.current }

/-- The request is completed over link `linkId`, and then its router flushed. -/
def Bypassed (t' : RouteTables) : Prop :=
  ∃ requestor block m r, t.BypassStart info linkId req requestor block m r ∧
    r.disconnected = false ∧ r.outward.primary.isSome = true ∧
    (routerFlush info depth req.rid true).run
      (t.withCentralLink linkId req requestor.remoteName block m r) = .ok ⟨⟩ t'

/-- The branches of a bypass that go wrong are not taken: the router is
connected and has a stable outward link, the channel is open, and the flush of
the router returns. -/
def CanBypass : Prop :=
  ∃ requestor block m r, t.BypassStart info linkId req requestor block m r ∧
    r.disconnected = false ∧ r.outward.primary.isSome = true ∧ r.outward.isStable = true ∧
    (t.channels linkId).broken = false ∧
    ∃ t', (routerFlush info depth req.rid true).run
      (t.withCentralLink linkId req requestor.remoteName block m r) = .ok ⟨⟩ t'

/-- A request whose router is lost is not even looked at without a free link
state, and a disconnected router is left alone. -/
def CanDrop : Prop :=
  t.Lost req.rid ∧
    ((∃ requestor reg, info.links req.requestorLinkId = some requestor ∧
      registryFor info linkId = .ok reg ∧
      (t.memories linkId).tryAllocateLinkState reg = none) ∨
    ∃ requestor block m r, t.BypassStart info linkId req requestor block m r ∧
      r.disconnected = true)

end Bypass

end RouteTables

open RouteTables

/-! ### Bypass -/

section Bypass

variable {info : NodeInfo} {flush : Nat → Bool → RouteM Unit} {rid linkId : Nat}
  {req : PendingIntroRequest} {t t' : RouteTables} {r : Router}

/-- `bypass_peer_with_new_remote_link` once it has a link state and a sublink. -/
def bypassOver (info : NodeInfo) (flush : Nat → Bool → RouteM Unit)
    (rid bypassTargetSublink linkId : Nat) (requestor : NodeName) (block : FragmentDescriptor)
    (sublink : Nat) : RouteM Unit := do
  let r ← getRouter rid "bypass for unknown router"
  if r.disconnected then return ()
  let outward ← r.outward.decayOr "failed to decay the outward link" (some r.outbound.current) none
  putRouter rid { r with outward }
  sendLinkMessageOn info linkId
    (.acceptBypassLink requestor bypassTargetSublink r.outbound.current sublink block) []
  insertOwner linkId sublink rid
  setOutwardLink info rid (.remote linkId sublink .central .a (some block))
  flush rid true

section Steps

variable {reg : BufferRegistry} {requestor : LinkInfo} {block : FragmentDescriptor}
  {m : SharedMemory}

theorem remoteNameFor_some (h : info.links linkId = some requestor) (t : RouteTables) :
    (remoteNameFor info linkId).run t = .ok requestor.remoteName t := by
  unfold remoteNameFor
  rw [h]
  rfl

theorem memoryFor_registry (h : registryFor info linkId = .ok reg) (t : RouteTables) :
    (memoryFor info linkId).run t = .ok reg t := by
  unfold memoryFor
  rw [h]
  rfl

theorem tryAllocateLinkState_none (h : registryFor info linkId = .ok reg)
    (hnone : (t.memories linkId).tryAllocateLinkState reg = none) :
    (tryAllocateLinkState info linkId).run t = .ok none t := by
  unfold tryAllocateLinkState
  rw [run_bind_of_ok (memoryFor_registry h t), run_get_bind, hnone]
  rfl

theorem tryAllocateLinkState_some (h : registryFor info linkId = .ok reg)
    (hblock : (t.memories linkId).tryAllocateLinkState reg = some (block, m)) :
    (tryAllocateLinkState info linkId).run t = .ok (some block) (t.setMemory linkId m) := by
  unfold tryAllocateLinkState
  rw [run_bind_of_ok (memoryFor_registry h t), run_get_bind, hblock]
  rfl

theorem addLinkStateRef_run (h : registryFor info linkId = .ok reg) (block : FragmentDescriptor)
    (t : RouteTables) :
    (addLinkStateRef info linkId block).run t =
      match reg.fragment block with
      | .ok _ => .ok ⟨⟩ (t.setMemory linkId ((t.memories linkId).addLinkStateRef block))
      | .error e => .error (.memory e) t := by
  unfold addLinkStateRef
  rw [run_bind_of_ok (memoryFor_registry h t)]
  cases reg.fragment block with
  | ok u => rfl
  | error e => rfl

theorem allocateSublinkIds_run (h : registryFor info linkId = .ok reg) (t : RouteTables) (n : Nat) :
    (allocateSublinkIds info linkId n).run t = .ok (t.memories linkId).nextSublinkId
      (t.setMemory linkId
        { t.memories linkId with nextSublinkId := (t.memories linkId).nextSublinkId + n }) := by
  unfold allocateSublinkIds
  rw [run_bind_of_ok (memoryFor_registry h t)]
  rfl

@[simp] theorem RouteTables.setMemory_memories_self (t : RouteTables) (linkId : Nat) (m : SharedMemory) :
    (t.setMemory linkId m).memories linkId = m := Function.update_self ..

@[simp] theorem RouteTables.setMemory_setMemory (t : RouteTables) (linkId : Nat) (m m' : SharedMemory) :
    (t.setMemory linkId m).setMemory linkId m' = t.setMemory linkId m' := by
  simp only [setMemory, Function.update_idem]

variable (hrequestor : info.links req.requestorLinkId = some requestor)
  (hreg : registryFor info linkId = .ok reg)

include hrequestor hreg

/-- Without a free link state nothing happens. -/
theorem bypass_noBlock (hnone : (t.memories linkId).tryAllocateLinkState reg = none) :
    (bypassPeerWithNewRemoteLink info flush req.rid req.requestorLinkId req.bypassTargetSublink
      linkId).run t = .ok ⟨⟩ t := by
  unfold bypassPeerWithNewRemoteLink
  rw [run_bind_of_ok (remoteNameFor_some hrequestor t),
    run_bind_of_ok (tryAllocateLinkState_none hreg hnone)]
  rfl

/-- With one the bypass goes on over a new sublink. -/
theorem bypass_block (hblock : (t.memories linkId).tryAllocateLinkState reg = some (block, m))
    (hfragment : reg.fragment block = .ok ()) :
    (bypassPeerWithNewRemoteLink info flush req.rid req.requestorLinkId req.bypassTargetSublink
      linkId).run t =
        (bypassOver info flush req.rid req.bypassTargetSublink linkId requestor.remoteName block
          m.nextSublinkId).run (t.withSublink linkId block m) := by
  have hadd := addLinkStateRef_run hreg block (t.setMemory linkId m)
  rw [hfragment] at hadd
  unfold bypassPeerWithNewRemoteLink
  rw [run_bind_of_ok (remoteNameFor_some hrequestor t),
    run_bind_of_ok (tryAllocateLinkState_some hreg hblock), run_bind_of_ok hadd,
    run_bind_of_ok (allocateSublinkIds_run hreg _ 1)]
  simp only [setMemory_memories_self, setMemory_setMemory]
  rfl

/-- A link state that does not lie in the memory is an error. -/
theorem bypass_badBlock (hblock : (t.memories linkId).tryAllocateLinkState reg = some (block, m))
    {e : LinkMemoryError} (hfragment : reg.fragment block = .error e) :
    (bypassPeerWithNewRemoteLink info flush req.rid req.requestorLinkId req.bypassTargetSublink
      linkId).run t ≠ .ok ⟨⟩ t' := by
  have hadd := addLinkStateRef_run hreg block (t.setMemory linkId m)
  rw [hfragment] at hadd
  unfold bypassPeerWithNewRemoteLink
  rw [run_bind_of_ok (remoteNameFor_some hrequestor t),
    run_bind_of_ok (tryAllocateLinkState_some hreg hblock)]
  intro h
  obtain ⟨⟨⟩, s₁, h₁, -⟩ := bind_eq_ok.mp h
  rw [hadd] at h₁
  cases h₁

end Steps

/-- Reading a bypass that returned back to its link state. -/
theorem bypass_ok (h : (bypassPeerWithNewRemoteLink info flush req.rid req.requestorLinkId
      req.bypassTargetSublink linkId).run t = .ok ⟨⟩ t') :
    ∃ requestor reg, info.links req.requestorLinkId = some requestor ∧
      registryFor info linkId = .ok reg ∧
      (((t.memories linkId).tryAllocateLinkState reg = none ∧ t' = t) ∨
        ∃ block m, (t.memories linkId).tryAllocateLinkState reg = some (block, m) ∧
          reg.fragment block = .ok () ∧
          (bypassOver info flush req.rid req.bypassTargetSublink linkId requestor.remoteName block
            m.nextSublinkId).run (t.withSublink linkId block m) = .ok ⟨⟩ t') := by
  have hbind := h
  unfold bypassPeerWithNewRemoteLink at hbind
  obtain ⟨name, s₁, hname, h₁⟩ := bind_eq_ok.mp hbind
  cases hrequestor : info.links req.requestorLinkId with
  | none =>
      unfold remoteNameFor at hname
      rw [hrequestor] at hname
      cases hname
  | some requestor =>
      obtain ⟨b, s₂, halloc, -⟩ := bind_eq_ok.mp h₁
      cases hreg : registryFor info linkId with
      | error e =>
          unfold tryAllocateLinkState memoryFor at halloc
          rw [hreg] at halloc
          cases halloc
      | ok reg =>
          refine ⟨requestor, reg, rfl, rfl, ?_⟩
          cases hblock : (t.memories linkId).tryAllocateLinkState reg with
          | none =>
              rw [bypass_noBlock hrequestor hreg hblock] at h
              injection h with _ ht
              exact .inl ⟨rfl, ht.symm⟩
          | some x =>
              obtain ⟨block, m⟩ := x
              cases hfragment : reg.fragment block with
              | error e => exact absurd h (bypass_badBlock hrequestor hreg hblock hfragment)
              | ok u =>
                  rw [bypass_block hrequestor hreg hblock hfragment] at h
                  exact .inr ⟨block, m, rfl, hfragment, h⟩

/-! ### The new link -/

theorem decayOr_stable {e : Edge} (h : e.isStable = true) (msg : String) (n : Nat)
    (t : RouteTables) :
    (e.decayOr msg (some n) none).run t = .ok ⟨none, some ⟨e.primary, some n, none⟩⟩ t := by
  obtain ⟨primary, decaying⟩ := e
  obtain rfl : decaying = none := Option.isNone_iff_eq_none.mp h
  rfl

theorem decayOr_unstable {e e' : Edge} (h : e.isStable = false) (msg : String) (out inc : Option Nat)
    (t : RouteTables) : (e.decayOr msg out inc).run t ≠ .ok e' t' := by
  obtain ⟨primary, - | d⟩ := e
  · cases h
  · exact nofun

theorem sendLinkMessageOn_open (hlink : (info.links linkId).isSome = true)
    (hopen : (t.channels linkId).broken = false) (msg : RouteMessage) (fds : List OwnedFd) :
    (sendLinkMessageOn info linkId msg fds).run t =
      .ok ⟨⟩ (t.setChannel linkId ((t.channels linkId).send msg fds)) := by
  obtain ⟨l, hl⟩ := Option.isSome_iff_exists.mp hlink
  unfold sendLinkMessageOn LinkChannel.send
  rw [hl, run_get_bind, run_bind_of_ok (run_modify _ _), hopen]
  rfl

theorem sendLinkMessageOn_broken (hbroken : (t.channels linkId).broken = true) (msg : RouteMessage)
    (fds : List OwnedFd) : (sendLinkMessageOn info linkId msg fds).run t ≠ .ok ⟨⟩ t' := by
  unfold sendLinkMessageOn
  cases info.links linkId with
  | none => exact nofun
  | some l =>
      rw [run_get_bind, run_bind_of_ok (run_modify _ _), hbroken]
      exact nofun

theorem insertOwner_run (linkId sublink rid : Nat) (t : RouteTables) :
    (insertOwner linkId sublink rid).run t = .ok ⟨⟩ (t.setOwner (linkId, sublink) rid) := rfl

/-- On a decaying edge, a new link marks no side as stable. -/
theorem setOutwardLink_decaying (hr : t.routers rid = some r) (hconnected : r.disconnected = false)
    (hdecaying : r.outward.isStable = false) (link : Link) :
    (setOutwardLink info rid link).run t =
      .ok ⟨⟩ (t.setRouter rid { r with outward := r.outward.setPrimaryLink link }) := by
  unfold setOutwardLink
  rw [run_bind_of_ok (getRouter_some _ hr), hdecaying, Bool.and_false, Bool.false_and]
  show (getRouter rid "set outward link for unknown router" >>= _).run t = _
  rw [run_bind_of_ok (getRouter_some _ hr), hconnected]
  rfl

section Over

variable {sublink targetSublink : Nat} {requestor : NodeName} {block : FragmentDescriptor}

/-- The tables before the flush. -/
def RouteTables.bypassed (t : RouteTables) (rid targetSublink linkId : Nat) (requestor : NodeName)
    (block : FragmentDescriptor) (sublink : Nat) (r : Router) : RouteTables :=
  let outward : Edge := ⟨none, some ⟨r.outward.primary, some r.outbound.current, none⟩⟩
  ((t.setChannel linkId ((t.channels linkId).send
    (.acceptBypassLink requestor targetSublink r.outbound.current sublink block) [])).setOwner
      (linkId, sublink) rid).setRouter rid
    { r with outward := outward.setPrimaryLink (.remote linkId sublink .central .a (some block)) }

theorem bypassOver_run (hlink : (info.links linkId).isSome = true)
    (hr : t.routers rid = some r) (hconnected : r.disconnected = false)
    (hstable : r.outward.isStable = true) (hopen : (t.channels linkId).broken = false) :
    (bypassOver info flush rid targetSublink linkId requestor block sublink).run t =
      (flush rid true).run (t.bypassed rid targetSublink linkId requestor block sublink r) := by
  unfold bypassOver
  rw [run_bind_of_ok (getRouter_some _ hr), if_neg (ne_true_of_eq_false hconnected),
    run_bind_of_ok (decayOr_stable hstable _ _ t), run_bind_of_ok (putRouter_run _ _ _)]
  set r' : Router :=
    { r with outward := ⟨none, some ⟨r.outward.primary, some r.outbound.current, none⟩⟩ } with hr'
  have hopen' : ((t.setRouter rid r').channels linkId).broken = false := hopen
  rw [run_bind_of_ok (sendLinkMessageOn_open hlink hopen' _ _),
    run_bind_of_ok (insertOwner_run _ _ _ _)]
  generalize hsent : ((t.setRouter rid r').setChannel linkId _).setOwner _ _ = t₂
  have hrouter : t₂.routers rid = some r' := by
    rw [← hsent]
    exact setRouter_routers_self t rid r'
  rw [run_bind_of_ok (setOutwardLink_decaying hrouter hconnected rfl _), ← hsent]
  simp only [bypassed, setRouter, setOwner, setChannel, Function.update_idem, hr']

theorem bypassOver_none (hr : t.routers rid = none) :
    (bypassOver info flush rid targetSublink linkId requestor block sublink).run t ≠ .ok ⟨⟩ t' := by
  unfold bypassOver
  rw [EStateM.run_bind, getRouter_none _ hr]
  exact nofun

theorem bypassOver_disconnected (hr : t.routers rid = some r) (h : r.disconnected = true) :
    (bypassOver info flush rid targetSublink linkId requestor block sublink).run t = .ok ⟨⟩ t := by
  unfold bypassOver
  rw [run_bind_of_ok (getRouter_some _ hr), if_pos h]
  rfl

/-- An edge that decays already is an error, and so is a message that the
channel refuses. -/
theorem bypassOver_ok (hr : t.routers rid = some r) (hconnected : r.disconnected = false)
    (h : (bypassOver info flush rid targetSublink linkId requestor block sublink).run t =
      .ok ⟨⟩ t') :
    r.outward.isStable = true ∧ (t.channels linkId).broken = false := by
  unfold bypassOver at h
  rw [run_bind_of_ok (getRouter_some _ hr), if_neg (ne_true_of_eq_false hconnected)] at h
  cases hstable : r.outward.isStable with
  | false =>
      obtain ⟨e, s₁, hdecay, -⟩ := bind_eq_ok.mp h
      exact absurd hdecay (decayOr_unstable hstable _ _ _ _)
  | true =>
      rw [run_bind_of_ok (decayOr_stable hstable _ _ t), run_bind_of_ok (putRouter_run _ _ _)] at h
      cases hopen : (t.channels linkId).broken with
      | false => exact ⟨rfl, rfl⟩
      | true =>
          obtain ⟨⟨⟩, s₁, hsend, -⟩ := bind_eq_ok.mp h
          exact absurd hsend (sendLinkMessageOn_broken (by exact hopen) _ _)

end Over

/-! ### A turn -/

/-- A flush sends, but takes nothing back. -/
theorem nextLinkSeq_frame (linkId n : Nat) :
    FlushFrame (fun t => n ≤ (t.channels linkId).nextLinkSeq) fun _ => True where
  holds _ _ := .any _
  quiet h hq := by
    rw [hq.channels]
    exact h
  setRouter _ _ h _ := h
  note _ _ h := h
  dropRouter _ h := h
  send := by
    intro t l msg fds h _
    by_cases hl : linkId = l
    · subst hl
      simp only [setChannel, Function.update_self, LinkChannel.send]
      exact Nat.le_succ_of_le h
    · simpa [setChannel, hl] using h
  log _ _ h := h

theorem registryFor_link {reg : BufferRegistry} (h : registryFor info linkId = .ok reg) :
    (info.links linkId).isSome = true := by
  unfold registryFor at h
  cases hl : info.links linkId with
  | none =>
      rw [hl] at h
      cases h
  | some l => rfl

theorem bypassed_nextLinkSeq (t : RouteTables) (rid targetSublink linkId : Nat)
    (requestor : NodeName) (block : FragmentDescriptor) (sublink : Nat) (r : Router) :
    ((t.bypassed rid targetSublink linkId requestor block sublink r).channels linkId).nextLinkSeq =
      (t.channels linkId).nextLinkSeq + 1 := by
  simp [bypassed, setRouter, setOwner, setChannel, LinkChannel.send]

/-- With an outward link to decay, the new link is the primary one. -/
theorem bypassed_linked {requestor : NodeName} {block : FragmentDescriptor} {m : SharedMemory}
    (h : r.outward.primary.isSome = true) :
    (t.withSublink linkId block m).bypassed req.rid req.bypassTargetSublink linkId requestor block
      m.nextSublinkId r = t.withCentralLink linkId req requestor block m r := by
  obtain ⟨old, hold⟩ := Option.isSome_iff_exists.mp h
  unfold bypassed withCentralLink Edge.bypassedBy
  rw [hold]
  rfl

/-- A request is completed over a link as it should be exactly where it can be
bypassed or dropped. -/
theorem bypass_iff {depth : Nat} :
    (∃ t', (bypassPeerWithNewRemoteLink info (routerFlush info depth) req.rid req.requestorLinkId
        req.bypassTargetSublink linkId).run t = .ok ⟨⟩ t' ∧
      (Dropped req t t' ∨ t.Bypassed info depth linkId req t')) ↔
      t.CanDrop info linkId req ∨ t.CanBypass info depth linkId req := by
  constructor
  · rintro ⟨t', hrun, hdone⟩
    obtain ⟨requestor, reg, hrequestor, hreg, ⟨hnone, rfl⟩ | ⟨block, m, hblock, hfragment, hover⟩⟩ :=
      bypass_ok hrun
    · rcases hdone with ⟨hlost, -⟩ | ⟨_, _, _, _, ⟨-, ⟨reg', hreg', -, hblock'⟩, -⟩, -⟩
      · exact .inl ⟨hlost, .inl ⟨requestor, reg, hrequestor, hreg, hnone⟩⟩
      · rw [hreg] at hreg'
        injection hreg' with hreg'
        rw [← hreg', hnone] at hblock'
        cases hblock'
    · cases hr : t.routers req.rid with
      | none => exact absurd hover (bypassOver_none (by exact hr))
      | some r =>
          have hstart : t.BypassStart info linkId req requestor block m r :=
            ⟨hrequestor, ⟨reg, hreg, hfragment, hblock⟩, hr⟩
          have hr' : (t.withSublink linkId block m).routers req.rid = some r := hr
          cases hconnected : r.disconnected with
          | true =>
              rcases hdone with ⟨hlost, -⟩ | ⟨_, _, _, r', hstart', hconnected', -⟩
              · exact .inl ⟨hlost, .inr ⟨requestor, block, m, r, hstart, hconnected⟩⟩
              · obtain rfl := Option.some.inj (hr.symm.trans hstart'.router)
                rw [hconnected] at hconnected'
                cases hconnected'
          | false =>
              obtain ⟨hstable, hopen⟩ := bypassOver_ok hr' hconnected hover
              rw [bypassOver_run (registryFor_link hreg) hr' hconnected hstable hopen] at hover
              rcases hdone with ⟨-, hquiet⟩ | ⟨_, _, _, r', hstart', -, hlinked, -⟩
              · -- the message has been sent
                have hsent := ((nextLinkSeq_frame linkId _).routerFlush depth true).ok
                  (bypassed_nextLinkSeq ..).ge hover
                rw [hquiet.channels] at hsent
                exact absurd hsent (Nat.not_succ_le_self _)
              · obtain rfl := Option.some.inj (hr.symm.trans hstart'.router)
                rw [bypassed_linked hlinked] at hover
                exact .inr ⟨requestor, block, m, r, hstart, hconnected, hlinked, hstable, hopen, t',
                  hover⟩
  · rintro (⟨hlost, ⟨requestor, reg, hrequestor, hreg, hnone⟩ |
      ⟨requestor, block, m, r, hstart, hdisconnected⟩⟩ |
      ⟨requestor, block, m, r, hstart, hconnected, hlinked, hstable, hopen, t', hflush⟩)
    · exact ⟨t, bypass_noBlock hrequestor hreg hnone, .inl ⟨hlost, Std.Refl.refl t⟩⟩
    · obtain ⟨reg, hreg, hfragment, hblock⟩ := hstart.block
      refine ⟨t.withSublink linkId block m, ?_, .inl ⟨hlost, ⟨rfl, rfl, rfl, rfl, rfl, rfl⟩⟩⟩
      rw [bypass_block hstart.requestor hreg hblock hfragment]
      exact bypassOver_disconnected (by exact hstart.router) hdisconnected
    · obtain ⟨reg, hreg, hfragment, hblock⟩ := hstart.block
      have hr : (t.withSublink linkId block m).routers req.rid = some r := hstart.router
      refine ⟨t', ?_, .inr ⟨requestor, block, m, r, hstart, hconnected, hlinked, hflush⟩⟩
      rw [bypass_block hstart.requestor hreg hblock hfragment,
        bypassOver_run (registryFor_link hreg) hr hconnected hstable hopen, bypassed_linked hlinked]
      exact hflush

end Bypass

/-! ### Disconnection -/

section Disconnect

variable {info : NodeInfo} {req : PendingIntroRequest} {t t' : RouteTables} {rid : Nat} {r : Router}

theorem disconnectRoute_self (t : RouteTables) (rid : Nat) :
    (t.disconnectRoute rid).routers rid = none := Function.update_self ..

theorem disconnectRoute_ne (t : RouteTables) {rid rid' : Nat} (h : rid' ≠ rid) :
    (t.disconnectRoute rid).routers rid' = t.routers rid' := Function.update_of_ne h ..

/-- A disconnected router has no links whose sublinks or link states go with it. -/
theorem routerDisconnected_run (hr : t.routers rid = some r) :
    (routerDisconnected info rid).run t = .ok ⟨⟩ (t.disconnectRoute rid) := by
  have hlinks : r.disconnect.routeLinks = [] := by
    cases hinward : r.inward <;> simp [Router.routeLinks, Router.disconnect, Edge.links, hinward,
      Edge.releasePrimaryLink, Edge.releaseDecayingLink, Edge.decayingLink]
  unfold routerDisconnected removeRouter
  rw [run_bind_of_ok (getRouter_some _ hr), run_bind_of_ok (putRouter_run _ _ _), run_get_bind,
    setRouter_routers_self]
  dsimp only
  rw [hlinks]
  show EStateM.Result.ok PUnit.unit
    (((t.setRouter rid r.disconnect).dropOwners rid []).dropRouter rid) = _
  have hbuffer : r.disconnect.inbound.buffer = r.inbound.buffer := by
    simp [Router.disconnect, ParcelQueue.setFinalSequenceLength]
  simp only [disconnectRoute, setRouter, dropOwners, dropRouter, Function.update_idem,
    Function.update_self, Option.any_some, hr, hbuffer]
  rfl

/-- A request is completed by disconnecting its route exactly where its router
is still there. -/
theorem disconnect_iff :
    (∃ t', (routerDisconnected info req.rid).run t = .ok ⟨⟩ t' ∧
      (Dropped req t t' ∨ Disconnected req t t')) ↔ (t.routers req.rid).isSome = true := by
  cases hr : t.routers req.rid with
  | none =>
      unfold routerDisconnected
      rw [EStateM.run_bind, getRouter_none _ hr]
      exact ⟨nofun, nofun⟩
  | some r =>
      refine ⟨fun _ => rfl, fun _ => ⟨_, routerDisconnected_run hr, .inr ⟨?_, rfl⟩⟩⟩
      rw [hr]
      rfl

/-- In a row of disconnections every router has to be there, and none twice. -/
theorem disconnects_iff (name : NodeName) {flush : Nat → Bool → RouteM Unit}
    (hname : linkIdForNode info name = none) {reqs : List PendingIntroRequest} :
    EachTurn (completePendingIntro info flush name)
        (fun req t => (t.routers req.rid).isSome = true) reqs t ↔
      (reqs.map (·.rid)).Nodup ∧ ∀ req ∈ reqs, (t.routers req.rid).isSome = true := by
  induction reqs generalizing t with
  | nil => simp [EachTurn]
  | cons req reqs ih =>
      have hrun : completePendingIntro info flush name req = routerDisconnected info req.rid := by
        unfold completePendingIntro
        rw [hname]
      rw [EachTurn, hrun, List.map_cons, List.nodup_cons, List.forall_mem_cons]
      constructor
      · rintro ⟨hthere, hrest⟩
        obtain ⟨r, hr⟩ := Option.isSome_iff_exists.mp hthere
        obtain ⟨hnodup, hall⟩ := ih.mp (hrest _ (routerDisconnected_run hr))
        refine ⟨⟨fun hmem => ?_, hnodup⟩, hthere, fun req' hreq' => ?_⟩
        · obtain ⟨req', hreq', hrid⟩ := List.mem_map.mp hmem
          have hgone := hall req' hreq'
          rw [hrid, disconnectRoute_self] at hgone
          cases hgone
        · have hthere' := hall req' hreq'
          by_cases hrid : req'.rid = req.rid
          · rw [hrid]
            exact hthere
          · rwa [disconnectRoute_ne _ hrid] at hthere'
      · rintro ⟨⟨hnew, hnodup⟩, hthere, hall⟩
        refine ⟨hthere, fun t' hrun' => ih.mpr ⟨hnodup, fun req' hreq' => ?_⟩⟩
        obtain ⟨r, hr⟩ := Option.isSome_iff_exists.mp hthere
        rw [routerDisconnected_run hr] at hrun'
        injection hrun' with _ ht
        have hrid : req'.rid ≠ req.rid := fun h => hnew (h ▸ List.mem_map_of_mem hreq')
        rw [← ht, disconnectRoute_ne _ hrid]
        exact hall req' hreq'

end Disconnect

end MojoRs.Ipcz
