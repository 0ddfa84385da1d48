/-
MojoRs/Ipcz/BypassSteps.lean

The steps of a bridge bypass: edges that begin to decay, a block for the new
link state, a new outward link; and from them the three cases of a bypass, up
to the flushes at their end.

Two relations go through the steps.  `Advances`: an edge in decay stays so.
`Stalls`: a held lock stays held and the bridge of a given router as it was.

Main results: `bypassRemotePeers_ok`, `bypassFromLocalPeer_ok`,
`bypassFromLocalPeer_stalls`, `bypassLocalPeers_ok`.
-/
import MojoRs.Ipcz.LinkLocks
import MojoRs.Ipcz.RouterFlush

namespace MojoRs.Ipcz

open Function (update)
open Lib

namespace RouteTables

/-! ### Bridge routers and their edges -/

/-- The bridge edge of a router. -/
def bridgeOf (s : RouteTables) (rid : Nat) : Option Edge := (s.routers rid).bind (·.bridge)

/-- The outward edge of a router decays. -/
def OutwardDecays (s : RouteTables) (rid : Nat) : Prop :=
  ∃ router, s.routers rid = some router ∧ router.outward.isStable = false

/-- The bridge edge of a router decays. -/
def BridgeDecays (s : RouteTables) (rid : Nat) : Prop :=
  ∃ edge, s.bridgeOf rid = some edge ∧ edge.isStable = false

/-- The edges of both bridge routers decay. -/
def UnderWay (s : RouteTables) (rid second : Nat) : Prop :=
  ∀ r, r = rid ∨ r = second → s.OutwardDecays r ∧ s.BridgeDecays r

end RouteTables

open RouteTables

variable {info : NodeInfo} {s s' s₁ s₂ : RouteTables} {rid second : Nat}
  {first secondLink : Link}

/-! ### Decaying edges -/

theorem Edge.decayOr_cases (e : Edge) (msg : String) (out inc : Option Nat) :
    (∃ err, e.decayOr msg out inc = throw err) ∨
      ∃ e' : Edge, e'.isStable = false ∧ e.decayOr msg out inc = pure e' := by
  unfold decayOr
  cases hdecay : e.beginPrimaryLinkDecay with
  | none => exact .inl ⟨_, rfl⟩
  | some e₁ =>
      right
      have he₁ : e₁.isStable = false := by
        rw [beginPrimaryLinkDecay] at hdecay
        split at hdecay
        · cases hdecay
        · injection hdecay with hdecay
          rw [← hdecay]
          rfl
      refine ⟨_, ?_, rfl⟩
      cases out <;> cases inc <;>
        simpa [setLengthToDecayingLink, setLengthFromDecayingLink, isStable] using he₁

/-- Decaying an outward edge: nothing but this edge changes. -/
theorem decayOutward_cases (rid : Nat) (missing msg : String) (out inc : Option Nat)
    (s : RouteTables) :
    (∃ err, (decayOutward rid missing msg out inc).run s = .error err s) ∨
      ∃ r outward, s.routers rid = some r ∧ outward.isStable = false ∧
        (decayOutward rid missing msg out inc).run s = .ok ⟨⟩ (s.setRouter rid { r with outward }) := by
  unfold decayOutward
  rcases getRouter_cases rid missing s with ⟨err, hget⟩ | ⟨r, hr, hget⟩
  · exact .inl ⟨err, by rw [EStateM.run_bind, hget]⟩
  · rw [run_bind_of_ok hget]
    rcases r.outward.decayOr_cases msg out inc with ⟨err, hdecay⟩ | ⟨e', he', hdecay⟩
    · exact .inl ⟨err, by rw [hdecay]; rfl⟩
    · exact .inr ⟨r, e', hr, he', by rw [hdecay]; rfl⟩

/-- Decaying a bridge edge: nothing but this edge changes. -/
theorem decayBridge_cases (rid : Nat) (missing noBridge msg : String) (out inc : Option Nat)
    (s : RouteTables) :
    (∃ err, (decayBridge rid missing noBridge msg out inc).run s = .error err s) ∨
      ∃ r bridge, s.routers rid = some r ∧ bridge.isStable = false ∧
        (decayBridge rid missing noBridge msg out inc).run s =
          .ok ⟨⟩ (s.setRouter rid { r with bridge := some bridge }) := by
  unfold decayBridge
  rcases getRouter_cases rid missing s with ⟨err, hget⟩ | ⟨r, hr, hget⟩
  · exact .inl ⟨err, by rw [EStateM.run_bind, hget]⟩
  · rw [run_bind_of_ok hget]
    cases r.bridge with
    | none => exact .inl ⟨_, rfl⟩
    | some b =>
        dsimp only
        rcases b.decayOr_cases msg out inc with ⟨err, hdecay⟩ | ⟨e', he', hdecay⟩
        · exact .inl ⟨err, by rw [hdecay]; rfl⟩
        · exact .inr ⟨r, e', hr, he', by rw [hdecay]; rfl⟩

/-! ### What the steps of an attempt do -/

namespace RouteTables

/-- No edge that decays is stable again. -/
def Advances (s s' : RouteTables) : Prop :=
  ∀ r, (s.OutwardDecays r → s'.OutwardDecays r) ∧ (s.BridgeDecays r → s'.BridgeDecays r)

instance : Std.Refl Advances := ⟨fun _ _ => ⟨id, id⟩⟩

instance : IsTrans RouteTables Advances :=
  ⟨fun _ _ _ h h' r => ⟨(h' r).1 ∘ (h r).1, (h' r).2 ∘ (h r).2⟩⟩

/-- Side `side` still holds the lock at `k` if it did, and the bridge of
router `r` is as it was. -/
structure Stalls (k : StateKey) (side : LinkSide) (r : Nat) (s s' : RouteTables) : Prop where
  lock : s.lockedAt k side = true → s'.lockedAt k side = true
  bridge : s'.bridgeOf r = s.bridgeOf r

instance {k : StateKey} {side : LinkSide} {r : Nat} : Std.Refl (Stalls k side r) :=
  ⟨fun _ => ⟨id, rfl⟩⟩

instance {k : StateKey} {side : LinkSide} {r : Nat} : IsTrans RouteTables (Stalls k side r) :=
  ⟨fun _ _ _ h h' => ⟨h'.lock ∘ h.lock, h'.bridge.trans h.bridge⟩⟩

theorem advances_of_routers (h : s'.routers = s.routers) : s.Advances s' :=
  fun r => ⟨by simp [OutwardDecays, h], by simp [BridgeDecays, bridgeOf, h]⟩

theorem SameStatus.stalls {k : StateKey} {side : LinkSide} {r : Nat} (h : SameStatus s s') :
    Stalls k side r s s' :=
  ⟨by simp [lockedAt, h.status], by simp [bridgeOf, h.routers]⟩

/-- A router rewritten, its decaying edges decaying still. -/
theorem setRouter_advances {r : Router} (r' : Router) (hr : s.routers rid = some r)
    (hout : r.outward.isStable = false → r'.outward.isStable = false)
    (hbridge : ∀ b, r.bridge = some b → b.isStable = false →
      ∃ b', r'.bridge = some b' ∧ b'.isStable = false) :
    s.Advances (s.setRouter rid r') := by
  intro x
  by_cases hx : x = rid
  · subst hx
    constructor
    · rintro ⟨router, hrouter, hstable⟩
      rw [hr] at hrouter
      injection hrouter with hrouter
      subst hrouter
      exact ⟨r', by simp [setRouter], hout hstable⟩
    · rintro ⟨edge, hedge, hstable⟩
      rw [bridgeOf, hr] at hedge
      obtain ⟨b', hb', hstable'⟩ := hbridge edge hedge hstable
      exact ⟨b', by simp [bridgeOf, setRouter, hb'], hstable'⟩
  · simp [OutwardDecays, BridgeDecays, bridgeOf, setRouter, hx]

/-- A router rewritten, its bridge as it was. -/
theorem setRouter_stalls {k : StateKey} {side : LinkSide} {r : Nat} {router : Router}
    (router' : Router) (hr : s.routers rid = some router)
    (hbridge : rid = r → router'.bridge = router.bridge) :
    Stalls k side r s (s.setRouter rid router') := by
  refine ⟨id, ?_⟩
  by_cases hx : r = rid
  · subst hx
    simp [bridgeOf, setRouter, hr, hbridge rfl]
  · simp [bridgeOf, setRouter, hx]

end RouteTables

section Frames

variable {k : StateKey} {side : LinkSide} {r : Nat} (missing noBridge msg : String)
  (out inc : Option Nat)

theorem decayOutward_advances : Maintains Advances (decayOutward rid missing msg out inc) := by
  intro s
  rcases decayOutward_cases rid missing msg out inc s with ⟨err, h⟩ | ⟨r, outward, hr, hout, h⟩
  · rw [h]
    exact Std.Refl.refl s
  · rw [h]
    exact setRouter_advances _ hr (fun _ => hout) fun b hb hstable => ⟨b, hb, hstable⟩

theorem decayOutward_stalls : Maintains (Stalls k side r) (decayOutward rid missing msg out inc) := by
  intro s
  rcases decayOutward_cases rid missing msg out inc s with ⟨err, h⟩ | ⟨r, outward, hr, -, h⟩
  · rw [h]
    exact Std.Refl.refl s
  · rw [h]
    exact setRouter_stalls _ hr fun _ => rfl

theorem decayOutward_ok (h : (decayOutward rid missing msg out inc).run s = .ok ⟨⟩ s') :
    s'.OutwardDecays rid := by
  rcases decayOutward_cases rid missing msg out inc s with ⟨err, h'⟩ | ⟨r, outward, -, hout, h'⟩
  · rw [h] at h'
    exact absurd h' nofun
  · rw [h] at h'
    injection h' with _ hs
    exact ⟨{ r with outward }, by simp [hs, setRouter], hout⟩

theorem decayBridge_advances :
    Maintains Advances (decayBridge rid missing noBridge msg out inc) := by
  intro s
  rcases decayBridge_cases rid missing noBridge msg out inc s with
    ⟨err, h⟩ | ⟨r, bridge, hr, hbridge, h⟩
  · rw [h]
    exact Std.Refl.refl s
  · rw [h]
    exact setRouter_advances _ hr id fun _ _ _ => ⟨bridge, rfl, hbridge⟩

theorem decayBridge_stalls (hne : rid ≠ r) :
    Maintains (Stalls k side r) (decayBridge rid missing noBridge msg out inc) := by
  intro s
  rcases decayBridge_cases rid missing noBridge msg out inc s with
    ⟨err, h⟩ | ⟨router, bridge, hr, -, h⟩
  · rw [h]
    exact Std.Refl.refl s
  · rw [h]
    exact setRouter_stalls _ hr fun h => absurd h hne

theorem decayBridge_ok (h : (decayBridge rid missing noBridge msg out inc).run s = .ok ⟨⟩ s') :
    s'.BridgeDecays rid := by
  rcases decayBridge_cases rid missing noBridge msg out inc s with
    ⟨err, h'⟩ | ⟨r, bridge, -, hbridge, h'⟩
  · rw [h] at h'
    exact absurd h' nofun
  · rw [h] at h'
    injection h' with _ hs
    exact ⟨bridge, by simp [hs, bridgeOf, setRouter], hbridge⟩

end Frames

section SetOutwardLink

variable {k : StateKey} {side : LinkSide} {r : Nat}

theorem Edge.setPrimaryLink_isStable (e : Edge) (l : Link) :
    (e.setPrimaryLink l).isStable = e.isStable := by
  unfold setPrimaryLink
  split
  · rename_i h
    simp [isStable, h]
  · rfl

theorem getRouter_bind_keeps {R : RouteTables → RouteTables → Prop} [Std.Refl R] {α : Type}
    {missing : String} {f : Router → RouteM α} (h : ∀ s router, s.routers rid = some router →
      R s (endState ((f router).run s))) :
    Maintains R (getRouter rid missing >>= f) := by
  intro s
  rcases getRouter_cases rid missing s with ⟨err, hget⟩ | ⟨router, hr, hget⟩
  · rw [EStateM.run_bind, hget]
    exact Std.Refl.refl s
  · rw [run_bind_of_ok hget]
    exact h s router hr

theorem setOutwardLink_keeps {R : RouteTables → RouteTables → Prop} [Std.Refl R]
    [IsTrans RouteTables R] (l : Link)
    (hmark : ∀ k s s', Updates k ((s.statusAt k).setSideStable l.side) s s' → R s s')
    (hset : ∀ s router, s.routers rid = some router →
      R s (s.setRouter rid { router with outward := router.outward.setPrimaryLink l })) :
    Maintains R (setOutwardLink info rid l) := by
  have hput : Maintains R (do
      let router ← getRouter rid "set outward link for unknown router"
      if !router.disconnected then
        putRouter rid { router with outward := router.outward.setPrimaryLink l }) := by
    apply getRouter_bind_keeps
    intro s router hr
    split_ifs
    · exact hset s router hr
    · exact Std.Refl.refl s
  unfold setOutwardLink
  apply getRouter_bind_keeps
  intro s router _
  split_ifs
  · exact ((markSideStableOnLink_keeps l hmark).bind fun _ => hput) s
  · exact hput s

theorem setOutwardLink_advances (l : Link) : Maintains Advances (setOutwardLink info rid l) := by
  apply setOutwardLink_keeps
  · exact fun _ _ _ h => advances_of_routers h.routers
  · intro s router hr
    apply setRouter_advances _ hr
    · exact fun h => by rwa [Edge.setPrimaryLink_isStable]
    · exact fun b hb hstable => ⟨b, hb, hstable⟩

theorem setOutwardLink_stalls (l : Link) :
    Maintains (Stalls k side r) (setOutwardLink info rid l) := by
  apply setOutwardLink_keeps
  · intro k' s s' h
    refine ⟨fun hlock => ?_, by simp [bridgeOf, h.routers]⟩
    rw [h.locked]
    split_ifs with hk
    · rwa [hk] at hlock
    · exact hlock
  · exact fun s router hr => setRouter_stalls _ hr fun _ => rfl

end SetOutwardLink

/-! ### Blocks for link states -/

/-- The memory of link `linkId` has a free block for a link state. -/
def RouteTables.HasBlock (info : NodeInfo) (s : RouteTables) (linkId : Nat) : Prop :=
  ∃ reg, registryFor info linkId = .ok reg ∧
    ((s.memories linkId).tryAllocateFragment reg routerLinkStateSize).isSome

namespace SharedMemory

variable {m m' : SharedMemory}

theorem popBlock_isSome_congr (h : m'.free = m.free) (bufferId : UInt64)
    (region blockSize numBlocks : Nat) :
    (m'.popBlock bufferId region blockSize numBlocks).isSome =
      (m.popBlock bufferId region blockSize numBlocks).isSome := by
  unfold popBlock
  rw [h]
  split_ifs
  · rfl
  · cases m.free (bufferId, region) <;> rfl

theorem popExtra_isSome_congr (h : m'.free = m.free) (reg : BufferRegistry) (poolSize : Nat)
    (ids : List UInt64) :
    (m'.popExtra reg poolSize ids).isSome = (m.popExtra reg poolSize ids).isSome := by
  induction ids with
  | nil => rfl
  | cons id ids ih =>
      unfold popExtra
      cases reg.extra id with
      | none => exact ih
      | some e =>
          dsimp only
          split_ifs
          · have hpop := popBlock_isSome_congr h id 0 poolSize (e.size / poolSize)
            cases hm : m.popBlock id 0 poolSize (e.size / poolSize) <;>
              cases hm' : m'.popBlock id 0 poolSize (e.size / poolSize) <;>
              simp_all
          · exact ih

theorem tryAllocateFragment_isSome_congr (h : m'.free = m.free) (reg : BufferRegistry)
    (size : Nat) :
    (m'.tryAllocateFragment reg size).isSome = (m.tryAllocateFragment reg size).isSome := by
  unfold tryAllocateFragment
  split_ifs
  · rfl
  · cases reg.poolSizes.find? (blockSizeForFragmentSize size ≤ ·) with
    | none => rfl
    | some poolSize =>
        dsimp only
        have hextra := popExtra_isSome_congr h reg poolSize reg.extraOrder.reverse
        cases hm : m.popExtra reg poolSize reg.extraOrder.reverse <;>
          cases hm' : m'.popExtra reg poolSize reg.extraOrder.reverse
        · dsimp only
          cases primaryBlockRegions.find? (·.1 == poolSize) with
          | none => rfl
          | some region => exact popBlock_isSome_congr h _ _ _ _
        · simp [hm, hm'] at hextra
        · simp [hm, hm'] at hextra
        · rfl

/-- An empty memory has no block of any size. -/
theorem tryAllocateFragment_none (h : ∀ key, m.free key = []) (reg : BufferRegistry) (size : Nat) :
    m.tryAllocateFragment reg size = none := by
  have hpop : ∀ id region blockSize numBlocks,
      m.popBlock id region blockSize numBlocks = none := by
    intro id region blockSize numBlocks
    rw [popBlock, h]
    split_ifs <;> rfl
  have hextra : ∀ poolSize ids, m.popExtra reg poolSize ids = none := by
    intro poolSize ids
    induction ids with
    | nil => rfl
    | cons id ids ih =>
        unfold popExtra
        cases reg.extra id with
        | none => exact ih
        | some e =>
            dsimp only
            rw [hpop]
            split_ifs <;> exact ih
  unfold tryAllocateFragment
  split_ifs
  · rfl
  · cases reg.poolSizes.find? (blockSizeForFragmentSize size ≤ ·) with
    | none => rfl
    | some poolSize =>
        dsimp only
        rw [hextra]
        dsimp only
        split
        · exact hpop _ _ _ _
        · rfl

end SharedMemory

theorem hasBlock_congr (h : ∀ l, (s'.memories l).free = (s.memories l).free) (linkId : Nat) :
    s'.HasBlock info linkId ↔ s.HasBlock info linkId := by
  simp only [HasBlock, SharedMemory.tryAllocateFragment_isSome_congr (h linkId)]

/-- An allocation fails, finds no block, or changes the memory of its link
only. -/
theorem tryAllocateLinkState_cases (info : NodeInfo) (linkId : Nat) (s : RouteTables) :
    (∃ err, (tryAllocateLinkState info linkId).run s = .error err s) ∨
    ((tryAllocateLinkState info linkId).run s = .ok none s ∧ ¬s.HasBlock info linkId) ∨
    (∃ block m, (tryAllocateLinkState info linkId).run s = .ok (some block) (s.setMemory linkId m) ∧
      s.HasBlock info linkId) := by
  unfold tryAllocateLinkState memoryFor
  cases hreg : registryFor info linkId with
  | error e => exact .inl ⟨e, rfl⟩
  | ok reg =>
      right
      dsimp only
      rw [pure_bind, run_get_bind]
      cases hfrag : (s.memories linkId).tryAllocateFragment reg routerLinkStateSize with
      | none =>
          left
          simp only [SharedMemory.tryAllocateLinkState, hfrag]
          refine ⟨rfl, ?_⟩
          rintro ⟨reg', hreg', hsome⟩
          rw [hreg] at hreg'
          injection hreg' with hreg'
          subst hreg'
          simp [hfrag] at hsome
      | some block =>
          right
          simp only [SharedMemory.tryAllocateLinkState, hfrag]
          exact ⟨_, _, rfl, reg, hreg, by simp [hfrag]⟩

/-! ### Without flushes -/

/-- Flushing left out. -/
def noFlush (_ : Nat) (_ : Bool) : RouteM Unit := pure ()

theorem localBypass_eq_some {p o : Nat} :
    s.localBypass rid = some (p, o) ↔ ∃ r b, s.routers rid = some r ∧ r.bridge = some b ∧
      b.isStable = true ∧ r.outward.getLocalPeer = some p ∧ b.getLocalPeer = some o := by
  simp only [localBypass, Option.bind_eq_bind, Option.bind_eq_some_iff, guard]
  constructor
  · rintro ⟨r, hr, b, hb, u, hguard, p', hp, o', ho, hpair⟩
    split_ifs at hguard with hstable
    injection hpair with hpair
    injection hpair with hp' ho'
    exact ⟨r, b, hr, hb, hstable, hp' ▸ hp, ho' ▸ ho⟩
  · rintro ⟨r, b, hr, hb, hstable, hp, ho⟩
    exact ⟨r, hr, b, hb, (), by simp [hstable], p, hp, o, ho, rfl⟩

theorem bridgePair_eq_some :
    s.bridgePair rid = some (second, first, secondLink) ↔ ∃ r b r', s.routers rid = some r ∧
      r.bridge = some b ∧ b.isStable = true ∧ b.getLocalPeer = some second ∧
      r.outward.primary = some first ∧ s.routers second = some r' ∧
      r'.outward.primary = some secondLink := by
  simp only [bridgePair, Option.bind_eq_bind, Option.bind_eq_some_iff, guard]
  constructor
  · rintro ⟨r, hr, b, hb, u, hguard, o, ho, l, hl, r', hr', l', hl', hpair⟩
    split_ifs at hguard with hstable
    injection hpair with hpair
    injection hpair with ho' hpair
    injection hpair with hl₁ hl₂
    subst ho' hl₁ hl₂
    exact ⟨r, b, r', hr, hb, hstable, ho, hl, hr', hl'⟩
  · rintro ⟨r, b, r', hr, hb, hstable, ho, hl, hr', hl'⟩
    exact ⟨r, hr, b, hb, (), by simp [hstable], second, ho, first, hl, r', hr', secondLink, hl',
      rfl⟩

section NoFlush

variable {k : StateKey} {side : LinkSide} {r a o p len : Nat} {linkState : FragmentDescriptor}

theorem decayFiveEdges_ok (h : (decayFiveEdges a p o len).run s = .ok ⟨⟩ s') :
    (s'.OutwardDecays a ∧ s'.BridgeDecays a) ∧ (s'.OutwardDecays o ∧ s'.BridgeDecays o) := by
  obtain ⟨⟨⟩, s₁, -, h₁⟩ := bind_eq_ok.mp h
  obtain ⟨⟨⟩, s₂, hother, h₂⟩ := bind_eq_ok.mp h₁
  obtain ⟨⟨⟩, s₃, hbridge, h₃⟩ := bind_eq_ok.mp h₂
  obtain ⟨⟨⟩, s₄, hthis, hotherBridge⟩ := bind_eq_ok.mp h₃
  -- each edge decays after its own step and to the end
  have ho := decayOutward_ok _ _ _ _ hother
  have hb := decayBridge_ok _ _ _ _ _ hbridge
  have ht := decayOutward_ok _ _ _ _ hthis
  have hob := decayBridge_ok _ _ _ _ _ hotherBridge
  have a₂ : s₂.Advances s₃ := (decayBridge_advances _ _ _ _ _).ok hbridge
  have a₃ : s₃.Advances s₄ := (decayOutward_advances _ _ _ _).ok hthis
  have a₄ : s₄.Advances s' := (decayBridge_advances _ _ _ _ _).ok hotherBridge
  exact ⟨⟨(a₄ a).1 ht, (a₄ a).2 ((a₃ a).2 hb)⟩, ⟨(a₄ o).1 ((a₃ o).1 ((a₂ o).1 ho)), hob⟩⟩

theorem decayFiveEdges_stalls (ha : a ≠ r) (ho : o ≠ r) :
    Maintains (Stalls k side r) (decayFiveEdges a p o len) := by
  unfold decayFiveEdges
  refine Maintains.bind (decayOutward_stalls _ _ _ _) fun _ => ?_
  refine Maintains.bind (decayOutward_stalls _ _ _ _) fun _ => ?_
  refine Maintains.bind (decayBridge_stalls _ _ _ _ _ ha) fun _ => ?_
  exact Maintains.bind (decayOutward_stalls _ _ _ _) fun _ => decayBridge_stalls _ _ _ _ _ ho

theorem RouteTables.SameStatus.advances (h : SameStatus s s') : s.Advances s' :=
  advances_of_routers h.routers

/-- The rest of a bypass from a local peer, once the edges decay. -/
theorem adoptBypass_keeps {R : RouteTables → RouteTables → Prop} [Std.Refl R]
    [IsTrans RouteTables R] (hsame : ∀ s s', SameStatus s s' → R s s')
    (hset : ∀ l, Maintains R (setOutwardLink info p l)) (linkId sublink bypassSublink len : Nat) :
    Maintains R (do
      sendLinkMessageOn info linkId (.bypassPeerWithLink sublink bypassSublink linkState len) []
      setOutwardLink info p (.remote linkId bypassSublink .central .a (some linkState))
      insertOwner linkId bypassSublink p
      noFlush a false
      noFlush o false
      noFlush p false) := by
  refine Maintains.bind ((sendLinkMessageOn_sameStatus _ _ _).mono hsame) fun _ => ?_
  refine Maintains.bind (hset _) fun _ => ?_
  refine Maintains.bind ((insertOwner_sameStatus _ _ _).mono hsame) fun _ => ?_
  exact fun s => Std.Refl.refl s

theorem bypassRemoteLink_keeps {R : RouteTables → RouteTables → Prop} [Std.Refl R] :
    Maintains R (bypassRemoteLink o linkState) := by
  unfold bypassRemoteLink
  apply getRouter_bind_keeps
  intro s router _
  split
  · exact Std.Refl.refl s
  · split_ifs <;> exact Std.Refl.refl s

theorem outboundLengthOf_keeps {R : RouteTables → RouteTables → Prop} [Std.Refl R] :
    Maintains R (outboundLengthOf p) := fun s => Std.Refl.refl s

/-- A bypass from a local peer that has both peers puts both bridge routers
into decay. -/
theorem startBridgeBypassFromLocalPeer_ok (hpeers : s.localBypass a = some (p, o))
    (h : (startBridgeBypassFromLocalPeer info noFlush a linkState).run s = .ok ⟨⟩ s') :
    (s'.OutwardDecays a ∧ s'.BridgeDecays a) ∧ (s'.OutwardDecays o ∧ s'.BridgeDecays o) := by
  unfold startBridgeBypassFromLocalPeer at h
  rw [run_get_bind, hpeers] at h
  obtain ⟨remoteLink, s₁, -, h₁⟩ := bind_eq_ok.mp h
  obtain ⟨len, s₂, -, h₂⟩ := bind_eq_ok.mp h₁
  obtain ⟨bypassSublink, s₃, -, h₃⟩ := bind_eq_ok.mp h₂
  obtain ⟨⟨⟩, s₄, hdecay, h₄⟩ := bind_eq_ok.mp h₃
  obtain ⟨⟨ha, hba⟩, ho, hbo⟩ := decayFiveEdges_ok hdecay
  have hadv : s₄.Advances s' :=
    (adoptBypass_keeps (fun _ _ h => h.advances) (fun l => setOutwardLink_advances l) _ _ _ _).ok h₄
  exact ⟨⟨(hadv a).1 ha, (hadv a).2 hba⟩, (hadv o).1 ho, (hadv o).2 hbo⟩

/-- A bypass from a local peer that has no way back to router `r` leaves the
locks and the bridge of `r` as they are. -/
theorem startBridgeBypassFromLocalPeer_stalls (ha : a ≠ r)
    (hpeers : ∀ p, s.localBypass a ≠ some (p, r)) :
    Stalls k side r s
      (endState ((startBridgeBypassFromLocalPeer info noFlush a linkState).run s)) := by
  unfold startBridgeBypassFromLocalPeer
  rw [run_get_bind]
  rcases hp : s.localBypass a with - | ⟨p, o⟩
  · exact Std.Refl.refl s
  · have ho : o ≠ r := by
      rintro rfl
      exact hpeers p hp
    refine Maintains.bind bypassRemoteLink_keeps (fun remoteLink => ?_) s
    refine Maintains.bind outboundLengthOf_keeps fun len => ?_
    refine Maintains.bind ((allocateSublinkIds_sameStatus _ _).mono fun _ _ h => h.stalls)
      fun bypassSublink => ?_
    refine Maintains.bind (decayFiveEdges_stalls ha ho) fun _ => ?_
    exact adoptBypass_keeps (fun _ _ h => h.stalls) (fun l => setOutwardLink_stalls l) _ _ _ _

end NoFlush

/-! ### The three cases -/

/-- One round of decaying: a router that has a bridge has both edges in
decay. -/
theorem decayBothEdges_ok (h : (decayBothEdges rid).run s = .ok ⟨⟩ s') :
    s.Advances s' ∧ s'.lockedAt = s.lockedAt ∧
      (∀ x, (s'.bridgeOf x).isSome = (s.bridgeOf x).isSome) ∧
      ((s.bridgeOf rid).isSome → s'.OutwardDecays rid ∧ s'.BridgeDecays rid) := by
  unfold decayBothEdges at h
  rw [run_get_bind] at h
  cases hr : s.routers rid with
  -- the router is gone: nothing to decay
  | none =>
      rw [hr] at h
      obtain ⟨-, rfl⟩ := pure_eq_ok.mp h
      exact ⟨Std.Refl.refl _, rfl, fun _ => rfl, by simp [bridgeOf, hr]⟩
  | some router =>
      rw [hr] at h
      dsimp only at h
      -- an edge that decays already ends the call with an error
      rcases router.outward.decayOr_cases "failed to decay outward edge" none none with
        ⟨err, hout⟩ | ⟨outward, hstable, hout⟩
      · rw [hout] at h
        injection h
      rw [hout, pure_bind] at h
      cases hb : router.bridge with
      -- no bridge: only the outward edge decays
      | none =>
          have hs : s' = s.setRouter rid { router with outward } := by
            rw [hb] at h
            injection h with _ hs
            rw [hb]
            exact hs.symm
          subst hs
          refine ⟨setRouter_advances _ hr (fun _ => hstable) ?_, rfl, fun x => ?_, ?_⟩
          · exact fun b hb' hst => ⟨b, hb', hst⟩
          · by_cases hxr : x = rid
            · simp [bridgeOf, setRouter, hxr, hr]
            · simp [bridgeOf, setRouter, hxr]
          · simp [bridgeOf, hr, hb]
      -- a bridge: both edges decay, the outward one first
      | some b =>
          rcases b.decayOr_cases "failed to decay bridge edge" none none with
            ⟨err, hbridge⟩ | ⟨bridge, hbstable, hbridge⟩
          · rw [hb] at h
            dsimp only at h
            rw [hbridge] at h
            injection h
          have hs : s' = (s.setRouter rid { router with outward }).setRouter rid
              { router with outward, bridge := some bridge } := by
            rw [hb] at h
            dsimp only at h
            rw [hbridge] at h
            injection h with _ hs
            rw [hb]
            exact hs.symm
          subst hs
          refine ⟨?_, rfl, fun x => ?_, fun _ => ⟨?_, ?_⟩⟩
          · have h₁ : s.Advances (s.setRouter rid { router with outward }) :=
              setRouter_advances _ hr (fun _ => hstable) fun b hb' hst => ⟨b, hb', hst⟩
            have hr₁ : (s.setRouter rid { router with outward }).routers rid =
                some { router with outward } := by simp [setRouter]
            exact IsTrans.trans _ _ _ h₁
              (setRouter_advances _ hr₁ id fun _ _ _ => ⟨bridge, rfl, hbstable⟩)
          · by_cases hxr : x = rid
            · simp [bridgeOf, setRouter, hxr, hr, hb]
            · simp [bridgeOf, setRouter, hxr]
          · exact ⟨{ router with outward, bridge := some bridge }, by simp [setRouter], hstable⟩
          · exact ⟨bridge, by simp [bridgeOf, setRouter], hbstable⟩

theorem newLocalPair_advances (kind : LinkKind) (side : LinkSide) (p q : Nat) (stable : Bool) :
    Maintains Advances (newLocalPair kind side p q stable) :=
  fun _ => advances_of_routers rfl

theorem setPrimaryOutward_advances (l : Link) : Maintains Advances (setPrimaryOutward rid l) := by
  unfold setPrimaryOutward
  apply getRouter_bind_keeps
  intro s router hr
  apply setRouter_advances _ hr
  · exact fun h => by rwa [Edge.setPrimaryLink_isStable]
  · exact fun b hb hstable => ⟨b, hb, hstable⟩

theorem decaySixEdges_ok {p q m n : Nat}
    (h : (decaySixEdges rid second p q m n).run s = .ok ⟨⟩ s') : s'.UnderWay rid second := by
  obtain ⟨⟨⟩, s₁, -, h₁⟩ := bind_eq_ok.mp h
  obtain ⟨⟨⟩, s₂, -, h₂⟩ := bind_eq_ok.mp h₁
  obtain ⟨⟨⟩, s₃, hthis, h₃⟩ := bind_eq_ok.mp h₂
  obtain ⟨⟨⟩, s₄, hother, h₄⟩ := bind_eq_ok.mp h₃
  obtain ⟨⟨⟩, s₅, hbridge, hotherBridge⟩ := bind_eq_ok.mp h₄
  have ht := decayOutward_ok _ _ _ _ hthis
  have ho := decayOutward_ok _ _ _ _ hother
  have hb := decayBridge_ok _ _ _ _ _ hbridge
  have hob := decayBridge_ok _ _ _ _ _ hotherBridge
  have a₃ : s₃.Advances s₄ := (decayOutward_advances _ _ _ _).ok hother
  have a₄ : s₄.Advances s₅ := (decayBridge_advances _ _ _ _ _).ok hbridge
  have a₅ : s₅.Advances s' := (decayBridge_advances _ _ _ _ _).ok hotherBridge
  rintro r (rfl | rfl)
  · exact ⟨(a₅ r).1 ((a₄ r).1 ((a₃ r).1 ht)), (a₅ r).2 hb⟩
  · exact ⟨(a₅ r).1 ((a₄ r).1 ho), hob⟩

theorem RouteTables.UnderWay.advance (h : s.UnderWay rid second) (hadv : s.Advances s') :
    s'.UnderWay rid second :=
  fun r hr => ⟨(hadv r).1 (h r hr).1, (hadv r).2 (h r hr).2⟩

theorem bypassLocalPeers_ok {p q : Nat}
    (h : (bypassLocalPeers noFlush rid second p q).run s = .ok ⟨⟩ s') :
    s'.UnderWay rid second := by
  obtain ⟨m, s₁, -, h₁⟩ := bind_eq_ok.mp h
  obtain ⟨n, s₂, -, h₂⟩ := bind_eq_ok.mp h₁
  obtain ⟨⟨⟩, s₃, hdecay, h₃⟩ := bind_eq_ok.mp h₂
  obtain ⟨⟨linkA, linkB⟩, s₄, hnew, h₄⟩ := bind_eq_ok.mp h₃
  obtain ⟨⟨⟩, s₅, hfirst, h₅⟩ := bind_eq_ok.mp h₄
  obtain ⟨⟨⟩, s₆, hsecond, h₆⟩ := bind_eq_ok.mp h₅
  obtain rfl : s₆ = s' := by
    injection h₆
  have hunder : s₃.UnderWay rid second := decaySixEdges_ok hdecay
  have a₄ : s₃.Advances s₄ := (newLocalPair_advances _ _ _ _ _).ok hnew
  have a₅ : s₄.Advances s₅ := (setPrimaryOutward_advances linkA).ok hfirst
  have a₆ : s₅.Advances s₆ := (setPrimaryOutward_advances linkB).ok hsecond
  exact ((hunder.advance a₄).advance a₅).advance a₆

/-- The first case: both rounds decay what there is. -/
theorem bypassRemotePeers_ok
    (h : (bypassRemotePeers info rid second first secondLink).run s = .ok ⟨⟩ s') :
    s'.lockedAt = s.lockedAt ∧ (s'.bridgeOf second).isSome = (s.bridgeOf second).isSome ∧
      ((s.bridgeOf rid).isSome → (s.bridgeOf second).isSome → s'.UnderWay rid second) := by
  obtain ⟨⟨⟩, s₁, hloop, h₁⟩ := bind_eq_ok.mp h
  obtain ⟨⟨⟩, s₂, hfirst, h₂⟩ := bind_eq_ok.mp hloop
  obtain ⟨⟨⟩, s₃, hsecond, h₃⟩ := bind_eq_ok.mp h₂
  obtain ⟨-, rfl⟩ := pure_eq_ok.mp h₃
  obtain ⟨target, s₄, htarget, hsend⟩ := bind_eq_ok.mp h₁
  have htail : SameStatus s₃ s' := by
    have h₃₄ : SameStatus s₃ s₄ := (remoteNameFor_keeps _).ok htarget
    exact IsTrans.trans _ _ _ h₃₄ ((sendLinkMessageOn_sameStatus _ _ _).ok hsend)
  obtain ⟨adv₁, lock₁, bridges₁, decay₁⟩ := decayBothEdges_ok hfirst
  obtain ⟨adv₂, lock₂, bridges₂, decay₂⟩ := decayBothEdges_ok hsecond
  refine ⟨?_, ?_, fun hrid hother => ?_⟩
  · rw [← lock₁, ← lock₂]
    funext k
    simp only [lockedAt, htail.status]
  · rw [← bridges₁, ← bridges₂, bridgeOf, bridgeOf, htail.routers]
  · refine UnderWay.advance ?_ htail.advances
    rintro r (rfl | rfl)
    · exact ⟨(adv₂ r).1 (decay₁ hrid).1, (adv₂ r).2 (decay₁ hrid).2⟩
    · exact decay₂ (by rwa [bridges₁])

/-- The second case with a block to be had. -/
theorem bypassFromLocalPeer_ok {a p o linkId : Nat} (hblock : s.HasBlock info linkId)
    (hpeers : s.localBypass a = some (p, o))
    (h : (bypassFromLocalPeer info noFlush a linkId).run s = .ok ⟨⟩ s') :
    (s'.OutwardDecays a ∧ s'.BridgeDecays a) ∧ (s'.OutwardDecays o ∧ s'.BridgeDecays o) := by
  obtain ⟨block, s₁, halloc, h₁⟩ := bind_eq_ok.mp h
  rcases tryAllocateLinkState_cases info linkId s with
    ⟨err, h'⟩ | ⟨-, hnone⟩ | ⟨desc, m, h', -⟩
  · rw [halloc] at h'
    exact absurd h' nofun
  · exact absurd hblock hnone
  · rw [halloc] at h'
    injection h' with hb hs
    subst hb hs
    obtain ⟨⟨⟩, s₂, hadd, hstart⟩ := bind_eq_ok.mp h₁
    have hsame : SameStatus _ s₂ := (addLinkStateRef_sameStatus _ _).ok hadd
    refine startBridgeBypassFromLocalPeer_ok (p := p) ?_ hstart
    rw [← hpeers, localBypass, localBypass, hsame.routers]
    rfl

/-- Without a block nothing but the request for more capacity happens. -/
theorem bypassFromLocalPeer_noBlock {a linkId : Nat} (hblock : ¬s.HasBlock info linkId)
    (h : (bypassFromLocalPeer info noFlush a linkId).run s = .ok ⟨⟩ s') : SameStatus s s' := by
  obtain ⟨block, s₁, halloc, h₁⟩ := bind_eq_ok.mp h
  rcases tryAllocateLinkState_cases info linkId s with
    ⟨err, h'⟩ | ⟨h', -⟩ | ⟨desc, m, h', hsome⟩
  · rw [halloc] at h'
    exact absurd h' nofun
  · rw [halloc] at h'
    injection h' with hb hs
    subst hb hs
    exact (requestBlockCapacity_sameStatus _ _).ok h₁
  · exact absurd hsome hblock

/-- With a block, but without a way back to router `r`, the locks of local
links and the bridge of `r` stay. -/
theorem bypassFromLocalPeer_stalls {a r n linkId : Nat} {side : LinkSide} (ha : a ≠ r)
    (hpeers : ∀ p, s.localBypass a ≠ some (p, r))
    (h : (bypassFromLocalPeer info noFlush a linkId).run s = .ok ⟨⟩ s') :
    Stalls (.cell n) side r s s' := by
  obtain ⟨block, s₁, halloc, h₁⟩ := bind_eq_ok.mp h
  rcases tryAllocateLinkState_cases info linkId s with
    ⟨err, h'⟩ | ⟨h', -⟩ | ⟨desc, m, h', -⟩
  · rw [halloc] at h'
    exact absurd h' nofun
  · rw [halloc] at h'
    injection h' with hb hs
    subst hb hs
    have hsame : SameStatus s₁ s' := (requestBlockCapacity_sameStatus _ _).ok h₁
    exact hsame.stalls
  · rw [halloc] at h'
    injection h' with hb hs
    subst hb hs
    obtain ⟨⟨⟩, s₂, hadd, hstart⟩ := bind_eq_ok.mp h₁
    have hsame : SameStatus _ s₂ := (addLinkStateRef_sameStatus _ _).ok hadd
    have hset : Stalls (.cell n) side r s (s.setMemory linkId m) := ⟨id, rfl⟩
    have hrouters : s₂.routers = s.routers := hsame.routers
    have hback : ∀ p, s₂.localBypass a ≠ some (p, r) := fun p => by
      rw [localBypass, hrouters]
      exact hpeers p
    have hstalls : Stalls (.cell n) side r s₂
        (endState ((startBridgeBypassFromLocalPeer info noFlush a desc).run s₂)) :=
      startBridgeBypassFromLocalPeer_stalls ha hback
    rw [hstart] at hstalls
    exact IsTrans.trans _ _ _ (IsTrans.trans _ _ _ hset hsame.stalls) hstalls

end MojoRs.Ipcz
