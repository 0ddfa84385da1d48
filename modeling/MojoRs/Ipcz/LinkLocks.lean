/-
MojoRs/Ipcz/LinkLocks.lean

The status words of all links of a node, wherever they lie: in the memory of
a node link, or in a cell that the two ends of a local link share.

A status operation is described by `Updates k st`: the word at `k` becomes
`st`, and neither another word nor a router nor a free list changes.  Taking
and dropping the lock of a link are such updates of the word at the link's
`stateKey`.

Main results: `tryLockLinkForBypass_ok`, `unlockLinkForBypass_ok`.
-/
import MojoRs.Ipcz.Node

namespace MojoRs.Ipcz

open Function (update)
open Lib

/-! ### The status words of a node -/

/-- Where a status word lies. -/
inductive StateKey
  | shared (linkId : Nat) (key : UInt64 × UInt32)
  | cell (n : Nat)
  deriving DecidableEq

/-- Where the status word of a link lies, if it has one. -/
def Link.stateKey (l : Link) : Option StateKey :=
  match l.linkState, l.localState with
  | some desc, _ => some (.shared l.linkId desc.key)
  | none, some n => some (.cell n)
  | none, none => none

/-- A link has the state that its kind of link has: in the memory of the node
link, or in a cell. -/
structure Link.WellFormed (l : Link) : Prop where
  remote : l.localPeer = none → l.localState = none
  «local» : l.localPeer ≠ none → l.linkState = none

theorem Link.remote_wellFormed (linkId sublink : Nat) (kind : LinkKind) (side : LinkSide)
    (st : Option FragmentDescriptor) : (Link.remote linkId sublink kind side st).WellFormed :=
  ⟨fun _ => rfl, fun h => absurd rfl h⟩

theorem Link.localPair_wellFormed (kind : LinkKind) (side : LinkSide) (a b cell : Nat) :
    (Link.localPair kind side a b cell).1.WellFormed ∧
      (Link.localPair kind side a b cell).2.WellFormed :=
  ⟨⟨nofun, fun _ => rfl⟩, ⟨nofun, fun _ => rfl⟩⟩

namespace RouteTables

/-- The status of a link, shared or local. -/
def statusAt (s : RouteTables) : StateKey → LinkStatus
  | .shared linkId key => ((s.memories linkId).states key).status
  | .cell n => (s.localStates n).status

/-- The lock bits at `k`. -/
def lockedAt (s : RouteTables) (k : StateKey) : LinkSide → Bool := (s.statusAt k).locked

/-- What a status operation changes: the word at `k` only. -/
structure Updates (k : StateKey) (st : LinkStatus) (s s' : RouteTables) : Prop where
  status : ∀ k', s'.statusAt k' = if k' = k then st else s.statusAt k'
  routers : s'.routers = s.routers
  free : ∀ l, (s'.memories l).free = (s.memories l).free

/-- The status words, the routers and the free lists are as before. -/
structure SameStatus (s s' : RouteTables) : Prop where
  status : s'.statusAt = s.statusAt
  routers : s'.routers = s.routers
  free : ∀ l, (s'.memories l).free = (s.memories l).free

instance : Std.Refl SameStatus := ⟨fun _ => ⟨rfl, rfl, fun _ => rfl⟩⟩

instance : IsTrans RouteTables SameStatus :=
  ⟨fun _ _ _ h h' => ⟨h'.status.trans h.status, h'.routers.trans h.routers,
    fun l => (h'.free l).trans (h.free l)⟩⟩

variable {k : StateKey} {st : LinkStatus} {s s' s'' : RouteTables}

theorem Updates.trans (h : Updates k st s s') (h' : SameStatus s' s'') : Updates k st s s'' :=
  ⟨fun k' => by rw [h'.status, h.status], h'.routers.trans h.routers,
    fun l => (h'.free l).trans (h.free l)⟩

theorem Updates.locked (h : Updates k st s s') (k' : StateKey) :
    s'.lockedAt k' = if k' = k then st.locked else s.lockedAt k' := by
  rw [lockedAt, h.status]
  split_ifs <;> rfl

/-- Writing a record of a shared link state. -/
theorem setMemory_updates {linkId : Nat} {desc : FragmentDescriptor} {r : LinkState}
    (h : r.status = st) :
    Updates (.shared linkId desc.key) st s
      (s.setMemory linkId ((s.memories linkId).setState desc r)) := by
  refine ⟨?_, rfl, ?_⟩
  · rintro (⟨linkId', key⟩ | n)
    · by_cases hl : linkId' = linkId
      · subst hl
        by_cases hk : key = desc.key
        · subst hk
          simp [statusAt, setMemory, SharedMemory.setState, h]
        · simp [statusAt, setMemory, SharedMemory.setState, hk]
      · simp [statusAt, setMemory, hl]
    · rfl
  · intro l
    by_cases hl : l = linkId
    · subst hl
      simp [setMemory, SharedMemory.setState]
    · simp [setMemory, hl]

/-- Writing the state of a local link. -/
theorem setLocalState_updates {n : Nat} {r : LocalLinkState} (h : r.status = st) :
    Updates (.cell n) st s (s.setLocalState n r) := by
  refine ⟨?_, rfl, fun _ => rfl⟩
  rintro (⟨linkId, key⟩ | m)
  · rfl
  · by_cases hm : m = n
    · subst hm
      simp [statusAt, setLocalState, h]
    · simp [statusAt, setLocalState, hm]

/-- An update that writes what was there. -/
theorem Updates.same (h : Updates k st s s') (hst : st = s.statusAt k) : SameStatus s s' := by
  refine ⟨?_, h.routers, h.free⟩
  funext k'
  rw [h.status]
  split_ifs with hk
  · rw [hk, hst]
  · rfl

end RouteTables

open RouteTables

variable {info : NodeInfo} {s s' : RouteTables}

/-! ### Operations on status words -/

/-- Reading the registry of a link changes nothing. -/
theorem memoryFor_ok {linkId : Nat} {reg : BufferRegistry}
    (h : (memoryFor info linkId).run s = .ok reg s') : s' = s ∧ registryFor info linkId = .ok reg := by
  rw [memoryFor] at h
  cases hreg : registryFor info linkId with
  | error e =>
      rw [hreg] at h
      exact absurd h nofun
  | ok m =>
      rw [hreg] at h
      obtain ⟨rfl, rfl⟩ := pure_eq_ok.mp h
      exact ⟨rfl, rfl⟩

theorem liftMemory_ok {α : Type} {x : Except LinkMemoryError α} {a : α}
    (h : (liftMemory x).run s = .ok a s') : s' = s ∧ x = .ok a := by
  cases x with
  | error e => exact absurd h nofun
  | ok b =>
      obtain ⟨rfl, rfl⟩ := pure_eq_ok.mp h
      exact ⟨rfl, rfl⟩

theorem onLinkStatus_ok {α : Type} {linkId : Nat} {desc : FragmentDescriptor}
    {f : LinkStatus → α × LinkStatus} {a : α}
    (h : (onLinkStatus info linkId desc f).run s = .ok a s') :
    a = (f (s.statusAt (.shared linkId desc.key))).1 ∧
      Updates (.shared linkId desc.key) (f (s.statusAt (.shared linkId desc.key))).2 s s' := by
  obtain ⟨reg, s₁, hreg, hrest⟩ := bind_eq_ok.mp h
  obtain ⟨rfl, -⟩ := memoryFor_ok hreg
  obtain ⟨u, s₂, hfrag, hset⟩ := bind_eq_ok.mp hrest
  obtain ⟨rfl, -⟩ := liftMemory_ok hfrag
  injection hset with ha hs
  subst ha hs
  exact ⟨rfl, setMemory_updates rfl⟩

theorem onLocalStatus_ok {α : Type} {n : Nat} {f : LinkStatus → α × LinkStatus} {a : α}
    (h : (onLocalStatus n f).run s = .ok a s') :
    a = (f (s.statusAt (.cell n))).1 ∧ Updates (.cell n) (f (s.statusAt (.cell n))).2 s s' := by
  injection h with ha hs
  subst ha hs
  exact ⟨rfl, setLocalState_updates rfl⟩

theorem writeAllowedBypassSource_ok {linkId : Nat} {desc : FragmentDescriptor} {source : NodeName}
    (h : (writeAllowedBypassSource info linkId desc source).run s = .ok ⟨⟩ s') :
    SameStatus s s' := by
  obtain ⟨reg, s₁, hreg, hrest⟩ := bind_eq_ok.mp h
  obtain ⟨rfl, -⟩ := memoryFor_ok hreg
  obtain ⟨u, s₂, hfrag, hset⟩ := bind_eq_ok.mp hrest
  obtain ⟨rfl, -⟩ := liftMemory_ok hfrag
  by_cases hsize : desc.size.toNat < 24
  · rw [if_pos hsize] at hset
    exact absurd hset nofun
  · rw [if_neg hsize] at hset
    injection hset with _ hs
    subst hs
    exact (setMemory_updates rfl).same rfl

/-! ### Locks -/

/-- The lock of a link can be taken. -/
def RouteTables.Lockable (s : RouteTables) (l : Link) : Prop :=
  ∃ k, l.stateKey = some k ∧ ((s.statusAt k).tryLock l.side).1 = true

/-- An attempt to lock a link: the attempt on the word that it has, and
without a word nothing. -/
theorem tryLockLinkForBypass_ok {l : Link} {source : NodeName} {b : Bool}
    (h : (tryLockLinkForBypass info l source).run s = .ok b s') :
    (∃ k, l.stateKey = some k ∧ ((s.statusAt k).tryLock l.side).1 = b ∧
      Updates k ((s.statusAt k).tryLock l.side).2 s s') ∨
    (l.stateKey = none ∧ b = false ∧ s' = s) := by
  unfold tryLockLinkForBypass at h
  cases hstate : l.linkState with
  -- the status is in shared memory: with the lock the source is written there
  | some desc =>
      left
      have hkey : l.stateKey = some (.shared l.linkId desc.key) := by
        rw [Link.stateKey, hstate]
      rw [hstate] at h
      obtain ⟨locked, s₁, hlock, h⟩ := bind_eq_ok.mp h
      obtain ⟨rfl, hup⟩ := onLinkStatus_ok hlock
      refine ⟨_, hkey, ?_⟩
      by_cases hlocked : ((s.statusAt (.shared l.linkId desc.key)).tryLock l.side).1 = true
      · rw [if_pos hlocked] at h
        obtain ⟨⟨⟩, s₂, hwrite, h⟩ := bind_eq_ok.mp h
        obtain ⟨rfl, rfl⟩ := pure_eq_ok.mp h
        exact ⟨hlocked, hup.trans (writeAllowedBypassSource_ok hwrite)⟩
      · rw [if_neg hlocked] at h
        obtain ⟨rfl, rfl⟩ := pure_eq_ok.mp h
        exact ⟨by simpa using hlocked, hup⟩
  -- no fragment: a local cell, or no link state at all
  | none =>
      cases hcell : l.localState with
      | none =>
          right
          rw [hstate, hcell] at h
          obtain ⟨rfl, rfl⟩ := pure_eq_ok.mp h
          exact ⟨by rw [Link.stateKey, hstate, hcell], rfl, rfl⟩
      | some n =>
          left
          have hkey : l.stateKey = some (.cell n) := by rw [Link.stateKey, hstate, hcell]
          rw [hstate, hcell] at h
          obtain ⟨locked, s₁, hlock, h⟩ := bind_eq_ok.mp h
          obtain ⟨rfl, hup⟩ := onLocalStatus_ok hlock
          refine ⟨_, hkey, ?_⟩
          by_cases hlocked : ((s.statusAt (.cell n)).tryLock l.side).1 = true
          · rw [if_pos hlocked] at h
            injection h with ha hs
            subst ha hs
            exact ⟨hlocked, hup.trans ((setLocalState_updates rfl).same rfl)⟩
          · rw [if_neg hlocked] at h
            obtain ⟨rfl, rfl⟩ := pure_eq_ok.mp h
            exact ⟨by simpa using hlocked, hup⟩

/-- Dropping the lock of a well formed link. -/
theorem unlockLinkForBypass_ok {l : Link} {k : StateKey} (hwf : l.WellFormed)
    (hkey : l.stateKey = some k) (h : (unlockLinkForBypass info l).run s = .ok ⟨⟩ s') :
    Updates k ((s.statusAt k).unlock l.side) s s' := by
  unfold unlockLinkForBypass at h
  cases hstate : l.linkState with
  | some desc =>
      have hcell : l.localState = none := by
        apply hwf.remote
        by_contra hlocal
        simp [hwf.local hlocal] at hstate
      rw [Link.stateKey, hstate] at hkey
      injection hkey with hkey
      subst hkey
      rw [hstate, hcell] at h
      obtain ⟨⟨⟩, s₁, hunlock, h⟩ := bind_eq_ok.mp h
      obtain ⟨-, rfl⟩ := pure_eq_ok.mp h
      exact (onLinkStatus_ok hunlock).2
  | none =>
      cases hcell : l.localState with
      | none =>
          rw [Link.stateKey, hstate, hcell] at hkey
          exact absurd hkey nofun
      | some n =>
          rw [Link.stateKey, hstate, hcell] at hkey
          injection hkey with hkey
          subst hkey
          rw [hstate, hcell] at h
          have hunlock : (onLocalStatus n fun st => ((), st.unlock l.side)).run s = .ok ⟨⟩ s' := h
          exact (onLocalStatus_ok hunlock).2

/-! ### Steps that leave status words and routers alone -/

section Steps

variable {rid : Nat}

variable {R : RouteTables → RouteTables → Prop} [Std.Refl R]

theorem getRouter_cases (rid : Nat) (missing : String) (s : RouteTables) :
    (∃ err, (getRouter rid missing).run s = .error err s) ∨
      ∃ r, s.routers rid = some r ∧ (getRouter rid missing).run s = .ok r s := by
  cases hr : s.routers rid with
  | none => exact .inl ⟨_, getRouter_none missing hr⟩
  | some r => exact .inr ⟨r, rfl, getRouter_some missing hr⟩

theorem memoryFor_keeps (linkId : Nat) : Maintains R (memoryFor info linkId) := by
  unfold memoryFor
  cases registryFor info linkId with
  | error e => exact keeps_throw e
  | ok m => exact keeps_pure m

theorem liftMemory_keeps {α : Type} (x : Except LinkMemoryError α) :
    Maintains R (liftMemory x) := by
  cases x with
  | error e => exact keeps_throw _
  | ok a => exact keeps_pure a

theorem getRouter_keeps (missing : String) : Maintains R (getRouter rid missing) := by
  intro s
  rcases getRouter_cases rid missing s with ⟨err, h⟩ | ⟨r, -, h⟩ <;> rw [h] <;>
    exact Std.Refl.refl s

theorem remoteNameFor_keeps (linkId : Nat) : Maintains R (remoteNameFor info linkId) := by
  unfold remoteNameFor
  cases info.links linkId with
  | none => exact keeps_throw _
  | some l => exact keeps_pure _

end Steps

theorem sendLinkMessageOn_sameStatus (linkId : Nat) (msg : RouteMessage) (fds : List OwnedFd) :
    Maintains SameStatus (sendLinkMessageOn info linkId msg fds) := by
  unfold sendLinkMessageOn
  cases info.links linkId with
  | none => exact keeps_throw _
  | some l =>
      apply keeps_get_bind
      intro s
      dsimp only
      refine Maintains.bind (keeps_modify fun _ => ⟨rfl, rfl, fun _ => rfl⟩) (fun _ => ?_) s
      split_ifs
      · exact keeps_throw _
      · exact keeps_pure _

theorem setMemory_sameStatus (linkId : Nat) {m : SharedMemory}
    (hst : m.states = (s.memories linkId).states) (hfree : m.free = (s.memories linkId).free) :
    SameStatus s (s.setMemory linkId m) := by
  refine ⟨?_, rfl, fun l => ?_⟩
  · funext k
    cases k with
    | shared linkId' key =>
        by_cases h : linkId' = linkId
        · subst h
          simp [statusAt, setMemory, hst]
        · simp [statusAt, setMemory, h]
    | cell n => rfl
  · by_cases h : l = linkId
    · subst h
      simp [setMemory, hfree]
    · simp [setMemory, h]

theorem allocateSublinkIds_sameStatus (linkId count : Nat) :
    Maintains SameStatus (allocateSublinkIds info linkId count) := by
  unfold allocateSublinkIds
  refine Maintains.bind (memoryFor_keeps linkId) fun _ => ?_
  apply keeps_get_bind
  intro s
  exact setMemory_sameStatus linkId rfl rfl

theorem addLinkStateRef_sameStatus (linkId : Nat) (desc : FragmentDescriptor) :
    Maintains SameStatus (addLinkStateRef info linkId desc) := by
  unfold addLinkStateRef
  refine Maintains.bind (memoryFor_keeps linkId) fun _ => ?_
  refine Maintains.bind (liftMemory_keeps _) fun _ => ?_
  exact keeps_modify fun s => (setMemory_updates rfl).same rfl

theorem insertOwner_sameStatus (linkId sublink rid : Nat) :
    Maintains SameStatus (insertOwner linkId sublink rid) :=
  keeps_modify fun _ => ⟨rfl, rfl, fun _ => rfl⟩

theorem requestBlockCapacity_sameStatus (blockSize linkId : Nat) :
    Maintains SameStatus (requestBlockCapacity info blockSize linkId) := by
  unfold requestBlockCapacity
  apply keeps_get_bind
  intro s
  split_ifs
  · refine Maintains.bind (keeps_modify fun _ => ⟨rfl, rfl, fun _ => rfl⟩) (fun _ => ?_) s
    dsimp only
    split_ifs
    · exact keeps_throw_bind _ _
    · refine Maintains.bind (keeps_modify fun _ => ⟨rfl, rfl, fun _ => rfl⟩) fun _ => ?_
      exact sendLinkMessageOn_sameStatus _ _ _
  · exact keeps_pure _ s

/-- A status operation fails before it changes anything. -/
theorem onLinkStatus_keeps {R : RouteTables → RouteTables → Prop} [Std.Refl R]
    [IsTrans RouteTables R] {α : Type} {linkId : Nat} {desc : FragmentDescriptor}
    {f : LinkStatus → α × LinkStatus}
    (h : ∀ s s', Updates (.shared linkId desc.key) (f (s.statusAt (.shared linkId desc.key))).2 s s' →
      R s s') : Maintains R (onLinkStatus info linkId desc f) := by
  unfold onLinkStatus
  refine Maintains.bind (memoryFor_keeps linkId) fun _ => ?_
  refine Maintains.bind (liftMemory_keeps _) fun _ => ?_
  intro s
  exact h _ _ (setMemory_updates rfl)

/-- Marking a side stable changes no lock bit. -/
theorem markSideStableOnLink_keeps {R : RouteTables → RouteTables → Prop} [Std.Refl R]
    [IsTrans RouteTables R] (l : Link)
    (h : ∀ k s s', Updates k ((s.statusAt k).setSideStable l.side) s s' → R s s') :
    Maintains R (markSideStableOnLink info l) := by
  have hcell : ∀ n, Maintains R (onLocalStatus n fun st => ((), st.setSideStable l.side)) :=
    fun n s => h (.cell n) _ _ (setLocalState_updates rfl)
  unfold markSideStableOnLink
  cases l.localState with
  | none =>
      cases l.linkState with
      | none => exact keeps_pure _
      | some desc => exact (onLinkStatus_keeps (h _)).bind fun _ => keeps_pure _
  | some n =>
      cases l.linkState with
      | none => exact hcell n
      | some desc => exact (onLinkStatus_keeps (h _)).bind fun _ => hcell n

end MojoRs.Ipcz
