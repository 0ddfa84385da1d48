/-
MojoRs/Ipcz/BridgeBypass.lean

An attempt to bypass a bridge (`maybe_start_bridge_bypass`).  Both bridge
routers' outward links are locked first; then either the four edges of the
two routers are put into decay, or the attempt is abandoned.

`AllOrNothing` says that an attempt that returns leaves no lock behind unless
the bypass is under way.  Up to its last flushes the attempt is the same
whatever flushing does, so this is said of the attempt without them.  Where
both locks can be had, the law holds only if nothing stops the attempt
afterwards (`Completes`): the code gives up on an exhausted pool or at an odd
bridge with both links still locked.

Main results: `lockBridge_ok`, `underWay_of_completes`,
`stuck_of_not_completes`, `bypass_all_or_nothing_iff`.
-/
import MojoRs.Ipcz.BypassSteps

namespace MojoRs.Ipcz

open Function (update)
open Lib

namespace RouteTables

/-- An attempt at bridge router `rid` with these outward links can have both
locks. -/
structure Attempt (s : RouteTables) (rid second : Nat) (first secondLink : Link) : Prop where
  pair : s.bridgePair rid = some (second, first, secondLink)
  firstLockable : s.Lockable first
  secondLockable : s.Lockable secondLink
  distinct : first.stateKey ≠ secondLink.stateKey

theorem Attempt.unique {s : RouteTables} {rid second second' : Nat}
    {first first' secondLink secondLink' : Link} (h : s.Attempt rid second first secondLink)
    (h' : s.Attempt rid second' first' secondLink') :
    second' = second ∧ first' = first ∧ secondLink' = secondLink := by
  have hsame := h'.pair
  rw [h.pair] at hsame
  injection hsame with hsame
  injection hsame with hsecond hsame
  injection hsame with hf hs
  exact ⟨hsecond.symm, hf.symm, hs.symm⟩

/-- Both links are locked, as an attempt leaves them to be. -/
structure BridgeLocked (s s' : RouteTables) (first secondLink : Link) : Prop where
  routers : s'.routers = s.routers
  free : ∀ l, (s'.memories l).free = (s.memories l).free
  firstLock : ∃ k, first.stateKey = some k ∧ s.lockedAt k = (fun _ => false) ∧
    s'.lockedAt k first.side = true
  secondLock : ∃ k, secondLink.stateKey = some k ∧ s.lockedAt k = (fun _ => false) ∧
    s'.lockedAt k secondLink.side = true

end RouteTables

open RouteTables

variable {info : NodeInfo} {s s' s₁ s₂ : RouteTables} {rid second : Nat}
  {first secondLink : Link}

/-! ### The locks -/

theorem peerNodeOf_ok {l : Link} {name : NodeName} (h : (peerNodeOf info l).run s = .ok name s') :
    s' = s := by
  unfold peerNodeOf remoteNameFor at h
  split at h
  · exact (pure_eq_ok.mp h).2.symm
  · split at h
    · exact absurd h nofun
    · exact (pure_eq_ok.mp h).2.symm

/-- What taking a lock does to the lock bits. -/
theorem lock_taken {k : StateKey} {side : LinkSide}
    (hlock : ((s.statusAt k).tryLock side).1 = true)
    (hup : Updates k ((s.statusAt k).tryLock side).2 s s') :
    s.lockedAt k = (fun _ => false) ∧ s'.lockedAt k = update (fun _ => false) side true := by
  have hpair : (s.statusAt k).tryLock side = (true, ((s.statusAt k).tryLock side).2) :=
    Prod.ext hlock rfl
  obtain ⟨hfree, hst⟩ := LinkStatus.tryLock_unlocked hpair
  refine ⟨hfree, ?_⟩
  rw [hup.locked, if_pos rfl, hst, ← hfree]

/-- What a failed attempt does to the lock bits: nothing. -/
theorem lock_refused {k : StateKey} {side : LinkSide}
    (hlock : ((s.statusAt k).tryLock side).1 = false)
    (hup : Updates k ((s.statusAt k).tryLock side).2 s s') (k' : StateKey) :
    s'.lockedAt k' = s.lockedAt k' := by
  have hpair : (s.statusAt k).tryLock side = (false, ((s.statusAt k).tryLock side).2) :=
    Prod.ext hlock rfl
  have hst := LinkStatus.tryLock_locked hpair
  rw [hup.locked]
  split_ifs with hk
  · rw [hk, hst]
    rfl
  · rfl

/-- Either both links are locked, or no lock bit has changed. -/
theorem lockBridge_ok {b : Bool} (hwf : first.WellFormed)
    (h : (lockBridge info first secondLink).run s = .ok b s₂) :
    (b = true ∧ s.Lockable first ∧ s.Lockable secondLink ∧
      first.stateKey ≠ secondLink.stateKey ∧ BridgeLocked s s₂ first secondLink) ∨
    (b = false ∧ (∀ k, s₂.lockedAt k = s.lockedAt k) ∧
      (s.Lockable first → s.Lockable secondLink → first.stateKey = secondLink.stateKey)) := by
  obtain ⟨firstNode, s₃, hfirst, hrest⟩ := bind_eq_ok.mp h
  obtain rfl := peerNodeOf_ok hfirst
  obtain ⟨secondNode, s₄, hsecond, hlock⟩ := bind_eq_ok.mp hrest
  obtain rfl := peerNodeOf_ok hsecond
  obtain ⟨b₁, s₅, hlock₁, hlocked₁⟩ := bind_eq_ok.mp hlock
  rcases tryLockLinkForBypass_ok hlock₁ with ⟨k₁, hk₁, hb₁, hup₁⟩ | ⟨hk₁, rfl, rfl⟩
  swap
  · -- the first link has no lock
    right
    obtain ⟨rfl, rfl⟩ := pure_eq_ok.mp hlocked₁
    refine ⟨rfl, fun _ => rfl, ?_⟩
    rintro ⟨k, hk, -⟩
    rw [hk₁] at hk
    exact absurd hk nofun
  cases b₁ with
  | false =>
      right
      obtain ⟨rfl, rfl⟩ := pure_eq_ok.mp hlocked₁
      refine ⟨rfl, lock_refused hb₁ hup₁, ?_⟩
      rintro ⟨k, hk, hfree⟩
      rw [hk₁] at hk
      injection hk with hk
      rw [← hk, hb₁] at hfree
      exact absurd hfree nofun
  | true =>
      obtain ⟨hfree₁, htaken₁⟩ := lock_taken hb₁ hup₁
      obtain ⟨b₂, s₆, hlock₂, hlocked₂⟩ := bind_eq_ok.mp hlocked₁
      cases b₂ with
      | true =>
          left
          obtain ⟨rfl, rfl⟩ := pure_eq_ok.mp hlocked₂
          rcases tryLockLinkForBypass_ok hlock₂ with ⟨k₂, hk₂, hb₂, hup₂⟩ | ⟨-, hb₂, -⟩
          swap
          · cases hb₂
          obtain ⟨hfree₂, htaken₂⟩ := lock_taken hb₂ hup₂
          have hne : k₁ ≠ k₂ := by
            rintro rfl
            rw [htaken₁] at hfree₂
            simpa using congrFun hfree₂ first.side
          have hst : s₅.statusAt k₂ = s₄.statusAt k₂ := by rw [hup₁.status, if_neg hne.symm]
          refine ⟨rfl, ⟨k₁, hk₁, hb₁⟩, ⟨k₂, hk₂, by rwa [← hst]⟩, ?_, ?_⟩
          · rw [hk₁, hk₂]
            exact fun h => hne (Option.some.inj h)
          · refine ⟨hup₂.routers.trans hup₁.routers, fun l => (hup₂.free l).trans (hup₁.free l),
              ⟨k₁, hk₁, hfree₁, ?_⟩, ⟨k₂, hk₂, ?_, ?_⟩⟩
            · rw [hup₂.locked, if_neg hne, htaken₁, Function.update_self]
            · rw [← hfree₂, lockedAt, lockedAt, hst]
            · rw [htaken₂, Function.update_self]
      | false =>
          right
          obtain ⟨⟨⟩, s₇, hunlock, hpure⟩ := bind_eq_ok.mp hlocked₂
          obtain ⟨rfl, rfl⟩ := pure_eq_ok.mp hpure
          have hun := unlockLinkForBypass_ok hwf hk₁ hunlock
          -- the second attempt leaves the lock bits, and says why it failed
          have hsecond : (∀ k, s₆.lockedAt k = s₅.lockedAt k) ∧
              (s₄.Lockable secondLink → first.stateKey = secondLink.stateKey) := by
            rcases tryLockLinkForBypass_ok hlock₂ with ⟨k₂, hk₂, hb₂, hup₂⟩ | ⟨hk₂, -, rfl⟩
            · refine ⟨lock_refused hb₂ hup₂, ?_⟩
              rintro ⟨k, hk, hfree⟩
              rw [hk₂] at hk
              injection hk with hk
              subst hk
              rw [hk₁, hk₂]
              by_contra hne
              rw [hup₁.status, if_neg fun h => hne (by rw [h])] at hb₂
              rw [hb₂] at hfree
              exact absurd hfree nofun
            · refine ⟨fun _ => rfl, ?_⟩
              rintro ⟨k, hk, -⟩
              rw [hk₂] at hk
              exact absurd hk nofun
          refine ⟨rfl, fun k => ?_, fun _ => hsecond.2⟩
          rw [hun.locked]
          split_ifs with hk
          · have hbits : (s₆.statusAt k₁).locked = update (fun _ => false) first.side true := by
              rw [← htaken₁, ← hsecond.1]
              rfl
            rw [LinkStatus.unlock, hk, hfree₁, hbits, Function.update_idem]
            exact Function.update_eq_self first.side fun _ => false
          · rw [hsecond.1, hup₁.locked, if_neg hk]

/-- What has to be there for an attempt that has both locks: the other bridge
edge, or a block for the new link state and the way back over the bridge. -/
def RouteTables.Completes (info : NodeInfo) (s : RouteTables) (rid second : Nat)
    (first secondLink : Link) : Prop :=
  match first.localPeer, secondLink.localPeer with
  | none, none => (s.bridgeOf second).isSome
  | some _, none => s.HasBlock info secondLink.linkId
  | none, some _ =>
      s.HasBlock info first.linkId ∧ ∃ p, s.localBypass second = some (p, rid)
  | some _, some _ => True

/-- The routers and free lists decide whether an attempt completes. -/
theorem completes_congr (hrouters : s'.routers = s.routers)
    (hfree : ∀ l, (s'.memories l).free = (s.memories l).free) :
    s'.Completes info rid second first secondLink ↔ s.Completes info rid second first secondLink := by
  simp only [Completes, bridgeOf, localBypass, hrouters, hasBlock_congr hfree]

section Cases

variable (hpair : s.bridgePair rid = some (second, first, secondLink))
include hpair

theorem bridgeOf_rid : ∃ b, s.bridgeOf rid = some b ∧ b.isStable = true := by
  obtain ⟨r, b, r', hr, hb, hstable, -⟩ := bridgePair_eq_some.mp hpair
  exact ⟨b, by rw [bridgeOf, hr]; exact hb, hstable⟩

theorem bridge_stays (hsame : s'.bridgeOf rid = s.bridgeOf rid) : ¬s'.UnderWay rid second := by
  intro h
  obtain ⟨b, hb, hstable⟩ := bridgeOf_rid hpair
  obtain ⟨b', hb', hstable'⟩ := (h rid (.inl rfl)).2
  rw [hsame, hb] at hb'
  injection hb' with hb'
  rw [← hb', hstable] at hstable'
  exact absurd hstable' nofun

end Cases

/-! ### Flushes come last -/

section FollowedBy

variable {flush : Nat → Bool → RouteM Unit}

/-- Flush these routers in this order. -/
def flushAll (flush : Nat → Bool → RouteM Unit) (rids : List Nat) : RouteM Unit :=
  rids.forM fun r => flush r false

/-- A run of `x` is one of `x₀` and some flushes after it. -/
def FollowedBy (flush : Nat → Bool → RouteM Unit) (x₀ x : RouteM Unit) : Prop :=
  ∀ s s', x.run s = .ok ⟨⟩ s' → ∃ s₁ rids, x₀.run s = .ok ⟨⟩ s₁ ∧
    (flushAll flush rids).run s₁ = .ok ⟨⟩ s'

theorem FollowedBy.refl (x : RouteM Unit) : FollowedBy flush x x :=
  fun _ s' h => ⟨s', [], h, rfl⟩

theorem FollowedBy.bind {α : Type} (x : RouteM α) {f₀ f : α → RouteM Unit}
    (h : ∀ a, FollowedBy flush (f₀ a) (f a)) : FollowedBy flush (x >>= f₀) (x >>= f) := by
  intro s s' hrun
  obtain ⟨a, s₁, hx, hf⟩ := bind_eq_ok.mp hrun
  obtain ⟨s₂, rids, h₀, hflush⟩ := h a s₁ s' hf
  exact ⟨s₂, rids, by rw [run_bind_of_ok hx, h₀], hflush⟩

theorem startBridgeBypassFromLocalPeer_followedBy (a : Nat) (linkState : FragmentDescriptor) :
    FollowedBy flush (startBridgeBypassFromLocalPeer info noFlush a linkState)
      (startBridgeBypassFromLocalPeer info flush a linkState) := by
  unfold startBridgeBypassFromLocalPeer
  refine .bind _ fun s => ?_
  rcases s.localBypass a with - | ⟨p, o⟩
  · exact .refl _
  · refine .bind _ fun remoteLink => .bind _ fun len => .bind _ fun sublink => ?_
    refine .bind _ fun _ => .bind _ fun _ => .bind _ fun _ => .bind _ fun _ => ?_
    intro s s' h
    refine ⟨s, [a, o, p], rfl, ?_⟩
    simpa [flushAll] using h

theorem bypassFromLocalPeer_followedBy (a linkId : Nat) :
    FollowedBy flush (bypassFromLocalPeer info noFlush a linkId)
      (bypassFromLocalPeer info flush a linkId) := by
  refine .bind _ fun block => ?_
  cases block with
  | none => exact .refl _
  | some desc => exact .bind _ fun _ => startBridgeBypassFromLocalPeer_followedBy a desc

theorem bypassLocalPeers_followedBy (p q : Nat) :
    FollowedBy flush (bypassLocalPeers noFlush rid second p q)
      (bypassLocalPeers flush rid second p q) := by
  refine .bind _ fun m => .bind _ fun n => .bind _ fun _ => .bind _ ?_
  rintro ⟨linkA, linkB⟩
  refine .bind _ fun _ => .bind _ fun _ => ?_
  intro s s' h
  refine ⟨s, [rid, second, p, q], rfl, ?_⟩
  simpa [flushAll] using h

theorem bypassBridge_followedBy :
    FollowedBy flush (bypassBridge info noFlush rid second first secondLink)
      (bypassBridge info flush rid second first secondLink) := by
  unfold bypassBridge
  cases first.localPeer with
  | none =>
      cases secondLink.localPeer with
      | none => exact .refl _
      | some q => exact bypassFromLocalPeer_followedBy _ _
  | some p =>
      cases secondLink.localPeer with
      | none => exact bypassFromLocalPeer_followedBy _ _
      | some q => exact bypassLocalPeers_followedBy p q

/-! ### All or nothing -/

/-- An attempt that has led from `s` to `s'`: it has put both bridge routers
into decay, and what followed are flushes; or it was given up, and no lock bit
has changed. -/
def AllOrNothing (info : NodeInfo) (flush : Nat → Bool → RouteM Unit) (rid : Nat)
    (s s' : RouteTables) : Prop :=
  (∃ second s₁ rids, (s.bridgeOf rid).bind (·.getLocalPeer) = some second ∧
    (maybeStartBridgeBypass info noFlush rid).run s = .ok ⟨⟩ s₁ ∧ s₁.UnderWay rid second ∧
    (flushAll flush rids).run s₁ = .ok ⟨⟩ s') ∨
  ((maybeStartBridgeBypass info noFlush rid).run s = .ok ⟨⟩ s' ∧ s'.lockedAt = s.lockedAt)

/-- With both links locked, the bypass gets under way if all is there. -/
theorem underWay_of_completes (hpair : s.bridgePair rid = some (second, first, secondLink))
    (hc : s.Completes info rid second first secondLink)
    (h : (bypassBridge info noFlush rid second first secondLink).run s = .ok ⟨⟩ s') :
    s'.UnderWay rid second := by
  obtain ⟨r, b, r', hr, hb, hstable, hpeer, hfirst, hr', hsecond⟩ := bridgePair_eq_some.mp hpair
  unfold bypassBridge at h
  unfold Completes at hc
  cases hp : first.localPeer with
  | none =>
      cases hq : secondLink.localPeer with
      | none =>
          rw [hp, hq] at h hc
          exact (bypassRemotePeers_ok h).2.2 (by simp [bridgeOf, hr, hb]) hc
      | some q =>
          rw [hp, hq] at h hc
          obtain ⟨hblock, p, hback⟩ := hc
          obtain ⟨hother, hthis⟩ := bypassFromLocalPeer_ok hblock hback h
          rintro x (rfl | rfl)
          · exact hthis
          · exact hother
  | some p =>
      cases hq : secondLink.localPeer with
      | none =>
          rw [hp, hq] at h hc
          have hpeers : s.localBypass rid = some (p, second) := by
            refine localBypass_eq_some.mpr ⟨r, b, hr, hb, hstable, ?_, hpeer⟩
            rw [Edge.getLocalPeer, hfirst]
            exact hp
          obtain ⟨hthis, hother⟩ := bypassFromLocalPeer_ok hc hpeers h
          rintro x (rfl | rfl)
          · exact hthis
          · exact hother
      | some q =>
          rw [hp, hq] at h
          exact bypassLocalPeers_ok h

/-- With both links locked and something missing, the bypass does not get
under way, and one of the locks stays. -/
theorem stuck_of_not_completes (hpair : s.bridgePair rid = some (second, first, secondLink))
    (hwf : secondLink.WellFormed) (hc : ¬s.Completes info rid second first secondLink)
    (h : (bypassBridge info noFlush rid second first secondLink).run s = .ok ⟨⟩ s') :
    ¬s'.UnderWay rid second ∧
      ((∀ k, first.stateKey = some k → s.lockedAt k first.side = true →
          s'.lockedAt k first.side = true) ∨
        ∀ k, secondLink.stateKey = some k → s.lockedAt k secondLink.side = true →
          s'.lockedAt k secondLink.side = true) := by
  obtain ⟨r, b, r', hr, hb, hstable, hpeer, hfirst, hr', hsecond⟩ := bridgePair_eq_some.mp hpair
  unfold bypassBridge at h
  unfold Completes at hc
  cases hp : first.localPeer with
  | none =>
      cases hq : secondLink.localPeer with
      | none =>
          rw [hp, hq] at h hc
          obtain ⟨hlock, hbridge, -⟩ := bypassRemotePeers_ok h
          refine ⟨fun hunder => ?_, .inl fun k _ hk => by rwa [hlock]⟩
          obtain ⟨e, he, -⟩ := (hunder second (.inr rfl)).2
          rw [he] at hbridge
          exact hc (by rw [← hbridge]; rfl)
      | some q =>
          rw [hp, hq] at h hc
          -- the other bridge router starts the bypass; it is not this one
          have hne : second ≠ rid := by
            rintro rfl
            rw [hr] at hr'
            injection hr' with hr'
            rw [hr', hsecond] at hfirst
            injection hfirst with hfirst
            rw [hfirst, hp] at hq
            exact absurd hq nofun
          have hcell : ∃ n, ∀ k, secondLink.stateKey = some k → k = .cell n := by
            have hstate : secondLink.linkState = none := hwf.local (by simp [hq])
            cases hloc : secondLink.localState with
            | none => exact ⟨0, by simp [Link.stateKey, hstate, hloc]⟩
            | some n => exact ⟨n, by simp [Link.stateKey, hstate, hloc, eq_comm]⟩
          obtain ⟨n, hn⟩ := hcell
          have hstalls : Stalls (.cell n) secondLink.side rid s s' := by
            by_cases hblock : s.HasBlock info first.linkId
            · exact bypassFromLocalPeer_stalls hne (fun p hback => hc ⟨hblock, p, hback⟩) h
            · exact (bypassFromLocalPeer_noBlock hblock h).stalls
          refine ⟨bridge_stays hpair hstalls.bridge, .inr fun k hk hlock => ?_⟩
          obtain rfl := hn k hk
          exact hstalls.lock hlock
  | some p =>
      cases hq : secondLink.localPeer with
      | none =>
          rw [hp, hq] at h hc
          have hsame := bypassFromLocalPeer_noBlock hc h
          refine ⟨bridge_stays hpair (by simp [bridgeOf, hsame.routers]), .inl fun k _ hk => ?_⟩
          rwa [lockedAt, hsame.status]
      | some q =>
          rw [hp, hq] at hc
          exact absurd trivial hc

/-- The attempt, once it has found its bridge peer. -/
theorem maybeStartBridgeBypass_run (hpair : s.bridgePair rid = some (second, first, secondLink)) :
    (maybeStartBridgeBypass info flush rid).run s =
      (do
        if ← lockBridge info first secondLink then
          bypassBridge info flush rid second first secondLink : RouteM Unit).run s := by
  unfold maybeStartBridgeBypass
  rw [run_get_bind, hpair]

/-- An attempt that got both locks. -/
structure Locks (info : NodeInfo) (flush : Nat → Bool → RouteM Unit) (rid second : Nat)
    (first secondLink : Link) (s s₂ s₁ s' : RouteTables) (rids : List Nat) : Prop where
  locked : s.BridgeLocked s₂ first secondLink
  bypass : (bypassBridge info noFlush rid second first secondLink).run s₂ = .ok ⟨⟩ s₁
  own : (maybeStartBridgeBypass info noFlush rid).run s = .ok ⟨⟩ s₁
  flushes : (flushAll flush rids).run s₁ = .ok ⟨⟩ s'

/-- An attempt that returns found nothing to do, got no locks, or got both. -/
theorem maybeStartBridgeBypass_cases
    (hwf : ∀ r router l, s.routers r = some router → router.outward.primary = some l → l.WellFormed)
    (h : (maybeStartBridgeBypass info flush rid).run s = .ok ⟨⟩ s') :
    ((maybeStartBridgeBypass info noFlush rid).run s = .ok ⟨⟩ s' ∧ s'.lockedAt = s.lockedAt ∧
        ∀ second first secondLink, ¬s.Attempt rid second first secondLink) ∨
      ∃ second first secondLink s₂ s₁ rids, s.Attempt rid second first secondLink ∧
        Locks info flush rid second first secondLink s s₂ s₁ s' rids := by
  rcases hpair : s.bridgePair rid with - | ⟨second, first, secondLink⟩
  · left
    unfold maybeStartBridgeBypass at h ⊢
    rw [run_get_bind, hpair] at h ⊢
    obtain ⟨-, rfl⟩ := pure_eq_ok.mp h
    refine ⟨rfl, rfl, fun second first secondLink hatt => ?_⟩
    rw [hatt.pair] at hpair
    exact absurd hpair nofun
  · rw [maybeStartBridgeBypass_run hpair] at h
    obtain ⟨r, b, r', hr, -, -, -, hfirst, -⟩ := bridgePair_eq_some.mp hpair
    obtain ⟨locked, s₂, hlock, hrest⟩ := bind_eq_ok.mp h
    rcases lockBridge_ok (hwf rid r first hr hfirst) hlock with
      ⟨rfl, hlock₁, hlock₂, hne, hlocks⟩ | ⟨rfl, hlocks, hrefused⟩
    · right
      obtain ⟨s₁, rids, hbypass, hflush⟩ := bypassBridge_followedBy _ _ hrest
      refine ⟨second, first, secondLink, s₂, s₁, rids, ⟨hpair, hlock₁, hlock₂, hne⟩, hlocks, hbypass,
        ?_, hflush⟩
      rw [maybeStartBridgeBypass_run hpair, run_bind_of_ok hlock]
      exact hbypass
    · left
      obtain ⟨-, rfl⟩ := pure_eq_ok.mp hrest
      refine ⟨?_, funext hlocks, fun second' first' secondLink' hatt => ?_⟩
      · rw [maybeStartBridgeBypass_run hpair, run_bind_of_ok hlock]
        rfl
      · have hsame := hatt.pair
        rw [hpair] at hsame
        injection hsame with hsame
        injection hsame with _ hsame
        injection hsame with hf hs
        subst hf hs
        exact hatt.distinct (hrefused hatt.firstLockable hatt.secondLockable)

/-- The bypass stays as it is through the locking. -/
theorem RouteTables.BridgeLocked.bridgePair (h : s.BridgeLocked s₂ first secondLink) :
    s₂.bridgePair rid = s.bridgePair rid := by
  simp only [RouteTables.bridgePair, h.routers]

theorem allOrNothing_of_completes (hatt : s.Attempt rid second first secondLink)
    {rids : List Nat} (hl : Locks info flush rid second first secondLink s s₂ s₁ s' rids)
    (hc : s.Completes info rid second first secondLink) : AllOrNothing info flush rid s s' := by
  left
  obtain ⟨r, b, r', hr, hb, -, hpeer, -⟩ := bridgePair_eq_some.mp hatt.pair
  refine ⟨second, s₁, rids, by simp [bridgeOf, hr, hb, hpeer], hl.own, ?_, hl.flushes⟩
  exact underWay_of_completes (hl.locked.bridgePair.trans hatt.pair)
    ((completes_congr hl.locked.routers hl.locked.free).mpr hc) hl.bypass

theorem not_allOrNothing (hatt : s.Attempt rid second first secondLink)
    (hwf : secondLink.WellFormed) {rids : List Nat}
    (hl : Locks info flush rid second first secondLink s s₂ s₁ s' rids)
    (hc : ¬s.Completes info rid second first secondLink) : ¬AllOrNothing info flush rid s s' := by
  obtain ⟨hunder, hlock⟩ := stuck_of_not_completes (hl.locked.bridgePair.trans hatt.pair) hwf
    (fun h => hc ((completes_congr hl.locked.routers hl.locked.free).mp h)) hl.bypass
  rintro (⟨second', s₃, rids', hpeer', hown, hunder', -⟩ | ⟨hown, hlocks⟩)
  · obtain ⟨r, b, r', hr, hb, -, hpeer, -⟩ := bridgePair_eq_some.mp hatt.pair
    simp only [bridgeOf, hr, Option.bind_some, hb, hpeer, Option.some.injEq] at hpeer'
    subst hpeer'
    rw [hl.own] at hown
    injection hown with _ hs
    subst hs
    exact hunder hunder'
  · rw [hl.own] at hown
    injection hown with _ hs
    subst hs
    rcases hlock with hlock | hlock
    · obtain ⟨k, hk, hfree, hheld⟩ := hl.locked.firstLock
      have hstays := hlock k hk hheld
      rw [hlocks, hfree] at hstays
      cases hstays
    · obtain ⟨k, hk, hfree, hheld⟩ := hl.locked.secondLock
      have hstays := hlock k hk hheld
      rw [hlocks, hfree] at hstays
      cases hstays

/-- An attempt that returns is all or nothing if and only if nothing is
missing where it can have both locks. -/
theorem bypass_all_or_nothing_iff (info : NodeInfo) (flush : Nat → Bool → RouteM Unit) (rid : Nat)
    (s s' : RouteTables)
    (hwf : ∀ r router l, s.routers r = some router → router.outward.primary = some l → l.WellFormed)
    (h : (maybeStartBridgeBypass info flush rid).run s = .ok ⟨⟩ s') :
    AllOrNothing info flush rid s s' ↔
      ∀ second first secondLink, s.Attempt rid second first secondLink →
        s.Completes info rid second first secondLink := by
  rcases maybeStartBridgeBypass_cases hwf h with
    ⟨hown, hlocks, hnone⟩ | ⟨second, first, secondLink, s₂, s₁, rids, hatt, hl⟩
  · refine iff_of_true (.inr ⟨hown, hlocks⟩) ?_
    intro second first secondLink hatt
    exact absurd hatt (hnone second first secondLink)
  · by_cases hc : s.Completes info rid second first secondLink
    · refine iff_of_true (allOrNothing_of_completes hatt hl hc) ?_
      intro second' first' secondLink' hatt'
      obtain ⟨rfl, rfl, rfl⟩ := hatt.unique hatt'
      exact hc
    · obtain ⟨r, b, r', hr, -, -, -, -, hr', hsecond⟩ := bridgePair_eq_some.mp hatt.pair
      refine iff_of_false (not_allOrNothing hatt (hwf second r' secondLink hr' hsecond) hl hc) ?_
      exact fun hall => hc (hall second first secondLink hatt)

end FollowedBy

/-! ### An exhausted pool -/

/-- The outward link of a bridge with a local peer. -/
def localOutward : Link := (Link.localPair .central .a 1 3 0).1

/-- The outward link of a bridge with a remote peer. -/
def remoteOutward : Link := .remote linkIdBroker 7 .central .a (some ⟨primaryBufferId, 0x440, 64⟩)

/-- Bridge routers 1 and 2 with stable edges: router 1 leads to the local
router 3, router 2 to the broker.  No block is free. -/
def exhausted : RouteTables :=
  { RouteTables.fresh with
    routers := fun rid => match rid with
      | 1 => some { Router.newTerminal localOutward with
          bridge := some ⟨some (Link.localPair .bridge .a 1 2 1).1, none⟩ }
      | 2 => some { Router.newTerminal remoteOutward with
          bridge := some ⟨some (Link.localPair .bridge .a 1 2 1).2, none⟩ }
      | 3 => some (.newTerminal (Link.localPair .central .a 1 3 0).2)
      | _ => none
    localStates := fun n => .new (n == 0)
    memories := fun _ =>
      { SharedMemory.fresh with
        states := fun _ => ⟨2, .bothStable, .invalid⟩
        free := fun _ => [] } }

theorem exhausted_attempt : exhausted.Attempt 1 2 localOutward remoteOutward :=
  ⟨rfl, ⟨.cell 0, rfl, rfl⟩, ⟨.shared 0 (0, 0x440), rfl, rfl⟩, by decide⟩

theorem exhausted_noBlock (info : NodeInfo) (linkId : Nat) : ¬exhausted.HasBlock info linkId := by
  rintro ⟨reg, -, hsome⟩
  rw [SharedMemory.tryAllocateFragment_none fun _ => rfl] at hsome
  exact absurd hsome nofun

theorem exhausted_wellFormed (r : Nat) (router : Router) (l : Link)
    (hr : exhausted.routers r = some router) (hl : router.outward.primary = some l) :
    l.WellFormed := by
  have hpair := Link.localPair_wellFormed .central .a 1 3 0
  unfold exhausted at hr
  dsimp only at hr
  split at hr
  · injection hr with hr
    rw [← hr] at hl
    injection hl with hl
    exact hl ▸ hpair.1
  · injection hr with hr
    rw [← hr] at hl
    injection hl with hl
    exact hl ▸ Link.remote_wellFormed _ _ _ _ _
  · injection hr with hr
    rw [← hr] at hl
    injection hl with hl
    exact hl ▸ hpair.2
  · cases hr

/-- The attempt returns. -/
theorem exhausted_run (flush : Nat → Bool → RouteM Unit) :
    ∃ s', (maybeStartBridgeBypass (.ofLinks [0]) flush 1).run exhausted = .ok ⟨⟩ s' := by
  have hlock : ∃ s₂, (lockBridge (.ofLinks [0]) localOutward remoteOutward).run exhausted =
      .ok true s₂ ∧ (∀ key, (s₂.memories 0).free key = []) ∧
      ∃ s', (requestBlockCapacity (.ofLinks [0]) routerLinkStateSize 0).run s₂ = .ok ⟨⟩ s' :=
    ⟨_, rfl, fun _ => rfl, _, rfl⟩
  obtain ⟨s₂, hlock, hfree, s', hrequest⟩ := hlock
  have halloc : (tryAllocateLinkState (.ofLinks [0]) 0).run s₂ = .ok none s₂ := by
    have hnone : (s₂.memories 0).tryAllocateLinkState .empty = none := by
      rw [SharedMemory.tryAllocateLinkState, SharedMemory.tryAllocateFragment_none hfree]
    unfold tryAllocateLinkState
    have hmemory : (memoryFor (.ofLinks [0]) 0).run s₂ = .ok .empty s₂ := rfl
    rw [run_bind_of_ok hmemory, run_get_bind, hnone]
    rfl
  refine ⟨s', ?_⟩
  rw [maybeStartBridgeBypass_run exhausted_attempt.pair, run_bind_of_ok hlock]
  show (bypassFromLocalPeer (.ofLinks [0]) flush 1 0).run s₂ = .ok ⟨⟩ s'
  unfold bypassFromLocalPeer
  rw [run_bind_of_ok halloc]
  exact hrequest

/-- The attempt gives up for want of a block, and keeps both locks. -/
theorem bypass_keeps_locks :
    ∃ s', (maybeStartBridgeBypass (.ofLinks [0]) (routerFlush (.ofLinks [0]) 8) 1).run exhausted =
        .ok ⟨⟩ s' ∧
      ¬AllOrNothing (.ofLinks [0]) (routerFlush (.ofLinks [0]) 8) 1 exhausted s' := by
  obtain ⟨s', h⟩ := exhausted_run (routerFlush (.ofLinks [0]) 8)
  refine ⟨s', h, ?_⟩
  rcases maybeStartBridgeBypass_cases exhausted_wellFormed h with
    ⟨-, -, hnone⟩ | ⟨second, first, secondLink, s₂, s₁, rids, hatt, hl⟩
  · exact absurd exhausted_attempt (hnone 2 localOutward remoteOutward)
  · obtain ⟨rfl, rfl, rfl⟩ := exhausted_attempt.unique hatt
    exact not_allOrNothing hatt (Link.remote_wellFormed _ _ _ _ _) hl (exhausted_noBlock _ _)

/-! ### A bridge between two links -/

/-- A central link with a link state. -/
def stableCentral (linkId : Nat) : Link :=
  .remote linkId 7 .central .a (some ⟨primaryBufferId, 0x440, 64⟩)

/-- Bridge routers 1 and 2 with stable edges, each with a stable link to another
node. -/
def bridgedLinks : RouteTables :=
  { RouteTables.fresh with
    routers := fun rid => match rid with
      | 1 => some { Router.newTerminal (stableCentral 0) with
          bridge := some ⟨some (Link.localPair .bridge .a 1 2 1).1, none⟩ }
      | 2 => some { Router.newTerminal (stableCentral 1) with
          bridge := some ⟨some (Link.localPair .bridge .a 1 2 1).2, none⟩ }
      | _ => none
    memories := fun _ =>
      { SharedMemory.fresh with states := fun _ => ⟨2, .bothStable, .invalid⟩ } }

theorem bridgedLinks_wellFormed (r : Nat) (router : Router) (l : Link)
    (hr : bridgedLinks.routers r = some router) (hl : router.outward.primary = some l) :
    l.WellFormed := by
  unfold bridgedLinks at hr
  dsimp only at hr
  split at hr
  · injection hr with hr
    rw [← hr] at hl
    injection hl with hl
    exact hl ▸ Link.remote_wellFormed _ _ _ _ _
  · injection hr with hr
    rw [← hr] at hl
    injection hl with hl
    exact hl ▸ Link.remote_wellFormed _ _ _ _ _
  · cases hr

theorem bridgedLinks_attempt :
    bridgedLinks.Attempt 1 2 (stableCentral 0) (stableCentral 1) :=
  ⟨rfl, ⟨.shared 0 (0, 0x440), rfl, rfl⟩, ⟨.shared 1 (0, 0x440), rfl, rfl⟩, by decide⟩

/-- The bypass gets under way. -/
theorem bypass_all_or_nothing_links :
    ∃ s', (maybeStartBridgeBypass (.ofLinks [0, 1]) (routerFlush (.ofLinks [0, 1]) 8) 1).run
        bridgedLinks = .ok ⟨⟩ s' ∧
      AllOrNothing (.ofLinks [0, 1]) (routerFlush (.ofLinks [0, 1]) 8) 1 bridgedLinks s' := by
  obtain ⟨s', h⟩ : ∃ s', (maybeStartBridgeBypass (.ofLinks [0, 1]) (routerFlush (.ofLinks [0, 1]) 8)
    1).run bridgedLinks = .ok ⟨⟩ s' := ⟨_, rfl⟩
  refine ⟨s', h, (bypass_all_or_nothing_iff (.ofLinks [0, 1]) (routerFlush (.ofLinks [0, 1]) 8) 1
    bridgedLinks s' bridgedLinks_wellFormed h).mpr ?_⟩
  intro second first secondLink hatt
  obtain ⟨rfl, rfl, rfl⟩ := bridgedLinks_attempt.unique hatt
  exact rfl

end MojoRs.Ipcz
