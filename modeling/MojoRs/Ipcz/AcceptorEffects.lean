/-
MojoRs/Ipcz/AcceptorEffects.lean

What an arrival can do to an acceptor, said once.  Whatever a handler does, and
wherever it fails, it takes steps of a few kinds (`Effect`): it keeps or drops
half of a parcel, a router accepts a parcel, gets a second link or is closed,
or the application takes a message.  All other steps leave the routers and the
halves of parcels alone.

Main results: `arrive_effects`, `maintains_of_effect`.
-/
import MojoRs.Ipcz.Acceptor
import Mathlib.Logic.Relation

namespace MojoRs.Ipcz

open Lib
open Function (update)

namespace Acceptor

/-! ### What an arrival is about -/

namespace Arrival

/-- Messages about one parcel. -/
def Concerns (key : UInt64 × UInt64) : Arrival → Prop
  | .message (.acceptParcel p) _ => (p.sublink, p.sequenceNumber) = key
  | .message (.acceptParcelDriverObjects sublink sequenceNumber _) _ =>
      (sublink, sequenceNumber) = key
  | _ => False

/-- Messages on which parcels of a sublink are delivered. -/
def DeliversOver (sublink : UInt64) : Arrival → Prop
  | .message (.acceptParcel p) _ => p.sublink = sublink
  | .message (.acceptParcelDriverObjects sublink' _ _) _ => sublink' = sublink
  | .message (.bypassPeerWithLink _ newSublink _ _) _ => newSublink = sublink
  | _ => False

/-- The message bypasses the peer of a sublink. -/
def Bypasses (sublink : UInt64) : Arrival → Prop
  | .message (.bypassPeerWithLink sublink' _ _ _) _ => sublink' = sublink
  | _ => False

/-- The message closes or disconnects the route of a sublink. -/
def Closes (sublink : UInt64) : Arrival → Prop
  | .message (.routeClosed sublink' _) _ => sublink' = sublink
  | .message (.routeDisconnected sublink') _ => sublink' = sublink
  | _ => False

end Arrival

/-- One step that an arrival can take. -/
inductive Effect (a : Arrival) : Acceptor → Acceptor → Prop
  | quiet {s s' : Acceptor} : s'.routers = s.routers → s'.pendingSplit = s.pendingSplit →
      Effect a s s'
  | pending {s : Acceptor} {key : UInt64 × UInt64} (half : Option SplitHalf) : a.Concerns key →
      Effect a s (s.setPendingSplit key half)
  | accepts {s : Acceptor} {sublink : UInt64} {r : Router} (message : Message) :
      a.DeliversOver sublink → s.routers sublink = some r →
      Effect a s (s.setRouter sublink (r.accept sublink message))
  | edges {s : Acceptor} {sublink : UInt64} {r : Router} (primary : LinkEdge)
      (decaying : Option LinkEdge) : a.Bypasses sublink → s.routers sublink = some r →
      Effect a s (s.setRouter sublink { r with primary, decaying })
  | closes {s : Acceptor} {sublink : UInt64} {r : Router} : a.Closes sublink →
      s.routers sublink = some r → Effect a s (s.setRouter sublink { r with closed := true })
  | takes {s : Acceptor} {sublink : UInt64} {r : Router} : s.routers sublink = some r →
      Effect a s (s.setRouter sublink { r with portal := r.portal.map (·.pop) })

/-- Any number of such steps. -/
def Effects (a : Arrival) : Acceptor → Acceptor → Prop := Relation.ReflTransGen (Effect a)

section Handlers

variable {a : Arrival} {sublink : UInt64}

instance : Std.Refl (Effects a) := ⟨fun _ => .refl⟩

instance : IsTrans Acceptor (Effects a) := ⟨fun _ _ _ h h' => h.trans h'⟩

theorem quiet {s s' : Acceptor} (hrouters : s'.routers = s.routers)
    (hpending : s'.pendingSplit = s.pendingSplit) : Effects a s s' :=
  .single (.quiet hrouters hpending)

theorem memory_effects : Maintains (Effects a) memory := by
  unfold memory
  apply keeps_get_bind
  intro s
  split
  · exact quiet rfl rfl
  · exact quiet rfl rfl

theorem fromExcept_effects {α : Type} (x : Except Error α) :
    Maintains (Effects a) (fromExcept x) := by
  cases x with
  | error e => exact keeps_throw e
  | ok b => exact keeps_pure b

theorem parcelData_effects (p : AcceptParcel) : Maintains (Effects a) (parcelData p) := by
  unfold parcelData
  split
  · exact keeps_pure _
  apply memory_effects.bind
  intro reg
  apply keeps_get_bind
  intro s
  split
  · exact quiet rfl rfl
  · exact quiet rfl rfl

theorem deliverParcel_effects (h : a.DeliversOver sublink) (n : Nat) (data : List UInt8)
    (objects : List OwnedFd) : Maintains (Effects a) (deliverParcel sublink n data objects) := by
  intro s
  cases hrouter : s.routers sublink with
  | none =>
      rw [deliverParcel_early hrouter]
      exact quiet rfl rfl
  | some router =>
      by_cases hn : n = router.inboundSeq
      · subst hn
        obtain ⟨replyReady, hrun⟩ := deliverParcel_next hrouter data objects
        rw [hrun]
        exact .tail (.single (.accepts (data, objects) h hrouter)) (.quiet rfl rfl)
      · unfold deliverParcel
        rw [run_get_bind, hrouter]
        dsimp only
        rw [if_pos hn]
        exact quiet rfl rfl

theorem setPendingSplit_effects {key : UInt64 × UInt64} (h : a.Concerns key)
    (half : Option SplitHalf) :
    Maintains (Effects a) (modify (·.setPendingSplit key half) : DispatchM Unit) :=
  keeps_modify fun _ => .single (.pending half h)

theorem onAcceptParcel_effects {p : AcceptParcel} (hkey : a.Concerns (p.sublink, p.sequenceNumber))
    (hover : a.DeliversOver p.sublink) (fds : List OwnedFd) :
    Maintains (Effects a) (onAcceptParcel p fds) := by
  unfold onAcceptParcel
  dsimp only
  split
  · exact keeps_throw_bind _ _
  split
  · exact keeps_throw_bind _ _
  apply (parcelData_effects p).bind
  intro data
  apply (fromExcept_effects _).bind
  rintro ⟨objects, unclaimed, isSplit⟩
  dsimp only
  split
  · exact keeps_throw_bind _ _
  split
  · exact setPendingSplit_effects hkey _
  · exact deliverParcel_effects hover _ _ _

theorem onAcceptParcelObjects_effects {n : UInt64} (hkey : a.Concerns (sublink, n))
    (hover : a.DeliversOver sublink) (driverObjects : List DriverObjectRef) (fds : List OwnedFd) :
    Maintains (Effects a) (onAcceptParcelObjects sublink n driverObjects fds) := by
  unfold onAcceptParcelObjects
  apply (fromExcept_effects _).bind
  intro objects
  refine Maintains.bind keeps_get fun s => ?_
  apply (setPendingSplit_effects hkey none).bind
  intro _
  split
  · dsimp only
    split
    · exact keeps_throw_bind _ _
    · exact deliverParcel_effects hover _ _ _
  · exact keeps_throw _
  · exact setPendingSplit_effects hkey _

/-- Sending leaves the routers and the halves of parcels alone. -/
theorem sendLinkMessage_same (msg : DecodedMessage) :
    Maintains (fun s s' => s'.routers = s.routers ∧ s'.pendingSplit = s.pendingSplit)
      (sendLinkMessage msg) := by
  intro s
  unfold sendLinkMessage
  rw [run_get_bind]
  split_ifs
  · exact ⟨rfl, rfl⟩
  · exact ⟨rfl, rfl⟩

theorem setSideBStable_effects (desc : FragmentDescriptor) :
    Maintains (Effects a) (setSideBStable desc) := by
  unfold setSideBStable
  apply memory_effects.bind
  intro reg
  dsimp only
  split
  · exact keeps_throw_bind _ _
  split
  · exact keeps_throw _
  · exact keeps_modify fun s => quiet rfl rfl

/-- The end of a bypass: the early parcels of the new sublink. -/
theorem drain_effects {newSublink : UInt64} (h : a.DeliversOver newSublink) :
    Maintains (Effects a) (do
      let queued := (← get).earlyParcels newSublink
      modify fun s => { s with earlyParcels := update s.earlyParcels newSublink [] }
      queued.forM fun (data, objects) => deliverParcel newSublink 0 data objects : DispatchM Unit) := by
  refine Maintains.bind keeps_get fun s => ?_
  refine Maintains.bind (keeps_modify fun s => quiet rfl rfl) fun _ => ?_
  exact keeps_forM fun message _ => deliverParcel_effects h _ _ _

theorem onBypassPeerWithLink_effects (hbypass : a.Bypasses sublink) {newSublink : UInt64}
    (hover : a.DeliversOver newSublink) (desc : FragmentDescriptor) (n : UInt64) :
    Maintains (Effects a) (onBypassPeerWithLink sublink newSublink desc n) := by
  unfold onBypassPeerWithLink
  dsimp only
  split
  · exact keeps_throw_bind _ _
  apply memory_effects.bind
  intro reg
  split
  · exact keeps_throw_bind _ _
  apply keeps_get_bind
  intro s
  cases hrouter : s.routers sublink with
  | none => exact quiet rfl rfl
  | some router =>
      dsimp only
      have hfirst : Effects a s (s.setRouter sublink (router.bypassed newSublink desc)) :=
        .single (.edges ⟨newSublink, desc⟩ (some router.primary) hbypass hrouter)
      refine hfirst.trans ?_
      -- the peer is told before the link may have decayed
      show Effects a _ (endState (EStateM.run (sendLinkMessage _ >>= _) _))
      have hsame := sendLinkMessage_same (.stopProxyingToLocalPeer router.primary.sublink
        (.ofNat router.outboundSeq)) (s.setRouter sublink (router.bypassed newSublink desc))
      rw [EStateM.run_bind]
      cases hsend : (sendLinkMessage (.stopProxyingToLocalPeer router.primary.sublink
          (.ofNat router.outboundSeq))).run
          (s.setRouter sublink (router.bypassed newSublink desc)) with
      | error e s' =>
          rw [hsend] at hsame
          exact quiet hsame.1 hsame.2
      | ok u s' =>
          rw [hsend] at hsame
          obtain ⟨hrouters, hpending⟩ := hsame
          have hbypassed : s'.routers sublink = some (router.bypassed newSublink desc) := by
            change s'.routers = _ at hrouters
            rw [hrouters]
            exact setRouter_self ..
          refine (quiet hrouters hpending).trans ?_
          dsimp only
          split
          · have hdecayed : Effects a s' (s'.setRouter sublink
                { router.bypassed newSublink desc with decaying := none }) :=
              .single (.edges ⟨newSublink, desc⟩ none hbypass hbypassed)
            refine hdecayed.trans ?_
            exact (setSideBStable_effects desc).bind (fun _ => drain_effects hover) _
          · exact drain_effects hover s'

theorem onRouteClosed_effects (h : a.Closes sublink) : Maintains (Effects a) (onRouteClosed sublink) := by
  unfold onRouteClosed
  apply keeps_get_bind
  intro s
  split
  · exact quiet rfl rfl
  next router hrouter => exact .single (.closes h hrouter)

theorem onAddBlockBuffer_effects (bufferId : UInt64) (blockSize bufferIndex : UInt32)
    (fds : List OwnedFd) :
    Maintains (Effects a) (onAddBlockBuffer bufferId blockSize bufferIndex fds) := by
  unfold onAddBlockBuffer
  split
  · exact keeps_throw _
  apply memory_effects.bind
  intro reg
  split
  · exact keeps_throw _
  · exact keeps_modify fun s => quiet rfl rfl

/-- Whatever arrives, and wherever its handler fails. -/
theorem arrive_effects (a : Arrival) : Maintains (Effects a) (arrive a) := by
  cases a with
  | written shared => exact keeps_modify fun s => quiet rfl rfl
  | taken sublink =>
      show Maintains _ (takeMessage sublink)
      unfold takeMessage
      apply keeps_get_bind
      intro s
      split
      · exact quiet rfl rfl
      next router hrouter => exact .single (.takes hrouter)
  | message msg fds =>
      cases msg with
      | acceptParcel p =>
          apply onAcceptParcel_effects
          · exact rfl
          · exact rfl
      | acceptParcelDriverObjects sublink n driverObjects =>
          apply onAcceptParcelObjects_effects
          · exact rfl
          · exact rfl
      | addBlockBuffer bufferId blockSize bufferIndex =>
          exact onAddBlockBuffer_effects bufferId blockSize bufferIndex fds
      | routeClosed sublink n => exact onRouteClosed_effects rfl
      | routeDisconnected sublink => exact onRouteClosed_effects rfl
      | bypassPeerWithLink sublink newSublink desc n =>
          apply onBypassPeerWithLink_effects
          · exact rfl
          · exact rfl
      | stopProxyingToLocalPeer => exact keeps_pure _
      | flushRouter => exact keeps_pure _
      | _ => exact keeps_throw _

/-- What every such step keeps, an arrival keeps. -/
theorem maintains_of_effect {R : Acceptor → Acceptor → Prop} [Std.Refl R] [IsTrans Acceptor R]
    (h : ∀ s s', Effect a s s' → R s s') : Maintains R (arrive a) := by
  refine Maintains.mono (arrive_effects a) fun s s' heffects => ?_
  induction heffects with
  | refl => exact Std.Refl.refl s
  | tail _ hstep ih => exact IsTrans.trans _ _ _ ih (h _ _ hstep)

end Handlers

end Acceptor

end MojoRs.Ipcz
