/-
MojoRs/Ipcz/NodeFrames.lean

What the small operations of a node leave alone.  Most of them work on the
memory of a link or on the owners of sublinks only: `Quiet` says that the
routers, the counter of their identities, the channels, the requests for
introductions and what was noted are as they were.

Main results: the `_quiet` lemmas.
-/
import MojoRs.Ipcz.LinkLocks
import MojoRs.Ipcz.RouterFlush

namespace MojoRs.Ipcz

open Function (update)
open Lib

/-- The routers, their counter, the channels, the requests for introductions and
the ghosts are as before. -/
structure RouteTables.Quiet (s s' : RouteTables) : Prop where
  routers : s'.routers = s.routers
  channels : s'.channels = s.channels
  nextRid : s'.nextRid = s.nextRid
  introductions : s'.pendingIntroductions = s.pendingIntroductions
  serialized : s'.serialized = s.serialized
  history : s'.history = s.history

namespace RouteTables

instance : Std.Refl Quiet := ⟨fun _ => ⟨rfl, rfl, rfl, rfl, rfl, rfl⟩⟩

instance : IsTrans RouteTables Quiet :=
  ⟨fun _ _ _ h h' => ⟨h'.routers.trans h.routers, h'.channels.trans h.channels,
    h'.nextRid.trans h.nextRid, h'.introductions.trans h.introductions,
    h'.serialized.trans h.serialized, h'.history.trans h.history⟩⟩

end RouteTables

open RouteTables

variable {info : NodeInfo} {rid : Nat}

/-! ### Memory of a link -/

theorem allocateSublinkIds_quiet (linkId count : Nat) :
    Maintains Quiet (allocateSublinkIds info linkId count) := by
  unfold allocateSublinkIds
  refine Maintains.bind (memoryFor_keeps linkId) fun _ => ?_
  exact keeps_get_bind fun s => ⟨rfl, rfl, rfl, rfl, rfl, rfl⟩

theorem tryAllocateLinkState_quiet (linkId : Nat) :
    Maintains Quiet (tryAllocateLinkState info linkId) := by
  unfold tryAllocateLinkState
  refine Maintains.bind (memoryFor_keeps linkId) fun reg => ?_
  apply keeps_get_bind
  intro s
  cases (s.memories linkId).tryAllocateLinkState reg with
  | none => exact Std.Refl.refl s
  | some block => exact ⟨rfl, rfl, rfl, rfl, rfl, rfl⟩

theorem addLinkStateRef_quiet (linkId : Nat) (desc : FragmentDescriptor) :
    Maintains Quiet (addLinkStateRef info linkId desc) := by
  unfold addLinkStateRef
  refine Maintains.bind (memoryFor_keeps linkId) fun _ => ?_
  refine Maintains.bind (liftMemory_keeps _) fun _ => ?_
  exact keeps_modify fun s => ⟨rfl, rfl, rfl, rfl, rfl, rfl⟩

theorem releaseLinkState_quiet (l : Link) : Maintains Quiet (releaseLinkState info l) := by
  unfold releaseLinkState
  cases l.linkState with
  | none => exact keeps_pure _
  | some state =>
      dsimp only
      split_ifs
      · refine Maintains.bind (memoryFor_keeps _) fun reg => ?_
        refine Maintains.bind (liftMemory_keeps _) fun _ => ?_
        apply keeps_get_bind
        intro s
        refine Maintains.bind (keeps_modify fun _ => ⟨rfl, rfl, rfl, rfl, rfl, rfl⟩) (fun _ => ?_) s
        split_ifs
        · apply keeps_get_bind
          intro s
          refine Maintains.bind (keeps_modify fun _ => ⟨rfl, rfl, rfl, rfl, rfl, rfl⟩) (fun _ => ?_) s
          split_ifs
          · exact keeps_throw _
          · exact keeps_pure _
        · exact keeps_pure _
      · exact keeps_pure _

theorem ignoreError_keeps {R : RouteTables → RouteTables → Prop} {x : RouteM Unit}
    (h : Maintains R x) : Maintains R (ignoreError x) := by
  intro s
  have hx := h s
  unfold ignoreError
  cases hrun : x s with
  | ok a s' => simpa [EStateM.run, hrun, endState] using hx
  | error e s' => simpa [EStateM.run, hrun, endState] using hx

/-! ### Status words -/

theorem onLinkStatus_quiet {α : Type} (linkId : Nat) (desc : FragmentDescriptor)
    (f : LinkStatus → α × LinkStatus) : Maintains Quiet (onLinkStatus info linkId desc f) := by
  unfold onLinkStatus
  refine Maintains.bind (memoryFor_keeps linkId) fun _ => ?_
  refine Maintains.bind (liftMemory_keeps _) fun _ => ?_
  exact keeps_get_bind fun s => ⟨rfl, rfl, rfl, rfl, rfl, rfl⟩

theorem onLocalStatus_quiet {α : Type} (cell : Nat) (f : LinkStatus → α × LinkStatus) :
    Maintains Quiet (onLocalStatus cell f) := fun _ => ⟨rfl, rfl, rfl, rfl, rfl, rfl⟩

theorem markSideStableOnLink_quiet (l : Link) : Maintains Quiet (markSideStableOnLink info l) := by
  unfold markSideStableOnLink
  cases l.localState with
  | none =>
      cases l.linkState with
      | none => exact keeps_pure _
      | some desc => exact (onLinkStatus_quiet _ _ _).bind fun _ => keeps_pure _
  | some n =>
      cases l.linkState with
      | none => exact onLocalStatus_quiet _ _
      | some desc => exact (onLinkStatus_quiet _ _ _).bind fun _ => onLocalStatus_quiet _ _

theorem tryLockLinkForClosure_quiet (l : Link) : Maintains Quiet (tryLockLinkForClosure info l) := by
  unfold tryLockLinkForClosure
  split
  · exact onLinkStatus_quiet _ _ _
  · exact onLocalStatus_quiet _ _
  · exact keeps_pure _

theorem writeAllowedBypassSource_quiet (linkId : Nat) (desc : FragmentDescriptor)
    (source : NodeName) : Maintains Quiet (writeAllowedBypassSource info linkId desc source) := by
  unfold writeAllowedBypassSource
  refine Maintains.bind (memoryFor_keeps linkId) fun _ => ?_
  refine Maintains.bind (liftMemory_keeps _) fun _ => ?_
  dsimp only
  split_ifs
  · exact keeps_throw_bind _ _
  · exact keeps_modify fun _ => ⟨rfl, rfl, rfl, rfl, rfl, rfl⟩

theorem tryLockLinkForBypass_quiet (l : Link) (source : NodeName) :
    Maintains Quiet (tryLockLinkForBypass info l source) := by
  unfold tryLockLinkForBypass
  split
  · refine Maintains.bind (onLinkStatus_quiet _ _ _) fun locked => ?_
    split_ifs
    · exact (writeAllowedBypassSource_quiet _ _ _).bind fun _ => keeps_pure _
    · exact keeps_pure _
  · refine Maintains.bind (onLocalStatus_quiet _ _) fun locked => ?_
    split_ifs
    · exact Maintains.bind (keeps_modify fun _ => ⟨rfl, rfl, rfl, rfl, rfl, rfl⟩) fun _ => keeps_pure _
    · exact keeps_pure _
  · exact keeps_pure _

theorem unlockLinkForBypass_quiet (l : Link) : Maintains Quiet (unlockLinkForBypass info l) := by
  unfold unlockLinkForBypass
  cases l.localState with
  | none =>
      cases l.linkState with
      | none => exact keeps_pure _
      | some desc => exact (onLinkStatus_quiet _ _ _).bind fun _ => keeps_pure _
  | some n =>
      cases l.linkState with
      | none => exact onLocalStatus_quiet _ _
      | some desc => exact (onLinkStatus_quiet _ _ _).bind fun _ => onLocalStatus_quiet _ _

theorem markProxyStable_quiet (outward inward : Edge) :
    Maintains Quiet (markProxyStable info outward inward) := by
  unfold markProxyStable
  split
  · exact keeps_pure _
  · split_ifs
    · split
      · exact keeps_pure _
      · exact onLinkStatus_quiet _ _ _
    · exact keeps_pure _

/-! ### Owners and local links -/

theorem insertOwner_quiet (linkId sublink rid : Nat) :
    Maintains Quiet (insertOwner linkId sublink rid) :=
  keeps_modify fun _ => ⟨rfl, rfl, rfl, rfl, rfl, rfl⟩

theorem newLocalPair_quiet (kind : LinkKind) (side : LinkSide) (a b : Nat) (stable : Bool) :
    Maintains Quiet (newLocalPair kind side a b stable) := fun _ => ⟨rfl, rfl, rfl, rfl, rfl, rfl⟩

theorem peerNodeOf_quiet (l : Link) : Maintains Quiet (peerNodeOf info l) := by
  unfold peerNodeOf
  split_ifs
  · exact keeps_pure _
  · exact remoteNameFor_keeps _

end MojoRs.Ipcz
