/-
MojoRs/Ipcz/Acceptor.lean

The acceptor (`acceptor.rs`): a node with one link, to its broker, and one
portal, on sublink 1.  Unlike the routing acceptor of `Dispatch` it has no
proxies: a router is found under the sublink it started on, and a bypass gives
it a second link.

A message is dispatched in `DispatchM`.  An error ends the run of the
acceptor, and leaves what was done before it.  What the application has taken
from a portal is kept in `taken`, which the source has no need of.
-/
import MojoRs.Lib.Effect
import MojoRs.Ipcz.LinkMemory
import MojoRs.Ipcz.Node

namespace MojoRs.Ipcz

open Lib
open Function (update)

namespace Acceptor

/-! ### Data -/

/-- `AcceptorError`. -/
inductive Error
  | channel
  | linkMemory (e : LinkMemoryError)
  | unexpected (m : String)
  | unsupported (id : UInt8) (m : String)
  | badParcel (m : String)
  | io (m : String)
  deriving DecidableEq, Repr

/-- A delivered message: payload bytes and extracted descriptors. -/
abbrev Message := List UInt8 × List OwnedFd

/-- `Portal`. -/
structure Portal where
  messages : List Message
  taken : List Message
  deriving DecidableEq, Repr

/-- Everything that was ever delivered to a portal. -/
def Portal.delivered (p : Portal) : List Message := p.taken ++ p.messages

/-- `LinkEdge`. -/
structure LinkEdge where
  sublink : UInt64
  linkState : FragmentDescriptor
  deriving DecidableEq, Repr

/-- `Router`. -/
structure Router where
  portal : Option Portal
  primary : LinkEdge
  decaying : Option LinkEdge
  outboundSeq : Nat
  inboundSeq : Nat
  inboundByEdge : UInt64 → Nat
  closed : Bool

/-- `SplitHalf`. -/
inductive SplitHalf
  | data (parcel : AcceptParcel)
  | objects (driverObjects : List DriverObjectRef)
  deriving DecidableEq, Repr

end Acceptor

/-- `Acceptor`, what lies in the memory it shares with the broker, and whether
the broker has dropped the channel. -/
structure Acceptor where
  linkMemory : Option BufferRegistry
  shared : SharedMemory
  nextLinkSeq : Nat
  routers : UInt64 → Option Acceptor.Router
  earlyParcels : UInt64 → List Acceptor.Message
  pendingSplit : UInt64 × UInt64 → Option Acceptor.SplitHalf
  bootstrapSublink : UInt64
  replyReady : Bool
  sent : List (Nat × DecodedMessage)
  broken : Bool

namespace Acceptor

/-- The dispatcher over the acceptor's state. -/
abbrev DispatchM := EStateM Error Acceptor

/-- `?` on a result that needs no state. -/
def fromExcept {α : Type} : Except Error α → DispatchM α
  | .ok a => pure a
  | .error e => throw e

/-! ### Initial portals -/

/-- The link state block of initial portal `i`. -/
def initialLinkState (i : Nat) : FragmentDescriptor :=
  ⟨primaryBufferId, .ofNat (initialLinkStatesOffset + i * routerLinkStateSize),
    .ofNat routerLinkStateSize⟩

/-- The router of initial portal `i`, where the broker has `brokerPortals`. -/
def initialRouter (brokerPortals i : Nat) : Router where
  portal := if i = 1 ∧ i < brokerPortals then some ⟨[], []⟩ else none
  primary := ⟨.ofNat i, initialLinkState i⟩
  decaying := none
  outboundSeq := 0
  inboundSeq := 0
  inboundByEdge := fun _ => 0
  closed := i > 1 || brokerPortals ≤ i

/-- After the handshake. -/
def connected (brokerPortals : Nat) (linkMemory : BufferRegistry) (shared : SharedMemory) :
    Acceptor where
  linkMemory := some linkMemory
  shared := shared
  nextLinkSeq := 0
  routers sublink :=
    if sublink.toNat < maxInitialPortals then some (initialRouter brokerPortals sublink.toNat)
    else none
  earlyParcels := fun _ => []
  pendingSplit := fun _ => none
  bootstrapSublink := 1
  replyReady := false
  sent := []
  broken := false

/-! ### Small steps -/

/-- `memory`, `memory_mut`. -/
def memory : DispatchM BufferRegistry := do
  match (← get).linkMemory with
  | some reg => pure reg
  | none => throw (.unexpected "link memory not established")

/-- `send_link_message`. -/
def sendLinkMessage (msg : DecodedMessage) : DispatchM Unit := do
  let s ← get
  set { s with nextLinkSeq := s.nextLinkSeq + 1 }
  if s.broken then throw .channel
  modify fun s' => { s' with sent := s'.sent ++ [(s.nextLinkSeq, msg)] }

/-- Change the router of a sublink. -/
def setRouter (s : Acceptor) (sublink : UInt64) (r : Router) : Acceptor :=
  { s with routers := update s.routers sublink (some r) }

/-- Keep or drop the half of a split parcel. -/
def setPendingSplit (s : Acceptor) (key : UInt64 × UInt64) (half : Option SplitHalf) : Acceptor :=
  { s with pendingSplit := update s.pendingSplit key half }

/-- `unwrap_wrapped_platform_handle`. -/
def unwrapWrappedPlatformHandle (obj : DriverObjectRef) (fds : List OwnedFd) :
    Except Error OwnedFd :=
  if obj.numFds ≠ 1 then .error (.badParcel "wrapped handle must carry one fd")
  else match fds[obj.firstFd]? with
  | none => .error (.badParcel "driver object fd out of range")
  | some fd =>
      if obj.data.length < 16 then .error (.badParcel "truncated wrapped handle")
      else if getU32 obj.data 0 ≠ 8 ∨ getU32 obj.data 4 ≠ 4 then
        .error (.badParcel "driver object is not a WrappedPlatformHandle")
      else
        let wrapperSize := (getU32 obj.data 8).toNat
        if wrapperSize < 8 ∨ wrapperSize % 8 ≠ 0 ∨ getU32 obj.data 12 ≠ 0 then
          .error (.badParcel "bad WrappedPlatformHandle header")
        else .ok fd

/-! ### Parcels -/

/-- The data of a parcel, from its fragment or inline. -/
def parcelData (p : AcceptParcel) : DispatchM (List UInt8) :=
  if p.parcelFragment.isNull then pure p.parcelData
  else do
    let reg ← memory
    match (← get).shared.readParcelFragment reg p.parcelFragment with
    | .ok data => pure data
    | .error e => throw (.linkMemory e)

/-- The loop over the handle types: the descriptors of the boxed objects, the
driver objects left over, and whether the parcel is split. -/
def claimObjects (fds : List OwnedFd) : List UInt32 → List DriverObjectRef →
    Except Error (List OwnedFd × List DriverObjectRef × Bool)
  | [], refs => .ok ([], refs, false)
  | ht :: handleTypes, refs =>
      if ht = handleTypeBoxedDriverObject then
        match refs with
        | [] => .error (.badParcel "missing driver object")
        | obj :: refs => do
            let fd ← unwrapWrappedPlatformHandle obj fds
            let (objects, rest) ← claimObjects fds handleTypes refs
            .ok (fd :: objects, rest)
      else if ht = handleTypeRelayedBoxedDriverObject then do
        let (objects, refs, _) ← claimObjects fds handleTypes refs
        .ok (objects, refs, true)
      else if ht = handleTypePortal then
        .error (.unsupported msgIdAcceptParcel "portal transfer (kPortal) not supported")
      else .error (.badParcel "unknown handle type")

/-- `messages.push_back`. -/
def Portal.push (p : Portal) (message : Message) : Portal :=
  { p with messages := p.messages ++ [message] }

/-- A router that has delivered its next parcel, which came over `sublink`. -/
def Router.accept (r : Router) (sublink : UInt64) (message : Message) : Router :=
  { r with
    portal := r.portal.map (·.push message)
    inboundSeq := r.inboundSeq + 1
    inboundByEdge := update r.inboundByEdge sublink (r.inboundByEdge sublink + 1) }

/-- `deliver_parcel`. -/
def deliverParcel (sublink : UInt64) (sequenceNumber : Nat) (data : List UInt8)
    (objects : List OwnedFd) : DispatchM Unit := do
  let s ← get
  match s.routers sublink with
  | some router =>
      if sequenceNumber ≠ router.inboundSeq then
        throw (.badParcel "route sequence gap or duplicate")
      set (s.setRouter sublink (router.accept sublink (data, objects)))
      if router.portal.isSome && sublink == s.bootstrapSublink then
        modify fun s => { s with replyReady := true }
  | none =>
      set { s with
        earlyParcels :=
          update s.earlyParcels sublink (s.earlyParcels sublink ++ [(data, objects)]) }

/-- `on_accept_parcel`. -/
def onAcceptParcel (p : AcceptParcel) (fds : List OwnedFd) : DispatchM Unit := do
  if p.numSubparcels = 0 ∨ p.numSubparcels ≤ p.subparcelIndex ∨ 16 < p.numSubparcels then
    throw (.badParcel "invalid subparcel bounds")
  if 1 < p.numSubparcels then
    throw (.unsupported msgIdAcceptParcel "multi-subparcel parcels not supported")
  let data ← parcelData p
  let (objects, unclaimed, isSplit) ← fromExcept (claimObjects fds p.handleTypes p.driverObjects)
  if !unclaimed.isEmpty then throw (.badParcel "unclaimed driver objects")
  if isSplit then
    modify (·.setPendingSplit (p.sublink, p.sequenceNumber) (some (.data p)))
  else deliverParcel p.sublink p.sequenceNumber.toNat data objects

/-- `on_accept_parcel_objects`. -/
def onAcceptParcelObjects (sublink sequenceNumber : UInt64)
    (driverObjects : List DriverObjectRef) (fds : List OwnedFd) : DispatchM Unit := do
  let key := (sublink, sequenceNumber)
  let objects ← fromExcept (driverObjects.mapM fun obj => unwrapWrappedPlatformHandle obj fds)
  let pending := (← get).pendingSplit key
  modify (·.setPendingSplit key none)
  match pending with
  | some (.data parcel) =>
      if parcel.handleTypes.count handleTypeRelayedBoxedDriverObject ≠ objects.length then
        throw (.badParcel "split parcel object count mismatch")
      deliverParcel sublink sequenceNumber.toNat parcel.parcelData objects
  | some (.objects _) => throw (.badParcel "duplicate split parcel objects")
  | none => modify (·.setPendingSplit key (some (.objects driverObjects)))

/-! ### Bypasses -/

/-- `set_link_status_bits` with the stable bit of side B. -/
def setSideBStable (desc : FragmentDescriptor) : DispatchM Unit := do
  let reg ← memory
  if desc.size.toNat < routerLinkStateSize then throw (.linkMemory .outOfBounds)
  match reg.fragment desc with
  | .error e => throw (.linkMemory e)
  | .ok _ => modify fun s => { s with
      shared := (s.shared.onStatus desc fun status => ((), status.setSideStable .b)).2 }

/-- The new edge of a bypassed router, which keeps its place in the map. -/
def Router.bypassed (r : Router) (newSublink : UInt64) (linkState : FragmentDescriptor) : Router :=
  { r with decaying := some r.primary, primary := ⟨newSublink, linkState⟩ }

/-- `on_bypass_peer_with_link`. -/
def onBypassPeerWithLink (sublink newSublink : UInt64) (newLinkStateFragment : FragmentDescriptor)
    (inboundSequenceLength : UInt64) : DispatchM Unit := do
  if newLinkStateFragment.isNull then throw (.badParcel "bypass with null link state")
  let reg ← memory
  match reg.fragment newLinkStateFragment with
  | .error _ => throw (.badParcel "bypass link state unresolvable")
  | .ok _ => pure ()
  match (← get).routers sublink with
  | none => throw (.badParcel "bypass for unknown sublink")
  | some router =>
      modify (·.setRouter sublink (router.bypassed newSublink newLinkStateFragment))
      sendLinkMessage (.stopProxyingToLocalPeer router.primary.sublink (.ofNat router.outboundSeq))
      if inboundSequenceLength.toNat ≤ router.inboundByEdge router.primary.sublink then
        modify (·.setRouter sublink
          { router.bypassed newSublink newLinkStateFragment with decaying := none })
        setSideBStable newLinkStateFragment
      let queued := (← get).earlyParcels newSublink
      modify fun s => { s with earlyParcels := update s.earlyParcels newSublink [] }
      queued.forM fun (data, objects) => deliverParcel newSublink 0 data objects

/-- `RouteClosed` and `RouteDisconnected` in `dispatch`. -/
def onRouteClosed (sublink : UInt64) : DispatchM Unit := do
  match (← get).routers sublink with
  | none => pure ()
  | some router => modify (·.setRouter sublink { router with closed := true })

/-- `AddBlockBuffer` in `dispatch`. -/
def onAddBlockBuffer (bufferId : UInt64) (blockSize bufferIndex : UInt32) (fds : List OwnedFd) :
    DispatchM Unit := do
  match fds[bufferIndex.toNat]? with
  | none => throw (.unexpected "AddBlockBuffer index out of range")
  | some fd =>
      let reg ← memory
      match reg.addBlockBuffer bufferId fd.size blockSize.toNat with
      | .error e => throw (.io e)
      | .ok reg => modify fun s => { s with linkMemory := some reg }

/-! ### Dispatch -/

/-- `dispatch`, for a decoded message. -/
def dispatch (msg : DecodedMessage) (fds : List OwnedFd) : DispatchM Unit :=
  match msg with
  | .connectFromBrokerToNonBroker .. => throw (.unexpected "Connect received after handshake")
  | .connectFromNonBrokerToBroker .. =>
      throw (.unexpected "Connect reply received from broker")
  | .referNonBroker .. =>
      throw (.unsupported msgIdReferNonBroker "referral not supported by the Phase 3 acceptor")
  | .connectToReferredBroker .. =>
      throw (.unsupported msgIdConnectToReferredBroker
        "referred-node connect not supported by the Phase 3 acceptor")
  | .connectToReferredNonBroker .. =>
      throw (.unsupported msgIdConnectToReferredNonBroker
        "referral acceptance not supported by the Phase 3 acceptor")
  | .nonBrokerReferralAccepted .. =>
      throw (.unsupported msgIdNonBrokerReferralAccepted
        "referral acceptance not supported by the Phase 3 acceptor")
  | .nonBrokerReferralRejected .. =>
      throw (.unsupported msgIdNonBrokerReferralRejected
        "referral rejection not supported by the Phase 3 acceptor")
  | .connectFromBrokerToBroker .. =>
      throw (.unsupported msgIdConnectFromBrokerToBroker
        "broker-to-broker connect not supported by the Phase 3 acceptor")
  | .requestIntroduction .. =>
      throw (.unsupported msgIdRequestIntroduction
        "introduction request not supported by the Phase 3 acceptor")
  | .acceptIntroduction .. =>
      throw (.unsupported msgIdAcceptIntroduction
        "introduction not supported by the Phase 3 acceptor")
  | .rejectIntroduction .. =>
      throw (.unsupported msgIdRejectIntroduction
        "introduction rejection not supported by the Phase 3 acceptor")
  | .requestIndirectIntroduction .. =>
      throw (.unsupported msgIdRequestIndirectIntroduction
        "indirect introduction not supported by the Phase 3 acceptor")
  | .addBlockBuffer bufferId blockSize bufferIndex =>
      onAddBlockBuffer bufferId blockSize bufferIndex fds
  | .acceptParcel p => onAcceptParcel p fds
  | .acceptParcelDriverObjects sublink sequenceNumber driverObjects =>
      onAcceptParcelObjects sublink sequenceNumber driverObjects fds
  | .routeClosed sublink _ => onRouteClosed sublink
  | .routeDisconnected sublink => onRouteClosed sublink
  | .bypassPeerWithLink sublink newSublink newLinkStateFragment inboundSequenceLength =>
      onBypassPeerWithLink sublink newSublink newLinkStateFragment inboundSequenceLength
  | .stopProxyingToLocalPeer .. => pure ()
  | .flushRouter .. => pure ()
  | .bypassPeer .. =>
      throw (.unsupported msgIdBypassPeer "BypassPeer not supported by the Phase 3 acceptor")
  | .acceptBypassLink .. =>
      throw (.unsupported msgIdAcceptBypassLink
        "AcceptBypassLink not supported by the Phase 3 acceptor")
  | .stopProxying .. =>
      throw (.unsupported msgIdStopProxying "StopProxying not supported by the Phase 3 acceptor")
  | .proxyWillStop .. =>
      throw (.unsupported msgIdProxyWillStop
        "ProxyWillStop not supported by the Phase 3 acceptor")
  | .requestMemory .. =>
      throw (.unsupported msgIdRequestMemory
        "RequestMemory not supported by the Phase 3 acceptor")
  | .provideMemory .. =>
      throw (.unsupported msgIdProvideMemory
        "ProvideMemory not supported by the Phase 3 acceptor")
  | .unknown id => throw (.unsupported id "message type not decoded by the interop layer")

/-! ### What happens to an acceptor -/

/-- A message arrives, the broker writes to the shared memory, or the
application takes the first message of a portal. -/
inductive Arrival
  | message (msg : DecodedMessage) (fds : List OwnedFd)
  | written (shared : SharedMemory)
  | taken (sublink : UInt64)

/-- `Portal::pop`. -/
def Portal.pop (p : Portal) : Portal := ⟨p.messages.drop 1, p.taken ++ p.messages.take 1⟩

/-- The application takes the first message of a portal. -/
def takeMessage (sublink : UInt64) : DispatchM Unit := do
  match (← get).routers sublink with
  | none => pure ()
  | some router => modify (·.setRouter sublink { router with portal := router.portal.map (·.pop) })

/-- One arrival at the node. -/
def arrive : Arrival → DispatchM Unit
  | .message msg fds => dispatch msg fds
  | .written shared => modify fun s => { s with shared }
  | .taken sublink => takeMessage sublink

@[simp] theorem Portal.push_delivered (p : Portal) (message : Message) :
    (p.push message).delivered = p.delivered ++ [message] := by
  simp [Portal.push, Portal.delivered]

@[simp] theorem Portal.pop_delivered (p : Portal) : p.pop.delivered = p.delivered := by
  show (p.taken ++ p.messages.take 1) ++ p.messages.drop 1 = _
  rw [List.append_assoc, List.take_append_drop]
  rfl

section Memory

variable {s s' : Acceptor}

theorem memory_of_some {reg : BufferRegistry} (h : s.linkMemory = some reg) :
    memory.run s = .ok reg s := by
  unfold memory
  rw [run_get_bind, h]
  rfl

theorem memory_ok {reg : BufferRegistry} (h : memory.run s = .ok reg s') :
    s.linkMemory = some reg ∧ s = s' := by
  cases hs : s.linkMemory with
  | none =>
      unfold memory at h
      rw [run_get_bind, hs] at h
      cases h
  | some reg' =>
      rw [memory_of_some hs] at h
      cases h
      exact ⟨rfl, rfl⟩

/-- Reading the data of a parcel changes nothing. -/
theorem parcelData_ok {p : AcceptParcel} {data : List UInt8}
    (h : (parcelData p).run s = .ok data s') : s = s' := by
  unfold parcelData at h
  split_ifs at h
  · exact (pure_eq_ok.mp h).2
  · obtain ⟨reg, s₁, hreg, hread⟩ := bind_eq_ok.mp h
    obtain ⟨-, rfl⟩ := memory_ok hreg
    rw [run_get_bind] at hread
    cases hdata : s.shared.readParcelFragment reg p.parcelFragment with
    | error e =>
        rw [hdata] at hread
        cases hread
    | ok data' =>
        rw [hdata] at hread
        exact (pure_eq_ok.mp hread).2

end Memory

section Deliver

variable {s : Acceptor} {sublink : UInt64} {router : Router} {data : List UInt8}
  {objects : List OwnedFd}

@[simp] theorem setRouter_self (s : Acceptor) (sublink : UInt64) (r : Router) :
    (s.setRouter sublink r).routers sublink = some r := Function.update_self ..

theorem setRouter_of_ne {sublink' : UInt64} (h : sublink' ≠ sublink) (s : Acceptor) (r : Router) :
    (s.setRouter sublink r).routers sublink' = s.routers sublink' := Function.update_of_ne h ..

/-- The next parcel of a router goes to its portal. -/
theorem deliverParcel_next (hrouter : s.routers sublink = some router) (data : List UInt8)
    (objects : List OwnedFd) :
    ∃ replyReady, (deliverParcel sublink router.inboundSeq data objects).run s =
      .ok ⟨⟩ { s.setRouter sublink (router.accept sublink (data, objects)) with replyReady } := by
  unfold deliverParcel
  rw [run_get_bind, hrouter]
  dsimp only
  rw [if_neg (not_not.mpr rfl)]
  by_cases hready : router.portal.isSome && sublink == s.bootstrapSublink
  · rw [if_pos hready]
    exact ⟨true, rfl⟩
  · rw [if_neg hready]
    exact ⟨s.replyReady, rfl⟩

/-- Where there is no router, a parcel waits. -/
theorem deliverParcel_early (hrouter : s.routers sublink = none) (n : Nat) (data : List UInt8)
    (objects : List OwnedFd) :
    (deliverParcel sublink n data objects).run s = .ok ⟨⟩ { s with
      earlyParcels := update s.earlyParcels sublink (s.earlyParcels sublink ++ [(data, objects)]) } := by
  unfold deliverParcel
  rw [run_get_bind, hrouter]
  rfl

end Deliver

end Acceptor

end MojoRs.Ipcz
