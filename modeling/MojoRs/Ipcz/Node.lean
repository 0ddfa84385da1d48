/-
MojoRs/Ipcz/Node.lean

The state of a routing node (`RoutingAcceptor` in `routing.rs`), without what
only `dispatch` keeps: the routers, the sublinks that they own, the memories
and channels of the node links.

What flushing a router reads but never writes (the links with their buffer
registries, the names of the nodes) is a value of its own, `NodeInfo`; the
rest is `RouteTables`, the state that the functions in `RouteM` thread.  A
function that fails leaves the tables as far as it had got.
-/
import MojoRs.Ipcz.Router
import MojoRs.Lib.Effect

namespace MojoRs.Ipcz

open Function (update)
open Lib

/-! ### Messages -/

/-- `RouterDescriptor`, its 64-bit numbers as naturals. -/
structure RouterDescriptor where
  closedPeerSequenceLength : Nat
  newSublink : Nat
  newLinkStateFragment : FragmentDescriptor
  newDecayingSublink : Nat
  nextOutgoingSequenceNumber : Nat
  nextIncomingSequenceNumber : Nat
  decayingIncomingSequenceLength : Nat
  peerClosed : Bool
  proxyAlreadyBypassed : Bool
  proxyPeerNodeName : NodeName
  proxyPeerSublink : Nat
  deriving DecidableEq, Repr

/-- The name of no node. -/
def NodeName.invalid : NodeName := ⟨0, 0⟩

/-- The name of some node. -/
def NodeName.isValid (n : NodeName) : Bool := n.high != 0 || n.low != 0

/-- A descriptor with all fields zero. -/
def RouterDescriptor.default : RouterDescriptor :=
  ⟨0, 0, .null, 0, 0, 0, 0, false, false, .invalid, 0⟩

/-- A decoded parcel, its 64-bit numbers as naturals and its router
descriptors decoded. -/
structure ParcelMessage where
  sublink : Nat
  sequenceNumber : Nat
  subparcelIndex : Nat
  numSubparcels : Nat
  parcelFragment : FragmentDescriptor
  parcelData : List UInt8
  handleTypes : List UInt32
  newRouters : List RouterDescriptor
  driverObjects : List DriverObjectRef
  deriving DecidableEq, Repr

/-- A portal, with a router descriptor. -/
def handleTypePortal : UInt32 := 0
/-- A boxed driver object. -/
def handleTypeBoxedDriverObject : UInt32 := 1
/-- A driver object that comes in a message of its own. -/
def handleTypeRelayedBoxedDriverObject : UInt32 := 2
/-- A boxed subparcel. -/
def handleTypeBoxedSubparcel : UInt32 := 3

/-- The messages that routing sends or acts on. -/
inductive RouteMessage
  | acceptParcel (parcel : ParcelMessage)
  | addBlockBuffer (bufferId : UInt64) (blockSize bufferIndex : Nat)
  | routeClosed (sublink sequenceLength : Nat)
  | routeDisconnected (sublink : Nat)
  | bypassPeer (sublink : Nat) (bypassTargetNode : NodeName) (bypassTargetSublink : Nat)
  | acceptBypassLink (currentPeerNode : NodeName) (currentPeerSublink
      inboundSequenceLengthFromBypassedLink newSublink : Nat)
      (newLinkStateFragment : FragmentDescriptor)
  | stopProxying (sublink inboundSequenceLength outboundSequenceLength : Nat)
  | proxyWillStop (sublink inboundSequenceLength : Nat)
  | bypassPeerWithLink (sublink newSublink : Nat) (newLinkStateFragment : FragmentDescriptor)
      (inboundSequenceLength : Nat)
  | stopProxyingToLocalPeer (sublink outboundSequenceLength : Nat)
  | flushRouter (sublink : Nat)
  | requestMemory (size : Nat)
  | provideMemory (size : Nat)
  | requestIntroduction (name : NodeName)
  | acceptIntroduction (name : NodeName) (transportIndex memoryIndex : Nat)
  | rejectIntroduction (name : NodeName)
  deriving DecidableEq, Repr

/-- A descriptor: what it refers to, and the size that `fstat` gives. -/
structure OwnedFd where
  object : Nat
  size : Nat
  deriving DecidableEq, Repr

/-! ### The state -/

/-- `RoutingError`.  `depth` is no error of the program: the model follows
nested flushes to a given depth only. -/
inductive RoutingError
  | channel
  | memory (e : LinkMemoryError)
  | badParcel (m : String)
  | unexpected (m : String)
  | unsupported (id : UInt8) (m : String)
  | io (m : String)
  | depth
  deriving DecidableEq, Repr

/-- What was sent on a channel, with the sequence numbers of the link, and
whether the peer has dropped it. -/
structure LinkChannel where
  sent : List (Nat × RouteMessage × List OwnedFd)
  nextLinkSeq : Nat
  broken : Bool
  deriving DecidableEq, Repr

/-- `PendingIntroRequest::BypassPeer`. -/
structure PendingIntroRequest where
  rid : Nat
  requestorLinkId : Nat
  requestorSublink : Nat
  bypassTargetSublink : Nat
  deriving DecidableEq, Repr

/-- A node link as flushing sees it: the remote node and the registered
buffers, none until the handshake adopts the primary one. -/
structure LinkInfo where
  remoteName : NodeName
  memory : Option BufferRegistry

/-- The system calls that take over a descriptor: `dup`, `fcntl` on a socket, and
`fstat` and `mmap` on a memory. -/
inductive FdCall
  | dup
  | setNonblocking
  | fstat
  | mmap
  deriving DecidableEq, Repr

/-- What flushing reads only.  `linkOrder` is the order in which the map of
the links is iterated, and `fdError` what the kernel answers a call on a
descriptor with, if not success. -/
structure NodeInfo where
  links : Nat → Option LinkInfo
  linkOrder : List Nat
  brokerName : NodeName
  referrerName : NodeName
  localName : NodeName
  keepQueuedFlush : Bool
  fdError : FdCall → OwnedFd → Option String

/-- What happens to the parcels that a router receives from its outward peer, and
to the router on their way. -/
inductive ParcelEvent
  /-- A parcel came into the inbound queue from a local peer. -/
  | accepted (parcel : Parcel)
  /-- The router was serialized for link `linkId`, with `unread` in its portal. -/
  | serialized (linkId : Nat) (d : RouterDescriptor) (unread : List (List UInt8 × List Object))
  /-- A flush took parcels out of the inbound queue, to pass them on. -/
  | popped (parcels : List (Link × Parcel))
  /-- One of them was transmitted. -/
  | transmitted (link : Link) (parcel : Parcel)
  /-- The flush failed before all of them were. -/
  | abandoned
  /-- The router was removed with parcels in its inbound queue. -/
  | removed
  deriving DecidableEq, Repr

/-- The tables that routing changes, and as ghosts the descriptors that routers
were serialized into so far, with the link and the router, and what happened to
the parcels of each router. -/
structure RouteTables where
  routers : Nat → Option Router
  owners : Nat × Nat → Option Nat
  localStates : Nat → LocalLinkState
  nextLocalState : Nat
  memories : Nat → SharedMemory
  channels : Nat → LinkChannel
  pendingIntroductions : NodeName → List PendingIntroRequest
  pendingMemoryRequests : Nat × Nat → List Nat
  capacityPending : Nat × Nat → Bool
  nextRid : Nat
  serialized : List (Nat × Nat × RouterDescriptor)
  history : Nat → List ParcelEvent

/-- Routing over the tables of a node. -/
abbrev RouteM := EStateM RoutingError RouteTables

/-- The link to the broker. -/
def linkIdBroker : Nat := 0
/-- The direct link. -/
def linkIdDirect : Nat := 1
/-- The first link by an introduction. -/
def linkIdIntroduced : Nat := 2
/-- The sublink of the bootstrap portal. -/
def bootstrapSublink : Nat := 1
/-- The first identifier of a router that no sublink gave. -/
def localRidBase : Nat := 2 ^ 32

/-- A node without routers, its links new. -/
def RouteTables.fresh : RouteTables where
  routers := fun _ => none
  owners := fun _ => none
  localStates := fun _ => .new false
  nextLocalState := 0
  memories := fun _ => .fresh
  channels := fun _ => ⟨[], 0, false⟩
  pendingIntroductions := fun _ => []
  pendingMemoryRequests := fun _ => []
  capacityPending := fun _ => false
  nextRid := localRidBase
  serialized := []
  history := fun _ => []

/-- Links `ids` with established memories, to nodes without names. -/
def NodeInfo.ofLinks (ids : List Nat) : NodeInfo where
  links := fun id => if id ∈ ids then some ⟨.invalid, some .empty⟩ else none
  linkOrder := ids
  brokerName := .invalid
  referrerName := .invalid
  localName := .invalid
  keepQueuedFlush := false
  fdError := fun _ _ => none

/-! ### Access to the tables -/

namespace RouteTables

/-- Change a router. -/
def setRouter (s : RouteTables) (rid : Nat) (r : Router) : RouteTables :=
  { s with routers := update s.routers rid (some r) }

/-- Change the owner of a sublink. -/
def setOwner (s : RouteTables) (key : Nat × Nat) (rid : Nat) : RouteTables :=
  { s with owners := update s.owners key (some rid) }

/-- Note that router `d.1` was serialized into the descriptor `d.2` for link `linkId`. -/
def logSerialized (s : RouteTables) (linkId : Nat) (d : Nat × RouterDescriptor) : RouteTables :=
  { s with serialized := s.serialized ++ [(linkId, d)] }

/-- Note what happened to the parcels of router `rid`. -/
def note (s : RouteTables) (rid : Nat) (e : ParcelEvent) : RouteTables :=
  { s with history := update s.history rid (s.history rid ++ [e]) }

/-- Change the memory of a link. -/
def setMemory (s : RouteTables) (linkId : Nat) (m : SharedMemory) : RouteTables :=
  { s with memories := update s.memories linkId m }

/-- Change the channel of a link. -/
def setChannel (s : RouteTables) (linkId : Nat) (ch : LinkChannel) : RouteTables :=
  { s with channels := update s.channels linkId ch }

/-- Change the state of a local link. -/
def setLocalState (s : RouteTables) (cell : Nat) (st : LocalLinkState) : RouteTables :=
  { s with localStates := update s.localStates cell st }

/-- Wait for memory of a block size. -/
def pushMemoryRequest (s : RouteTables) (key : Nat × Nat) (blockSize : Nat) : RouteTables :=
  { s with
    pendingMemoryRequests :=
      update s.pendingMemoryRequests key (s.pendingMemoryRequests key ++ [blockSize]) }

/-- No sublink of `sublinks` and none of `rid` has an owner. -/
def dropOwners (s : RouteTables) (rid : Nat) (sublinks : List (Nat × Nat)) : RouteTables :=
  { s with
    owners := fun key => if key ∈ sublinks ∨ s.owners key = some rid then none else s.owners key }

/-- The router is gone; the ghosts note it if parcels go with it. -/
def dropRouter (s : RouteTables) (rid : Nat) : RouteTables :=
  { s with
    routers := update s.routers rid none
    history :=
      if (s.routers rid).any (!·.inbound.buffer.isEmpty) then
        update s.history rid (s.history rid ++ [.removed])
      else s.history }

section Routers

variable {s : RouteTables} {rid rid' : Nat} {r : Router}

@[simp] theorem setRouter_routers_self (s : RouteTables) (rid : Nat) (r : Router) :
    (s.setRouter rid r).routers rid = some r := Function.update_self ..

theorem setRouter_routers_ne (s : RouteTables) (r : Router) (h : rid' ≠ rid) :
    (s.setRouter rid r).routers rid' = s.routers rid' := Function.update_of_ne h ..

@[simp] theorem setRouter_setRouter (s : RouteTables) (rid : Nat) (r r' : Router) :
    (s.setRouter rid r).setRouter rid r' = s.setRouter rid r' := by
  simp only [setRouter, Function.update_idem]

theorem setRouter_self (h : s.routers rid = some r) : s.setRouter rid r = s := by
  simp only [setRouter, ← h, Function.update_eq_self]

/-! What a history tells is not forgotten. -/

@[simp] theorem note_history_self (s : RouteTables) (rid : Nat) (e : ParcelEvent) :
    (s.note rid e).history rid = s.history rid ++ [e] := Function.update_self ..

theorem note_history_ne (s : RouteTables) (e : ParcelEvent) (h : rid' ≠ rid) :
    (s.note rid e).history rid' = s.history rid' := Function.update_of_ne h ..

theorem mem_history_note (rid : Nat) (e : ParcelEvent) {e' : ParcelEvent}
    (h : e' ∈ s.history rid') : e' ∈ (s.note rid e).history rid' := by
  by_cases hrid : rid' = rid
  · subst hrid
    rw [note_history_self]
    exact List.mem_append_left _ h
  · rwa [note_history_ne _ _ hrid]

/-- The history of a router that is removed. -/
theorem dropRouter_history_self (s : RouteTables) (rid : Nat) :
    (s.dropRouter rid).history rid =
      if (s.routers rid).any (!·.inbound.buffer.isEmpty) then s.history rid ++ [.removed]
      else s.history rid := by
  unfold dropRouter
  dsimp only
  split_ifs
  · exact Function.update_self ..
  · rfl

theorem dropRouter_history_ne (s : RouteTables) (h : rid' ≠ rid) :
    (s.dropRouter rid).history rid' = s.history rid' := by
  unfold dropRouter
  dsimp only
  split_ifs
  · exact Function.update_of_ne h ..
  · rfl

theorem mem_history_dropRouter (rid : Nat) {e : ParcelEvent} (h : e ∈ s.history rid') :
    e ∈ (s.dropRouter rid).history rid' := by
  by_cases hrid : rid' = rid
  · subst hrid
    rw [dropRouter_history_self]
    split_ifs
    · exact List.mem_append_left _ h
    · exact h
  · rwa [dropRouter_history_ne _ hrid]

end Routers

end RouteTables

/-- `routers.get(&rid).ok_or(..)`. -/
def getRouter (rid : Nat) (missing : String) : RouteM Router := do
  match (← get).routers rid with
  | some r => pure r
  | none => throw (.badParcel missing)

theorem getRouter_some {s : RouteTables} {rid : Nat} {r : Router} (missing : String)
    (h : s.routers rid = some r) : (getRouter rid missing).run s = .ok r s := by
  unfold getRouter
  rw [run_get_bind, h]
  rfl

theorem getRouter_none {s : RouteTables} {rid : Nat} (missing : String)
    (h : s.routers rid = none) : (getRouter rid missing).run s = .error (.badParcel missing) s := by
  unfold getRouter
  rw [run_get_bind, h]
  rfl

theorem getRouter_ok {rid : Nat} {missing : String} {r : Router} {s s' : RouteTables}
    (h : (getRouter rid missing).run s = .ok r s') : s.routers rid = some r ∧ s' = s := by
  cases hr : s.routers rid with
  | none =>
      rw [getRouter_none missing hr] at h
      cases h
  | some r' =>
      rw [getRouter_some missing hr] at h
      cases h
      exact ⟨rfl, rfl⟩

/-- Write the router back that a block of the source holds mutably. -/
def putRouter (rid : Nat) (r : Router) : RouteM Unit := modify (·.setRouter rid r)

theorem putRouter_run (rid : Nat) (r : Router) (s : RouteTables) :
    (putRouter rid r).run s = .ok ⟨⟩ (s.setRouter rid r) := rfl

/-- Write a router back that has accepted a parcel from a local peer, into its
inbound queue or into its outbound queue. -/
def putAccepted (rid : Nat) (r : Router) (inbound : Bool) (p : Parcel) : RouteM Unit :=
  modify fun s =>
    if inbound then (s.setRouter rid r).note rid (.accepted p) else s.setRouter rid r

/-- Write a router back that has become a proxy, serialized into `d`. -/
def putProxy (rid linkId : Nat) (r : Router) (d : RouterDescriptor) : RouteM Unit :=
  modify fun s => (s.setRouter rid r).note rid (.serialized linkId d r.unread)

/-- The router owns the sublink. -/
def insertOwner (linkId sublink rid : Nat) : RouteM Unit := modify (·.setOwner (linkId, sublink) rid)

/-- A result of the link memory. -/
def liftMemory {α : Type} : Except LinkMemoryError α → RouteM α
  | .ok a => pure a
  | .error e => throw (.memory e)

section Links

variable (info : NodeInfo)

/-- `memory_for`: the registry; the memory itself is in the tables. -/
def registryFor (linkId : Nat) : Except RoutingError BufferRegistry :=
  match info.links linkId with
  | none => .error (.unexpected "unknown link id")
  | some l =>
      match l.memory with
      | none => .error (.unexpected "link memory not established")
      | some m => .ok m

/-- `memory_for`. -/
def memoryFor (linkId : Nat) : RouteM BufferRegistry :=
  match registryFor info linkId with
  | .ok m => pure m
  | .error e => throw e

/-- `remote_name_for`. -/
def remoteNameFor (linkId : Nat) : RouteM NodeName :=
  match info.links linkId with
  | none => throw (.unexpected "unknown link id")
  | some l => pure l.remoteName

/-- `link_id_for_node`. -/
def linkIdForNode (name : NodeName) : Option Nat :=
  if name = info.brokerName then some linkIdBroker
  else if info.referrerName.isValid ∧ name = info.referrerName then some linkIdDirect
  else info.linkOrder.find? fun id =>
    id ≠ linkIdBroker ∧ (info.links id).any fun l => l.remoteName == name

/-- `send_link_message_with_fds_on`.  The number is used up also by a message
that a dropped channel refuses. -/
def sendLinkMessageOn (linkId : Nat) (msg : RouteMessage) (fds : List OwnedFd) : RouteM Unit := do
  match info.links linkId with
  | none => throw (.unexpected "unknown link id")
  | some _ =>
      let ch := (← get).channels linkId
      let sent := if ch.broken then ch.sent else ch.sent ++ [(ch.nextLinkSeq, msg, fds)]
      modify (·.setChannel linkId { ch with sent, nextLinkSeq := ch.nextLinkSeq + 1 })
      if ch.broken then throw .channel

/-- `allocate_sublink_ids`: the counter in the primary buffer. -/
def allocateSublinkIds (linkId count : Nat) : RouteM Nat := do
  let _ ← memoryFor info linkId
  let m := (← get).memories linkId
  modify (·.setMemory linkId { m with nextSublinkId := m.nextSublinkId + count })
  pure m.nextSublinkId

/-- `try_allocate_link_state` in the memory of a link. -/
def tryAllocateLinkState (linkId : Nat) : RouteM (Option FragmentDescriptor) := do
  let reg ← memoryFor info linkId
  match ((← get).memories linkId).tryAllocateLinkState reg with
  | none => pure none
  | some (block, m) =>
      modify (·.setMemory linkId m)
      pure (some block)

/-- `add_link_state_ref`. -/
def addLinkStateRef (linkId : Nat) (desc : FragmentDescriptor) : RouteM Unit := do
  let reg ← memoryFor info linkId
  liftMemory (reg.fragment desc)
  modify fun s => s.setMemory linkId ((s.memories linkId).addLinkStateRef desc)

/-- An operation on the status word of a shared link state. -/
def onLinkStatus {α : Type} (linkId : Nat) (desc : FragmentDescriptor)
    (f : LinkStatus → α × LinkStatus) : RouteM α := do
  let reg ← memoryFor info linkId
  liftMemory (reg.fragment desc)
  let (a, m) := ((← get).memories linkId).onStatus desc f
  modify (·.setMemory linkId m)
  pure a

/-- An operation on the status of a local link. -/
def onLocalStatus {α : Type} (cell : Nat) (f : LinkStatus → α × LinkStatus) : RouteM α := do
  let st := (← get).localStates cell
  let (a, status) := f st.status
  modify (·.setLocalState cell { st with status })
  pure a

/-- `mark_side_stable_on_link`. -/
def markSideStableOnLink (link : Link) : RouteM Unit := do
  if let some desc := link.linkState then
    onLinkStatus info link.linkId desc fun st => ((), st.setSideStable link.side)
  if let some cell := link.localState then
    onLocalStatus cell fun st => ((), st.setSideStable link.side)

/-- `try_lock_link_for_closure`. -/
def tryLockLinkForClosure (link : Link) : RouteM Bool :=
  match link.linkState, link.localState with
  | some desc, _ => onLinkStatus info link.linkId desc (·.tryLock link.side)
  | none, some cell => onLocalStatus cell (·.tryLock link.side)
  | none, none => pure false

/-- `write_allowed_bypass_source`: the name lies at bytes 8 to 24. -/
def writeAllowedBypassSource (linkId : Nat) (desc : FragmentDescriptor) (source : NodeName) :
    RouteM Unit := do
  let reg ← memoryFor info linkId
  liftMemory (reg.fragment desc)
  if desc.size.toNat < 24 then throw (.memory .outOfBounds)
  modify fun s =>
    let m := s.memories linkId
    s.setMemory linkId
      (m.setState desc { m.states desc.key with allowedBypassRequestSource := source })

/-- `read_allowed_bypass_source`. -/
def readAllowedBypassSource (linkId : Nat) (desc : FragmentDescriptor) : RouteM NodeName := do
  let reg ← memoryFor info linkId
  liftMemory (reg.fragment desc)
  if desc.size.toNat < 24 then throw (.memory .outOfBounds)
  pure (((← get).memories linkId).states desc.key).allowedBypassRequestSource

/-- `try_lock_link_for_bypass`. -/
def tryLockLinkForBypass (link : Link) (source : NodeName) : RouteM Bool :=
  match link.linkState, link.localState with
  | some desc, _ => do
      if ← onLinkStatus info link.linkId desc (·.tryLock link.side) then
        writeAllowedBypassSource info link.linkId desc source
        pure true
      else pure false
  | none, some cell => do
      if ← onLocalStatus cell (·.tryLock link.side) then
        modify fun s =>
          s.setLocalState cell { s.localStates cell with allowedBypassSource := source.low }
        pure true
      else pure false
  | none, none => pure false

/-- `unlock_link_for_bypass`. -/
def unlockLinkForBypass (link : Link) : RouteM Unit := do
  if let some desc := link.linkState then
    onLinkStatus info link.linkId desc fun st => ((), st.unlock link.side)
  if let some cell := link.localState then
    onLocalStatus cell fun st => ((), st.unlock link.side)

/-- `release_link_state`. -/
def releaseLinkState (link : Link) : RouteM Unit := do
  if let some state := link.linkState then
    if !isInitialLinkState state then
      let reg ← memoryFor info link.linkId
      liftMemory (reg.fragment state)
      let (last, m) := ((← get).memories link.linkId).releaseLinkStateRef state
      modify (·.setMemory link.linkId m)
      if last then
        let (freed, m) := ((← get).memories link.linkId).freeBlock reg state
        modify (·.setMemory link.linkId m)
        if !freed then throw (.badParcel "failed to free link state block")

/-- An operation whose error is dropped. -/
def ignoreError (x : RouteM Unit) : RouteM Unit := fun s =>
  match x s with
  | .ok _ s' => .ok ⟨⟩ s'
  | .error _ s' => .ok ⟨⟩ s'

/-- The links of an edge. -/
def Edge.links (e : Edge) : List Link := e.primary.toList ++ e.decayingLink.toList

/-- The links of the outward and the inward edge. -/
def Router.routeLinks (r : Router) : List Link :=
  r.outward.links ++ (r.inward.map Edge.links).getD []

/-- `remove_router`. -/
def removeRouter (rid : Nat) : RouteM Unit := do
  if let some r := (← get).routers rid then
    let links := r.routeLinks
    modify (·.dropOwners rid (links.map fun l => (l.linkId, l.sublink)))
    (links.filter (·.linkState.isSome)).forM fun l => ignoreError (releaseLinkState info l)
    modify (·.dropRouter rid)

/-- `request_block_capacity`. -/
def requestBlockCapacity (blockSize linkId : Nat) : RouteM Unit := do
  if !(← get).capacityPending (linkId, blockSize) then
    modify fun s => { s with capacityPending := update s.capacityPending (linkId, blockSize) true }
    let minBufferSize := blockSize * minBlockAllocatorCapacity
    let numPages :=
      max ((minBufferSize + blockAllocatorPageSize - 1) / blockAllocatorPageSize) 1
    let bufferSize := numPages * blockAllocatorPageSize
    if 2 ^ 32 ≤ bufferSize then throw (.badParcel "block buffer request exceeds u32 size")
    modify (·.pushMemoryRequest (linkId, bufferSize) blockSize)
    sendLinkMessageOn info linkId (.requestMemory bufferSize) []

/-- `set_outward_link`. -/
def setOutwardLink (rid : Nat) (link : Link) : RouteM Unit := do
  let r ← getRouter rid "set outward link for unknown router"
  if link.kind.isCentral && r.outward.isStable && r.inward.all (·.isStable) then
    markSideStableOnLink info link
  let r ← getRouter rid "set outward link for unknown router"
  if !r.disconnected then
    putRouter rid { r with outward := r.outward.setPrimaryLink link }

end Links

/-- `OpenPortals`: a pair of terminal routers with a stable local link. -/
def openPortals : RouteM (Nat × Nat) := do
  let s ← get
  let a := s.nextRid
  let b := s.nextRid + 1
  let (linkA, linkB) := Link.localPair .central .a a b s.nextLocalState
  set { s with
    nextRid := s.nextRid + 2
    nextLocalState := s.nextLocalState + 1
    localStates := update s.localStates s.nextLocalState (.new true)
    routers := update (update s.routers a (some (.newTerminal linkA))) b
      (some (.newTerminal linkB)) }
  pure (a, b)

end MojoRs.Ipcz
