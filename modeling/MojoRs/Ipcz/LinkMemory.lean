/-
MojoRs/Ipcz/LinkMemory.lean

The link memory (`link_memory.rs`) as routing uses it: the buffers that a node
has registered for a link, and what lies in them.

The registry is the node's own; the buffers are shared with the peer.  What
lies in a buffer is kept by fragment: a `RouterLinkState` is a record, a
parcel fragment the bytes that its header announces, and the free blocks of
an allocator region are a list (`BlockAllocator` has the list in the headers
of the blocks and its races).  Two fragments that overlap without being one
are not modelled here.
-/
import MojoRs.Ipcz.Messages
import Mathlib.Logic.Function.Basic
import Mathlib.Data.Fintype.Defs
import Mathlib.Data.Finset.Insert

namespace MojoRs.Ipcz

open Function (update)

/-! ### Link states -/

/-- Which side of a link a router occupies. -/
inductive LinkSide
  | a
  | b
  deriving DecidableEq, Repr

instance : Fintype LinkSide := ⟨{.a, .b}, fun s => by cases s <;> simp⟩

/-- The other side. -/
def LinkSide.opposite : LinkSide → LinkSide
  | .a => .b
  | .b => .a

@[simp] theorem LinkSide.opposite_ne (s : LinkSide) : s.opposite ≠ s := by cases s <;> nofun

@[simp] theorem LinkSide.opposite_opposite (s : LinkSide) : s.opposite.opposite = s := by
  cases s <;> rfl

/-- `RouterLinkStatus`: a stable, a waiting and a lock bit for each side.  That the
operations may be taken one at a time is shown for the words themselves
(`replayRecord_exec`). -/
structure LinkStatus where
  stable : LinkSide → Bool
  waiting : LinkSide → Bool
  locked : LinkSide → Bool
  deriving DecidableEq

namespace LinkStatus

/-- Neither side is stable. -/
def unstable : LinkStatus := ⟨fun _ => false, fun _ => false, fun _ => false⟩

/-- Both sides are stable, and nothing is locked. -/
def bothStable : LinkStatus := ⟨fun _ => true, fun _ => false, fun _ => false⟩

/-- `TryLock`: lock where both sides are stable and neither has locked; leave
the waiting bit where only the other side is not stable yet.  This is what
the compare-exchange loop comes to when nobody interferes. -/
def tryLock (st : LinkStatus) (side : LinkSide) : Bool × LinkStatus :=
  if st.locked .a ∨ st.locked .b ∨ ¬st.stable side then (false, st)
  else if ¬st.stable side.opposite then (false, { st with waiting := update st.waiting side true })
  else (true, { st with locked := update st.locked side true })

/-- A side becomes stable. -/
def setSideStable (st : LinkStatus) (side : LinkSide) : LinkStatus :=
  { st with stable := update st.stable side true }

/-- A side gives up its lock. -/
def unlock (st : LinkStatus) (side : LinkSide) : LinkStatus :=
  { st with locked := update st.locked side false }

/-- `ResetWaitingBit`, and whether it was set on a stable unlocked link. -/
def resetWaitingBit (st : LinkStatus) (side : LinkSide) : Bool × LinkStatus :=
  if ¬st.stable .a ∨ ¬st.stable .b ∨ ¬st.waiting side ∨ st.locked .a ∨ st.locked .b then
    (false, st)
  else (true, { st with waiting := update st.waiting side false })

/-- A lock is taken only where there was none. -/
theorem tryLock_unlocked {st st' : LinkStatus} {side : LinkSide}
    (h : st.tryLock side = (true, st')) :
    st.locked = (fun _ => false) ∧ st' = { st with locked := update st.locked side true } := by
  rw [tryLock] at h
  split_ifs at h with h₁ h₂
  · cases h
  · injection h with _ h'
    simp only [not_or, Bool.not_eq_true] at h₁
    refine ⟨?_, h'.symm⟩
    funext s
    cases s
    · exact h₁.1
    · exact h₁.2.1
  · cases h

/-- A failed attempt leaves the lock bits as they are. -/
theorem tryLock_locked {st st' : LinkStatus} {side : LinkSide}
    (h : st.tryLock side = (false, st')) : st'.locked = st.locked := by
  rw [tryLock] at h
  split_ifs at h with h₁ h₂
  · injection h with _ h'
    rw [← h']
  · cases h
  · injection h with _ h'
    rw [← h']

end LinkStatus

/-- `RouterLinkState`: the reference count, the status and the node that may
request a bypass of the link. -/
structure LinkState where
  refCount : Nat
  status : LinkStatus
  allowedBypassRequestSource : NodeName
  deriving DecidableEq

/-- `RouterLinkState::Initialize` in `try_allocate_link_state`: one
reference, all else zero. -/
def LinkState.fresh : LinkState := ⟨1, .unstable, ⟨0, 0⟩⟩

/-! ### Buffers -/

/-- `LinkMemoryError`. -/
inductive LinkMemoryError
  | unknownBuffer
  | outOfBounds
  | misaligned
  | nullDescriptor
  deriving DecidableEq, Repr

/-- `PRIMARY_BUFFER_SIZE`. -/
def primaryBufferSize : Nat := 128 * 1024
/-- The smallest number of blocks. -/
def minBlockAllocatorCapacity : Nat := 8
/-- `MIN_FRAGMENT_SIZE`. -/
def minFragmentSize : Nat := 64
/-- The largest block size. -/
def maxFragmentSizeForBlockAllocation : Nat := 1024 * 1024
/-- The page size of added buffers. -/
def blockAllocatorPageSize : Nat := 64 * 1024
/-- `ROUTER_LINK_STATE_SIZE`. -/
def routerLinkStateSize : Nat := 64
/-- Where the link states of the initial portals start. -/
def initialLinkStatesOffset : Nat := 0x100
/-- `MAX_INITIAL_PORTALS`. -/
def maxInitialPortals : Nat := 12
/-- The size word in front of the data of a fragment. -/
def fragmentHeaderSize : Nat := 8

/-- The block regions of the primary buffer: block size, offset, blocks. -/
def primaryBlockRegions : List (Nat × Nat × Nat) :=
  [(64, 0x400, 1484), (256, 0x17700, 9), (512, 0x18000, 8), (1024, 0x19000, 4),
    (2048, 0x1A000, 4), (4096, 0x1C000, 4)]

/-- The primary buffer's id. -/
def primaryBufferId : UInt64 := 0

/-- A buffer added after the handshake: its size and the size of its blocks. -/
structure ExtraBuffer where
  size : Nat
  blockSize : Nat
  deriving DecidableEq, Repr

/-- The buffers that a node has registered for a link besides the primary
one, and their ids in the order of registration. -/
structure BufferRegistry where
  extra : UInt64 → Option ExtraBuffer
  extraOrder : List UInt64

/-- The memory of a link, which both nodes see. -/
structure SharedMemory where
  nextBufferId : UInt64
  nextSublinkId : Nat
  states : UInt64 × UInt32 → LinkState
  parcels : UInt64 × UInt32 → List UInt8
  free : UInt64 × Nat → List Nat

namespace BufferRegistry

/-- No buffers. -/
def empty : BufferRegistry := ⟨fun _ => none, []⟩

/-- `buffer_for`: the size of a registered buffer. -/
def bufferFor (m : BufferRegistry) (id : UInt64) : Except LinkMemoryError Nat :=
  if id = primaryBufferId then .ok primaryBufferSize
  else match m.extra id with
    | some e => .ok e.size
    | none => .error .unknownBuffer

/-- `fragment`: the checks on a descriptor. -/
def fragment (m : BufferRegistry) (desc : FragmentDescriptor) : Except LinkMemoryError Unit :=
  if desc.isNull then .error .nullDescriptor
  else if desc.offset.toNat % 8 ≠ 0 then .error .misaligned
  else do
    let len ← m.bufferFor desc.bufferId
    if desc.offset.toNat + desc.size.toNat > len then .error .outOfBounds else .ok ()

/-- `add_block_buffer`, for a descriptor of a buffer of `size` bytes. -/
def addBlockBuffer (m : BufferRegistry) (id : UInt64) (size blockSize : Nat) :
    Except String BufferRegistry :=
  if id = invalidBufferId then .error "invalid buffer id"
  else if blockSize < minFragmentSize ∨ blockSize % 8 ≠ 0 then .error "invalid block size"
  else if size / blockSize < minBlockAllocatorCapacity then
    .error "buffer too small for the block size"
  else if (m.extra id).isSome then .error "duplicate buffer id"
  else .ok ⟨update m.extra id (some ⟨size, blockSize⟩), m.extraOrder ++ [id]⟩

/-- `register_block_buffer`, which does not look whether the id is taken. -/
def registerBlockBuffer (m : BufferRegistry) (id : UInt64) (size blockSize : Nat) :
    Except String BufferRegistry :=
  if blockSize < minFragmentSize ∨ blockSize % 8 ≠ 0 then .error "invalid block size"
  else if size / blockSize < minBlockAllocatorCapacity then
    .error "buffer too small for the block size"
  else .ok ⟨update m.extra id (some ⟨size, blockSize⟩), m.extraOrder ++ [id]⟩

/-- `pool_sizes`: the block sizes of all regions, in order. -/
def poolSizes (m : BufferRegistry) : List Nat :=
  ((primaryBlockRegions.map (·.1) ++
    m.extraOrder.filterMap fun id => (m.extra id).map (·.blockSize)).dedup).mergeSort (· ≤ ·)

/-- Only a buffer that is not registered is unknown. -/
theorem fragment_unknownBuffer {m : BufferRegistry} {desc : FragmentDescriptor}
    (h : m.fragment desc = .error .unknownBuffer) :
    m.bufferFor desc.bufferId = .error .unknownBuffer := by
  rw [fragment] at h
  split_ifs at h
  · cases h
  · cases h
  · cases hbuf : m.bufferFor desc.bufferId with
    | ok len =>
        rw [hbuf] at h
        change (if _ then _ else _) = _ at h
        split_ifs at h
        cases h
    | error e =>
        rw [hbuf] at h
        injection h with h
        rw [h]

end BufferRegistry

/-! ### Blocks and fragments -/

/-- `is_initial_link_state`: one of the fixed states of the initial portals. -/
def isInitialLinkState (desc : FragmentDescriptor) : Bool :=
  desc.bufferId == primaryBufferId &&
    decide (initialLinkStatesOffset ≤ desc.offset.toNat) &&
    decide (desc.offset.toNat < initialLinkStatesOffset + maxInitialPortals * routerLinkStateSize)

/-- `n as i32`. -/
def asI32 (n : Nat) : Int := (Int32.ofNat n).toInt

theorem asI32_of_lt {n : Nat} (h : n < 2 ^ 31) : asI32 n = n := Int32.toInt_ofNat_of_lt h

/-- `next_power_of_two`. -/
def nextPowerOfTwo (n : Nat) : Nat := if n ≤ 1 then 1 else 2 ^ ((n - 1).log2 + 1)

/-- `get_block_size_for_fragment_size`. -/
def blockSizeForFragmentSize (size : Nat) : Nat := max minFragmentSize (nextPowerOfTwo size)

/-- The key under which the content of a fragment is kept. -/
def FragmentDescriptor.key (desc : FragmentDescriptor) : UInt64 × UInt32 :=
  (desc.bufferId, desc.offset)

namespace SharedMemory

/-- The memory of a new link: all blocks but the first of a region are free. -/
def fresh : SharedMemory where
  nextBufferId := 1
  nextSublinkId := maxInitialPortals
  states := fun _ => ⟨0, .unstable, ⟨0, 0⟩⟩
  parcels := fun _ => []
  free := fun (bufferId, off) =>
    if bufferId = primaryBufferId then
      match primaryBlockRegions.find? (·.2.1 == off) with
      | some (_, _, count) => List.range' 1 (count - 1)
      | none => []
    else []

/-- `pop_block`: the first free block of a region. -/
def popBlock (m : SharedMemory) (bufferId : UInt64) (region blockSize numBlocks : Nat) :
    Option (FragmentDescriptor × SharedMemory) :=
  if numBlocks = 0 ∨ 2 ^ 15 - 1 < numBlocks then none
  else match m.free (bufferId, region) with
    | [] => none
    | idx :: rest =>
        some (⟨bufferId, .ofNat (region + idx * blockSize), .ofNat blockSize⟩,
          { m with free := update m.free (bufferId, region) rest })

/-- The extra buffers of one block size in the order they are tried: the
last one first. -/
def popExtra (m : SharedMemory) (reg : BufferRegistry) (poolSize : Nat) :
    List UInt64 → Option (FragmentDescriptor × SharedMemory)
  | [] => none
  | id :: ids =>
      match reg.extra id with
      | some e =>
          if e.blockSize = poolSize then
            match m.popBlock id 0 poolSize (e.size / poolSize) with
            | some r => some r
            | none => popExtra m reg poolSize ids
          else popExtra m reg poolSize ids
      | none => popExtra m reg poolSize ids

/-- `try_allocate_fragment`: a block of the smallest pool that fits. -/
def tryAllocateFragment (m : SharedMemory) (reg : BufferRegistry) (size : Nat) :
    Option (FragmentDescriptor × SharedMemory) :=
  if size = 0 ∨ maxFragmentSizeForBlockAllocation < size then none
  else match reg.poolSizes.find? (blockSizeForFragmentSize size ≤ ·) with
    | none => none
    | some poolSize =>
        match m.popExtra reg poolSize reg.extraOrder.reverse with
        | some r => some r
        | none =>
            match primaryBlockRegions.find? (·.1 == poolSize) with
            | some (_, off, count) => m.popBlock primaryBufferId off poolSize count
            | none => none

/-- The link state in a block. -/
def setState (m : SharedMemory) (desc : FragmentDescriptor) (st : LinkState) : SharedMemory :=
  { m with states := update m.states desc.key st }

/-- `try_allocate_link_state`: a fresh link state in a 64-byte block. -/
def tryAllocateLinkState (m : SharedMemory) (reg : BufferRegistry) :
    Option (FragmentDescriptor × SharedMemory) :=
  match m.tryAllocateFragment reg routerLinkStateSize with
  | none => none
  | some (block, m) => some (block, m.setState block .fresh)

/-- `free_block`: push a block on the list of its region. -/
def freeBlock (m : SharedMemory) (reg : BufferRegistry) (desc : FragmentDescriptor) :
    Bool × SharedMemory :=
  let found : Option (Nat × Nat × Nat) :=
    if desc.bufferId = primaryBufferId then
      primaryBlockRegions.find? fun (bs, off, count) =>
        desc.size.toNat = bs ∧ off ≤ desc.offset.toNat ∧
          desc.offset.toNat + desc.size.toNat ≤ off + count * bs
    else match reg.extra desc.bufferId with
      | some e =>
          if e.blockSize = desc.size.toNat then some (e.blockSize, 0, e.size / e.blockSize)
          else none
      | none => none
  match found with
  | none => (false, m)
  | some (blockSize, region, numBlocks) =>
      let idx := (desc.offset.toNat - region) / blockSize
      if idx = 0 ∨ numBlocks ≤ idx then (false, m)
      else
        let key := (desc.bufferId, region)
        -- an empty list leads to block 0
        let firstFree := (m.free key).headD 0
        if asI32 numBlocks ≤ firstFree then (false, m)
        else (true, { m with free := update m.free key (idx :: m.free key) })

/-- `add_link_state_ref`: a 32-bit increment. -/
def addLinkStateRef (m : SharedMemory) (desc : FragmentDescriptor) : SharedMemory :=
  let st := m.states desc.key
  m.setState desc { st with refCount := (st.refCount + 1) % 2 ^ 32 }

/-- `release_link_state_ref`, and whether this was the last reference. -/
def releaseLinkStateRef (m : SharedMemory) (desc : FragmentDescriptor) : Bool × SharedMemory :=
  let st := m.states desc.key
  (st.refCount == 1, m.setState desc { st with refCount := (st.refCount + (2 ^ 32 - 1)) % 2 ^ 32 })

/-- A change of the status word, and the answer that comes with it. -/
def onStatus {α : Type} (m : SharedMemory) (desc : FragmentDescriptor)
    (f : LinkStatus → α × LinkStatus) : α × SharedMemory :=
  let st := m.states desc.key
  let (a, status) := f st.status
  (a, m.setState desc { st with status })

/-- `read_parcel_fragment`: the bytes that the header announces, if they are
inside the fragment. -/
def readParcelFragment (m : SharedMemory) (reg : BufferRegistry) (desc : FragmentDescriptor) :
    Except LinkMemoryError (List UInt8) :=
  if desc.size.toNat < fragmentHeaderSize then .error .outOfBounds
  else do
    reg.fragment desc
    let data := m.parcels desc.key
    if desc.size.toNat < fragmentHeaderSize + data.length then .error .outOfBounds else .ok data

theorem readParcelFragment_unknownBuffer (m : SharedMemory) {reg : BufferRegistry}
    {desc : FragmentDescriptor}
    (h : m.readParcelFragment reg desc = .error .unknownBuffer) :
    reg.bufferFor desc.bufferId = .error .unknownBuffer := by
  rw [readParcelFragment] at h
  split_ifs at h
  · cases h
  · apply BufferRegistry.fragment_unknownBuffer
    cases hfrag : reg.fragment desc with
    | ok u =>
        rw [hfrag] at h
        change (if _ then _ else _) = _ at h
        split_ifs at h
        cases h
    | error e =>
        rw [hfrag] at h
        injection h with h
        rw [h]

/-- `write_parcel_fragment`: the data in a block of its own. -/
def writeParcelFragment (m : SharedMemory) (reg : BufferRegistry) (data : List UInt8) :
    Option (FragmentDescriptor × SharedMemory) :=
  match m.tryAllocateFragment reg (data.length + fragmentHeaderSize) with
  | none => none
  | some (block, m) => some (block, { m with parcels := update m.parcels block.key data })

end SharedMemory

end MojoRs.Ipcz
