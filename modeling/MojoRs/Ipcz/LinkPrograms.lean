/-
MojoRs/Ipcz/LinkPrograms.lean

The operations of `link_memory.rs` as programs over the bytes of the buffers.
A descriptor is resolved by `fragment`; a word is then accessed through a raw
pointer, at a fixed distance from the start of the fragment and whatever size
the descriptor gives it.

Block indices, offsets and links are computed as a release build does, where
they wrap; the programs state the range that each of them is meant to have.
A compare-exchange is a weak one, so that an operation is given how often it
fails for no reason, and its loop is stuck when this is used up.

A view of a fragment shorter than what is written to it does not occur: blocks
are allocated by the size that is written.
-/
import MojoRs.Lib.Bytes
import MojoRs.Lib.Program
import MojoRs.Ipcz.LinkBuffers
import MojoRs.Ipcz.LinkStateAtomics

namespace MojoRs.Ipcz

open Lib

/-! ### Words -/

/-- A region of equal blocks: the id of its buffer, its offset there, the size
of a block and their number. -/
structure BlockRegion where
  id : UInt64
  off : Nat
  blockSize : UInt32
  numBlocks : Nat
  deriving DecidableEq, Repr

/-- What an access is to. -/
inductive LinkWord
  | front (r : BlockRegion)
  | header (r : BlockRegion)
  | counter
  | refCount
  | status
  | linkState
  | allowedSource
  | parcelSize
  | parcelData
  deriving DecidableEq, Repr

/-- A program on the link memory. -/
abbrev LinkProg (α : Type) := Prog LinkWord MappedMemory LinkMemoryError α

/-- A block header out of four bytes. -/
def BlockHeader.ofBytes (bytes : List UInt8) : BlockHeader :=
  ⟨getU16 bytes 0, (getU16 bytes 2).toInt16⟩

/-- The four bytes of a block header. -/
def BlockHeader.bytes (h : BlockHeader) : List UInt8 := leU16 h.version ++ leU16 h.next.toUInt16

/-- The offset of the `status` word within a link state. -/
def linkStatusOffset : Nat := 4

/-- The offset of `allowed_bypass_request_source` within a link state. -/
def linkAllowedSourceOffset : Nat := 8

/-- A cast to `i16`. -/
def castI16 (x : Int) : LinkProg Int16 := do
  .check x (-2 ^ 15) (2 ^ 15)
  pure (.ofInt x)

namespace BlockRegion

/-- The descriptor of the header of block 0. -/
def frontDesc (r : BlockRegion) : FragmentDescriptor := ⟨r.id, .ofNat r.off, 4⟩

/-- `(region + idx * block_size as usize) as u32`. -/
def offsetOf (r : BlockRegion) (idx : Int) : LinkProg UInt32 := do
  .check idx 0 r.numBlocks
  .check (r.off + idx * r.blockSize.toNat) 0 (2 ^ 32)
  pure (blockOffset r.off idx r.blockSize)

end BlockRegion

namespace LinkMemory

variable (b : LinkBuffers)

/-- `read_block_header`. -/
def readBlockHeader (word : LinkWord) (desc : FragmentDescriptor) : LinkProg BlockHeader := do
  let memory ← .lift (b.fragment desc)
  let bytes ← .loadBytes word memory desc.offset.toNat 4
  pure (.ofBytes bytes)

/-- `write_block_header`. -/
def writeBlockHeader (word : LinkWord) (desc : FragmentDescriptor) (header : BlockHeader) :
    LinkProg Unit := do
  let memory ← .lift (b.fragment desc)
  .storeBytes word memory desc.offset.toNat header.bytes

/-- `cas_front_header`: the header that was found instead of `known`, if the
exchange failed. -/
def casFrontHeader (r : BlockRegion) (known desired : BlockHeader) (spurious : Bool) :
    LinkProg (Option BlockHeader) := do
  let memory ← .lift (b.fragment r.frontDesc)
  let bytes ← .updateBytes (.front r) memory r.frontDesc.offset.toNat 4 fun bytes =>
    if .ofBytes bytes = known ∧ spurious = false then desired.bytes else bytes
  if .ofBytes bytes = known ∧ spurious = false then pure none else pure (some (.ofBytes bytes))

/-! ### Blocks -/

/-- A turn of the loop of `pop_block` up to its compare-exchange, which is
left to `k`: the block at the head, and the new front header. -/
def popTurn (r : BlockRegion) (front : BlockHeader)
    (k : FragmentDescriptor → BlockHeader → LinkProg (Option FragmentDescriptor)) :
    LinkProg (Option FragmentDescriptor) :=
  let idx := firstFree front
  if idx = 0 ∨ r.numBlocks ≤ idx then pure none
  else do
    let offset ← r.offsetOf idx
    let header ← readBlockHeader b (.header r) ⟨r.id, offset, 4⟩
    let nextAbs := idx + header.next.toInt + 1
    if nextAbs < 0 ∨ r.numBlocks ≤ nextAbs then pure none
    else do
      let next ← castI16 (nextAbs - 1)
      k ⟨r.id, offset, r.blockSize⟩ ⟨front.version + 1, next⟩

/-- The loop of `pop_block`, with the front header just read. -/
def popLoop (r : BlockRegion) : List Bool → BlockHeader → LinkProg (Option FragmentDescriptor)
  | [], front => popTurn b r front fun _ _ => .stuck
  | spurious :: weak, front => popTurn b r front fun block desired => do
      match ← casFrontHeader b r front desired spurious with
      | some updated => popLoop r weak updated
      | none => pure (some block)

/-- `pop_block`. -/
def popBlock (r : BlockRegion) (weak : List Bool) : LinkProg (Option FragmentDescriptor) :=
  if r.numBlocks = 0 ∨ 2 ^ 15 - 1 < r.numBlocks then pure none
  else do
    let front ← readBlockHeader b (.front r) r.frontDesc
    popLoop b r weak front

/-- The region of an extra buffer. -/
def extraRegion (id : UInt64) (e : MappedBuffer) : BlockRegion := ⟨id, 0, e.blockSize, e.numBlocks⟩

variable (weak : BlockRegion → List Bool)

/-- The extra buffers of one block size, in the order they are tried. -/
def popExtra (poolSize : UInt32) : List UInt64 → LinkProg (Option FragmentDescriptor)
  | [] => pure none
  | id :: ids =>
      match b.extra id with
      | none => .lift (.error .unknownBuffer)
      | some e =>
          if e.blockSize = poolSize then do
            match ← popBlock b (extraRegion id e) (weak (extraRegion id e)) with
            | some block => pure (some block)
            | none => popExtra poolSize ids
          else popExtra poolSize ids

/-- The region of the primary buffer for a block size. -/
def primaryRegion (poolSize : Nat) : Option BlockRegion :=
  (primaryBlockRegions.find? (·.1 == poolSize)).map fun (_, off, count) =>
    ⟨primaryBufferId, off, .ofNat poolSize, count⟩

/-- `try_allocate_fragment`. -/
def tryAllocateFragment (size : Nat) : LinkProg (Option FragmentDescriptor) :=
  match b.poolFor size with
  | none => pure none
  | some poolSize => do
      match ← popExtra b weak (.ofNat poolSize) b.extraOrder.reverse with
      | some block => pure (some block)
      | none =>
          match primaryRegion poolSize with
          | some r => popBlock b r (weak r)
          | none => pure none

/-- The region that `free_block` takes a descriptor to belong to. -/
def freeRegion (desc : FragmentDescriptor) : Option BlockRegion :=
  if desc.bufferId = primaryBufferId then
    (primaryBlockRegions.find? fun (blockSize, off, count) =>
      desc.size.toNat = blockSize ∧ off ≤ desc.offset.toNat ∧
        desc.offset.toNat + desc.size.toNat ≤ off + count * blockSize).map
      fun (blockSize, off, count) => ⟨primaryBufferId, off, .ofNat blockSize, count⟩
  else match b.extra desc.bufferId with
    | some e => if e.blockSize = desc.size then some (extraRegion desc.bufferId e) else none
    | none => none

/-- A turn of the loop of `free_block` up to its compare-exchange. -/
def freeTurn (r : BlockRegion) (idx : Nat) (front : BlockHeader) (k : BlockHeader → LinkProg Bool) :
    LinkProg Bool :=
  if firstFree front < 0 ∨ asI32 r.numBlocks ≤ firstFree front then pure false
  else do
    let rel ← castI16 (firstFree front - idx - 1)
    let offset ← r.offsetOf idx
    writeBlockHeader b (.header r) ⟨r.id, offset, 4⟩ ⟨0, rel⟩
    let next ← castI16 (idx - 1)
    k ⟨front.version + 1, next⟩

/-- The loop of `free_block`, with the front header just read. -/
def freeLoop (r : BlockRegion) (idx : Nat) : List Bool → BlockHeader → LinkProg Bool
  | [], front => freeTurn b r idx front fun _ => .stuck
  | spurious :: weak, front => freeTurn b r idx front fun desired => do
      match ← casFrontHeader b r front desired spurious with
      | some updated => freeLoop r idx weak updated
      | none => pure true

/-- `free_block`. -/
def freeBlock (desc : FragmentDescriptor) (weak : List Bool) : LinkProg Bool :=
  match freeRegion b desc with
  | none => pure false
  | some r =>
      let idx := (desc.offset.toNat - r.off) / r.blockSize.toNat
      if idx = 0 ∨ r.numBlocks ≤ idx then pure false
      else do
        let front ← readBlockHeader b (.front r) r.frontDesc
        freeLoop b r idx weak front

/-! ### Counters -/

/-- A fetch-add on a counter of the primary buffer's header. -/
def fetchAddHeader (offset : UInt32) (count : UInt64) : LinkProg UInt64 := do
  let memory ← .lift (b.fragment ⟨primaryBufferId, offset, 8⟩)
  let bytes ← .updateBytes .counter memory offset.toNat 8 fun bytes =>
    leU64 (getU64 bytes 0 + count)
  pure (getU64 bytes 0)

/-- `allocate_sublink_ids`. -/
def allocateSublinkIds (count : UInt64) : LinkProg UInt64 := fetchAddHeader b 8 count

/-- `allocate_new_buffer_id`. -/
def allocateNewBufferId : LinkProg UInt64 := fetchAddHeader b 0 1

/-! ### Link states -/

/-- `try_allocate_link_state`. -/
def tryAllocateLinkState : LinkProg (Option FragmentDescriptor) := do
  match ← tryAllocateFragment b weak routerLinkStateSize with
  | none => pure none
  | some block => do
      let memory ← .lift (b.fragment block)
      .storeBytes .refCount memory block.offset.toNat (leU32 1)
      .storeBytes .linkState memory (block.offset.toNat + 4)
        (List.replicate (block.size.toNat - 4) 0)
      pure (some block)

/-- Replace a 32-bit word of a fragment, and return what was there. -/
def fetchUpdate (word : LinkWord) (desc : FragmentDescriptor) (at_ : Nat)
    (f : UInt32 → UInt32) : LinkProg UInt32 := do
  let memory ← .lift (b.fragment desc)
  let bytes ← .updateBytes word memory (desc.offset.toNat + at_) 4 fun bytes =>
    leU32 (f (getU32 bytes 0))
  pure (getU32 bytes 0)

/-- `add_link_state_ref`. -/
def addLinkStateRef (desc : FragmentDescriptor) : LinkProg Unit := do
  let _ ← fetchUpdate b .refCount desc 0 (· + 1)

/-- `release_link_state_ref`, and whether this was the last reference. -/
def releaseLinkStateRef (desc : FragmentDescriptor) : LinkProg Bool := do
  let old ← fetchUpdate b .refCount desc 0 (· - 1)
  pure (old == 1)

/-- The compare-exchange loop of an operation on the status word. -/
def statusLoop (memory : MappedMemory) (off : Nat) :
    List Bool → LinkAttempt → LinkProg (Option Bool)
  | [], _ => .stuck
  | spurious :: weak, a => do
      let bytes ← .updateBytes .status memory off 4 fun bytes =>
        if getU32 bytes 0 = a.expected ∧ spurious = false then leU32 a.new else bytes
      let actual := getU32 bytes 0
      if actual = a.expected ∧ spurious = false then pure a.result
      else match a.retry actual with
        | none => pure a.gaveUp
        | some d => statusLoop memory off weak { a with expected := actual, desired := d }

/-- An operation on the status word of a fragment. -/
def onLinkState (op : LinkOp) (desc : FragmentDescriptor) (side : LinkSide) (weak : List Bool) :
    LinkProg (Option Bool) := do
  let memory ← .lift (b.fragment desc)
  statusLoop memory (desc.offset.toNat + linkStatusOffset) weak (.first op side)

/-- `set_side_stable`. -/
def setSideStable := onLinkState b .setSideStable

/-- `try_lock_link_state`. -/
def tryLockLinkState := onLinkState b .tryLock

/-- `unlock_link_state`. -/
def unlockLinkState := onLinkState b .unlock

/-- `reset_waiting_bit`. -/
def resetWaitingBit := onLinkState b .resetWaitingBit

/-- `read_allowed_bypass_source`. -/
def readAllowedBypassSource (desc : FragmentDescriptor) : LinkProg NodeName := do
  let memory ← .lift (b.fragment desc)
  if desc.size.toNat < linkAllowedSourceOffset + 16 then .lift (.error .outOfBounds)
  else do
    let bytes ← .loadBytes .allowedSource memory (desc.offset.toNat + linkAllowedSourceOffset) 16
    pure ⟨getU64 bytes 0, getU64 bytes 8⟩

/-- `write_allowed_bypass_source`. -/
def writeAllowedBypassSource (desc : FragmentDescriptor) (value : NodeName) : LinkProg Unit := do
  let memory ← .lift (b.fragment desc)
  if desc.size.toNat < linkAllowedSourceOffset + 16 then .lift (.error .outOfBounds)
  else
    .storeBytes .allowedSource memory (desc.offset.toNat + linkAllowedSourceOffset)
      (leU64 value.high ++ leU64 value.low)

/-- `read_link_status`. -/
def readLinkStatus (desc : FragmentDescriptor) : LinkProg UInt32 :=
  if desc.size.toNat < routerLinkStateSize then .lift (.error .outOfBounds)
  else do
    let memory ← .lift (b.fragment desc)
    let bytes ← .loadBytes .status memory (desc.offset.toNat + linkStatusOffset) 4
    pure (getU32 bytes 0)

/-- `set_link_status_bits`. -/
def setLinkStatusBits (desc : FragmentDescriptor) (bits : UInt32) : LinkProg UInt32 :=
  if desc.size.toNat < routerLinkStateSize then .lift (.error .outOfBounds)
  else do
    let _ ← fetchUpdate b .status desc linkStatusOffset (· ||| bits)
    readLinkStatus b desc

/-! ### Parcels -/

/-- `read_parcel_fragment`. -/
def readParcelFragment (desc : FragmentDescriptor) : LinkProg (List UInt8) :=
  if desc.size.toNat < fragmentHeaderSize then .lift (.error .outOfBounds)
  else do
    let memory ← .lift (b.fragment desc)
    let bytes ← .loadBytes .parcelSize memory desc.offset.toNat 4
    let size := (getU32 bytes 0).toNat
    if desc.size.toNat < fragmentHeaderSize + size then .lift (.error .outOfBounds)
    else .loadBytes .parcelData memory (desc.offset.toNat + fragmentHeaderSize) size

/-- `write_parcel_fragment`. -/
def writeParcelFragment (data : List UInt8) : LinkProg FragmentDescriptor := do
  match ← tryAllocateFragment b weak (data.length + fragmentHeaderSize) with
  | none => .lift (.error .outOfBounds)
  | some block => do
      let memory ← .lift (b.fragment block)
      .storeBytes .parcelSize memory (block.offset.toNat + 4) (leU32 0)
      .storeBytes .parcelData memory (block.offset.toNat + fragmentHeaderSize) data
      .storeBytes .parcelSize memory block.offset.toNat (leU32 (.ofNat data.length))
      pure block

end LinkMemory

end MojoRs.Ipcz
