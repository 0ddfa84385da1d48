/-
MojoRs/Core/BufferMapping.lean

The shared buffers and mappings of a process (`shared_buffer.rs`, `shm.rs`, and
the safe API over them), with what the kernel keeps for it: memory objects, the
descriptors that stand for them, and the address space.

A system call may fail, and where it does not the kernel picks the number of a
new descriptor or the first page of a mapping; that is an argument here, and it
has to be a number that is not in use.

`SharedRegions` is what all of it is for: regions of bytes, buffers that stand
for regions, and views of parts of them.
-/
import MojoRs.Core.SharedBuffer
import MojoRs.Lib.PageTable
import MojoRs.Lib.Refinement

namespace MojoRs.Core

open Lib SharedMemory

/-! ### The kernel -/

/-- Memory objects, numbered as they are made, behind an address space, and the
object that each open descriptor stands for. -/
structure Kernel where
  memory : VirtualMemory Nat
  made : Nat
  files : Nat → Option Nat

namespace Kernel

/-- No objects, no files, no pages. -/
def init : Kernel := ⟨⟨fun _ _ => 0, fun _ => 0, fun _ => none⟩, 0, fun _ => none⟩

/-- A new descriptor of an object. -/
def install (k : Kernel) (object : Nat) : Option Nat → Option Nat × Kernel
  | none => (none, k)
  | some fd =>
      if (k.files fd).isSome then (none, k)
      else (some fd, { k with files := Function.update k.files fd (some object) })

/-- `memfd_create`: a new object is empty. -/
def memfdCreate (k : Kernel) (fd : Option Nat) : Option Nat × Kernel :=
  match k.install k.made fd with
  | (none, k) => (none, k)
  | (some fd, k) => (some fd, { k with made := k.made + 1 })

/-- `ftruncate`, which may fail. -/
def ftruncate (k : Kernel) (fd size : Nat) (truncated : Bool) : Bool × Kernel :=
  match k.files fd with
  | none => (false, k)
  | some object =>
      if truncated then
        (true, { k with memory.size := Function.update k.memory.size object size })
      else (false, k)

/-- `dup`: another descriptor of the same object. -/
def dup (k : Kernel) (fd : Nat) (new : Option Nat) : Option Nat × Kernel :=
  match k.files fd with
  | none => (none, k)
  | some object => k.install object new

/-- `close`; the object stays while pages or descriptors have it. -/
def close (k : Kernel) (fd : Nat) : Kernel :=
  { k with files := Function.update k.files fd none }

/-- The pages that so many bytes take. -/
def pagesOf (len : Nat) : Nat := (len + (pageSize - 1)) / pageSize

/-- `mmap` of a shared mapping, from the page `first` on. -/
def mmap (k : Kernel) (len : Nat) (writable : Bool) (fd offset : Nat) (first : Option Nat) :
    Option Nat × Kernel :=
  match first, k.files fd with
  | some first, some object =>
      if k.memory.pages.Free first (pagesOf len) then
        (some (pageSize * first), { k with
          memory.pages := k.memory.pages.map first (pagesOf len)
            ⟨object, offset / pageSize, writable⟩ })
      else (none, k)
  | _, _ => (none, k)

/-- `munmap` of the pages of a range. -/
def munmap (k : Kernel) (base len : Nat) : Kernel :=
  { k with memory.pages := k.memory.pages.unmap (base / pageSize) (pagesOf len) }

end Kernel

/-! ### Buffers and mappings -/

/-- A mapping with what `munmap` is called with when it is dropped. -/
structure BufferMapping where
  mapping : Mapping
  mapBase : Nat
  mapLen : Nat
  deriving DecidableEq, Repr

namespace SharedBuffer

/-- `create` and the system calls it makes; the descriptor is closed again if
the object does not get its size. -/
def createIn (k : Kernel) (numBytes : Nat) (memfd : Option Nat) (truncated : Bool) :
    CoreResult BufferInner × Kernel :=
  if numBytes = 0 ∨ numBytes > 2 ^ 31 - 1 then (.error .resourceExhausted, k)
  else
    match k.memfdCreate memfd with
    | (none, k) => (create numBytes none, k)
    | (some fd, k) =>
        match k.ftruncate fd numBytes truncated with
        | (true, k) => (create numBytes (some fd), k)
        | (false, k) => (create numBytes none, k.close fd)

/-- `duplicate` and the system call it makes. -/
def duplicateIn (k : Kernel) (readOnly : Bool) (dup : Option Nat) (inner : BufferInner) :
    (CoreResult BufferInner × BufferInner) × Kernel :=
  if (convert readOnly inner).mode ≠ requiredMode readOnly then (duplicate readOnly none inner, k)
  else
    let (fd, k) := k.dup inner.shm.fd dup
    (duplicate readOnly fd inner, k)

/-- `map` and the system call it makes: whole pages are mapped, from the page of
the offset on. -/
def mapIn (k : Kernel) (offset numBytes : Nat) (first : Option Nat) (inner : BufferInner) :
    CoreResult BufferMapping × Kernel :=
  let adjustment := offset % pageSize
  let (base, mapped) := k.mmap (numBytes + adjustment) (inner.mode ≠ .readOnly) inner.shm.fd
    (offset - adjustment) first
  match map offset numBytes base inner with
  | .error e => (.error e, k)
  | .ok mapping => (.ok ⟨mapping, mapping.address - adjustment, numBytes + adjustment⟩, mapped)

end SharedBuffer

namespace BufferMapping

/-- `read_at`; `none` where the process faults. -/
def readAt (b : BufferMapping) (memory : VirtualMemory Nat) (offset len : Nat) :
    Option (Option (List UInt8)) :=
  if offset + len ≥ 2 ^ 64 ∨ offset + len > b.mapping.len then some none
  else (memory.loadBytes pageSize (b.mapping.address + offset) len).map some

/-- `write_at`; `none` where the process faults. -/
def writeAt (b : BufferMapping) (memory : VirtualMemory Nat) (offset : Nat)
    (content : List UInt8) : Option (Bool × VirtualMemory Nat) :=
  if b.mapping.access ≠ .readWrite then some (false, memory)
  else if offset + content.length ≥ 2 ^ 64 then some (false, memory)
  else if offset + content.length > b.mapping.len then some (false, memory)
  else (memory.storeBytes pageSize (b.mapping.address + offset) content).map (true, ·)

end BufferMapping

/-! ### A process -/

/-- A mapping and the references (`Arc`) to it outside of the table. -/
structure HeldMapping where
  owned : BufferMapping
  refs : Nat
  deriving DecidableEq, Repr

/-- Buffers and mappings are numbered as they are made.  The `table` is the
`MappingTable`, by address. -/
structure BufferProcess where
  kernel : Kernel
  buffers : Nat → Option BufferInner
  nextBuffer : Nat
  mappings : Nat → Option HeldMapping
  nextMapping : Nat
  table : Nat → Option Nat

/-- The calls of a process, with what the kernel picks.  `close` is for the last
handle of a buffer; `add`, `remove` and `get` are those of the table, and `drop`
is for a reference. -/
inductive BufferOp
  | create (numBytes : Nat) (memfd : Option Nat) (truncated : Bool)
  | duplicate (b : Nat) (readOnly : Bool) (dup : Option Nat)
  | close (b : Nat)
  | map (b offset numBytes : Nat) (first : Option Nat)
  | add (m : Nat)
  | remove (address : Nat)
  | get (address : Nat)
  | drop (m : Nat)
  | read (m offset len : Nat)
  | write (m offset : Nat) (content : List UInt8)
  deriving DecidableEq, Repr

/-- What a call comes to.  `aliased` is for a mapping that cannot be borrowed to
write to (`Arc::get_mut`), and `absent` for one that the caller does not have. -/
inductive BufferAnswer
  | error (e : CoreError)
  | buffer (b : Nat)
  | mapped (m address : Nat)
  | done
  | got (m : Option Nat)
  | bytes (data : Option (List UInt8))
  | wrote (ok : Bool)
  | aliased
  | absent
  | fault
  deriving DecidableEq, Repr

namespace BufferProcess

/-- A process without buffers and mappings. -/
def init : BufferProcess := ⟨.init, fun _ => none, 0, fun _ => none, 0, fun _ => none⟩

/-- The buffer gets the next identifier. -/
def addBuffer (s : BufferProcess) (inner : BufferInner) : BufferProcess :=
  { s with
    buffers := Function.update s.buffers s.nextBuffer (some inner)
    nextBuffer := s.nextBuffer + 1 }

/-- `SharedBuffer::create`. -/
def create (s : BufferProcess) (numBytes : Nat) (memfd : Option Nat) (truncated : Bool) :
    BufferAnswer × BufferProcess :=
  match SharedBuffer.createIn s.kernel numBytes memfd truncated with
  | (.error e, kernel) => (.error e, { s with kernel })
  | (.ok inner, kernel) => (.buffer s.nextBuffer, { s with kernel }.addBuffer inner)

/-- `SharedBuffer::duplicate`. -/
def duplicate (s : BufferProcess) (b : Nat) (readOnly : Bool) (dup : Option Nat) :
    BufferAnswer × BufferProcess :=
  match s.buffers b with
  | none => (.absent, s)
  | some inner =>
      let ((r, inner), kernel) := SharedBuffer.duplicateIn s.kernel readOnly dup inner
      let s := { s with kernel, buffers := Function.update s.buffers b (some inner) }
      match r with
      | .error e => (.error e, s)
      | .ok new => (.buffer s.nextBuffer, s.addBuffer new)

/-- Drop a buffer. -/
def close (s : BufferProcess) (b : Nat) : BufferAnswer × BufferProcess :=
  match s.buffers b with
  | none => (.absent, s)
  | some inner =>
      (.done, { s with
        kernel := s.kernel.close inner.shm.fd
        buffers := Function.update s.buffers b none })

/-- `SharedBuffer::map_range`. -/
def map (s : BufferProcess) (b offset numBytes : Nat) (first : Option Nat) :
    BufferAnswer × BufferProcess :=
  match s.buffers b with
  | none => (.absent, s)
  | some inner =>
      match SharedBuffer.mapIn s.kernel offset numBytes first inner with
      | (.error e, kernel) => (.error e, { s with kernel })
      | (.ok owned, kernel) =>
          (.mapped s.nextMapping owned.mapping.address, { s with
            kernel
            mappings := Function.update s.mappings s.nextMapping (some ⟨owned, 1⟩)
            nextMapping := s.nextMapping + 1 })

/-- The table has a reference to the mapping. -/
def listed (s : BufferProcess) (m : Nat) (h : HeldMapping) : Bool :=
  s.table h.owned.mapping.address = some m

/-- After a reference is gone: the last one unmaps. -/
def release (s : BufferProcess) (m : Nat) : BufferProcess :=
  match s.mappings m with
  | none => s
  | some h =>
      if h.refs = 0 ∧ s.listed m h = false then
        { s with
          kernel := s.kernel.munmap h.owned.mapBase h.owned.mapLen
          mappings := Function.update s.mappings m none }
      else s

/-- The mapping, if the caller has a reference to it. -/
def held (s : BufferProcess) (m : Nat) : Option HeldMapping :=
  (s.mappings m).filter fun h => h.refs ≠ 0

/-- The references to a mapping. -/
def setRefs (s : BufferProcess) (m : Nat) (h : HeldMapping) (refs : Nat) : BufferProcess :=
  { s with mappings := Function.update s.mappings m (some { h with refs }) }

/-- `MappingTable::add` of a clone; the entry that it replaces is dropped. -/
def add (s : BufferProcess) (m : Nat) : BufferAnswer × BufferProcess :=
  match s.held m with
  | none => (.absent, s)
  | some h =>
      let address := h.owned.mapping.address
      let added := { s with table := Function.update s.table address (some m) }
      match s.table address with
      | none => (.done, added)
      | some replaced => (.done, added.release replaced)

/-- `MappingTable::remove`. -/
def remove (s : BufferProcess) (address : Nat) : BufferAnswer × BufferProcess :=
  match s.table address with
  | none => (.error .invalidArgument, s)
  | some m => (.done, { s with table := Function.update s.table address none }.release m)

/-- `MappingTable::get`: a clone of the reference. -/
def get (s : BufferProcess) (address : Nat) : BufferAnswer × BufferProcess :=
  match s.table address with
  | none => (.got none, s)
  | some m =>
      match s.mappings m with
      | none => (.absent, s)
      | some h => (.got (some m), s.setRefs m h (h.refs + 1))

/-- Drop a reference to a mapping, and the mapping with the last one. -/
def drop (s : BufferProcess) (m : Nat) : BufferAnswer × BufferProcess :=
  match s.held m with
  | none => (.absent, s)
  | some h => (.done, (s.setRefs m h (h.refs - 1)).release m)

/-- Read through a mapping. -/
def read (s : BufferProcess) (m offset len : Nat) : BufferAnswer × BufferProcess :=
  match s.held m with
  | none => (.absent, s)
  | some h =>
      match h.owned.readAt s.kernel.memory offset len with
      | none => (.fault, s)
      | some data => (.bytes data, s)

/-- `write_at` of a caller that has the only reference. -/
def write (s : BufferProcess) (m offset : Nat) (content : List UInt8) :
    BufferAnswer × BufferProcess :=
  match s.held m with
  | none => (.absent, s)
  | some h =>
      if h.refs ≠ 1 ∨ s.listed m h then (.aliased, s)
      else
        match h.owned.writeAt s.kernel.memory offset content with
        | none => (.fault, s)
        | some (ok, memory) => (.wrote ok, { s with kernel.memory := memory })

/-- One call on a buffer or on a mapping. -/
def step (s : BufferProcess) : BufferOp → BufferAnswer × BufferProcess
  | .create numBytes memfd truncated => s.create numBytes memfd truncated
  | .duplicate b readOnly dup => s.duplicate b readOnly dup
  | .close b => s.close b
  | .map b offset numBytes first => s.map b offset numBytes first
  | .add m => s.add m
  | .remove address => s.remove address
  | .get address => s.get address
  | .drop m => s.drop m
  | .read m offset len => s.read m offset len
  | .write m offset content => s.write m offset content

end BufferProcess

/-! ### Shared regions -/

/-- A view of a part of a region. -/
structure View where
  region : Nat
  offset : Nat
  len : Nat
  writable : Bool
  address : Nat
  refs : Nat
  deriving DecidableEq, Repr

/-- Regions of bytes, where one of size zero is none yet; buffers that stand for
regions; and views. -/
structure SharedRegions where
  contents : Memory Nat
  size : Nat → Nat
  buffers : Nat → Option (Nat × BufferMode)
  nextBuffer : Nat
  views : Nat → Option View
  nextView : Nat
  table : Nat → Option Nat

namespace SharedRegions

open SharedBuffer

/-- No regions. -/
def init : SharedRegions :=
  ⟨fun _ _ => 0, fun _ => 0, fun _ => none, 0, fun _ => none, 0, fun _ => none⟩

/-- The buffer gets the next identifier. -/
def addBuffer (s : SharedRegions) (region : Nat) (mode : BufferMode) : SharedRegions :=
  { s with
    buffers := Function.update s.buffers s.nextBuffer (some (region, mode))
    nextBuffer := s.nextBuffer + 1 }

/-- A new region is all zeros.  `grant` is a name for it. -/
def create (s : SharedRegions) (numBytes : Nat) (grant : Option Nat) :
    BufferAnswer × SharedRegions :=
  match grant with
  | none => (.error .resourceExhausted, s)
  | some region =>
      if numBytes = 0 ∨ numBytes > 2 ^ 31 - 1 ∨ s.size region ≠ 0 then
        (.error .resourceExhausted, s)
      else
        (.buffer s.nextBuffer, { s with
          contents := Function.update s.contents region fun _ => 0
          size := Function.update s.size region numBytes }.addBuffer region .writable)

/-- A duplicate stands for the same region. -/
def duplicate (s : SharedRegions) (b : Nat) (readOnly : Bool) (grant : Option Nat) :
    BufferAnswer × SharedRegions :=
  match s.buffers b with
  | none => (.absent, s)
  | some (region, mode) =>
      let mode := modeAfter readOnly mode
      let s := { s with buffers := Function.update s.buffers b (some (region, mode)) }
      if mode ≠ requiredMode readOnly then (.error .failedPrecondition, s)
      else if grant.isNone then (.error .resourceExhausted, s)
      else (.buffer s.nextBuffer, s.addBuffer region mode)

/-- The buffer is gone, the region stays. -/
def close (s : SharedRegions) (b : Nat) : BufferAnswer × SharedRegions :=
  match s.buffers b with
  | none => (.absent, s)
  | some _ => (.done, { s with buffers := Function.update s.buffers b none })

/-- A view of a part of the region.  `grant` is an address for it. -/
def map (s : SharedRegions) (b offset numBytes : Nat) (grant : Option Nat) :
    BufferAnswer × SharedRegions :=
  match s.buffers b, grant with
  | none, _ => (.absent, s)
  | some _, none => (.error .resourceExhausted, s)
  | some (region, mode), some address =>
      if numBytes = 0 ∨ offset + numBytes > s.size region then (.error .resourceExhausted, s)
      else
        (.mapped s.nextView address, { s with
          views := Function.update s.views s.nextView
            (some ⟨region, offset, numBytes, mode ≠ .readOnly, address, 1⟩)
          nextView := s.nextView + 1 })

/-- The table has the view under its address. -/
def listed (s : SharedRegions) (m : Nat) (v : View) : Bool := s.table v.address = some m

/-- A view that nobody refers to is gone. -/
def release (s : SharedRegions) (m : Nat) : SharedRegions :=
  match s.views m with
  | none => s
  | some v =>
      if v.refs = 0 ∧ s.listed m v = false then
        { s with views := Function.update s.views m none }
      else s

/-- A view that somebody refers to. -/
def held (s : SharedRegions) (m : Nat) : Option View := (s.views m).filter fun v => v.refs ≠ 0

/-- The references to a view. -/
def setRefs (s : SharedRegions) (m : Nat) (v : View) (refs : Nat) : SharedRegions :=
  { s with views := Function.update s.views m (some { v with refs }) }

/-- The view is listed under its address, where no other view is. -/
def add (s : SharedRegions) (m : Nat) : BufferAnswer × SharedRegions :=
  match s.held m with
  | none => (.absent, s)
  | some v => (.done, { s with table := Function.update s.table v.address (some m) })

/-- Take a view from the table. -/
def remove (s : SharedRegions) (address : Nat) : BufferAnswer × SharedRegions :=
  match s.table address with
  | none => (.error .invalidArgument, s)
  | some m => (.done, { s with table := Function.update s.table address none }.release m)

/-- Look a view up in the table. -/
def get (s : SharedRegions) (address : Nat) : BufferAnswer × SharedRegions :=
  match s.table address with
  | none => (.got none, s)
  | some m =>
      match s.views m with
      | none => (.absent, s)
      | some v => (.got (some m), s.setRefs m v (v.refs + 1))

/-- Drop a reference to a view, and the view with the last one. -/
def drop (s : SharedRegions) (m : Nat) : BufferAnswer × SharedRegions :=
  match s.held m with
  | none => (.absent, s)
  | some v => (.done, (s.setRefs m v (v.refs - 1)).release m)

/-- The bytes of the region. -/
def read (s : SharedRegions) (m offset len : Nat) : BufferAnswer × SharedRegions :=
  match s.held m with
  | none => (.absent, s)
  | some v =>
      if offset + len > v.len then (.bytes none, s)
      else (.bytes (some (s.contents.bytesAt v.region (v.offset + offset) len)), s)

/-- Write into the region through a view. -/
def write (s : SharedRegions) (m offset : Nat) (content : List UInt8) :
    BufferAnswer × SharedRegions :=
  match s.held m with
  | none => (.absent, s)
  | some v =>
      if v.refs ≠ 1 ∨ s.listed m v then (.aliased, s)
      else if v.writable = false ∨ offset + content.length > v.len then (.wrote false, s)
      else
        (.wrote true, { s with
          contents := s.contents.putBytes v.region (v.offset + offset) content })

/-- A call, with what is granted to it. -/
def step (s : SharedRegions) : BufferOp × Option Nat → BufferAnswer × SharedRegions
  | (.create numBytes _ _, grant) => s.create numBytes grant
  | (.duplicate b readOnly _, grant) => s.duplicate b readOnly grant
  | (.close b, _) => s.close b
  | (.map b offset numBytes _, grant) => s.map b offset numBytes grant
  | (.add m, _) => s.add m
  | (.remove address, _) => s.remove address
  | (.get address, _) => s.get address
  | (.drop m, _) => s.drop m
  | (.read m offset len, _) => s.read m offset len
  | (.write m offset content, _) => s.write m offset content

end SharedRegions

end MojoRs.Core
