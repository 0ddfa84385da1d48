/-
MojoRs/Ipcz/BlockAllocator.lean

The block allocator of the shared link memory (`pop_block`, `free_block` in
`link_memory.rs`), one atomic access at a time.  A region is an array of equal
blocks; the first four bytes of a block are its header, a 16-bit version and
a 16-bit link relative to the block's successor.  The free blocks are a list
that starts at block 0, and whose last block points back at block 0.

A thread runs one operation at a time.  `Pc` says where it stands, with the
values it holds in local variables; `run` is its next access to the memory.
Between accesses any other thread may run, and the bytes of a block may be
overwritten by the thread that owns it.
-/
import MojoRs.Lib.Run

namespace MojoRs.Ipcz

/-- `BlockHeader { version, next }`: one 32-bit word. -/
structure BlockHeader where
  version : UInt16
  next : Int16
  deriving DecidableEq, Repr

/-- An allocator region: block 0 is never allocable, so there is more than one
block, and no more than a 16-bit link can reach. -/
structure Region where
  numBlocks : Nat
  one_lt : 1 < numBlocks
  le_max : numBlocks ≤ 2 ^ 15 - 1

/-- The header words of a region, by block index. -/
abbrev Headers := Nat → BlockHeader

/-- The absolute index that block `b` points to. -/
def nextBlock (headers : Headers) (b : Nat) : Int := b + (headers b).next.toInt + 1

/-- The absolute index of the first free block, from a front header. -/
def firstFree (front : BlockHeader) : Int := front.next.toInt + 1

/-- `BlockAllocator::InitializeRegion`: all zero, except that the last block
points back to block 0. -/
def initializeRegion (numBlocks : Nat) : Headers := fun b =>
  if b = numBlocks - 1 then ⟨0, 0 - Int16.ofNat numBlocks⟩ else ⟨0, 0⟩

/-- Where a thread stands.  `readAt` is a ghost: how many updates of the front
header had happened when `front` was read. -/
inductive Pc
  | idle
  | popRead
  | popHeader (front : BlockHeader) (readAt : Nat)
  | popCas (front : BlockHeader) (nextAbs : Nat) (readAt : Nat)
  | freeRead (b : Nat)
  | freeWrite (b : Nat) (front : BlockHeader) (readAt : Nat)
  | freeCas (b : Nat) (front : BlockHeader) (readAt : Nat)
  deriving DecidableEq, Repr

variable {θ : Type} [DecidableEq θ]

/-- The region's headers, the threads, the blocks handed out with their
owners, and the ghost count of front header updates. -/
structure AllocState (θ : Type) where
  headers : Headers
  pc : θ → Pc
  owned : List (θ × Nat)
  updates : Nat

/-- What can happen next.  `send` hands a block to another thread, as a
message that carries its descriptor does. -/
inductive AllocAction (θ : Type)
  | popBlock (t : θ)
  | freeBlock (t : θ) (b : Nat)
  | run (t : θ) (spurious : Bool)
  | write (t : θ) (b : Nat) (bytes : BlockHeader)
  | send (t t' : θ) (b : Nat)
  deriving DecidableEq, Repr

namespace AllocState

/-- A region as it was initialized, all threads idle. -/
def init (R : Region) : AllocState θ :=
  ⟨initializeRegion R.numBlocks, fun _ => .idle, [], 0⟩

/-- Where a thread is. -/
def setPc (s : AllocState θ) (t : θ) (pc : Pc) : AllocState θ :=
  { s with pc := fun t' => if t' = t then pc else s.pc t' }

/-- Write the header of a block. -/
def setHeader (s : AllocState θ) (b : Nat) (h : BlockHeader) : AllocState θ :=
  { s with headers := fun b' => if b' = b then h else s.headers b' }

/-- `cas_front_header`: a weak compare-exchange, which may fail for no reason.
On failure the observed value comes back. -/
def casFrontHeader (s : AllocState θ) (known desired : BlockHeader) (spurious : Bool) :
    Option BlockHeader × AllocState θ :=
  if s.headers 0 = known ∧ spurious = false then
    (none, { s.setHeader 0 desired with updates := s.updates + 1 })
  else (some (s.headers 0), s)

/-- The top of the loop of `pop_block`, with a front header just read.  A
negative index is outside the mapping. -/
def popLoop (R : Region) (front : BlockHeader) (readAt : Nat) : Pc :=
  if firstFree front = 0 ∨ R.numBlocks ≤ firstFree front ∨ firstFree front < 0 then .idle
  else .popHeader front readAt

/-- The top of the loop of `free_block`. -/
def freeLoop (R : Region) (b : Nat) (front : BlockHeader) (readAt : Nat) : Pc :=
  if firstFree front < 0 ∨ R.numBlocks ≤ firstFree front then .idle
  else .freeWrite b front readAt

/-- The next access of thread `t`. -/
def runThread (R : Region) (s : AllocState θ) (t : θ) (spurious : Bool) : AllocState θ :=
  match s.pc t with
  | .idle => s
  | .popRead => s.setPc t (popLoop R (s.headers 0) s.updates)
  | .popHeader front readAt =>
      -- the header may already be user data of a block the peer popped
      let nextAbs := nextBlock s.headers (firstFree front).toNat
      if nextAbs < 0 ∨ R.numBlocks ≤ nextAbs then s.setPc t .idle
      else s.setPc t (.popCas front nextAbs.toNat readAt)
  | .popCas front nextAbs _ =>
      match s.casFrontHeader front ⟨front.version + 1, Int16.ofInt (nextAbs - 1)⟩ spurious with
      | (some updated, s) => s.setPc t (popLoop R updated s.updates)
      | (none, s) =>
          { s.setPc t .idle with owned := (t, (firstFree front).toNat) :: s.owned }
  | .freeRead b => s.setPc t (freeLoop R b (s.headers 0) s.updates)
  | .freeWrite b front readAt =>
      (s.setHeader b ⟨0, Int16.ofInt (firstFree front - b - 1)⟩).setPc t
        (.freeCas b front readAt)
  | .freeCas b front _ =>
      match s.casFrontHeader front ⟨front.version + 1, Int16.ofInt (b - 1)⟩ spurious with
      | (some updated, s) => s.setPc t (freeLoop R b updated s.updates)
      | (none, s) => s.setPc t .idle

/-- One action.  A thread starts an operation only when it runs none, frees,
overwrites and sends only blocks it owns; a block being freed is no longer
owned. -/
def step (R : Region) (s : AllocState θ) : AllocAction θ → AllocState θ
  | .popBlock t => if s.pc t = .idle then s.setPc t .popRead else s
  | .freeBlock t b =>
      if s.pc t = .idle ∧ (t, b) ∈ s.owned ∧ b ≠ 0 ∧ b < R.numBlocks then
        { s.setPc t (.freeRead b) with owned := s.owned.erase (t, b) }
      else s
  | .run t spurious => s.runThread R t spurious
  | .write t b bytes => if (t, b) ∈ s.owned then s.setHeader b bytes else s
  | .send t t' b =>
      if (t, b) ∈ s.owned then { s with owned := (t', b) :: s.owned.erase (t, b) } else s

/-- Fewer than 2^16 updates of the front header lie between a thread's read of
it and its compare-exchange. -/
def InWindow (s : AllocState θ) : AllocAction θ → Prop
  | .run t _ =>
      match s.pc t with
      | .popCas _ _ readAt | .freeCas _ _ readAt => s.updates - readAt < 2 ^ 16
      | _ => True
  | _ => True

/-- The blocks on the free list, from block `b` on, up to a length. -/
def freeList (headers : Headers) : Nat → Nat → List Nat
  | 0, _ => []
  | len + 1, b =>
      let next := (nextBlock headers b).toNat
      if next = 0 then [] else next :: freeList headers len next

/-- No block is owned twice, block 0 is not owned, and when no operation is in
progress the free list and the owned blocks are all blocks but block 0. -/
structure Safe (R : Region) (s : AllocState θ) : Prop where
  once : (s.owned.map Prod.snd).Nodup
  front : 0 ∉ s.owned.map Prod.snd
  exact : (∀ t, s.pc t = .idle) →
    (freeList s.headers R.numBlocks 0 ++ s.owned.map Prod.snd).Perm
      (List.range' 1 (R.numBlocks - 1))

end AllocState

end MojoRs.Ipcz
