/-
MojoRs/Ipcz/LinkBuffers.lean

Which memory a buffer id means (`link_memory.rs`).  Registration, resolution
of a descriptor and allocation decide this each for themselves: a buffer is
registered under an id that the peer chose, `buffer_for` knows id 0 as the
primary buffer whatever is registered, and an allocation takes the ids in the
order of registration.

Here a buffer has an identity besides its size.  What the headers of the
blocks say is not the node's to decide, since the peer writes them as well: an
allocation is given what it reads, access by access (`PopReads`).

The three views agree as long as no registration that the checks let through
is under the id of the primary buffer, under one that is taken, or of blocks that
32 bits do not reach, and no front header links below block 0 (`Sound`).

Main results: `Inv.step`, `fragment_step`, `Inv.tryAllocateFragment_own`,
`buffers_agree`.
-/
import Mathlib.Algebra.Ring.Int.Defs
import MojoRs.Lib.Run
import MojoRs.Ipcz.BlockAllocator
import MojoRs.Ipcz.LinkMemory

namespace MojoRs.Ipcz

open Lib
open Function (update)

/-! ### Buffers with an identity -/

/-- What a descriptor can resolve to. -/
inductive MappedMemory
  | primary
  | file (n : Nat)
  deriving DecidableEq, Repr

/-- A shared memory object that a descriptor was received for: which one it
is, and the size that `fstat` reports. -/
structure MemoryFile where
  file : Nat
  size : Nat
  deriving DecidableEq, Repr

/-- `ExtraBuffer`. -/
structure MappedBuffer where
  memory : MemoryFile
  blockSize : UInt32
  deriving DecidableEq, Repr

/-- The blocks that fit into the mapping. -/
def MappedBuffer.numBlocks (e : MappedBuffer) : Nat := e.memory.size / e.blockSize.toNat

/-- The buffers of a `LinkMemory`. -/
structure LinkBuffers where
  extra : UInt64 → Option MappedBuffer
  extraOrder : List UInt64

/-- What one call of `pop_block` reads: the front header at its start, and in
every round the header of the block it is about to take and, where the
compare-exchange fails, the front header it finds. -/
structure PopReads where
  front : BlockHeader
  rounds : List (BlockHeader × Option BlockHeader)
  deriving DecidableEq, Repr

/-- The front headers that the call acts on. -/
def PopReads.fronts (r : PopReads) : List BlockHeader := r.front :: r.rounds.filterMap (·.2)

/-- What an allocation comes to: nothing as long as a loop goes on. -/
abbrev Allocation := Option (Except LinkMemoryError (Option FragmentDescriptor))

/-- `(region + idx * block_size as usize) as u32`, which wraps. -/
def blockOffset (region : Nat) (idx : Int) (blockSize : UInt32) : UInt32 :=
  .ofNat ((region + idx * blockSize.toNat) % 2 ^ 32).toNat

namespace LinkBuffers

/-- `adopt_primary`. -/
def adopted : LinkBuffers := ⟨fun _ => none, []⟩

/-- The checks on a block size that both ways of registering share. -/
def checkBlockSize (memory : MemoryFile) (blockSize : UInt32) : Except String Unit :=
  if blockSize.toNat < minFragmentSize ∨ blockSize &&& 7 ≠ 0 then .error "invalid block size"
  else if memory.size / blockSize.toNat < minBlockAllocatorCapacity then
    .error "buffer too small for the block size"
  else .ok ()

/-- Register a buffer behind the ones there are. -/
def insert (b : LinkBuffers) (id : UInt64) (e : MappedBuffer) : LinkBuffers where
  extra := update b.extra id (some e)
  extraOrder := b.extraOrder ++ [id]

/-- `add_block_buffer`. -/
def addBlockBuffer (b : LinkBuffers) (id : UInt64) (memory : MemoryFile) (blockSize : UInt32) :
    Except String LinkBuffers :=
  if id = invalidBufferId then .error "invalid buffer id"
  else do
    checkBlockSize memory blockSize
    if (b.extra id).isSome then .error "duplicate buffer id"
    else .ok (b.insert id ⟨memory, blockSize⟩)

/-- `register_block_buffer`, which does not look at the id. -/
def registerBlockBuffer (b : LinkBuffers) (id : UInt64) (memory : MemoryFile)
    (blockSize : UInt32) : Except String LinkBuffers := do
  checkBlockSize memory blockSize
  .ok (b.insert id ⟨memory, blockSize⟩)

/-- `buffer_for`: the memory that an id means, and its size. -/
def bufferFor (b : LinkBuffers) (id : UInt64) : Except LinkMemoryError (MappedMemory × Nat) :=
  if id = primaryBufferId then .ok (.primary, primaryBufferSize)
  else match b.extra id with
    | some e => .ok (.file e.memory.file, e.memory.size)
    | none => .error .unknownBuffer

/-- `fragment`: the memory that a descriptor lies in. -/
def fragment (b : LinkBuffers) (desc : FragmentDescriptor) :
    Except LinkMemoryError MappedMemory :=
  if desc.isNull then .error .nullDescriptor
  else if desc.offset.toNat % 8 ≠ 0 then .error .misaligned
  else do
    let (memory, len) ← b.bufferFor desc.bufferId
    if desc.offset.toNat + desc.size.toNat > len then .error .outOfBounds else .ok memory

/-- The buffers without their identity. -/
def registry (b : LinkBuffers) : BufferRegistry where
  extra id := (b.extra id).map fun e => ⟨e.memory.size, e.blockSize.toNat⟩
  extraOrder := b.extraOrder

/-- The loop of `pop_block`, with the front header just read. -/
def popLoop (b : LinkBuffers) (id : UInt64) (region : Nat) (blockSize : UInt32)
    (numBlocks : Nat) (front : BlockHeader) : List (BlockHeader × Option BlockHeader) → Allocation
  | [] => none
  | (hdr, failed) :: rounds =>
      let idx := firstFree front
      if idx = 0 ∨ numBlocks ≤ idx then some (.ok none)
      else
        let offset := blockOffset region idx blockSize
        match b.fragment ⟨id, offset, 4⟩ with
        | .error e => some (.error e)
        | .ok _ =>
            let nextAbs := idx + hdr.next.toInt + 1
            if nextAbs < 0 ∨ numBlocks ≤ nextAbs then some (.ok none)
            else match failed with
              | some updated => b.popLoop id region blockSize numBlocks updated rounds
              | none => some (.ok (some ⟨id, offset, blockSize⟩))

/-- `pop_block`. -/
def popBlock (b : LinkBuffers) (id : UInt64) (region : Nat) (blockSize : UInt32)
    (numBlocks : Nat) (r : PopReads) : Allocation :=
  if numBlocks = 0 ∨ 2 ^ 15 - 1 < numBlocks then some (.ok none)
  else match b.fragment ⟨id, .ofNat region, 4⟩ with
    | .error e => some (.error e)
    | .ok _ => b.popLoop id region blockSize numBlocks r.front r.rounds

/-- The extra buffers of one block size, in the order they are tried. -/
def allocateExtra (b : LinkBuffers) (poolSize : UInt32) :
    List UInt64 → List PopReads → Allocation
  | [], _ => some (.ok none)
  | id :: ids, reads =>
      match b.extra id with
      | none => some (.error .unknownBuffer)
      | some e =>
          if e.blockSize = poolSize then
            match reads with
            | [] => none
            | r :: reads =>
                match b.popBlock id 0 poolSize e.numBlocks r with
                | some (.ok none) => b.allocateExtra poolSize ids reads
                | res => res
          else b.allocateExtra poolSize ids reads

/-- The pool that a fragment of `size` bytes is taken from. -/
def poolFor (b : LinkBuffers) (size : Nat) : Option Nat :=
  if size = 0 ∨ maxFragmentSizeForBlockAllocation < size then none
  else b.registry.poolSizes.find? (blockSizeForFragmentSize size ≤ ·)

/-- What `try_allocate_fragment` takes from the extra buffers. -/
def fromExtra (b : LinkBuffers) (size : Nat) (reads : List PopReads) : Allocation :=
  match b.poolFor size with
  | none => some (.ok none)
  | some poolSize => b.allocateExtra (.ofNat poolSize) b.extraOrder.reverse reads

/-- `try_allocate_fragment`: the extra buffers first, then the primary one. -/
def tryAllocateFragment (b : LinkBuffers) (size : Nat) (reads : List PopReads)
    (primary : PopReads) : Allocation :=
  match b.fromExtra size reads with
  | some (.ok none) =>
      match b.poolFor size with
      | none => some (.ok none)
      | some poolSize =>
          match primaryBlockRegions.find? (·.1 == poolSize) with
          | some (_, off, count) =>
              b.popBlock primaryBufferId off (.ofNat poolSize) count primary
          | none => some (.ok none)
  | res => res

end LinkBuffers

/-! ### Runs -/

/-- The calls on a `LinkMemory`. -/
inductive BufferCall
  | addBlockBuffer (id : UInt64) (memory : MemoryFile) (blockSize : UInt32)
  | registerBlockBuffer (id : UInt64) (memory : MemoryFile) (blockSize : UInt32)
  | tryAllocateFragment (size : Nat) (reads : List PopReads) (primary : PopReads)
  deriving DecidableEq, Repr

namespace LinkBuffers

/-- The buffers after a call; a failed one changes nothing, and an allocation
changes headers only. -/
def step (b : LinkBuffers) : BufferCall → LinkBuffers
  | .addBlockBuffer id memory blockSize =>
      match b.addBlockBuffer id memory blockSize with
      | .ok b' => b'
      | .error _ => b
  | .registerBlockBuffer id memory blockSize =>
      match b.registerBlockBuffer id memory blockSize with
      | .ok b' => b'
      | .error _ => b
  | .tryAllocateFragment .. => b

/-- The order lists the registered ids, once each. -/
structure Integral (b : LinkBuffers) : Prop where
  nodup : b.extraOrder.Nodup
  mem_iff : ∀ id, id ∈ b.extraOrder ↔ (b.extra id).isSome

/-- A block of the buffer registered under the descriptor's id, and nothing
else is what the descriptor resolves to. -/
def OwnBlock (b : LinkBuffers) (desc : FragmentDescriptor) : Prop :=
  ∃ (e : MappedBuffer) (k : Nat), b.extra desc.bufferId = some e ∧
    0 < k ∧ k < e.numBlocks ∧ desc.offset.toNat = k * e.blockSize.toNat ∧
    desc.size = e.blockSize ∧ desc.offset.toNat + desc.size.toNat ≤ e.memory.size ∧
    b.fragment desc = .ok (.file e.memory.file)

/-- A call changes nothing about valid descriptors, and a fragment that it
allocates is a block of the registered buffer it is from; only where these have
none is it from the primary buffer. -/
def Agree (b : LinkBuffers) (call : BufferCall) : Prop :=
  (∀ desc memory, b.fragment desc = .ok memory → (b.step call).fragment desc = .ok memory) ∧
    match call with
    | .tryAllocateFragment size reads primary =>
        ∀ desc, b.tryAllocateFragment size reads primary = some (.ok (some desc)) →
          b.OwnBlock desc ∨
            b.fromExtra size reads = some (.ok none) ∧ desc.bufferId = primaryBufferId
    | _ => True

/-- An id that stands for one buffer, and blocks that 32 bits reach, if there
are not too many to allocate from at all. -/
def Registrable (id : UInt64) (memory : MemoryFile) (blockSize : UInt32) : Prop :=
  let numBlocks := memory.size / blockSize.toNat
  id ≠ primaryBufferId ∧ (numBlocks ≤ 2 ^ 15 - 1 → (numBlocks - 1) * blockSize.toNat < 2 ^ 32)

/-- The condition on a call.  A registration that is refused meets it. -/
def Sound (b : LinkBuffers) : BufferCall → Prop
  | .addBlockBuffer id memory blockSize =>
      id ≠ invalidBufferId → checkBlockSize memory blockSize = .ok () → b.extra id = none →
        Registrable id memory blockSize
  | .registerBlockBuffer id memory blockSize =>
      checkBlockSize memory blockSize = .ok () →
        b.extra id = none ∧ Registrable id memory blockSize
  | .tryAllocateFragment _ reads _ => ∀ r ∈ reads, ∀ front ∈ r.fronts, 0 ≤ firstFree front

variable {b b' : LinkBuffers} {id : UInt64} {memory : MemoryFile} {blockSize : UInt32}
  {desc : FragmentDescriptor} {m : MappedMemory}

/-! ### Registration -/

theorem registerBlockBuffer_ok (h : b.registerBlockBuffer id memory blockSize = .ok b') :
    checkBlockSize memory blockSize = .ok () ∧ b' = b.insert id ⟨memory, blockSize⟩ := by
  cases hcheck : checkBlockSize memory blockSize with
  | error e =>
      rw [registerBlockBuffer, hcheck] at h
      cases h
  | ok _ =>
      rw [registerBlockBuffer, hcheck] at h
      injection h with h
      exact ⟨rfl, h.symm⟩

theorem addBlockBuffer_ok (h : b.addBlockBuffer id memory blockSize = .ok b') :
    id ≠ invalidBufferId ∧ checkBlockSize memory blockSize = .ok () ∧ b.extra id = none ∧
      b' = b.insert id ⟨memory, blockSize⟩ := by
  rw [addBlockBuffer] at h
  by_cases hid : id = invalidBufferId
  · rw [if_pos hid] at h
    cases h
  rw [if_neg hid] at h
  cases hcheck : checkBlockSize memory blockSize with
  | error e =>
      rw [hcheck] at h
      cases h
  | ok _ =>
      rw [hcheck] at h
      by_cases htaken : (b.extra id).isSome
      · rw [if_pos htaken] at h
        cases h
      · rw [if_neg htaken] at h
        injection h with h
        exact ⟨hid, rfl, Option.not_isSome_iff_eq_none.mp htaken, h.symm⟩

/-- What a call can do: nothing, or register a buffer under an id; where the
call is sound the id was free and the buffer is one to allocate from. -/
theorem step_cases (b : LinkBuffers) (call : BufferCall) :
    b.step call = b ∨ ∃ id e, b.step call = b.insert id e ∧
      (b.Sound call → b.extra id = none ∧ Registrable id e.memory e.blockSize) := by
  cases call with
  | addBlockBuffer id memory blockSize =>
      cases hadd : b.addBlockBuffer id memory blockSize with
      | error e =>
          left
          rw [step, hadd]
      | ok b' =>
          obtain ⟨hid, hcheck, hnone, rfl⟩ := addBlockBuffer_ok hadd
          refine Or.inr ⟨id, ⟨memory, blockSize⟩, ?_,
            fun hsound => ⟨hnone, hsound hid hcheck hnone⟩⟩
          rw [step, hadd]
  | registerBlockBuffer id memory blockSize =>
      cases hregister : b.registerBlockBuffer id memory blockSize with
      | error e =>
          left
          rw [step, hregister]
      | ok b' =>
          obtain ⟨hcheck, rfl⟩ := registerBlockBuffer_ok hregister
          refine Or.inr ⟨id, ⟨memory, blockSize⟩, ?_, fun hsound => hsound hcheck⟩
          rw [step, hregister]
  | tryAllocateFragment size reads primary => exact Or.inl rfl

theorem Integral.insert (h : b.Integral) (hnone : b.extra id = none) (e : MappedBuffer) :
    (b.insert id e).Integral := by
  have hnew : id ∉ b.extraOrder := by
    rw [h.mem_iff, hnone]
    simp
  constructor
  · show (b.extraOrder ++ [id]).Nodup
    rw [List.nodup_append_comm]
    exact List.nodup_cons.mpr ⟨hnew, h.nodup⟩
  · intro id'
    show id' ∈ b.extraOrder ++ [id] ↔ (update b.extra id (some e) id').isSome
    by_cases hid : id' = id
    · subst hid
      simp
    · rw [Function.update_of_ne hid, List.mem_append, h.mem_iff, List.mem_singleton]
      simp [hid]

/-- A buffer under a free id changes no valid descriptor. -/
theorem fragment_insert (hnone : b.extra id = none) (e : MappedBuffer)
    (h : b.fragment desc = .ok m) : (b.insert id e).fragment desc = .ok m := by
  suffices hfor : b.bufferFor desc.bufferId = (b.insert id e).bufferFor desc.bufferId ∨
      b.bufferFor desc.bufferId = .error .unknownBuffer by
    obtain hfor | hfor := hfor
    · rw [fragment, ← hfor]
      exact h
    · rw [fragment, hfor] at h
      split_ifs at h
      cases h
  by_cases hid : desc.bufferId = id
  · by_cases hprimary : desc.bufferId = primaryBufferId
    · left
      rw [bufferFor, bufferFor, if_pos hprimary, if_pos hprimary]
    · right
      rw [bufferFor, if_neg hprimary, hid, hnone]
  · left
    rw [bufferFor, bufferFor]
    have hextra : (b.insert id e).extra desc.bufferId = b.extra desc.bufferId :=
      Function.update_of_ne hid ..
    rw [hextra]

/-- What the calls keep. -/
structure Inv (b : LinkBuffers) : Prop where
  integral : b.Integral
  registrable : ∀ id e, b.extra id = some e → Registrable id e.memory e.blockSize

theorem inv_adopted : adopted.Inv := by
  refine ⟨⟨List.nodup_nil, fun id => ?_⟩, fun id e h => ?_⟩
  · simp [adopted]
  · cases h

theorem Inv.step (h : b.Inv) {call : BufferCall} (hsound : b.Sound call) : (b.step call).Inv := by
  obtain hstep | ⟨id, e, hstep, hnew⟩ := b.step_cases call
  · rw [hstep]
    exact h
  · rw [hstep]
    obtain ⟨hnone, hregistrable⟩ := hnew hsound
    refine ⟨h.integral.insert hnone e, fun id' e' he' => ?_⟩
    change update b.extra id (some e) id' = some e' at he'
    by_cases hid : id' = id
    · subst hid
      rw [Function.update_self] at he'
      cases he'
      exact hregistrable
    · rw [Function.update_of_ne hid] at he'
      exact h.registrable id' e' he'

/-! ### Without the identities -/

theorem and_seven (blockSize : UInt32) : blockSize &&& 7 ≠ 0 ↔ blockSize.toNat % 8 ≠ 0 := by
  have hand : (blockSize &&& 7).toNat = blockSize.toNat % 8 := by
    rw [UInt32.toNat_and]
    exact Nat.and_two_pow_sub_one_eq_mod _ 3
  rw [← hand, not_iff_not, ← UInt32.toNat_inj]
  rfl

theorem registry_insert (b : LinkBuffers) (id : UInt64) (e : MappedBuffer) :
    (b.insert id e).registry =
      ⟨update b.registry.extra id (some ⟨e.memory.size, e.blockSize.toNat⟩),
        b.registry.extraOrder ++ [id]⟩ := by
  rw [registry, BufferRegistry.mk.injEq]
  refine ⟨?_, rfl⟩
  funext id'
  by_cases hid : id' = id
  · subst hid
    rw [Function.update_self]
    show (update b.extra id' (some e) id').map _ = _
    rw [Function.update_self]
    rfl
  · rw [Function.update_of_ne hid]
    show (update b.extra id (some e) id').map _ = _
    rw [Function.update_of_ne hid]
    rfl

theorem registry_registerBlockBuffer (b : LinkBuffers) (id : UInt64) (memory : MemoryFile)
    (blockSize : UInt32) :
    (b.registerBlockBuffer id memory blockSize).map registry =
      b.registry.registerBlockBuffer id memory.size blockSize.toNat := by
  rw [registerBlockBuffer, BufferRegistry.registerBlockBuffer, checkBlockSize]
  simp only [and_seven]
  split_ifs
  · rfl
  · rfl
  · exact congrArg Except.ok (registry_insert ..)

theorem registry_addBlockBuffer (b : LinkBuffers) (id : UInt64) (memory : MemoryFile)
    (blockSize : UInt32) :
    (b.addBlockBuffer id memory blockSize).map registry =
      b.registry.addBlockBuffer id memory.size blockSize.toNat := by
  have htaken : (b.registry.extra id).isSome = (b.extra id).isSome := Option.isSome_map
  rw [addBlockBuffer, BufferRegistry.addBlockBuffer, checkBlockSize, htaken]
  simp only [and_seven]
  split_ifs
  · rfl
  · rfl
  · rfl
  · rfl
  · rfl
  · rfl
  · exact congrArg Except.ok (registry_insert ..)

theorem registry_fragment (b : LinkBuffers) (desc : FragmentDescriptor) :
    (b.fragment desc).map (fun _ => ()) = b.registry.fragment desc := by
  have hlen : (b.bufferFor desc.bufferId).map Prod.snd = b.registry.bufferFor desc.bufferId := by
    rw [bufferFor, BufferRegistry.bufferFor]
    split_ifs
    · rfl
    · have hextra : b.registry.extra desc.bufferId =
          (b.extra desc.bufferId).map fun e => ⟨e.memory.size, e.blockSize.toNat⟩ := rfl
      rw [hextra]
      cases b.extra desc.bufferId with
      | none => rfl
      | some e => rfl
  rw [fragment, BufferRegistry.fragment, ← hlen]
  split_ifs
  · rfl
  · rfl
  · cases b.bufferFor desc.bufferId with
    | error e => rfl
    | ok found =>
        show Except.map _ (if _ then _ else _) = if _ then _ else _
        split_ifs
        · rfl
        · rfl

/-! ### Allocation -/

theorem bufferFor_extra (hid : id ≠ primaryBufferId) {e : MappedBuffer}
    (he : b.extra id = some e) : b.bufferFor id = .ok (.file e.memory.file, e.memory.size) := by
  rw [bufferFor, if_neg hid, he]

/-- Where the header of a block resolves, the block does, up to the end of its
buffer. -/
theorem fragment_of_header (hid : id ≠ primaryBufferId) {e : MappedBuffer}
    (he : b.extra id = some e) {offset size : UInt32}
    (h : b.fragment ⟨id, offset, 4⟩ = .ok m) (hend : offset.toNat + size.toNat ≤ e.memory.size) :
    b.fragment ⟨id, offset, size⟩ = .ok (.file e.memory.file) := by
  have hnull : (⟨id, offset, size⟩ : FragmentDescriptor).isNull = (⟨id, offset, 4⟩ :
      FragmentDescriptor).isNull := rfl
  rw [fragment] at h ⊢
  rw [hnull]
  split_ifs at h ⊢
  rw [bufferFor_extra hid he]
  exact if_neg (not_lt.mpr hend)

/-- A block that the loop takes is one whose header it has resolved. -/
theorem popLoop_some {region numBlocks : Nat} {front : BlockHeader}
    {rounds : List (BlockHeader × Option BlockHeader)}
    (h : b.popLoop id region blockSize numBlocks front rounds = some (.ok (some desc))) :
    ∃ hd ∈ front :: rounds.filterMap (·.2), firstFree hd ≠ 0 ∧ firstFree hd < numBlocks ∧
      (∃ m, b.fragment ⟨id, blockOffset region (firstFree hd) blockSize, 4⟩ = .ok m) ∧
      desc = ⟨id, blockOffset region (firstFree hd) blockSize, blockSize⟩ := by
  induction rounds generalizing front with
  | nil => cases h
  | cons round rounds ih =>
      obtain ⟨hdr, failed⟩ := round
      rw [popLoop] at h
      dsimp only at h
      split_ifs at h with hrange hnext
      · cases h
      · split at h <;> cases h
      · rw [not_or, not_le] at hrange
        split at h
        · cases h
        next m hm =>
          · cases failed with
            | some updated =>
                obtain ⟨hd, hmem, hd'⟩ := ih h
                exact ⟨hd, List.mem_cons_of_mem _ hmem, hd'⟩
            | none =>
                injection h with h
                injection h with h
                injection h with h
                exact ⟨front, List.mem_cons_self .., hrange.1, hrange.2, ⟨m, hm⟩, h.symm⟩

/-- Where the blocks of a buffer are in reach, no offset wraps. -/
theorem blockOffset_eq {numBlocks k : Nat} (hk : k < numBlocks)
    (hreach : (numBlocks - 1) * blockSize.toNat < 2 ^ 32) :
    (blockOffset 0 k blockSize).toNat = k * blockSize.toNat := by
  have hle : k * blockSize.toNat ≤ (numBlocks - 1) * blockSize.toNat :=
    Nat.mul_le_mul_right _ (Nat.le_sub_one_of_lt hk)
  have hlt : k * blockSize.toNat < 2 ^ 32 := Nat.lt_of_le_of_lt hle hreach
  have hmod : (((0 : Nat) : Int) + (k : Int) * (blockSize.toNat : Int)) % 2 ^ 32 =
      ((k * blockSize.toNat : Nat) : Int) := by
    rw [Int.natCast_zero, Int.zero_add, ← Int.natCast_mul]
    exact Int.emod_eq_of_lt (Int.natCast_nonneg _) (by exact_mod_cast hlt)
  rw [blockOffset, hmod, Int.toNat_natCast]
  exact UInt32.toNat_ofNat_of_lt' hlt

theorem Inv.popBlock_own (h : b.Inv) {e : MappedBuffer} (he : b.extra id = some e) {r : PopReads}
    (hr : ∀ front ∈ r.fronts, 0 ≤ firstFree front)
    (hpop : b.popBlock id 0 e.blockSize e.numBlocks r = some (.ok (some desc))) :
    b.OwnBlock desc := by
  obtain ⟨hid, hreach⟩ := h.registrable id e he
  rw [popBlock] at hpop
  split_ifs at hpop with hcount
  · cases hpop
  · rw [not_or, not_lt] at hcount
    split at hpop
    · cases hpop
    next =>
      obtain ⟨hd, hmem, hne, hlt, ⟨m, hfragment⟩, rfl⟩ := popLoop_some hpop
      obtain ⟨k, hk⟩ := Int.eq_ofNat_of_zero_le (hr hd hmem)
      rw [hk] at hne hlt hfragment ⊢
      have hk' : k < e.numBlocks := by exact_mod_cast hlt
      have hoffset := blockOffset_eq hk' (hreach hcount.2)
      have hend : k * e.blockSize.toNat + e.blockSize.toNat ≤ e.memory.size := by
        calc k * e.blockSize.toNat + e.blockSize.toNat = (k + 1) * e.blockSize.toNat :=
              (Nat.succ_mul ..).symm
          _ ≤ e.numBlocks * e.blockSize.toNat := Nat.mul_le_mul_right _ hk'
          _ ≤ e.memory.size := Nat.div_mul_le_self ..
      refine ⟨e, k, he, ?_, hk', hoffset, rfl, ?_, ?_⟩
      · exact Nat.pos_of_ne_zero fun hzero => hne (by rw [hzero]; rfl)
      · rw [← hoffset] at hend
        exact hend
      · exact fragment_of_header hid he hfragment (hoffset ▸ hend)

theorem Inv.allocateExtra_own (h : b.Inv) {ids : List UInt64} {reads : List PopReads}
    (hr : ∀ r ∈ reads, ∀ front ∈ r.fronts, 0 ≤ firstFree front)
    (halloc : b.allocateExtra blockSize ids reads = some (.ok (some desc))) : b.OwnBlock desc := by
  induction ids generalizing reads with
  | nil => cases halloc
  | cons id ids ih =>
      rw [allocateExtra] at halloc
      split at halloc
      · cases halloc
      next e he =>
        split_ifs at halloc with hsize
        · subst hsize
          cases reads with
          | nil => cases halloc
          | cons r reads =>
              dsimp only at halloc
              split at halloc
              · exact ih (fun r' hr' => hr r' (List.mem_cons_of_mem _ hr')) halloc
              · exact h.popBlock_own he (hr r (List.mem_cons_self ..)) halloc
        · exact ih hr halloc

/-- A fragment of the primary buffer. -/
theorem popBlock_bufferId {region numBlocks : Nat} {r : PopReads}
    (h : b.popBlock id region blockSize numBlocks r = some (.ok (some desc))) :
    desc.bufferId = id := by
  rw [popBlock] at h
  split_ifs at h with hcount
  · cases h
  · split at h
    · cases h
    · obtain ⟨hd, -, -, -, -, rfl⟩ := popLoop_some h
      rfl

/-- The primary buffer is asked only after all registered ones. -/
theorem tryAllocateFragment_cases {size : Nat} {reads : List PopReads} {primary : PopReads}
    (h : b.tryAllocateFragment size reads primary = some (.ok (some desc))) :
    b.fromExtra size reads = some (.ok (some desc)) ∨
      b.fromExtra size reads = some (.ok none) ∧ desc.bufferId = primaryBufferId := by
  rw [tryAllocateFragment] at h
  split at h
  next hnone =>
    right
    refine ⟨hnone, ?_⟩
    split at h
    · cases h
    · split at h
      · exact popBlock_bufferId h
      · cases h
  next => exact Or.inl h

theorem Inv.tryAllocateFragment_own (h : b.Inv) {size : Nat} {reads : List PopReads}
    {primary : PopReads} (hr : ∀ r ∈ reads, ∀ front ∈ r.fronts, 0 ≤ firstFree front)
    (halloc : b.tryAllocateFragment size reads primary = some (.ok (some desc))) :
    b.OwnBlock desc ∨
      b.fromExtra size reads = some (.ok none) ∧ desc.bufferId = primaryBufferId := by
  refine (tryAllocateFragment_cases halloc).imp_left fun hextra => ?_
  rw [fromExtra] at hextra
  split at hextra
  · cases hextra
  · exact h.allocateExtra_own hr hextra

/-! ### Every run -/

theorem fragment_step (h : b.fragment desc = .ok m) {call : BufferCall} (hsound : b.Sound call) :
    (b.step call).fragment desc = .ok m := by
  obtain hstep | ⟨id, e, hstep, hnew⟩ := b.step_cases call
  · rw [hstep]
    exact h
  · rw [hstep]
    exact fragment_insert (hnew hsound).1 e h

theorem Inv.agree (h : b.Inv) {call : BufferCall} (hsound : b.Sound call) : b.Agree call := by
  refine ⟨fun desc memory hd => fragment_step hd hsound, ?_⟩
  cases call with
  | addBlockBuffer id memory blockSize => trivial
  | registerBlockBuffer id memory blockSize => trivial
  | tryAllocateFragment size reads primary =>
      exact fun desc halloc => h.tryAllocateFragment_own hsound halloc

/-- In a run of sound calls the registry is in order in every state, and every
call agrees with it. -/
theorem buffers_agree (calls : List BufferCall) (h : Meets step Sound adopted calls) :
    Always step Integral adopted calls ∧ Meets step Agree adopted calls := by
  constructor
  · exact (always_of_meets (fun _ _ hb hc => hb.step hc) inv_adopted h).imp fun _ hb => hb.integral
  · exact h.imp (fun _ _ hb hc => hb.step hc) (fun _ _ hb hc => hb.agree hc) inv_adopted

/-- One round, in which the first block is free and taken. -/
def takesFirst (front : BlockHeader) : PopReads := ⟨front, [(⟨0, 0⟩, none)]⟩

/-- A peer adds a buffer of 64-byte blocks under `id`, and a fragment is
allocated.  The first word of the primary buffer is the next buffer id. -/
def addThenAllocate (id : UInt64) : List BufferCall :=
  [.addBlockBuffer id ⟨7, 65536⟩ 64, .tryAllocateFragment 64 [takesFirst ⟨1, 0⟩] (takesFirst ⟨0, 0⟩)]

theorem buffers_agree_first : Meets step Agree adopted (addThenAllocate 1) := by
  apply (buffers_agree (addThenAllocate 1) _).2
  refine ⟨fun _ _ _ => ⟨by decide, fun _ => by decide⟩, ?_, trivial⟩
  intro r hr front hfront
  obtain rfl := List.mem_singleton.mp hr
  obtain rfl := List.mem_singleton.mp hfront
  decide

theorem poolSizes_primary : (adopted.insert primaryBufferId ⟨⟨7, 65536⟩, 64⟩).registry.poolSizes =
    [64, 256, 512, 1024, 2048, 4096] := by
  have hsizes : (primaryBlockRegions.map Prod.fst ++ [64]).dedup =
      [256, 512, 1024, 2048, 4096, 64] := by decide
  show (primaryBlockRegions.map Prod.fst ++ [64]).dedup.mergeSort (· ≤ ·) = _
  rw [hsizes]
  simp [List.mergeSort, List.MergeSort.Internal.splitInTwo]

/-- Under the id of the primary buffer, what is allocated lies between the
header and the link states of the primary one. -/
theorem fromExtra_primary :
    (adopted.insert primaryBufferId ⟨⟨7, 65536⟩, 64⟩).fromExtra 64 [takesFirst ⟨1, 0⟩] =
      some (.ok (some ⟨primaryBufferId, 64, 64⟩)) := by
  rw [fromExtra, poolFor, poolSizes_primary]
  rfl

theorem primaryId_astray : ¬Meets step Agree adopted (addThenAllocate primaryBufferId) := by
  rintro ⟨-, ⟨-, hown⟩, -⟩
  have hextra := fromExtra_primary
  have halloc : (adopted.insert primaryBufferId ⟨⟨7, 65536⟩, 64⟩).tryAllocateFragment 64
      [takesFirst ⟨1, 0⟩] (takesFirst ⟨0, 0⟩) = some (.ok (some ⟨primaryBufferId, 64, 64⟩)) := by
    rw [tryAllocateFragment, hextra]
  obtain ⟨e, k, -, -, -, -, -, -, hresolves⟩ | ⟨hnone, -⟩ := hown _ halloc
  · cases hresolves
  · cases hextra.symm.trans hnone

end LinkBuffers

end MojoRs.Ipcz
