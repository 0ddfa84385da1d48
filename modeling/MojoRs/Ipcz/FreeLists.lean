/-
MojoRs/Ipcz/FreeLists.lean

The free lists of a link's memory, byte by byte.  The blocks of all regions are
apart from each other; the first four bytes of a free block are its header,
those of an allocated block belong to whoever holds it.

A heap is the memory together with the fragments that are held, by whichever
node.  It is well formed when every region has a list of free blocks, none of
them held (`LinkHeap.WellFormed`); then `pop_block` takes the block at the head
of the list and writes only the front header, and `free_block` writes that and
the header of the block it frees.

Main results: `blocks_disjoint`, `allocates_tryAllocateFragment`, `frees_freeBlock`.
-/
import MojoRs.Ipcz.BlockAllocatorSafety
import MojoRs.Ipcz.HostilePeer
import MojoRs.Ipcz.ParcelFragments

namespace MojoRs.Ipcz

open Lib Prog

variable {b : LinkBuffers} {r r' : BlockRegion} {key : MappedMemory} {k : Nat}

/-! ### Regions -/

/-- The buffers of a link are registered under ids of their own, each a memory
object of its own, with the block sizes that registration lets pass. -/
structure LinkBuffers.Registered (b : LinkBuffers) : Prop where
  id : ∀ id e, b.extra id = some e → id ≠ primaryBufferId ∧ id ≠ invalidBufferId
  checked : ∀ id e, b.extra id = some e → checkBlockSize e.memory e.blockSize = .ok ()
  own : ∀ id id' e e', b.extra id = some e → b.extra id' = some e' →
    e.memory.file = e'.memory.file → id = id'

/-- The blocks of every buffer that is small enough to allocate from begin
within the reach of 32 bits. -/
def LinkBuffers.InReach (b : LinkBuffers) : Prop :=
  ∀ id e, b.extra id = some e → e.numBlocks ≤ 2 ^ 15 - 1 →
    (e.numBlocks - 1) * e.blockSize.toNat < 2 ^ 32

/-- A region to allocate from, and the memory it lies in. -/
structure Usable (b : LinkBuffers) (r : BlockRegion) (key : MappedMemory) : Prop where
  region : IsRegion b r
  le : r.numBlocks ≤ 2 ^ 15 - 1
  pos : 0 < r.numBlocks
  valid : r.id ≠ invalidBufferId
  buffer : ∃ len, b.bufferFor r.id = .ok (key, len) ∧
    r.off + r.numBlocks * r.blockSize.toNat ≤ len
  aligned : r.off % 8 = 0 ∧ r.blockSize.toNat % 8 = 0
  large : minFragmentSize ≤ r.blockSize.toNat
  reach : r.off + (r.numBlocks - 1) * r.blockSize.toNat < 2 ^ 32

namespace BlockRegion

/-- The byte belongs to block `k`. -/
def Covers (r : BlockRegion) (k i : Nat) : Prop :=
  r.off + k * r.blockSize.toNat ≤ i ∧ i < r.off + (k + 1) * r.blockSize.toNat

/-- The descriptor of block `k`. -/
def block (r : BlockRegion) (k : Nat) : FragmentDescriptor :=
  ⟨r.id, blockOffset r.off k r.blockSize, r.blockSize⟩

/-- The headers of the blocks. -/
def headers (r : BlockRegion) (m : Memory MappedMemory) (key : MappedMemory) : Headers :=
  fun k => .ofBytes (m.bytesAt key (r.off + k * r.blockSize.toNat) 4)

end BlockRegion

section Usable

theorem checkBlockSize_ok {memory : MemoryFile} {blockSize : UInt32}
    (h : LinkBuffers.checkBlockSize memory blockSize = .ok ()) :
    minFragmentSize ≤ blockSize.toNat ∧ blockSize.toNat % 8 = 0 ∧
      minBlockAllocatorCapacity ≤ memory.size / blockSize.toNat := by
  rw [LinkBuffers.checkBlockSize] at h
  split_ifs at h with hsize hcount
  rw [not_or, not_lt, not_not] at hsize
  refine ⟨hsize.1, ?_, not_lt.mp hcount⟩
  have hand := congrArg UInt32.toNat hsize.2
  rw [UInt32.toNat_and] at hand
  have hmod := Nat.and_two_pow_sub_one_eq_mod blockSize.toNat 3
  exact hmod.symm.trans hand

theorem usable_primary {region : Nat × Nat × Nat} (hmem : region ∈ primaryBlockRegions) :
    Usable b ⟨primaryBufferId, region.2.1, .ofNat region.1, region.2.2⟩ .primary := by
  obtain ⟨hend, hoff, hmod, hmin⟩ := primaryRegion_bounds hmem
  have hall : ∀ x ∈ primaryBlockRegions, 0 < x.2.2 ∧ x.2.2 ≤ 2 ^ 15 - 1 ∧
      (UInt32.ofNat x.1).toNat = x.1 ∧ x.2.1 + (x.2.2 - 1) * x.1 < 2 ^ 32 := by decide
  obtain ⟨hcount, hle, hsize, hlast⟩ := hall _ hmem
  have hvalid : primaryBufferId ≠ invalidBufferId := by decide
  refine ⟨.inl ⟨region, hmem, rfl⟩, hle, hcount, hvalid, ⟨primaryBufferSize, rfl, ?_⟩,
    ⟨hoff, ?_⟩, ?_, ?_⟩
  all_goals
    dsimp only
    rw [hsize]
    assumption

/-- Every region small enough to allocate from is usable. -/
theorem exists_usable (hb : b.Registered) (hreach : b.InReach) (h : IsRegion b r)
    (hle : r.numBlocks ≤ 2 ^ 15 - 1) : ∃ key, Usable b r key := by
  rcases id h with ⟨region, hmem, rfl⟩ | ⟨hne, e, he, hr⟩
  · exact ⟨.primary, usable_primary hmem⟩
  · obtain ⟨-, hvalid⟩ := hb.id _ _ he
    obtain ⟨hmin, hmod, hcap⟩ := checkBlockSize_ok (hb.checked _ _ he)
    have hblocks : r.numBlocks = e.numBlocks := by rw [hr]; rfl
    have hsize : r.blockSize = e.blockSize := by rw [hr]; rfl
    have hoff : r.off = 0 := by rw [hr]; rfl
    refine ⟨.file e.memory.file, h, hle, ?_, hvalid, ⟨e.memory.size, ?_, ?_⟩, ⟨?_, ?_⟩, ?_, ?_⟩
    · rw [hblocks]
      exact Nat.lt_of_lt_of_le (by decide) hcap
    · rw [LinkBuffers.bufferFor, if_neg hne, he]
    · rw [hoff, hblocks, hsize, Nat.zero_add]
      exact Nat.div_mul_le_self _ _
    · rw [hoff]
    · rw [hsize]
      exact hmod
    · rw [hsize]
      exact hmin
    · rw [hoff, hblocks, hsize, Nat.zero_add]
      exact hreach _ _ he (hblocks ▸ hle)

theorem BlockRegion.block_end (hk : k < r.numBlocks) :
    r.off + (k + 1) * r.blockSize.toNat ≤ r.off + r.numBlocks * r.blockSize.toNat :=
  Nat.add_le_add_left (Nat.mul_le_mul_right _ hk) _

variable (h : Usable b r key)
include h

theorem Usable.toNat_blockOffset (hk : k < r.numBlocks) :
    (blockOffset r.off k r.blockSize).toNat = r.off + k * r.blockSize.toNat := by
  apply blockOffset_toNat
  have hlast : k * r.blockSize.toNat ≤ (r.numBlocks - 1) * r.blockSize.toNat :=
    Nat.mul_le_mul_right _ (by omega)
  have hreach := h.reach
  omega

theorem Usable.blockSize_pos : 0 < r.blockSize.toNat :=
  Nat.lt_of_lt_of_le (Nat.zero_lt_of_lt (by decide : 0 < minFragmentSize)) h.large

/-- A descriptor within a block resolves. -/
theorem Usable.fragment {offset size : UInt32} (hk : k < r.numBlocks)
    (hoffset : offset.toNat = r.off + k * r.blockSize.toNat)
    (hsize : size.toNat ≤ r.blockSize.toNat) : b.fragment ⟨r.id, offset, size⟩ = .ok key := by
  obtain ⟨len, hlen, hend⟩ := h.buffer
  obtain ⟨hoff, hmod⟩ := h.aligned
  have hblock := BlockRegion.block_end hk
  rw [Nat.add_mul, Nat.one_mul] at hblock
  have hnull : (FragmentDescriptor.mk r.id offset size).isNull = false :=
    beq_eq_false_iff_ne.mpr h.valid
  have haligned : (r.off + k * r.blockSize.toNat) % 8 = 0 := by
    rw [Nat.add_mod, Nat.mul_mod, hmod, hoff]
    rfl
  rw [LinkBuffers.fragment, if_neg (Bool.eq_false_iff.mp hnull), hoffset,
    if_neg (not_not.mpr haligned), hlen]
  have hin : r.off + k * r.blockSize.toNat + size.toNat ≤ len := by omega
  exact if_neg (Nat.not_lt.mpr hin)

theorem Usable.fragment_front : b.fragment r.frontDesc = .ok key := by
  have hoffset : (UInt32.ofNat r.off).toNat = r.off + 0 * r.blockSize.toNat := by
    have hreach := h.reach
    rw [Nat.zero_mul]
    exact toNat_ofNat (by omega)
  exact h.fragment h.pos hoffset (Nat.le_trans (by decide) h.large)

theorem Usable.front_offset : r.frontDesc.offset.toNat = r.off := by
  have hreach := h.reach
  exact toNat_ofNat (by omega)

theorem Usable.fragment_block (hk : k < r.numBlocks) : b.fragment (r.block k) = .ok key :=
  h.fragment hk (h.toNat_blockOffset hk) (Nat.le_refl _)

theorem Usable.fragment_header (hk : k < r.numBlocks) : b.fragment (r.headerDesc k) = .ok key :=
  h.fragment hk (h.toNat_blockOffset hk) (Nat.le_trans (by decide) h.large)

theorem Usable.isBlock (hpos : 0 < k) (hk : k < r.numBlocks) : r.IsBlock k (r.block k) :=
  ⟨hpos, hk, rfl, h.toNat_blockOffset hk, rfl⟩

end Usable

/-- A region lies in one memory. -/
theorem Usable.key_eq {key' : MappedMemory} (h : Usable b r key) (h' : Usable b r key') :
    key = key' := by
  obtain ⟨len, hlen, -⟩ := h.buffer
  obtain ⟨len', hlen', -⟩ := h'.buffer
  exact (Prod.mk.inj (Except.ok.inj (hlen.symm.trans hlen'))).1

theorem Usable.eq_block {desc : FragmentDescriptor} (h : Usable b r key) (his : r.IsBlock k desc) :
    desc = r.block k := by
  obtain ⟨-, hk, hid, hoffset, hsize⟩ := his
  obtain ⟨id, offset, size⟩ := desc
  obtain rfl : id = r.id := hid
  obtain rfl : size = r.blockSize := hsize
  obtain rfl : offset = blockOffset r.off k r.blockSize :=
    UInt32.toNat_inj.mp (hoffset.trans (h.toNat_blockOffset hk).symm)
  rfl

/-- A descriptor is a block of one region only, and of one index. -/
theorem isBlock_unique {k' : Nat} {desc : FragmentDescriptor} (hr : IsRegion b r)
    (hr' : IsRegion b r') (h : r.IsBlock k desc) (h' : r'.IsBlock k' desc)
    (hsize : 0 < r.blockSize.toNat) : r = r' ∧ k = k' := by
  obtain rfl := region_unique hr hr' (h.id.symm.trans h'.id) (h.size.symm.trans h'.size)
  refine ⟨rfl, Nat.eq_of_mul_eq_mul_right hsize ?_⟩
  exact Nat.add_left_cancel (h.offset.symm.trans h'.offset)

/-- Which memory a region lies in. -/
theorem Usable.memory_cases (h : Usable b r key) :
    (∃ region ∈ primaryBlockRegions,
      r = ⟨primaryBufferId, region.2.1, .ofNat region.1, region.2.2⟩ ∧ key = .primary) ∨
    ∃ e, b.extra r.id = some e ∧ r = LinkMemory.extraRegion r.id e ∧
      key = .file e.memory.file := by
  obtain ⟨len, hlen, -⟩ := h.buffer
  rcases h.region with ⟨region, hmem, hr⟩ | ⟨hne, e, he, hr⟩
  · rw [hr] at hlen
    exact .inl ⟨region, hmem, hr, (Prod.mk.inj (Except.ok.inj hlen)).1.symm⟩
  · rw [LinkBuffers.bufferFor, if_neg hne, he] at hlen
    exact .inr ⟨e, he, hr, (Prod.mk.inj (Except.ok.inj hlen)).1.symm⟩

/-- The regions of the primary buffer lie apart. -/
theorem primaryRegions_apart : ∀ x ∈ primaryBlockRegions, ∀ y ∈ primaryBlockRegions, x = y ∨
    x.2.1 + x.2.2 * (UInt32.ofNat x.1).toNat ≤ y.2.1 ∨
      y.2.1 + y.2.2 * (UInt32.ofNat y.1).toNat ≤ x.2.1 := by decide

/-- No byte belongs to two blocks. -/
theorem blocks_disjoint {k' i : Nat} (hb : b.Registered) (h : Usable b r key)
    (h' : Usable b r' key) (hk : k < r.numBlocks) (hk' : k' < r'.numBlocks) (hi : r.Covers k i)
    (hi' : r'.Covers k' i) : r = r' ∧ k = k' := by
  have hlast := Nat.lt_of_lt_of_le hi.2 (BlockRegion.block_end hk)
  have hlast' := Nat.lt_of_lt_of_le hi'.2 (BlockRegion.block_end hk')
  have hfirst := Nat.le_trans (Nat.le_add_right _ _) hi.1
  have hfirst' := Nat.le_trans (Nat.le_add_right _ _) hi'.1
  have hr : r = r' := by
    rcases h.memory_cases with ⟨x, hx, rfl, rfl⟩ | ⟨e, he, hr, rfl⟩
    · rcases h'.memory_cases with ⟨y, hy, rfl, -⟩ | ⟨e', -, -, hkey⟩
      · rcases primaryRegions_apart x hx y hy with rfl | happart | happart
        · rfl
        · exact absurd (Nat.lt_of_lt_of_le hlast happart) (Nat.not_lt.mpr hfirst')
        · exact absurd (Nat.lt_of_lt_of_le hlast' happart) (Nat.not_lt.mpr hfirst)
      · cases hkey
    · rcases h'.memory_cases with ⟨y, -, -, hkey⟩ | ⟨e', he', hr', hkey⟩
      · cases hkey
      · have hid := hb.own _ _ _ _ he he' (MappedMemory.file.inj hkey)
        obtain rfl := Option.some.inj (he.symm.trans (hid ▸ he'))
        rw [hr, hr', hid]
  subst hr
  refine ⟨rfl, ?_⟩
  have hlt : k < k' + 1 := Nat.lt_of_mul_lt_mul_right (a := r.blockSize.toNat)
    (by have := hi.1; have := hi'.2; omega)
  have hlt' : k' < k + 1 := Nat.lt_of_mul_lt_mul_right (a := r.blockSize.toNat)
    (by have := hi'.1; have := hi.2; omega)
  omega

/-! ### Heaps -/

/-- The bytes of the buffers, and the fragments that are held. -/
structure LinkHeap where
  mem : Memory MappedMemory
  held : List FragmentDescriptor

namespace LinkHeap

/-- The free blocks of a region, from the head of its list. -/
structure FreeList (s : LinkHeap) (r : BlockRegion) (key : MappedMemory) (l : List Nat) : Prop where
  linked : Linked (r.headers s.mem key) 0 l
  nodup : l.Nodup
  bounds : ∀ k ∈ l, 0 < k ∧ k < r.numBlocks
  free : ∀ k ∈ l, ∀ desc ∈ s.held, ¬r.IsBlock k desc

/-- Every region has a list of free blocks, and what is held are blocks. -/
structure WellFormed (b : LinkBuffers) (s : LinkHeap) : Prop where
  lists : ∀ r, IsRegion b r → r.numBlocks ≤ 2 ^ 15 - 1 → ∀ key len,
    b.bufferFor r.id = .ok (key, len) → ∃ l, s.FreeList r key l
  held : ∀ desc ∈ s.held, ∃ r k, IsRegion b r ∧ r.numBlocks ≤ 2 ^ 15 - 1 ∧ r.IsBlock k desc

end LinkHeap

open LinkHeap (FreeList WellFormed)

section Lists

variable {m m' : Memory MappedMemory} {s s' : LinkHeap} {l : List Nat}

theorem LinkHeap.WellFormed.list (hs : s.WellFormed b) (h : Usable b r key) :
    ∃ l, s.FreeList r key l := by
  obtain ⟨len, hlen, -⟩ := h.buffer
  exact hs.lists r h.region h.le key len hlen

/-- Block 0 of a region starts where the region does. -/
theorem headers_zero (r : BlockRegion) (m : Memory MappedMemory) (key : MappedMemory) :
    r.headers m key 0 = .ofBytes (m.bytesAt key r.off 4) := by
  rw [BlockRegion.headers, Nat.zero_mul, Nat.add_zero]

theorem Usable.headers_congr (h : Usable b r key)
    (hsame : ∀ i, r.Covers k i → m' key i = m key i) : r.headers m' key k = r.headers m key k := by
  have hlarge : 4 ≤ r.blockSize.toNat := Nat.le_trans (by decide) h.large
  refine congrArg BlockHeader.ofBytes (Memory.bytesAt_congr fun i hlo hhi => hsame i ⟨hlo, ?_⟩)
  rw [Nat.add_mul, Nat.one_mul]
  omega

/-- A list stays as long as its headers do. -/
theorem LinkHeap.FreeList.congr (hl : s.FreeList r key l)
    (hsame : ∀ k, k = 0 ∨ k ∈ l → r.headers s'.mem key k = r.headers s.mem key k)
    (hfree : ∀ k ∈ l, ∀ desc ∈ s'.held, ¬r.IsBlock k desc) : s'.FreeList r key l := by
  refine ⟨hl.linked.relink ?_ fun x hx => hsame x (.inr hx), hl.nodup, hl.bounds, hfree⟩
  rw [nextBlock, nextBlock, hsame 0 (.inl rfl)]

/-- Where the front of a list leads. -/
theorem LinkHeap.FreeList.firstFree_bounds (hl : s.FreeList r key l) (hpos : 0 < r.numBlocks) :
    0 ≤ nextBlock (r.headers s.mem key) 0 ∧
      nextBlock (r.headers s.mem key) 0 < r.numBlocks := by
  cases l with
  | nil =>
      have hnext : nextBlock (r.headers s.mem key) 0 = 0 := hl.linked
      omega
  | cons k l =>
      have hnext := hl.linked.1
      have hk := hl.bounds k List.mem_cons_self
      omega

/-- Where the block at the head leads. -/
theorem LinkHeap.FreeList.next_bounds (hl : s.FreeList r key (k :: l)) (hpos : 0 < r.numBlocks) :
    0 ≤ nextBlock (r.headers s.mem key) k ∧
      nextBlock (r.headers s.mem key) k < r.numBlocks := by
  cases l with
  | nil =>
      have hnext : nextBlock (r.headers s.mem key) k = 0 := hl.linked.2
      omega
  | cons c l =>
      have hnext := hl.linked.2.1
      have hc := hl.bounds c (List.mem_cons_of_mem _ List.mem_cons_self)
      omega

end Lists

/-! ### Runs of the parts -/

section Parts

variable {α : Type} {m : Memory MappedMemory}

theorem ofBytes_bytes (h : BlockHeader) : BlockHeader.ofBytes h.bytes = h := by
  have hnext : getU16 (leU16 h.version ++ leU16 h.next.toUInt16) 2 = h.next.toUInt16 := by
    rw [getU16_skip (Nat.le_of_eq (length_leU16 _))]
    exact (congrArg (getU16 · 0) (List.append_nil _).symm).trans (getU16_leU16 _ [])
  rw [BlockHeader.ofBytes, BlockHeader.bytes, getU16_leU16, hnext]
  rfl

theorem length_bytes (h : BlockHeader) : h.bytes.length = 4 := by
  rw [BlockHeader.bytes, List.length_append, length_leU16, length_leU16]

theorem run_readBlockHeader_bind {word : LinkWord} {desc : FragmentDescriptor}
    {g : BlockHeader → LinkProg α} (hm : b.fragment desc = .ok key) :
    (LinkMemory.readBlockHeader b word desc >>= g).run m =
      (g (.ofBytes (m.bytesAt key desc.offset.toNat 4))).run m := by
  rw [LinkMemory.readBlockHeader, hm]
  rfl

theorem run_writeBlockHeader_bind {word : LinkWord} {desc : FragmentDescriptor}
    {header : BlockHeader} {g : Unit → LinkProg α} (hm : b.fragment desc = .ok key) :
    (LinkMemory.writeBlockHeader b word desc header >>= g).run m =
      (g ()).run (m.putBytes key desc.offset.toNat header.bytes) := by
  rw [LinkMemory.writeBlockHeader, hm]
  rfl

theorem run_castI16_bind {x : Int} {g : Int16 → LinkProg α} :
    (castI16 x >>= g).run m = (g (.ofInt x)).run m := rfl

theorem run_offsetOf_bind {idx : Int} {g : UInt32 → LinkProg α} :
    (r.offsetOf idx >>= g).run m = (g (blockOffset r.off idx r.blockSize)).run m := rfl

/-- The exchange succeeds unless it fails for no reason, and else changes nothing. -/
theorem run_casFrontHeader_bind (h : Usable b r key) {desired : BlockHeader} {spurious : Bool}
    {g : Option BlockHeader → LinkProg α} :
    (LinkMemory.casFrontHeader b r (r.headers m key 0) desired spurious >>= g).run m =
      if spurious = false then (g none).run (m.putBytes key r.off desired.bytes)
      else (g (some (r.headers m key 0))).run m := by
  rw [LinkMemory.casFrontHeader, h.fragment_front, h.front_offset]
  let bytes := m.bytesAt key r.off 4
  change (Prog.bind (if .ofBytes bytes = r.headers m key 0 ∧ spurious = false then pure none
    else pure (some (.ofBytes bytes))) g).run (m.putBytes key r.off
      (if .ofBytes bytes = r.headers m key 0 ∧ spurious = false then desired.bytes else bytes)) = _
  rw [← headers_zero]
  cases spurious with
  | false =>
      rw [if_pos ⟨rfl, rfl⟩, if_pos ⟨rfl, rfl⟩, if_pos rfl]
      rfl
  | true =>
      rw [if_neg (by simp), if_neg (by simp), if_neg (by simp), Memory.putBytes_bytesAt]
      rfl

end Parts

/-! ### Allocation -/

section Allocation

variable {m : Memory MappedMemory} {s : LinkHeap} {l : List Nat}

/-- The front header after block `k` was taken from the head of the list. -/
def poppedFront (r : BlockRegion) (m : Memory MappedMemory) (key : MappedMemory) (k : Nat) :
    BlockHeader :=
  ⟨(r.headers m key 0).version + 1, .ofInt (nextBlock (r.headers m key) k - 1)⟩

/-- Another front header. -/
def putFront (r : BlockRegion) (m : Memory MappedMemory) (key : MappedMemory)
    (header : BlockHeader) : Memory MappedMemory :=
  m.putBytes key r.off header.bytes

/-- The heap after the block at the head of a list was taken. -/
def LinkHeap.pop (s : LinkHeap) (r : BlockRegion) (key : MappedMemory) (k : Nat) : LinkHeap :=
  ⟨putFront r s.mem key (poppedFront r s.mem key k), r.block k :: s.held⟩

/-- What an allocation of `size` bytes comes to: nothing, or the block at the
head of a list. -/
inductive Allocates (b : LinkBuffers) (s : LinkHeap) (size : Nat) :
    LinkResult (Option FragmentDescriptor) × Memory MappedMemory → Prop
  | nothing {res : LinkResult (Option FragmentDescriptor)}
      (hres : ∀ desc, res ≠ some (.ok (some desc))) : Allocates b s size (res, s.mem)
  | block {r : BlockRegion} {key : MappedMemory} {k : Nat} {l : List Nat} (h : Usable b r key)
      (hl : s.FreeList r key (k :: l)) (hsize : size ≤ r.blockSize.toNat) :
      Allocates b s size (some (.ok (some (r.block k))), (s.pop r key k).mem)

section Nothing

variable {size : Nat}

theorem Allocates.exhausted : Allocates b s size (some (.ok none), s.mem) := by
  apply Allocates.nothing
  rintro desc ⟨⟩

theorem Allocates.error (e : LinkMemoryError) : Allocates b s size (some (.error e), s.mem) := by
  apply Allocates.nothing
  rintro desc ⟨⟩

theorem Allocates.stuck : Allocates b s size (none, s.mem) := by
  apply Allocates.nothing
  rintro desc ⟨⟩

end Nothing

theorem run_popTurn (h : Usable b r key) (hl : s.FreeList r key (k :: l))
    (cont : FragmentDescriptor → BlockHeader → LinkProg (Option FragmentDescriptor)) :
    (LinkMemory.popTurn b r (r.headers s.mem key 0) cont).run s.mem =
      (cont (r.block k) (poppedFront r s.mem key k)).run s.mem := by
  obtain ⟨hpos, hk⟩ := hl.bounds k List.mem_cons_self
  have hfirst : firstFree (r.headers s.mem key 0) = k := (firstFree_eq _).trans hl.linked.1
  have hnext := hl.next_bounds h.pos
  have hm : b.fragment ⟨r.id, blockOffset r.off k r.blockSize, 4⟩ = .ok key :=
    h.fragment_header hk
  have hheader : BlockHeader.ofBytes
      (s.mem.bytesAt key (blockOffset r.off k r.blockSize).toNat 4) = r.headers s.mem key k := by
    rw [h.toNat_blockOffset hk]
    rfl
  rw [nextBlock] at hnext
  rw [LinkMemory.popTurn, hfirst]
  dsimp only
  rw [if_neg (by omega), run_offsetOf_bind, run_readBlockHeader_bind hm, hheader,
    if_neg (by omega), run_castI16_bind]
  rfl

/-- A list without blocks. -/
theorem run_popTurn_nil (hl : s.FreeList r key [])
    (cont : FragmentDescriptor → BlockHeader → LinkProg (Option FragmentDescriptor)) :
    LinkMemory.popTurn b r (r.headers s.mem key 0) cont = pure none := by
  have hfirst : firstFree (r.headers s.mem key 0) = 0 := (firstFree_eq _).trans hl.linked
  rw [LinkMemory.popTurn]
  exact if_pos (.inl hfirst)

theorem allocates_popLoop (h : Usable b r key) {l : List Nat} (hl : s.FreeList r key l)
    (weak : List Bool) : Allocates b s r.blockSize.toNat
      ((LinkMemory.popLoop b r weak (r.headers s.mem key 0)).run s.mem) := by
  cases l with
  | nil =>
      have hnone : LinkMemory.popLoop b r weak (r.headers s.mem key 0) = pure none := by
        cases weak with
        | nil => exact run_popTurn_nil hl _
        | cons spurious weak => exact run_popTurn_nil hl _
      rw [hnone]
      exact .exhausted
  | cons k l =>
      induction weak with
      | nil =>
          rw [LinkMemory.popLoop, run_popTurn h hl]
          exact .stuck
      | cons spurious weak ih =>
          rw [LinkMemory.popLoop, run_popTurn h hl, run_casFrontHeader_bind h]
          cases spurious with
          | false => exact .block h hl (Nat.le_refl _)
          | true => exact ih

/-- `pop_block` on a region of the link. -/
theorem allocates_popBlock (hb : b.Registered) (hreach : b.InReach) (hs : s.WellFormed b)
    (hr : IsRegion b r) (weak : List Bool) :
    Allocates b s r.blockSize.toNat ((LinkMemory.popBlock b r weak).run s.mem) := by
  rw [LinkMemory.popBlock]
  split
  · exact .exhausted
  · rename_i hcount
    obtain ⟨key, h⟩ := exists_usable hb hreach hr (by omega)
    obtain ⟨l, hl⟩ := hs.list h
    rw [run_readBlockHeader_bind h.fragment_front, h.front_offset, ← headers_zero]
    exact allocates_popLoop h hl weak

/-- What follows an allocation: nothing, if it fails, or what is done with the
block. -/
theorem Allocates.run_bind {α : Type} {size : Nat} {p : LinkProg (Option FragmentDescriptor)}
    {g : Option FragmentDescriptor → LinkProg α} (hp : Allocates b s size (p.run s.mem)) :
    (∃ res, (∀ a, res ≠ some (.ok a)) ∧ (p >>= g).run s.mem = (res, s.mem)) ∨
      (p >>= g).run s.mem = (g none).run s.mem ∨
      ∃ r key k l, Usable b r key ∧ s.FreeList r key (k :: l) ∧ size ≤ r.blockSize.toNat ∧
        (p >>= g).run s.mem = (g (some (r.block k))).run (s.pop r key k).mem := by
  generalize hrun : p.run s.mem = out at hp
  cases hp with
  | @nothing res hres =>
      cases res with
      | none => exact .inl ⟨none, nofun, run_bind_stuck hrun⟩
      | some res =>
          cases res with
          | error e => exact .inl ⟨some (.error e), nofun, run_bind_error hrun⟩
          | ok block =>
              cases block with
              | none => exact .inr (.inl (Prog.run_bind hrun))
              | some block => exact absurd rfl (hres block)
  | @block r key k l h hl hsize =>
      exact .inr (.inr ⟨r, key, k, l, h, hl, hsize, Prog.run_bind hrun⟩)

/-- One allocation, and another if it comes to nothing. -/
theorem Allocates.orElse {size : Nat} {p : LinkProg (Option FragmentDescriptor)}
    {g : Option FragmentDescriptor → LinkProg (Option FragmentDescriptor)}
    (hp : Allocates b s size (p.run s.mem)) (hsome : ∀ block, g (some block) = pure (some block))
    (hnone : Allocates b s size ((g none).run s.mem)) :
    Allocates b s size ((p >>= g).run s.mem) := by
  rcases hp.run_bind (g := g) with ⟨res, hres, hrun⟩ | hrun | ⟨r, key, k, l, h, hl, hsize, hrun⟩
  · rw [hrun]
    exact .nothing fun _ => hres _
  · rw [hrun]
    exact hnone
  · rw [hrun, hsome]
    exact .block h hl hsize

theorem Allocates.mono {size size' : Nat}
    {out : LinkResult (Option FragmentDescriptor) × Memory MappedMemory} (hle : size' ≤ size)
    (h : Allocates b s size out) : Allocates b s size' out := by
  cases h with
  | nothing hres => exact .nothing hres
  | block h hl hsize => exact .block h hl (Nat.le_trans hle hsize)

theorem allocates_popExtra (hb : b.Registered) (hreach : b.InReach) (hs : s.WellFormed b)
    (weak : BlockRegion → List Bool) (poolSize : UInt32) (ids : List UInt64) :
    Allocates b s poolSize.toNat ((LinkMemory.popExtra b weak poolSize ids).run s.mem) := by
  induction ids with
  | nil => exact .exhausted
  | cons id ids ih =>
      rw [LinkMemory.popExtra]
      split
      · exact .error _
      · rename_i e he
        split
        · rename_i hsize
          have hr : IsRegion b (LinkMemory.extraRegion id e) := .inr ⟨(hb.id _ _ he).1, e, he, rfl⟩
          have hpop := allocates_popBlock hb hreach hs hr (weak (LinkMemory.extraRegion id e))
          exact (hpop.mono (Nat.le_of_eq (congrArg UInt32.toNat hsize.symm))).orElse
            (fun _ => rfl) ih
        · exact ih

theorem poolSize_lt {poolSize : Nat} (h : poolSize ∈ b.registry.poolSizes) : poolSize < 2 ^ 32 := by
  rw [BufferRegistry.poolSizes, List.mem_mergeSort, List.mem_dedup, List.mem_append] at h
  rcases h with h | h
  · have hall : ∀ x ∈ primaryBlockRegions.map (·.1), x < 2 ^ 32 := by decide
    exact hall _ h
  · obtain ⟨id, -, hid⟩ := List.mem_filterMap.mp h
    obtain ⟨e, he, rfl⟩ := Option.map_eq_some_iff.mp hid
    obtain ⟨e', -, rfl⟩ := Option.map_eq_some_iff.mp he
    exact e'.blockSize.toNat_lt

/-- A pool is one of blocks large enough. -/
theorem le_poolFor {size poolSize : Nat} (h : b.poolFor size = some poolSize) :
    size ≤ (UInt32.ofNat poolSize).toNat := by
  rw [LinkBuffers.poolFor] at h
  split at h
  · cases h
  · have hle := List.find?_some h
    rw [decide_eq_true_eq] at hle
    rw [toNat_ofNat (poolSize_lt (List.mem_of_find?_eq_some h))]
    exact Nat.le_trans (le_blockSizeForFragmentSize size) hle

theorem primaryRegion_isRegion {poolSize : Nat} (h : LinkMemory.primaryRegion poolSize = some r) :
    IsRegion b r ∧ r.blockSize = .ofNat poolSize := by
  obtain ⟨region, hfind, rfl⟩ := Option.map_eq_some_iff.mp h
  have hsize : region.1 = poolSize := by simpa using List.find?_some hfind
  refine ⟨.inl ⟨region, List.mem_of_find?_eq_some hfind, ?_⟩, rfl⟩
  rw [hsize]

/-- `try_allocate_fragment`. -/
theorem allocates_tryAllocateFragment (hb : b.Registered) (hreach : b.InReach)
    (hs : s.WellFormed b) (weak : BlockRegion → List Bool) (size : Nat) :
    Allocates b s size ((LinkMemory.tryAllocateFragment b weak size).run s.mem) := by
  rw [LinkMemory.tryAllocateFragment]
  split
  · exact .exhausted
  · rename_i poolSize hpool
    have hsize := le_poolFor hpool
    refine ((allocates_popExtra hb hreach hs weak _ _).mono hsize).orElse (fun _ => rfl) ?_
    dsimp only
    split
    · rename_i r hr
      obtain ⟨hregion, hblock⟩ := primaryRegion_isRegion hr
      exact (allocates_popBlock hb hreach hs hregion (weak r)).mono (hblock ▸ hsize)
    · exact .exhausted

end Allocation

/-! ### What a write leaves -/

section Frames

variable {m m' : Memory MappedMemory} {s : LinkHeap} {l : List Nat}

/-- Bytes put into one block leave the others alone. -/
theorem putBytes_apart {key' : MappedMemory} {k' off i : Nat} {bytes : List UInt8}
    (hb : b.Registered) (h : Usable b r key) (h' : Usable b r' key') (hk : k < r.numBlocks)
    (hk' : k' < r'.numBlocks) (hin : ∀ i, off ≤ i → i < off + bytes.length → r.Covers k i)
    (hne : ¬(r' = r ∧ k' = k)) (hi : r'.Covers k' i) :
    m.putBytes key off bytes key' i = m key' i := by
  apply Memory.putBytes_of_not_mem
  rintro ⟨rfl, hlo, hhi⟩
  exact hne (blocks_disjoint hb h' h hk' hk hi (hin i hlo hhi))

/-- The header of a block belongs to it. -/
theorem Usable.covers_header (h : Usable b r key) {i : Nat} (header : BlockHeader)
    (hlo : r.off + k * r.blockSize.toNat ≤ i)
    (hhi : i < r.off + k * r.blockSize.toNat + header.bytes.length) : r.Covers k i := by
  have hlarge : 4 ≤ r.blockSize.toNat := Nat.le_trans (by decide) h.large
  rw [length_bytes] at hhi
  refine ⟨hlo, ?_⟩
  rw [Nat.add_mul, Nat.one_mul]
  omega

theorem headers_putBytes (r : BlockRegion) (k : Nat) (header : BlockHeader) :
    r.headers (m.putBytes key (r.off + k * r.blockSize.toNat) header.bytes) key k = header := by
  rw [BlockRegion.headers]
  have hput := Memory.bytesAt_putBytes m key (r.off + k * r.blockSize.toNat) header.bytes
  rw [length_bytes] at hput
  rw [hput, ofBytes_bytes]

theorem headers_putBytes_apart {key' : MappedMemory} {k' : Nat} (hb : b.Registered)
    (h : Usable b r key) (h' : Usable b r' key') (hk : k < r.numBlocks)
    (hk' : k' < r'.numBlocks) (hne : ¬(r' = r ∧ k' = k)) (header : BlockHeader) :
    r'.headers (m.putBytes key (r.off + k * r.blockSize.toNat) header.bytes) key' k' =
      r'.headers m key' k' :=
  h'.headers_congr fun _ hi => putBytes_apart hb h h' hk hk'
    (fun _ hlo hhi => h.covers_header header hlo hhi) hne hi

theorem LinkHeap.WellFormed.of_lists (hb : b.Registered) (hreach : b.InReach)
    (hlists : ∀ r key, Usable b r key → ∃ l, s.FreeList r key l)
    (hheld : ∀ desc ∈ s.held, ∃ r key k, Usable b r key ∧ r.IsBlock k desc) : s.WellFormed b := by
  constructor
  · intro r hr hle key len hlen
    obtain ⟨key', h⟩ := exists_usable hb hreach hr hle
    obtain ⟨len', hlen', -⟩ := h.buffer
    obtain rfl := (Prod.mk.inj (Except.ok.inj (hlen.symm.trans hlen'))).1
    exact hlists r key h
  · intro desc hdesc
    obtain ⟨r, key, k, h, his⟩ := hheld desc hdesc
    exact ⟨r, k, h.region, h.le, his⟩

theorem LinkHeap.WellFormed.block (hb : b.Registered) (hreach : b.InReach) (hs : s.WellFormed b)
    {desc : FragmentDescriptor} (hdesc : desc ∈ s.held) :
    ∃ r key k, Usable b r key ∧ r.IsBlock k desc := by
  obtain ⟨r, k, hr, hle, his⟩ := hs.held desc hdesc
  obtain ⟨key, h⟩ := exists_usable hb hreach hr hle
  exact ⟨r, key, k, h, his⟩

/-- A heap stays well formed where only bytes of held fragments change, or
bytes of no region. -/
theorem LinkHeap.WellFormed.frame (hb : b.Registered) (hreach : b.InReach) (hs : s.WellFormed b)
    (hsame : ∀ r key k, Usable b r key → k < r.numBlocks → (∀ desc ∈ s.held, ¬r.IsBlock k desc) →
      ∀ i, r.Covers k i → m' key i = s.mem key i) : (⟨m', s.held⟩ : LinkHeap).WellFormed b := by
  apply WellFormed.of_lists hb hreach
  · intro r key h
    obtain ⟨l, hl⟩ := hs.list h
    refine ⟨l, hl.congr (fun k hk => h.headers_congr ?_) hl.free⟩
    rcases hk with rfl | hk
    · exact hsame r key 0 h h.pos fun _ _ his => absurd his.pos (Nat.lt_irrefl 0)
    · exact hsame r key k h (hl.bounds k hk).2 (hl.free k hk)
  · exact fun desc hdesc => hs.block hb hreach hdesc

theorem putFront_eq (r : BlockRegion) (header : BlockHeader) :
    putFront r m key header =
      m.putBytes key (r.off + 0 * r.blockSize.toNat) header.bytes := by
  rw [putFront, Nat.zero_mul, Nat.add_zero]

theorem LinkHeap.FreeList.pop (hb : b.Registered) (h : Usable b r key)
    (hl : s.FreeList r key (k :: l)) : (s.pop r key k).FreeList r key l := by
  have hnext := hl.next_bounds h.pos
  have hle := h.le
  have hfront : r.headers (s.pop r key k).mem key 0 = poppedFront r s.mem key k := by
    rw [LinkHeap.pop, putFront_eq]
    exact headers_putBytes r 0 _
  obtain ⟨hk, hnodup⟩ := List.nodup_cons.mp hl.nodup
  constructor
  · refine Linked.relink (b := k) ?_ (fun x hx => ?_) hl.linked.2
    · rw [nextBlock, hfront, poppedFront, toInt_ofInt (by omega) (by omega)]
      omega
    · obtain ⟨hpos, hlt⟩ := hl.bounds x (List.mem_cons_of_mem _ hx)
      rw [LinkHeap.pop, putFront_eq]
      exact headers_putBytes_apart hb h h h.pos hlt (fun h0 => by omega) _
  · exact hnodup
  · exact fun x hx => hl.bounds x (List.mem_cons_of_mem _ hx)
  · intro x hx desc hdesc his
    rcases List.mem_cons.mp hdesc with rfl | hdesc
    · obtain ⟨hpos, hlt⟩ := hl.bounds k List.mem_cons_self
      obtain ⟨-, rfl⟩ :=
        isBlock_unique h.region h.region (h.isBlock hpos hlt) his h.blockSize_pos
      exact hk hx
    · exact hl.free x (List.mem_cons_of_mem _ hx) desc hdesc his

/-- A heap stays well formed when a block is taken. -/
theorem LinkHeap.WellFormed.pop (hb : b.Registered) (hreach : b.InReach) (hs : s.WellFormed b)
    (h : Usable b r key) (hl : s.FreeList r key (k :: l)) : (s.pop r key k).WellFormed b := by
  obtain ⟨hpos, hlt⟩ := hl.bounds k List.mem_cons_self
  apply WellFormed.of_lists hb hreach
  · intro r' key' h'
    by_cases hr : r' = r
    · subst hr
      obtain rfl := h.key_eq h'
      exact ⟨l, hl.pop hb h⟩
    · obtain ⟨l', hl'⟩ := hs.list h'
      refine ⟨l', hl'.congr (fun x hx => ?_) fun x hx desc hdesc his => ?_⟩
      · have hx' : x < r'.numBlocks := by
          rcases hx with rfl | hx
          · exact h'.pos
          · exact (hl'.bounds x hx).2
        rw [LinkHeap.pop, putFront_eq]
        exact headers_putBytes_apart hb h h' h.pos hx' (fun h0 => hr h0.1) _
      · rcases List.mem_cons.mp hdesc with rfl | hdesc
        · exact hr
            (isBlock_unique h'.region h.region his (h.isBlock hpos hlt) h'.blockSize_pos).1
        · exact hl'.free x hx desc hdesc his
  · intro desc hdesc
    rcases List.mem_cons.mp hdesc with rfl | hdesc
    · exact ⟨r, key, k, h, h.isBlock hpos hlt⟩
    · exact hs.block hb hreach hdesc

end Frames

/-! ### Freeing -/

section Freeing

variable {m : Memory MappedMemory} {s : LinkHeap} {l : List Nat} {desc : FragmentDescriptor}

/-- The header of a block that is put before the head of the list. -/
def pushedHeader (r : BlockRegion) (m : Memory MappedMemory) (key : MappedMemory) (k : Nat) :
    BlockHeader :=
  ⟨0, .ofInt (firstFree (r.headers m key 0) - k - 1)⟩

/-- The memory with that header. -/
def linkBlock (r : BlockRegion) (m : Memory MappedMemory) (key : MappedMemory) (k : Nat) :
    Memory MappedMemory :=
  m.putBytes key (r.off + k * r.blockSize.toNat) (pushedHeader r m key k).bytes

/-- The front header that leads to it. -/
def pushedFront (r : BlockRegion) (m : Memory MappedMemory) (key : MappedMemory) (k : Nat) :
    BlockHeader :=
  ⟨(r.headers m key 0).version + 1, .ofInt (k - 1)⟩

/-- The heap after a block was put before the head of the list. -/
def LinkHeap.push (s : LinkHeap) (r : BlockRegion) (key : MappedMemory) (k : Nat) : LinkHeap :=
  ⟨putFront r (linkBlock r s.mem key k) key (pushedFront r s.mem key k),
    s.held.filter (· ≠ r.block k)⟩

theorem run_freeTurn (h : Usable b r key) (hk : k < r.numBlocks) {front : BlockHeader}
    (hfront : 0 ≤ firstFree front ∧ firstFree front < r.numBlocks)
    (cont : BlockHeader → LinkProg Bool) :
    (LinkMemory.freeTurn b r k front cont).run m =
      (cont ⟨front.version + 1, .ofInt (k - 1)⟩).run (m.putBytes key
        (r.off + k * r.blockSize.toNat)
        (BlockHeader.bytes ⟨0, .ofInt (firstFree front - k - 1)⟩)) := by
  have hm : b.fragment ⟨r.id, blockOffset r.off k r.blockSize, 4⟩ = .ok key :=
    h.fragment_header hk
  have hcast : asI32 r.numBlocks = r.numBlocks := asI32_of_lt (by have := h.le; omega)
  rw [LinkMemory.freeTurn, hcast, if_neg (by omega), run_castI16_bind, run_offsetOf_bind,
    run_writeBlockHeader_bind hm, run_castI16_bind]
  dsimp only
  rw [h.toNat_blockOffset hk]

/-- The loop of `free_block` writes the header of the block in every turn, and
the front header at its end. -/
theorem run_freeLoop (hb : b.Registered) (h : Usable b r key) (hpos : 0 < k)
    (hk : k < r.numBlocks) (hl : s.FreeList r key l) (weak : List Bool)
    (hm : m = s.mem ∨ m = linkBlock r s.mem key k) :
    (LinkMemory.freeLoop b r k weak (r.headers s.mem key 0)).run m =
        (none, linkBlock r s.mem key k) ∨
      (LinkMemory.freeLoop b r k weak (r.headers s.mem key 0)).run m =
        (some (.ok true), (s.push r key k).mem) := by
  have hfront : 0 ≤ firstFree (r.headers s.mem key 0) ∧
      firstFree (r.headers s.mem key 0) < r.numBlocks := by
    rw [firstFree_eq]
    exact hl.firstFree_bounds h.pos
  have hwrite : m.putBytes key (r.off + k * r.blockSize.toNat) (pushedHeader r s.mem key k).bytes =
      linkBlock r s.mem key k := by
    rcases hm with rfl | rfl
    · rfl
    · exact Memory.putBytes_putBytes ..
  have hsame : r.headers (linkBlock r s.mem key k) key 0 = r.headers s.mem key 0 :=
    headers_putBytes_apart hb h h hk h.pos (fun h0 => by omega) _
  induction weak generalizing m with
  | nil =>
      rw [LinkMemory.freeLoop, run_freeTurn h hk hfront, ← pushedHeader, hwrite]
      exact .inl rfl
  | cons spurious weak ih =>
      rw [LinkMemory.freeLoop, run_freeTurn h hk hfront, ← pushedHeader, hwrite, ← hsame,
        run_casFrontHeader_bind h]
      cases spurious with
      | false =>
          right
          rw [hsame]
          rfl
      | true =>
          rw [hsame]
          exact ih (.inr rfl) (Memory.putBytes_putBytes ..)

/-- The region of a block is found by its size. -/
theorem freeRegion_of_isBlock (hb : b.Registered) (h : Usable b r key) (his : r.IsBlock k desc) :
    LinkMemory.freeRegion b desc = some r := by
  have hfound : (LinkMemory.freeRegion b desc).isSome := by
    rw [LinkMemory.freeRegion]
    rcases h.memory_cases with ⟨⟨blockSize, off, count⟩, hmem, hr, -⟩ | ⟨e, he, hr, -⟩
    · have hid : desc.bufferId = primaryBufferId := by rw [his.id, hr]
      have hall : ∀ x ∈ primaryBlockRegions, (UInt32.ofNat x.1).toNat = x.1 := by decide
      have hsize : r.blockSize.toNat = blockSize := by
        rw [hr]
        exact hall _ hmem
      have hoff : r.off = off := by rw [hr]
      have hcount : r.numBlocks = count := by rw [hr]
      have hend := BlockRegion.block_end his.lt
      rw [hsize, hoff, hcount, Nat.add_mul, Nat.one_mul] at hend
      rw [if_pos hid, Option.isSome_map, List.find?_isSome]
      refine ⟨(blockSize, off, count), hmem, decide_eq_true ⟨?_, ?_, ?_⟩⟩
      · rw [his.size, hsize]
      · rw [his.offset, hoff]
        exact Nat.le_add_right _ _
      · rw [his.offset, his.size, hsize, hoff]
        omega
    · have hne : desc.bufferId ≠ primaryBufferId := his.id.symm ▸ (hb.id _ _ he).1
      rw [if_neg hne, his.id, he]
      have hsize : e.blockSize = desc.size := by rw [his.size, hr]; rfl
      show (if e.blockSize = desc.size then _ else _ : Option BlockRegion).isSome
      rw [if_pos hsize]
      rfl
  obtain ⟨r', hr'⟩ := Option.isSome_iff_exists.mp hfound
  obtain ⟨hregion, hid, hsize, -⟩ := freeRegion_spec hr'
  rw [hr', region_unique h.region hregion (his.id.symm.trans hid) (his.size.symm.trans hsize)]

theorem indexOf_of_isBlock (h : Usable b r key) (his : r.IsBlock k desc) :
    r.indexOf desc = k := by
  rw [BlockRegion.indexOf, his.offset, Nat.add_sub_cancel_left,
    Nat.mul_div_cancel _ h.blockSize_pos]

/-- `free_block` of a block of the link. -/
theorem run_freeBlock (hb : b.Registered) (hs : s.WellFormed b)
    (h : Usable b r key) (his : r.IsBlock k desc) (weak : List Bool) :
    (LinkMemory.freeBlock b desc weak).run s.mem = (none, linkBlock r s.mem key k) ∨
      (LinkMemory.freeBlock b desc weak).run s.mem = (some (.ok true), (s.push r key k).mem) := by
  obtain ⟨l, hl⟩ := hs.list h
  have hindex := indexOf_of_isBlock h his
  rw [freeBlock_eq (freeRegion_of_isBlock hb h his) (hindex ▸ his.pos) (hindex ▸ his.lt), hindex,
    run_readBlockHeader_bind h.fragment_front, h.front_offset, ← headers_zero]
  exact run_freeLoop hb h his.pos his.lt hl weak (.inl rfl)

theorem LinkHeap.FreeList.push (hb : b.Registered) (h : Usable b r key) (hpos : 0 < k)
    (hk : k < r.numBlocks) (hheld : r.block k ∈ s.held) (hl : s.FreeList r key l) :
    (s.push r key k).FreeList r key (k :: l) := by
  have hle := h.le
  have hbounds := hl.firstFree_bounds h.pos
  have hnotin : k ∉ l := fun hin => hl.free k hin _ hheld (h.isBlock hpos hk)
  have hfront : r.headers (s.push r key k).mem key 0 = pushedFront r s.mem key k := by
    rw [LinkHeap.push, putFront_eq]
    exact headers_putBytes r 0 _
  have hother : ∀ x, 0 < x → x < r.numBlocks →
      r.headers (s.push r key k).mem key x = r.headers (linkBlock r s.mem key k) key x := by
    intro x hx hlt
    rw [LinkHeap.push, putFront_eq]
    exact headers_putBytes_apart hb h h h.pos hlt (fun h0 => by omega) _
  have hheader : r.headers (s.push r key k).mem key k = pushedHeader r s.mem key k := by
    rw [hother k hpos hk, linkBlock, headers_putBytes]
  constructor
  · refine ⟨?_, hl.linked.relink ?_ fun x hx => ?_⟩
    · rw [nextBlock, hfront, pushedFront, toInt_ofInt (by omega) (by omega)]
      omega
    · rw [nextBlock, hheader, pushedHeader, firstFree_eq, toInt_ofInt (by omega) (by omega)]
      omega
    · obtain ⟨hx0, hlt⟩ := hl.bounds x hx
      rw [hother x hx0 hlt]
      exact headers_putBytes_apart hb h h hk hlt (fun h0 => hnotin (h0.2 ▸ hx)) _
  · exact List.nodup_cons.mpr ⟨hnotin, hl.nodup⟩
  · exact List.forall_mem_cons.mpr ⟨⟨hpos, hk⟩, hl.bounds⟩
  · intro x hx desc hdesc his
    obtain ⟨hdesc, hne⟩ := List.mem_filter.mp hdesc
    rcases List.mem_cons.mp hx with rfl | hx
    · exact of_decide_eq_true hne (h.eq_block his)
    · exact hl.free x hx desc hdesc his

/-- A heap stays well formed when a held block is freed. -/
theorem LinkHeap.WellFormed.push (hb : b.Registered) (hreach : b.InReach) (hs : s.WellFormed b)
    (h : Usable b r key) (hpos : 0 < k) (hk : k < r.numBlocks) (hheld : r.block k ∈ s.held) :
    (s.push r key k).WellFormed b := by
  have hsub : ∀ desc ∈ (s.push r key k).held, desc ∈ s.held :=
    fun desc hdesc => (List.mem_filter.mp hdesc).1
  apply WellFormed.of_lists hb hreach
  · intro r' key' h'
    by_cases hr : r' = r
    · subst hr
      obtain rfl := h.key_eq h'
      obtain ⟨l, hl⟩ := hs.list h
      exact ⟨k :: l, hl.push hb h hpos hk hheld⟩
    · obtain ⟨l', hl'⟩ := hs.list h'
      have hfree : ∀ x ∈ l', ∀ desc ∈ (s.push r key k).held, ¬r'.IsBlock x desc :=
        fun x hx desc hdesc => hl'.free x hx desc (hsub desc hdesc)
      refine ⟨l', hl'.congr (fun x hx => ?_) hfree⟩
      have hx' : x < r'.numBlocks := by
        rcases hx with rfl | hx
        · exact h'.pos
        · exact (hl'.bounds x hx).2
      rw [LinkHeap.push, putFront_eq]
      exact (headers_putBytes_apart hb h h' h.pos hx' (fun h0 => hr h0.1) _).trans
        (headers_putBytes_apart hb h h' hk hx' (fun h0 => hr h0.1) _)
  · exact fun desc hdesc => hs.block hb hreach (hsub desc hdesc)

end Freeing

end MojoRs.Ipcz
