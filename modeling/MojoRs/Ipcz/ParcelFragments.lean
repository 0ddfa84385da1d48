/-
MojoRs/Ipcz/ParcelFragments.lean

Parcels in blocks of a link's memory.  Every fragment that is allocated is a
block of some region of a registered buffer, and the place of a block tells
its size.  So what is written into a block can be read from it by whoever has
registered the buffer, as long as the lists of free blocks hold blocks and
every parcel fits its block (`SharedMemory.Placed`).

Main results: `region_isBlock`, `readParcelFragment_block`,
`writeParcelFragment_placed`.
-/
import MojoRs.Ipcz.LinkMemory
import Mathlib.Algebra.Ring.Nat

namespace MojoRs.Ipcz

open Function (update)

/-! ### Blocks -/

namespace BufferRegistry

/-- What `add_block_buffer` makes sure of; sizes are 32-bit numbers. -/
structure WellFormed (reg : BufferRegistry) : Prop where
  id : ∀ id e, reg.extra id = some e → id ≠ primaryBufferId ∧ id ≠ invalidBufferId
  blockSize : ∀ id e, reg.extra id = some e →
    minFragmentSize ≤ e.blockSize ∧ e.blockSize % 8 = 0
  size : ∀ id e, reg.extra id = some e → e.size < 2 ^ 32

/-- A region of equal blocks in a buffer: where it starts, the size of a block
and their number. -/
inductive Region (reg : BufferRegistry) : UInt64 → Nat → Nat → Nat → Prop
  | primary {blockSize off count : Nat} : (blockSize, off, count) ∈ primaryBlockRegions →
      Region reg primaryBufferId off blockSize count
  | extra {id : UInt64} {e : ExtraBuffer} : reg.extra id = some e →
      Region reg id 0 e.blockSize (e.size / e.blockSize)

/-- The size of the block at a place. -/
def blockSizeAt (reg : BufferRegistry) (key : UInt64 × UInt32) : Option Nat :=
  if key.1 = primaryBufferId then
    (primaryBlockRegions.find? fun r =>
      decide (r.2.1 ≤ key.2.toNat ∧ key.2.toNat < r.2.1 + r.2.2 * r.1)).map (·.1)
  else (reg.extra key.1).map (·.blockSize)

/-- A descriptor of a block. -/
structure IsBlock (reg : BufferRegistry) (desc : FragmentDescriptor) : Prop where
  fragment : reg.fragment desc = .ok ()
  header : fragmentHeaderSize ≤ desc.size.toNat
  size : reg.blockSizeAt desc.key = some desc.size.toNat

end BufferRegistry

open BufferRegistry

section Blocks

variable {reg : BufferRegistry} {id : UInt64} {off blockSize count idx : Nat}

theorem fragment_eq_ok {desc : FragmentDescriptor} {len : Nat} (hnull : desc.isNull = false)
    (haligned : desc.offset.toNat % 8 = 0) (hlen : reg.bufferFor desc.bufferId = .ok len)
    (hend : desc.offset.toNat + desc.size.toNat ≤ len) : reg.fragment desc = .ok () := by
  rw [BufferRegistry.fragment, if_neg (Bool.eq_false_iff.mp hnull), if_neg (not_not.mpr haligned),
    hlen]
  exact if_neg (Nat.not_lt.mpr hend)

theorem toNat_ofNat {n : Nat} (h : n < 2 ^ 32) : (UInt32.ofNat n).toNat = n :=
  UInt32.toNat_ofNat_of_lt' h

/-- The regions of the primary buffer lie one behind the other. -/
theorem primaryRegion_at (h : (blockSize, off, count) ∈ primaryBlockRegions) (hidx : idx < count) :
    (primaryBlockRegions.find? fun r => decide (r.2.1 ≤ off + idx * blockSize ∧
      off + idx * blockSize < r.2.1 + r.2.2 * r.1)).map (·.1) = some blockSize := by
  simp only [primaryBlockRegions, List.mem_cons, List.not_mem_nil, or_false, Prod.mk.injEq] at h
  simp only [primaryBlockRegions, List.find?_cons]
  rcases h with ⟨rfl, rfl, rfl⟩ | ⟨rfl, rfl, rfl⟩ | ⟨rfl, rfl, rfl⟩ | ⟨rfl, rfl, rfl⟩ |
    ⟨rfl, rfl, rfl⟩ | ⟨rfl, rfl, rfl⟩
  all_goals repeat' split
  all_goals simp at *
  all_goals omega

theorem primaryRegion_bounds (h : (blockSize, off, count) ∈ primaryBlockRegions) :
    off + count * blockSize ≤ primaryBufferSize ∧ off % 8 = 0 ∧ blockSize % 8 = 0 ∧
      minFragmentSize ≤ blockSize := by
  revert h
  simp only [primaryBlockRegions, List.mem_cons, List.not_mem_nil, or_false, Prod.mk.injEq]
  rintro (⟨rfl, rfl, rfl⟩ | ⟨rfl, rfl, rfl⟩ | ⟨rfl, rfl, rfl⟩ | ⟨rfl, rfl, rfl⟩ |
    ⟨rfl, rfl, rfl⟩ | ⟨rfl, rfl, rfl⟩)
  all_goals decide

/-- What the blocks of a region have in common. -/
theorem isBlock_of_bounds {len : Nat} (hid : id ≠ invalidBufferId) (hlen : reg.bufferFor id = .ok len)
    (hsmall : len < 2 ^ 32) (hoff : off % 8 = 0)
    (hblock : minFragmentSize ≤ blockSize ∧ blockSize % 8 = 0)
    (hidx : idx < count) (hend : off + count * blockSize ≤ len)
    (hsize : reg.blockSizeAt (id, .ofNat (off + idx * blockSize)) = some blockSize) :
    reg.IsBlock ⟨id, .ofNat (off + idx * blockSize), .ofNat blockSize⟩ ∧
      (UInt32.ofNat blockSize).toNat = blockSize := by
  have hlast : (idx + 1) * blockSize ≤ count * blockSize := Nat.mul_le_mul_right _ hidx
  rw [Nat.add_mul, Nat.one_mul] at hlast
  have hoffset : (UInt32.ofNat (off + idx * blockSize)).toNat = off + idx * blockSize :=
    toNat_ofNat (by omega)
  have hblockSize : (UInt32.ofNat blockSize).toNat = blockSize := toNat_ofNat (by omega)
  refine ⟨⟨fragment_eq_ok ?_ ?_ hlen ?_, ?_, ?_⟩, hblockSize⟩
  · exact beq_eq_false_iff_ne.mpr hid
  · show (UInt32.ofNat (off + idx * blockSize)).toNat % 8 = 0
    rw [hoffset, Nat.add_mod, Nat.mul_mod, hblock.2, hoff]
    rfl
  · show (UInt32.ofNat (off + idx * blockSize)).toNat + (UInt32.ofNat blockSize).toNat ≤ len
    rw [hoffset, hblockSize]
    omega
  · show fragmentHeaderSize ≤ (UInt32.ofNat blockSize).toNat
    rw [hblockSize]
    exact Nat.le_trans (by decide) hblock.1
  · show reg.blockSizeAt (id, .ofNat (off + idx * blockSize)) =
      some (UInt32.ofNat blockSize).toNat
    rw [hsize, hblockSize]

/-- What a list of free blocks holds, if it holds only numbers of blocks. -/
theorem region_isBlock (hreg : reg.WellFormed) (h : reg.Region id off blockSize count)
    (hidx : idx < count) :
    reg.IsBlock ⟨id, .ofNat (off + idx * blockSize), .ofNat blockSize⟩ ∧
      (UInt32.ofNat blockSize).toNat = blockSize := by
  cases h with
  | primary hmem =>
      obtain ⟨hend, hoff, hblock, hmin⟩ := primaryRegion_bounds hmem
      have hlast : (idx + 1) * blockSize ≤ count * blockSize := Nat.mul_le_mul_right _ hidx
      rw [Nat.add_mul, Nat.one_mul] at hlast
      have hoffset : (UInt32.ofNat (off + idx * blockSize)).toNat = off + idx * blockSize := by
        apply toNat_ofNat
        rw [primaryBufferSize] at hend
        omega
      refine isBlock_of_bounds (by decide) rfl (by decide) hoff ⟨hmin, hblock⟩ hidx hend ?_
      show ite _ _ _ = _
      rw [if_pos rfl, hoffset]
      exact primaryRegion_at hmem hidx
  | @extra _ e he =>
      obtain ⟨hprimary, hinvalid⟩ := hreg.id id e he
      have hlen : reg.bufferFor id = .ok e.size := by rw [bufferFor, if_neg hprimary, he]
      refine isBlock_of_bounds hinvalid hlen (hreg.size id e he) rfl (hreg.blockSize id e he) hidx
        ?_ ?_
      · rw [Nat.zero_add]
        exact Nat.div_mul_le_self e.size e.blockSize
      · show ite _ _ _ = _
        rw [if_neg hprimary, he]
        rfl

end Blocks

/-! ### Allocation -/

theorem le_nextPowerOfTwo (n : Nat) : n ≤ nextPowerOfTwo n := by
  rw [nextPowerOfTwo]
  split_ifs with h
  · exact h
  · have := Nat.lt_log2_self (n := n - 1)
    omega

theorem le_blockSizeForFragmentSize (n : Nat) : n ≤ blockSizeForFragmentSize n :=
  Nat.le_trans (le_nextPowerOfTwo n) (Nat.le_max_right ..)

namespace SharedMemory

variable {m m' : SharedMemory} {reg : BufferRegistry} {desc : FragmentDescriptor}

/-- The first free block of a region is taken. -/
structure Pops (m : SharedMemory) (reg : BufferRegistry) (blockSize : Nat)
    (desc : FragmentDescriptor) (m' : SharedMemory) : Prop where
  region : ∃ id off count idx rest, reg.Region id off blockSize count ∧
    m.free (id, off) = idx :: rest ∧
    desc = ⟨id, .ofNat (off + idx * blockSize), .ofNat blockSize⟩ ∧
    m' = { m with free := update m.free (id, off) rest }

theorem popBlock_pops {id : UInt64} {off blockSize count : Nat}
    (hregion : reg.Region id off blockSize count)
    (h : m.popBlock id off blockSize count = some (desc, m')) : m.Pops reg blockSize desc m' := by
  rw [popBlock] at h
  split_ifs at h
  split at h
  · cases h
  next idx rest hfree =>
    injection h with h
    injection h with hdesc hm
    exact ⟨id, off, count, idx, rest, hregion, hfree, hdesc.symm, hm.symm⟩

theorem popExtra_pops {poolSize : Nat} {ids : List UInt64}
    (h : m.popExtra reg poolSize ids = some (desc, m')) : m.Pops reg poolSize desc m' := by
  induction ids with
  | nil => cases h
  | cons id ids ih =>
      unfold popExtra at h
      cases he : reg.extra id with
      | none =>
          rw [he] at h
          exact ih h
      | some e =>
          rw [he] at h
          dsimp only at h
          split_ifs at h with hsize
          · cases hpop : m.popBlock id 0 poolSize (e.size / poolSize) with
            | none =>
                rw [hpop] at h
                exact ih h
            | some r =>
                rw [hpop] at h
                cases h
                subst hsize
                exact popBlock_pops (.extra he) hpop
          · exact ih h

/-- An allocation takes a block that is large enough. -/
theorem tryAllocateFragment_pops {size : Nat}
    (h : m.tryAllocateFragment reg size = some (desc, m')) :
    ∃ blockSize, size ≤ blockSize ∧ m.Pops reg blockSize desc m' := by
  rw [tryAllocateFragment] at h
  split_ifs at h
  split at h
  · cases h
  next poolSize hpool =>
    have hlarge : blockSizeForFragmentSize size ≤ poolSize := by
      simpa using List.find?_some hpool
    have hle : size ≤ poolSize := Nat.le_trans (le_blockSizeForFragmentSize size) hlarge
    refine ⟨poolSize, hle, ?_⟩
    cases hextra : m.popExtra reg poolSize reg.extraOrder.reverse with
    | some r =>
        rw [hextra] at h
        cases h
        exact popExtra_pops hextra
    | none =>
        rw [hextra] at h
        dsimp only at h
        split at h
        next off count hregion =>
          have hsize := List.find?_some hregion
          rw [beq_iff_eq] at hsize
          dsimp only at hsize
          subst hsize
          exact popBlock_pops (.primary (List.mem_of_find?_eq_some hregion)) h
        · cases h

/-! ### Parcels in blocks -/

/-- The lists of free blocks hold numbers of blocks, and what lies in a block
fits into it. -/
structure Placed (m : SharedMemory) (reg : BufferRegistry) : Prop where
  free : ∀ id off blockSize count, reg.Region id off blockSize count →
    ∀ idx ∈ m.free (id, off), idx < count
  fits : ∀ desc, reg.IsBlock desc →
    fragmentHeaderSize + (m.parcels desc.key).length ≤ desc.size.toNat

theorem readParcelFragment_block (hm : m.Placed reg) (h : reg.IsBlock desc) :
    m.readParcelFragment reg desc = .ok (m.parcels desc.key) := by
  rw [readParcelFragment, if_neg (Nat.not_lt.mpr h.header), h.fragment]
  exact if_neg (Nat.not_lt.mpr (hm.fits desc h))

/-- A parcel is written into a block, from which it can be read. -/
theorem writeParcelFragment_placed (hreg : reg.WellFormed) (hm : m.Placed reg) {data : List UInt8}
    (h : m.writeParcelFragment reg data = some (desc, m')) :
    reg.IsBlock desc ∧ m'.Placed reg ∧ m'.states = m.states := by
  rw [writeParcelFragment] at h
  cases halloc : m.tryAllocateFragment reg (data.length + fragmentHeaderSize) with
  | none =>
      rw [halloc] at h
      cases h
  | some r =>
      obtain ⟨block, m₁⟩ := r
      rw [halloc] at h
      injection h with h
      injection h with hblockEq hm'
      subst hblockEq hm'
      obtain ⟨blockSize, hle, id, off, count, idx, rest, hregion, hfree, hdesc, hpop⟩ :=
        tryAllocateFragment_pops halloc
      have hidx : idx < count :=
        hm.free id off blockSize count hregion idx (hfree ▸ List.mem_cons_self)
      obtain ⟨hblock, hsize⟩ := region_isBlock hreg hregion hidx
      rw [← hdesc] at hblock
      have hdescSize : block.size.toNat = blockSize := by rw [hdesc]; exact hsize
      rw [hpop]
      refine ⟨hblock, ⟨?_, ?_⟩, rfl⟩
      · intro id' off' blockSize' count' hregion' idx' hidx'
        by_cases hkey : (id', off') = (id, off)
        · change idx' ∈ update m.free (id, off) rest (id', off') at hidx'
          rw [hkey, Function.update_self] at hidx'
          have hmem : idx' ∈ m.free (id', off') := by
            rw [hkey, hfree]
            exact List.mem_cons_of_mem _ hidx'
          exact hm.free id' off' blockSize' count' hregion' idx' hmem
        · change idx' ∈ update m.free (id, off) rest (id', off') at hidx'
          rw [Function.update_of_ne hkey] at hidx'
          exact hm.free id' off' blockSize' count' hregion' idx' hidx'
      · intro desc' hblock'
        show fragmentHeaderSize + (update m.parcels block.key data desc'.key).length ≤ _
        by_cases hkey : desc'.key = block.key
        · have hsame := hblock'.size
          rw [hkey, hblock.size, Option.some.injEq] at hsame
          rw [hkey, Function.update_self, ← hsame, hdescSize]
          omega
        · rw [Function.update_of_ne hkey]
          exact hm.fits desc' hblock'

theorem fresh_placed : fresh.Placed .empty := by
  constructor
  · rintro id off blockSize count (hmem | he) idx hidx
    · simp only [primaryBlockRegions, List.mem_cons, List.not_mem_nil, or_false,
        Prod.mk.injEq] at hmem
      rcases hmem with ⟨rfl, rfl, rfl⟩ | ⟨rfl, rfl, rfl⟩ | ⟨rfl, rfl, rfl⟩ | ⟨rfl, rfl, rfl⟩ |
        ⟨rfl, rfl, rfl⟩ | ⟨rfl, rfl, rfl⟩
      all_goals simp [fresh, primaryBlockRegions, List.find?_cons] at hidx
      all_goals omega
    · cases he
  · intro desc h
    exact h.header

end SharedMemory

end MojoRs.Ipcz
