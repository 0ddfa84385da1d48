/-
MojoRs/Ipcz/FreshBlocks.lean

Blocks that are given out while others are in use.  Every block of a region
has a place of its own, so a block that is allocated lies apart from all that
are not free.  What is read from those stays what it was while parcels are
written into other blocks (`SharedMemory.Grows`).

Main results: `block_unique`, `writeParcelFragment_grows`.
-/
import MojoRs.Ipcz.ParcelFragments

namespace MojoRs.Ipcz

open Function (update)
open BufferRegistry

section Places

variable {reg : BufferRegistry} {id : UInt64} {off off' blockSize blockSize' count count' : Nat}
  {idx idx' : Nat}

theorem primaryRegion_unique : ∀ r ∈ primaryBlockRegions, ∀ r' ∈ primaryBlockRegions,
    r.1 = r'.1 → r = r' := by decide

/-- The place of a block fits into 32 bits. -/
theorem region_place (hreg : reg.WellFormed) (h : reg.Region id off blockSize count)
    (hidx : idx < count) : off + idx * blockSize < 2 ^ 32 ∧ 0 < blockSize := by
  have hlast : (idx + 1) * blockSize ≤ count * blockSize := Nat.mul_le_mul_right _ hidx
  rw [Nat.add_mul, Nat.one_mul] at hlast
  have hmin : 0 < minFragmentSize := by decide
  cases h with
  | primary hmem =>
      obtain ⟨hend, -, -, hsize⟩ := primaryRegion_bounds hmem
      rw [primaryBufferSize] at hend
      omega
  | @extra _ e he =>
      have hend := Nat.div_mul_le_self e.size e.blockSize
      have hsize := (hreg.blockSize id e he).1
      have hsmall := hreg.size id e he
      omega

/-- A place in a buffer is that of one block of one region. -/
theorem block_unique (hreg : reg.WellFormed) (h : reg.Region id off blockSize count)
    (h' : reg.Region id off' blockSize' count') (hidx : idx < count) (hidx' : idx' < count')
    (hplace : UInt32.ofNat (off + idx * blockSize) = .ofNat (off' + idx' * blockSize')) :
    off = off' ∧ idx = idx' := by
  obtain ⟨hsmall, hpos⟩ := region_place hreg h hidx
  obtain ⟨hsmall', -⟩ := region_place hreg h' hidx'
  have hnat := congrArg UInt32.toNat hplace
  rw [toNat_ofNat hsmall, toNat_ofNat hsmall'] at hnat
  -- a place tells the size of its block, and the size tells the region
  have hsizes : blockSize = blockSize' := by
    obtain ⟨hblock, hsize⟩ := region_isBlock hreg h hidx
    obtain ⟨hblock', hsize'⟩ := region_isBlock hreg h' hidx'
    have hat := hblock.size
    rw [FragmentDescriptor.key, hplace] at hat
    have heq := Option.some.inj (hat.symm.trans hblock'.size)
    dsimp only at heq
    rwa [hsize, hsize'] at heq
  have hoff : off = off' := by
    cases h with
    | primary hmem =>
        cases h' with
        | primary hmem' =>
            have hsame := primaryRegion_unique _ hmem _ hmem' hsizes
            injection hsame with _ hsame
            injection hsame
        | extra he' => exact absurd rfl (hreg.id _ _ he').1
    | extra he =>
        cases h' with
        | primary hmem' => exact absurd rfl (hreg.id _ _ he).1
        | extra he' => rfl
  subst hsizes hoff
  exact ⟨rfl, Nat.eq_of_mul_eq_mul_right hpos (Nat.add_left_cancel hnat)⟩

end Places

namespace SharedMemory

variable {reg : BufferRegistry} {m m' m'' : SharedMemory} {desc : FragmentDescriptor}

/-- No list holds a block twice. -/
def FreeOnce (m : SharedMemory) (reg : BufferRegistry) : Prop :=
  ∀ id off blockSize count, reg.Region id off blockSize count → (m.free (id, off)).Nodup

/-- The place is that of a free block. -/
def IsFree (m : SharedMemory) (reg : BufferRegistry) (key : UInt64 × UInt32) : Prop :=
  ∃ id off blockSize count idx, reg.Region id off blockSize count ∧ idx ∈ m.free (id, off) ∧
    key = (id, .ofNat (off + idx * blockSize))

/-- Blocks have been taken, and only those written. -/
structure Grows (reg : BufferRegistry) (m m' : SharedMemory) : Prop where
  parcels : ∀ key, ¬m.IsFree reg key → m'.parcels key = m.parcels key
  free : ∀ key, m'.IsFree reg key → m.IsFree reg key
  once : m.FreeOnce reg → m'.FreeOnce reg

theorem Grows.refl (reg : BufferRegistry) (m : SharedMemory) : Grows reg m m :=
  ⟨fun _ _ => rfl, fun _ => id, id⟩

theorem Grows.trans (h : Grows reg m m') (h' : Grows reg m' m'') : Grows reg m m'' where
  parcels key hkey := (h'.parcels key fun hfree => hkey (h.free key hfree)).trans (h.parcels key hkey)
  free key hkey := h.free key (h'.free key hkey)
  once honce := h'.once (h.once honce)

/-- Nothing is taken where the lists and the blocks stay as they are. -/
theorem Grows.of_eq (hparcels : m'.parcels = m.parcels) (hfree : m'.free = m.free) :
    Grows reg m m' where
  parcels _ _ := by rw [hparcels]
  free key hkey := by rwa [IsFree, hfree] at hkey
  once honce := by rwa [FreeOnce, hfree]

/-- What an allocation takes is free no more. -/
theorem Pops.grows {blockSize : Nat} (hreg : reg.WellFormed) (hm : m.Placed reg)
    (honce : m.FreeOnce reg) (h : m.Pops reg blockSize desc m') :
    Grows reg m m' ∧ m.IsFree reg desc.key ∧ ¬m'.IsFree reg desc.key := by
  obtain ⟨id, off, count, idx, rest, hregion, hfree, rfl, rfl⟩ := h
  have hnodup := honce id off blockSize count hregion
  rw [hfree, List.nodup_cons] at hnodup
  have hidx : idx < count := hm.free id off blockSize count hregion idx (hfree ▸ List.mem_cons_self)
  have hsub : ∀ key i, i ∈ update m.free (id, off) rest key → i ∈ m.free key := by
    intro key i hi
    by_cases hkey : key = (id, off)
    · rw [hkey, Function.update_self] at hi
      rw [hkey, hfree]
      exact List.mem_cons_of_mem _ hi
    · rwa [Function.update_of_ne hkey] at hi
  refine ⟨⟨fun _ _ => rfl, ?_, ?_⟩, ⟨id, off, blockSize, count, idx, hregion, ?_, rfl⟩, ?_⟩
  · rintro key ⟨id', off', blockSize', count', idx', hregion', hidx', hkey⟩
    exact ⟨id', off', blockSize', count', idx', hregion', hsub _ _ hidx', hkey⟩
  · intro _ id' off' blockSize' count' hregion'
    show (update m.free (id, off) rest (id', off')).Nodup
    by_cases hkey : (id', off') = (id, off)
    · rw [hkey, Function.update_self]
      exact hnodup.2
    · rw [Function.update_of_ne hkey]
      exact honce id' off' blockSize' count' hregion'
  · rw [hfree]
    exact List.mem_cons_self
  · rintro ⟨id', off', blockSize', count', idx', hregion', hidx', hkey⟩
    injection hkey with hid hplace
    dsimp only at hid
    subst hid
    have hlt := hm.free _ _ _ _ hregion' idx' (hsub _ _ hidx')
    obtain ⟨rfl, rfl⟩ := block_unique hreg hregion hregion' hidx hlt hplace
    change idx ∈ update m.free (id, off) rest (id, off) at hidx'
    rw [Function.update_self] at hidx'
    exact hnodup.1 hidx'

/-- A parcel goes into a block that was free, and is there. -/
theorem writeParcelFragment_grows (hreg : reg.WellFormed) (hm : m.Placed reg)
    (honce : m.FreeOnce reg) {data : List UInt8}
    (h : m.writeParcelFragment reg data = some (desc, m')) :
    Grows reg m m' ∧ m'.parcels desc.key = data ∧ ¬m'.IsFree reg desc.key := by
  rw [writeParcelFragment] at h
  cases halloc : m.tryAllocateFragment reg (data.length + fragmentHeaderSize) with
  | none =>
      rw [halloc] at h
      cases h
  | some r =>
      obtain ⟨block, m₁⟩ := r
      rw [halloc] at h
      injection h with h
      injection h with hblock hm'
      subst hblock hm'
      obtain ⟨blockSize, -, hpops⟩ := tryAllocateFragment_pops halloc
      obtain ⟨hgrows, hfree, htaken⟩ := hpops.grows hreg hm honce
      refine ⟨⟨fun key hkey => ?_, hgrows.free, hgrows.once⟩, Function.update_self .., htaken⟩
      have hne : key ≠ block.key := by
        rintro rfl
        exact hkey hfree
      exact (Function.update_of_ne hne ..).trans (hgrows.parcels key hkey)

theorem fresh_freeOnce : fresh.FreeOnce .empty := by
  rintro id off blockSize count (hmem | he)
  · unfold fresh
    dsimp only
    rw [if_pos rfl]
    split
    · exact List.nodup_range'
    · exact List.nodup_nil
  · cases he

end SharedMemory

end MojoRs.Ipcz
