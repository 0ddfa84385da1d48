/-
MojoRs/Ipcz/HeldFragments.lean

Parcels in held fragments.  A heap stays well formed whatever operation runs on
it, and no operation changes a byte of a fragment that is held and that it does
not name: an operation on a descriptor stays inside of it, and an allocation
and a free write to blocks of their own and to front headers.

This rests on every block of a region having an offset of its own in a
descriptor.  In a buffer that reaches beyond 32 bits a block may be given out
under the offset of another one, which may be held (`parcel_overwritten`).

Main results: `heapStep_keeps`, `parcel_fragments_hold`.
-/
import MojoRs.Ipcz.Connect
import MojoRs.Ipcz.DescriptorBounds
import MojoRs.Ipcz.FreeLists

namespace MojoRs.Ipcz

open Lib Prog

variable {b : LinkBuffers} {r r' : BlockRegion} {key : MappedMemory} {k : Nat}

/-! ### Operations on a heap -/

/-- The operations of a link's memory. -/
inductive HeapOp
  | writeParcelFragment (weak : BlockRegion → List Bool) (data : List UInt8)
  | tryAllocateLinkState (weak : BlockRegion → List Bool)
  | onFragment (desc : FragmentDescriptor) (call : LinkCall)
  | allocateSublinkIds (count : UInt64)
  | allocateNewBufferId
  | freeBlock (desc : FragmentDescriptor) (weak : List Bool)

/-- The heap after a run, with the fragments that `hold` makes of its result. -/
def LinkHeap.after {α : Type} (s : LinkHeap) (out : LinkResult α × Memory MappedMemory)
    (hold : α → List FragmentDescriptor) : LinkHeap :=
  ⟨out.2, match out.1 with
    | some (.ok a) => hold a
    | _ => s.held⟩

/-- One operation; what fails, or does not come to an end, holds nothing new. -/
def heapStep (b : LinkBuffers) (s : LinkHeap) : HeapOp → LinkHeap
  | .writeParcelFragment weak data =>
      s.after ((LinkMemory.writeParcelFragment b weak data).run s.mem) fun desc => desc :: s.held
  | .tryAllocateLinkState weak =>
      s.after ((LinkMemory.tryAllocateLinkState b weak).run s.mem) fun desc =>
        desc.toList ++ s.held
  | .onFragment desc call => s.after ((call.prog b desc).run s.mem) fun _ => s.held
  | .allocateSublinkIds count =>
      s.after ((LinkMemory.allocateSublinkIds b count).run s.mem) fun _ => s.held
  | .allocateNewBufferId => s.after ((LinkMemory.allocateNewBufferId b).run s.mem) fun _ => s.held
  | .freeBlock desc weak =>
      s.after ((LinkMemory.freeBlock b desc weak).run s.mem) fun freed =>
        if freed then s.held.filter (· ≠ desc) else s.held

/-- The operation is on another fragment that is held, or on the link state of
an initial portal. -/
def Spares (desc : FragmentDescriptor) (s : LinkHeap) : HeapOp → Prop
  | .onFragment d _ =>
      d ≠ desc ∧ (d ∈ s.held ∨ ∃ i < maxInitialPortals, d = initialLinkState i)
  | .freeBlock d _ => d ≠ desc ∧ d ∈ s.held
  | _ => True

/-- The byte belongs to a fragment. -/
def Owns (b : LinkBuffers) (desc : FragmentDescriptor) (key : MappedMemory) (i : Nat) : Prop :=
  b.fragment desc = .ok key ∧ desc.offset.toNat ≤ i ∧ i < desc.offset.toNat + desc.size.toNat

/-- Where the regions of the primary buffer begin: behind its counters and the
link states of the initial portals. -/
def firstRegionOffset : Nat :=
  initialLinkStatesOffset + maxInitialPortals * routerLinkStateSize

/-- A parcel was written to a fragment of its own, and can be read from it for
as long as nobody names the fragment. -/
structure Stored (b : LinkBuffers) (s : LinkHeap) (data : List UInt8)
    (desc : FragmentDescriptor) (m : Memory MappedMemory) : Prop where
  read : (LinkMemory.readParcelFragment b desc).run m = (some (.ok data), m)
  later : ∀ ops, Meets (heapStep b) (Spares desc) ⟨m, desc :: s.held⟩ ops →
    ((LinkMemory.readParcelFragment b desc).run
      (exec (heapStep b) ⟨m, desc :: s.held⟩ ops).mem).1 = some (.ok data)
  fresh : desc ∉ s.held
  writes : ∃ r k, IsRegion b r ∧ r.IsBlock k desc ∧ ∀ key i, m key i ≠ s.mem key i →
    Owns b desc key i ∨ Owns b r.frontDesc key i
  others : ∀ d ∈ s.held, ∀ key i, Owns b d key i → m key i = s.mem key i
  fixed : ∀ i < firstRegionOffset, m .primary i = s.mem .primary i

/-- Whatever is written to the heap of a link is stored. -/
def HoldsParcels (b : LinkBuffers) : Prop :=
  ∀ s : LinkHeap, s.WellFormed b → ∀ weak data desc m,
    (LinkMemory.writeParcelFragment b weak data).run s.mem = (some (.ok desc), m) →
      Stored b s data desc m

/-! ### Fragments apart -/

section Apart

variable {s : LinkHeap} {desc d : FragmentDescriptor} {m' : Memory MappedMemory} {i : Nat}

theorem Usable.owns_iff {key' : MappedMemory} (h : Usable b r key) (hk : k < r.numBlocks) :
    Owns b (r.block k) key' i ↔ key' = key ∧ r.Covers k i := by
  rw [Owns, h.fragment_block hk, BlockRegion.Covers, Nat.add_mul k, Nat.one_mul, ← Nat.add_assoc]
  show _ ∧ (blockOffset r.off k r.blockSize).toNat ≤ i ∧
    i < (blockOffset r.off k r.blockSize).toNat + r.blockSize.toNat ↔ _
  rw [h.toNat_blockOffset hk]
  refine and_congr_left' ⟨fun heq => (Except.ok.inj heq).symm, fun heq => heq ▸ rfl⟩

/-- The bytes of a held fragment are those of a block. -/
theorem LinkHeap.WellFormed.owns (hb : b.Registered) (hreach : b.InReach) (hs : s.WellFormed b)
    (hd : d ∈ s.held) : ∃ r key k, Usable b r key ∧ 0 < k ∧ k < r.numBlocks ∧ d = r.block k ∧
      ∀ key' i, Owns b d key' i ↔ key' = key ∧ r.Covers k i := by
  obtain ⟨r, key, k, h, his⟩ := hs.block hb hreach hd
  obtain rfl := h.eq_block his
  exact ⟨r, key, k, h, his.pos, his.lt, rfl, fun _ _ => h.owns_iff his.lt⟩

theorem LinkHeap.WellFormed.apart (hb : b.Registered) (hreach : b.InReach) (hs : s.WellFormed b)
    (hd : d ∈ s.held) (hdesc : desc ∈ s.held) (hi : Owns b d key i) (hi' : Owns b desc key i) :
    d = desc := by
  obtain ⟨r, key₁, k, h, -, hk, rfl, howns⟩ := hs.owns hb hreach hd
  obtain ⟨r', key₂, k', h', -, hk', rfl, howns'⟩ := hs.owns hb hreach hdesc
  obtain ⟨rfl, hcov⟩ := (howns key i).mp hi
  obtain ⟨rfl, hcov'⟩ := (howns' key i).mp hi'
  obtain ⟨rfl, rfl⟩ := blocks_disjoint hb h h' hk hk' hcov hcov'
  rfl

/-- A write to a held fragment. -/
theorem LinkHeap.WellFormed.write_held (hb : b.Registered) (hreach : b.InReach)
    (hs : s.WellFormed b) (hd : d ∈ s.held)
    (hsame : ∀ key i, ¬Owns b d key i → m' key i = s.mem key i) :
    (⟨m', s.held⟩ : LinkHeap).WellFormed b := by
  obtain ⟨r, key, k, h, hpos, hk, rfl, howns⟩ := hs.owns hb hreach hd
  refine hs.frame hb hreach fun r' key' k' h' hk' hnot i hi => hsame key' i fun hown => ?_
  obtain ⟨rfl, hcov⟩ := (howns key' i).mp hown
  obtain ⟨rfl, rfl⟩ := blocks_disjoint hb h h' hk hk' hcov hi
  exact hnot _ hd (h.isBlock hpos hk)

theorem Usable.firstRegionOffset_le (h : Usable b r .primary) : firstRegionOffset ≤ r.off := by
  have hall : ∀ x ∈ primaryBlockRegions, firstRegionOffset ≤ x.2.1 := by decide
  rcases h.memory_cases with ⟨region, hmem, hr, -⟩ | ⟨e, -, -, hkey⟩
  · rw [hr]
    exact hall region hmem
  · cases hkey

/-- A write before the regions. -/
theorem LinkHeap.WellFormed.write_fixed (hb : b.Registered) (hreach : b.InReach)
    (hs : s.WellFormed b)
    (hsame : ∀ key i, ¬(key = .primary ∧ i < firstRegionOffset) → m' key i = s.mem key i) :
    (⟨m', s.held⟩ : LinkHeap).WellFormed b := by
  refine hs.frame hb hreach fun r' key' k' h' hk' _ i hi => hsame key' i ?_
  rintro ⟨rfl, hlt⟩
  have hoff := h'.firstRegionOffset_le
  have hlo := Nat.le_trans (Nat.le_add_right _ _) hi.1
  omega

theorem LinkHeap.WellFormed.owns_fixed (hb : b.Registered) (hreach : b.InReach)
    (hs : s.WellFormed b) (hd : d ∈ s.held) (hi : Owns b d .primary i) :
    firstRegionOffset ≤ i := by
  obtain ⟨r, key, k, h, -, hk, rfl, howns⟩ := hs.owns hb hreach hd
  obtain ⟨rfl, hcov⟩ := (howns .primary i).mp hi
  exact Nat.le_trans h.firstRegionOffset_le (Nat.le_trans (Nat.le_add_right _ _) hcov.1)

end Apart

/-! ### Blocks taken and freed -/

theorem Usable.owns_front_iff (h : Usable b r key) {key' : MappedMemory} {i : Nat} :
    Owns b r.frontDesc key' i ↔ key' = key ∧ r.off ≤ i ∧ i < r.off + 4 := by
  rw [Owns, h.fragment_front, h.front_offset]
  exact and_congr_left' ⟨fun heq => (Except.ok.inj heq).symm, fun heq => heq ▸ rfl⟩

theorem Usable.covers_front (h : Usable b r key) {key' : MappedMemory} {i : Nat}
    (hi : Owns b r.frontDesc key' i) : key' = key ∧ r.Covers 0 i := by
  obtain ⟨hkey, hlo, hhi⟩ := h.owns_front_iff.mp hi
  have hlarge : 4 ≤ r.blockSize.toNat := Nat.le_trans (by decide) h.large
  refine ⟨hkey, ?_, ?_⟩
  · rw [Nat.zero_mul]
    exact hlo
  · rw [Nat.zero_add, Nat.one_mul]
    omega

theorem putFront_of_not_owns (h : Usable b r key) {m : Memory MappedMemory} {header : BlockHeader}
    {key' : MappedMemory} {i : Nat} (hi : ¬Owns b r.frontDesc key' i) :
    putFront r m key header key' i = m key' i := by
  apply Memory.putBytes_of_not_mem
  rw [length_bytes]
  exact fun hin => hi (h.owns_front_iff.mpr hin)

/-- No held fragment has a byte of a front header. -/
theorem LinkHeap.WellFormed.not_owns_front {s : LinkHeap} {d : FragmentDescriptor} {i : Nat}
    {key' : MappedMemory} (hb : b.Registered) (hreach : b.InReach) (hs : s.WellFormed b)
    (h : Usable b r key) (hd : d ∈ s.held) (hi : Owns b d key' i) : ¬Owns b r.frontDesc key' i := by
  intro hfront
  obtain ⟨r', key₁, k, h', hpos, hk, rfl, howns⟩ := hs.owns hb hreach hd
  obtain ⟨rfl, hcov⟩ := (howns key' i).mp hi
  obtain ⟨rfl, hcov'⟩ := h.covers_front hfront
  obtain ⟨-, rfl⟩ := blocks_disjoint hb h h' h.pos hk hcov' hcov
  exact absurd hpos (Nat.lt_irrefl 0)

section Taken

variable {s : LinkHeap} {l : List Nat} {m : Memory MappedMemory} {i : Nat} {key' : MappedMemory}
  (hb : b.Registered) (hreach : b.InReach) (hs : s.WellFormed b) (h : Usable b r key)
  (hl : s.FreeList r key (k :: l))
  (hsame : ∀ key' i, ¬Owns b (r.block k) key' i → m key' i = (s.pop r key k).mem key' i)

include h hl in
theorem taken_fresh : r.block k ∉ s.held := by
  obtain ⟨hpos, hk⟩ := hl.bounds k List.mem_cons_self
  exact fun hheld => hl.free k List.mem_cons_self _ hheld (h.isBlock hpos hk)

include hb hreach hs h hl hsame in
theorem taken_wellFormed : (⟨m, r.block k :: s.held⟩ : LinkHeap).WellFormed b :=
  (hs.pop hb hreach h hl).write_held hb hreach List.mem_cons_self hsame

include h hsame in
theorem taken_writes (hne : m key' i ≠ s.mem key' i) :
    Owns b (r.block k) key' i ∨ Owns b r.frontDesc key' i := by
  by_contra hnot
  rw [not_or] at hnot
  exact hne ((hsame key' i hnot.1).trans (putFront_of_not_owns h hnot.2))

include hb hreach hs h hl hsame in
theorem taken_others {d : FragmentDescriptor} (hd : d ∈ s.held) (hi : Owns b d key' i) :
    m key' i = s.mem key' i := by
  by_contra hne
  rcases taken_writes h hsame hne with hblock | hfront
  · have happart := (hs.pop hb hreach h hl).apart hb hreach (List.mem_cons_of_mem _ hd)
      List.mem_cons_self hi hblock
    exact taken_fresh h hl (happart ▸ hd)
  · exact hs.not_owns_front hb hreach h hd hi hfront

include hb hreach hs h hl hsame in
theorem taken_fixed (hi : i < firstRegionOffset) : m .primary i = s.mem .primary i := by
  by_contra hne
  rcases taken_writes h hsame hne with hblock | hfront
  · have hle := (hs.pop hb hreach h hl).owns_fixed hb hreach List.mem_cons_self hblock
    omega
  · obtain ⟨rfl, hlo, -⟩ := h.owns_front_iff.mp hfront
    have hle := h.firstRegionOffset_le
    omega

end Taken

/-- A block that is freed leaves the other fragments alone. -/
theorem push_others {s : LinkHeap} {d : FragmentDescriptor} {key' : MappedMemory} {i : Nat}
    (hb : b.Registered) (hreach : b.InReach) (hs : s.WellFormed b) (h : Usable b r key)
    (hk : k < r.numBlocks) (hheld : r.block k ∈ s.held) (hne : d ≠ r.block k)
    (hd : d ∈ s.held) (hi : Owns b d key' i) :
    (s.push r key k).mem key' i = s.mem key' i ∧
      linkBlock r s.mem key k key' i = s.mem key' i := by
  have hlink : linkBlock r s.mem key k key' i = s.mem key' i := by
    apply Memory.putBytes_of_not_mem
    rintro ⟨rfl, hlo, hhi⟩
    have hown := (h.owns_iff hk).mpr ⟨rfl, h.covers_header _ hlo hhi⟩
    exact hne (hs.apart hb hreach hd hheld hi hown)
  refine ⟨?_, hlink⟩
  exact (putFront_of_not_owns h (hs.not_owns_front hb hreach h hd hi)).trans hlink

/-! ### Parcels -/

section Parcels

variable {s : LinkHeap} {m : Memory MappedMemory} {data : List UInt8} {desc : FragmentDescriptor}

/-- The memory with a parcel in a fragment at `off`. -/
def putParcel (m : Memory MappedMemory) (key : MappedMemory) (off : Nat) (data : List UInt8) :
    Memory MappedMemory :=
  ((m.putBytes key (off + 4) (leU32 0)).putBytes key (off + fragmentHeaderSize) data).putBytes key
    off (leU32 (.ofNat data.length))

theorem putParcel_of_not_mem {off i : Nat} {key' : MappedMemory}
    (h : ¬(key' = key ∧ off ≤ i ∧ i < off + (fragmentHeaderSize + data.length))) :
    putParcel m key off data key' i = m key' i := by
  rw [fragmentHeaderSize] at h
  have hout : ∀ lo hi, off ≤ lo → hi ≤ off + (8 + data.length) →
      ¬(key' = key ∧ lo ≤ i ∧ i < hi) :=
    fun lo hi hlo hhi hin => h ⟨hin.1, by omega, by omega⟩
  rw [putParcel, fragmentHeaderSize, Memory.putBytes_of_not_mem, Memory.putBytes_of_not_mem,
    Memory.putBytes_of_not_mem]
  · refine hout _ _ (by omega) ?_
    rw [length_leU32]
    omega
  · exact hout _ _ (by omega) (by omega)
  · refine hout _ _ (by omega) ?_
    rw [length_leU32]
    omega

/-- What was written is read. -/
theorem run_readParcelFragment (hm : b.fragment desc = .ok key)
    (hsize : fragmentHeaderSize + data.length ≤ desc.size.toNat)
    (hlen : m.bytesAt key desc.offset.toNat 4 = leU32 (.ofNat data.length))
    (hdata : m.bytesAt key (desc.offset.toNat + fragmentHeaderSize) data.length = data) :
    (LinkMemory.readParcelFragment b desc).run m = (some (.ok data), m) := by
  have hlt := desc.size.toNat_lt
  have hlength : (getU32 (m.bytesAt key desc.offset.toNat 4) 0).toNat = data.length := by
    rw [hlen, ← List.append_nil (leU32 _), getU32_leU32]
    exact toNat_ofNat (by omega)
  rw [LinkMemory.readParcelFragment, if_neg (by omega), hm]
  change (loadBytes .parcelSize key desc.offset.toNat 4 >>= _).run m = _
  rw [run_loadBytes_bind]
  dsimp only
  rw [hlength, if_neg (by omega)]
  exact congrArg (fun bytes => (some (Except.ok bytes), m)) hdata

/-- A parcel that fits a block changes no byte outside of it. -/
theorem putParcel_apart (h : Usable b r key) (hk : k < r.numBlocks)
    (hsize : fragmentHeaderSize + data.length ≤ r.blockSize.toNat) (m : Memory MappedMemory)
    (key' : MappedMemory) (i : Nat) (hi : ¬Owns b (r.block k) key' i) :
    putParcel m key (r.block k).offset.toNat data key' i = m key' i := by
  apply putParcel_of_not_mem
  rintro ⟨rfl, hlo, hhi⟩
  exact hi ⟨h.fragment_block hk, hlo, Nat.lt_of_lt_of_le hhi (Nat.add_le_add_left hsize _)⟩

theorem read_putParcel (hm : b.fragment desc = .ok key)
    (hsize : fragmentHeaderSize + data.length ≤ desc.size.toNat)
    (hsame : ∀ i, desc.offset.toNat ≤ i → i < desc.offset.toNat + desc.size.toNat →
      m key i = putParcel s.mem key desc.offset.toNat data key i) :
    (LinkMemory.readParcelFragment b desc).run m = (some (.ok data), m) := by
  have hheader : fragmentHeaderSize = 8 := rfl
  refine run_readParcelFragment hm hsize ?_ ?_
  · rw [Memory.bytesAt_congr fun i hlo hhi => hsame i hlo (by omega), putParcel]
    exact (congrArg _ (length_leU32 _).symm).trans (Memory.bytesAt_putBytes ..)
  · rw [Memory.bytesAt_congr fun i hlo hhi => hsame i (by omega) (by omega), putParcel,
      Memory.bytesAt_putBytes_of_disjoint]
    · exact Memory.bytesAt_putBytes ..
    · rw [length_leU32]
      omega

/-- `write_parcel_fragment`: it fails, or puts the parcel into a block. -/
theorem run_writeParcelFragment (hb : b.Registered) (hreach : b.InReach) (hs : s.WellFormed b)
    (weak : BlockRegion → List Bool) (data : List UInt8) :
    (∃ res, (∀ a, res ≠ some (.ok a)) ∧
        (LinkMemory.writeParcelFragment b weak data).run s.mem = (res, s.mem)) ∨
      ∃ r key k l, Usable b r key ∧ s.FreeList r key (k :: l) ∧
        fragmentHeaderSize + data.length ≤ r.blockSize.toNat ∧
        (LinkMemory.writeParcelFragment b weak data).run s.mem = (some (.ok (r.block k)),
          putParcel (s.pop r key k).mem key (r.block k).offset.toNat data) := by
  have halloc := allocates_tryAllocateFragment hb hreach hs weak (data.length + fragmentHeaderSize)
  rw [LinkMemory.writeParcelFragment]
  rcases halloc.run_bind with hfail | hnone | ⟨r, key, k, l, h, hl, hsize, hrun⟩
  · exact .inl hfail
  · exact .inl ⟨some (.error .outOfBounds), nofun, hnone⟩
  · refine .inr ⟨r, key, k, l, h, hl, by rw [Nat.add_comm]; exact hsize, hrun.trans ?_⟩
    dsimp only
    rw [h.fragment_block (hl.bounds k List.mem_cons_self).2]
    rfl

end Parcels

/-! ### Operations on a descriptor -/

section Calls

variable {desc : FragmentDescriptor}

theorem fetchUpdate_whole (word : LinkWord) (at_ : Nat) (f : UInt32 → UInt32) :
    Emits Event.Whole (LinkMemory.fetchUpdate b word desc at_ f) :=
  Emits.lift_bind fun _ _ =>
    (emits_updateBytes fun _ _ => length_leU32 _).bind fun _ => emits_pure _

theorem statusLoop_whole (off : Nat) (weak : List Bool) (a : LinkAttempt) :
    Emits Event.Whole (LinkMemory.statusLoop key off weak a) := by
  induction weak generalizing a with
  | nil => exact emits_stuck
  | cons spurious weak ih =>
      refine (emits_updateBytes fun found hlen => ?_).bind fun bytes => ?_
      · show (if _ then _ else _ : List UInt8).length = 4
        split
        · exact length_leU32 _
        · exact hlen
      · dsimp only
        split
        · exact emits_pure _
        · split
          · exact emits_pure _
          · exact ih _

theorem onLinkState_whole (op : LinkOp) (side : LinkSide) (weak : List Bool) :
    Emits Event.Whole (LinkMemory.onLinkState b op desc side weak) :=
  Emits.lift_bind fun _ _ => statusLoop_whole _ _ _

theorem loadBytes_whole {word : LinkWord} {off len : Nat} :
    Emits Event.Whole (loadBytes word key off len : LinkProg _) := emits_loadBytes fun _ => trivial

theorem readLinkStatus_whole : Emits Event.Whole (LinkMemory.readLinkStatus b desc) := by
  rw [LinkMemory.readLinkStatus]
  split
  · exact emits_lift _
  · exact Emits.lift_bind fun _ _ => loadBytes_whole.bind fun _ => emits_pure _

theorem LinkCall.whole (call : LinkCall) : Emits Event.Whole (call.prog b desc) := by
  cases call with
  | addLinkStateRef => exact (fetchUpdate_whole _ _ _).bind fun _ => emits_pure _
  | releaseLinkStateRef =>
      exact ((fetchUpdate_whole _ _ _).bind fun _ => emits_pure _).bind fun _ => emits_pure _
  | setSideStable | tryLockLinkState | unlockLinkState | resetWaitingBit =>
      exact (onLinkState_whole _ _ _).bind fun _ => emits_pure _
  | readLinkStatus => exact readLinkStatus_whole.bind fun _ => emits_pure _
  | setLinkStatusBits bits =>
      refine Emits.bind ?_ fun _ => emits_pure _
      rw [LinkMemory.setLinkStatusBits]
      split
      · exact emits_lift _
      · exact (fetchUpdate_whole _ _ _).bind fun _ => readLinkStatus_whole
  | readAllowedBypassSource =>
      refine Emits.bind (Emits.lift_bind fun _ _ => ?_) fun _ => emits_pure _
      split
      · exact emits_lift _
      · exact loadBytes_whole.bind fun _ => emits_pure _
  | writeAllowedBypassSource value =>
      refine Emits.lift_bind fun _ _ => ?_
      split
      · exact emits_lift _
      · exact emits_storeBytes fun _ => rfl
  | readParcelFragment =>
      refine Emits.bind ?_ fun _ => emits_pure _
      rw [LinkMemory.readParcelFragment]
      split
      · exact emits_lift _
      · refine Emits.lift_bind fun _ _ => loadBytes_whole.bind fun _ => ?_
        dsimp only
        split
        · exact emits_lift _
        · exact loadBytes_whole

/-- An operation on a descriptor changes no byte outside of the fragment. -/
theorem LinkCall.frame {m : Memory MappedMemory} {key' : MappedMemory} {i : Nat} (call : LinkCall)
    (hm : b.fragment desc = .ok key) (hsize : fragmentHeaderSize ≤ desc.size.toNat)
    (hi : ¬Owns b desc key' i) : ((call.prog b desc).run m).2 key' i = m key' i := by
  have hunchecked : call.unchecked ≤ fragmentHeaderSize := by
    cases call <;> simp [LinkCall.unchecked, fragmentHeaderSize]
  refine run_frame (S := Owns b desc) (Emits.mono ?_ ((call.emits hm
    (Nat.le_trans hunchecked hsize)).and call.whole)) m hi
  rintro (_ | ⟨_, key₁, off, len, found, stored⟩ | _) ⟨hin, hwhole⟩ key₂ j hcov
  · exact hcov.elim
  · obtain ⟨rfl, hlo, hhi⟩ := hcov
    obtain ⟨rfl, hle, hend⟩ := hin
    rw [show stored.length = len from hwhole] at hhi
    exact ⟨hm, Nat.le_trans hle hlo, Nat.lt_of_lt_of_le hhi hend⟩
  · exact hcov.elim

end Calls

/-! ### Steps -/

section Steps

variable {s : LinkHeap} {m : Memory MappedMemory} {desc d : FragmentDescriptor} {α : Type}

theorem LinkHeap.after_fail {res : LinkResult α} (hold : α → List FragmentDescriptor)
    (h : ∀ a, res ≠ some (.ok a)) : s.after (res, m) hold = ⟨m, s.held⟩ := by
  cases res with
  | none => rfl
  | some res =>
      cases res with
      | error e => rfl
      | ok a => exact absurd rfl (h a)

theorem LinkHeap.after_held (out : LinkResult α × Memory MappedMemory) :
    s.after out (fun _ => s.held) = ⟨out.2, s.held⟩ := by
  obtain ⟨res, m⟩ := out
  cases res with
  | none => rfl
  | some res => cases res <;> rfl

theorem LinkHeap.after_none {res : LinkResult (Option FragmentDescriptor)}
    (h : ∀ d, res ≠ some (.ok (some d))) :
    s.after (res, s.mem) (fun d => d.toList ++ s.held) = s := by
  cases res with
  | none => rfl
  | some res =>
      cases res with
      | error e => rfl
      | ok d =>
          cases d with
          | none => rfl
          | some d => exact absurd rfl (h d)

/-- `try_allocate_link_state`: it comes to nothing, or writes to a block. -/
theorem run_tryAllocateLinkState (hb : b.Registered) (hreach : b.InReach) (hs : s.WellFormed b)
    (weak : BlockRegion → List Bool) :
    (∃ res, (∀ d, res ≠ some (.ok (some d))) ∧
        (LinkMemory.tryAllocateLinkState b weak).run s.mem = (res, s.mem)) ∨
      ∃ r key k l m, Usable b r key ∧ s.FreeList r key (k :: l) ∧
        (LinkMemory.tryAllocateLinkState b weak).run s.mem = (some (.ok (some (r.block k))), m) ∧
        ∀ key' i, ¬Owns b (r.block k) key' i → m key' i = (s.pop r key k).mem key' i := by
  have halloc := allocates_tryAllocateFragment hb hreach hs weak routerLinkStateSize
  rw [LinkMemory.tryAllocateLinkState]
  rcases halloc.run_bind with ⟨res, hres, hrun⟩ | hnone | ⟨r, key, k, l, h, hl, hsize, hrun⟩
  · exact .inl ⟨res, fun _ => hres _, hrun⟩
  · exact .inl ⟨some (.ok none), nofun, hnone⟩
  · have hk := (hl.bounds k List.mem_cons_self).2
    dsimp only at hrun
    rw [h.fragment_block hk] at hrun
    refine .inr ⟨r, key, k, l, _, h, hl, hrun, fun key' i hi => ?_⟩
    have hlarge : minFragmentSize ≤ (r.block k).size.toNat := h.large
    have hout : ∀ lo hi, (r.block k).offset.toNat ≤ lo →
        hi ≤ (r.block k).offset.toNat + (r.block k).size.toNat → ¬(key' = key ∧ lo ≤ i ∧ i < hi) :=
      fun lo hi' hlo hhi hin => hi ⟨hin.1 ▸ h.fragment_block hk, by omega, by omega⟩
    rw [minFragmentSize] at hlarge
    rw [Memory.putBytes_of_not_mem, Memory.putBytes_of_not_mem]
    · refine hout _ _ (Nat.le_refl _) ?_
      rw [length_leU32]
      omega
    · refine hout _ _ (Nat.le_add_right _ _) ?_
      rw [List.length_replicate]
      omega

/-- What a step keeps of a fragment that it does not name. -/
structure Keeps (b : LinkBuffers) (desc : FragmentDescriptor) (s s' : LinkHeap) : Prop where
  wellFormed : s'.WellFormed b
  held : desc ∈ s'.held
  bytes : ∀ key i, Owns b desc key i → s'.mem key i = s.mem key i

section Keeps

variable (hb : b.Registered) (hreach : b.InReach) (hs : s.WellFormed b) (hdesc : desc ∈ s.held)
include hb hreach hs hdesc

theorem keeps_held (hd : d ∈ s.held) (hne : d ≠ desc)
    (hsame : ∀ key i, ¬Owns b d key i → m key i = s.mem key i) : Keeps b desc s ⟨m, s.held⟩ :=
  ⟨hs.write_held hb hreach hd hsame, hdesc, fun key i hi =>
    hsame key i fun hi' => hne (hs.apart hb hreach hd hdesc hi' hi)⟩

theorem keeps_fixed
    (hsame : ∀ key i, ¬(key = .primary ∧ i < firstRegionOffset) → m key i = s.mem key i) :
    Keeps b desc s ⟨m, s.held⟩ := by
  refine ⟨hs.write_fixed hb hreach hsame, hdesc, fun key i hi => hsame key i ?_⟩
  rintro ⟨rfl, hlt⟩
  have hle := hs.owns_fixed hb hreach hdesc hi
  omega

/-- The counters of the primary buffer. -/
theorem keeps_fetchAddHeader {offset : UInt32} {count : UInt64}
    (hoffset : offset.toNat + 8 ≤ firstRegionOffset)
    (hm : b.fragment ⟨primaryBufferId, offset, 8⟩ = .ok .primary) :
    Keeps b desc s ⟨((LinkMemory.fetchAddHeader b offset count).run s.mem).2, s.held⟩ := by
  apply keeps_fixed hb hreach hs hdesc
  intro key i hi
  rw [LinkMemory.fetchAddHeader, hm]
  apply Memory.putBytes_of_not_mem
  rintro ⟨hkey, -, hlt⟩
  rw [length_leU64] at hlt
  exact hi ⟨hkey, by omega⟩

/-- The link state of an initial portal. -/
theorem keeps_initialLinkState {i : Nat} (hi : i < maxInitialPortals) (call : LinkCall) :
    Keeps b desc s ⟨((call.prog b (initialLinkState i)).run s.mem).2, s.held⟩ := by
  have hall : ∀ i < maxInitialPortals, (initialLinkState i).offset.toNat % 8 = 0 ∧
      (initialLinkState i).offset.toNat + (initialLinkState i).size.toNat ≤ firstRegionOffset := by
    decide
  obtain ⟨haligned, hend⟩ := hall i hi
  have hm : b.fragment (initialLinkState i) = .ok .primary := by
    have hin : (initialLinkState i).offset.toNat + (initialLinkState i).size.toNat ≤
        primaryBufferSize := Nat.le_trans hend (by decide)
    have hnull : ¬(initialLinkState i).isNull = true :=
      (by decide : ¬(primaryBufferId == invalidBufferId) = true)
    rw [LinkBuffers.fragment, if_neg hnull, if_neg (not_not.mpr haligned)]
    exact if_neg (Nat.not_lt.mpr hin)
  apply keeps_fixed hb hreach hs hdesc
  intro key j hj
  refine call.frame hm (show 8 ≤ 64 by decide) fun hown => hj ?_
  obtain ⟨hkey, -, hlt⟩ := hown
  exact ⟨(Except.ok.inj (hm.symm.trans hkey)).symm, Nat.lt_of_lt_of_le hlt hend⟩

/-- No operation changes a held fragment that it does not name. -/
theorem heapStep_keeps {op : HeapOp} (hop : Spares desc s op) :
    Keeps b desc s (heapStep b s op) := by
  cases op with
  -- a new fragment is apart from the one that is held
  | writeParcelFragment weak data =>
      rw [heapStep]
      rcases run_writeParcelFragment hb hreach hs weak data with ⟨res, hres, hrun⟩ |
        ⟨r, key, k, l, h, hl, hsize, hrun⟩
      · rw [hrun, LinkHeap.after_fail _ hres]
        exact ⟨hs, hdesc, fun _ _ _ => rfl⟩
      · rw [hrun]
        have hsame := putParcel_apart h (hl.bounds k List.mem_cons_self).2 hsize (s.pop r key k).mem
        exact ⟨taken_wellFormed hb hreach hs h hl hsame, List.mem_cons_of_mem _ hdesc,
          fun _ _ hi => taken_others hb hreach hs h hl hsame hdesc hi⟩
  | tryAllocateLinkState weak =>
      rw [heapStep]
      rcases run_tryAllocateLinkState hb hreach hs weak with ⟨res, hres, hrun⟩ |
        ⟨r, key, k, l, m, h, hl, hrun, hsame⟩
      · rw [hrun, LinkHeap.after_none hres]
        exact ⟨hs, hdesc, fun _ _ _ => rfl⟩
      · rw [hrun]
        exact ⟨taken_wellFormed hb hreach hs h hl hsame, List.mem_cons_of_mem _ hdesc,
          fun _ _ hi => taken_others hb hreach hs h hl hsame hdesc hi⟩
  -- an access stays inside the block of its descriptor
  | onFragment d call =>
      rw [heapStep, LinkHeap.after_held]
      obtain ⟨hne, hd | ⟨i, hi, rfl⟩⟩ := hop
      · obtain ⟨r, key, k, h, hpos, hk, rfl, -⟩ := hs.owns hb hreach hd
        exact keeps_held hb hreach hs hdesc hd hne fun key' i hi =>
          call.frame (h.fragment_block hk) (Nat.le_trans (by decide) h.large) hi
      · exact keeps_initialLinkState hb hreach hs hdesc hi call
  | allocateSublinkIds count =>
      rw [heapStep, LinkHeap.after_held]
      exact keeps_fetchAddHeader hb hreach hs hdesc (by decide) rfl
  | allocateNewBufferId =>
      rw [heapStep, LinkHeap.after_held]
      exact keeps_fetchAddHeader hb hreach hs hdesc (by decide) rfl
  -- a block that is freed was not the held one
  | freeBlock d weak =>
      obtain ⟨hne, hd⟩ := hop
      obtain ⟨r, key, k, h, hpos, hk, rfl, -⟩ := hs.owns hb hreach hd
      rw [heapStep]
      rcases run_freeBlock hb hs h (h.isBlock hpos hk) weak with hrun | hrun
      · rw [hrun]
        refine keeps_held hb hreach hs hdesc hd hne fun key' i hi => ?_
        apply Memory.putBytes_of_not_mem
        rintro ⟨rfl, hlo, hhi⟩
        exact hi ((h.owns_iff hk).mpr ⟨rfl, h.covers_header _ hlo hhi⟩)
      · rw [hrun]
        refine ⟨hs.push hb hreach h hpos hk hd, List.mem_filter.mpr ⟨hdesc, ?_⟩, fun key i hi => ?_⟩
        · exact decide_eq_true hne.symm
        · exact (push_others hb hreach hs h hk hd hne.symm hdesc hi).1

end Keeps

end Steps

/-- Over a run that does not name a fragment, it keeps its bytes. -/
theorem run_keeps {s : LinkHeap} {desc : FragmentDescriptor} (hb : b.Registered)
    (hreach : b.InReach) (hs : s.WellFormed b) (hdesc : desc ∈ s.held) {ops : List HeapOp}
    (hops : Meets (heapStep b) (Spares desc) s ops) :
    Keeps b desc s (exec (heapStep b) s ops) := by
  refine (always_of_meets (P := Keeps b desc s) (fun s' op hkeeps hop => ?_) ?_ hops).last
  · have hstep := heapStep_keeps hb hreach hkeeps.wellFormed hkeeps.held hop
    exact ⟨hstep.wellFormed, hstep.held, fun key i hi =>
      (hstep.bytes key i hi).trans (hkeeps.bytes key i hi)⟩
  · exact ⟨hs, hdesc, fun _ _ _ => rfl⟩

/-- Where blocks begin within the reach of 32 bits, fragments hold their parcels. -/
theorem parcel_fragments_hold (hb : b.Registered) (hreach : b.InReach) : HoldsParcels b := by
  intro s hs weak data desc m hwrite
  rcases run_writeParcelFragment hb hreach hs weak data with ⟨res, hres, hrun⟩ |
    ⟨r, key, k, l, h, hl, hsize, hrun⟩
  · exact absurd (Prod.mk.inj (hrun.symm.trans hwrite)).1 (hres desc)
  · obtain ⟨hres, rfl⟩ := Prod.mk.inj (hrun.symm.trans hwrite)
    obtain rfl := Except.ok.inj (Option.some.inj hres)
    obtain ⟨hpos, hk⟩ := hl.bounds k List.mem_cons_self
    have hsame := putParcel_apart h hk hsize (s.pop r key k).mem
    have hm := h.fragment_block hk
    constructor
    · exact read_putParcel (s := s.pop r key k) hm hsize fun _ _ _ => rfl
    · intro ops hops
      have hkeeps := run_keeps hb hreach (taken_wellFormed hb hreach hs h hl hsame)
        List.mem_cons_self hops
      rw [read_putParcel (s := s.pop r key k) hm hsize fun i hlo hhi =>
        hkeeps.bytes key i ⟨hm, hlo, hhi⟩]
    · exact taken_fresh h hl
    · exact ⟨r, k, h.region, h.isBlock hpos hk, fun _ _ => taken_writes h hsame⟩
    · exact fun d hd _ _ hi => taken_others hb hreach hs h hl hsame hd hi
    · exact fun i hi => taken_fixed hb hreach hs h hl hsame hi

/-! ### Fresh regions -/

section Fresh

/-- A region of zeros, but for the last block, which links back to block 0. -/
def initRegion (r : BlockRegion) (m : Memory MappedMemory) : Memory MappedMemory :=
  m.putBytes .primary (r.off + (r.numBlocks - 1) * r.blockSize.toNat)
    (BlockHeader.bytes ⟨0, 0 - Int16.ofNat r.numBlocks⟩)

/-- The regions of the primary buffer. -/
def primaryRegions : List BlockRegion :=
  primaryBlockRegions.map fun (blockSize, off, count) =>
    ⟨primaryBufferId, off, .ofNat blockSize, count⟩

/-- The memory of a new link. -/
def freshMemory : Memory MappedMemory := primaryRegions.foldr initRegion fun _ _ => 0

theorem usable_primaryRegions : ∀ r ∈ primaryRegions, Usable b r .primary :=
  List.forall_mem_map.mpr fun _ hmem => usable_primary hmem

theorem headers_zeros (r : BlockRegion) (k : Nat) :
    r.headers (fun _ _ => 0) key k = ⟨0, 0⟩ := by
  have hzeros : Memory.bytesAt (fun _ _ => 0) key (r.off + k * r.blockSize.toNat) 4 =
      [0, 0, 0, 0] := rfl
  rw [BlockRegion.headers, hzeros]
  rfl

/-- The headers of regions that were initialized. -/
theorem headers_initRegion (hb : b.Registered) {rs : List BlockRegion}
    (hrs : ∀ r ∈ rs, Usable b r .primary) (h : Usable b r .primary) (hk : k < r.numBlocks) :
    r.headers (rs.foldr initRegion fun _ _ => 0) .primary k =
      if r ∈ rs then initializeRegion r.numBlocks k else ⟨0, 0⟩ := by
  induction rs with
  | nil => exact headers_zeros r k
  | cons r' rs ih =>
      rw [List.forall_mem_cons] at hrs
      have hlast : r'.numBlocks - 1 < r'.numBlocks := Nat.sub_lt hrs.1.pos Nat.one_pos
      rw [List.foldr_cons, initRegion]
      by_cases heq : r = r' ∧ k = r'.numBlocks - 1
      · obtain ⟨rfl, rfl⟩ := heq
        rw [headers_putBytes, if_pos List.mem_cons_self, initializeRegion, if_pos rfl]
      · rw [headers_putBytes_apart hb hrs.1 h hlast hk heq, ih hrs.2]
        by_cases hin : r ∈ rs
        · rw [if_pos hin, if_pos (List.mem_cons_of_mem _ hin)]
        · rw [if_neg hin]
          split
          · rename_i hcons
            have hr : r = r' := (List.mem_cons.mp hcons).resolve_right hin
            rw [initializeRegion, if_neg fun hk => heq ⟨hr, hr ▸ hk⟩]
          · rfl

/-- A region of fresh memory has all of its blocks free but the first. -/
theorem freeList_fresh (hb : b.Registered) {s : LinkHeap}
    (hm : ∀ i, s.mem .primary i = freshMemory .primary i)
    (hheld : ∀ d ∈ s.held, d.bufferId ≠ primaryBufferId) (hr : r ∈ primaryRegions) :
    ∃ l, s.FreeList r .primary l := by
  have h := usable_primaryRegions (b := b) r hr
  have hone : ∀ r ∈ primaryRegions, 1 < r.numBlocks := by decide
  have hheaders : ∀ k < r.numBlocks,
      r.headers s.mem .primary k = initializeRegion r.numBlocks k := by
    intro k hk
    rw [h.headers_congr fun i _ => hm i]
    exact (headers_initRegion hb usable_primaryRegions h hk).trans (if_pos hr)
  have hlinked := AllocState.linked_initializeRegion ⟨r.numBlocks, hone r hr, h.le⟩ h.pos
  have hbounds : ∀ k ∈ List.range' 1 (r.numBlocks - 1), 0 < k ∧ k < r.numBlocks := by
    intro k hk
    have hmem := List.mem_range'_1.mp hk
    omega
  have hid : r.id = primaryBufferId := by
    obtain ⟨region, -, rfl⟩ := List.mem_map.mp hr
    rfl
  refine ⟨_, hlinked.relink ?_ fun x hx => hheaders x (hbounds x hx).2, List.nodup_range',
    hbounds, fun _ _ d hd his => hheld d hd (his.id.trans hid)⟩
  rw [nextBlock, nextBlock, hheaders 0 h.pos]

/-- The heap of a new link. -/
def freshHeap : LinkHeap := ⟨freshMemory, []⟩

theorem fresh_registered : LinkBuffers.adopted.Registered := ⟨nofun, nofun, nofun⟩

theorem fresh_inReach : LinkBuffers.adopted.InReach := nofun

theorem fresh_wellFormed : freshHeap.WellFormed .adopted := by
  apply LinkHeap.WellFormed.of_lists fresh_registered fresh_inReach
  · intro r key h
    rcases h.memory_cases with ⟨region, hmem, rfl, rfl⟩ | ⟨e, he, -⟩
    · exact freeList_fresh fresh_registered (fun _ => rfl) nofun (List.mem_map_of_mem hmem)
    · cases he
  · exact nofun

/-- Instance: a parcel that fills the smallest block of a new link. -/
theorem parcel_stored_fresh : ∃ desc m,
    (LinkMemory.writeParcelFragment .adopted (fun _ => [false]) (List.replicate 56 7)).run
      freshHeap.mem = (some (.ok desc), m) ∧
    Stored .adopted freshHeap (List.replicate 56 7) desc m := by
  have hwrite : ∃ desc m,
      (LinkMemory.writeParcelFragment .adopted (fun _ => [false]) (List.replicate 56 7)).run
        freshHeap.mem = (some (.ok desc), m) := by
    have hsize : (List.replicate 56 (7 : UInt8)).length + fragmentHeaderSize =
        routerLinkStateSize := rfl
    rw [LinkMemory.writeParcelFragment, LinkMemory.tryAllocateFragment, hsize, poolFor_adopted]
    exact ⟨_, _, rfl⟩
  obtain ⟨desc, m, hwrite⟩ := hwrite
  exact ⟨desc, m, hwrite,
    parcel_fragments_hold fresh_registered fresh_inReach _ fresh_wellFormed _ _ _ _ hwrite⟩

/-! ### Beyond 32 bits -/

/-- A buffer of 16 GiB with blocks of 1 MiB. -/
def farBuffers : LinkBuffers := .insert .adopted 1 ⟨⟨7, 2 ^ 34⟩, 1048576⟩

/-- The region of its blocks. -/
def farRegion : BlockRegion := ⟨1, 0, 1048576, 2 ^ 14⟩

/-- Its block 4097 is free, and its block 1 held. -/
def farHeap : LinkHeap where
  mem := (freshMemory.putBytes (.file 7) 0 (BlockHeader.bytes ⟨0, 4096⟩)).putBytes (.file 7)
    (4097 * 1048576) (BlockHeader.bytes ⟨0, -4098⟩)
  held := [⟨1, 1048576, 1048576⟩]

theorem far_extra {id : UInt64} {e : MappedBuffer} (h : farBuffers.extra id = some e) :
    id = 1 ∧ e = ⟨⟨7, 2 ^ 34⟩, 1048576⟩ := by
  by_cases hid : id = 1
  · subst hid
    exact ⟨rfl, (Option.some.inj h).symm⟩
  · have hnone : farBuffers.extra id = none := Function.update_of_ne hid _ _
    rw [hnone] at h
    cases h

theorem far_registered : farBuffers.Registered := by
  refine ⟨fun id e he => ?_, fun id e he => ?_, fun id id' e e' he he' _ => ?_⟩
  · obtain ⟨rfl, -⟩ := far_extra he
    decide
  · obtain ⟨-, rfl⟩ := far_extra he
    rfl
  · rw [(far_extra he).1, (far_extra he').1]

theorem far_freeList : farHeap.FreeList farRegion (.file 7) [4097] := by
  have hfront : farRegion.headers farHeap.mem (.file 7) 0 = ⟨0, 4096⟩ := by rfl
  have hheader : farRegion.headers farHeap.mem (.file 7) 4097 = ⟨0, -4098⟩ := by rfl
  refine ⟨⟨?_, ?_⟩, List.nodup_singleton _, ?_, ?_⟩
  · rw [nextBlock, hfront]
    rfl
  · show nextBlock _ _ = 0
    rw [nextBlock, hheader]
    rfl
  · exact List.forall_mem_singleton.mpr (by decide)
  · refine List.forall_mem_singleton.mpr (List.forall_mem_singleton.mpr fun his => ?_)
    have hoffset : 1048576 = 0 + 4097 * 1048576 := his.offset
    omega

theorem far_wellFormed : farHeap.WellFormed farBuffers := by
  constructor
  · intro r hr hle key len hlen
    rcases hr with ⟨region, hmem, rfl⟩ | ⟨hne, e, he, hr⟩
    · obtain ⟨rfl, -⟩ := Prod.mk.inj (Except.ok.inj hlen)
      refine freeList_fresh far_registered (fun _ => rfl) ?_ (List.mem_map_of_mem hmem)
      exact List.forall_mem_singleton.mpr (by decide)
    · obtain ⟨hid, rfl⟩ := far_extra he
      rw [hid] at hr
      subst hr
      obtain ⟨rfl, -⟩ := Prod.mk.inj (Except.ok.inj hlen)
      exact ⟨[4097], far_freeList⟩
  · refine List.forall_mem_singleton.mpr ⟨farRegion, 1, ?_, by decide, ?_⟩
    · exact .inr ⟨by decide, _, rfl, rfl⟩
    · exact ⟨by decide, by decide, rfl, rfl, rfl⟩

theorem poolFor_far : farBuffers.poolFor (5000 + fragmentHeaderSize) = some 1048576 := by
  have hsizes : farBuffers.registry.poolSizes = [64, 256, 512, 1024, 2048, 4096, 1048576] := by
    have hdedup : (primaryBlockRegions.map Prod.fst ++ [1048576]).dedup =
        [64, 256, 512, 1024, 2048, 4096, 1048576] := by decide
    show (primaryBlockRegions.map Prod.fst ++ [1048576]).dedup.mergeSort (· ≤ ·) = _
    rw [hdedup]
    simp [List.mergeSort, List.MergeSort.Internal.splitInTwo]
  rw [LinkBuffers.poolFor, hsizes]
  decide

/-- In a buffer that reaches beyond 32 bits, a parcel may be written over one
that is held. -/
theorem parcel_overwritten : farBuffers.Registered ∧ ¬HoldsParcels farBuffers := by
  refine ⟨far_registered, fun hholds => ?_⟩
  have hwrite : ∃ m, (LinkMemory.writeParcelFragment farBuffers (fun _ => [false])
      (List.replicate 5000 0)).run farHeap.mem = (some (.ok ⟨1, 1048576, 1048576⟩), m) := by
    rw [LinkMemory.writeParcelFragment, LinkMemory.tryAllocateFragment, List.length_replicate,
      poolFor_far]
    exact ⟨_, rfl⟩
  obtain ⟨m, hwrite⟩ := hwrite
  exact (hholds farHeap far_wellFormed _ _ _ _ hwrite).fresh (List.mem_singleton.mpr rfl)

end Fresh

end MojoRs.Ipcz
