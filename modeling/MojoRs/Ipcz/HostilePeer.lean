/-
MojoRs/Ipcz/HostilePeer.lean

The block allocator against a peer that writes what it likes.  The headers of
a region are links of 16 bits, relative to a block; an operation reads them
again in every turn of its loop, and an execution is given whatever it finds.

`pop_block` takes the front header for empty or out of range where it links to
block 0 or behind the last block, but not where it links below block 0: such an
index wraps, and may come out as a block that is none.  Everything else it
computes is in range, so that the condition on the front headers is exact.

`free_block` rounds the offset of a descriptor down to a block.

Main results: `popBlock_safe_iff`, `freeBlock_safe_iff`, `allocator_resists_iff`.
-/
import MojoRs.Ipcz.LinkPrograms

namespace MojoRs.Ipcz

open Lib Prog

variable {b : LinkBuffers} {r : BlockRegion} {α : Type}

/-- An access to the link memory. -/
abbrev LinkEvent := Event LinkWord MappedMemory

/-- What comes out of an operation, unless it goes on. -/
abbrev LinkResult (α : Type) := Option (Except LinkMemoryError α)

/-! ### What is safe -/

/-- A descriptor of block `k` of a region, which is not the first one. -/
structure BlockRegion.IsBlock (r : BlockRegion) (k : Nat) (desc : FragmentDescriptor) : Prop where
  pos : 0 < k
  lt : k < r.numBlocks
  id : desc.bufferId = r.id
  offset : desc.offset.toNat = r.off + k * r.blockSize.toNat
  size : desc.size = r.blockSize

/-- Every number is in its range. -/
def InRange : LinkEvent → Prop
  | .fits x lo hi => lo ≤ x ∧ x < hi
  | _ => True

/-- An execution computes nothing out of range, and returns nothing but a
block of a region among `R`. -/
def SafePop (R : BlockRegion → Prop) (es : List LinkEvent)
    (res : LinkResult (Option FragmentDescriptor)) : Prop :=
  (∀ ev ∈ es, InRange ev) ∧
    ∀ desc, res = some (.ok (some desc)) → ∃ r k, R r ∧ r.IsBlock k desc

/-- An access that finds `front` at the head of the free list. -/
def SeesFront (r : BlockRegion) (front : BlockHeader) : LinkEvent → Prop
  | .read word _ _ _ found | .write word _ _ _ found _ =>
      word = .front r ∧ .ofBytes found = front
  | .fits .. => False

/-- A front header that does not link below block 0, nor to a block behind the
reach of 32 bits. -/
def BlockRegion.Links (r : BlockRegion) (front : BlockHeader) : Prop :=
  0 ≤ firstFree front ∧ (firstFree front ≠ 0 → firstFree front < r.numBlocks →
    r.off + firstFree front * r.blockSize.toNat < 2 ^ 32)

/-- All front headers found do. -/
def FrontsLink (es : List LinkEvent) : Prop :=
  ∀ ev ∈ es, ∀ r front, SeesFront r front ev → r.Links front

theorem FrontsLink.append {es es' : List LinkEvent} :
    FrontsLink (es ++ es') ↔ FrontsLink es ∧ FrontsLink es' := List.forall_mem_append

theorem frontsLink_cons {ev : LinkEvent} {es : List LinkEvent} :
    FrontsLink (ev :: es) ↔ (∀ r front, SeesFront r front ev → r.Links front) ∧ FrontsLink es :=
  List.forall_mem_cons

theorem frontsLink_fits {x lo hi : Int} {es : List LinkEvent} :
    FrontsLink (.fits x lo hi :: es) ↔ FrontsLink es := by
  rw [frontsLink_cons, and_iff_right]
  exact fun _ _ h => absurd h id

theorem frontsLink_header {memory : MappedMemory} {off len : Nat} {found : List UInt8}
    {es : List LinkEvent} :
    FrontsLink (.read (.header r) memory off len found :: es) ↔ FrontsLink es := by
  rw [frontsLink_cons, and_iff_right]
  exact fun _ _ h => nomatch h.1

theorem forall_sees_front {front : BlockHeader} :
    (∀ r' front', (LinkWord.front r = .front r' ∧ front = front') → r'.Links front') ↔
      r.Links front := by
  constructor
  · exact fun h => h r front ⟨rfl, rfl⟩
  · rintro h r' front' ⟨hr, rfl⟩
    obtain rfl := LinkWord.front.inj hr
    exact h

theorem frontsLink_read {memory : MappedMemory} {off len : Nat} {found : List UInt8}
    {es : List LinkEvent} :
    FrontsLink (.read (.front r) memory off len found :: es) ↔
      r.Links (.ofBytes found) ∧ FrontsLink es := by
  rw [frontsLink_cons]
  exact and_congr_left' forall_sees_front

theorem frontsLink_write {memory : MappedMemory} {off len : Nat} {found stored : List UInt8}
    {es : List LinkEvent} :
    FrontsLink (.write (.front r) memory off len found stored :: es) ↔
      r.Links (.ofBytes found) ∧ FrontsLink es := by
  rw [frontsLink_cons]
  exact and_congr_left' forall_sees_front

section Events

variable {R : BlockRegion → Prop} {es es' : List LinkEvent}
  {res : LinkResult (Option FragmentDescriptor)}

theorem safePop_access {ev : LinkEvent} (h : InRange ev) :
    SafePop R (ev :: es) res ↔ SafePop R es res := by
  rw [SafePop, List.forall_mem_cons, and_iff_right h]
  rfl

theorem safePop_fits {x lo hi : Int} (h : lo ≤ x ∧ x < hi) :
    SafePop R (.fits x lo hi :: es) res ↔ SafePop R es res := safePop_access h

theorem safePop_read {word : LinkWord} {memory : MappedMemory} {off len : Nat}
    {found : List UInt8} :
    SafePop R (.read word memory off len found :: es) res ↔ SafePop R es res :=
  safePop_access trivial

theorem safePop_write {word : LinkWord} {memory : MappedMemory} {off len : Nat}
    {found stored : List UInt8} :
    SafePop R (.write word memory off len found stored :: es) res ↔ SafePop R es res :=
  safePop_access trivial

theorem safePop_append (h : ∀ ev ∈ es, InRange ev) :
    SafePop R (es ++ es') res ↔ SafePop R es' res := by
  rw [SafePop, List.forall_mem_append, and_iff_right h]
  rfl

theorem safePop_none : SafePop R [] (some (.ok none)) := ⟨List.forall_mem_nil _, nofun⟩

theorem safePop_error (e : LinkMemoryError) : SafePop R [] (some (.error e)) :=
  ⟨List.forall_mem_nil _, nofun⟩

theorem safePop_stuck : SafePop R [] none := ⟨List.forall_mem_nil _, nofun⟩

theorem frontsLink_nil : FrontsLink [] := List.forall_mem_nil _

end Events

/-! ### The parts of an operation -/

section Parts

variable {es : List LinkEvent} {res : LinkResult α}

theorem castI16_execution {x : Int} {g : Int16 → LinkProg α}
    (h : Execution (castI16 x >>= g) es res) :
    ∃ es', es = .fits x (-2 ^ 15) (2 ^ 15) :: es' ∧ Execution (g (.ofInt x)) es' res := by
  change Execution (check x (-2 ^ 15) (2 ^ 15) >>= fun _ => g (.ofInt x)) es res at h
  exact execution_check_bind h

theorem offsetOf_execution {idx : Int} {g : UInt32 → LinkProg α}
    (h : Execution (r.offsetOf idx >>= g) es res) :
    ∃ es', es = .fits idx 0 r.numBlocks ::
        .fits (r.off + idx * r.blockSize.toNat) 0 (2 ^ 32) :: es' ∧
      Execution (g (blockOffset r.off idx r.blockSize)) es' res := by
  change Execution (check idx 0 r.numBlocks >>= fun _ =>
    check (r.off + idx * r.blockSize.toNat) 0 (2 ^ 32) >>= fun _ =>
      g (blockOffset r.off idx r.blockSize)) es res at h
  obtain ⟨es₁, rfl, h₁⟩ := execution_check_bind h
  obtain ⟨es₂, rfl, h₂⟩ := execution_check_bind h₁
  exact ⟨es₂, rfl, h₂⟩

theorem readBlockHeader_execution {word : LinkWord} {desc : FragmentDescriptor}
    {g : BlockHeader → LinkProg α}
    (h : Execution (LinkMemory.readBlockHeader b word desc >>= g) es res) :
    (∃ e, es = [] ∧ res = some (.error e)) ∨ ∃ memory found es', b.fragment desc = .ok memory ∧
      es = .read word memory desc.offset.toNat 4 found :: es' ∧
        Execution (g (.ofBytes found)) es' res := by
  cases hm : b.fragment desc with
  | error e =>
      rw [LinkMemory.readBlockHeader, hm] at h
      cases (h : Execution (.done (.error e)) es res)
      exact .inl ⟨e, rfl, rfl⟩
  | ok memory =>
      rw [LinkMemory.readBlockHeader, hm] at h
      change Execution (loadBytes word memory desc.offset.toNat 4 >>= fun bytes =>
        g (.ofBytes bytes)) es res at h
      obtain ⟨found, es', rfl, hrest⟩ := execution_loadBytes_bind h
      exact .inr ⟨memory, found, es', rfl, rfl, hrest⟩

theorem casFrontHeader_execution {known desired : BlockHeader} {spurious : Bool}
    {g : Option BlockHeader → LinkProg α}
    (h : Execution (LinkMemory.casFrontHeader b r known desired spurious >>= g) es res) :
    (∃ e, es = [] ∧ res = some (.error e)) ∨
      ∃ memory found stored es', b.fragment r.frontDesc = .ok memory ∧
        es = .write (.front r) memory r.frontDesc.offset.toNat 4 found stored :: es' ∧
          (BlockHeader.ofBytes found = known ∧ Execution (g none) es' res ∨
            Execution (g (some (.ofBytes found))) es' res) := by
  cases hm : b.fragment r.frontDesc with
  | error e =>
      rw [LinkMemory.casFrontHeader, hm] at h
      cases (h : Execution (.done (.error e)) es res)
      exact .inl ⟨e, rfl, rfl⟩
  | ok memory =>
      rw [LinkMemory.casFrontHeader, hm] at h
      change Execution (updateBytes (.front r) memory r.frontDesc.offset.toNat 4 _ >>= fun bytes =>
        Prog.bind (if BlockHeader.ofBytes bytes = known ∧ spurious = false then _ else _) g)
        es res at h
      obtain ⟨found, es', rfl, hrest⟩ := execution_updateBytes_bind h
      refine .inr ⟨memory, found, _, es', rfl, rfl, ?_⟩
      split at hrest
      · rename_i hknown
        exact .inl ⟨hknown.1, hrest⟩
      · exact .inr hrest

end Parts

/-! ### Allocation -/

section Allocation

variable {R : BlockRegion → Prop} {es : List LinkEvent}
  {res : LinkResult (Option FragmentDescriptor)}

theorem address_cast (r : BlockRegion) (k : Nat) :
    (r.off : Int) + (k : Int) * r.blockSize.toNat =
      ((r.off + k * r.blockSize.toNat : Nat) : Int) := by
  push_cast
  rfl

/-- The offset of a block within the reach of 32 bits. -/
theorem blockOffset_toNat {k : Nat} (h : r.off + k * r.blockSize.toNat < 2 ^ 32) :
    (blockOffset r.off k r.blockSize).toNat = r.off + k * r.blockSize.toNat := by
  rw [blockOffset, address_cast, Int.emod_eq_of_lt (Int.natCast_nonneg _) (by exact_mod_cast h),
    Int.toNat_natCast]
  exact UInt32.toNat_ofNat_of_lt' h

theorem isBlock_of_links {front : BlockHeader} (hlinks : r.Links front)
    (hne : ¬(firstFree front = 0 ∨ r.numBlocks ≤ firstFree front)) :
    r.IsBlock (firstFree front).toNat
      ⟨r.id, blockOffset r.off (firstFree front) r.blockSize, r.blockSize⟩ := by
  obtain ⟨hpos, hreach⟩ := hlinks
  rw [not_or, not_le] at hne
  have haddr := hreach hne.1 hne.2
  obtain ⟨k, hk⟩ := Int.eq_ofNat_of_zero_le hpos
  rw [hk] at hne haddr ⊢
  rw [address_cast] at haddr
  refine ⟨by rw [Int.toNat_natCast]; omega, by rw [Int.toNat_natCast]; omega, rfl, ?_, rfl⟩
  exact blockOffset_toNat (by exact_mod_cast haddr)

/-- A turn of the loop, when what follows it is safe exactly with front headers
that link. -/
theorem popTurn_safe_iff {front : BlockHeader}
    {k : FragmentDescriptor → BlockHeader → LinkProg (Option FragmentDescriptor)}
    (hn : r.numBlocks ≤ 2 ^ 15 - 1)
    (hk : ∀ block desired, (∃ i, r.IsBlock i block) → r.Links front → ∀ es res,
      Execution (k block desired) es res → (SafePop R es res ↔ FrontsLink es))
    (h : Execution (LinkMemory.popTurn b r front k) es res) :
    SafePop R es res ↔ r.Links front ∧ FrontsLink es := by
  rw [LinkMemory.popTurn] at h
  dsimp only at h
  split at h
  · rename_i hnone
    cases h
    refine iff_of_true safePop_none ⟨⟨by omega, fun hne hlt => ?_⟩, frontsLink_nil⟩
    omega
  · rename_i hne
    obtain ⟨es₁, rfl, h₁⟩ := offsetOf_execution h
    by_cases hlinks : r.Links front
    · have hblock := isBlock_of_links hlinks hne
      have hreach := hlinks.2 (fun h => hne (.inl h)) (not_le.mp fun h => hne (.inr h))
      rw [not_or, not_le] at hne
      have hnonneg : 0 ≤ (r.off : Int) + firstFree front * r.blockSize.toNat :=
        Int.add_nonneg (Int.natCast_nonneg _)
          (Int.mul_nonneg hlinks.1 (Int.natCast_nonneg _))
      rw [safePop_fits ⟨hlinks.1, hne.2⟩, safePop_fits ⟨hnonneg, hreach⟩, frontsLink_fits,
        frontsLink_fits, and_iff_right hlinks]
      rcases readBlockHeader_execution h₁ with ⟨e, rfl, rfl⟩ | ⟨memory, found, es₂, -, rfl, h₂⟩
      · exact iff_of_true (safePop_error e) frontsLink_nil
      · rw [safePop_read, frontsLink_header]
        split at h₂
        · cases h₂
          exact iff_of_true safePop_none frontsLink_nil
        · rename_i hnext
          obtain ⟨es₃, rfl, h₃⟩ := castI16_execution h₂
          rw [safePop_fits ⟨by omega, by omega⟩, frontsLink_fits]
          exact hk _ _ ⟨_, hblock⟩ hlinks _ _ h₃
    · refine iff_of_false (fun hsafe => hlinks ?_) fun h => hlinks h.1
      obtain ⟨hrange, -⟩ := hsafe
      rw [List.forall_mem_cons, List.forall_mem_cons] at hrange
      exact ⟨hrange.1.1, fun _ _ => hrange.2.1.2⟩

/-- The loop, from any front header. -/
theorem popLoop_safe_iff (hr : R r) (hn : r.numBlocks ≤ 2 ^ 15 - 1) {weak : List Bool}
    {front : BlockHeader} (h : Execution (LinkMemory.popLoop b r weak front) es res) :
    SafePop R es res ↔ r.Links front ∧ FrontsLink es := by
  induction weak generalizing front es res with
  | nil =>
      refine popTurn_safe_iff hn (fun _ _ _ _ es res h => ?_) h
      cases h
      exact iff_of_true safePop_stuck frontsLink_nil
  | cons spurious weak ih =>
      refine popTurn_safe_iff hn (fun block desired hblock hlinks es res h => ?_) h
      rcases casFrontHeader_execution h with ⟨e, rfl, rfl⟩ |
        ⟨memory, found, stored, es', -, rfl, hdone | hagain⟩
      · exact iff_of_true (safePop_error e) frontsLink_nil
      · -- the exchange succeeds: the header found is the one that was known
        obtain ⟨rfl, hdone⟩ := hdone
        cases hdone
        rw [safePop_write, frontsLink_write]
        obtain ⟨i, hi⟩ := hblock
        refine iff_of_true ⟨List.forall_mem_nil _, fun desc hdesc => ?_⟩ ⟨hlinks, frontsLink_nil⟩
        obtain rfl := Option.some.inj (Except.ok.inj (Option.some.inj hdesc))
        exact ⟨r, i, hr, hi⟩
      · rw [safePop_write, frontsLink_write]
        exact ih hagain

/-- `pop_block` is safe exactly with front headers that link. -/
theorem popBlock_safe_iff (hr : R r) {weak : List Bool}
    (h : Execution (LinkMemory.popBlock b r weak) es res) : SafePop R es res ↔ FrontsLink es := by
  rw [LinkMemory.popBlock] at h
  split at h
  · cases h
    exact iff_of_true safePop_none frontsLink_nil
  · rename_i hcount
    rcases readBlockHeader_execution h with ⟨e, rfl, rfl⟩ | ⟨memory, found, es', -, rfl, h'⟩
    · exact iff_of_true (safePop_error e) frontsLink_nil
    · rw [safePop_read, frontsLink_read]
      exact popLoop_safe_iff hr (by omega) h'

/-- One allocation, and another if it comes to nothing. -/
theorem orElse_safe_iff {p : LinkProg (Option FragmentDescriptor)}
    {g : Option FragmentDescriptor → LinkProg (Option FragmentDescriptor)}
    (hp : ∀ es res, Execution p es res → (SafePop R es res ↔ FrontsLink es))
    (hsome : ∀ block, g (some block) = pure (some block))
    (hnone : ∀ es res, Execution (g none) es res → (SafePop R es res ↔ FrontsLink es))
    (h : Execution (p >>= g) es res) : SafePop R es res ↔ FrontsLink es := by
  rcases execution_bind h with ⟨es₁, es₂, a, h₁, h₂, rfl⟩ | ⟨h₁, rfl⟩ | ⟨e, h₁, rfl⟩
  · cases a with
    | some block =>
        rw [hsome] at h₂
        cases h₂
        rw [List.append_nil]
        exact hp _ _ h₁
    | none =>
        have hfirst := hp _ _ h₁
        rw [FrontsLink.append, ← hnone _ _ h₂]
        constructor
        · rintro ⟨hrange, hblock⟩
          rw [List.forall_mem_append] at hrange
          exact ⟨hfirst.mp ⟨hrange.1, nofun⟩, hrange.2, hblock⟩
        · rintro ⟨hlink, hsafe⟩
          exact (safePop_append (hfirst.mpr hlink).1).mpr hsafe
  · exact hp _ _ h₁
  · exact hp _ _ h₁

/-- The extra buffers, one after the other. -/
theorem popExtra_safe_iff {weak : BlockRegion → List Bool} {poolSize : UInt32} {ids : List UInt64}
    (hR : ∀ id ∈ ids, ∀ e, b.extra id = some e → e.blockSize = poolSize →
      R (LinkMemory.extraRegion id e))
    (h : Execution (LinkMemory.popExtra b weak poolSize ids) es res) :
    SafePop R es res ↔ FrontsLink es := by
  induction ids generalizing es res with
  | nil =>
      cases h
      exact iff_of_true safePop_none frontsLink_nil
  | cons id ids ih =>
      rw [List.forall_mem_cons] at hR
      rw [LinkMemory.popExtra] at h
      split at h
      · cases h
        exact iff_of_true (safePop_error _) frontsLink_nil
      · rename_i e he
        split at h
        · rename_i hsize
          refine orElse_safe_iff ?_ ?_ ?_ h
          · exact fun _ _ => popBlock_safe_iff (hR.1 e he hsize)
          · exact fun _ => rfl
          · exact fun _ _ h => ih hR.2 h
        · exact ih hR.2 h

end Allocation

/-- The regions that an allocation of `size` bytes may take a block of. -/
def Chosen (b : LinkBuffers) (size : Nat) (r : BlockRegion) : Prop :=
  ∃ poolSize, b.poolFor size = some poolSize ∧
    ((∃ id ∈ b.extraOrder, ∃ e, b.extra id = some e ∧ e.blockSize = .ofNat poolSize ∧
        r = LinkMemory.extraRegion id e) ∨
      LinkMemory.primaryRegion poolSize = some r)

/-- An allocation is safe exactly with front headers that link. -/
theorem tryAllocateFragment_safe_iff {weak : BlockRegion → List Bool} {size : Nat}
    {es : List LinkEvent} {res : LinkResult (Option FragmentDescriptor)}
    (h : Execution (LinkMemory.tryAllocateFragment b weak size) es res) :
    SafePop (Chosen b size) es res ↔ FrontsLink es := by
  rw [LinkMemory.tryAllocateFragment] at h
  split at h
  · cases h
    exact iff_of_true safePop_none frontsLink_nil
  · rename_i poolSize hpool
    refine orElse_safe_iff (fun es res => popExtra_safe_iff ?_) ?_ (fun es res h => ?_) h
    · intro id hid e he hsize
      exact ⟨poolSize, hpool, .inl ⟨id, List.mem_reverse.mp hid, e, he, hsize, rfl⟩⟩
    · exact fun _ => rfl
    · dsimp only at h
      split at h
      · rename_i r hr
        exact popBlock_safe_iff ⟨poolSize, hpool, .inr hr⟩ h
      · cases h
        exact iff_of_true safePop_none frontsLink_nil

/-! ### Freeing -/

/-- A region of a registered buffer. -/
def IsRegion (b : LinkBuffers) (r : BlockRegion) : Prop :=
  (∃ region ∈ primaryBlockRegions,
    r = ⟨primaryBufferId, region.2.1, .ofNat region.1, region.2.2⟩) ∨
  r.id ≠ primaryBufferId ∧ ∃ e, b.extra r.id = some e ∧ r = LinkMemory.extraRegion r.id e

/-- A buffer has the bytes that a descriptor names. -/
def Resolves (b : LinkBuffers) (desc : FragmentDescriptor) : Prop :=
  ∃ memory, b.fragment desc = .ok memory

namespace BlockRegion

/-- The descriptor of the header of block `k`. -/
def headerDesc (r : BlockRegion) (k : Nat) : FragmentDescriptor :=
  ⟨r.id, blockOffset r.off k r.blockSize, 4⟩

/-- The block that an offset falls into. -/
def indexOf (r : BlockRegion) (desc : FragmentDescriptor) : Nat :=
  (desc.offset.toNat - r.off) / r.blockSize.toNat

end BlockRegion

/-- A write to the front header, or to the header at the start of `desc`. -/
def WritesHeader (b : LinkBuffers) (r : BlockRegion) (desc : FragmentDescriptor) :
    LinkEvent → Prop
  | .write _ key off len _ _ => len = 4 ∧ (∃ size, b.bufferFor desc.bufferId = .ok (key, size)) ∧
      (off = r.frontDesc.offset.toNat ∨ off = desc.offset.toNat)
  | _ => True

/-- An execution computes nothing out of range; if it succeeds, the descriptor
is that of a block, and only the block's header and the front header are
written. -/
def SafeFree (b : LinkBuffers) (desc : FragmentDescriptor) (es : List LinkEvent)
    (res : LinkResult Bool) : Prop :=
  (∀ ev ∈ es, InRange ev) ∧ (res = some (.ok true) →
    ∃ r k, IsRegion b r ∧ r.IsBlock k desc ∧ ∀ ev ∈ es, WritesHeader b r desc ev)

/-- Where the number of blocks stays positive as an `i32` and the headers resolve,
the descriptor is that of a block, and its index is one that a link can reach. -/
def Freeable (b : LinkBuffers) (desc : FragmentDescriptor) : Prop :=
  ∀ r, LinkMemory.freeRegion b desc = some r → 0 < r.indexOf desc →
    r.indexOf desc < r.numBlocks → 0 < asI32 r.numBlocks → Resolves b r.frontDesc →
      r.indexOf desc < 2 ^ 15 ∧
        (Resolves b (r.headerDesc (r.indexOf desc)) → r.IsBlock (r.indexOf desc) desc)

section Freeing

variable {desc : FragmentDescriptor}

theorem freeRegion_spec (h : LinkMemory.freeRegion b desc = some r) :
    IsRegion b r ∧ desc.bufferId = r.id ∧ desc.size = r.blockSize ∧ r.off ≤ desc.offset.toNat := by
  rw [LinkMemory.freeRegion] at h
  split at h
  · rename_i hid
    obtain ⟨region, hfind, rfl⟩ := Option.map_eq_some_iff.mp h
    have hmem := List.mem_of_find?_eq_some hfind
    have hfits : desc.size.toNat = region.1 ∧ region.2.1 ≤ desc.offset.toNat ∧
        desc.offset.toNat + desc.size.toNat ≤ region.2.1 + region.2.2 * region.1 := by
      simpa using List.find?_some hfind
    refine ⟨.inl ⟨region, hmem, rfl⟩, hid, ?_, hfits.2.1⟩
    show desc.size = .ofNat region.1
    rw [← hfits.1, UInt32.ofNat_toNat]
  · rename_i hid
    split at h
    · rename_i e he
      split at h
      · rename_i hsize
        obtain rfl := Option.some.inj h
        exact ⟨.inr ⟨hid, e, he, rfl⟩, rfl, hsize.symm, Nat.zero_le _⟩
      · cases h
    · cases h

/-- The size tells the regions of a buffer apart. -/
theorem region_unique {r' : BlockRegion} (h : IsRegion b r) (h' : IsRegion b r')
    (hid : r.id = r'.id) (hsize : r.blockSize = r'.blockSize) : r = r' := by
  rcases h with ⟨region, hmem, rfl⟩ | ⟨hne, e, he, hr⟩
  · rcases h' with ⟨region', hmem', rfl⟩ | ⟨hne', -⟩
    · have hall : ∀ x ∈ primaryBlockRegions, ∀ y ∈ primaryBlockRegions,
          UInt32.ofNat x.1 = UInt32.ofNat y.1 → x = y := by decide
      rw [hall region hmem region' hmem' hsize]
    · exact absurd hid.symm hne'
  · rcases h' with ⟨region', -, rfl⟩ | ⟨-, e', he', hr'⟩
    · exact absurd hid hne
    · rw [hid] at he hr
      rw [he] at he'
      obtain rfl := Option.some.inj he'
      exact hr.trans hr'.symm

theorem bufferFor_of_fragment {memory : MappedMemory} (h : b.fragment desc = .ok memory) :
    ∃ size, b.bufferFor desc.bufferId = .ok (memory, size) := by
  rw [LinkBuffers.fragment] at h
  split_ifs at h
  cases hbuf : b.bufferFor desc.bufferId with
  | error e =>
      rw [hbuf] at h
      cases h
  | ok found =>
      rw [hbuf] at h
      change (if _ then _ else _) = _ at h
      split_ifs at h
      exact ⟨found.2, by rw [← Except.ok.inj h]⟩

theorem freeBlock_eq (hfree : LinkMemory.freeRegion b desc = some r) (hpos : 0 < r.indexOf desc)
    (hlt : r.indexOf desc < r.numBlocks) (weak : List Bool) :
    LinkMemory.freeBlock b desc weak = (do
      let front ← LinkMemory.readBlockHeader b (.front r) r.frontDesc
      LinkMemory.freeLoop b r (r.indexOf desc) weak front) := by
  have hindex : ¬(r.indexOf desc = 0 ∨ r.numBlocks ≤ r.indexOf desc) := by omega
  rw [LinkMemory.freeBlock, hfree]
  exact if_neg hindex

/-- The block that a descriptor falls into begins before it. -/
theorem indexOf_address (hfree : LinkMemory.freeRegion b desc = some r) :
    r.off + r.indexOf desc * r.blockSize.toNat ≤ desc.offset.toNat := by
  obtain ⟨-, -, -, hoff⟩ := freeRegion_spec hfree
  have hdiv := Nat.div_mul_le_self (desc.offset.toNat - r.off) r.blockSize.toNat
  rw [BlockRegion.indexOf]
  omega

section Safe

variable (hfree : LinkMemory.freeRegion b desc = some r) (hpos : 0 < r.indexOf desc)
  (hlt : r.indexOf desc < r.numBlocks) (hreach : r.indexOf desc < 2 ^ 15)
  (hblock : Resolves b (r.headerDesc (r.indexOf desc)) → r.IsBlock (r.indexOf desc) desc)
include hfree hlt hreach hblock

/-- What the loop of `free_block` keeps. -/
def FreesBlock (b : LinkBuffers) (r : BlockRegion) (desc : FragmentDescriptor)
    (es : List LinkEvent) (res : LinkResult Bool) : Prop :=
  (∀ ev ∈ es, InRange ev ∧ WritesHeader b r desc ev) ∧
    (res = some (.ok true) → r.IsBlock (r.indexOf desc) desc)

theorem freeTurn_freesBlock {front : BlockHeader} {k : BlockHeader → LinkProg Bool}
    {es : List LinkEvent} {res : LinkResult Bool}
    (hk : ∀ desired, r.IsBlock (r.indexOf desc) desc → ∀ es res, Execution (k desired) es res →
      FreesBlock b r desc es res)
    (h : Execution (LinkMemory.freeTurn b r (r.indexOf desc) front k) es res) :
    FreesBlock b r desc es res := by
  have haddr := indexOf_address hfree
  have hoffset := desc.offset.toNat_lt
  rw [LinkMemory.freeTurn] at h
  split at h
  -- the index is out of range: nothing is written
  · cases h
    exact ⟨List.forall_mem_nil _, nofun⟩
  · rename_i hrange
    rw [not_or, not_lt, not_le] at hrange
    have hfront : firstFree front ≤ 2 ^ 15 := by
      have := front.next.toInt_lt
      rw [firstFree]
      omega
    obtain ⟨es₁, rfl, h₁⟩ := castI16_execution h
    obtain ⟨es₂, rfl, h₂⟩ := offsetOf_execution h₁
    -- the casts and the sum of the offset are in bounds, whatever the peer wrote
    suffices hrest : FreesBlock b r desc es₂ res by
      refine ⟨List.forall_mem_cons.mpr ⟨⟨⟨by omega, by omega⟩, trivial⟩,
        List.forall_mem_cons.mpr ⟨⟨⟨by omega, by omega⟩, trivial⟩,
          List.forall_mem_cons.mpr ⟨⟨?_, trivial⟩, hrest.1⟩⟩⟩, hrest.2⟩
      rw [address_cast]
      exact ⟨Int.natCast_nonneg _, by exact_mod_cast Nat.lt_of_le_of_lt haddr hoffset⟩
    rw [LinkMemory.writeBlockHeader] at h₂
    -- the header of the block, or the region has none there
    cases hm : b.fragment (r.headerDesc (r.indexOf desc)) with
    | error e =>
        rw [show b.fragment ⟨r.id, blockOffset r.off (r.indexOf desc) r.blockSize, 4⟩ =
          .error e from hm] at h₂
        cases (h₂ : Execution (.done (.error e)) es₂ res)
        exact ⟨List.forall_mem_nil _, nofun⟩
    | ok memory =>
        rw [show b.fragment ⟨r.id, blockOffset r.off (r.indexOf desc) r.blockSize, 4⟩ =
          .ok memory from hm] at h₂
        have his := hblock ⟨memory, hm⟩
        obtain ⟨found, es₃, rfl, h₃⟩ := execution_storeBytes_bind
          (g := fun _ => castI16 (r.indexOf desc - 1) >>= fun next => k ⟨front.version + 1, next⟩)
          h₂
        obtain ⟨es₄, rfl, h₄⟩ := castI16_execution h₃
        obtain ⟨hall, hdone⟩ := hk _ his _ _ h₄
        refine ⟨List.forall_mem_cons.mpr ⟨⟨trivial, rfl, ?_, .inr ?_⟩,
          List.forall_mem_cons.mpr ⟨⟨⟨by omega, by omega⟩, trivial⟩, hall⟩⟩, hdone⟩
        · rw [his.id]
          exact bufferFor_of_fragment hm
        · rw [his.offset]
          exact blockOffset_toNat (by omega)

theorem freeLoop_freesBlock {weak : List Bool} {front : BlockHeader} {es : List LinkEvent}
    {res : LinkResult Bool}
    (h : Execution (LinkMemory.freeLoop b r (r.indexOf desc) weak front) es res) :
    FreesBlock b r desc es res := by
  induction weak generalizing front es res with
  | nil =>
      refine freeTurn_freesBlock hfree hlt hreach hblock (fun _ _ es res h => ?_) h
      cases h
      exact ⟨List.forall_mem_nil _, nofun⟩
  | cons spurious weak ih =>
      refine freeTurn_freesBlock hfree hlt hreach hblock (fun desired his es res h => ?_) h
      rcases casFrontHeader_execution h with ⟨e, rfl, rfl⟩ |
        ⟨memory, found, stored, es', hm, rfl, hdone | hagain⟩
      · exact ⟨List.forall_mem_nil _, nofun⟩
      all_goals
        have hwrite : WritesHeader b r desc
            (.write (.front r) memory r.frontDesc.offset.toNat 4 found stored) := by
          refine ⟨rfl, ?_, .inl rfl⟩
          rw [his.id]
          exact bufferFor_of_fragment hm
      · cases hdone.2
        exact ⟨List.forall_mem_cons.mpr ⟨⟨trivial, hwrite⟩, List.forall_mem_nil _⟩, fun _ => his⟩
      · obtain ⟨hall, hend⟩ := ih hagain
        exact ⟨List.forall_mem_cons.mpr ⟨⟨trivial, hwrite⟩, hall⟩, hend⟩

end Safe

/-- A number of blocks that is negative as an `i32` is above no index. -/
theorem freeLoop_refused (hcast : asI32 r.numBlocks ≤ 0) (idx : Nat) (weak : List Bool)
    (front : BlockHeader) : LinkMemory.freeLoop b r idx weak front = pure false := by
  have hturn (k : BlockHeader → LinkProg Bool) :
      LinkMemory.freeTurn b r idx front k = pure false := by
    rw [LinkMemory.freeTurn]
    exact if_pos (by omega)
  cases weak with
  | nil => exact hturn _
  | cons => exact hturn _

theorem freeBlock_safe {weak : List Bool} {es : List LinkEvent} {res : LinkResult Bool}
    (h : Freeable b desc) (hrun : Execution (LinkMemory.freeBlock b desc weak) es res) :
    SafeFree b desc es res := by
  have hrefused : SafeFree b desc [] (some (.ok false)) := ⟨List.forall_mem_nil _, nofun⟩
  cases hfree : LinkMemory.freeRegion b desc with
  | none =>
      rw [LinkMemory.freeBlock, hfree] at hrun
      cases hrun
      exact hrefused
  | some r =>
      by_cases hindex : r.indexOf desc = 0 ∨ r.numBlocks ≤ r.indexOf desc
      · rw [LinkMemory.freeBlock, hfree] at hrun
        change Execution (if r.indexOf desc = 0 ∨ r.numBlocks ≤ r.indexOf desc then _ else _) es res
          at hrun
        rw [if_pos hindex] at hrun
        cases hrun
        exact hrefused
      · rw [not_or, not_le] at hindex
        have hpos := Nat.pos_of_ne_zero hindex.1
        rw [freeBlock_eq hfree hpos hindex.2] at hrun
        rcases readBlockHeader_execution hrun with ⟨e, rfl, rfl⟩ |
          ⟨memory, found, es', hm, rfl, hrest⟩
        · exact ⟨List.forall_mem_nil _, nofun⟩
        by_cases hcast : asI32 r.numBlocks ≤ 0
        · rw [freeLoop_refused hcast] at hrest
          cases hrest
          exact ⟨List.forall_mem_singleton.mpr trivial, nofun⟩
        · obtain ⟨hreach, hblock⟩ := h r hfree hpos hindex.2 (not_le.mp hcast) ⟨memory, hm⟩
          obtain ⟨hall, hdone⟩ := freeLoop_freesBlock hfree hindex.2 hreach hblock hrest
          refine ⟨List.forall_mem_cons.mpr ⟨trivial, fun ev hev => (hall ev hev).1⟩, fun hres => ?_⟩
          refine ⟨r, r.indexOf desc, (freeRegion_spec hfree).1, hdone hres, ?_⟩
          exact List.forall_mem_cons.mpr ⟨trivial, fun ev hev => (hall ev hev).2⟩

/-! A free list that ends at once lets `free_block` go all the way. -/

/-- The bytes of a front header that links to block 0. -/
def emptyFront : List UInt8 := [0, 0, 255, 255]

theorem firstFree_emptyFront : firstFree (.ofBytes emptyFront) = 0 := by decide

theorem castI16_intro {x : Int} {g : Int16 → LinkProg α} {es : List LinkEvent}
    {res : LinkResult α} (h : Execution (g (.ofInt x)) es res) :
    Execution (castI16 x >>= g) (.fits x (-2 ^ 15) (2 ^ 15) :: es) res := .fits h

theorem readBlockHeader_intro {word : LinkWord} {memory : MappedMemory} {found : List UInt8}
    {g : BlockHeader → LinkProg α} {es : List LinkEvent} {res : LinkResult α}
    (hm : b.fragment desc = .ok memory) (hlen : found.length = 4)
    (h : Execution (g (.ofBytes found)) es res) :
    Execution (LinkMemory.readBlockHeader b word desc >>= g)
      (.read word memory desc.offset.toNat 4 found :: es) res := by
  rw [LinkMemory.readBlockHeader, hm]
  exact .load hlen h

theorem writeBlockHeader_intro {word : LinkWord} {memory : MappedMemory} {header : BlockHeader}
    {g : Unit → LinkProg α} {es : List LinkEvent} {res : LinkResult α}
    (hm : b.fragment desc = .ok memory) (h : Execution (g ()) es res) :
    Execution (LinkMemory.writeBlockHeader b word desc header >>= g)
      (.write word memory desc.offset.toNat 4 emptyFront header.bytes :: es) res := by
  rw [LinkMemory.writeBlockHeader, hm]
  exact .update rfl h

/-- The exchange succeeds if the known header is found. -/
theorem casFrontHeader_intro {memory : MappedMemory} {found : List UInt8} {desired : BlockHeader}
    {g : Option BlockHeader → LinkProg α} {es : List LinkEvent} {res : LinkResult α}
    (hm : b.fragment r.frontDesc = .ok memory) (hlen : found.length = 4)
    (h : Execution (g none) es res) :
    Execution (LinkMemory.casFrontHeader b r (.ofBytes found) desired false >>= g)
      (.write (.front r) memory r.frontDesc.offset.toNat 4 found desired.bytes :: es) res := by
  have hupdate : Execution (updateBytes (.front r) memory r.frontDesc.offset.toNat 4
      (fun bytes => if .ofBytes bytes = BlockHeader.ofBytes found ∧ false = false then
        desired.bytes else bytes) >>= fun bytes =>
      Prog.bind (if .ofBytes bytes = BlockHeader.ofBytes found ∧ false = false then pure none
        else pure (some (.ofBytes bytes))) g)
      (.write (.front r) memory r.frontDesc.offset.toNat 4 found
        (if BlockHeader.ofBytes found = .ofBytes found ∧ false = false then desired.bytes
          else found) :: es) res := by
    refine .update hlen ?_
    change Execution (Prog.bind (if BlockHeader.ofBytes found = .ofBytes found ∧ false = false
      then pure none else pure (some (.ofBytes found))) g) es res
    rw [if_pos ⟨rfl, rfl⟩]
    exact h
  rw [if_pos ⟨rfl, rfl⟩] at hupdate
  rw [LinkMemory.casFrontHeader, hm]
  exact hupdate

theorem freeTurn_intro {idx : Nat} {front : BlockHeader} {k : BlockHeader → LinkProg Bool}
    (hfront : firstFree front = 0) (hcast : 0 < asI32 r.numBlocks) :
    LinkMemory.freeTurn b r idx front k = (do
      let rel ← castI16 (0 - idx - 1)
      let offset ← r.offsetOf idx
      LinkMemory.writeBlockHeader b (.header r) ⟨r.id, offset, 4⟩ ⟨0, rel⟩
      let next ← castI16 (idx - 1)
      k ⟨front.version + 1, next⟩) := by
  rw [LinkMemory.freeTurn, hfront]
  exact if_neg (by omega)

theorem freeBlock_reach (hfree : LinkMemory.freeRegion b desc = some r)
    (hpos : 0 < r.indexOf desc) (hlt : r.indexOf desc < r.numBlocks)
    (hcast : 0 < asI32 r.numBlocks) (hfront : Resolves b r.frontDesc)
    (hsafe : ∀ weak es res, Execution (LinkMemory.freeBlock b desc weak) es res →
      SafeFree b desc es res) : r.indexOf desc < 2 ^ 15 := by
  obtain ⟨memory, hm⟩ := hfront
  have hstep : ∃ es res, Execution (LinkMemory.freeBlock b desc [])
      (.read (.front r) memory r.frontDesc.offset.toNat 4 emptyFront ::
        .fits (0 - r.indexOf desc - 1) (-2 ^ 15) (2 ^ 15) :: es) res := by
    rw [freeBlock_eq hfree hpos hlt]
    obtain ⟨es, res, hrest⟩ := exists_execution (do
      let offset ← r.offsetOf (r.indexOf desc)
      LinkMemory.writeBlockHeader b (.header r) ⟨r.id, offset, 4⟩
        ⟨0, .ofInt (0 - r.indexOf desc - 1)⟩
      let _ ← castI16 (r.indexOf desc - 1)
      (.stuck : LinkProg Bool))
    refine ⟨es, res, readBlockHeader_intro hm rfl ?_⟩
    rw [LinkMemory.freeLoop, freeTurn_intro firstFree_emptyFront hcast]
    exact castI16_intro hrest
  obtain ⟨es, res, hrun⟩ := hstep
  have hrange : InRange (.fits (0 - r.indexOf desc - 1) (-2 ^ 15) (2 ^ 15)) :=
    (hsafe _ _ _ hrun).1 _ (List.mem_cons_of_mem _ List.mem_cons_self)
  have hlow := hrange.1
  omega

/-- A descriptor of a block tells its index. -/
theorem BlockRegion.IsBlock.indexOf_eq {k : Nat} (h : r.IsBlock k desc)
    (hpos : 0 < r.indexOf desc) : k = r.indexOf desc := by
  have hsize : 0 < r.blockSize.toNat := by
    by_contra hzero
    rw [BlockRegion.indexOf, Nat.eq_zero_of_not_pos hzero, Nat.div_zero] at hpos
    exact absurd hpos (lt_irrefl 0)
  rw [BlockRegion.indexOf, h.offset, Nat.add_sub_cancel_left, Nat.mul_div_cancel _ hsize]

theorem freeBlock_isBlock (hfree : LinkMemory.freeRegion b desc = some r)
    (hpos : 0 < r.indexOf desc) (hlt : r.indexOf desc < r.numBlocks)
    (hcast : 0 < asI32 r.numBlocks) (hfront : Resolves b r.frontDesc)
    (hheader : Resolves b (r.headerDesc (r.indexOf desc)))
    (hsafe : ∀ weak es res, Execution (LinkMemory.freeBlock b desc weak) es res →
      SafeFree b desc es res) : r.IsBlock (r.indexOf desc) desc := by
  obtain ⟨memory, hm⟩ := hfront
  obtain ⟨memory', hm'⟩ := hheader
  have hloop : ∃ es, Execution
      (LinkMemory.freeLoop b r (r.indexOf desc) [false] (.ofBytes emptyFront)) es
      (some (.ok true)) := by
    rw [LinkMemory.freeLoop, freeTurn_intro firstFree_emptyFront hcast]
    refine ⟨_, castI16_intro (.fits (.fits (writeBlockHeader_intro hm' (castI16_intro
      (casFrontHeader_intro hm rfl (.done _))))))⟩
  obtain ⟨es, hrun⟩ : ∃ es, Execution (LinkMemory.freeBlock b desc [false]) es
      (some (.ok true)) := by
    obtain ⟨es, hloop⟩ := hloop
    rw [freeBlock_eq hfree hpos hlt]
    exact ⟨_, readBlockHeader_intro hm rfl hloop⟩
  obtain ⟨r', k, hr', hblock, -⟩ := (hsafe _ _ _ hrun).2 rfl
  obtain ⟨hr, hid, hsize, -⟩ := freeRegion_spec hfree
  obtain rfl := region_unique hr hr' (hid.symm.trans hblock.id) (hsize.symm.trans hblock.size)
  rwa [hblock.indexOf_eq hpos] at hblock

/-- `free_block` is safe, whatever it finds, exactly with descriptors that can be freed. -/
theorem freeBlock_safe_iff : (∀ weak es res, Execution (LinkMemory.freeBlock b desc weak) es res →
    SafeFree b desc es res) ↔ Freeable b desc := by
  constructor
  · intro hsafe r hfree hpos hlt hcast hfront
    refine ⟨freeBlock_reach hfree hpos hlt hcast hfront hsafe, fun hheader => ?_⟩
    exact freeBlock_isBlock hfree hpos hlt hcast hfront hheader hsafe
  · intro h weak es res hrun
    exact freeBlock_safe h hrun

end Freeing

/-- Allocations are safe exactly with front headers that link, and `free_block`
exactly with descriptors that can be freed. -/
theorem allocator_resists_iff (b : LinkBuffers) :
    (∀ weak size es res, Execution (LinkMemory.tryAllocateFragment b weak size) es res →
      (SafePop (Chosen b size) es res ↔ FrontsLink es)) ∧
    ∀ desc, (∀ weak es res, Execution (LinkMemory.freeBlock b desc weak) es res →
      SafeFree b desc es res) ↔ Freeable b desc :=
  ⟨fun _ _ _ _ h => tryAllocateFragment_safe_iff h, fun _ => freeBlock_safe_iff⟩

theorem poolFor_adopted : LinkBuffers.adopted.poolFor routerLinkStateSize = some 64 := by
  have hsizes : LinkBuffers.adopted.registry.poolSizes = [64, 256, 512, 1024, 2048, 4096] := by
    show (primaryBlockRegions.map Prod.fst).dedup.mergeSort (· ≤ ·) = _
    rw [show (primaryBlockRegions.map Prod.fst).dedup = [64, 256, 512, 1024, 2048, 4096] by decide]
    simp [List.mergeSort, List.MergeSort.Internal.splitInTwo]
  rw [LinkBuffers.poolFor, hsizes]
  decide

/-- The region of the primary buffer with blocks of 64 bytes. -/
def smallRegion : BlockRegion := ⟨primaryBufferId, 1024, 64, 1484⟩

/-- With a front header that links to block -1, an allocation comes to the last
of the initial link states, which lies before the region. -/
theorem block_below_region : ∃ weak es, Execution
      (LinkMemory.tryAllocateFragment .adopted weak routerLinkStateSize) es
      (some (.ok (some ⟨primaryBufferId, 960, 64⟩))) ∧
    ¬SafePop (Chosen .adopted routerLinkStateSize) es
      (some (.ok (some ⟨primaryBufferId, 960, 64⟩))) := by
  have hfront : ([0, 0, 254, 255] : List UInt8).length = 4 := rfl
  have hheader : ([0, 0, 0, 0] : List UInt8).length = 4 := rfl
  obtain ⟨es, hpop⟩ : ∃ es, Execution (LinkMemory.popBlock .adopted smallRegion [false]) es
      (some (.ok (some ⟨primaryBufferId, 960, 64⟩))) :=
    ⟨_, .load hfront (.fits (.fits (.load hheader (.fits (.update hfront (.done _))))))⟩
  refine ⟨fun _ => [false], es, ?_, ?_⟩
  · rw [LinkMemory.tryAllocateFragment, poolFor_adopted]
    exact hpop
  · rintro ⟨-, hblock⟩
    obtain ⟨r, k, ⟨poolSize, hpool, hr⟩, his⟩ := hblock _ rfl
    obtain rfl := Option.some.inj (poolFor_adopted.symm.trans hpool)
    have hsmall : r = smallRegion := by
      rcases hr with ⟨id, hid, -⟩ | hr
      · cases hid
      · exact (Option.some.inj hr).symm
    have hoffset : 960 = smallRegion.off + k * smallRegion.blockSize.toNat := hsmall ▸ his.offset
    have hbelow : smallRegion.off ≤ 960 := by
      rw [hoffset]
      exact Nat.le_add_right _ _
    exact absurd hbelow (by decide)

end MojoRs.Ipcz
