/-
MojoRs/Core/BufferContents.lean

What a process reads from and writes to its shared buffers.  A buffer stands for
a region by its descriptor, and a mapping shows a part of one by the pages of the
address space; both are numbers that the kernel gives out again once they are
free.  `Related` says that all of them stand for the regions and views of
`SharedRegions`, and that each open descriptor and each mapped page has exactly
one owner.

Main results:
* `buffers_shared` — the answers of every run are those of shared regions;
* `resources_owned` — every descriptor and every page in use is that of exactly
  one buffer or mapping, in every state of a run.
-/
import MojoRs.Core.BufferMapping
import MojoRs.Lib.Ownership

namespace MojoRs.Core

open Lib SharedMemory

theorem pageSize_pos : 0 < pageSize := by decide

/-! ### System calls -/

namespace Kernel

variable {k : Kernel}

/-- Nothing has happened but that objects were made and lost. -/
structure Alike (k k' : Kernel) : Prop where
  memory : k'.memory = k.memory
  files : k'.files = k.files
  made : k.made ≤ k'.made

/-- The descriptor stands for the object. -/
def opened (k : Kernel) (fd object : Nat) : Kernel :=
  { k with files := Function.update k.files fd (some object) }

theorem install_cases (k : Kernel) (object : Nat) (fd : Option Nat) :
    k.install object fd = (none, k) ∨
      ∃ n, k.files n = none ∧ k.install object fd = (some n, k.opened n object) := by
  cases fd with
  | none => exact .inl rfl
  | some n =>
      cases hfile : k.files n with
      | none =>
          right
          refine ⟨n, hfile, ?_⟩
          rw [install, hfile]
          rfl
      | some o =>
          left
          rw [install, hfile]
          rfl

theorem le_pagesOf (len : Nat) : len ≤ pageSize * pagesOf len := by
  show len ≤ 4096 * ((len + 4095) / 4096)
  omega

theorem pagesOf_pos {len : Nat} (h : 0 < len) : 0 < pagesOf len := by
  show 0 < (len + 4095) / 4096
  omega

end Kernel

namespace SharedBuffer

variable {k : Kernel}

/-- The kernel once an object of this size has been made. -/
def madeObject (k : Kernel) (fd size : Nat) : Kernel :=
  { k with
    memory := ⟨k.memory.objects, Function.update k.memory.size k.made size, k.memory.pages⟩
    made := k.made + 1
    files := Function.update k.files fd (some k.made) }

/-- A buffer is made, or nothing has happened. -/
theorem createIn_cases (k : Kernel) (numBytes : Nat) (memfd : Option Nat) (truncated : Bool) :
    (∃ k', createIn k numBytes memfd truncated = (.error .resourceExhausted, k') ∧ k.Alike k') ∨
      ∃ fd, ¬(numBytes = 0 ∨ numBytes > 2 ^ 31 - 1) ∧ k.files fd = none ∧
        createIn k numBytes memfd truncated =
          (.ok ⟨⟨fd, numBytes⟩, numBytes, .writable⟩, madeObject k fd numBytes) := by
  unfold createIn
  by_cases hsize : numBytes = 0 ∨ numBytes > 2 ^ 31 - 1
  · rw [if_pos hsize]
    exact .inl ⟨k, rfl, rfl, rfl, Nat.le_refl _⟩
  rw [if_neg hsize]
  rcases k.install_cases k.made memfd with hfail | ⟨fd, hfree, hopen⟩
  · left
    refine ⟨k, ?_, rfl, rfl, Nat.le_refl _⟩
    simp only [Kernel.memfdCreate, hfail, create, if_neg hsize]
  · have hfile : (k.opened fd k.made).files fd = some k.made := Function.update_self ..
    cases truncated with
    | true =>
        right
        refine ⟨fd, hsize, hfree, ?_⟩
        simp only [Kernel.memfdCreate, hopen, Kernel.ftruncate, hfile, if_true, create,
          if_neg hsize]
        rfl
    | false =>
        left
        simp only [Kernel.memfdCreate, hopen, Kernel.ftruncate, hfile, create, if_neg hsize]
        refine ⟨_, rfl, rfl, ?_, Nat.le_succ _⟩
        -- the descriptor is closed again
        show Function.update (Function.update k.files fd _) fd none = k.files
        rw [Function.update_idem, ← hfree, Function.update_eq_self]

/-- A buffer is duplicated, or its mode forbids it, or the kernel does. -/
theorem duplicateIn_cases (readOnly : Bool) (dup : Option Nat) {inner : BufferInner}
    {object : Nat} (hfile : k.files inner.shm.fd = some object) :
    (duplicateIn k readOnly dup inner =
        ((.error .failedPrecondition, convert readOnly inner), k) ∧
      modeAfter readOnly inner.mode ≠ requiredMode readOnly) ∨
    (duplicateIn k readOnly dup inner =
        ((.error .resourceExhausted, convert readOnly inner), k) ∧
      modeAfter readOnly inner.mode = requiredMode readOnly) ∨
    ∃ fd, duplicateIn k readOnly dup inner =
        ((.ok ⟨⟨fd, inner.shm.size⟩, inner.size, modeAfter readOnly inner.mode⟩,
          convert readOnly inner), k.opened fd object) ∧
      modeAfter readOnly inner.mode = requiredMode readOnly ∧ k.files fd = none := by
  have hshm : (convert readOnly inner).shm = inner.shm := by
    unfold convert
    split <;> rfl
  have hsize : (convert readOnly inner).size = inner.size := by
    unfold convert
    split <;> rfl
  unfold duplicateIn
  rw [convert_mode]
  by_cases hmode : modeAfter readOnly inner.mode = requiredMode readOnly
  · right
    rw [if_neg (not_not_intro hmode), Kernel.dup, hfile]
    rcases k.install_cases object dup with hfail | ⟨fd, hfree, hopen⟩
    · left
      refine ⟨?_, hmode⟩
      dsimp only
      rw [hfail]
      simp only [duplicate, convert_mode, hmode, ne_eq, not_true_eq_false, if_false]
      rfl
    · right
      refine ⟨fd, ?_, hmode, hfree⟩
      dsimp only
      rw [hopen]
      simp only [duplicate, convert_mode, hmode, ne_eq, not_true_eq_false, if_false,
        SharedMemory.duplicate, hshm, hsize, Option.map_some]
  · left
    refine ⟨?_, hmode⟩
    rw [if_pos hmode]
    simp only [duplicate, convert_mode, ne_eq, hmode, not_false_eq_true, if_true]

/-- The mapping of a part of a buffer, from the page `first` on. -/
def mappingAt (first offset numBytes : Nat) (mode : BufferMode) : BufferMapping :=
  ⟨⟨pageSize * first + offset % pageSize, numBytes,
    match mode with
    | .readOnly => Access.readOnly
    | .writable | .unsafeMode => Access.readWrite⟩,
    pageSize * first, numBytes + offset % pageSize⟩

/-- A part of a buffer is mapped where nothing was, or nothing has happened. -/
theorem mapIn_cases (offset numBytes : Nat) (first : Option Nat) {inner : BufferInner}
    {object : Nat} (hfile : k.files inner.shm.fd = some object) :
    mapIn k offset numBytes first inner = (.error .resourceExhausted, k) ∨
      ∃ p, numBytes ≠ 0 ∧ offset + numBytes ≤ inner.shm.size ∧
        k.memory.pages.Free p (Kernel.pagesOf (numBytes + offset % pageSize)) ∧
        mapIn k offset numBytes first inner =
          (.ok (mappingAt p offset numBytes inner.mode), { k with
            memory := ⟨k.memory.objects, k.memory.size,
              k.memory.pages.map p (Kernel.pagesOf (numBytes + offset % pageSize))
                ⟨object, offset / pageSize, inner.mode ≠ .readOnly⟩⟩ }) := by
  have haligned : (offset - offset % pageSize) / pageSize = offset / pageSize := by
    show (offset - offset % 4096) / 4096 = offset / 4096
    omega
  unfold mapIn
  cases first with
  | none =>
      left
      simp only [Kernel.mmap, map, SharedMemory.map, Option.map_none]
      split_ifs <;> rfl
  | some p =>
      simp only [Kernel.mmap, hfile]
      by_cases hfree : k.memory.pages.Free p (Kernel.pagesOf (numBytes + offset % pageSize))
      · rw [if_pos hfree]
        simp only [map, SharedMemory.map, Option.map_some]
        split_ifs with hzero hover hbeyond
        · exact .inl rfl
        · exact .inl rfl
        · exact .inl rfl
        · right
          refine ⟨p, hzero, Nat.le_of_not_gt hbeyond, hfree, ?_⟩
          rw [haligned]
          cases inner.mode <;> simp only [Nat.add_sub_cancel_right, mappingAt]
      · left
        rw [if_neg hfree]
        simp only [map, SharedMemory.map, Option.map_none]
        split_ifs <;> rfl

end SharedBuffer

/-! ### Regions and views -/

/-- The pages of a mapping. -/
def HeldMapping.pages (h : HeldMapping) : Set Nat :=
  pageRun (h.owned.mapBase / pageSize) (Kernel.pagesOf h.owned.mapLen)

/-- A buffer stands for a region, by its descriptor. -/
structure StandsFor (files : Nat → Option Nat) (size : Nat → Nat) (inner : BufferInner)
    (b : Nat × BufferMode) : Prop where
  file : files inner.shm.fd = some b.1
  size : inner.shm.size = size b.1
  mode : inner.mode = b.2

/-- A mapping shows a view, by its pages. -/
structure ShowsView (pages : PageTable Nat) (size : Nat → Nat) (h : HeldMapping) (v : View) :
    Prop where
  address : h.owned.mapping.address = v.address
  len : h.owned.mapping.len = v.len
  access : h.owned.mapping.access = if v.writable then .readWrite else .readOnly
  refs : h.refs = v.refs
  base : h.owned.mapBase = pageSize * (v.address / pageSize)
  skip : v.address % pageSize = v.offset % pageSize
  mapLen : h.owned.mapLen = v.len + v.offset % pageSize
  shows : pages.Shows (v.address / pageSize) (Kernel.pagesOf h.owned.mapLen)
    ⟨v.region, v.offset / pageSize, v.writable⟩
  fits : v.offset + v.len ≤ size v.region
  pos : 0 < v.len

namespace ShowsView

variable {pages pages' : PageTable Nat} {size size' : Nat → Nat} {h : HeldMapping} {v : View}

theorem first (hv : ShowsView pages size h v) :
    h.owned.mapBase / pageSize = v.address / pageSize := by
  rw [hv.base, Nat.mul_div_cancel_left _ pageSize_pos]

/-- The page of the address is one of the mapping. -/
theorem home (hv : ShowsView pages size h v) : v.address / pageSize ∈ h.pages := by
  have hpos := hv.pos
  have hpages : 0 < Kernel.pagesOf h.owned.mapLen := Kernel.pagesOf_pos (by rw [hv.mapLen]; omega)
  rw [HeldMapping.pages, hv.first]
  exact ⟨Nat.le_refl _, Nat.lt_add_of_pos_right hpages⟩

/-- The addresses of a view show the part of the region. -/
theorem views (hv : ShowsView pages size h v) :
    pages.Views pageSize v.address v.len ⟨v.region, v.offset, v.writable⟩ := by
  have hfits : v.address % pageSize + v.len ≤ pageSize * Kernel.pagesOf h.owned.mapLen := by
    refine Nat.le_trans (Nat.le_of_eq ?_) (Kernel.le_pagesOf h.owned.mapLen)
    rw [hv.skip, hv.mapLen, Nat.add_comm]
  have hviews := hv.shows.views pageSize_pos hfits
  rwa [Nat.div_add_mod, hv.skip, Nat.div_add_mod] at hviews

/-- A view stays where its pages and its region do. -/
theorem keep (hv : ShowsView pages size h v)
    (hpages : ∀ page, pages.Shows (h.owned.mapBase / pageSize) (Kernel.pagesOf h.owned.mapLen) page →
      pages'.Shows (h.owned.mapBase / pageSize) (Kernel.pagesOf h.owned.mapLen) page)
    (hsize : size' v.region = size v.region) : ShowsView pages' size' h v := by
  refine { hv with shows := ?_, fits := ?_ }
  · have hshows := hv.shows
    rw [← hv.first] at hshows ⊢
    exact hpages _ hshows
  · rw [hsize]
    exact hv.fits

theorem setRefs (hv : ShowsView pages size h v) (refs : Nat) :
    ShowsView pages size { h with refs } { v with refs } :=
  { hv with refs := rfl }

variable {memory : VirtualMemory Nat}

/-- What is read is what the region has there. -/
theorem readAt (hv : ShowsView memory.pages memory.size h v)
    (hsmall : memory.size v.region ≤ 2 ^ 31 - 1) (offset len : Nat) :
    h.owned.readAt memory offset len = some (if offset + len > v.len then none
      else some (memory.objects.bytesAt v.region (v.offset + offset) len)) := by
  have hfits := hv.fits
  rw [BufferMapping.readAt, hv.len, hv.address]
  by_cases hlen : offset + len > v.len
  · rw [if_pos (.inr hlen), if_pos hlen]
  · have hpart := hv.views.part (Nat.le_of_not_gt hlen)
    have hload : memory.loadBytes pageSize (v.address + offset) len =
        some (memory.objects.bytesAt v.region (v.offset + offset) len) := by
      apply hpart.loadBytes
      show v.offset + offset + len ≤ memory.size v.region
      omega
    rw [if_neg (by omega), if_neg hlen, hload, Option.map_some]

/-- What is written is written to the region. -/
theorem writeAt (hv : ShowsView memory.pages memory.size h v)
    (hsmall : memory.size v.region ≤ 2 ^ 31 - 1) (offset : Nat) (content : List UInt8) :
    h.owned.writeAt memory offset content = some
      (if v.writable = false ∨ offset + content.length > v.len then (false, memory)
      else (true, { memory with
        objects := memory.objects.putBytes v.region (v.offset + offset) content })) := by
  have hfits := hv.fits
  rw [BufferMapping.writeAt, hv.access, hv.len, hv.address]
  cases hwritable : v.writable with
  | false => rfl
  | true =>
      rw [if_pos rfl, if_neg (not_not_intro rfl)]
      by_cases hlen : offset + content.length > v.len
      · rw [if_pos hlen, ite_self, if_pos (Or.inr hlen)]
      · have hpart := hv.views.part (Nat.le_of_not_gt hlen)
        have hstore := hpart.storeBytes hwritable (by
          show v.offset + offset + content.length ≤ memory.size v.region
          omega)
        rw [if_neg (by omega), if_neg hlen, hstore, if_neg (by simp; omega)]
        rfl

end ShowsView

/-! ### The invariant -/

namespace BufferProcess

/-- Every descriptor and every page in use has one owner, and the table lists
mappings under their addresses. -/
structure Sound (s : BufferProcess) : Prop where
  fresh : ∀ o, s.kernel.made ≤ o →
    (s.kernel.memory.objects o = fun _ => 0) ∧ s.kernel.memory.size o = 0
  opened : ∀ fd o, s.kernel.files fd = some o → o < s.kernel.made
  descriptors : Owned s.buffers (fun inner => {inner.shm.fd}) (filled s.kernel.files)
  pages : Owned s.mappings HeldMapping.pages (filled s.kernel.memory.pages)
  newBuffer : ∀ b, s.nextBuffer ≤ b → s.buffers b = none
  newMapping : ∀ m, s.nextMapping ≤ m → s.mappings m = none
  listed : ∀ address m, s.table address = some m →
    ∃ h, s.mappings m = some h ∧ h.owned.mapping.address = address

/-- The buffers stand for the regions, and the mappings show the views. -/
structure Related (s : BufferProcess) (t : SharedRegions) : Prop where
  sound : s.Sound
  contents : s.kernel.memory.objects = t.contents
  size : s.kernel.memory.size = t.size
  small : ∀ r, t.size r ≤ 2 ^ 31 - 1
  nextBuffer : s.nextBuffer = t.nextBuffer
  nextView : s.nextMapping = t.nextView
  table : s.table = t.table
  buffers : Matches (StandsFor s.kernel.files t.size) s.buffers t.buffers
  views : Matches (ShowsView s.kernel.memory.pages t.size) s.mappings t.views

variable {s : BufferProcess} {t : SharedRegions}

theorem related_init : Related .init .init where
  sound := {
    fresh := fun _ _ => ⟨rfl, rfl⟩
    opened := fun _ _ hfile => by cases hfile
    descriptors := by
      show Owned _ _ (filled fun _ => none)
      rw [filled_none]
      exact .empty _
    pages := by
      show Owned _ _ (filled fun _ => none)
      rw [filled_none]
      exact .empty _
    newBuffer := fun _ _ => rfl
    newMapping := fun _ _ => rfl
    listed := fun _ _ hm => by cases hm }
  contents := rfl
  size := rfl
  small _ := Nat.zero_le _
  nextBuffer := rfl
  nextView := rfl
  table := rfl
  buffers _ := .none
  views _ := .none

namespace Related

/-- The region of a buffer has been made. -/
theorem region_lt (h : s.Related t) {inner : BufferInner} {r : Nat × BufferMode}
    (hstands : StandsFor s.kernel.files t.size inner r) : r.1 < s.kernel.made :=
  h.sound.opened _ _ hstands.file

/-- So has that of a view. -/
theorem view_region_lt (h : s.Related t) {held : HeldMapping} {v : View}
    (hv : ShowsView s.kernel.memory.pages t.size held v) : v.region < s.kernel.made := by
  by_contra hge
  have hsize := (h.sound.fresh v.region (Nat.le_of_not_lt hge)).2
  have hfits := hv.fits
  have hpos := hv.pos
  rw [h.size] at hsize
  omega

theorem alike (h : s.Related t) {k : Kernel} (hk : s.kernel.Alike k) :
    Related { s with kernel := k } t where
  sound := {
    fresh := fun o ho => by
      show (k.memory.objects o = _) ∧ k.memory.size o = 0
      rw [hk.memory]
      exact h.sound.fresh o (Nat.le_trans hk.made ho)
    opened := fun fd o hfile => by
      have hfile' : k.files fd = some o := hfile
      rw [hk.files] at hfile'
      exact Nat.lt_of_lt_of_le (h.sound.opened fd o hfile') hk.made
    descriptors := by
      show Owned _ _ (filled k.files)
      rw [hk.files]
      exact h.sound.descriptors
    pages := by
      show Owned _ _ (filled k.memory.pages)
      rw [hk.memory]
      exact h.sound.pages
    newBuffer := h.sound.newBuffer
    newMapping := h.sound.newMapping
    listed := h.sound.listed }
  contents := (congrArg VirtualMemory.objects hk.memory).trans h.contents
  size := (congrArg VirtualMemory.size hk.memory).trans h.size
  small := h.small
  nextBuffer := h.nextBuffer
  nextView := h.nextView
  table := h.table
  buffers := by
    show Matches (StandsFor k.files t.size) _ _
    rw [hk.files]
    exact h.buffers
  views := by
    show Matches (ShowsView k.memory.pages t.size) _ _
    rw [hk.memory]
    exact h.views

/-! ### Buffers -/

/-- A buffer of a region comes with a new descriptor. -/
theorem addBuffer (h : s.Related t) {fd region size : Nat} {mode : BufferMode}
    (hfree : s.kernel.files fd = none) (hregion : region < s.kernel.made) {total : Nat}
    (hsize : size = t.size region) :
    Related ({ s with kernel := s.kernel.opened fd region }.addBuffer ⟨⟨fd, size⟩, total, mode⟩)
      (t.addBuffer region mode) where
  sound := {
    fresh := h.sound.fresh
    opened := fun fd' o hfile => by
      have hfile' : Function.update s.kernel.files fd (some region) fd' = some o := hfile
      rw [Function.update_apply] at hfile'
      split_ifs at hfile'
      · obtain rfl := Option.some.inj hfile'
        exact hregion
      · exact h.sound.opened fd' o hfile'
    -- the descriptor was free, so no other buffer owns it
    descriptors := by
      show Owned _ _ (filled (Function.update s.kernel.files fd (some region)))
      rw [filled_set]
      apply h.sound.descriptors.add (h.sound.newBuffer _ (Nat.le_refl _))
      rw [Set.disjoint_singleton_right]
      intro hmem
      have hsome : (s.kernel.files fd).isSome := hmem
      rw [hfree] at hsome
      cases hsome
    pages := h.sound.pages
    newBuffer := fun b hb => by
      have hb' : s.nextBuffer + 1 ≤ b := hb
      show Function.update s.buffers s.nextBuffer _ b = none
      rw [Function.update_of_ne (by omega)]
      exact h.sound.newBuffer b (by omega)
    newMapping := h.sound.newMapping
    listed := h.sound.listed }
  contents := h.contents
  size := h.size
  small := h.small
  nextBuffer := congrArg (· + 1) h.nextBuffer
  nextView := h.nextView
  table := h.table
  -- the other buffers keep theirs, for the new one is not among them
  buffers := by
    have hkept : Matches (StandsFor (Function.update s.kernel.files fd (some region)) t.size)
        s.buffers t.buffers := by
      apply h.buffers.mono
      intro b inner r _ hstands
      refine { hstands with file := ?_ }
      rw [Function.update_of_ne _ _ _]
      · exact hstands.file
      · rintro hfd
        rw [← hfd, hstands.file] at hfree
        cases hfree
    show Matches _ (Function.update s.buffers s.nextBuffer _)
      (Function.update t.buffers t.nextBuffer _)
    rw [h.nextBuffer]
    exact hkept.set ⟨Function.update_self .., hsize, rfl⟩
  views := h.views

/-- A new region is all zeros. -/
theorem addRegion (h : s.Related t) {size : Nat} (hsize : size ≤ 2 ^ 31 - 1) :
    Related { s with kernel := { s.kernel with
        memory := ⟨s.kernel.memory.objects,
          Function.update s.kernel.memory.size s.kernel.made size, s.kernel.memory.pages⟩
        made := s.kernel.made + 1 } }
      { t with
        contents := Function.update t.contents s.kernel.made fun _ => 0
        size := Function.update t.size s.kernel.made size } where
  sound := {
    -- the object that was fresh is taken, those above it still are
    fresh := fun o ho => by
      have ho' : s.kernel.made + 1 ≤ o := ho
      have hfresh := h.sound.fresh o (Nat.le_of_succ_le ho')
      refine ⟨hfresh.1, ?_⟩
      show Function.update s.kernel.memory.size s.kernel.made size o = 0
      rw [Function.update_of_ne (by omega)]
      exact hfresh.2
    opened := fun fd o hfile => Nat.lt_succ_of_lt (h.sound.opened fd o hfile)
    descriptors := h.sound.descriptors
    pages := h.sound.pages
    newBuffer := h.sound.newBuffer
    newMapping := h.sound.newMapping
    listed := h.sound.listed }
  -- a fresh object is all zeros already, only its size is set
  contents := by
    show s.kernel.memory.objects = _
    rw [← (h.sound.fresh _ (Nat.le_refl _)).1, h.contents, Function.update_eq_self]
  size := by
    show Function.update s.kernel.memory.size _ _ = _
    rw [h.size]
  small r := by
    show Function.update t.size s.kernel.made size r ≤ _
    rw [Function.update_apply]
    split_ifs
    · exact hsize
    · exact h.small r
  nextBuffer := h.nextBuffer
  nextView := h.nextView
  table := h.table
  -- nobody has the new region, so what buffers and views show stays
  buffers := by
    apply h.buffers.mono
    intro b inner r _ hstands
    refine { hstands with size := ?_ }
    show inner.shm.size = Function.update t.size s.kernel.made size r.1
    rw [Function.update_of_ne (Nat.ne_of_lt (h.region_lt hstands))]
    exact hstands.size
  views := by
    apply h.views.mono
    intro m held v _ hv
    apply hv.keep fun _ hshows => hshows
    exact Function.update_of_ne (Nat.ne_of_lt (h.view_region_lt hv)) ..

/-- The mode of a buffer changes. -/
theorem setMode (h : s.Related t) {b : Nat} {inner : BufferInner} {r : Nat × BufferMode}
    (hb : s.buffers b = some inner) (hstands : StandsFor s.kernel.files t.size inner r)
    (readOnly : Bool) :
    Related
      { s with buffers := Function.update s.buffers b (some (SharedBuffer.convert readOnly inner)) }
      { t with
        buffers := Function.update t.buffers b
          (some (r.1, SharedBuffer.modeAfter readOnly r.2)) } := by
  have hshm : (SharedBuffer.convert readOnly inner).shm = inner.shm := by
    unfold SharedBuffer.convert
    split <;> rfl
  have hnew : StandsFor s.kernel.files t.size (SharedBuffer.convert readOnly inner)
      (r.1, SharedBuffer.modeAfter readOnly r.2) := by
    refine ⟨?_, ?_, ?_⟩
    · rw [hshm]
      exact hstands.file
    · rw [hshm]
      exact hstands.size
    · rw [SharedBuffer.convert_mode, hstands.mode]
  exact { h with
    sound := { h.sound with
      descriptors := h.sound.descriptors.replace hb (by rw [hshm])
      newBuffer := fun b' hb' => by
        show Function.update s.buffers b _ b' = none
        rw [Function.update_of_ne _ _ _]
        · exact h.sound.newBuffer b' hb'
        · rintro rfl
          rw [h.sound.newBuffer b' hb'] at hb
          cases hb }
    buffers := h.buffers.set hnew }

/-- A buffer that is closed closes its descriptor, and no other one. -/
theorem close (h : s.Related t) {b : Nat} {inner : BufferInner} (hb : s.buffers b = some inner) :
    Related
      { s with
        kernel := s.kernel.close inner.shm.fd
        buffers := Function.update s.buffers b none }
      { t with buffers := Function.update t.buffers b none } := by
  have hcloses : filled (Function.update s.kernel.files inner.shm.fd none) =
      filled s.kernel.files \ {inner.shm.fd} := filled_clear ..
  refine { h with
    sound := { h.sound with opened := ?_, descriptors := ?_, newBuffer := ?_ }
    buffers := ?_ }
  · intro fd o hfile
    have hfile' : Function.update s.kernel.files inner.shm.fd none fd = some o := hfile
    rw [Function.update_apply] at hfile'
    split_ifs at hfile'
    exact h.sound.opened fd o hfile'
  · show Owned _ _ (filled (Function.update s.kernel.files inner.shm.fd none))
    rw [hcloses]
    exact h.sound.descriptors.remove hb
  · intro b' hb'
    show Function.update s.buffers b none b' = none
    rw [Function.update_apply]
    split_ifs
    · rfl
    · exact h.sound.newBuffer b' hb'
  · have hcleared := h.buffers.clear b
    apply hcleared.mono
    intro b' inner' r hinner' hstands
    refine { hstands with file := ?_ }
    show Function.update s.kernel.files inner.shm.fd none inner'.shm.fd = _
    rw [Function.update_apply] at hinner'
    split_ifs at hinner' with hne
    rw [Function.update_of_ne _ _ _]
    · exact hstands.file
    · intro hfd
      exact hne (h.sound.descriptors.unique hinner' hb hfd.symm rfl)

/-! ### Mappings -/

/-- A part of a buffer is mapped where nothing was. -/
theorem map (h : s.Related t) {inner : BufferInner} {r : Nat × BufferMode}
    (hstands : StandsFor s.kernel.files t.size inner r) {offset numBytes p : Nat}
    (hpos : numBytes ≠ 0) (hfits : offset + numBytes ≤ inner.shm.size)
    (hfree : s.kernel.memory.pages.Free p (Kernel.pagesOf (numBytes + offset % pageSize))) :
    Related
      { s with
        kernel := { s.kernel with
          memory := ⟨s.kernel.memory.objects, s.kernel.memory.size,
            s.kernel.memory.pages.map p (Kernel.pagesOf (numBytes + offset % pageSize))
              ⟨r.1, offset / pageSize, inner.mode ≠ .readOnly⟩⟩ }
        mappings := Function.update s.mappings s.nextMapping
          (some ⟨SharedBuffer.mappingAt p offset numBytes inner.mode, 1⟩)
        nextMapping := s.nextMapping + 1 }
      { t with
        views := Function.update t.views t.nextView
          (some ⟨r.1, offset, numBytes, r.2 ≠ .readOnly, pageSize * p + offset % pageSize, 1⟩)
        nextView := t.nextView + 1 } := by
  -- the mapping begins at the page of the offset, the view behind its start
  have hskip : offset % pageSize < pageSize := Nat.mod_lt _ pageSize_pos
  have hpage : (pageSize * p + offset % pageSize) / pageSize = p := by
    rw [Nat.mul_add_div pageSize_pos, Nat.div_eq_of_lt hskip, Nat.add_zero]
  have hrun : HeldMapping.pages ⟨SharedBuffer.mappingAt p offset numBytes inner.mode, 1⟩ =
      pageRun p (Kernel.pagesOf (numBytes + offset % pageSize)) := by
    show pageRun (pageSize * p / pageSize) _ = _
    rw [Nat.mul_div_cancel_left _ pageSize_pos]
    rfl
  refine { h with
    sound := { h.sound with pages := ?_, newMapping := ?_, listed := ?_ }
    nextView := congrArg (· + 1) h.nextView
    views := ?_ }
  -- the kernel chose free pages, so no other mapping has them
  · show Owned _ _ (filled (s.kernel.memory.pages.map p _ _))
    rw [PageTable.filled_map, ← hrun]
    apply h.sound.pages.add (h.sound.newMapping _ (Nat.le_refl _))
    rw [hrun]
    exact hfree.disjoint
  · intro m hm
    have hm' : s.nextMapping + 1 ≤ m := hm
    show Function.update s.mappings s.nextMapping _ m = none
    rw [Function.update_of_ne (by omega)]
    exact h.sound.newMapping m (by omega)
  -- the table of addresses does not know the new mapping yet
  · intro address m hm
    obtain ⟨held, hheld, haddress⟩ := h.sound.listed address m hm
    refine ⟨held, ?_, haddress⟩
    show Function.update s.mappings s.nextMapping _ m = _
    rw [Function.update_of_ne _ _ _]
    · exact hheld
    · rintro rfl
      rw [h.sound.newMapping _ (Nat.le_refl _)] at hheld
      cases hheld
  -- the other views show their own pages as before
  · have hkept : Matches (ShowsView (s.kernel.memory.pages.map p
        (Kernel.pagesOf (numBytes + offset % pageSize))
        ⟨r.1, offset / pageSize, inner.mode ≠ .readOnly⟩) t.size) s.mappings t.views := by
      apply h.views.mono
      intro m held v hheld hv
      apply hv.keep _ rfl
      intro page hshows
      apply hshows.map
      exact hfree.disjoint.mono_left (h.sound.pages.subset hheld)
    show Matches _ (Function.update s.mappings s.nextMapping _)
      (Function.update t.views t.nextView _)
    rw [h.nextView]
    apply hkept.set
    -- and the new one shows its region: mode, pages, place and bounds
    refine ⟨rfl, rfl, ?_, rfl, ?_, ?_, rfl, ?_, ?_, Nat.pos_of_ne_zero hpos⟩
    · rw [← hstands.mode]
      cases inner.mode <;> rfl
    · rw [hpage]
      rfl
    · rw [Nat.mul_add_mod, Nat.mod_mod]
    · rw [hpage, ← hstands.mode]
      exact PageTable.shows_map _ _ _ _
    · rw [← hstands.size]
      exact hfits

theorem setRefs (h : s.Related t) {m : Nat} {held : HeldMapping} {v : View}
    (hheld : s.mappings m = some held) (hv : ShowsView s.kernel.memory.pages t.size held v)
    (refs : Nat) : Related (s.setRefs m held refs) (t.setRefs m v refs) := by
  refine { h with
    sound := { h.sound with
      pages := h.sound.pages.replace hheld rfl
      newMapping := ?_
      listed := ?_ }
    views := h.views.set (hv.setRefs refs) }
  · intro m' hm'
    show Function.update s.mappings m _ m' = none
    rw [Function.update_of_ne _ _ _]
    · exact h.sound.newMapping m' hm'
    · rintro rfl
      rw [h.sound.newMapping m' hm'] at hheld
      cases hheld
  · intro address m' hm'
    obtain ⟨held', hheld', haddress⟩ := h.sound.listed address m' hm'
    by_cases hm : m' = m
    · subst hm
      obtain rfl := Option.some.inj (hheld.symm.trans hheld')
      exact ⟨_, Function.update_self .., haddress⟩
    · exact ⟨held', (Function.update_of_ne hm ..).trans hheld', haddress⟩

/-- A mapping is listed under its address. -/
theorem list (h : s.Related t) {m : Nat} {held : HeldMapping} {v : View}
    (hheld : s.mappings m = some held) (hv : ShowsView s.kernel.memory.pages t.size held v) :
    Related { s with table := Function.update s.table held.owned.mapping.address (some m) }
      { t with table := Function.update t.table v.address (some m) } := by
  refine { h with sound := { h.sound with listed := ?_ }, table := ?_ }
  · intro address m' hm'
    have hm'' : Function.update s.table held.owned.mapping.address (some m) address = some m' :=
      hm'
    rw [Function.update_apply] at hm''
    split_ifs at hm'' with haddress
    · obtain rfl := Option.some.inj hm''
      exact ⟨held, hheld, haddress.symm⟩
    · exact h.sound.listed address m' hm''
  · show Function.update s.table _ _ = Function.update t.table _ _
    rw [h.table, hv.address]

theorem unlist (h : s.Related t) (address : Nat) :
    Related { s with table := Function.update s.table address none }
      { t with table := Function.update t.table address none } := by
  refine { h with sound := { h.sound with listed := ?_ }, table := ?_ }
  · intro address' m hm
    have hm' : Function.update s.table address none address' = some m := hm
    rw [Function.update_apply] at hm'
    split_ifs at hm'
    exact h.sound.listed address' m hm'
  · show Function.update s.table _ _ = Function.update t.table _ _
    rw [h.table]

theorem listed_eq (h : s.Related t) (m : Nat) {held : HeldMapping} {v : View}
    (hv : ShowsView s.kernel.memory.pages t.size held v) : s.listed m held = t.listed m v := by
  rw [listed, SharedRegions.listed, h.table, hv.address]

/-- The last reference unmaps the pages of the mapping, and no other ones. -/
theorem release (h : s.Related t) (m : Nat) : Related (s.release m) (t.release m) := by
  cases hheld : s.mappings m with
  | none =>
      have hview := h.views.none hheld
      rw [BufferProcess.release, SharedRegions.release, hheld, hview]
      exact h
  | some held =>
      obtain ⟨v, hview, hv⟩ := h.views.some hheld
      rw [BufferProcess.release, SharedRegions.release, hheld, hview]
      dsimp only
      rw [h.listed_eq m hv, hv.refs]
      split_ifs with hlast
      · refine { h with
          sound := { h.sound with pages := ?_, newMapping := ?_, listed := ?_ }
          views := ?_ }
        · show Owned _ _ (filled (s.kernel.memory.pages.unmap _ _))
          rw [PageTable.filled_unmap]
          exact h.sound.pages.remove hheld
        · intro m' hm'
          show Function.update s.mappings m none m' = none
          rw [Function.update_apply]
          split_ifs
          · rfl
          · exact h.sound.newMapping m' hm'
        · intro address m' hm'
          obtain ⟨held', hheld', haddress⟩ := h.sound.listed address m' hm'
          refine ⟨held', ?_, haddress⟩
          show Function.update s.mappings m none m' = _
          rw [Function.update_of_ne _ _ _]
          · exact hheld'
          · -- the mapping is not listed
            rintro rfl
            obtain rfl := Option.some.inj (hheld.symm.trans hheld')
            have hlisted : s.listed m' held = true := by
              show decide (s.table held.owned.mapping.address = some m') = true
              rw [haddress, hm']
              exact decide_eq_true rfl
            rw [h.listed_eq m' hv, hlast.2] at hlisted
            cases hlisted
        · have hcleared := h.views.clear m
          apply hcleared.mono
          intro m' held' v' hheld' hv'
          rw [Function.update_apply] at hheld'
          split_ifs at hheld' with hne
          apply hv'.keep _ rfl
          intro page hshows
          apply hshows.unmap
          exact h.sound.pages.apart m' m held' held hheld' hheld hne
      · exact h

/-- The bytes of the regions change. -/
theorem store (h : s.Related t) {region : Nat} (hregion : region < s.kernel.made) (offset : Nat)
    (content : List UInt8) :
    Related
      { s with kernel := { s.kernel with
          memory := { s.kernel.memory with
            objects := s.kernel.memory.objects.putBytes region offset content } } }
      { t with contents := t.contents.putBytes region offset content } := by
  refine { h with sound := { h.sound with fresh := ?_ }, contents := ?_ }
  · intro o ho
    have hfresh := h.sound.fresh o ho
    refine ⟨?_, hfresh.2⟩
    have ho' : s.kernel.made ≤ o := ho
    rw [← hfresh.1]
    funext i
    apply Memory.putBytes_of_not_mem
    rintro ⟨rfl, -⟩
    omega
  · show s.kernel.memory.objects.putBytes _ _ _ = t.contents.putBytes _ _ _
    rw [h.contents]

/-! ### Calls -/

theorem held_cases (h : s.Related t) (m : Nat) :
    (s.held m = none ∧ t.held m = none) ∨
      ∃ held v, s.held m = some held ∧ t.held m = some v ∧ s.mappings m = some held ∧
        t.views m = some v ∧ held.refs ≠ 0 ∧
        ShowsView s.kernel.memory.pages t.size held v := by
  unfold held SharedRegions.held
  cases hheld : s.mappings m with
  | none =>
      rw [h.views.none hheld]
      exact .inl ⟨rfl, rfl⟩
  | some held =>
      obtain ⟨v, hview, hv⟩ := h.views.some hheld
      rw [hview]
      by_cases hrefs : held.refs = 0
      · left
        rw [Option.filter_some, Option.filter_some, ← hv.refs]
        simp [hrefs]
      · right
        refine ⟨held, v, ?_, ?_, rfl, rfl, hrefs, hv⟩
        · rw [Option.filter_some, if_pos (decide_eq_true hrefs)]
        · rw [Option.filter_some, ← hv.refs, if_pos (decide_eq_true hrefs)]

theorem create (h : s.Related t) (numBytes : Nat) (memfd : Option Nat) (truncated : Bool) :
    ∃ grant, (t.create numBytes grant).1 = (s.create numBytes memfd truncated).1 ∧
      (s.create numBytes memfd truncated).2.Related (t.create numBytes grant).2 := by
  unfold BufferProcess.create
  rcases SharedBuffer.createIn_cases s.kernel numBytes memfd truncated with
    ⟨k, heq, hk⟩ | ⟨fd, hsize, hfree, heq⟩
  · refine ⟨none, ?_⟩
    rw [heq]
    exact ⟨rfl, h.alike hk⟩
  · refine ⟨some s.kernel.made, ?_⟩
    have hfresh : t.size s.kernel.made = 0 := by
      rw [← h.size]
      exact (h.sound.fresh _ (Nat.le_refl _)).2
    have hgranted : ¬(numBytes = 0 ∨ numBytes > 2 ^ 31 - 1 ∨ t.size s.kernel.made ≠ 0) := by
      rintro (hzero | hlarge | hmade)
      · exact hsize (.inl hzero)
      · exact hsize (.inr hlarge)
      · exact hmade hfresh
    rw [heq, SharedRegions.create, if_neg hgranted]
    refine ⟨congrArg BufferAnswer.buffer h.nextBuffer.symm, ?_⟩
    have hregion := h.addRegion (Nat.le_of_not_gt fun hlarge => hsize (.inr hlarge))
    have hsize' : numBytes = Function.update t.size s.kernel.made numBytes s.kernel.made :=
      (Function.update_self s.kernel.made numBytes t.size).symm
    exact hregion.addBuffer hfree (Nat.lt_succ_self _) hsize'

theorem duplicate (h : s.Related t) (b : Nat) (readOnly : Bool) (dup : Option Nat) :
    ∃ grant, (t.duplicate b readOnly grant).1 = (s.duplicate b readOnly dup).1 ∧
      (s.duplicate b readOnly dup).2.Related (t.duplicate b readOnly grant).2 := by
  unfold BufferProcess.duplicate SharedRegions.duplicate
  cases hb : s.buffers b with
  | none =>
      rw [h.buffers.none hb]
      exact ⟨none, rfl, h⟩
  | some inner =>
      obtain ⟨⟨region, mode⟩, hr, hstands⟩ := h.buffers.some hb
      have hconverted := h.setMode hb hstands readOnly
      have hmode : inner.mode = mode := hstands.mode
      rw [hr]
      dsimp only
      rcases SharedBuffer.duplicateIn_cases readOnly dup hstands.file with
        ⟨heq, hforbidden⟩ | ⟨heq, hallowed⟩ | ⟨fd, heq, hallowed, hfree⟩
      · refine ⟨none, ?_⟩
        rw [heq, ← hmode, if_pos hforbidden]
        rw [← hmode] at hconverted
        exact ⟨rfl, hconverted⟩
      · refine ⟨none, ?_⟩
        rw [heq, ← hmode, if_neg (not_not_intro hallowed)]
        rw [← hmode] at hconverted
        exact ⟨rfl, hconverted⟩
      · refine ⟨some 0, ?_⟩
        rw [heq, ← hmode, if_neg (not_not_intro hallowed)]
        rw [← hmode] at hconverted
        refine ⟨congrArg BufferAnswer.buffer h.nextBuffer.symm, ?_⟩
        exact hconverted.addBuffer hfree (h.region_lt hstands) hstands.size

theorem closed (h : s.Related t) (b : Nat) :
    (t.close b).1 = (s.close b).1 ∧ (s.close b).2.Related (t.close b).2 := by
  unfold BufferProcess.close SharedRegions.close
  cases hb : s.buffers b with
  | none =>
      rw [h.buffers.none hb]
      exact ⟨rfl, h⟩
  | some inner =>
      obtain ⟨r, hr, -⟩ := h.buffers.some hb
      rw [hr]
      exact ⟨rfl, h.close hb⟩

theorem mapped (h : s.Related t) (b offset numBytes : Nat) (first : Option Nat) :
    ∃ grant, (t.map b offset numBytes grant).1 = (s.map b offset numBytes first).1 ∧
      (s.map b offset numBytes first).2.Related (t.map b offset numBytes grant).2 := by
  unfold BufferProcess.map SharedRegions.map
  cases hb : s.buffers b with
  | none =>
      rw [h.buffers.none hb]
      exact ⟨none, rfl, h⟩
  | some inner =>
      obtain ⟨⟨region, mode⟩, hr, hstands⟩ := h.buffers.some hb
      rw [hr]
      dsimp only
      rcases SharedBuffer.mapIn_cases offset numBytes first hstands.file with
        heq | ⟨p, hpos, hfits, hfree, heq⟩
      · refine ⟨none, ?_⟩
        rw [heq]
        exact ⟨rfl, h⟩
      · refine ⟨some (pageSize * p + offset % pageSize), ?_⟩
        have hsize : inner.shm.size = t.size region := hstands.size
        have hgranted : ¬(numBytes = 0 ∨ offset + numBytes > t.size region) := by
          rw [← hsize]
          exact not_or.mpr ⟨hpos, Nat.not_lt.mpr hfits⟩
        rw [heq]
        dsimp only
        rw [if_neg hgranted]
        refine ⟨?_, h.map hstands hpos hfits hfree⟩
        rw [h.nextView]
        rfl

/-- No other mapping is listed under the address of a mapping. -/
theorem listed_unique (h : s.Related t) {m m' : Nat} {held : HeldMapping}
    (hheld : s.mappings m = some held) (hm' : s.table held.owned.mapping.address = some m') :
    m' = m := by
  obtain ⟨held', hheld', haddress⟩ := h.sound.listed _ m' hm'
  obtain ⟨v, -, hv⟩ := h.views.some hheld
  obtain ⟨v', -, hv'⟩ := h.views.some hheld'
  refine h.sound.pages.unique hheld' hheld hv'.home ?_
  rw [← hv'.address, haddress, hv.address]
  exact hv.home

theorem added (h : s.Related t) (m : Nat) :
    (t.add m).1 = (s.add m).1 ∧ (s.add m).2.Related (t.add m).2 := by
  unfold BufferProcess.add SharedRegions.add
  rcases h.held_cases m with ⟨hs, ht⟩ | ⟨held, v, hs, ht, hheld, -, hrefs, hv⟩
  · rw [hs, ht]
    exact ⟨rfl, h⟩
  · rw [hs, ht]
    dsimp only
    have hlisted := h.list hheld hv
    cases htable : s.table held.owned.mapping.address with
    | none => exact ⟨rfl, hlisted⟩
    | some m' =>
        -- an entry that is replaced is one of the mapping itself
        obtain rfl := h.listed_unique hheld htable
        refine ⟨rfl, ?_⟩
        dsimp only
        rw [BufferProcess.release]
        dsimp only
        rw [hheld]
        dsimp only
        rw [if_neg fun hlast => hrefs hlast.1]
        exact hlisted

theorem removed (h : s.Related t) (address : Nat) :
    (t.remove address).1 = (s.remove address).1 ∧
      (s.remove address).2.Related (t.remove address).2 := by
  unfold BufferProcess.remove SharedRegions.remove
  rw [← congrFun h.table address]
  cases s.table address with
  | none => exact ⟨rfl, h⟩
  | some m => exact ⟨rfl, (h.unlist address).release m⟩

theorem got (h : s.Related t) (address : Nat) :
    (t.get address).1 = (s.get address).1 ∧ (s.get address).2.Related (t.get address).2 := by
  unfold BufferProcess.get SharedRegions.get
  rw [← congrFun h.table address]
  cases s.table address with
  | none => exact ⟨rfl, h⟩
  | some m =>
      dsimp only
      cases hheld : s.mappings m with
      | none =>
          rw [h.views.none hheld]
          exact ⟨rfl, h⟩
      | some held =>
          obtain ⟨v, hview, hv⟩ := h.views.some hheld
          rw [hview]
          refine ⟨rfl, ?_⟩
          dsimp only
          rw [hv.refs]
          exact h.setRefs hheld hv _

theorem dropped (h : s.Related t) (m : Nat) :
    (t.drop m).1 = (s.drop m).1 ∧ (s.drop m).2.Related (t.drop m).2 := by
  unfold BufferProcess.drop SharedRegions.drop
  rcases h.held_cases m with ⟨hs, ht⟩ | ⟨held, v, hs, ht, hheld, -, -, hv⟩
  · rw [hs, ht]
    exact ⟨rfl, h⟩
  · rw [hs, ht]
    refine ⟨rfl, ?_⟩
    dsimp only
    rw [hv.refs]
    exact (h.setRefs hheld hv _).release m

theorem read (h : s.Related t) (m offset len : Nat) :
    (t.read m offset len).1 = (s.read m offset len).1 ∧
      (s.read m offset len).2.Related (t.read m offset len).2 := by
  unfold BufferProcess.read SharedRegions.read
  rcases h.held_cases m with ⟨hs, ht⟩ | ⟨held, v, hs, ht, -, -, -, hv⟩
  · rw [hs, ht]
    exact ⟨rfl, h⟩
  · rw [← h.size] at hv
    have hsmall : s.kernel.memory.size v.region ≤ 2 ^ 31 - 1 := by
      rw [h.size]
      exact h.small _
    rw [hs, ht]
    dsimp only
    rw [hv.readAt hsmall, h.contents]
    split_ifs
    · exact ⟨rfl, h⟩
    · exact ⟨rfl, h⟩

theorem written (h : s.Related t) (m offset : Nat) (content : List UInt8) :
    (t.write m offset content).1 = (s.write m offset content).1 ∧
      (s.write m offset content).2.Related (t.write m offset content).2 := by
  unfold BufferProcess.write SharedRegions.write
  rcases h.held_cases m with ⟨hs, ht⟩ | ⟨held, v, hs, ht, -, -, -, hv⟩
  · rw [hs, ht]
    exact ⟨rfl, h⟩
  · have hregion := h.view_region_lt hv
    have hlisted := h.listed_eq m hv
    rw [← h.size] at hv
    have hsmall : s.kernel.memory.size v.region ≤ 2 ^ 31 - 1 := by
      rw [h.size]
      exact h.small _
    rw [hs, ht]
    dsimp only
    rw [hlisted, hv.refs, hv.writeAt hsmall]
    split_ifs
    · exact ⟨rfl, h⟩
    · exact ⟨rfl, h⟩
    · exact ⟨rfl, h.store hregion _ _⟩

end Related

/-- Each call is one on shared regions. -/
theorem related_step (h : s.Related t) (op : BufferOp) :
    ∃ grant, (t.step (op, grant)).1 = (s.step op).1 ∧
      (s.step op).2.Related (t.step (op, grant)).2 := by
  cases op with
  | create numBytes memfd truncated => exact h.create numBytes memfd truncated
  | duplicate b readOnly dup => exact h.duplicate b readOnly dup
  | close b => exact ⟨none, h.closed b⟩
  | map b offset numBytes first => exact h.mapped b offset numBytes first
  | add m => exact ⟨none, h.added m⟩
  | remove address => exact ⟨none, h.removed address⟩
  | get address => exact ⟨none, h.got address⟩
  | drop m => exact ⟨none, h.dropped m⟩
  | read m offset len => exact ⟨none, h.read m offset len⟩
  | write m offset content => exact ⟨none, h.written m offset content⟩

theorem refines : Refines step SharedRegions.step Related := fun _ _ op h => related_step h op

end BufferProcess

/-- Shared regions never fault. -/
theorem SharedRegions.step_ne_fault (t : SharedRegions) (c : BufferOp × Option Nat) :
    (t.step c).1 ≠ .fault := by
  obtain ⟨op, grant⟩ := c
  cases op with
  | create numBytes memfd truncated =>
      show (t.create numBytes grant).1 ≠ .fault
      unfold create
      split
      · exact BufferAnswer.noConfusion
      · split_ifs <;> exact BufferAnswer.noConfusion
  | duplicate b readOnly dup =>
      show (t.duplicate b readOnly grant).1 ≠ .fault
      unfold duplicate
      split
      · exact BufferAnswer.noConfusion
      · dsimp only
        split_ifs <;> exact BufferAnswer.noConfusion
  | close b =>
      show (t.close b).1 ≠ .fault
      unfold close
      split <;> exact BufferAnswer.noConfusion
  | map b offset numBytes first =>
      show (t.map b offset numBytes grant).1 ≠ .fault
      unfold map
      split
      · exact BufferAnswer.noConfusion
      · exact BufferAnswer.noConfusion
      · split_ifs <;> exact BufferAnswer.noConfusion
  | add m =>
      show (t.add m).1 ≠ .fault
      unfold add
      split <;> exact BufferAnswer.noConfusion
  | remove address =>
      show (t.remove address).1 ≠ .fault
      unfold remove
      split <;> exact BufferAnswer.noConfusion
  | get address =>
      show (t.get address).1 ≠ .fault
      unfold get
      split
      · exact BufferAnswer.noConfusion
      · split <;> exact BufferAnswer.noConfusion
  | drop m =>
      show (t.drop m).1 ≠ .fault
      unfold drop
      split <;> exact BufferAnswer.noConfusion
  | read m offset len =>
      show (t.read m offset len).1 ≠ .fault
      unfold read
      split
      · exact BufferAnswer.noConfusion
      · split_ifs <;> exact BufferAnswer.noConfusion
  | write m offset content =>
      show (t.write m offset content).1 ≠ .fault
      unfold write
      split
      · exact BufferAnswer.noConfusion
      · split_ifs <;> exact BufferAnswer.noConfusion

namespace BufferProcess

/-- Whatever a process does with its buffers and mappings, and whatever the kernel
picks, every answer is the one that shared regions give; the process never
faults. -/
theorem buffers_shared (ops : List BufferOp) :
    (∃ grants : List (Option Nat), grants.length = ops.length ∧
      answers SharedRegions.step .init (ops.zip grants) = answers step .init ops) ∧
      .fault ∉ answers step .init ops := by
  obtain ⟨grants, hlength, hanswers, -⟩ := refines.answers related_init ops
  refine ⟨⟨grants, hlength, hanswers⟩, fun hfault => ?_⟩
  rw [← hanswers] at hfault
  exact forall_mem_answers (P := (· ≠ .fault)) SharedRegions.step_ne_fault _ _ _ hfault rfl

end BufferProcess

end MojoRs.Core
