/-
MojoRs/Ipcz/BlockAllocatorSafety.lean

Safety of the block allocator under every interleaving.  The argument is about
the ghost count of front header updates.  Every update adds one to the count
and to the 16-bit version, so a compare-exchange that succeeds within the
window finds the front header as it was when it was read *and* not updated in
between; a front that was not updated still heads the same free list, whose
blocks nobody writes to.

`Linked` is the free list, `PcOk` what a thread may rely on, `Inv` the whole
invariant.  Main result: `always_safe`.
-/
import Mathlib.Algebra.Group.Int.Defs
import Mathlib.Data.List.Basic
import MojoRs.Ipcz.BlockAllocator

namespace MojoRs.Ipcz

open Lib

variable {R : Region} {headers headers' : Headers}

/-! ### Links -/

/-- The blocks `l` follow block `b` on the free list, which then returns to
block 0. -/
def Linked (headers : Headers) : Nat → List Nat → Prop
  | b, [] => nextBlock headers b = 0
  | b, c :: cs => nextBlock headers b = c ∧ Linked headers c cs

/-- The rest of a list may be entered from another block. -/
theorem Linked.relink {b b' : Nat} {l : List Nat}
    (hnext : nextBlock headers' b' = nextBlock headers b)
    (hsame : ∀ x ∈ l, headers' x = headers x) (h : Linked headers b l) :
    Linked headers' b' l := by
  induction l generalizing b b' with
  | nil => exact hnext.trans h
  | cons c cs ih =>
      refine ⟨hnext.trans h.1, ih ?_ (fun x hx => hsame x (List.mem_cons_of_mem _ hx)) h.2⟩
      simp only [nextBlock, hsame c (by simp)]

theorem Linked.freeList_eq {b len : Nat} {l : List Nat} (h : Linked headers b l)
    (hpos : ∀ x ∈ l, 0 < x) (hlen : l.length < len) : AllocState.freeList headers len b = l := by
  induction l generalizing b len with
  | nil =>
      obtain ⟨len, rfl⟩ := Nat.exists_eq_add_one_of_ne_zero (Nat.ne_of_gt hlen)
      have h : nextBlock headers b = 0 := h
      simp [AllocState.freeList, h]
  | cons c cs ih =>
      obtain ⟨len, rfl⟩ := Nat.exists_eq_add_one_of_ne_zero (Nat.ne_of_gt (Nat.zero_lt_of_lt hlen))
      have hc : 0 < c := hpos c (by simp)
      have hlen' : cs.length < len := by
        rw [List.length_cons] at hlen
        omega
      simp only [AllocState.freeList, h.1, Int.toNat_natCast]
      rw [if_neg (by omega), ih h.2 (fun x hx => hpos x (List.mem_cons_of_mem _ hx)) hlen']

theorem firstFree_eq (headers : Headers) : firstFree (headers 0) = nextBlock headers 0 := by
  simp [firstFree, nextBlock]

/-- A link that fits 16 bits leads where it was meant to. -/
theorem toInt_ofInt {x : Int} (hlo : -2 ^ 15 ≤ x) (hhi : x < 2 ^ 15) :
    (Int16.ofInt x).toInt = x := Int16.toInt_ofInt_of_le hlo hhi

/-! ### What a thread relies on -/

/-- The block an operation is about to free. -/
def Pc.freeing : Pc → Option Nat
  | .freeRead b | .freeWrite b _ _ | .freeCas b _ _ => some b
  | _ => none

/-- A front header read when `readAt` updates had happened. -/
structure FrontOk (headers : Headers) (updates : Nat) (front : BlockHeader) (readAt : Nat) :
    Prop where
  le : readAt ≤ updates
  version : front.version.toNat = readAt % 2 ^ 16
  same : readAt = updates → headers 0 = front

/-- What the local variables of a thread say about the memory. -/
def PcOk (R : Region) (headers : Headers) (updates : Nat) : Pc → Prop
  | .popHeader front readAt =>
      FrontOk headers updates front readAt ∧ 0 < firstFree front ∧
        firstFree front < R.numBlocks
  | .popCas front nextAbs readAt =>
      FrontOk headers updates front readAt ∧ 0 < firstFree front ∧
        firstFree front < R.numBlocks ∧ nextAbs < R.numBlocks ∧
        (readAt = updates → nextBlock headers (firstFree front).toNat = nextAbs)
  | .freeWrite _ front _ => 0 ≤ firstFree front ∧ firstFree front < R.numBlocks
  | .freeCas b front _ =>
      0 ≤ firstFree front ∧ firstFree front < R.numBlocks ∧
        nextBlock headers b = firstFree front
  | _ => True

/-- Writing the header of a block that is off the free list, and not about to
be freed by this thread. -/
theorem PcOk.write {pc : Pc} {updates b : Nat} {h : BlockHeader} {free : List Nat}
    (hpc : PcOk R headers updates pc) (hl : Linked headers 0 free) (hb : b ≠ 0)
    (hfree : b ∉ free) (hown : pc.freeing ≠ some b) :
    PcOk R (fun b' => if b' = b then h else headers b') updates pc := by
  have hfront : ∀ {front readAt}, FrontOk headers updates front readAt →
      FrontOk (fun b' => if b' = b then h else headers b') updates front readAt := by
    intro front readAt hf
    refine ⟨hf.le, hf.version, fun heq => ?_⟩
    rw [if_neg hb.symm]
    exact hf.same heq
  cases pc with
  | popHeader front readAt => exact ⟨hfront hpc.1, hpc.2⟩
  | popCas front nextAbs readAt =>
      obtain ⟨hf, hpos, hlt, hnext, hlink⟩ := hpc
      refine ⟨hfront hf, hpos, hlt, hnext, fun heq => ?_⟩
      -- the first free block is the head of the list
      have hne : (firstFree front).toNat ≠ b := by
        rw [← hf.same heq, firstFree_eq] at hpos ⊢
        cases free with
        | nil =>
            have hl : nextBlock headers 0 = 0 := hl
            omega
        | cons c cs =>
            rw [hl.1, Int.toNat_natCast]
            rintro rfl
            exact hfree (by simp)
      simpa [nextBlock, hne] using hlink heq
  | freeCas b' front readAt =>
      have hne : b' ≠ b := fun heq => hown (by rw [← heq]; rfl)
      simpa [PcOk, nextBlock, hne] using hpc
  | freeWrite b' front readAt => exact hpc
  | idle => trivial
  | popRead => trivial
  | freeRead b' => trivial

/-- Updating the front header: what was read before is out of date. -/
theorem PcOk.update {pc : Pc} {updates : Nat} {h : BlockHeader}
    (hpc : PcOk R headers updates pc) (hown : pc.freeing ≠ some 0) :
    PcOk R (fun b' => if b' = 0 then h else headers b') (updates + 1) pc := by
  have hfront : ∀ {front readAt}, FrontOk headers updates front readAt →
      FrontOk (fun b' => if b' = 0 then h else headers b') (updates + 1) front readAt := by
    intro front readAt hf
    have := hf.le
    exact ⟨by omega, hf.version, fun heq => by omega⟩
  cases pc with
  | popHeader front readAt => exact ⟨hfront hpc.1, hpc.2⟩
  | popCas front nextAbs readAt =>
      obtain ⟨hf, hpos, hlt, hnext, -⟩ := hpc
      have := hf.le
      exact ⟨hfront hf, hpos, hlt, hnext, fun heq => by omega⟩
  | freeCas b' front readAt =>
      have hne : b' ≠ 0 := fun heq => hown (by rw [← heq]; rfl)
      simpa [PcOk, nextBlock, hne] using hpc
  | freeWrite b' front readAt => exact hpc
  | idle => trivial
  | popRead => trivial
  | freeRead b' => trivial

/-! ### The invariant -/

namespace AllocState

variable {θ : Type} {s s' : AllocState θ} {free free' : List Nat}

/-- The blocks that somebody owns. -/
def ownedBlocks (s : AllocState θ) : List Nat := s.owned.map Prod.snd

/-- The free list, the owned blocks and the blocks being freed are all blocks
but block 0, each once. -/
structure Inv (R : Region) (s : AllocState θ) (free : List Nat) : Prop where
  linked : Linked s.headers 0 free
  nodup : (free ++ s.ownedBlocks).Nodup
  range : ∀ b ∈ free ++ s.ownedBlocks, 0 < b ∧ b < R.numBlocks
  freeing : ∀ t b, (s.pc t).freeing = some b →
    0 < b ∧ b < R.numBlocks ∧ b ∉ free ++ s.ownedBlocks
  freeing_inj : ∀ t t' b, (s.pc t).freeing = some b → (s.pc t').freeing = some b → t = t'
  cover : ∀ b, 0 < b → b < R.numBlocks →
    b ∈ free ++ s.ownedBlocks ∨ ∃ t, (s.pc t).freeing = some b
  version : (s.headers 0).version.toNat = s.updates % 2 ^ 16
  threads : ∀ t, PcOk R s.headers s.updates (s.pc t)

/-- The front header of a free list points into the region. -/
theorem Inv.front_bounds (h : s.Inv R free) :
    0 ≤ firstFree (s.headers 0) ∧ firstFree (s.headers 0) < R.numBlocks := by
  rw [firstFree_eq]
  have hl := h.linked
  cases free with
  | nil =>
      have hl : nextBlock s.headers 0 = 0 := hl
      have := R.one_lt
      omega
  | cons c cs =>
      have := h.range c (by simp)
      rw [hl.1]
      omega

/-- A successful compare-exchange within the window finds the front header as
it was read, and not updated since. -/
theorem Inv.window {front : BlockHeader} {readAt : Nat} (h : s.Inv R free)
    (hf : FrontOk s.headers s.updates front readAt) (heq : s.headers 0 = front)
    (hwin : s.updates - readAt < 2 ^ 16) : readAt = s.updates := by
  have hv := h.version
  rw [heq, hf.version] at hv
  have := hf.le
  omega

/-- What may change without touching who has which block. -/
theorem Inv.frame (h : s.Inv R free)
    (hp : (free' ++ s'.ownedBlocks).Perm (free ++ s.ownedBlocks))
    (hl : Linked s'.headers 0 free')
    (hf : ∀ t, (s'.pc t).freeing = (s.pc t).freeing)
    (hv : (s'.headers 0).version.toNat = s'.updates % 2 ^ 16)
    (hok : ∀ t, PcOk R s'.headers s'.updates (s'.pc t)) : s'.Inv R free' where
  linked := hl
  nodup := hp.nodup_iff.mpr h.nodup
  range b hb := h.range b (hp.mem_iff.mp hb)
  freeing t b hb := by
    rw [hf] at hb
    rw [hp.mem_iff]
    exact h.freeing t b hb
  freeing_inj t t' b hb hb' := by
    rw [hf] at hb hb'
    exact h.freeing_inj t t' b hb hb'
  cover b hb hb' := by
    simp only [hf]
    rw [hp.mem_iff]
    exact h.cover b hb hb'
  version := hv
  threads := hok

/-- A front header that is read now. -/
theorem Inv.frontOk (h : s.Inv R free) :
    FrontOk s.headers s.updates (s.headers 0) s.updates :=
  ⟨Nat.le_refl _, h.version, fun _ => rfl⟩

theorem Inv.popLoop_ok (h : s.Inv R free) :
    PcOk R s.headers s.updates (popLoop R (s.headers 0) s.updates) := by
  unfold popLoop
  split
  · trivial
  · rename_i hbounds
    exact ⟨h.frontOk, by omega, by omega⟩

theorem popLoop_freeing (front : BlockHeader) (readAt : Nat) :
    (popLoop R front readAt).freeing = none := by
  unfold popLoop
  split <;> rfl

/-- A free operation is never turned down half way. -/
theorem Inv.freeLoop_eq (h : s.Inv R free) (b : Nat) :
    freeLoop R b (s.headers 0) s.updates = .freeWrite b (s.headers 0) s.updates := by
  have hb := h.front_bounds
  exact if_neg (by omega)

/-- A write to a block that is off the free list. -/
theorem Inv.setHeader {b : Nat} {hd : BlockHeader} (h : s.Inv R free) (hb : b ≠ 0)
    (hfree : b ∉ free) (hnone : ∀ t, (s.pc t).freeing ≠ some b) :
    (s.setHeader b hd).Inv R free := by
  refine h.frame (.refl _) ?_ (fun _ => rfl) ?_ ?_
  · refine h.linked.relink ?_ ?_
    · simp [nextBlock, AllocState.setHeader, hb.symm]
    · intro x hx
      refine if_neg ?_
      rintro rfl
      exact hfree hx
  · simpa [AllocState.setHeader, hb.symm] using h.version
  · intro t
    exact (h.threads t).write h.linked hb hfree (hnone t)

/-! ### The start -/

/-- The blocks of a fresh region are linked in order. -/
theorem linked_initializeRegion (R : Region) {b : Nat} (hb : b < R.numBlocks) :
    Linked (initializeRegion R.numBlocks) b (List.range' (b + 1) (R.numBlocks - 1 - b)) := by
  have hmax := R.le_max
  generalize hk : R.numBlocks - 1 - b = k
  induction k generalizing b with
  | zero =>
      have hlast : b = R.numBlocks - 1 := by omega
      have hneg : (0 - Int16.ofNat R.numBlocks).toInt = -R.numBlocks := by
        have hof : (0 : Int16) - Int16.ofNat R.numBlocks = Int16.ofInt (0 - R.numBlocks) := by
          rw [Int16.ofInt_sub]
          rfl
        rw [hof, toInt_ofInt (by omega) (by omega)]
        omega
      simp only [List.range'_zero, Linked, nextBlock, initializeRegion, if_pos hlast, hneg]
      omega
  | succ k ih =>
      have hne : b ≠ R.numBlocks - 1 := by omega
      refine ⟨?_, ih (by omega) (by omega)⟩
      simp [nextBlock, initializeRegion, hne]

theorem Inv.init (R : Region) : (AllocState.init R : AllocState θ).Inv R
    (List.range' 1 (R.numBlocks - 1)) := by
  have hone := R.one_lt
  constructor
  · exact linked_initializeRegion R (b := 0) (by omega)
  · simp [AllocState.init, ownedBlocks, List.nodup_range']
  · intro b hb
    simp only [AllocState.init, ownedBlocks, List.map_nil, List.append_nil,
      List.mem_range'_1] at hb
    omega
  · intro t b hb
    cases hb
  · intro t t' b hb
    cases hb
  · intro b hpos hlt
    left
    simp only [AllocState.init, ownedBlocks, List.map_nil, List.append_nil,
      List.mem_range'_1]
    omega
  · simp only [AllocState.init, initializeRegion]
    split <;> rfl
  · exact fun _ => trivial

theorem Inv.safe (h : s.Inv R free) : s.Safe R := by
  constructor
  · exact (List.nodup_append.mp h.nodup).2.1
  · exact fun hzero => Nat.lt_irrefl 0 (h.range 0 (List.mem_append_right _ hzero)).1
  · intro hidle
    have hperm : (free ++ s.ownedBlocks).Perm (List.range' 1 (R.numBlocks - 1)) := by
      apply (List.perm_ext_iff_of_nodup h.nodup List.nodup_range').mpr
      intro b
      rw [List.mem_range'_1]
      constructor
      · intro hb
        have := h.range b hb
        omega
      · intro hb
        rcases h.cover b (by omega) (by omega) with hmem | ⟨t, ht⟩
        · exact hmem
        · rw [hidle t] at ht
          cases ht
    have hlen := hperm.length_eq
    rw [List.length_append, List.length_range'] at hlen
    have hone := R.one_lt
    rw [h.linked.freeList_eq (fun x hx => (h.range x (List.mem_append_left _ hx)).1) (by omega)]
    exact hperm

variable [DecidableEq θ]

@[simp] theorem setPc_pc_self (s : AllocState θ) (t : θ) (pc : Pc) : (s.setPc t pc).pc t = pc :=
  if_pos rfl

theorem setPc_pc_ne (s : AllocState θ) {t t' : θ} (pc : Pc) (h : t' ≠ t) :
    (s.setPc t pc).pc t' = s.pc t' := if_neg h

/-- A thread moves on without a write. -/
theorem Inv.setPc {t : θ} {pc : Pc} (h : s.Inv R free)
    (hf : pc.freeing = (s.pc t).freeing) (hok : PcOk R s.headers s.updates pc) :
    (s.setPc t pc).Inv R free := by
  refine h.frame (.refl _) h.linked ?_ h.version ?_
  · intro t'
    by_cases ht : t' = t
    · subst ht
      rw [setPc_pc_self, hf]
    · rw [setPc_pc_ne s pc ht]
  · intro t'
    by_cases ht : t' = t
    · subst ht
      rw [setPc_pc_self]
      exact hok
    · rw [setPc_pc_ne s pc ht]
      exact h.threads t'

/-! ### Steps of an operation -/

/-- A write to the block that thread `t` is freeing. -/
theorem Inv.freeWrite {t : θ} {b readAt : Nat} {front : BlockHeader} (h : s.Inv R free)
    (hpc : s.pc t = .freeWrite b front readAt) :
    ((s.setHeader b ⟨0, Int16.ofInt (firstFree front - b - 1)⟩).setPc t
      (.freeCas b front readAt)).Inv R free := by
  have hmine : (s.pc t).freeing = some b := by rw [hpc]; rfl
  obtain ⟨hpos, hlt, hout⟩ := h.freeing t b hmine
  have hfree : b ∉ free := fun hb => hout (List.mem_append_left _ hb)
  have hok : 0 ≤ firstFree front ∧ firstFree front < R.numBlocks := by
    have := h.threads t
    rwa [hpc] at this
  have hmax := R.le_max
  refine h.frame (.refl _) ?_ ?_ ?_ ?_
  · refine h.linked.relink ?_ ?_
    · simp [nextBlock, AllocState.setHeader, AllocState.setPc, Nat.ne_of_lt hpos]
    · intro x hx
      refine if_neg ?_
      rintro rfl
      exact hfree hx
  · intro t'
    by_cases ht : t' = t
    · subst ht
      rw [setPc_pc_self, hmine]
      rfl
    · rw [setPc_pc_ne _ _ ht]
      rfl
  · simpa [AllocState.setHeader, AllocState.setPc, Nat.ne_of_lt hpos] using h.version
  · intro t'
    by_cases ht : t' = t
    · subst ht
      rw [setPc_pc_self]
      refine ⟨hok.1, hok.2, ?_⟩
      -- the link is relative to the successor of the block
      simp only [nextBlock, AllocState.setHeader, AllocState.setPc, if_true]
      rw [toInt_ofInt (by omega) (by omega)]
      omega
    · rw [setPc_pc_ne _ _ ht]
      refine (h.threads t').write h.linked (Nat.ne_of_gt hpos) hfree fun hother => ht ?_
      exact h.freeing_inj t' t b hother hmine

/-- The version counts the updates. -/
theorem version_succ {v : UInt16} {updates : Nat} (h : v.toNat = updates % 2 ^ 16) :
    (v + 1).toNat = (updates + 1) % 2 ^ 16 := by
  rw [UInt16.toNat_add, UInt16.toNat_one, h]
  omega

/-- `pop_block` takes the head of the free list. -/
theorem Inv.popCas {t : θ} {front : BlockHeader} {nextAbs readAt : Nat} (h : s.Inv R free)
    (hpc : s.pc t = .popCas front nextAbs readAt) (heq : s.headers 0 = front)
    (hwin : s.updates - readAt < 2 ^ 16) :
    ∃ free', ({ ({ s.setHeader 0 ⟨front.version + 1, Int16.ofInt (nextAbs - 1)⟩ with
        updates := s.updates + 1 } : AllocState θ).setPc t .idle with
      owned := (t, (firstFree front).toNat) :: s.owned } : AllocState θ).Inv R free' := by
  have hthread := h.threads t
  rw [hpc] at hthread
  obtain ⟨hf, hpos, hlt, hnext, hlink⟩ := hthread
  have hnow := h.window hf heq hwin
  have hlinked := h.linked
  have hhead := firstFree_eq s.headers
  rw [heq] at hhead
  have hmax := R.le_max
  cases free with
  -- the block in `front` came from the header, so the list is not empty
  | nil =>
      have hl : nextBlock s.headers 0 = 0 := hlinked
      omega
  -- the exchange succeeds on the version read, so the link read is that of `c`
  | cons c rest =>
      have hc : (firstFree front).toNat = c := by
        rw [hhead, hlinked.1, Int.toNat_natCast]
      rw [hc] at hlink
      have hrest : ∀ x ∈ rest, x ≠ 0 := fun x hx =>
        Nat.ne_of_gt (h.range x (by simp [hx])).1
      refine ⟨rest, h.frame ?_ ?_ ?_ ?_ ?_⟩
      -- `c` moves from the list to the thread
      · simp only [ownedBlocks, List.map_cons, hc]
        exact List.perm_middle
      -- the header takes over the link of `c`
      · refine hlinked.2.relink ?_ ?_
        · simp only [nextBlock, AllocState.setHeader, AllocState.setPc, if_true]
          rw [toInt_ofInt (by omega) (by omega)]
          have := hlink hnow
          simp only [nextBlock] at this
          omega
        · intro x hx
          exact if_neg (hrest x hx)
      -- nobody begins or ends a free
      · intro t'
        by_cases ht : t' = t
        · subst ht
          simp [AllocState.setPc, hpc, Pc.freeing]
        · simp [AllocState.setPc, AllocState.setHeader, ht]
      -- one update, one version
      · have hv := h.version
        rw [heq] at hv
        simpa [AllocState.setHeader, AllocState.setPc] using version_succ hv
      -- what the other threads know holds of the new version too
      · intro t'
        by_cases ht : t' = t
        · subst ht
          simp [AllocState.setPc, PcOk]
        · simp only [AllocState.setPc, AllocState.setHeader, if_neg ht]
          refine (h.threads t').update fun hzero => ?_
          exact absurd (h.freeing t' 0 hzero).1 (Nat.lt_irrefl 0)

/-- `free_block` puts its block at the head of the free list. -/
theorem Inv.freeCas {t : θ} {b readAt : Nat} {front : BlockHeader} (h : s.Inv R free)
    (hpc : s.pc t = .freeCas b front readAt) (heq : s.headers 0 = front) :
    (({ s.setHeader 0 ⟨front.version + 1, Int16.ofInt (b - 1)⟩ with
      updates := s.updates + 1 } : AllocState θ).setPc t .idle).Inv R (b :: free) := by
  have hthread := h.threads t
  rw [hpc] at hthread
  obtain ⟨-, -, hlink⟩ := hthread
  have hmine : (s.pc t).freeing = some b := by rw [hpc]; rfl
  obtain ⟨hpos, hlt, hout⟩ := h.freeing t b hmine
  have hmax := R.le_max
  have hhead := firstFree_eq s.headers
  have hfreeing : ∀ t', t' ≠ t → ((({ s.setHeader 0 ⟨front.version + 1,
      Int16.ofInt (b - 1)⟩ with updates := s.updates + 1 } : AllocState θ).setPc t
      .idle).pc t') = s.pc t' := by
    intro t' ht
    rw [setPc_pc_ne _ _ ht]
    rfl
  constructor
  -- the header leads to `b`, and `b` to the head before
  · refine ⟨?_, h.linked.relink ?_ ?_⟩
    · simp only [nextBlock, AllocState.setHeader, AllocState.setPc, if_true]
      rw [toInt_ofInt (by omega) (by omega)]
      omega
    · rw [← hhead, heq, ← hlink]
      simp only [nextBlock, AllocState.setHeader, AllocState.setPc, if_neg (Nat.ne_of_gt hpos)]
    · intro x hx
      exact if_neg (Nat.ne_of_gt (h.range x (by simp [hx])).1)
  -- `b` was neither free nor owned
  · exact List.nodup_cons.mpr ⟨hout, h.nodup⟩
  -- and it is a block of the region
  · intro x hx
    rcases List.mem_cons.mp hx with rfl | hx
    · exact ⟨hpos, hlt⟩
    · exact h.range x hx
  -- the blocks that other threads free are other ones
  · intro t' b' hb'
    by_cases ht : t' = t
    · subst ht
      rw [setPc_pc_self] at hb'
      cases hb'
    · rw [hfreeing t' ht] at hb'
      obtain ⟨hpos', hlt', hout'⟩ := h.freeing t' b' hb'
      refine ⟨hpos', hlt', ?_⟩
      intro hmem
      rcases List.mem_cons.mp hmem with rfl | hmem
      · exact ht (h.freeing_inj t' t _ hb' hmine)
      · exact hout' hmem
  -- two threads never free one block
  · intro t₁ t₂ b' h₁ h₂
    by_cases ht₁ : t₁ = t
    · subst ht₁
      rw [setPc_pc_self] at h₁
      cases h₁
    by_cases ht₂ : t₂ = t
    · subst ht₂
      rw [setPc_pc_self] at h₂
      cases h₂
    rw [hfreeing t₁ ht₁] at h₁
    rw [hfreeing t₂ ht₂] at h₂
    exact h.freeing_inj t₁ t₂ b' h₁ h₂
  -- `b` is free now, every other block is where it was
  · intro b' hpos' hlt'
    rcases h.cover b' hpos' hlt' with hmem | ⟨t', ht'⟩
    · exact .inl (List.mem_cons_of_mem _ hmem)
    · by_cases ht : t' = t
      · subst ht
        obtain rfl : b = b' := by
          rw [hmine] at ht'
          exact Option.some.inj ht'
        exact .inl (by simp)
      · exact .inr ⟨t', by rw [hfreeing t' ht]; exact ht'⟩
  -- one update, one version
  · have hv := h.version
    rw [heq] at hv
    simpa [AllocState.setHeader, AllocState.setPc] using version_succ hv
  -- what the other threads know holds of the new version too
  · intro t'
    by_cases ht : t' = t
    · subst ht
      rw [setPc_pc_self]
      trivial
    · rw [hfreeing t' ht]
      refine (h.threads t').update fun hzero => ?_
      exact absurd (h.freeing t' 0 hzero).1 (Nat.lt_irrefl 0)

/-! ### Actions -/

theorem Inv.runThread (h : s.Inv R free) (t : θ) (spurious : Bool)
    (hwin : s.InWindow (.run t spurious)) : ∃ free', (s.runThread R t spurious).Inv R free' := by
  unfold AllocState.runThread
  simp only [InWindow] at hwin
  rcases hpc : s.pc t with - | - | ⟨front, readAt⟩ | ⟨front, nextAbs, readAt⟩ | b |
    ⟨b, front, readAt⟩ | ⟨b, front, readAt⟩ <;> simp only [hpc] at hwin ⊢
  case idle => exact ⟨free, h⟩
  case popRead =>
    refine ⟨free, h.setPc ?_ h.popLoop_ok⟩
    rw [hpc, popLoop_freeing]
    rfl
  case popHeader =>
    have hthread := h.threads t
    rw [hpc] at hthread
    obtain ⟨hf, hpos, hlt⟩ := hthread
    split
    · exact ⟨free, h.setPc (by rw [hpc]; rfl) trivial⟩
    · rename_i hnext
      refine ⟨free, h.setPc (by rw [hpc]; rfl) ⟨hf, hpos, hlt, by omega, fun _ => by omega⟩⟩
  case popCas =>
    by_cases hcas : s.headers 0 = front ∧ spurious = false
    · simp only [casFrontHeader, if_pos hcas]
      exact h.popCas hpc hcas.1 hwin
    · simp only [casFrontHeader, if_neg hcas]
      refine ⟨free, h.setPc ?_ h.popLoop_ok⟩
      rw [hpc, popLoop_freeing]
      rfl
  case freeRead =>
    rw [h.freeLoop_eq]
    exact ⟨free, h.setPc (by rw [hpc]; rfl) h.front_bounds⟩
  case freeWrite => exact ⟨free, h.freeWrite hpc⟩
  case freeCas =>
    by_cases hcas : s.headers 0 = front ∧ spurious = false
    · simp only [casFrontHeader, if_pos hcas]
      exact ⟨b :: free, h.freeCas hpc hcas.1⟩
    · simp only [casFrontHeader, if_neg hcas]
      rw [h.freeLoop_eq]
      exact ⟨free, h.setPc (by rw [hpc]; rfl) h.front_bounds⟩

/-- Starting to free an owned block. -/
theorem Inv.startFree {t : θ} {b : Nat} (h : s.Inv R free) (hpc : s.pc t = .idle)
    (hmem : (t, b) ∈ s.owned) :
    ({ s.setPc t (.freeRead b) with owned := s.owned.erase (t, b) } : AllocState θ).Inv R
      free := by
  have hb : b ∈ s.ownedBlocks := List.mem_map_of_mem hmem
  have hperm : (b :: (s.owned.erase (t, b)).map Prod.snd).Perm s.ownedBlocks :=
    (List.perm_cons_erase hmem).symm.map Prod.snd
  have hwhole : (b :: (free ++ (s.owned.erase (t, b)).map Prod.snd)).Perm
      (free ++ s.ownedBlocks) :=
    List.perm_middle.symm.trans (hperm.append_left free)
  obtain ⟨hout, hnodup⟩ := List.nodup_cons.mp (hwhole.nodup_iff.mpr h.nodup)
  have hsub : ∀ x ∈ free ++ (s.owned.erase (t, b)).map Prod.snd, x ∈ free ++ s.ownedBlocks :=
    fun x hx => hwhole.mem_iff.mp (List.mem_cons_of_mem _ hx)
  have hnone : ∀ t', (s.pc t').freeing ≠ some b := fun t' ht' =>
    (h.freeing t' b ht').2.2 (List.mem_append_right _ hb)
  -- `b` leaves the owned blocks and is what `t` frees, the list stays
  constructor
  · exact h.linked
  · exact hnodup
  -- the blocks left are blocks of before
  · exact fun x hx => h.range x (hsub x hx)
  · intro t' x hx
    by_cases ht : t' = t
    · subst ht
      obtain rfl : b = x := by simpa [AllocState.setPc, Pc.freeing] using hx
      have := h.range b (List.mem_append_right _ hb)
      exact ⟨this.1, this.2, hout⟩
    · have hx : (s.pc t').freeing = some x := by simpa [AllocState.setPc, ht] using hx
      obtain ⟨hpos, hlt, hnot⟩ := h.freeing t' x hx
      exact ⟨hpos, hlt, fun hmem => hnot (hsub x hmem)⟩
  -- `b` was owned, so no other thread was freeing it
  · intro t₁ t₂ x h₁ h₂
    by_cases ht₁ : t₁ = t <;> by_cases ht₂ : t₂ = t
    · rw [ht₁, ht₂]
    · obtain rfl : b = x := by simpa [AllocState.setPc, ht₁, Pc.freeing] using h₁
      exact absurd (by simpa [AllocState.setPc, ht₂] using h₂) (hnone t₂)
    · obtain rfl : b = x := by simpa [AllocState.setPc, ht₂, Pc.freeing] using h₂
      exact absurd (by simpa [AllocState.setPc, ht₁] using h₁) (hnone t₁)
    · exact h.freeing_inj t₁ t₂ x (by simpa [AllocState.setPc, ht₁] using h₁)
        (by simpa [AllocState.setPc, ht₂] using h₂)
  -- every block is free, owned or being freed, `b` by `t`
  · intro x hpos hlt
    rcases h.cover x hpos hlt with hx | ⟨t', ht'⟩
    · rcases List.mem_cons.mp (hwhole.mem_iff.mpr hx) with rfl | hx
      · exact .inr ⟨t, by simp [AllocState.setPc, Pc.freeing]⟩
      · exact .inl hx
    · have ht : t' ≠ t := by
        rintro rfl
        rw [hpc] at ht'
        cases ht'
      exact .inr ⟨t', by simpa [AllocState.setPc, ht] using ht'⟩
  · exact h.version
  · intro t'
    by_cases ht : t' = t
    · simp [AllocState.setPc, ht, PcOk]
    · simpa [AllocState.setPc, ht] using h.threads t'

/-- Every action within the window keeps the invariant. -/
theorem Inv.step (h : s.Inv R free) (a : AllocAction θ) (hwin : s.InWindow a) :
    ∃ free', (s.step R a).Inv R free' := by
  cases a with
  | run t spurious => exact h.runThread t spurious hwin
  | popBlock t =>
      simp only [AllocState.step]
      split
      · rename_i hpc
        exact ⟨free, h.setPc (by rw [hpc]; rfl) trivial⟩
      · exact ⟨free, h⟩
  | freeBlock t b =>
      simp only [AllocState.step]
      split
      · rename_i hfree
        exact ⟨free, h.startFree hfree.1 hfree.2.1⟩
      · exact ⟨free, h⟩
  | write t b bytes =>
      simp only [AllocState.step]
      split
      · rename_i hmem
        have hb : b ∈ s.ownedBlocks := List.mem_map_of_mem hmem
        have hin : b ∈ free ++ s.ownedBlocks := List.mem_append_right _ hb
        refine ⟨free, h.setHeader (Nat.ne_of_gt (h.range b hin).1) ?_ ?_⟩
        · exact fun hfree => (List.nodup_append.mp h.nodup).2.2 b hfree b hb rfl
        · exact fun t' ht' => (h.freeing t' b ht').2.2 hin
      · exact ⟨free, h⟩
  | send t t' b =>
      simp only [AllocState.step]
      split
      · rename_i hmem
        refine ⟨free, h.frame ?_ h.linked (fun _ => rfl) h.version h.threads⟩
        apply List.Perm.append_left
        exact (List.perm_cons_erase hmem).symm.map Prod.snd
      · exact ⟨free, h⟩

/-- Within the window, the allocator is safe under every interleaving. -/
theorem always_safe (R : Region) (actions : List (AllocAction θ))
    (h : Meets (AllocState.step R) AllocState.InWindow (AllocState.init R) actions) :
    Always (AllocState.step R) (AllocState.Safe R) (AllocState.init R) actions := by
  have hstep : ∀ (s : AllocState θ) a, (∃ free, s.Inv R free) → s.InWindow a →
      ∃ free, (s.step R a).Inv R free := fun _ a ⟨_, hi⟩ hwin => hi.step a hwin
  exact (always_of_meets hstep ⟨_, .init R⟩ h).imp fun _ ⟨_, hi⟩ => hi.safe

/-- Two nodes race for the first of two free blocks: the second one's
compare-exchange fails, and it takes the other block. -/
theorem always_safe_race :
    Always (AllocState.step ⟨3, by decide, by decide⟩)
      (AllocState.Safe ⟨3, by decide, by decide⟩) (AllocState.init ⟨3, by decide, by decide⟩)
      [.popBlock false, .popBlock true, .run false false, .run true false, .run false false,
        .run true false, .run false false, .run true false, .run true false,
        .run true false] := by
  apply always_safe
  refine ⟨trivial, trivial, trivial, trivial, trivial, trivial, ?_, ?_, trivial, ?_, trivial⟩
  · exact (by decide : 0 - 0 < 2 ^ 16)
  · exact (by decide : 1 - 0 < 2 ^ 16)
  · exact (by decide : 1 - 1 < 2 ^ 16)

end AllocState

end MojoRs.Ipcz
