/-
MojoRs/Ipcz/CapacityExpansion.lean

A new block buffer (`on_provide_memory` in `routing.rs`, `add_block_buffer` and
`register_block_buffer` in `link_memory.rs`), one write at a time.  This node
sends the buffer to the peer, then zeroes it byte by byte, links its last
block back to block 0, and only then takes it into its own pool.  The peer
takes the buffer as it finds it, at any moment after it was sent, and runs the
allocator of `BlockAllocator` in it.

What the peer does in the buffer before it is initialized is wiped out: a block
that it has popped by then is handed out again.  `Expansion.Inv` says how far
the initialization has come; where nobody uses the buffer before its end, it
ends in the invariant of the allocator.  Main result: `expansion_safe`.
-/
import MojoRs.Ipcz.BlockAllocatorSafety
import MojoRs.Ipcz.LinkMemory

namespace MojoRs.Ipcz

open Lib

/-! ### The provided buffer -/

/-- A buffer that `register_block_buffer` takes and `pop_block` serves. -/
structure ProvidedBuffer where
  size : Nat
  blockSize : Nat
  min_le : minFragmentSize ≤ blockSize
  aligned : blockSize % 8 = 0
  capacity : minBlockAllocatorCapacity ≤ size / blockSize
  reach : size / blockSize ≤ 2 ^ 15 - 1

namespace ProvidedBuffer

/-- The buffer is one allocator region. -/
def region (B : ProvidedBuffer) : Region where
  numBlocks := B.size / B.blockSize
  one_lt := Nat.lt_of_lt_of_le (by decide) B.capacity
  le_max := B.reach

theorem blockSize_pos (B : ProvidedBuffer) : 0 < B.blockSize :=
  Nat.lt_of_lt_of_le (by decide) B.min_le

theorem registers (B : ProvidedBuffer) (m : BufferRegistry) (id : UInt64) :
    ∃ m', m.registerBlockBuffer id B.size B.blockSize = .ok m' := by
  have hmin := B.min_le
  have haligned := B.aligned
  have hcapacity := B.capacity
  exact ⟨_, (if_neg (by omega)).trans (if_neg (by omega))⟩

/-- The size that `request_block_capacity` asks for. -/
def requestedSize (blockSize : Nat) : Nat :=
  let minBufferSize := blockSize * minBlockAllocatorCapacity
  let numPages := max ((minBufferSize + blockAllocatorPageSize - 1) / blockAllocatorPageSize) 1
  numPages * blockAllocatorPageSize

theorem requestedSize_bounds (blockSize : Nat) :
    blockSize * 8 ≤ requestedSize blockSize ∧ requestedSize blockSize ≤ blockSize * 8 + 65536 := by
  simp only [requestedSize, minBlockAllocatorCapacity, blockAllocatorPageSize]
  omega

/-- What was asked for is a buffer of this kind. -/
def requested (blockSize : Nat) (hmin : minFragmentSize ≤ blockSize)
    (haligned : blockSize % 8 = 0) : ProvidedBuffer where
  size := requestedSize blockSize
  blockSize := blockSize
  min_le := hmin
  aligned := haligned
  capacity := by
    have hmin : 64 ≤ blockSize := hmin
    apply (Nat.le_div_iff_mul_le (by omega)).mpr
    have h := (requestedSize_bounds blockSize).1
    rwa [Nat.mul_comm] at h
  reach := by
    have hmin : 64 ≤ blockSize := hmin
    have h := (requestedSize_bounds blockSize).2
    apply Nat.le_of_lt_succ
    apply (Nat.div_lt_iff_lt_mul (by omega)).mpr
    omega

end ProvidedBuffer

/-! ### Zeroing -/

/-- Byte `i` of a header is set to zero; the bytes from 4 on are not its own. -/
def BlockHeader.zeroByte (h : BlockHeader) : Nat → BlockHeader
  | 0 => { h with version := h.version &&& 0xFF00 }
  | 1 => { h with version := h.version &&& 0x00FF }
  | 2 => { h with next := h.next &&& -0x100 }
  | 3 => { h with next := h.next &&& 0x00FF }
  | _ => h

/-- The first `n` bytes of a block are set to zero. -/
def BlockHeader.zeroUpTo (h : BlockHeader) : Nat → BlockHeader
  | 0 => h
  | n + 1 => (h.zeroUpTo n).zeroByte n

theorem BlockHeader.zeroUpTo_four (h : BlockHeader) : h.zeroUpTo 4 = ⟨0, 0⟩ := by
  have hv : h.version &&& 0xFF00 &&& 0x00FF = 0 := by
    rw [UInt16.and_assoc]
    exact UInt16.and_zero
  have hn : h.next &&& -0x100 &&& 0x00FF = 0 := by
    rw [Int16.and_assoc]
    exact Int16.and_zero
  show BlockHeader.mk (h.version &&& 0xFF00 &&& 0x00FF) (h.next &&& -0x100 &&& 0x00FF) = _
  rw [hv, hn]

theorem BlockHeader.zeroUpTo_of_le (h : BlockHeader) {n : Nat} (hn : 4 ≤ n) :
    h.zeroUpTo n = ⟨0, 0⟩ := by
  induction n, hn using Nat.le_induction with
  | base => exact h.zeroUpTo_four
  | succ n hn ih =>
      obtain ⟨k, rfl⟩ := Nat.exists_eq_add_of_le' hn
      exact ih

/-- The byte at an offset of the mapping is set to zero. -/
def zeroAt (B : ProvidedBuffer) (headers : Headers) (offset : Nat) : Headers := fun b =>
  if b = offset / B.blockSize then (headers b).zeroByte (offset % B.blockSize) else headers b

/-- The bytes of the mapping below an offset are zero. -/
def Zeroed (B : ProvidedBuffer) (offset : Nat) (headers : Headers) : Prop :=
  ∀ b, ∃ h : BlockHeader, headers b = h.zeroUpTo (offset - b * B.blockSize)

variable {B : ProvidedBuffer} {headers : Headers}

theorem zeroed_zero (B : ProvidedBuffer) (headers : Headers) : Zeroed B 0 headers := by
  intro b
  refine ⟨headers b, ?_⟩
  rw [Nat.zero_sub]
  rfl

theorem Zeroed.zeroAt {offset : Nat} (h : Zeroed B offset headers) :
    Zeroed B (offset + 1) (zeroAt B headers offset) := by
  intro b
  obtain ⟨hd, hb⟩ := h b
  have hmin : 64 ≤ B.blockSize := B.min_le
  have hdiv := Nat.div_add_mod' offset B.blockSize
  have hmod := Nat.mod_lt offset B.blockSize_pos
  simp only [Ipcz.zeroAt]
  split
  · next heq =>
      subst heq
      refine ⟨hd, ?_⟩
      rw [hb, show offset - offset / B.blockSize * B.blockSize = offset % B.blockSize by omega,
        show offset + 1 - offset / B.blockSize * B.blockSize = offset % B.blockSize + 1 by omega]
      rfl
  · next hne =>
      rcases Nat.lt_or_gt_of_ne hne with hlt | hgt
      · -- an earlier block, whose header is done
        have hle : (b + 1) * B.blockSize ≤ offset / B.blockSize * B.blockSize :=
          Nat.mul_le_mul_right _ hlt
        rw [Nat.add_mul, Nat.one_mul] at hle
        refine ⟨hd, ?_⟩
        rw [hb, hd.zeroUpTo_of_le (by omega), hd.zeroUpTo_of_le (by omega)]
      · -- a later block, which is not touched yet
        have hle : (offset / B.blockSize + 1) * B.blockSize ≤ b * B.blockSize :=
          Nat.mul_le_mul_right _ hgt
        rw [Nat.add_mul, Nat.one_mul] at hle
        refine ⟨headers b, ?_⟩
        rw [show offset + 1 - b * B.blockSize = 0 by omega]
        rfl

theorem Zeroed.headers_eq {offset b : Nat} (h : Zeroed B offset headers) (hsize : B.size ≤ offset)
    (hb : b < B.region.numBlocks) : headers b = ⟨0, 0⟩ := by
  obtain ⟨hd, heq⟩ := h b
  have hmin : 64 ≤ B.blockSize := B.min_le
  have hle : (b + 1) * B.blockSize ≤ B.size / B.blockSize * B.blockSize :=
    Nat.mul_le_mul_right _ hb
  have hdiv := Nat.div_mul_le_self B.size B.blockSize
  rw [Nat.add_mul, Nat.one_mul] at hle
  rw [heq]
  exact hd.zeroUpTo_of_le (by omega)

/-! ### The two nodes -/

/-- The node that asked for the buffer, and the one at the other end of the
link. -/
inductive Party
  | here
  | peer
  deriving DecidableEq, Repr

/-- Where `on_provide_memory` stands. -/
inductive Phase
  | provided
  | zeroing (offset : Nat)
  | lastVersion
  | lastNext
  | initialized
  | registered
  deriving DecidableEq, Repr

/-- The region is initialized: `InitializeRegion` has come to its end. -/
def Phase.Initialized : Phase → Prop
  | .initialized | .registered => True
  | _ => False

/-- The buffer with the threads of both nodes that use it, and whether the peer
has handled `AddBlockBuffer`. -/
structure Expansion (τ : Type) where
  phase : Phase
  peerAdded : Bool
  alloc : AllocState (Party × τ)

/-- What can happen next: a step of `on_provide_memory`, the peer's
`add_block_buffer`, or a step of the allocator on either side. -/
inductive ExpansionAction (τ : Type)
  | provide
  | addBlockBuffer
  | allocator (a : AllocAction (Party × τ))
  deriving DecidableEq, Repr

/-- The thread that takes a step. -/
def AllocAction.thread {θ : Type} : AllocAction θ → θ
  | .popBlock t | .freeBlock t _ | .run t _ | .write t _ _ | .send t _ _ => t

variable {τ : Type}

namespace Expansion

/-- A buffer as the broker provides it, whatever lies in it. -/
def start (headers : Headers) : Expansion τ :=
  ⟨.provided, false, ⟨headers, fun _ => .idle, [], 0⟩⟩

/-- The next phase, with the block headers written so far. -/
def withHeaders (s : Expansion τ) (phase : Phase) (headers : Headers) : Expansion τ :=
  { s with phase, alloc := { s.alloc with headers } }

/-- The next step of `on_provide_memory`: `AddBlockBuffer` is sent first, and
the rest is `register_block_buffer`. -/
def provide (B : ProvidedBuffer) (s : Expansion τ) : Expansion τ :=
  let last := B.region.numBlocks - 1
  match s.phase with
  | .provided => { s with phase := .zeroing 0 }
  | .zeroing offset =>
      if offset < B.size then
        s.withHeaders (.zeroing (offset + 1)) (zeroAt B s.alloc.headers offset)
      else { s with phase := .lastVersion }
  | .lastVersion =>
      s.withHeaders .lastNext fun b =>
        if b = last then ⟨0, (s.alloc.headers b).next⟩ else s.alloc.headers b
  | .lastNext =>
      s.withHeaders .initialized fun b =>
        if b = last then ⟨(s.alloc.headers b).version, 0 - Int16.ofNat B.region.numBlocks⟩
        else s.alloc.headers b
  | .initialized => { s with phase := .registered }
  | .registered => s

/-- A node uses the buffers of its own pool. -/
def hasBuffer (s : Expansion τ) : Party → Prop
  | .here => s.phase = .registered
  | .peer => s.peerAdded = true

instance (s : Expansion τ) (p : Party) : Decidable (s.hasBuffer p) :=
  match p with
  | .here => inferInstanceAs (Decidable (s.phase = .registered))
  | .peer => inferInstanceAs (Decidable (s.peerAdded = true))

/-- One step of either party. -/
def step [DecidableEq τ] (B : ProvidedBuffer) (s : Expansion τ) : ExpansionAction τ → Expansion τ
  | .provide => s.provide B
  | .addBlockBuffer => if s.phase = .provided then s else { s with peerAdded := true }
  | .allocator a =>
      if s.hasBuffer a.thread.1 then { s with alloc := s.alloc.step B.region a } else s

/-- No block is owned twice, by one node or by both, block 0 is not owned, and
once the region is initialized the free list and the owned blocks are all
blocks but block 0 whenever no operation is in progress. -/
structure Safe (B : ProvidedBuffer) (s : Expansion τ) : Prop where
  once : s.alloc.ownedBlocks.Nodup
  front : 0 ∉ s.alloc.ownedBlocks
  exact : s.phase.Initialized → (∀ t, s.alloc.pc t = .idle) →
    (AllocState.freeList s.alloc.headers B.region.numBlocks 0 ++ s.alloc.ownedBlocks).Perm
      (List.range' 1 (B.region.numBlocks - 1))

/-- A node that has the buffer uses it only when the region is initialized, and
no compare-exchange comes 2^16 updates of the front header after its read. -/
def Allowed (s : Expansion τ) : ExpansionAction τ → Prop
  | .allocator a => s.hasBuffer a.thread.1 → s.phase.Initialized ∧ s.alloc.InWindow a
  | _ => True

/-! ### The invariant -/

/-- Nobody has used the buffer yet. -/
structure Untouched {θ : Type} (s : AllocState θ) : Prop where
  idle : ∀ t, s.pc t = .idle
  owned : s.owned = []
  updates : s.updates = 0

theorem Untouched.ownedBlocks {θ : Type} {s : AllocState θ} (h : Untouched s) :
    s.ownedBlocks = [] := by
  rw [AllocState.ownedBlocks, h.owned]
  rfl

/-- The threads do not see the initialization. -/
theorem Untouched.withHeaders {θ : Type} {s : AllocState θ} (h : Untouched s)
    (headers : Headers) : Untouched { s with headers } := ⟨h.idle, h.owned, h.updates⟩

/-- A region that nobody has used is initialized by what its headers say. -/
theorem Untouched.inv {θ : Type} {s : AllocState θ} (h : Untouched s)
    (hheaders : ∀ b, b < B.region.numBlocks →
      s.headers b = initializeRegion B.region.numBlocks b) :
    ∃ free, s.Inv B.region free := by
  have hinit : (AllocState.init B.region : AllocState θ).Inv B.region _ := .init _
  have hone := B.region.one_lt
  have hzero := hheaders 0 (by omega)
  refine ⟨_, hinit.frame ?_ (hinit.linked.relink ?_ ?_) ?_ ?_ ?_⟩
  · rw [h.ownedBlocks]
    exact .refl _
  · show nextBlock s.headers 0 = nextBlock (initializeRegion _) 0
    rw [nextBlock, nextBlock, hzero]
  · intro b hb
    exact hheaders b (hinit.range b (List.mem_append_left _ hb)).2
  · intro t
    rw [h.idle t]
    rfl
  · have hversion := hinit.version
    rw [hzero, h.updates]
    exact hversion
  · intro t
    rw [h.idle t]
    trivial

/-- How far the initialization has come. -/
def Inv (B : ProvidedBuffer) (s : Expansion τ) : Prop :=
  match s.phase with
  | .provided => Untouched s.alloc
  | .zeroing offset => Untouched s.alloc ∧ Zeroed B offset s.alloc.headers
  | .lastVersion | .lastNext =>
      Untouched s.alloc ∧ ∀ b, b < B.region.numBlocks → s.alloc.headers b = ⟨0, 0⟩
  | .initialized | .registered => ∃ free, s.alloc.Inv B.region free

variable {s : Expansion τ}

theorem Inv.untouched (h : s.Inv B) (hphase : ¬s.phase.Initialized) : Untouched s.alloc := by
  unfold Inv at h
  cases hp : s.phase <;> rw [hp] at h hphase
  case provided => exact h
  case zeroing => exact h.1
  case lastVersion => exact h.1
  case lastNext => exact h.1
  case initialized => exact absurd trivial hphase
  case registered => exact absurd trivial hphase

theorem Inv.alloc_inv (h : s.Inv B) (hphase : s.phase.Initialized) :
    ∃ free, s.alloc.Inv B.region free := by
  unfold Inv at h
  cases hp : s.phase <;> rw [hp] at h hphase
  case initialized => exact h
  case registered => exact h
  all_goals cases hphase

theorem Inv.start (headers : Headers) : (start headers : Expansion τ).Inv B :=
  ⟨fun _ => rfl, rfl, rfl⟩

/-- The region after its last block has been linked back to block 0. -/
theorem lastNext_headers (hzero : ∀ b, b < B.region.numBlocks → headers b = ⟨0, 0⟩) (b : Nat)
    (hb : b < B.region.numBlocks) :
    (if b = B.region.numBlocks - 1 then
      (⟨(headers b).version, 0 - Int16.ofNat B.region.numBlocks⟩ : BlockHeader)
      else headers b) = initializeRegion B.region.numBlocks b := by
  rw [hzero b hb]
  rfl

theorem Inv.provide (h : s.Inv B) : (s.provide B).Inv B := by
  unfold Inv at h
  unfold Expansion.provide
  cases hp : s.phase <;> rw [hp] at h <;> dsimp only at h ⊢
  case provided => exact ⟨h, zeroed_zero B _⟩
  case zeroing offset =>
      obtain ⟨hu, hz⟩ := h
      split
      · exact ⟨hu.withHeaders _, hz.zeroAt⟩
      · next hsize => exact ⟨hu, fun b hb => hz.headers_eq (by omega) hb⟩
  case lastVersion =>
      obtain ⟨hu, hz⟩ := h
      refine ⟨hu.withHeaders _, fun b hb => ?_⟩
      show (if _ then _ else _) = _
      rw [hz b hb]
      split <;> rfl
  case lastNext =>
      obtain ⟨hu, hz⟩ := h
      exact (hu.withHeaders _).inv (lastNext_headers hz)
  case initialized => exact h
  case registered =>
      show Inv B s
      unfold Inv
      rw [hp]
      exact h

theorem Inv.safe (h : s.Inv B) : s.Safe B := by
  by_cases hphase : s.phase.Initialized
  · obtain ⟨free, hi⟩ := h.alloc_inv hphase
    exact ⟨hi.safe.once, hi.safe.front, fun _ => hi.safe.exact⟩
  · have howned := (h.untouched hphase).ownedBlocks
    refine ⟨?_, ?_, fun hinit => absurd hinit hphase⟩
    · rw [howned]
      exact List.nodup_nil
    · rw [howned]
      exact List.not_mem_nil

variable [DecidableEq τ]

/-- Every step within the condition keeps the invariant. -/
theorem Inv.step (h : s.Inv B) (a : ExpansionAction τ) (hallowed : s.Allowed a) :
    (s.step B a).Inv B := by
  cases a with
  | provide => exact h.provide
  | addBlockBuffer =>
      simp only [Expansion.step]
      split
      · exact h
      · exact h
  | allocator a =>
      simp only [Expansion.step]
      split
      · next hhas =>
          obtain ⟨hphase, hwin⟩ := hallowed hhas
          obtain ⟨free, hi⟩ := h.alloc_inv hphase
          have hstep := hi.step a hwin
          unfold Inv
          cases hp : s.phase <;> rw [hp] at hphase
          case initialized => exact hstep
          case registered => exact hstep
          all_goals cases hphase
      · exact h

/-! ### Runs -/

/-- The rest of `on_provide_memory` after the message is sent. -/
theorem exec_zeroing (hphase : s.phase = .zeroing 0) {k : Nat} (hk : k ≤ B.size) :
    ∃ headers, exec (Expansion.step B) s (List.replicate k .provide) =
      s.withHeaders (.zeroing k) headers ∧ Zeroed B k headers := by
  induction k with
  | zero =>
      refine ⟨s.alloc.headers, ?_, zeroed_zero B _⟩
      rw [← hphase]
      rfl
  | succ k ih =>
      obtain ⟨headers, hexec, hzeroed⟩ := ih (by omega)
      refine ⟨zeroAt B headers k, ?_, hzeroed.zeroAt⟩
      rw [List.replicate_succ', exec_append, hexec]
      exact if_pos hk

theorem exec_register (hphase : s.phase = .zeroing 0) :
    ∃ headers, exec (Expansion.step B) s (List.replicate (B.size + 4) .provide) =
      s.withHeaders .registered headers ∧
      ∀ b, b < B.region.numBlocks → headers b = initializeRegion B.region.numBlocks b := by
  obtain ⟨headers, hexec, hzeroed⟩ := exec_zeroing hphase (Nat.le_refl B.size)
  have hzero : ∀ b, b < B.region.numBlocks →
      (if b = B.region.numBlocks - 1 then ⟨0, (headers b).next⟩ else headers b) = ⟨0, 0⟩ := by
    intro b hb
    rw [hzeroed.headers_eq (Nat.le_refl _) hb]
    split <;> rfl
  refine ⟨_, ?_, lastNext_headers hzero⟩
  rw [List.replicate_add, exec_append, hexec]
  have hdone : Expansion.step B (s.withHeaders (.zeroing B.size) headers) .provide =
      s.withHeaders .lastVersion headers := if_neg (Nat.lt_irrefl _)
  show exec (Expansion.step B) (Expansion.step B _ .provide) [.provide, .provide, .provide] = _
  rw [hdone]
  rfl

theorem meets_provide (s : Expansion τ) (k : Nat) :
    Meets (Expansion.step B) Allowed s (List.replicate k .provide) := by
  induction k generalizing s with
  | zero => trivial
  | succ k ih => exact ⟨trivial, ih _⟩

/-- Operations of nodes that have the buffer. -/
theorem exec_allocator {as : List (AllocAction (Party × τ))}
    (has : ∀ a ∈ as, s.hasBuffer a.thread.1) :
    exec (Expansion.step B) s (as.map .allocator) =
      { s with alloc := exec (AllocState.step B.region) s.alloc as } := by
  induction as generalizing s with
  | nil => rfl
  | cons a as ih =>
      have hstep : Expansion.step B s (.allocator a) =
          { s with alloc := s.alloc.step B.region a } := if_pos (has a (by simp))
      rw [List.map_cons, exec_cons, hstep, ih, exec_cons]
      intro a' ha'
      have hhas := has a' (by simp [ha'])
      cases hp : a'.thread.1 <;> rw [hp] at hhas
      · exact hhas
      · exact hhas

theorem meets_allocator {as : List (AllocAction (Party × τ))}
    (has : ∀ a ∈ as, s.hasBuffer a.thread.1) (hphase : s.phase.Initialized)
    (h : Meets (AllocState.step B.region) AllocState.InWindow s.alloc as) :
    Meets (Expansion.step B) Allowed s (as.map .allocator) := by
  induction as generalizing s with
  | nil => trivial
  | cons a as ih =>
      have hstep : Expansion.step B s (.allocator a) =
          { s with alloc := s.alloc.step B.region a } := if_pos (has a (by simp))
      refine ⟨fun _ => ⟨hphase, h.1⟩, ?_⟩
      rw [hstep]
      refine ih ?_ hphase h.2
      intro a' ha'
      have hhas := has a' (by simp [ha'])
      cases hp : a'.thread.1 <;> rw [hp] at hhas
      · exact hhas
      · exact hhas

end Expansion

/-! ### Popping the first block -/

namespace AllocState

variable {θ : Type} [DecidableEq θ] {R : Region} {s : AllocState θ}

/-- A whole `pop_block` that nobody disturbs. -/
def popRun (t : θ) : List (AllocAction θ) :=
  [.popBlock t, .run t false, .run t false, .run t false]

theorem setPc_setPc (s : AllocState θ) (t : θ) (pc pc' : Pc) :
    (s.setPc t pc).setPc t pc' = s.setPc t pc' := by
  simp only [AllocState.setPc, AllocState.mk.injEq, true_and, and_true]
  funext t'
  split <;> rfl

/-- The states of a thread that pops a block of a fresh region. -/
structure PopsFirst (R : Region) (s : AllocState θ) (t : θ) : Prop where
  idle : s.pc t = .idle
  front : s.headers 0 = ⟨0, 0⟩
  first : s.headers 1 = ⟨0, 0⟩
  more : 2 < R.numBlocks

variable {t : θ}

theorem PopsFirst.start (h : s.PopsFirst R t) : s.step R (.popBlock t) = s.setPc t .popRead :=
  if_pos h.idle

theorem PopsFirst.read (h : s.PopsFirst R t) :
    (s.setPc t .popRead).step R (.run t false) = s.setPc t (.popHeader ⟨0, 0⟩ s.updates) := by
  have hloop : popLoop R ⟨0, 0⟩ s.updates = .popHeader ⟨0, 0⟩ s.updates := by
    have hmore := h.more
    have hfirst : firstFree ⟨0, 0⟩ = 1 := rfl
    refine if_neg ?_
    rw [hfirst]
    omega
  simp only [AllocState.step, runThread, setPc_pc_self, setPc_setPc]
  show s.setPc t (popLoop R (s.headers 0) s.updates) = _
  rw [h.front, hloop]

theorem PopsFirst.header (h : s.PopsFirst R t) :
    (s.setPc t (.popHeader ⟨0, 0⟩ s.updates)).step R (.run t false) =
      s.setPc t (.popCas ⟨0, 0⟩ 2 s.updates) := by
  have hnext : nextBlock s.headers 1 = 2 := by
    rw [nextBlock, h.first]
    rfl
  have hmore := h.more
  simp only [AllocState.step, runThread, setPc_pc_self, setPc_setPc]
  show (if nextBlock s.headers 1 < 0 ∨ R.numBlocks ≤ nextBlock s.headers 1 then _ else
    s.setPc t (.popCas ⟨0, 0⟩ (nextBlock s.headers 1).toNat s.updates)) = _
  rw [hnext, if_neg (by omega)]
  rfl

theorem PopsFirst.cas (h : s.PopsFirst R t) :
    ((s.setPc t (.popCas ⟨0, 0⟩ 2 s.updates)).step R (.run t false)).owned =
      (t, 1) :: s.owned := by
  simp only [AllocState.step, runThread, setPc_pc_self, casFrontHeader]
  rw [if_pos ⟨h.front, trivial⟩]
  rfl

theorem PopsFirst.exec_owned (h : s.PopsFirst R t) :
    (exec (AllocState.step R) s (popRun t)).owned = (t, 1) :: s.owned := by
  simp only [popRun, exec_cons, exec_nil, h.start, h.read, h.header, h.cas]

theorem PopsFirst.meets (h : s.PopsFirst R t) :
    Meets (AllocState.step R) InWindow s (popRun t) := by
  have hcas : (s.setPc t (.popCas ⟨0, 0⟩ 2 s.updates)).InWindow (.run t false) := by
    simp only [InWindow, setPc_pc_self]
    show s.updates - s.updates < 2 ^ 16
    omega
  have hread : (s.setPc t .popRead).InWindow (.run t false) := by simp [InWindow]
  have hheader : (s.setPc t (.popHeader ⟨0, 0⟩ s.updates)).InWindow (.run t false) := by
    simp [InWindow]
  refine ⟨trivial, ?_⟩
  rw [h.start]
  refine ⟨hread, ?_⟩
  rw [h.read]
  refine ⟨hheader, ?_⟩
  rw [h.header]
  exact ⟨hcas, trivial⟩

end AllocState

/-! ### Every block is handed out once -/

namespace Expansion

/-- Where no node uses the buffer before it is initialized, every block is
handed out once, whatever the broker has left in it. -/
theorem expansion_safe [DecidableEq τ] (B : ProvidedBuffer) (headers : Headers)
    (actions : List (ExpansionAction τ))
    (h : Meets (Expansion.step B) Allowed (Expansion.start headers) actions) :
    Always (Expansion.step B) (Safe B) (Expansion.start headers) actions := by
  have hstart : (Expansion.start headers : Expansion τ).Inv B := .start headers
  have hstep : ∀ (s : Expansion τ) a, s.Inv B → s.Allowed a → (s.step B a).Inv B :=
    fun _ a hi => hi.step a
  exact (always_of_meets hstep hstart h).imp fun _ hi => hi.safe

/-- A buffer with blocks of 64 bytes. -/
def smallBlocks : ProvidedBuffer := .requested 64 (by decide) (by decide)

/-- The peer takes the buffer at once, and pops a block when it is initialized. -/
def patientRun : List (ExpansionAction Unit) :=
  [.provide, .addBlockBuffer] ++ List.replicate (smallBlocks.size + 4) .provide ++
    (AllocState.popRun (Party.peer, ())).map .allocator

/-- The peer pops a block at once, and this node pops one when it is done. -/
def hastyRun : List (ExpansionAction Unit) :=
  [.provide, .addBlockBuffer] ++ (AllocState.popRun (Party.peer, ())).map .allocator ++
    (List.replicate (smallBlocks.size + 4) .provide ++
      (AllocState.popRun (Party.here, ())).map .allocator)

/-- The peer has the buffer, which happens to be zero. -/
def shared : Expansion Unit := ⟨.zeroing 0, true, ⟨fun _ => ⟨0, 0⟩, fun _ => .idle, [], 0⟩⟩

/-- And it has popped a block. -/
def popped : Expansion Unit :=
  { shared with
    alloc := exec (AllocState.step smallBlocks.region) shared.alloc
      (AllocState.popRun (Party.peer, ())) }

/-- The blocks that are next in line when a region has been initialized. -/
theorem popsFirst_initialized {s : AllocState (Party × Unit)} {t : Party × Unit}
    (hidle : s.pc t = .idle) (h : ∀ b, b < smallBlocks.region.numBlocks →
      s.headers b = initializeRegion smallBlocks.region.numBlocks b) :
    s.PopsFirst smallBlocks.region t where
  idle := hidle
  front := h 0 (by decide)
  first := h 1 (by decide)
  more := by decide

theorem expansion_safe_patient :
    Always (Expansion.step smallBlocks) (Safe smallBlocks) (Expansion.start fun _ => ⟨0, 0⟩)
      patientRun := by
  apply expansion_safe
  obtain ⟨headers, hexec, hheaders⟩ := exec_register (B := smallBlocks) (s := shared) rfl
  refine ⟨trivial, trivial, meets_append.mpr ⟨meets_provide _ _, ?_⟩⟩
  show Meets _ _ (exec (Expansion.step smallBlocks) shared
    (List.replicate (smallBlocks.size + 4) .provide)) _
  rw [hexec]
  refine meets_allocator ?_ trivial (popsFirst_initialized rfl hheaders).meets
  simp [AllocState.popRun, AllocAction.thread, hasBuffer, withHeaders, shared]

/-- Block 1 goes to the peer, and to this node as well. -/
theorem block_handed_out_twice :
    ¬Always (Expansion.step smallBlocks) (Safe smallBlocks) (Expansion.start fun _ => ⟨0, 0⟩)
      hastyRun := by
  intro h
  have honce := h.last.once
  have hpeer : ∀ a ∈ AllocState.popRun (Party.peer, ()), shared.hasBuffer a.thread.1 := by
    simp [AllocState.popRun, AllocAction.thread, hasBuffer, shared]
  have hfirst : shared.alloc.PopsFirst smallBlocks.region (Party.peer, ()) :=
    ⟨rfl, rfl, rfl, by decide⟩
  obtain ⟨headers, hexec, hheaders⟩ := exec_register (B := smallBlocks) (s := popped) rfl
  have hsecond : (popped.withHeaders .registered headers).alloc.PopsFirst smallBlocks.region
      (Party.here, ()) := popsFirst_initialized rfl hheaders
  have hhere : ∀ a ∈ AllocState.popRun (Party.here, ()),
      (popped.withHeaders .registered headers).hasBuffer a.thread.1 := by
    simp [AllocState.popRun, AllocAction.thread, hasBuffer, withHeaders]
  have hpop : exec (Expansion.step smallBlocks) shared
      ((AllocState.popRun (Party.peer, ())).map .allocator) = popped := exec_allocator hpeer
  have hlast : exec (Expansion.step smallBlocks) (Expansion.start fun _ => ⟨0, 0⟩) hastyRun =
      exec (Expansion.step smallBlocks) (popped.withHeaders .registered headers)
        ((AllocState.popRun (Party.here, ())).map .allocator) := by
    rw [hastyRun, exec_append, exec_append, exec_append, ← hexec, ← hpop]
    rfl
  rw [hlast, exec_allocator hhere] at honce
  have howned : (exec (AllocState.step smallBlocks.region)
      (popped.withHeaders .registered headers).alloc (AllocState.popRun (Party.here, ()))).owned =
      [((Party.here, ()), 1), ((Party.peer, ()), 1)] := by
    rw [hsecond.exec_owned]
    exact congrArg _ hfirst.exec_owned
  simp [AllocState.ownedBlocks, howned] at honce

end Expansion

end MojoRs.Ipcz
