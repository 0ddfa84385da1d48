/-
MojoRs/Lib/Bytes.lean

Little-endian numbers in byte lists.  `toLE w n` are the `w` low bytes of
`n`, `ofLE` the number that a list of bytes denotes; `readLE bs pos w` reads
a number of `w` bytes at a position.  A value that fits its width is read back
(`ofLE_toLE`), and so is one that stands inside a longer list
(`readLE_append`).  Records are written field by field: `leU64` and the like
are the bytes of a field, `getU64` and the like read it back, whatever stands
before and after it.
-/
import Mathlib.Algebra.Ring.Nat

namespace MojoRs.Lib

/-- The `w` low bytes of `n`, least significant first. -/
def toLE : Nat → Nat → List UInt8
  | 0, _ => []
  | w + 1, n => UInt8.ofNat n :: toLE w (n / 256)

/-- The number that `bs` denotes. -/
def ofLE : List UInt8 → Nat
  | [] => 0
  | b :: bs => b.toNat + 256 * ofLE bs

/-- The number of `w` bytes at `pos`. -/
def readLE (bs : List UInt8) (pos w : Nat) : Nat := ofLE ((bs.drop pos).take w)

@[simp] theorem length_toLE (w n : Nat) : (toLE w n).length = w := by
  induction w generalizing n with
  | zero => rfl
  | succ w ih => rw [toLE, List.length_cons, ih]

theorem ofLE_lt (bs : List UInt8) : ofLE bs < 256 ^ bs.length := by
  induction bs with
  | nil => exact Nat.one_pos
  | cons b bs ih =>
      have hb := b.toNat_lt
      rw [ofLE, List.length_cons, Nat.pow_succ]
      omega

/-- A number that fits comes back. -/
theorem ofLE_toLE {w n : Nat} (h : n < 256 ^ w) : ofLE (toLE w n) = n := by
  induction w generalizing n with
  | zero =>
      rw [Nat.pow_zero] at h
      rw [toLE, ofLE]
      omega
  | succ w ih =>
      rw [Nat.pow_succ] at h
      rw [toLE, ofLE, ih (by omega), UInt8.toNat_ofNat']
      omega

theorem readLE_lt (bs : List UInt8) (off w : Nat) : readLE bs off w < 256 ^ w :=
  Nat.lt_of_lt_of_le (ofLE_lt _) (Nat.pow_le_pow_right (by decide) (List.length_take_le _ _))

/-- A number read where it was put. -/
theorem readLE_append {w n : Nat} (pre post : List UInt8) (h : n < 256 ^ w) :
    readLE (pre ++ (toLE w n ++ post)) pre.length w = n := by
  rw [readLE, List.drop_left, List.take_left' (length_toLE w n), ofLE_toLE h]

/-- The number that some bytes denote has these bytes. -/
theorem toLE_ofLE (bs : List UInt8) : toLE bs.length (ofLE bs) = bs := by
  induction bs with
  | nil => rfl
  | cons b bs ih =>
      have hb := b.toNat_lt
      have hdiv : (b.toNat + 256 * ofLE bs) / 256 = ofLE bs := by omega
      have hmod : UInt8.ofNat (b.toNat + 256 * ofLE bs) = b := by
        apply UInt8.toNat_inj.mp
        rw [UInt8.toNat_ofNat']
        omega
      rw [List.length_cons, ofLE, toLE, hdiv, hmod, ih]

/-- A number that is read has the bytes it was read from. -/
theorem toLE_readLE {bs : List UInt8} {pos w : Nat} (h : pos + w ≤ bs.length) :
    toLE w (readLE bs pos w) = (bs.drop pos).take w := by
  have hlen : ((bs.drop pos).take w).length = w := by
    rw [List.length_take, List.length_drop]
    omega
  have hbytes := toLE_ofLE ((bs.drop pos).take w)
  rwa [hlen] at hbytes

/-- A number read byte by byte. -/
theorem readLE_succ (bs : List UInt8) (pos w : Nat) :
    readLE bs pos (w + 1) = readLE bs pos 1 + 256 * readLE bs (pos + 1) w := by
  rw [readLE, readLE, readLE, ← List.drop_drop]
  cases bs.drop pos with
  | nil => simp [ofLE]
  | cons b bs => rfl

/-- Reading looks at no more than the bytes up to its end. -/
theorem readLE_take {bs : List UInt8} {pos w k : Nat} (h : pos + w ≤ k) :
    readLE (bs.take k) pos w = readLE bs pos w := by
  rw [readLE, readLE, List.drop_take, List.take_take, Nat.min_eq_left (by omega)]

/-- Reading skips what stands before the position. -/
theorem readLE_skip {pre : List UInt8} {pos w : Nat} (bs : List UInt8) (h : pre.length ≤ pos) :
    readLE (pre ++ bs) pos w = readLE bs (pos - pre.length) w := by
  rw [readLE, readLE, List.drop_append, List.drop_of_length_le h, List.nil_append]

/-! ### Fields of a record -/

section Fields

/-- Two bytes, the lowest first. -/
def leU16 (n : UInt16) : List UInt8 := toLE 2 n.toNat

/-- Four bytes, the lowest first. -/
def leU32 (n : UInt32) : List UInt8 := toLE 4 n.toNat

/-- Eight bytes, the lowest first. -/
def leU64 (n : UInt64) : List UInt8 := toLE 8 n.toNat

/-- Two bytes at `pos`. -/
def getU16 (bs : List UInt8) (pos : Nat) : UInt16 := UInt16.ofNat (readLE bs pos 2)

/-- Four bytes at `pos`. -/
def getU32 (bs : List UInt8) (pos : Nat) : UInt32 := UInt32.ofNat (readLE bs pos 4)

/-- Eight bytes at `pos`. -/
def getU64 (bs : List UInt8) (pos : Nat) : UInt64 := UInt64.ofNat (readLE bs pos 8)

@[simp] theorem length_leU16 (n : UInt16) : (leU16 n).length = 2 := length_toLE ..

@[simp] theorem length_leU32 (n : UInt32) : (leU32 n).length = 4 := length_toLE ..

@[simp] theorem length_leU64 (n : UInt64) : (leU64 n).length = 8 := length_toLE ..

variable {pre bs : List UInt8} {pos : Nat}

theorem getU16_skip (h : pre.length ≤ pos) : getU16 (pre ++ bs) pos = getU16 bs (pos - pre.length) :=
  congrArg UInt16.ofNat (readLE_skip bs h)

theorem getU32_skip (h : pre.length ≤ pos) : getU32 (pre ++ bs) pos = getU32 bs (pos - pre.length) :=
  congrArg UInt32.ofNat (readLE_skip bs h)

theorem getU64_skip (h : pre.length ≤ pos) : getU64 (pre ++ bs) pos = getU64 bs (pos - pre.length) :=
  congrArg UInt64.ofNat (readLE_skip bs h)

@[simp] theorem getU16_leU16 (n : UInt16) (bs : List UInt8) : getU16 (leU16 n ++ bs) 0 = n := by
  have hread : readLE (toLE 2 n.toNat ++ bs) 0 2 = n.toNat :=
    readLE_append [] bs (Nat.lt_of_lt_of_le n.toNat_lt (by decide))
  rw [getU16, leU16, hread, UInt16.ofNat_toNat]

@[simp] theorem getU32_leU32 (n : UInt32) (bs : List UInt8) : getU32 (leU32 n ++ bs) 0 = n := by
  have hread : readLE (toLE 4 n.toNat ++ bs) 0 4 = n.toNat :=
    readLE_append [] bs (Nat.lt_of_lt_of_le n.toNat_lt (by decide))
  rw [getU32, leU32, hread, UInt32.ofNat_toNat]

@[simp] theorem getU64_leU64 (n : UInt64) (bs : List UInt8) : getU64 (leU64 n ++ bs) 0 = n := by
  have hread : readLE (toLE 8 n.toNat ++ bs) 0 8 = n.toNat :=
    readLE_append [] bs (Nat.lt_of_lt_of_le n.toNat_lt (by decide))
  rw [getU64, leU64, hread, UInt64.ofNat_toNat]

/-- A field that is read has the bytes it was read from. -/
theorem leU64_getU64 (h : pos + 8 ≤ bs.length) : leU64 (getU64 bs pos) = (bs.drop pos).take 8 := by
  have hlt : readLE bs pos 8 < 2 ^ 64 := readLE_lt bs pos 8
  rw [leU64, getU64, UInt64.toNat_ofNat_of_lt' hlt, toLE_readLE h]

theorem leU32_getU32 (h : pos + 4 ≤ bs.length) : leU32 (getU32 bs pos) = (bs.drop pos).take 4 := by
  have hlt : readLE bs pos 4 < 2 ^ 32 := readLE_lt bs pos 4
  rw [leU32, getU32, UInt32.toNat_ofNat_of_lt' hlt, toLE_readLE h]

end Fields

/-! ### Chunks -/

/-- The first `n` chunks of `k` elements. -/
def chunks {α : Type} (k : Nat) : Nat → List α → List (List α)
  | 0, _ => []
  | n + 1, l => l.take k :: chunks k n (l.drop k)

/-- A list cut into chunks of `k` elements, without a shorter rest. -/
def chunksExact {α : Type} (k : Nat) (l : List α) : List (List α) := chunks k (l.length / k) l

theorem chunks_flatten {α : Type} {k : Nat} {ls : List (List α)} (h : ∀ l ∈ ls, l.length = k) :
    chunks k ls.length ls.flatten = ls := by
  induction ls with
  | nil => rfl
  | cons l ls ih =>
      rw [List.forall_mem_cons] at h
      show (l ++ ls.flatten).take k :: chunks k ls.length ((l ++ ls.flatten).drop k) = l :: ls
      rw [List.take_left' h.1, List.drop_left' h.1, ih h.2]

theorem length_flatten_of_forall {α : Type} {k : Nat} {ls : List (List α)}
    (h : ∀ l ∈ ls, l.length = k) : ls.flatten.length = ls.length * k := by
  induction ls with
  | nil => exact (Nat.zero_mul k).symm
  | cons l ls ih =>
      rw [List.forall_mem_cons] at h
      rw [List.flatten_cons, List.length_append, ih h.2, h.1, List.length_cons, Nat.succ_mul,
        Nat.add_comm]

/-- Chunks of one length come apart again. -/
theorem chunksExact_flatten {α : Type} {k : Nat} {ls : List (List α)} (hk : 0 < k)
    (h : ∀ l ∈ ls, l.length = k) : chunksExact k ls.flatten = ls := by
  rw [chunksExact, length_flatten_of_forall h, Nat.mul_div_cancel _ hk, chunks_flatten h]

/-- The chunks of a whole number of them make up the list. -/
theorem flatten_chunksExact {α : Type} {k : Nat} {l : List α} (h : k ∣ l.length) :
    (chunksExact k l).flatten = l := by
  obtain ⟨n, hn⟩ := h
  have hchunks : ∀ n l, l.length = k * n → (chunks k n l : List (List α)).flatten = l := by
    intro n
    induction n with
    | zero => exact fun l hl => (List.eq_nil_of_length_eq_zero hl).symm
    | succ n ih =>
        intro l hl
        have hrest : (l.drop k).length = k * n := by
          rw [List.length_drop, hl, Nat.mul_succ, Nat.add_sub_cancel]
        rw [chunks, List.flatten_cons, ih _ hrest, List.take_append_drop]
  rcases Nat.eq_zero_or_pos k with rfl | hk
  · rw [Nat.zero_mul] at hn
    rw [List.eq_nil_of_length_eq_zero hn, chunksExact, Nat.div_zero]
    rfl
  · exact hchunks _ l (hn.trans (by rw [hn, Nat.mul_div_cancel_left n hk]))

theorem exists_of_mem_chunks {α : Type} {k n : Nat} {l c : List α} (h : c ∈ chunks k n l) :
    ∃ i < n, c = (l.drop (k * i)).take k := by
  induction n generalizing l with
  | zero => exact absurd h List.not_mem_nil
  | succ n ih =>
      rcases List.mem_cons.mp h with rfl | h
      · exact ⟨0, Nat.succ_pos n, rfl⟩
      · obtain ⟨i, hi, rfl⟩ := ih h
        refine ⟨i + 1, Nat.succ_lt_succ hi, ?_⟩
        rw [List.drop_drop, Nat.mul_succ, Nat.add_comm k]

/-- Where a chunk of a list stands. -/
theorem exists_of_mem_chunksExact {α : Type} {k : Nat} {l c : List α} (h : c ∈ chunksExact k l) :
    ∃ i, k * i + k ≤ l.length ∧ c = (l.drop (k * i)).take k := by
  obtain ⟨i, hi, hc⟩ := exists_of_mem_chunks h
  refine ⟨i, ?_, hc⟩
  calc k * i + k = k * (i + 1) := (Nat.mul_succ k i).symm
    _ ≤ k * (l.length / k) := Nat.mul_le_mul_left k hi
    _ ≤ l.length := Nat.mul_div_le l.length k

theorem length_of_mem_chunksExact {α : Type} {k : Nat} {l c : List α} (h : c ∈ chunksExact k l) :
    c.length = k := by
  obtain ⟨i, hi, rfl⟩ := exists_of_mem_chunksExact h
  rw [List.length_take, List.length_drop]
  omega

end MojoRs.Lib
