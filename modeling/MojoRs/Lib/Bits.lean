/-
MojoRs/Lib/Bits.lean

Byte buffers that grow while they are written in place, seen bit by bit.  Bit
`p` of a buffer is bit `p % 8` of byte `p / 8`; bits beyond the end are zero,
so that growing a buffer by zeros changes no bit.

* `SameBits lo hi a b` — the two buffers agree on the bits from `lo` to `hi`;
* `Keeps lo hi a b` — `b` comes from `a` by writing inside `[lo, hi)` and by
  appending.

Writers are described by `Keeps`, and readers by what they return on every
buffer that has the `SameBits` as the written one.
-/
import Mathlib.Data.Nat.Bitwise
import Mathlib.Data.List.Basic
import MojoRs.Lib.Bytes

namespace MojoRs.Lib

/-! ### Writing -/

/-- A buffer of at least `n` bytes, filled up with zeros. -/
def growTo (buf : List UInt8) (n : Nat) : List UInt8 :=
  buf ++ List.replicate (n - buf.length) 0

/-- `bs` written at `off`, over what is there. -/
def putBytes (buf : List UInt8) (off : Nat) (bs : List UInt8) : List UInt8 :=
  buf.take off ++ (bs ++ buf.drop (off + bs.length))

/-- One bit of byte `off` set or cleared. -/
def putBit (buf : List UInt8) (off bit : Nat) (b : Bool) : List UInt8 :=
  let mask : UInt8 := 1 <<< UInt8.ofNat bit
  buf.modify off fun byte => if b then byte ||| mask else byte &&& ~~~mask

/-- Bit `p` of a buffer. -/
def bitAt (buf : List UInt8) (p : Nat) : Bool := (buf.getD (p / 8) 0).toNat.testBit (p % 8)

@[simp] theorem length_growTo (buf : List UInt8) (n : Nat) :
    (growTo buf n).length = max buf.length n := by
  rw [growTo, List.length_append, List.length_replicate]
  omega

theorem growTo_of_le {buf : List UInt8} {n : Nat} (h : n ≤ buf.length) : growTo buf n = buf := by
  rw [growTo, Nat.sub_eq_zero_of_le h, List.replicate_zero, List.append_nil]

theorem length_putBytes {buf : List UInt8} {off : Nat} {bs : List UInt8}
    (h : off + bs.length ≤ buf.length) : (putBytes buf off bs).length = buf.length := by
  simp only [putBytes, List.length_append, List.length_take, List.length_drop]
  omega

@[simp] theorem length_putBit (buf : List UInt8) (off bit : Nat) (b : Bool) :
    (putBit buf off bit b).length = buf.length := List.length_modify ..

/-! ### Single bits -/

theorem bitAt_of_le {buf : List UInt8} {p : Nat} (h : 8 * buf.length ≤ p) :
    bitAt buf p = false := by
  rw [bitAt, List.getD_eq_default _ _ (by omega)]
  exact Nat.zero_testBit _

@[simp] theorem bitAt_growTo (buf : List UInt8) (n p : Nat) :
    bitAt (growTo buf n) p = bitAt buf p := by
  rcases Nat.lt_or_ge (p / 8) buf.length with h | h
  · rw [bitAt, growTo, List.getD_append _ _ _ _ h, bitAt]
  · rw [bitAt_of_le (by omega : 8 * buf.length ≤ p), bitAt, growTo,
      List.getD_append_right _ _ _ _ h]
    rcases Nat.lt_or_ge (p / 8 - buf.length) (n - buf.length) with hlt | hge
    · rw [List.getD_replicate _ hlt]
      exact Nat.zero_testBit _
    · rw [List.getD_eq_default _ _ (by rwa [List.length_replicate])]
      exact Nat.zero_testBit _

theorem bitAt_putBytes {buf : List UInt8} {off : Nat} {bs : List UInt8}
    (h : off + bs.length ≤ buf.length) (p : Nat) :
    bitAt (putBytes buf off bs) p =
      if 8 * off ≤ p ∧ p < 8 * (off + bs.length) then bitAt bs (p - 8 * off)
      else bitAt buf p := by
  have hlen : (buf.take off).length = off := by
    rw [List.length_take]
    omega
  rw [bitAt, putBytes]
  split
  · rename_i hp
    rw [List.getD_append_right _ _ _ _ (by omega), hlen, List.getD_append _ _ _ _ (by omega),
      bitAt, show p / 8 - off = (p - 8 * off) / 8 by omega,
      show p % 8 = (p - 8 * off) % 8 by omega]
  · rename_i hp
    rcases Nat.lt_or_ge (p / 8) off with hlt | hge
    · rw [List.getD_append _ _ _ _ (by omega), bitAt]
      simp only [List.getD_eq_getElem?_getD, List.getElem?_take_of_lt hlt]
    · rw [List.getD_append_right _ _ _ _ (by omega), hlen,
        List.getD_append_right _ _ _ _ (by omega), bitAt]
      simp only [List.getD_eq_getElem?_getD, List.getElem?_drop]
      rw [show off + bs.length + (p / 8 - off - bs.length) = p / 8 by omega]

theorem testBit_mask : ∀ bit < 8, ∀ i < 8,
    ((1 : UInt8) <<< UInt8.ofNat bit).toNat.testBit i = decide (i = bit) := by decide

theorem testBit_not_mask : ∀ bit < 8, ∀ i < 8,
    (~~~((1 : UInt8) <<< UInt8.ofNat bit)).toNat.testBit i = !decide (i = bit) := by decide

theorem bitAt_putBit {buf : List UInt8} {off bit : Nat} (b : Bool) (h : off < buf.length)
    (hb : bit < 8) (p : Nat) :
    bitAt (putBit buf off bit b) p = if p = 8 * off + bit then b else bitAt buf p := by
  have hi : p % 8 < 8 := Nat.mod_lt _ (by decide)
  rw [bitAt, bitAt, putBit, List.getD_eq_getElem?_getD, List.getD_eq_getElem?_getD,
    List.getElem?_modify]
  rcases Nat.lt_trichotomy off (p / 8) with hp | hp | hp
  · have hne : p ≠ 8 * off + bit := by omega
    simp only [hp.ne, hne, if_false, id_map']
  · have hlt : p / 8 < buf.length := hp ▸ h
    have hiff : (p = 8 * (p / 8) + bit) ↔ (p % 8 = bit) := by omega
    simp only [hp, if_true, List.getElem?_eq_getElem hlt, Option.map_eq_map, Option.map_some,
      Option.getD_some]
    rw [if_congr hiff rfl rfl]
    cases b with
    | true =>
        rw [if_pos rfl, UInt8.toNat_or, Nat.testBit_or, testBit_mask bit hb _ hi]
        by_cases hbit : p % 8 = bit <;> simp [hbit]
    | false =>
        rw [if_neg Bool.false_ne_true, UInt8.toNat_and, Nat.testBit_and,
          testBit_not_mask bit hb _ hi]
        by_cases hbit : p % 8 = bit <;> simp [hbit]
  · have hne : p ≠ 8 * off + bit := by omega
    simp only [hp.ne', hne, if_false, id_map']

/-! ### Buffers that agree -/

/-- The buffers agree on the bits `lo, …, hi - 1`. -/
def SameBits (lo hi : Nat) (a b : List UInt8) : Prop :=
  ∀ p, lo ≤ p → p < hi → bitAt a p = bitAt b p

/-- `b` comes from `a` by writing inside the bits `lo, …, hi - 1` and by
appending. -/
structure Keeps (lo hi : Nat) (a b : List UInt8) : Prop where
  length_le : a.length ≤ b.length
  same : ∀ p, p < 8 * a.length → p < lo ∨ hi ≤ p → bitAt b p = bitAt a p

theorem SameBits.refl (lo hi : Nat) (a : List UInt8) : SameBits lo hi a a := fun _ _ _ => rfl

theorem SameBits.trans {lo hi : Nat} {a b c : List UInt8} (h : SameBits lo hi a b)
    (h' : SameBits lo hi b c) : SameBits lo hi a c :=
  fun p h₁ h₂ => (h p h₁ h₂).trans (h' p h₁ h₂)

theorem SameBits.mono {lo hi lo' hi' : Nat} {a b : List UInt8} (h : SameBits lo hi a b)
    (hlo : lo ≤ lo') (hhi : hi' ≤ hi) : SameBits lo' hi' a b :=
  fun p h₁ h₂ => h p (by omega) (by omega)

theorem Keeps.refl (lo hi : Nat) (a : List UInt8) : Keeps lo hi a a :=
  ⟨Nat.le_refl _, fun _ _ _ => rfl⟩

/-- Writers compose: the slot of the composition is any interval that holds
the two slots, apart from what the first one has appended. -/
theorem Keeps.trans {lo hi lo' hi' : Nat} {a b c : List UInt8} (h : Keeps lo hi a b)
    (h' : Keeps lo' hi' b c) (hslot : 8 * a.length ≤ lo' ∨ lo ≤ lo' ∧ hi' ≤ hi) :
    Keeps lo hi a c where
  length_le := Nat.le_trans h.length_le h'.length_le
  same := by
    intro p hp hout
    have hb := h.length_le
    rw [h'.same p (by omega) (by omega), h.same p hp hout]

theorem Keeps.mono {lo hi lo' hi' : Nat} {a b : List UInt8} (h : Keeps lo hi a b)
    (hlo : lo' ≤ lo) (hhi : hi ≤ hi') : Keeps lo' hi' a b :=
  ⟨h.length_le, fun p hp hout => h.same p hp (by omega)⟩

/-- A buffer keeps what stands outside the slot of a later writer. -/
theorem Keeps.sameBits {lo hi s e : Nat} {a b : List UInt8} (h : Keeps lo hi a b)
    (he : e ≤ 8 * a.length) (hout : e ≤ lo ∨ hi ≤ s) : SameBits s e b a :=
  fun p h₁ h₂ => h.same p (by omega) (by omega)

theorem keeps_growTo (lo hi : Nat) (buf : List UInt8) (n : Nat) :
    Keeps lo hi buf (growTo buf n) :=
  ⟨by rw [length_growTo]; omega, fun p _ _ => bitAt_growTo buf n p⟩

theorem keeps_putBytes {buf : List UInt8} {off : Nat} {bs : List UInt8}
    (h : off + bs.length ≤ buf.length) :
    Keeps (8 * off) (8 * (off + bs.length)) buf (putBytes buf off bs) where
  length_le := (length_putBytes h).ge
  same := by
    intro p _ hout
    rw [bitAt_putBytes h, if_neg (by omega)]

theorem keeps_putBit {buf : List UInt8} {off bit : Nat} (b : Bool) (h : off < buf.length)
    (hb : bit < 8) : Keeps (8 * off + bit) (8 * off + bit + 1) buf (putBit buf off bit b) where
  length_le := (length_putBit ..).ge
  same := by
    intro p _ hout
    rw [bitAt_putBit b h hb, if_neg (by omega)]

/-! ### Reading -/

/-- Bytes that agree bit by bit are equal. -/
theorem getD_eq_of_sameBits {a b : List UInt8} {i : Nat}
    (h : SameBits (8 * i) (8 * (i + 1)) a b) : a.getD i 0 = b.getD i 0 := by
  apply UInt8.toNat_inj.mp
  apply Nat.eq_of_testBit_eq
  intro j
  rcases Nat.lt_or_ge j 8 with hj | hj
  · have hbit := h (8 * i + j) (by omega) (by omega)
    rw [bitAt, bitAt, show (8 * i + j) / 8 = i by omega, show (8 * i + j) % 8 = j by omega]
      at hbit
    exact hbit
  · have hpow : (2 : Nat) ^ 8 ≤ 2 ^ j := Nat.pow_le_pow_right (by decide) hj
    have ha := (a.getD i 0).toNat_lt
    have hb := (b.getD i 0).toNat_lt
    rw [Nat.testBit_lt_two_pow (by omega), Nat.testBit_lt_two_pow (by omega)]

/-- A slice of a buffer is determined by its bits. -/
theorem slice_eq_of_sameBits {a b : List UInt8} {off n : Nat} (ha : off + n ≤ a.length)
    (hb : off + n ≤ b.length) (h : SameBits (8 * off) (8 * (off + n)) a b) :
    (a.drop off).take n = (b.drop off).take n := by
  apply List.ext_getElem?
  intro i
  rcases Nat.lt_or_ge i n with hi | hi
  · have hmono : SameBits (8 * (off + i)) (8 * (off + i + 1)) a b :=
      h.mono (by omega) (by omega)
    have hbyte := getD_eq_of_sameBits hmono
    rw [List.getD_eq_getElem?_getD, List.getD_eq_getElem?_getD,
      List.getElem?_eq_getElem (by omega : off + i < a.length),
      List.getElem?_eq_getElem (by omega : off + i < b.length)] at hbyte
    rw [List.getElem?_take_of_lt hi, List.getElem?_take_of_lt hi, List.getElem?_drop,
      List.getElem?_drop, List.getElem?_eq_getElem (by omega : off + i < a.length),
      List.getElem?_eq_getElem (by omega : off + i < b.length)]
    exact congrArg some hbyte
  · rw [List.getElem?_eq_none (by rw [List.length_take]; omega),
      List.getElem?_eq_none (by rw [List.length_take]; omega)]

/-- The slice that was written. -/
theorem slice_putBytes {buf : List UInt8} {off : Nat} {bs : List UInt8}
    (h : off + bs.length ≤ buf.length) :
    ((putBytes buf off bs).drop off).take bs.length = bs := by
  have hlen : (buf.take off).length = off := by
    rw [List.length_take]
    omega
  rw [putBytes, List.drop_left' hlen, List.take_left]

/-- What a slice holds in every buffer that agrees with the written one. -/
theorem slice_of_put {buf m : List UInt8} {off : Nat} {bs : List UInt8}
    (h : off + bs.length ≤ buf.length) (hm : off + bs.length ≤ m.length)
    (hs : SameBits (8 * off) (8 * (off + bs.length)) m (putBytes buf off bs)) :
    (m.drop off).take bs.length = bs := by
  rw [slice_eq_of_sameBits hm (by rw [length_putBytes h]; exact h) hs, slice_putBytes h]

/-- The number read where it was written. -/
theorem readLE_of_put {buf m : List UInt8} {off w n : Nat} (h : off + w ≤ buf.length)
    (hm : off + w ≤ m.length) (hn : n < 256 ^ w)
    (hs : SameBits (8 * off) (8 * (off + w)) m (putBytes buf off (toLE w n))) :
    readLE m off w = n := by
  have hlen := length_toLE w n
  have hslice := @slice_of_put buf m off (toLE w n) (hlen.symm ▸ h) (hlen.symm ▸ hm)
    (hlen.symm ▸ hs)
  rw [length_toLE] at hslice
  rw [readLE, hslice, ofLE_toLE hn]

/-- Bytes of zeros denote zero. -/
theorem ofLE_eq_zero {bs : List UInt8} (h : ∀ b ∈ bs, b = 0) : ofLE bs = 0 := by
  induction bs with
  | nil => rfl
  | cons b bs ih =>
      rw [ofLE, h b List.mem_cons_self, ih fun c hc => h c (List.mem_cons_of_mem _ hc)]
      rfl

/-- The number read where all bits are zero. -/
theorem readLE_of_zero {m : List UInt8} {off w : Nat}
    (h : ∀ p, 8 * off ≤ p → p < 8 * (off + w) → bitAt m p = false) : readLE m off w = 0 := by
  apply ofLE_eq_zero
  intro b hb
  obtain ⟨i, hi, rfl⟩ := List.mem_iff_getElem.mp hb
  rw [List.length_take, List.length_drop] at hi
  have hzero : SameBits (8 * (off + i)) (8 * (off + i + 1)) m [] := by
    intro p h₁ h₂
    rw [h p (by omega) (by omega), bitAt_of_le (by simp)]
  have hbyte := getD_eq_of_sameBits hzero
  rw [List.getD_eq_getElem?_getD, List.getElem?_eq_getElem (by omega : off + i < m.length)]
    at hbyte
  rw [List.getElem_take, List.getElem_drop]
  exact hbyte

/-- A single bit, as a reader extracts it from its byte. -/
theorem testBit_eq_bitAt {m : List UInt8} {off bit : Nat} {byte : UInt8}
    (h : m[off]? = some byte) (hb : bit < 8) :
    ((byte >>> UInt8.ofNat bit) &&& 1 != 0) = bitAt m (8 * off + bit) := by
  rw [bitAt, List.getD_eq_getElem?_getD, show (8 * off + bit) / 8 = off by omega, h,
    show (8 * off + bit) % 8 = bit by omega, Option.getD_some]
  have hone : byte >>> UInt8.ofNat bit &&& 1 = if byte.toNat.testBit bit then 1 else 0 := by
    apply UInt8.toNat_inj.mp
    rw [UInt8.toNat_and, UInt8.toNat_shiftRight, UInt8.toNat_ofNat',
      Nat.mod_eq_of_lt (by omega : bit % 2 ^ 8 < 8), Nat.mod_eq_of_lt (by omega : bit < 2 ^ 8)]
    rw [show (1 : UInt8).toNat = 1 from rfl, Nat.and_one_is_mod, Nat.testBit,
      Nat.one_and_eq_mod_two]
    rcases Nat.mod_two_eq_zero_or_one (byte.toNat >>> bit) with h | h <;> rw [h] <;> rfl
  rw [hone]
  cases byte.toNat.testBit bit <;> rfl

/-! ### Several numbers -/

/-- Numbers of `w` bytes, each written at its offset. -/
def putNumbers (w : Nat) : List UInt8 → List (Nat × Nat) → List UInt8
  | buf, [] => buf
  | buf, (off, n) :: rest => putNumbers w (putBytes buf off (toLE w n)) rest

theorem keeps_putLE {buf : List UInt8} {off w : Nat} (n : Nat) (h : off + w ≤ buf.length) :
    Keeps (8 * off) (8 * (off + w)) buf (putBytes buf off (toLE w n)) := by
  have hlen := length_toLE w n
  have hkeep := @keeps_putBytes buf off (toLE w n) (hlen.symm ▸ h)
  rwa [hlen] at hkeep

theorem length_putNumbers {w : Nat} {buf : List UInt8} {numbers : List (Nat × Nat)}
    (h : ∀ p ∈ numbers, p.1 + w ≤ buf.length) :
    (putNumbers w buf numbers).length = buf.length := by
  induction numbers generalizing buf with
  | nil => rfl
  | cons p rest ih =>
      rw [List.forall_mem_cons] at h
      have hlen : (putBytes buf p.1 (toLE w p.2)).length = buf.length :=
        length_putBytes (by rw [length_toLE]; exact h.1)
      exact (ih (fun q hq => hlen.symm ▸ h.2 q hq)).trans hlen

/-- Numbers keep what stands beside them. -/
theorem sameBits_putNumbers {w s e : Nat} {buf : List UInt8} {numbers : List (Nat × Nat)}
    (h : ∀ p ∈ numbers, p.1 + w ≤ buf.length)
    (hout : ∀ p ∈ numbers, e ≤ 8 * p.1 ∨ 8 * (p.1 + w) ≤ s) (he : e ≤ 8 * buf.length) :
    SameBits s e (putNumbers w buf numbers) buf := by
  induction numbers generalizing buf with
  | nil => exact SameBits.refl s e buf
  | cons p rest ih =>
      rw [List.forall_mem_cons] at h hout
      have hlen : (putBytes buf p.1 (toLE w p.2)).length = buf.length :=
        length_putBytes (by rw [length_toLE]; exact h.1)
      exact (ih (fun q hq => hlen.symm ▸ h.2 q hq) hout.2 (hlen.symm ▸ he)).trans
        ((keeps_putLE p.2 h.1).sameBits he hout.1)

/-- Numbers that do not overlap are read back. -/
theorem readLE_putNumbers {w : Nat} {buf m : List UInt8} {numbers : List (Nat × Nat)}
    (h : ∀ p ∈ numbers, p.1 + w ≤ buf.length ∧ p.2 < 256 ^ w)
    (hpair : numbers.Pairwise fun p q => p.1 + w ≤ q.1 ∨ q.1 + w ≤ p.1) {p : Nat × Nat}
    (hp : p ∈ numbers) (hm : p.1 + w ≤ m.length)
    (hs : SameBits (8 * p.1) (8 * (p.1 + w)) m (putNumbers w buf numbers)) :
    readLE m p.1 w = p.2 := by
  induction numbers generalizing buf with
  | nil => exact nomatch hp
  | cons q rest ih =>
      rw [List.forall_mem_cons] at h
      rw [List.pairwise_cons] at hpair
      have hlen : (putBytes buf q.1 (toLE w q.2)).length = buf.length :=
        length_putBytes (by rw [length_toLE]; exact h.1.1)
      have hrest : ∀ r ∈ rest, r.1 + w ≤ (putBytes buf q.1 (toLE w q.2)).length ∧
          r.2 < 256 ^ w := fun r hr => hlen.symm ▸ h.2 r hr
      rcases List.mem_cons.mp hp with rfl | hp
      · refine readLE_of_put h.1.1 hm h.1.2 (hs.trans (sameBits_putNumbers
          (fun r hr => (hrest r hr).1) (fun r hr => ?_) (by rw [hlen]; omega)))
        have hdis := hpair.1 r hr
        omega
      · exact ih hrest hpair.2 hp hs

end MojoRs.Lib
