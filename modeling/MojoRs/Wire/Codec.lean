/-
MojoRs/Wire/Codec.lean

Encoders and decoders that match.  An encoder owns a slot of the buffer, given
as an interval of bits, writes there and appends objects at the end; a decoder
reads the slot and the objects, and claims the objects behind its frontier.

`Sound` relates the two: when the encoder succeeds, the decoder succeeds on
every message that agrees with the buffer on the slot and on what has been
appended, whatever else is written later.  The lemmas of this file build
matching pairs from matching pairs, one for each shape of the format.
-/
import MojoRs.Wire.Conform

namespace MojoRs.Wire

open Lib

variable {α : Type}

/-! ### Effects of an encoder -/

/-- `b` comes from `a` by encoding into the slot `[s, e)`, with `h` handles
and `g` bytes of objects. -/
structure Wrote (s e h g : Nat) (a b : Encoder) : Prop where
  keeps : Keeps s e a.buf b.buf
  depth : b.depth = a.depth
  handles : b.handles = a.handles + h
  length : 8 ∣ a.buf.length → b.buf.length = a.buf.length + g ∧ 8 ∣ g

/-- A slot that has not been written. -/
def Blank (s e : Nat) (buf : List UInt8) : Prop := ∀ p, s ≤ p → p < e → bitAt buf p = false

/-- The decoder stands in front of what has been appended from byte `lo` on to
`buf`, and sees the slot `[s, e)` of it. -/
structure Views (n need s e lo : Nat) (buf : List UInt8) (dec : Decoder) : Prop where
  slot : SameBits s e dec.bytes buf
  region : SameBits (8 * lo) (8 * buf.length) dec.bytes buf
  length_le : buf.length ≤ dec.bytes.length
  addressable : dec.bytes.length < usizeLimit
  handles : dec.handleCount = n
  frontier_le : dec.frontier ≤ lo
  depth_le : dec.depth + need ≤ dec.maxDepth

/-- The decoder returns `a` and moves its frontier within `buf`. -/
def Yields (D : Decoder → WireResult (α × Decoder)) (buf : List UInt8) (dec : Decoder) (a : α) :
    Prop :=
  ∃ f, f ≤ buf.length ∧ D dec = .ok (a, { dec with frontier := f })

/-- The decoder returns `a` wherever it views the slot and the objects. -/
def Reads (n need s e lo : Nat) (buf : List UInt8) (D : Decoder → WireResult (α × Decoder))
    (a : α) : Prop :=
  ∀ dec, Views n need s e lo buf dec → Yields D buf dec a

/-- Sizes that 32 bits hold: those of exact values, and those of messages that
are short enough. -/
def SizesFit (m : Mode) (buf : List UInt8) : Prop := m = .exact ∨ buf.length < sizeFieldLimit

/-- In mode `m`, the decoder reads back what the encoder has written into the
slot `[s, e)`; in mode `.exact` it returns `v`. -/
def Recovers (m : Mode) (n need s e lo : Nat) (buf : List UInt8)
    (D : Decoder → WireResult (α × Decoder)) (v : α) : Prop :=
  m ≠ .skipped → SizesFit m buf → ∃ a, (m = .exact → a = v) ∧ Reads n need s e lo buf D a

/-- An encoder and a decoder of a field that match at the slot `[s, e)`. -/
def Sound (m : Mode) (n h g need s e : Nat) (E : Encoder → WireResult Encoder)
    (D : Decoder → WireResult (α × Decoder)) (v : α) : Prop :=
  ∀ enc enc', e ≤ 8 * enc.buf.length → Blank s e enc.buf → E enc = .ok enc' →
    Wrote s e h g enc enc' ∧ Recovers m n need s e enc.buf.length enc'.buf D v

/-- An encoder and a decoder of an object that match at the end of the
buffer. -/
def ObjectSound (m : Mode) (n h g need : Nat) (O : Nat → Encoder → WireResult Encoder)
    (D : Nat → Decoder → WireResult (α × Decoder)) (v : α) : Prop :=
  ∀ enc enc', O enc.buf.length enc = .ok enc' →
    Wrote 0 0 h g enc enc' ∧ Recovers m n need 0 0 enc.buf.length enc'.buf (D enc.buf.length) v

theorem Wrote.length_le {s e h g : Nat} {a b : Encoder} (w : Wrote s e h g a b) :
    a.buf.length ≤ b.buf.length := w.keeps.length_le

/-- Encoders compose, when the second one keeps to the slot of the first or to
what has been appended. -/
theorem Wrote.trans {s e s' e' h h' g g' : Nat} {a b c : Encoder} (w : Wrote s e h g a b)
    (w' : Wrote s' e' h' g' b c) (hslot : 8 * a.buf.length ≤ s' ∨ s ≤ s' ∧ e' ≤ e ∨ e' ≤ s') :
    Wrote s e (h + h') (g + g') a c where
  keeps := by
    rcases hslot with hslot | hslot | hslot
    · exact w.keeps.trans w'.keeps (.inl hslot)
    · exact w.keeps.trans w'.keeps (.inr hslot)
    · -- an empty slot
      have hle := w.length_le
      refine ⟨hle.trans w'.length_le, fun p hp hout => ?_⟩
      rw [w'.keeps.same p (by omega) (by omega), w.keeps.same p hp hout]
  depth := w'.depth.trans w.depth
  handles := by rw [w'.handles, w.handles, Nat.add_assoc]
  length := by
    intro h8
    obtain ⟨hlen, hg⟩ := w.length h8
    obtain ⟨hlen', hg'⟩ := w'.length (hlen ▸ Nat.dvd_add h8 hg)
    exact ⟨by rw [hlen', hlen, Nat.add_assoc], Nat.dvd_add hg hg'⟩

theorem Wrote.mono {s e s' e' h g : Nat} {a b : Encoder} (w : Wrote s e h g a b)
    (hs : s' ≤ s) (he : e ≤ e') : Wrote s' e' h g a b :=
  ⟨w.keeps.mono hs he, w.depth, w.handles, w.length⟩

theorem Wrote.refl (s e : Nat) (a : Encoder) : Wrote s e 0 0 a a :=
  ⟨Keeps.refl _ _ _, rfl, rfl, fun _ => ⟨rfl, Nat.dvd_zero 8⟩⟩

/-- A view of a later buffer is a view of an earlier one. -/
theorem Views.earlier {n need need' s e s' e' lo lo' : Nat} {buf buf' : List UInt8}
    {dec : Decoder} (h : Views n need s e lo buf dec) (hslot : SameBits s' e' dec.bytes buf')
    (hregion : SameBits (8 * lo') (8 * buf'.length) dec.bytes buf')
    (hlen : buf'.length ≤ buf.length) (hfront : dec.frontier ≤ lo') (hneed : need' ≤ need) :
    Views n need' s' e' lo' buf' dec where
  slot := hslot
  region := hregion
  length_le := Nat.le_trans hlen h.length_le
  addressable := h.addressable
  handles := h.handles
  frontier_le := hfront
  depth_le := Nat.le_trans (Nat.add_le_add_left hneed _) h.depth_le

/-! ### Single writes -/

theorem writeLe_eq_ok {enc enc' : Encoder} {off : Nat} {bytes : List UInt8}
    (hin : off + bytes.length ≤ enc.buf.length) (h : enc.writeLe off bytes = .ok enc') :
    enc' = { enc with buf := putBytes enc.buf off bytes } := by
  obtain ⟨e, he, h⟩ := bind_eq_ok h
  obtain ⟨rfl, -⟩ := checkedAdd_eq_ok he
  have hbuf : (enc.resize (off + bytes.length)).buf = enc.buf := growTo_of_le hin
  obtain rfl := Except.ok.inj h
  rw [Encoder.resize, growTo_of_le hin]

theorem writeLe_ok {enc : Encoder} {off : Nat} {bytes : List UInt8}
    (hin : off + bytes.length ≤ enc.buf.length) (hlt : enc.buf.length < usizeLimit) :
    enc.writeLe off bytes = .ok { enc with buf := putBytes enc.buf off bytes } := by
  rw [Encoder.writeLe, checkedAdd_ok (Nat.lt_of_le_of_lt hin hlt), ok_bind, Encoder.resize,
    growTo_of_le hin]

/-- A write inside the buffer. -/
theorem writeLe_spec {enc enc' : Encoder} {off : Nat} {bytes : List UInt8}
    (hin : off + bytes.length ≤ enc.buf.length) (h : enc.writeLe off bytes = .ok enc') :
    Wrote (8 * off) (8 * (off + bytes.length)) 0 0 enc enc' ∧
      enc'.buf = putBytes enc.buf off bytes ∧ enc'.buf.length = enc.buf.length := by
  obtain rfl := writeLe_eq_ok hin h
  have hlen : (putBytes enc.buf off bytes).length = enc.buf.length := length_putBytes hin
  exact ⟨⟨keeps_putBytes hin, rfl, rfl, fun _ => ⟨hlen, Nat.dvd_zero 8⟩⟩, rfl, hlen⟩

/-- A number written inside the buffer. -/
theorem writeNum_spec {enc enc' : Encoder} {off w k : Nat} (hin : off + w ≤ enc.buf.length)
    (h : enc.writeLe off (toLE w k) = .ok enc') :
    Wrote (8 * off) (8 * (off + w)) 0 0 enc enc' ∧
      enc'.buf = putBytes enc.buf off (toLE w k) ∧ enc'.buf.length = enc.buf.length := by
  have hspec := writeLe_spec (by rwa [length_toLE]) h
  rwa [length_toLE] at hspec

theorem readUint_eq_ok {dec : Decoder} {w off n : Nat} (h : dec.readUint w off = .ok n) :
    n = readLE dec.bytes off w := by
  obtain ⟨e, -, h⟩ := bind_eq_ok h
  split_ifs at h
  exact (Except.ok.inj h).symm

theorem readUint_lt {dec : Decoder} {w off n : Nat} (h : dec.readUint w off = .ok n) :
    n < 256 ^ w := by
  rw [readUint_eq_ok h]
  apply readLE_lt

theorem claim_eq_ok {dec dec' : Decoder} {start len : Nat} (h : dec.claim start len = .ok dec') :
    dec.frontier ≤ start ∧ 0 < len ∧ start + len ≤ dec.bytes.length ∧
      dec' = { dec with frontier := start + len } := by
  obtain ⟨e, he, h⟩ := bind_eq_ok h
  obtain ⟨rfl, -⟩ := checkedAdd_eq_ok he
  split_ifs at h with hlong hempty hfrontier
  refine ⟨Nat.le_of_not_lt hfrontier, ?_, Nat.le_of_not_lt hlong, (Except.ok.inj h).symm⟩
  exact Nat.lt_of_add_lt_add_left (Nat.lt_of_not_le hempty)

theorem readPointer_eq_ok {dec : Decoder} {off : Nat} {p : Pointer}
    (h : dec.readPointer off = .ok p) : p = .decode off (readLE dec.bytes off 8) := by
  obtain ⟨raw, hraw, h⟩ := bind_eq_ok h
  rw [← readUint_eq_ok hraw]
  exact (Except.ok.inj h).symm

/-- A number read in a view of the buffer that it was written into. -/
theorem readUint_of_put {dec : Decoder} {buf : List UInt8} {off w k : Nat}
    (hin : off + w ≤ buf.length) (hlen : buf.length ≤ dec.bytes.length)
    (haddr : dec.bytes.length < usizeLimit) (hk : k < 256 ^ w)
    (hs : SameBits (8 * off) (8 * (off + w)) dec.bytes (putBytes buf off (toLE w k))) :
    dec.readUint w off = .ok k := by
  rw [Decoder.readUint, checkedAdd_ok (by omega), ok_bind, if_pos (by omega),
    readLE_of_put hin (by omega) hk hs]

theorem readUint_of_blank {dec : Decoder} {off w : Nat} (hin : off + w ≤ dec.bytes.length)
    (haddr : dec.bytes.length < usizeLimit)
    (hz : ∀ p, 8 * off ≤ p → p < 8 * (off + w) → bitAt dec.bytes p = false) :
    dec.readUint w off = .ok 0 := by
  rw [Decoder.readUint, checkedAdd_ok (by omega), ok_bind, if_pos hin, readLE_of_zero hz]

/-- A byte as the one-byte number. -/
theorem readByte_of_readUint {dec : Decoder} {off k : Nat} (h : dec.readUint 1 off = .ok k) :
    ∃ byte, dec.readByte off = .ok byte ∧ byte.toNat = k := by
  obtain ⟨e, he, h⟩ := bind_eq_ok h
  obtain ⟨rfl, -⟩ := checkedAdd_eq_ok he
  split at h
  · rename_i hle
    have hlt : off < dec.bytes.length := hle
    obtain rfl := Except.ok.inj h
    refine ⟨dec.bytes[off], ?_, ?_⟩
    · rw [Decoder.readByte, List.getElem?_eq_getElem hlt]
    · rw [readLE, List.drop_eq_getElem_cons hlt, List.take_succ_cons, List.take_zero]
      rfl
  · cases h

/-! ### Fields in place -/

/-- The first bit of the slot of a kind. -/
def Kind.slotStart (k : Kind) (off bit : Nat) : Nat := if k = .bool then 8 * off + bit else 8 * off

/-- The end of the slot of a kind: a bit for a boolean, whole bytes
otherwise. -/
def Kind.slotEnd (k : Kind) (off bit : Nat) : Nat :=
  if k = .bool then 8 * off + bit + 1 else 8 * (off + k.size)

/-- A number written in place. -/
theorem sound_put {m : Mode} {n need off w k : Nat} {D : Decoder → WireResult (α × Decoder)}
    {v : α} (hk : k < 256 ^ w)
    (hD : m ≠ .skipped → ∃ a, (m = .exact → a = v) ∧
      ∀ dec : Decoder, dec.handleCount = n → dec.readUint w off = .ok k → D dec = .ok (a, dec)) :
    Sound m n 0 0 need (8 * off) (8 * (off + w)) (·.writeLe off (toLE w k)) D v := by
  intro enc enc' hin _ hE
  obtain ⟨hw, hbuf, hlen⟩ := writeNum_spec (by omega) hE
  refine ⟨hw, fun hm _ => ?_⟩
  obtain ⟨a, hav, hread⟩ := hD hm
  refine ⟨a, hav, fun dec hv => ?_⟩
  have hle := hv.length_le
  have hslot := hv.slot
  rw [hbuf] at hslot
  refine ⟨dec.frontier, hlen ▸ hv.frontier_le, hread dec hv.handles ?_⟩
  exact readUint_of_put (by omega) (hlen ▸ hle) hv.addressable hk hslot

/-- Two 32-bit numbers written in place. -/
theorem sound_pair {m : Mode} {n need off j k : Nat} {D : Decoder → WireResult (α × Decoder)}
    {v : α} (hj : j < 256 ^ 4) (hk : k < 256 ^ 4)
    (hD : m ≠ .skipped → ∃ a, (m = .exact → a = v) ∧
      ∀ dec : Decoder, dec.handleCount = n → readPair dec off = .ok (j, k) →
        D dec = .ok (a, dec)) :
    Sound m n 0 0 need (8 * off) (8 * (off + 8))
      (fun enc => enc.writeLe off (toLE 4 j) >>= (·.writeLe (off + 4) (toLE 4 k))) D v := by
  intro enc enc' hin _ hE
  obtain ⟨enc₁, h₁, h₂⟩ := bind_eq_ok hE
  obtain ⟨hw₁, hbuf₁, hlen₁⟩ := writeNum_spec (by omega) h₁
  obtain ⟨hw₂, hbuf₂, hlen₂⟩ := writeNum_spec (by omega) h₂
  refine ⟨(hw₁.mono (Nat.le_refl _) (by omega)).trans
    (hw₂.mono (Nat.le_refl _) (by omega : 8 * (off + 4 + 4) ≤ 8 * (off + 8)))
    (.inr (.inl ⟨by omega, Nat.le_refl _⟩)), fun hm _ => ?_⟩
  obtain ⟨a, hav, hread⟩ := hD hm
  refine ⟨a, hav, fun dec hv => ?_⟩
  have hle := hv.length_le
  have hfirst : dec.readUint 4 off = .ok j := by
    -- the second number leaves the first one as it is
    have hslot := (hv.slot.mono (Nat.le_refl _) (by omega : 8 * (off + 4) ≤ 8 * (off + 8))).trans
      (hw₂.keeps.sameBits (by omega) (.inl (by omega)))
    rw [hbuf₁] at hslot
    exact readUint_of_put (by omega) (by omega) hv.addressable hj hslot
  have hsecond : dec.readUint 4 (off + 4) = .ok k := by
    have hslot := hv.slot
    rw [hbuf₂] at hslot
    exact readUint_of_put (by omega) (by omega) hv.addressable hk
      (hslot.mono (by omega) (by omega))
  have hfront := hv.frontier_le
  refine ⟨dec.frontier, by omega, hread dec hv.handles ?_⟩
  rw [readPair, hfirst, ok_bind, hsecond]
  rfl

/-- A bit written in place. -/
theorem sound_bit {m : Mode} {n need off bit : Nat} {D : Decoder → WireResult (α × Decoder)}
    {v : α} {b : Bool} (hbit : bit < 8)
    (hD : ∀ (dec : Decoder) (byte : UInt8), dec.readByte off = .ok byte →
      ((byte >>> UInt8.ofNat bit) &&& 1 != 0) = b → D dec = .ok (v, dec)) :
    Sound m n 0 0 need (8 * off + bit) (8 * off + bit + 1)
      (fun enc => .ok (enc.writeBit off bit b)) D v := by
  intro enc enc' hin _ hE
  obtain rfl := Except.ok.inj hE
  have hoff : off < enc.buf.length := by omega
  refine ⟨⟨keeps_putBit b hoff hbit, rfl, rfl,
    fun _ => ⟨length_putBit .., Nat.dvd_zero 8⟩⟩, fun _ _ => ⟨v, fun _ => rfl, fun dec hv => ?_⟩⟩
  have hlen : (putBit enc.buf off bit b).length = enc.buf.length := length_putBit ..
  have hle := hv.length_le
  have hlt : off < dec.bytes.length := by
    show off < _
    simp only [Encoder.writeBit, hlen] at hle
    omega
  have hget : dec.bytes[off]? = some dec.bytes[off] := List.getElem?_eq_getElem hlt
  refine ⟨dec.frontier, ?_, hD dec dec.bytes[off] ?_ ?_⟩
  · show dec.frontier ≤ (putBit enc.buf off bit b).length
    rw [hlen]
    exact hv.frontier_le
  · rw [Decoder.readByte, hget]
  · rw [testBit_eq_bitAt hget hbit, hv.slot _ (Nat.le_refl _) (Nat.lt_succ_self _)]
    show bitAt (putBit enc.buf off bit b) _ = b
    rw [bitAt_putBit b hoff hbit, if_pos rfl]

/-- Pushing a handle first. -/
theorem Sound.push {m : Mode} {n need s e : Nat} {E : Encoder → WireResult Encoder}
    {D : Decoder → WireResult (α × Decoder)} {v : α} (index : UInt32)
    (h : Sound m n 0 0 need s e E D v) :
    Sound m n (if index = encodedInvalidHandleValue then 0 else 1) 0 need s e
      (fun enc => E (enc.pushHandle index)) D v := by
  intro enc enc' hin hz hE
  have hbuf : (enc.pushHandle index).buf = enc.buf := by
    unfold Encoder.pushHandle
    split <;> rfl
  obtain ⟨w, hread⟩ := h (enc.pushHandle index) enc' (hbuf ▸ hin) (hbuf ▸ hz) hE
  rw [hbuf] at hread
  refine ⟨⟨hbuf ▸ w.keeps, ?_, ?_, hbuf ▸ w.length⟩, hread⟩
  · rw [w.depth]
    unfold Encoder.pushHandle
    split <;> rfl
  · rw [w.handles, Nat.add_zero]
    unfold Encoder.pushHandle
    split <;> rfl

/-- A null pointer. -/
theorem sound_null {m : Mode} {n need off : Nat}
    (D : Nat → Decoder → WireResult (Value × Decoder)) :
    Sound m n 0 0 need (8 * off) (8 * (off + 8)) (·.writeNull off)
      (fun dec => dec.follow off true D) .null := by
  refine sound_put (by decide) fun _ => ⟨.null, fun _ => rfl, fun dec _ hread => ?_⟩
  rw [Decoder.follow, Decoder.readPointer, hread]
  rfl

/-! ### Objects behind pointers -/

/-- What stands at the end of a view is seen by every later reader. -/
theorem Recovers.imp {β : Type} {m : Mode} {n need need' s e s' e' lo lo' : Nat}
    {buf buf' : List UInt8} {D : Decoder → WireResult (α × Decoder)}
    {D' : Decoder → WireResult (β × Decoder)} {v : α} {v' : β}
    (h : Recovers m n need s e lo buf D v) (hlen : buf.length ≤ buf'.length)
    (himp : ∀ a, (m = .exact → a = v) → ∃ b, (m = .exact → b = v') ∧
      ((∀ dec, Views n need s e lo buf dec → Yields D buf dec a) →
        ∀ dec, Views n need' s' e' lo' buf' dec → Yields D' buf' dec b)) :
    Recovers m n need' s' e' lo' buf' D' v' := by
  intro hm hfit
  have hfit' : SizesFit m buf := hfit.imp_right fun hlt => Nat.lt_of_le_of_lt hlen hlt
  obtain ⟨a, hav, hreads⟩ := h hm hfit'
  obtain ⟨b, hbv, hyields⟩ := himp a hav
  exact ⟨b, hbv, hyields hreads⟩

theorem appendObjectStart_eq_ok {enc : Encoder} {r : Nat × Encoder}
    (h : enc.appendObjectStart = .ok r) :
    r.2.buf = growTo enc.buf r.1 ∧ r.2.buf.length = r.1 ∧ enc.buf.length ≤ r.1 ∧
      r.1 < usizeLimit ∧ r.2.depth = enc.depth ∧ r.2.handles = enc.handles ∧
      (8 ∣ enc.buf.length → r.1 = enc.buf.length) := by
  obtain ⟨aligned, halign, h⟩ := bind_eq_ok h
  obtain ⟨rfl, hlt⟩ := alignUp_eq_ok halign
  obtain rfl := Except.ok.inj h
  have hle : enc.buf.length ≤ (enc.buf.length + 7) / 8 * 8 := by omega
  refine ⟨rfl, ?_, hle, ?_, rfl, rfl, fun h8 => ?_⟩
  · show (growTo _ _).length = _
    rw [length_growTo]
    exact Nat.max_eq_right hle
  · show (enc.buf.length + 7) / 8 * 8 < usizeLimit
    omega
  · show (enc.buf.length + 7) / 8 * 8 = _
    omega

/-- An object that is appended and pointed to, and a decoder that follows the
pointer. -/
theorem sound_pointer {m : Mode} {n h g need off : Nat}
    {O : Nat → Encoder → WireResult Encoder} {D : Nat → Decoder → WireResult (α × Decoder)}
    {F : Decoder → WireResult (α × Decoder)} {v : α}
    (hF : ∀ dec : Decoder, ∀ target, dec.readPointer off = .ok (.offset target) →
      F dec = D target dec)
    (hO : ObjectSound m n h g need O D v) :
    Sound m n h g need (8 * off) (8 * (off + 8)) (·.appendObject off O) F v := by
  intro enc enc' hin _ hE
  obtain ⟨⟨target, enc₁⟩, h₁, hE⟩ := bind_eq_ok hE
  obtain ⟨enc₂, h₂, h₃⟩ := bind_eq_ok hE
  obtain ⟨hbuf₁, hlen₁, hle₁, htarget, hdepth₁, hhandles₁, halign₁⟩ := appendObjectStart_eq_ok h₁
  simp only at hbuf₁ hlen₁ hle₁ htarget hdepth₁ hhandles₁ halign₁
  have hw₁ : Wrote (8 * off) (8 * (off + 8)) 0 0 enc enc₁ :=
    ⟨hbuf₁ ▸ keeps_growTo _ _ _ _, hdepth₁, hhandles₁,
      fun h8 => ⟨hlen₁.trans (halign₁ h8), Nat.dvd_zero 8⟩⟩
  obtain ⟨hw₂, hread₂⟩ := hO enc₁ enc₂ (hlen₁.symm ▸ h₂)
  have hle₂ := hw₂.length_le
  obtain ⟨hw₃, hbuf₃, hlen₃⟩ := writeNum_spec (by omega) h₃
  have hw := (hw₁.trans hw₂ (.inr (.inr (Nat.le_refl _)))).trans hw₃
    (.inr (.inl ⟨Nat.le_refl _, Nat.le_refl _⟩))
  rw [Nat.zero_add, Nat.zero_add] at hw
  refine ⟨hw, hread₂.imp hlen₃.ge fun a hav => ⟨a, hav, fun hreads dec hv => ?_⟩⟩
  have hle := hv.length_le
  have hfront := hv.frontier_le
  -- the pointer leads to the object
  have hptr : dec.readUint 8 off = .ok (Pointer.encode off target) := by
    have hslot := hv.slot
    rw [hbuf₃] at hslot
    exact readUint_of_put (by omega) (by omega) hv.addressable (Pointer.encode_lt _ _) hslot
  -- and writing it has left the object as it was
  have hregion : SameBits (8 * enc₁.buf.length) (8 * enc₂.buf.length) dec.bytes enc₂.buf :=
    (hv.region.mono (by omega) (by omega)).trans
      (hw₃.keeps.sameBits (Nat.le_refl _) (.inr (by omega)))
  obtain ⟨f, hf, hD⟩ := hreads dec (hv.earlier (fun p _ hp => absurd hp (Nat.not_lt_zero p))
    hregion hlen₃.ge (by omega) (Nat.le_refl _))
  refine ⟨f, hlen₃.symm ▸ hf, ?_⟩
  rw [hlen₁] at hD
  refine (hF dec target ?_).trans hD
  rw [Decoder.readPointer, hptr, ok_bind, Pointer.decode_encode (by omega) htarget (by omega)]

theorem sound_appendObject {m : Mode} {n h g need off : Nat} {nullable : Bool}
    {O : Nat → Encoder → WireResult Encoder} {D : Nat → Decoder → WireResult (Value × Decoder)}
    {v : Value} (hO : ObjectSound m n h g need O D v) :
    Sound m n h g need (8 * off) (8 * (off + 8)) (·.appendObject off O)
      (fun dec => dec.follow off nullable D) v := by
  refine sound_pointer (fun dec target hptr => ?_) hO
  show dec.follow off nullable D = _
  rw [Decoder.follow, hptr]
  rfl

end MojoRs.Wire
