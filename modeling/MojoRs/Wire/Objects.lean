/-
MojoRs/Wire/Objects.lean

The objects of the wire format as matching pairs of encoder and decoder:
strings, unions, arrays and maps, given the pairs for what is inside them.
Structs follow in `Structs.lean`.
-/
import MojoRs.Wire.Codec

namespace MojoRs.Wire

open Lib

variable {α β γ : Type}

/-! ### Composition -/

theorem Reads.mono {n need need' s e lo : Nat} {buf : List UInt8}
    {D : Decoder → WireResult (α × Decoder)} {a : α} (hneed : need ≤ need')
    (h : Reads n need s e lo buf D a) : Reads n need' s e lo buf D a :=
  fun dec hv => h dec (hv.earlier hv.slot hv.region (Nat.le_refl _) hv.frontier_le hneed)

theorem Recovers.mono {m : Mode} {n need need' s e lo : Nat} {buf : List UInt8}
    {D : Decoder → WireResult (α × Decoder)} {v : α} (hneed : need ≤ need')
    (h : Recovers m n need s e lo buf D v) : Recovers m n need' s e lo buf D v := by
  intro hm hfit
  obtain ⟨a, hav, hreads⟩ := h hm hfit
  exact ⟨a, hav, hreads.mono hneed⟩

theorem Sound.mono {m : Mode} {n h g need need' s e : Nat} {E : Encoder → WireResult Encoder}
    {D : Decoder → WireResult (α × Decoder)} {v : α} (hneed : need ≤ need')
    (hs : Sound m n h g need s e E D v) : Sound m n h g need' s e E D v := by
  intro enc enc' hin hz hE
  obtain ⟨w, hread⟩ := hs enc enc' hin hz hE
  exact ⟨w, hread.mono hneed⟩

theorem ObjectSound.mono {m : Mode} {n h g need need' : Nat}
    {O : Nat → Encoder → WireResult Encoder} {D : Nat → Decoder → WireResult (α × Decoder)}
    {v : α} (hneed : need ≤ need') (hs : ObjectSound m n h g need O D v) :
    ObjectSound m n h g need' O D v := by
  intro enc enc' hE
  obtain ⟨w, hread⟩ := hs enc enc' hE
  exact ⟨w, hread.mono hneed⟩

/-- Where the value need not come back, any value will do. -/
theorem ObjectSound.inexact {m : Mode} {n h g need : Nat}
    {O : Nat → Encoder → WireResult Encoder} {D : Nat → Decoder → WireResult (α × Decoder)}
    {v v' : α} (hm : m ≠ .exact) (hs : ObjectSound m n h g need O D v) :
    ObjectSound m n h g need O D v' := by
  intro enc enc' hE
  obtain ⟨w, hread⟩ := hs enc enc' hE
  refine ⟨w, fun hskip hfit => ?_⟩
  obtain ⟨a, -, hreads⟩ := hread hskip hfit
  exact ⟨a, fun h => absurd h hm, hreads⟩

theorem Sound.inexact {m : Mode} {n h g need s e : Nat} {E : Encoder → WireResult Encoder}
    {D : Decoder → WireResult (α × Decoder)} {v v' : α} (hm : m ≠ .exact)
    (hs : Sound m n h g need s e E D v) : Sound m n h g need s e E D v' := by
  intro enc enc' hin hz hE
  obtain ⟨w, hread⟩ := hs enc enc' hin hz hE
  refine ⟨w, fun hskip hfit => ?_⟩
  obtain ⟨a, -, hreads⟩ := hread hskip hfit
  exact ⟨a, fun h => absurd h hm, hreads⟩

theorem sound_nil {m : Mode} {n need s : Nat} (v : α) :
    Sound m n 0 0 need s s .ok (fun dec => .ok (v, dec)) v := by
  intro enc enc' _ _ hE
  obtain rfl := Except.ok.inj hE
  exact ⟨Wrote.refl _ _ _, fun _ _ => ⟨v, fun _ => rfl,
    fun dec hv => ⟨dec.frontier, hv.frontier_le, rfl⟩⟩⟩

/-- The facts shared by the ways of encoding one field after another: the
second field leaves the first one and its objects as they are. -/
theorem views_first {n need h g s₁ e₁ s₂ e₂ lo : Nat} {enc₁ enc₂ : Encoder} {dec : Decoder}
    (hle : e₁ ≤ s₂) (hse : s₂ ≤ e₂) (he : e₂ ≤ 8 * lo) (hlo : lo ≤ enc₁.buf.length)
    (w₂ : Wrote s₂ e₂ h g enc₁ enc₂)
    (hv : Views n need s₁ e₂ lo enc₂.buf dec) : Views n need s₁ e₁ lo enc₁.buf dec := by
  have hlen := w₂.length_le
  refine hv.earlier ?_ ?_ hlen hv.frontier_le (Nat.le_refl _)
  · exact (hv.slot.mono (Nat.le_refl _) (by omega)).trans
      (w₂.keeps.sameBits (by omega) (.inl hle))
  · exact (hv.region.mono (Nat.le_refl _) (by omega)).trans
      (w₂.keeps.sameBits (Nat.le_refl _) (.inr he))

/-- Two fields, one after the other. -/
theorem Sound.seq {m : Mode} {n h₁ g₁ h₂ g₂ need s₁ e₁ s₂ e₂ : Nat}
    {E₁ E₂ : Encoder → WireResult Encoder} {D₁ : Decoder → WireResult (α × Decoder)}
    {D₂ : Decoder → WireResult (β × Decoder)} {D : Decoder → WireResult (γ × Decoder)}
    {v₁ : α} {v₂ : β} (k : α → β → γ)
    (hD : ∀ (dec : Decoder) a f b dec', D₁ dec = .ok (a, { dec with frontier := f }) →
      D₂ { dec with frontier := f } = .ok (b, dec') → D dec = .ok (k a b, dec'))
    (hs₁ : s₁ ≤ e₁) (hle : e₁ ≤ s₂) (hs₂ : s₂ ≤ e₂) (first : Sound m n h₁ g₁ need s₁ e₁ E₁ D₁ v₁)
    (second : Sound m n h₂ g₂ need s₂ e₂ E₂ D₂ v₂) :
    Sound m n (h₁ + h₂) (g₁ + g₂) need s₁ e₂ (fun enc => E₁ enc >>= E₂) D (k v₁ v₂) := by
  intro enc enc₂ hin hz hE
  obtain ⟨enc₁, h₁, h₂⟩ := bind_eq_ok hE
  obtain ⟨w₁, hread₁⟩ := first enc enc₁ (by omega) (fun p hp hp' => hz p hp (by omega)) h₁
  have hlen₁ := w₁.length_le
  have hz₂ : Blank s₂ e₂ enc₁.buf := by
    intro p hp hp'
    rw [w₁.keeps.same p (by omega) (.inr (by omega))]
    exact hz p (by omega) hp'
  obtain ⟨w₂, hread₂⟩ := second enc₁ enc₂ (by omega) hz₂ h₂
  have hlen₂ := w₂.length_le
  refine ⟨(w₁.mono (Nat.le_refl _) (by omega)).trans (w₂.mono (by omega) (Nat.le_refl _))
    (.inr (.inl ⟨Nat.le_refl s₁, Nat.le_refl _⟩)), fun hm hfit => ?_⟩
  have hfit₁ : SizesFit m enc₁.buf := hfit.imp_right fun hlt => Nat.lt_of_le_of_lt hlen₂ hlt
  obtain ⟨a, hav, hreads₁⟩ := hread₁ hm hfit₁
  obtain ⟨b, hbv, hreads₂⟩ := hread₂ hm hfit
  refine ⟨k a b, fun hex => by rw [hav hex, hbv hex], fun dec hv => ?_⟩
  obtain ⟨f, hf, hD₁⟩ := hreads₁ dec (views_first hle hs₂ hin hlen₁ w₂ hv)
  have hv₂ : Views n need s₂ e₂ enc₁.buf.length enc₂.buf { dec with frontier := f } :=
    ⟨hv.slot.mono (by omega) (Nat.le_refl _), hv.region.mono (by omega) (Nat.le_refl _),
      hv.length_le, hv.addressable, hv.handles, hf, hv.depth_le⟩
  obtain ⟨f', hf', hD₂⟩ := hreads₂ _ hv₂
  exact ⟨f', hf', hD dec a f b _ hD₁ hD₂⟩

/-- A field that is not read, and one that is. -/
theorem Sound.after {m : Mode} {n h₁ g₁ h₂ g₂ need s₁ e₁ s₂ e₂ : Nat}
    {E₁ E₂ : Encoder → WireResult Encoder} {D₁ : Decoder → WireResult (α × Decoder)}
    {D₂ : Decoder → WireResult (β × Decoder)} {v₁ : α} {v₂ : β}
    (hs₁ : s₁ ≤ e₁) (hle : e₁ ≤ s₂) (hs₂ : s₂ ≤ e₂)
    (first : Sound .skipped n h₁ g₁ need s₁ e₁ E₁ D₁ v₁)
    (second : Sound m n h₂ g₂ need s₂ e₂ E₂ D₂ v₂) :
    Sound m n (h₁ + h₂) (g₁ + g₂) need s₁ e₂ (fun enc => E₁ enc >>= E₂) D₂ v₂ := by
  intro enc enc₂ hin hz hE
  obtain ⟨enc₁, h₁, h₂⟩ := bind_eq_ok hE
  obtain ⟨w₁, -⟩ := first enc enc₁ (by omega) (fun p hp hp' => hz p hp (by omega)) h₁
  have hlen₁ := w₁.length_le
  have hz₂ : Blank s₂ e₂ enc₁.buf := by
    intro p hp hp'
    rw [w₁.keeps.same p (by omega) (.inr (by omega))]
    exact hz p (by omega) hp'
  obtain ⟨w₂, hread₂⟩ := second enc₁ enc₂ (by omega) hz₂ h₂
  refine ⟨(w₁.mono (Nat.le_refl _) (by omega)).trans (w₂.mono (by omega) (Nat.le_refl _))
    (.inr (.inl ⟨Nat.le_refl s₁, Nat.le_refl _⟩)),
    hread₂.imp (Nat.le_refl _) fun b hbv => ⟨b, hbv, fun hreads dec hv => ?_⟩⟩
  exact hreads dec (hv.earlier (hv.slot.mono (by omega) (Nat.le_refl _))
    (hv.region.mono (by omega) (Nat.le_refl _)) (Nat.le_refl _)
    (Nat.le_trans hv.frontier_le hlen₁) (Nat.le_refl _))

/-- A decoder that maps what it has read. -/
theorem Sound.map {m : Mode} {n h g need s e : Nat} {E : Encoder → WireResult Encoder}
    {D : Decoder → WireResult (α × Decoder)} {D' : Decoder → WireResult (β × Decoder)} {v : α}
    (k : α → β) (hD : ∀ dec a dec', D dec = .ok (a, dec') → D' dec = .ok (k a, dec'))
    (hs : Sound m n h g need s e E D v) : Sound m n h g need s e E D' (k v) := by
  intro enc enc' hin hz hE
  obtain ⟨w, hread⟩ := hs enc enc' hin hz hE
  refine ⟨w, hread.imp (Nat.le_refl _) fun a hav =>
    ⟨k a, fun hex => congrArg k (hav hex), fun hreads dec hv => ?_⟩⟩
  obtain ⟨f, hf, h⟩ := hreads dec hv
  exact ⟨f, hf, hD _ _ _ h⟩

theorem ObjectSound.map {m : Mode} {n h g need : Nat} {O : Nat → Encoder → WireResult Encoder}
    {D : Nat → Decoder → WireResult (α × Decoder)} {D' : Nat → Decoder → WireResult (β × Decoder)}
    {v : α} (k : α → β)
    (hD : ∀ t dec a dec', D t dec = .ok (a, dec') → D' t dec = .ok (k a, dec'))
    (hs : ObjectSound m n h g need O D v) : ObjectSound m n h g need O D' (k v) := by
  intro enc enc' hE
  obtain ⟨w, hread⟩ := hs enc enc' hE
  refine ⟨w, hread.imp (Nat.le_refl _) fun a hav =>
    ⟨k a, fun hex => congrArg k (hav hex), fun hreads dec hv => ?_⟩⟩
  obtain ⟨f, hf, h⟩ := hreads dec hv
  exact ⟨f, hf, hD _ _ _ _ h⟩

/-! ### Conditions on the buffer -/

/-- An encoder that runs only where the buffer allows it.  What holds of it holds
of the encoder itself, wherever the condition is met. -/
def provided (p : Encoder → Prop) [DecidablePred p] (E : Encoder → WireResult Encoder)
    (enc : Encoder) : WireResult Encoder :=
  if p enc then E enc else .error .outOfRange

/-- An encoder of objects; where `tail` is set, it starts at an aligned end of the
buffer. -/
def aligned (tail : Bool) (O : Nat → Encoder → WireResult Encoder) (target : Nat) :
    Encoder → WireResult Encoder :=
  provided (fun enc => tail = true → 8 ∣ enc.buf.length) (O target)

/-- An encoder whose slot ends at the bit `e`; where `tail` is set, the buffer ends
there as well. -/
def lastly (tail : Bool) (e : Nat) : (Encoder → WireResult Encoder) → Encoder → WireResult Encoder :=
  provided fun enc => tail = true → 8 * enc.buf.length = e ∧ 8 ∣ enc.buf.length

theorem provided_eq_ok {p : Encoder → Prop} [DecidablePred p] {E : Encoder → WireResult Encoder}
    {enc enc' : Encoder} : provided p E enc = .ok enc' ↔ p enc ∧ E enc = .ok enc' := by
  unfold provided
  split
  · rename_i hp
    exact ⟨fun h => ⟨hp, h⟩, And.right⟩
  · rename_i hp
    refine ⟨fun h => ?_, fun h => absurd h.1 hp⟩
    cases h

theorem Sound.provided {m : Mode} {n h g need s e : Nat} {E : Encoder → WireResult Encoder}
    {D : Decoder → WireResult (α × Decoder)} {v : α} (p : Encoder → Prop) [DecidablePred p]
    (hs : Sound m n h g need s e E D v) : Sound m n h g need s e (MojoRs.Wire.provided p E) D v :=
  fun enc enc' hin hz hE => hs enc enc' hin hz (provided_eq_ok.mp hE).2

theorem ObjectSound.aligned {m : Mode} {n h g need : Nat} {O : Nat → Encoder → WireResult Encoder}
    {D : Nat → Decoder → WireResult (α × Decoder)} {v : α} (tail : Bool)
    (hs : ObjectSound m n h g need O D v) :
    ObjectSound m n h g need (MojoRs.Wire.aligned tail O) D v :=
  fun enc enc' hE => hs enc enc' (provided_eq_ok.mp hE).2

theorem aligned_false (O : Nat → Encoder → WireResult Encoder) : aligned false O = O := by
  funext target enc
  rw [aligned, provided]
  exact if_pos fun h => absurd h Bool.false_ne_true

theorem lastly_false (e : Nat) (E : Encoder → WireResult Encoder) : lastly false e E = E := by
  funext enc
  rw [lastly, provided]
  exact if_pos fun h => absurd h Bool.false_ne_true

theorem sound_lastly_false {m : Mode} {n h g need s e e' : Nat}
    {E : Encoder → WireResult Encoder} {D : Decoder → WireResult (α × Decoder)} {v : α} :
    Sound m n h g need s e (lastly false e' E) D v ↔ Sound m n h g need s e E D v := by
  rw [lastly_false]

/-- Objects are appended at an aligned end. -/
theorem appendObject_aligned (off : Nat) (O : Nat → Encoder → WireResult Encoder) :
    (fun enc : Encoder => enc.appendObject off (aligned true O)) =
      fun enc => enc.appendObject off O := by
  funext enc
  rw [Encoder.appendObject, Encoder.appendObject]
  cases hstart : enc.appendObjectStart with
  | error e => rfl
  | ok r =>
      obtain ⟨target, enc₁⟩ := r
      obtain ⟨-, hlen, -⟩ := appendObjectStart_eq_ok hstart
      obtain ⟨aligned, halign, hok⟩ := bind_eq_ok hstart
      obtain ⟨rfl, -⟩ := alignUp_eq_ok halign
      obtain ⟨rfl, rfl⟩ := Prod.mk.inj (Except.ok.inj hok)
      have h8 : 8 ∣ (enc.resize ((enc.buf.length + 7) / 8 * 8)).buf.length := by
        rw [hlen]
        exact Nat.dvd_mul_left 8 _
      rw [ok_bind, ok_bind]
      dsimp only
      rw [MojoRs.Wire.aligned, provided, if_pos fun _ => h8]

/-! ### Depth -/

/-- Encoding one level deeper has the same effect. -/
theorem nested_eq_ok {E : Encoder → WireResult Encoder} {enc enc' : Encoder}
    (h : enc.nested E = .ok enc') :
    ∃ enc₁, E { enc with depth := enc.depth + 1 } = .ok enc₁ ∧ enc' = enc₁.leave ∧
      enc.depth + 1 ≤ maxEncodeDepth := by
  obtain ⟨enc₀, h₀, h'⟩ := bind_eq_ok h
  obtain ⟨enc₁, h₁, h₂⟩ := bind_eq_ok h'
  simp only [Encoder.enter] at h₀
  split at h₀
  · exact nomatch h₀
  · obtain rfl := Except.ok.inj h₀
    exact ⟨enc₁, h₁, (Except.ok.inj h₂).symm, Nat.not_lt.mp ‹_›⟩

theorem wrote_nested {s e h g : Nat} {enc enc₁ : Encoder}
    (w : Wrote s e h g { enc with depth := enc.depth + 1 } enc₁) :
    Wrote s e h g enc enc₁.leave := by
  refine ⟨w.keeps, ?_, w.handles, w.length⟩
  show enc₁.depth - 1 = enc.depth
  rw [w.depth]
  rfl

theorem ObjectSound.nestedEncoder {m : Mode} {n h g need : Nat}
    {O : Nat → Encoder → WireResult Encoder} {D : Nat → Decoder → WireResult (α × Decoder)}
    {v : α} (hs : ObjectSound m n h g need O D v) :
    ObjectSound m n h g need (fun t enc => enc.nested (O t)) D v := by
  intro enc enc' hE
  obtain ⟨enc₁, h₁, rfl, -⟩ := nested_eq_ok hE
  obtain ⟨w, hread⟩ := hs { enc with depth := enc.depth + 1 } enc₁ h₁
  exact ⟨wrote_nested w, hread⟩

theorem Sound.nestedEncoder {m : Mode} {n h g need s e : Nat}
    {E : Encoder → WireResult Encoder} {D : Decoder → WireResult (α × Decoder)}
    {v : α} (hs : Sound m n h g need s e E D v) :
    Sound m n h g need s e (fun enc => enc.nested E) D v := by
  intro enc enc' hin hz hE
  obtain ⟨enc₁, h₁, rfl, -⟩ := nested_eq_ok hE
  obtain ⟨w, hread⟩ := hs { enc with depth := enc.depth + 1 } enc₁ hin hz h₁
  exact ⟨wrote_nested w, hread⟩

theorem nested_ok {D : Decoder → WireResult (α × Decoder)} {dec : Decoder} {a : α} {f : Nat}
    (hdepth : dec.depth + 1 ≤ dec.maxDepth)
    (h : D { dec with depth := dec.depth + 1 } =
      .ok (a, { dec with depth := dec.depth + 1, frontier := f })) :
    dec.nested D = .ok (a, { dec with frontier := f }) := by
  rw [Decoder.nested, Decoder.enter, if_neg (Nat.not_lt.mpr hdepth), ok_bind, h]
  rfl

/-- Decoding one level deeper. -/
theorem Yields.nested {n need s e lo : Nat} {buf : List UInt8}
    {D : Decoder → WireResult (α × Decoder)} {a : α} {dec : Decoder}
    (hreads : Reads n need s e lo buf D a) (hv : Views n (1 + need) s e lo buf dec) :
    Yields (fun dec => dec.nested D) buf dec a := by
  have hdepth := hv.depth_le
  have hv' : Views n need s e lo buf { dec with depth := dec.depth + 1 } :=
    ⟨hv.slot, hv.region, hv.length_le, hv.addressable, hv.handles, hv.frontier_le,
      by show dec.depth + 1 + need ≤ dec.maxDepth; omega⟩
  obtain ⟨f, hf, h⟩ := hreads _ hv'
  exact ⟨f, hf, nested_ok (by omega) h⟩

theorem ObjectSound.nestedDecoder {m : Mode} {n h g need : Nat}
    {O : Nat → Encoder → WireResult Encoder} {D : Nat → Decoder → WireResult (α × Decoder)}
    {v : α} (hs : ObjectSound m n h g need O D v) :
    ObjectSound m n h g (1 + need) O (fun t dec => dec.nested (D t)) v := by
  intro enc enc' hE
  obtain ⟨w, hread⟩ := hs enc enc' hE
  refine ⟨w, hread.imp (Nat.le_refl _) fun a hav => ⟨a, hav, fun hreads dec hv => ?_⟩⟩
  exact Yields.nested hreads hv

theorem Sound.nestedDecoder {m : Mode} {n h g need s e : Nat}
    {E : Encoder → WireResult Encoder} {D : Decoder → WireResult (α × Decoder)}
    {v : α} (hs : Sound m n h g need s e E D v) :
    Sound m n h g (1 + need) s e E (fun dec => dec.nested D) v := by
  intro enc enc' hin hz hE
  obtain ⟨w, hread⟩ := hs enc enc' hin hz hE
  refine ⟨w, hread.imp (Nat.le_refl _) fun a hav => ⟨a, hav, fun hreads dec hv => ?_⟩⟩
  exact Yields.nested hreads hv

/-! ### Object headers -/

/-- The two numbers of an object header, for whoever reads them. -/
structure Header (buf : List UInt8) (off first second : Nat) : Prop where
  first : first < sizeFieldLimit → ∀ dec : Decoder,
    SameBits (8 * off) (8 * (off + 8)) dec.bytes buf → buf.length ≤ dec.bytes.length →
    dec.bytes.length < usizeLimit → dec.readUint 4 off = .ok first
  second : second < sizeFieldLimit → ∀ dec : Decoder,
    SameBits (8 * off) (8 * (off + 8)) dec.bytes buf → buf.length ≤ dec.bytes.length →
    dec.bytes.length < usizeLimit → dec.readUint 4 (off + 4) = .ok second

/-- An object has been reserved and its header written. -/
structure Began (off size first second : Nat) (a b : Encoder) : Prop where
  length : b.buf.length = max a.buf.length (off + size)
  outside : ∀ p, p < 8 * off ∨ 8 * (off + 8) ≤ p → bitAt b.buf p = bitAt a.buf p
  header : Header b.buf off first second
  depth : b.depth = a.depth
  handles : b.handles = a.handles
  addressable : off + size < usizeLimit

theorem beginObject_spec {enc enc' : Encoder} {off size first second : Nat} (hsize : 8 ≤ size)
    (h : enc.beginObject off size first second = .ok enc') :
    Began off size first second enc enc' := by
  obtain ⟨e, he, h⟩ := bind_eq_ok h
  obtain ⟨rfl, haddr⟩ := checkedAdd_eq_ok he
  obtain ⟨enc₁, h₁, h₂⟩ := bind_eq_ok h
  have hlen₀ : (enc.resize (off + size)).buf.length = max enc.buf.length (off + size) :=
    length_growTo ..
  obtain ⟨w₁, hbuf₁, hlen₁⟩ := writeNum_spec (by omega) h₁
  obtain ⟨w₂, hbuf₂, hlen₂⟩ := writeNum_spec (by omega) h₂
  refine ⟨by omega, fun p hp => ?_, ⟨fun hf dec hs hle hlt => ?_, fun hsec dec hs hle hlt => ?_⟩,
    w₂.depth.trans w₁.depth, ?_, haddr⟩
  · have hin₁ : off + (toLE 4 first).length ≤ (enc.resize (off + size)).buf.length := by
      rw [length_toLE]
      omega
    have hin₂ : off + 4 + (toLE 4 second).length ≤ enc₁.buf.length := by
      rw [length_toLE]
      omega
    rw [hbuf₂, bitAt_putBytes hin₂, length_toLE, if_neg (by omega), hbuf₁, bitAt_putBytes hin₁,
      length_toLE, if_neg (by omega)]
    exact bitAt_growTo ..
  · have hslot := (hs.mono (Nat.le_refl _) (by omega : 8 * (off + 4) ≤ 8 * (off + 8))).trans
      (w₂.keeps.sameBits (by omega) (.inl (by omega)))
    rw [hbuf₁] at hslot
    exact readUint_of_put (by omega) (by omega) hlt hf hslot
  · rw [hbuf₂] at hs
    exact readUint_of_put (by omega) (by omega) hlt hsec (hs.mono (by omega) (by omega))
  · rw [w₂.handles, w₁.handles]
    rfl

/-- An object reserved at the end of the buffer. -/
theorem Began.wrote_end {off size first second : Nat} {a b : Encoder}
    (h : Began off size first second a b) (hoff : a.buf.length = off) (h8 : 8 ∣ size) :
    Wrote 0 0 0 size a b := by
  have hlen := h.length
  refine ⟨⟨by omega, fun p hp _ => h.outside p (.inl (by omega))⟩, h.depth, h.handles,
    fun _ => ⟨by omega, h8⟩⟩

/-- An object reserved inside the buffer. -/
theorem Began.wrote_inside {off size first second : Nat} {a b : Encoder}
    (h : Began off size first second a b) (hin : off + size ≤ a.buf.length) :
    Wrote (8 * off) (8 * (off + 8)) 0 0 a b := by
  have hlen := h.length
  exact ⟨⟨by omega, fun p _ hout => h.outside p hout⟩, h.depth, h.handles,
    fun _ => ⟨by omega, Nat.dvd_zero 8⟩⟩

/-- What a decoder finds at an object: its header, and behind it the fields. -/
structure Found (off size first second : Nat) (D : Decoder → WireResult (α × Decoder))
    (buf : List UInt8) (dec dec' : Decoder) (a : α) : Prop where
  inside : off + size ≤ dec.bytes.length
  first : first < sizeFieldLimit → dec.readUint 4 off = .ok first
  second : second < sizeFieldLimit → dec.readUint 4 (off + 4) = .ok second
  fields : Yields D buf dec' a

/-- An object at the end of the buffer, whose fields match. -/
theorem object_spec {m : Mode} {n h g need off size first second : Nat}
    {E : Encoder → WireResult Encoder} {D : Decoder → WireResult (α × Decoder)} {v : α}
    {enc enc' : Encoder} (hoff : enc.buf.length = off) (hsize : 8 ≤ size) (h8 : 8 ∣ size)
    (hE : Sound m n h g need (8 * (off + 8)) (8 * (off + size)) E D v)
    (hok : enc.beginObject off size first second >>= E = .ok enc') :
    Wrote 0 0 h (size + g) enc enc' ∧ off + size ≤ enc'.buf.length ∧
      (m ≠ .skipped → SizesFit m enc'.buf → ∃ a, (m = .exact → a = v) ∧
        ∀ dec, Views n need 0 0 off enc'.buf dec →
          Found off size first second D enc'.buf dec { dec with frontier := off + size } a) := by
  obtain ⟨enc₁, h₁, h₂⟩ := bind_eq_ok hok
  have hb := beginObject_spec hsize h₁
  have hw₁ := hb.wrote_end hoff h8
  have hlen₁ := hb.length
  have hz : Blank (8 * (off + 8)) (8 * (off + size)) enc₁.buf := by
    intro p hp _
    rw [hb.outside p (.inr hp), bitAt_of_le (by omega)]
  obtain ⟨w₂, hread⟩ := hE enc₁ enc' (by omega) hz h₂
  have hlen₂ := w₂.length_le
  have hw := hw₁.trans w₂ (.inl (by omega))
  rw [Nat.zero_add] at hw
  refine ⟨hw, by omega, fun hm hfit => ?_⟩
  obtain ⟨a, hav, hreads⟩ := hread hm hfit
  refine ⟨a, hav, fun dec hv => ?_⟩
  have hle := hv.length_le
  have hhead : SameBits (8 * off) (8 * (off + 8)) dec.bytes enc₁.buf :=
    (hv.region.mono (Nat.le_refl _) (by omega)).trans
      (w₂.keeps.sameBits (by omega) (.inl (Nat.le_refl _)))
  have hview : Views n need (8 * (off + 8)) (8 * (off + size)) enc₁.buf.length enc'.buf
      { dec with frontier := off + size } :=
    ⟨hv.region.mono (by omega) (by omega), hv.region.mono (by omega) (Nat.le_refl _),
      hle, hv.addressable, hv.handles, by show off + size ≤ _; omega, hv.depth_le⟩
  exact ⟨by omega, fun hf => hb.header.first hf dec hhead (by omega) hv.addressable,
    fun hs => hb.header.second hs dec hhead (by omega) hv.addressable, hreads _ hview⟩

/-- The fields of an object that ends the buffer are encoded where the buffer ends. -/
theorem beginObject_lastly {off size first second : Nat} {tail : Bool}
    {E : Encoder → WireResult Encoder} {enc enc' : Encoder} (hsize : 8 ≤ size)
    (hend : tail = true → enc.buf.length ≤ off + size ∧ 8 ∣ off + size)
    (hok : enc.beginObject off size first second >>= E = .ok enc') :
    enc.beginObject off size first second >>= lastly tail (8 * (off + size)) E = .ok enc' := by
  obtain ⟨enc₁, h₁, h₂⟩ := bind_eq_ok hok
  have hlen := (beginObject_spec hsize h₁).length
  rw [h₁, ok_bind]
  refine provided_eq_ok.mpr ⟨fun htail => ?_, h₂⟩
  obtain ⟨hle, h8⟩ := hend htail
  rw [Nat.max_eq_right hle] at hlen
  exact ⟨congrArg (8 * ·) hlen, hlen ▸ h8⟩

/-- The same for an object in place. -/
theorem inline_spec {m : Mode} {n h g need off size first second : Nat}
    {E : Encoder → WireResult Encoder} {D : Decoder → WireResult (α × Decoder)} {v : α}
    {enc enc' : Encoder} (hin : off + size ≤ enc.buf.length) (hsize : 8 ≤ size)
    (hblank : Blank (8 * off) (8 * (off + size)) enc.buf)
    (hE : Sound m n h g need (8 * (off + 8)) (8 * (off + size)) E D v)
    (hok : enc.beginObject off size first second >>= E = .ok enc') :
    Wrote (8 * off) (8 * (off + size)) h g enc enc' ∧
      (m ≠ .skipped → SizesFit m enc'.buf → ∃ a, (m = .exact → a = v) ∧
        ∀ dec, Views n need (8 * off) (8 * (off + size)) enc.buf.length enc'.buf dec →
          Found off size first second D enc'.buf dec dec a) := by
  obtain ⟨enc₁, h₁, h₂⟩ := bind_eq_ok hok
  have hb := beginObject_spec hsize h₁
  have hw₁ := hb.wrote_inside hin
  have hlen₁ := hb.length
  have hz : Blank (8 * (off + 8)) (8 * (off + size)) enc₁.buf := by
    intro p hp hp'
    rw [hb.outside p (.inr hp)]
    exact hblank p (by omega) hp'
  obtain ⟨w₂, hread⟩ := hE enc₁ enc' (by omega) hz h₂
  have hlen₂ := w₂.length_le
  have hw := (hw₁.mono (Nat.le_refl _) (by omega : _ ≤ 8 * (off + size))).trans w₂
    (.inr (.inl ⟨by omega, Nat.le_refl _⟩))
  rw [Nat.zero_add, Nat.zero_add] at hw
  refine ⟨hw, fun hm hfit => ?_⟩
  obtain ⟨a, hav, hreads⟩ := hread hm hfit
  refine ⟨a, hav, fun dec hv => ?_⟩
  have hle := hv.length_le
  have hhead : SameBits (8 * off) (8 * (off + 8)) dec.bytes enc₁.buf :=
    (hv.slot.mono (Nat.le_refl _) (by omega)).trans
      (w₂.keeps.sameBits (by omega) (.inl (Nat.le_refl _)))
  have hview : Views n need (8 * (off + 8)) (8 * (off + size)) enc₁.buf.length enc'.buf dec :=
    ⟨hv.slot.mono (by omega) (Nat.le_refl _), hv.region.mono (by omega) (Nat.le_refl _),
      hle, hv.addressable, hv.handles, by have := hv.frontier_le; omega, hv.depth_le⟩
  exact ⟨by omega, fun hf => hb.header.first hf dec hhead (by omega) hv.addressable,
    fun hs => hb.header.second hs dec hhead (by omega) hv.addressable, hreads _ hview⟩

/-! ### Claims -/

theorem claim_ok {dec : Decoder} {start len : Nat} (hlen : 0 < len)
    (hin : start + len ≤ dec.bytes.length) (haddr : dec.bytes.length < usizeLimit)
    (hfront : dec.frontier ≤ start) :
    dec.claim start len = .ok { dec with frontier := start + len } := by
  rw [Decoder.claim, checkedAdd_ok (by omega), ok_bind, if_neg (by omega), if_neg (by omega),
    if_neg (by omega)]

theorem inRange_ok {dec : Decoder} {start len : Nat} (hin : start + len ≤ dec.bytes.length)
    (haddr : dec.bytes.length < usizeLimit) : dec.inRange start len = .ok () := by
  rw [Decoder.inRange, if_neg (by omega), if_neg (by omega)]

/-! ### Strings -/

theorem fromUTF8_toUTF8 (s : String) :
    String.fromUTF8? ⟨s.toUTF8.data.toList.toArray⟩ = some s := by
  have harr : (⟨s.toUTF8.data.toList.toArray⟩ : ByteArray) = s.toByteArray := by
    rw [Array.toArray_toList]
    rfl
  rw [harr, String.fromUTF8?, dif_pos s.isValidUTF8]
  rfl

/-- A string object. -/
theorem stringObject_sound {m : Mode} {n need : Nat} {s : String}
    (hnul : m ≠ .skipped → NulFree s) (hsize : m = .exact → stringSize s < sizeFieldLimit) :
    ObjectSound m n 0 (stringSize s) need (encodeStringObjectAt · s) decodeStringAt
      (.string s) := by
  intro enc enc' hE
  obtain ⟨total, htotal, hE₁⟩ := bind_eq_ok hE
  obtain ⟨enc₁, h₁, hE₂⟩ := bind_eq_ok hE₁
  obtain ⟨rfl, -⟩ := alignUp_eq_ok htotal
  obtain rfl := Except.ok.inj hE₂
  generalize hdata : s.toUTF8.data.toList = data at h₁ ⊢
  have hstr : stringSize s = (arrayHeaderSize + data.length + 1 + 7) / 8 * 8 := by
    rw [stringSize, hdata]
  rw [← hstr] at h₁
  have harr : arrayHeaderSize = 8 := rfl
  have hb := beginObject_spec (by omega) h₁
  have h8 : 8 ∣ stringSize s := by
    rw [hstr]
    exact Nat.dvd_mul_left 8 _
  have hw₁ := hb.wrote_end rfl h8
  have hlen₁ := hb.length
  have hin : enc.buf.length + 8 + (data ++ [0]).length ≤ enc₁.buf.length := by
    rw [List.length_append, List.length_singleton]
    omega
  have hlen₂ : (putBytes enc₁.buf (enc.buf.length + 8) (data ++ [0])).length = enc₁.buf.length :=
    length_putBytes hin
  have hkeep := keeps_putBytes hin
  have hw₂ : Wrote (8 * (enc.buf.length + 8)) (8 * (enc.buf.length + 8 + (data ++ [0]).length))
      0 0 enc₁ { enc₁ with buf := putBytes enc₁.buf (enc.buf.length + 8) (data ++ [0]) } :=
    ⟨hkeep, rfl, rfl, fun _ => ⟨hlen₂, Nat.dvd_zero 8⟩⟩
  refine ⟨hw₁.trans hw₂ (.inl (by omega)), fun hm hfit => ⟨_, fun _ => rfl, fun dec hv => ?_⟩⟩
  have hle := hv.length_le
  simp only [hlen₂] at hle
  have hregion := hv.region
  simp only [hlen₂] at hregion
  have haddr := hv.addressable
  have hfront := hv.frontier_le
  -- the header
  have htot : stringSize s < sizeFieldLimit := by
    rcases hfit with hex | hlt
    · exact hsize hex
    · simp only [hlen₂] at hlt
      omega
  have hhead : SameBits (8 * enc.buf.length) (8 * (enc.buf.length + 8)) dec.bytes enc₁.buf :=
    (hregion.mono (Nat.le_refl _) (by omega)).trans
      (hkeep.sameBits (by omega) (.inl (Nat.le_refl _)))
  have hnum := hb.header.first htot dec hhead hle haddr
  have hcount := hb.header.second (by omega) dec hhead hle haddr
  -- the data and the NUL behind it
  have hslice := slice_of_put hin (by omega) (hregion.mono (by omega) (by omega))
  have hdrop : (dec.bytes.drop (enc.buf.length + 8)).take data.length = data := by
    have htake := congrArg (List.take data.length) hslice
    rw [List.take_take, List.length_append, List.length_singleton,
      Nat.min_eq_left (Nat.le_succ _), List.take_left] at htake
    exact htake
  have hzero : dec.bytes[enc.buf.length + 8 + data.length]? = some 0 := by
    have hget := congrArg (·[data.length]?) hslice
    simp only [List.length_append, List.length_singleton, List.getElem?_append_right
      (Nat.le_refl _), Nat.sub_self, List.getElem?_cons_zero] at hget
    rw [List.getElem?_take_of_lt (Nat.lt_succ_self _), List.getElem?_drop] at hget
    exact hget
  have hclean : 0 ∉ data := by
    rw [← hdata]
    exact hnul hm
  refine ⟨enc.buf.length + stringSize s, by show _ ≤ List.length _; rw [hlen₂]; omega, ?_⟩
  rw [decodeStringAt, inRange_ok (by omega) haddr, ok_bind, hnum, ok_bind, hcount, ok_bind,
    if_neg (by omega), if_neg (by omega)]
  simp only [harr, hdrop, if_neg hclean, hzero, ne_eq, not_true_eq_false, if_false]
  rw [claim_ok (by omega) (by omega) haddr hfront, ok_bind, ← hdata, fromUTF8_toUTF8]

/-! ### Unions -/

theorem decodeUnionAt_ok {off : Nat} {tag : UInt32} {members : List FieldDecoder}
    {member : FieldDecoder} {claimSelf : Bool} {dec dec₁ dec₂ : Decoder} {a : Value}
    (haddr : dec.bytes.length < usizeLimit) (hin : off + unionDataSize ≤ dec.bytes.length)
    (hsize : dec.readUint 4 off = .ok unionDataSize)
    (htag : dec.readUint 4 (off + 4) = .ok tag.toNat) (hmember : members[tag.toNat]? = some member)
    (hclaim : (if claimSelf then dec.claim off unionDataSize else .ok dec) = .ok dec₁)
    (hread : member (off + 8) 0 dec₁ = .ok (a, dec₂)) :
    decodeUnionAt members claimSelf off dec = .ok (.union tag a, dec₂) := by
  have hunion : unionDataSize = 16 := rfl
  rw [decodeUnionAt, inRange_ok (by omega) haddr, ok_bind, hsize, ok_bind, htag, ok_bind]
  simp only [hmember, ne_eq, not_true_eq_false, if_false]
  cases claimSelf with
  | false =>
      obtain rfl := Except.ok.inj hclaim
      rw [if_neg Bool.false_ne_true, ok_bind, hread, ok_bind, UInt32.ofNat_toNat]
  | true =>
      rw [if_pos rfl] at hclaim ⊢
      rw [hclaim, ok_bind, hread, ok_bind, UInt32.ofNat_toNat]

/-- A union in place. -/
theorem sound_unionInline {m : Mode} {n h g need off : Nat} {tail : Bool} {tag : UInt32}
    {members : List FieldDecoder} {member : FieldDecoder}
    {payload : Nat → Encoder → WireResult Encoder} {w : Value}
    (hmember : members[tag.toNat]? = some member)
    (hp : Sound m n h g need (8 * (off + 8)) (8 * (off + 8 + 8))
      (lastly tail (8 * (off + 8 + 8)) (payload (off + 8))) (member (off + 8) 0) w) :
    Sound m n h g need (8 * off) (8 * (off + unionDataSize))
      (lastly tail (8 * (off + unionDataSize)) (encodeUnionInline tag payload off))
      (decodeUnionAt members false off) (.union tag w) := by
  intro enc enc' hin hz hE
  obtain ⟨hlast, hE⟩ := provided_eq_ok.mp hE
  have hend : tail = true → enc.buf.length ≤ off + unionDataSize ∧ 8 ∣ off + unionDataSize := by
    intro htail
    obtain ⟨hlen, h8⟩ := hlast htail
    have hlen : enc.buf.length = off + unionDataSize := Nat.mul_left_cancel (by decide) hlen
    exact ⟨hlen.le, hlen ▸ h8⟩
  obtain ⟨hw, hfound⟩ := inline_spec (by omega) (by decide : 8 ≤ unionDataSize) hz hp
    (beginObject_lastly (by decide) hend hE)
  refine ⟨hw, fun hm hfit => ?_⟩
  obtain ⟨a, hav, hreads⟩ := hfound hm hfit
  refine ⟨.union tag a, fun hex => by rw [hav hex], fun dec hv => ?_⟩
  obtain ⟨hinside, hfirst, hsecond, f, hf, hD⟩ := hreads dec hv
  exact ⟨f, hf, decodeUnionAt_ok hv.addressable hinside (hfirst (by decide))
    (hsecond tag.toNat_lt) hmember rfl hD⟩

/-- A union as an object. -/
theorem unionObject_sound {m : Mode} {n h g need : Nat} {tail : Bool} {tag : UInt32}
    {members : List FieldDecoder} {member : FieldDecoder}
    {payload : Nat → Encoder → WireResult Encoder} {w : Value}
    (hmember : members[tag.toNat]? = some member)
    (hp : ∀ off, Sound m n h g need (8 * off) (8 * (off + 8))
      (lastly tail (8 * (off + 8)) (payload off)) (member off 0) w) :
    ObjectSound m n h (unionDataSize + g) need (aligned tail (encodeUnionInline tag payload))
      (decodeUnionAt members true) (.union tag w) := by
  intro enc enc' hE
  obtain ⟨halign, hE⟩ := provided_eq_ok.mp hE
  obtain ⟨hw, -, hfound⟩ := object_spec rfl (by decide : 8 ≤ unionDataSize) (by decide)
    (hp (enc.buf.length + 8)) (beginObject_lastly (by decide) (fun htail =>
      ⟨Nat.le_add_right _ _, Nat.dvd_add (halign htail) (by decide)⟩) hE)
  refine ⟨hw, fun hm hfit => ?_⟩
  obtain ⟨a, hav, hreads⟩ := hfound hm hfit
  refine ⟨.union tag a, fun hex => by rw [hav hex], fun dec hv => ?_⟩
  obtain ⟨hinside, hfirst, hsecond, f, hf, hD⟩ := hreads dec hv
  refine ⟨f, hf, decodeUnionAt_ok hv.addressable hinside (hfirst (by decide))
    (hsecond tag.toNat_lt) hmember ?_ hD⟩
  exact claim_ok (by decide) hinside hv.addressable hv.frontier_le

/-! ### Arrays -/

theorem Ty.elemSize_pos (element : Ty) : 0 < element.elemSize := by
  unfold Ty.elemSize
  split
  · exact Kind.size_pos _
  · decide

theorem decodeItems_succ_ok {D : Nat → Decoder → WireResult (Value × Decoder)}
    {size count off : Nat} {dec dec₁ dec₂ : Decoder} {a : Value} {as : List Value}
    (h₁ : D off dec = .ok (a, dec₁))
    (h₂ : decodeItems D size count (off + size) dec₁ = .ok (as, dec₂)) :
    decodeItems D size (count + 1) off dec = .ok (a :: as, dec₂) := by
  rw [decodeItems, h₁, ok_bind]
  dsimp only
  rw [h₂]
  rfl

/-- The elements of an array, one after the other. -/
theorem items_sound {m : Mode} {n need : Nat} {element : Ty}
    {D : Nat → Decoder → WireResult (Value × Decoder)} (hh gg : Value → Nat) {vs : List Value}
    (hitem : ∀ v ∈ vs, ∀ off, Sound m n (hh v) (gg v) need (8 * off)
      (8 * (off + element.elemSize)) (encodeItem v element off) (D off) v) (off : Nat) :
    Sound m n (vs.map hh).sum (vs.map gg).sum need (8 * off)
      (8 * (off + element.elemSize * vs.length)) (encodeItems vs element off)
      (decodeItems D element.elemSize vs.length off) vs := by
  induction vs generalizing off with
  | nil => exact sound_nil []
  | cons v vs ih =>
      rw [List.forall_mem_cons] at hitem
      have hend : off + element.elemSize * (v :: vs).length =
          off + element.elemSize + element.elemSize * vs.length := by
        rw [List.length_cons, Nat.mul_add, Nat.mul_one]
        omega
      have hseq := Sound.seq (D := decodeItems D element.elemSize (vs.length + 1) off) List.cons
        (fun dec a f b dec' h₁ h₂ => decodeItems_succ_ok h₁ h₂)
        (by omega) (Nat.le_refl _) (by omega) (hitem.1 off)
        (ih hitem.2 (off + element.elemSize))
      rw [hend, List.map_cons, List.map_cons, List.sum_cons, List.sum_cons]
      intro enc enc' hin hz hE
      rw [encodeItems_cons] at hE
      exact hseq enc enc' hin hz hE

theorem decodeItems_length {D : Nat → Decoder → WireResult (Value × Decoder)} {size count off : Nat}
    {dec dec' : Decoder} {vs : List Value} (h : decodeItems D size count off dec = .ok (vs, dec')) :
    vs.length = count := by
  induction count generalizing off dec dec' vs with
  | zero =>
      obtain ⟨rfl, -⟩ := Prod.mk.inj (Except.ok.inj h)
      rfl
  | succ count ih =>
      obtain ⟨⟨v, dec₁⟩, -, h₁⟩ := bind_eq_ok h
      obtain ⟨⟨ws, dec₂⟩, h₂, h₃⟩ := bind_eq_ok h₁
      obtain ⟨rfl, -⟩ := Prod.mk.inj (Except.ok.inj h₃)
      exact congrArg Nat.succ (ih h₂)

/-- Lists of a length, as the maps need them. -/
abbrev Sized (count : Nat) := { vs : List Value // vs.length = count }

/-- A decoder of lists, which refuses lists of another length. -/
def sized (count : Nat) (D : Nat → Decoder → WireResult (List Value × Decoder)) (target : Nat)
    (dec : Decoder) : WireResult (Sized count × Decoder) := do
  let (vs, dec) ← D target dec
  if h : vs.length = count then .ok (⟨vs, h⟩, dec) else .error .outOfRange

theorem sized_eq_ok {count target : Nat} {D : Nat → Decoder → WireResult (List Value × Decoder)}
    {dec dec' : Decoder} {a : Sized count} (h : sized count D target dec = .ok (a, dec')) :
    D target dec = .ok (a.val, dec') := by
  obtain ⟨⟨vs, dec₁⟩, h₁, h₂⟩ := bind_eq_ok h
  dsimp only at h₂
  split at h₂
  · obtain ⟨rfl, rfl⟩ := Prod.mk.inj (Except.ok.inj h₂)
    exact h₁
  · exact nomatch h₂

/-- An array object. -/
theorem arrayObject_sound {m : Mode} {n h g need : Nat} {element : Ty} {vs : List Value}
    {items : Nat → Encoder → WireResult Encoder} {D : Nat → Decoder → WireResult (Value × Decoder)}
    (hsize : m = .exact → arraySize element vs.length < sizeFieldLimit)
    (hi : ∀ off, Sound m n h g need (8 * off) (8 * (off + element.elemSize * vs.length))
      (items off) (decodeItems D element.elemSize vs.length off) vs) :
    ObjectSound m n h (arraySize element vs.length + g) need
      (encodeArrayBody element vs.length items)
      (sized vs.length (decodeArrayBody element D)) ⟨vs, rfl⟩ := by
  intro enc enc' hE
  obtain ⟨raw, hraw, hE₁⟩ := bind_eq_ok hE
  obtain ⟨total, htotal, hE₂⟩ := bind_eq_ok hE₁
  obtain ⟨rfl, -⟩ := checkedMul_eq_ok hraw
  obtain ⟨rfl, -⟩ := alignUp_eq_ok htotal
  have harr : arrayHeaderSize = 8 := rfl
  have hpos := element.elemSize_pos
  have hmul : vs.length ≤ element.elemSize * vs.length := Nat.le_mul_of_pos_left _ hpos
  have hdef : arraySize element vs.length =
      (arrayHeaderSize + element.elemSize * vs.length + 7) / 8 * 8 := rfl
  rw [← hdef] at hE₂
  have hraw' := hraw
  generalize hlen : element.elemSize * vs.length = raw at *
  -- the elements, and the padding behind them
  have hpad : Sound m n h g need (8 * (enc.buf.length + 8))
      (8 * (enc.buf.length + arraySize element vs.length)) (items (enc.buf.length + 8))
      (decodeItems D element.elemSize vs.length (enc.buf.length + 8)) vs := by
    intro enc₁ enc₂ hin hz hok
    obtain ⟨w, hread⟩ := hi (enc.buf.length + 8) enc₁ enc₂ (by omega)
      (fun p hp hp' => hz p hp (by omega)) hok
    refine ⟨w.mono (Nat.le_refl _) (by omega), hread.imp (Nat.le_refl _) fun a hav =>
      ⟨a, hav, fun hreads dec hv => hreads dec (hv.earlier
        (hv.slot.mono (Nat.le_refl _) (by omega)) hv.region (Nat.le_refl _) hv.frontier_le
        (Nat.le_refl _))⟩⟩
  obtain ⟨hw, hinside, hfound⟩ := object_spec rfl (by omega) (by omega) hpad hE₂
  refine ⟨hw, fun hm hfit => ?_⟩
  obtain ⟨a, hav, hreads⟩ := hfound hm hfit
  have htot : arraySize element vs.length < sizeFieldLimit :=
    hfit.elim hsize fun hlt => by omega
  refine ⟨if ha : a.length = vs.length then ⟨a, ha⟩ else ⟨vs, rfl⟩, fun hex => ?_,
    fun dec hv => ?_⟩
  · obtain rfl := hav hex
    exact dif_pos rfl
  · obtain ⟨hinb, hfirst, hsecond, f, hf, hD⟩ := hreads dec hv
    have ha := decodeItems_length hD
    refine ⟨f, hf, ?_⟩
    have hbody : decodeArrayBody element D enc.buf.length dec =
        .ok (a, { dec with frontier := f }) := by
      have haddr := hv.addressable
      rw [decodeArrayBody, inRange_ok (by omega) haddr, ok_bind, hfirst htot, ok_bind,
        hsecond (by omega), ok_bind, checkedMul_ok (by omega), ok_bind, hlen,
        checkedAdd_ok (by omega), ok_bind, if_neg (by omega), if_neg (by omega),
        claim_ok (by omega) hinb haddr hv.frontier_le, ok_bind]
      exact hD
    rw [sized, hbody, ok_bind]
    simp only [ha, dif_pos]

/-! ### Maps -/

/-- Follow a pointer that is not null. -/
def followAt (off : Nat) (D : Nat → Decoder → WireResult (α × Decoder)) (dec : Decoder) :
    WireResult (α × Decoder) := do
  match ← dec.readPointer off with
  | .null => .error unexpectedNullPointer
  | .offset target => D target dec

theorem followAt_eq_ok {off : Nat} {D : Nat → Decoder → WireResult (α × Decoder)} {dec : Decoder}
    {r : α × Decoder} (h : followAt off D dec = .ok r) :
    ∃ target, dec.readPointer off = .ok (.offset target) ∧ D target dec = .ok r := by
  obtain ⟨p, hp, h₁⟩ := bind_eq_ok h
  cases p with
  | null => exact nomatch h₁
  | offset target => exact ⟨target, hp, h₁⟩

/-- A map object. -/
theorem mapObject_sound {m : Mode} {n h₁ g₁ h₂ g₂ need count : Nat}
    {KO VO : Nat → Encoder → WireResult Encoder}
    {KD VD : Nat → Decoder → WireResult (List Value × Decoder)} {ks vs : Sized count}
    (hk : ObjectSound m n h₁ g₁ need KO (sized count KD) ks)
    (hv : ObjectSound m n h₂ g₂ need VO (sized count VD) vs) :
    ObjectSound m n (h₁ + h₂) (mapDataSize + (g₁ + g₂)) (1 + need)
      (encodeMapAt count count KO VO) (decodeMapAt KD VD) (.map ks.val vs.val) := by
  refine ObjectSound.nestedDecoder fun enc enc' hE => ?_
  rw [encodeMapAt, if_neg (fun h => h rfl)] at hE
  have hkeys : Sound m n h₁ g₁ need (8 * (enc.buf.length + 8)) (8 * (enc.buf.length + 8 + 8))
      (·.appendObject (enc.buf.length + 8) KO)
      (followAt (enc.buf.length + 8) (sized count KD)) ks :=
    sound_pointer (fun dec target hptr => by rw [followAt, hptr]; rfl) hk
  have hvalues : Sound m n h₂ g₂ need (8 * (enc.buf.length + 16)) (8 * (enc.buf.length + 16 + 8))
      (·.appendObject (enc.buf.length + 16) VO)
      (followAt (enc.buf.length + 16) (sized count VD)) vs :=
    sound_pointer (fun dec target hptr => by rw [followAt, hptr]; rfl) hv
  have hboth := (Sound.seq (D := decodeMapArrays KD VD enc.buf.length)
    (fun k v => Value.map k.val v.val) ?_ (by omega) (by omega) (by omega) hkeys
    hvalues).nestedEncoder
  · obtain ⟨hw, hinside, hfound⟩ := object_spec rfl (by decide : 8 ≤ mapDataSize) (by decide)
      hboth hE
    refine ⟨hw, fun hm hfit => ?_⟩
    obtain ⟨a, hav, hreads⟩ := hfound hm hfit
    refine ⟨a, hav, fun dec hview => ?_⟩
    obtain ⟨hinb, hfirst, -, f, hf, hD⟩ := hreads dec hview
    refine ⟨f, hf, ?_⟩
    beta_reduce
    rw [inRange_ok hinb hview.addressable, ok_bind, hfirst (by decide), ok_bind,
      if_neg (Nat.lt_irrefl _),
      claim_ok (by decide) hinb hview.addressable hview.frontier_le, ok_bind]
    exact hD
  · -- both pointers are read before the arrays
    intro dec k f v dec' h₁ h₂
    obtain ⟨ko, hkp, hko⟩ := followAt_eq_ok h₁
    obtain ⟨vo, hvp, hvo⟩ := followAt_eq_ok h₂
    have hvp' : dec.readPointer (enc.buf.length + 16) = .ok (.offset vo) := hvp
    rw [decodeMapArrays, hkp, ok_bind, hvp', ok_bind]
    simp only [sized_eq_ok hko, ok_bind, sized_eq_ok hvo, k.property, v.property, ne_eq,
      not_true_eq_false, if_false]

end MojoRs.Wire
