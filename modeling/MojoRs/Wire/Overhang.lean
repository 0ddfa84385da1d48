/-
MojoRs/Wire/Overhang.lean

Encoders that write on behind their slot.  A struct that cannot be null has a
slot of eight bytes, and so has a union as a member of a union, but the
encoder writes the whole struct or union there.  What overhangs the slot lies
on the fields and objects that follow; it does no harm where nothing follows,
that is, where the slot ends the buffer.

Main results:
* `Sound.overhang` — at the end of the buffer, an encoder matches in a slot of
  eight bytes if it matches in a slot of its size;
* `fields_sound_last` — the last field of a struct may be such a slot, if the
  fields in front of it append nothing.
-/
import MojoRs.Wire.Matching

namespace MojoRs.Wire

open Lib

variable {α : Type}

/-! ### Writing behind the slot -/

theorem beginObject_resize (enc : Encoder) (off size first second : Nat) :
    (enc.resize (off + size)).beginObject off size first second =
      enc.beginObject off size first second := by
  rw [Encoder.beginObject, Encoder.beginObject]
  cases he : checkedAdd off size with
  | error e => rfl
  | ok e =>
      obtain ⟨rfl, -⟩ := checkedAdd_eq_ok he
      have hsame : (enc.resize (off + size)).resize (off + size) = enc.resize (off + size) := by
        show Encoder.mk (growTo (growTo enc.buf _) _) _ _ = _
        rw [growTo_of_le (Nat.le_trans (Nat.le_max_right _ _) (length_growTo ..).ge)]
        rfl
      rw [ok_bind, ok_bind, hsame]

theorem encodeStructAt_resize (fields : List FieldType) (version : UInt32) (null : FieldValue)
    (values : List FieldValue) (off : Nat) (enc : Encoder) :
    encodeStructAt fields version null values off (enc.resize (off + structSize fields)) =
      encodeStructAt fields version null values off enc := by
  rw [encodeStructAt, encodeStructAt]
  cases hpack : PackedStruct.pack (packFields fields) with
  | error e => rfl
  | ok ps =>
      obtain ⟨-, rfl⟩ := pack_eq_ok hpack
      rw [ok_bind, ok_bind]
      exact congrArg (· >>= _) (beginObject_resize ..)

theorem encodeUnionInline_resize (tag : UInt32) (payload : Nat → Encoder → WireResult Encoder)
    (off : Nat) (enc : Encoder) :
    encodeUnionInline tag payload off (enc.resize (off + unionDataSize)) =
      encodeUnionInline tag payload off enc :=
  congrArg (· >>= payload (off + 8)) (beginObject_resize ..)

theorem encodeUnion_resize (members : List Ty) (payload nullable : Bool) (tag : UInt32)
    (value : Value) (off bit : Nat) (enc : Encoder) :
    encodeFieldAt (.union tag value) payload (.union members nullable true) off bit
        (enc.resize (off + unionDataSize)) =
      encodeFieldAt (.union tag value) payload (.union members nullable true) off bit enc := by
  cases hm : members[tag.toNat]? with
  | none => simp only [encodeFieldAt, hm]
  | some member =>
      rw [encodeFieldAt_unionInPlace hm]
      exact encodeUnionInline_resize ..

/-- At the end of the buffer, what overhangs the slot counts as appended. -/
theorem Sound.overhang {m : Mode} {n h g need off size : Nat} {E : Encoder → WireResult Encoder}
    {D : Decoder → WireResult (α × Decoder)} {v : α} (hsize : 8 ≤ size) (h8 : 8 ∣ size)
    (hgrow : ∀ enc : Encoder, E (enc.resize (off + size)) = E enc)
    (hs : Sound m n h g need (8 * off) (8 * (off + size)) (lastly true (8 * (off + size)) E) D v) :
    Sound m n h (size - 8 + g) need (8 * off) (8 * (off + 8)) (lastly true (8 * (off + 8)) E)
      D v := by
  intro enc enc' hin hz hE
  obtain ⟨hlast, hE⟩ := provided_eq_ok.mp hE
  obtain ⟨hend, halign⟩ := hlast rfl
  have hlen₁ : (enc.resize (off + size)).buf.length = off + size := by
    show (growTo _ _).length = _
    rw [length_growTo]
    omega
  have hbits : ∀ p, bitAt (enc.resize (off + size)).buf p = bitAt enc.buf p :=
    fun p => bitAt_growTo ..
  have hz₁ : Blank (8 * off) (8 * (off + size)) (enc.resize (off + size)).buf := by
    intro p hp hp'
    rw [hbits]
    by_cases hlt : p < 8 * (off + 8)
    · exact hz p hp hlt
    · exact bitAt_of_le (by omega)
  have hE₁ : lastly true (8 * (off + size)) E (enc.resize (off + size)) = .ok enc' :=
    provided_eq_ok.mpr ⟨fun _ => ⟨congrArg (8 * ·) hlen₁, by omega⟩, (hgrow enc).trans hE⟩
  obtain ⟨w, hread⟩ := hs (enc.resize (off + size)) enc' (by omega) hz₁ hE₁
  have hle := w.length_le
  refine ⟨⟨⟨by omega, fun p hp hout => ?_⟩, w.depth, w.handles, fun _ => ?_⟩,
    hread.imp (Nat.le_refl _) fun a hav => ⟨a, hav, fun hreads dec hv => hreads dec ?_⟩⟩
  · rw [w.keeps.same p (by omega) (by omega), hbits]
  · obtain ⟨hlen, hg⟩ := w.length (by omega)
    exact ⟨by omega, by omega⟩
  · -- the slot and what has been appended make up the whole
    have hfront := hv.frontier_le
    refine hv.earlier (fun p hp hp' => ?_) (hv.region.mono (by omega) (Nat.le_refl _))
      (Nat.le_refl _) (by omega) (Nat.le_refl _)
    by_cases hlt : p < 8 * (off + 8)
    · exact hv.slot p hp hlt
    · exact hv.region p (by omega) (by omega)

/-- An object behind a pointer that starts at an aligned end of the buffer. -/
theorem sound_appendAligned {m : Mode} {n h g need off : Nat} {nullable : Bool}
    {O : Nat → Encoder → WireResult Encoder} {D : Nat → Decoder → WireResult (Value × Decoder)}
    {v : Value} (hO : ObjectSound m n h g need (aligned true O) D v) :
    Sound m n h g need (8 * off) (8 * (off + 8)) (fun enc => enc.appendObject off O)
      (fun dec => dec.follow off nullable D) v := by
  rw [← appendObject_aligned]
  exact sound_appendObject hO

/-! ### The last field of a struct -/

theorem encodePackedFields_append (fields : List FieldType) (null : FieldValue)
    (values : List FieldValue) (off : Nat) (pre post : List PackedField) (enc : Encoder) :
    encodePackedFields fields null values off (pre ++ post) enc =
      encodePackedFields fields null values off pre enc >>=
        encodePackedFields fields null values off post := by
  induction pre generalizing enc with
  | nil => rfl
  | cons pf pre ih =>
      show encodePackedField _ _ _ _ _ >>= _ = (encodePackedField _ _ _ _ _ >>= _) >>= _
      cases encodePackedField fields (values.getD pf.field.index null) off pf enc with
      | error e => rfl
      | ok enc₁ => exact ih enc₁

theorem encodePackedFields_concat (fields : List FieldType) (null : FieldValue)
    (values : List FieldValue) (off : Nat) (pre : List PackedField) (last : PackedField) :
    encodePackedFields fields null values off (pre ++ [last]) = fun enc =>
      encodePackedFields fields null values off pre enc >>=
        encodePackedField fields (values.getD last.field.index null) off last := by
  funext enc
  rw [encodePackedFields_append]
  refine congrArg _ (funext fun enc₁ => ?_)
  rw [encodePackedFields]
  cases encodePackedField fields (values.getD last.field.index null) off last enc₁ with
  | error e => rfl
  | ok enc₂ => rfl

theorem readPackedFields_concat {decoders : List FieldDecoder} {off : Nat} {last : PackedField}
    {pre : List PackedField} {dec dec₁ dec₂ : Decoder} {rs : List FieldResult} {r : FieldResult}
    (h₁ : readPackedFields decoders off pre dec = .ok (rs, dec₁))
    (h₂ : readPackedField decoders off last dec₁ = .ok (r, dec₂)) :
    readPackedFields decoders off (pre ++ [last]) dec = .ok (rs ++ [r], dec₂) := by
  induction pre generalizing dec rs with
  | nil =>
      obtain ⟨rfl, rfl⟩ := Prod.mk.inj (Except.ok.inj h₁)
      show readPackedField decoders off last dec >>= _ = _
      rw [h₂]
      rfl
  | cons pf pre ih =>
      obtain ⟨⟨r₀, dec₀⟩, h₀, h₁⟩ := bind_eq_ok h₁
      obtain ⟨⟨rs', dec₁'⟩, h₁', h₁⟩ := bind_eq_ok h₁
      obtain ⟨rfl, rfl⟩ := Prod.mk.inj (Except.ok.inj h₁)
      rw [List.cons_append, readPackedFields, h₀, ok_bind]
      dsimp only
      rw [ih h₁']
      rfl

/-- Packed fields of which the last one ends the buffer, if those in front of it
append nothing. -/
theorem fields_sound_last {m : Mode} {n need off e : Nat} {fields : List FieldType}
    {null : FieldValue} {values : List FieldValue} {decoders : List FieldDecoder}
    {hh gg : PackedField → Nat} {R : PackedField → FieldResult} {pre : List PackedField}
    {last : PackedField} {s : Nat}
    (hlaid : (pre ++ [last]).Pairwise fun a b => a.stop off ≤ b.start off)
    (hs : ∀ pf ∈ pre, s ≤ pf.start off) (hsl : s ≤ last.start off) (hend : last.stop off = e)
    (hpre : ∀ pf ∈ pre, Sound m n (hh pf) 0 need (pf.start off) (pf.stop off)
      (encodePackedField fields (values.getD pf.field.index null) off pf)
      (readPackedField decoders off pf) (R pf))
    (hlast : Sound m n (hh last) (gg last) need (last.start off) (last.stop off)
      (lastly true (last.stop off)
        (encodePackedField fields (values.getD last.field.index null) off last))
      (readPackedField decoders off last) (R last)) :
    Sound m n ((pre ++ [last]).map hh).sum (gg last) need s e
      (lastly true e (encodePackedFields fields null values off (pre ++ [last])))
      (readPackedFields decoders off (pre ++ [last])) ((pre ++ [last]).map R) := by
  subst hend
  obtain ⟨hlaid₁, -, hcross⟩ := List.pairwise_append.mp hlaid
  have hfirst : Sound m n (pre.map hh).sum 0 need s (last.start off)
      (encodePackedFields fields null values off pre) (readPackedFields decoders off pre)
      (pre.map R) := by
    have h := @fields_sound m n need off (last.start off) fields null values decoders
      (fun _ => true) hh (fun _ => 0) R pre s hlaid₁ hs
      (fun pf hpf => hcross pf hpf last (List.mem_singleton_self last)) hsl hpre
    rwa [List.filter_true, List.map_const', List.sum_replicate_nat, Nat.mul_zero] at h
  have hseq := Sound.seq (D := readPackedFields decoders off (pre ++ [last]))
    (fun rs r => rs ++ [r]) (fun dec a f b dec' h₁ h₂ => readPackedFields_concat h₁ h₂)
    hsl (Nat.le_refl _) (last.start_le_stop off) hfirst hlast
  intro enc enc' hin hz hE
  obtain ⟨hbuf, hE⟩ := provided_eq_ok.mp hE
  rw [encodePackedFields_concat] at hE
  obtain ⟨enc₁, h₁, h₂⟩ := bind_eq_ok hE
  -- nothing has been appended when the last field comes
  have hle := last.start_le_stop off
  obtain ⟨w₁, -⟩ := hfirst enc enc₁ (by omega) (fun p hp hp' => hz p hp (by omega)) h₁
  obtain ⟨hlen₁, -⟩ := w₁.length (hbuf rfl).2
  have h := hseq enc enc' hin hz (by
    beta_reduce
    rw [h₁, ok_bind]
    exact provided_eq_ok.mpr ⟨fun _ => by rw [hlen₁]; exact hbuf rfl, h₂⟩)
  rw [Nat.zero_add] at h
  rwa [List.map_append, List.map_append, List.sum_append, List.map_singleton, List.map_singleton,
    List.sum_singleton]

end MojoRs.Wire
