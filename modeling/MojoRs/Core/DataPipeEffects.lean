/-
MojoRs/Core/DataPipeEffects.lean

What one operation on a data pipe can do to the pair (`data_pipe.rs`), as a
sequence of small effects.  Every operation, at either end, is a flush followed
by at most a few of them: an endpoint starts or ends a two-phase operation,
bytes are added at the end of the producer's view or taken from the front of
the consumer's, the news latch is set or cleared, an end closes, the lock is
poisoned.

An invariant of the pair is then proved once per effect instead of once per
branch of every operation (`keeps_apply`).  Two things about an operation show
in its effects: the number of bytes is a whole number of elements or all that
is left (`Cut`), and only `end_read` takes bytes without clearing the latch of
its end first (`PairEffect.finish`).

Main results: `effects_apply`, `keeps_apply`.
-/
import Mathlib.Logic.Relation
import MojoRs.Core.SignalFinality

namespace MojoRs.Core

open Lib

/-! ### The rings -/

namespace RingBuffer

variable {cap : Nat} {r r' : RingBuffer cap} {pages pages' : Pages}

/-- A write extends the data by what it copied. -/
theorem extendDataRange_write {source : List UInt8} {n : Nat}
    (h : r.write pages source = (n, r', pages')) :
    n = min source.length (cap - r.size) ∧ r.extendDataRange n = some r' := by
  simp only [write, Prod.mk.injEq] at h
  obtain ⟨rfl, rfl, -⟩ := h
  rw [freeChunks_add]
  have := r.size_le
  obtain ⟨r₁, hr₁⟩ := extendDataRange_isSome (r := r)
    (n := min source.length (cap - r.size)) (by omega)
  rw [hr₁]
  exact ⟨rfl, rfl⟩

theorem extendDataRange_writeAll {source : List UInt8}
    (h : r.writeAll pages source = some (r', pages')) :
    r.extendDataRange source.length = some r' := by
  unfold writeAll at h
  split at h
  · cases h
  · rename_i hfit
    have hw : r.write pages source = ((r.write pages source).1, r', pages') := by
      rw [← Option.some.inj h]
    obtain ⟨hn, hext⟩ := extendDataRange_write hw
    rw [Nat.min_eq_left (Nat.le_of_not_lt hfit : source.length ≤ cap - r.size)] at hn
    rwa [hn] at hext

/-- A read takes off what it copied out. -/
theorem discardAll_read (hcap : cap ≤ 2 ^ 63) {len : Nat} {out : List UInt8}
    (h : r.read pages len = (out, r')) :
    out.length = min len r.size ∧ r.discardAll out.length = some r' := by
  simp only [read, Prod.mk.injEq] at h
  obtain ⟨rfl, rfl⟩ := h
  rw [length_peek]
  obtain ⟨r₁, hr₁⟩ := discardAll_isSome (r := r) hcap (Nat.min_le_right len r.size)
  rw [hr₁]
  exact ⟨rfl, rfl⟩

theorem discardAll_readAll (hcap : cap ≤ 2 ^ 63) {len : Nat} {out : List UInt8}
    (h : r.readAll pages len = some (out, r')) :
    out.length = len ∧ r.discardAll len = some r' := by
  unfold readAll at h
  split at h
  · cases h
  · rename_i hfit
    obtain ⟨hlen, hdiscard⟩ := discardAll_read hcap (Option.some.inj h)
    rw [Nat.min_eq_left (Nat.le_of_not_lt hfit : len ≤ r.size)] at hlen
    rw [hlen] at hdiscard
    exact ⟨hlen, hdiscard⟩

theorem discardAll_discard (hcap : cap ≤ 2 ^ 63) (n : Nat) :
    r.discardAll (min n r.size) = some (r.discard n).2 := by
  obtain ⟨r₁, hr₁⟩ := discardAll_isSome (r := r) hcap (Nat.min_le_right n r.size)
  show _ = some ((r.discardAll (min n r.size)).getD r)
  rw [hr₁]
  rfl

end RingBuffer

/-! ### The effects -/

/-- The operation is a one-phase read at the end `self`. -/
def DataPipeOp.ReadsAt (op : DataPipeOp) (self : DataPipeEnd) : Prop :=
  ∃ elements numBytes flags, op = .read self elements numBytes flags

/-- The operation ends a two-phase read at the end `self`. -/
def DataPipeOp.EndsReadAt (op : DataPipeOp) (self : DataPipeEnd) : Prop :=
  ∃ consumed, op = .endRead self consumed

namespace DataPipe

open PairState

variable (p : DataPipe)

/-- A number of bytes that is cut at an element boundary, or not at all. -/
def Cut (n rest : Nat) : Prop := p.elementSize.toNat ∣ n ∨ n = rest

variable {p} in
theorem cut_min {n : Nat} (h : p.elementSize.toNat ∣ n) (rest : Nat) : p.Cut (min n rest) rest := by
  rcases min_choice n rest with hmin | hmin
  · rw [hmin]
    exact .inl h
  · exact .inr hmin

/-- One change of the pair inside the operation `op`. -/
inductive PairEffect (op : DataPipeOp) : PairState p.cap → PairState p.cap → Prop
  | flush (s : PairState p.cap) (self : DataPipeEnd) : PairEffect op s (s.flushLocked self)
  | latch (s : PairState p.cap) (e : DataPipeEnd) : PairEffect op s (s.signalsOf e).1
  | poison (s : PairState p.cap) : PairEffect op s s.poison
  | forget (s : PairState p.cap) (self : DataPipeEnd) :
      PairEffect op s (s.modifyEndpoint self fun ep => { ep with hasNewData := false })
  | beginWrite (s : PairState p.cap) (self : DataPipeEnd) :
      PairEffect op s (s.modifyEndpoint self fun ep =>
        { ep with twoPhase := some (.writer s.producer.beginWrite) })
  | beginRead (s : PairState p.cap) (self : DataPipeEnd) :
      PairEffect op s (s.modifyEndpoint self fun ep =>
        { ep with twoPhase := some (.reader s.consumer.beginRead), hasNewData := false })
  | endTwoPhase (s : PairState p.cap) (self : DataPipeEnd) :
      PairEffect op s (s.modifyEndpoint self fun ep => { ep with twoPhase := none })
  | produce (s : PairState p.cap) (self : DataPipeEnd) (n : UInt32)
      (producer : RingBuffer p.cap) (pages : Pages)
      (cut : p.Cut n.toNat s.producer.availableCapacity)
      (extended : s.producer.extendDataRange n.toNat = some producer) :
      PairEffect op s (({ s with producer, pages }).pushAndCollect self.peer n)
  | take (s : PairState p.cap) (self : DataPipeEnd) (n : UInt32) (consumer : RingBuffer p.cap)
      (cut : p.Cut n.toNat s.consumer.size)
      (discarded : s.consumer.discardAll n.toNat = some consumer)
      (forgotten : (s.endpoint self).hasNewData = false)
      (idle : (s.endpoint self).twoPhase = none) (reads : op.ReadsAt self) :
      PairEffect op s (({ s with consumer }).pushAndCollect self.peer n)
  | finish (s : PairState p.cap) (self : DataPipeEnd) (n : UInt32) (consumer : RingBuffer p.cap)
      (cut : p.elementSize.toNat ∣ n.toNat)
      (discarded : s.consumer.discardAll n.toNat = some consumer)
      (idle : (s.endpoint self).twoPhase = none) (ends : op.EndsReadAt self) :
      PairEffect op s (({ s with consumer }).pushAndCollect self.peer n)
  | close (s : PairState p.cap) (self : DataPipeEnd) :
      PairEffect op s ((s.modifyEndpoint self fun ep =>
        { ep with localClosed := true }).modifyEndpoint self.peer fun ep =>
        { ep with peerClosed := true })

/-- The effects of an operation, one after the other. -/
abbrev Effects (op : DataPipeOp) : PairState p.cap → PairState p.cap → Prop :=
  Relation.ReflTransGen (p.PairEffect op)

variable {p} {op : DataPipeOp} {s : PairState p.cap} {self : DataPipeEnd}

/-! ### The operations -/

theorem effects_write (elements : List UInt8) (numBytes : UInt32) (allOrNone : Bool) :
    p.Effects op s (p.write self s elements numBytes allOrNone).1 := by
  have hflush : p.Effects op s (s.flushLocked self) := .single (.flush s self)
  have hcut : WriteStarts p self s elements numBytes → p.elementSize.toNat ∣ numBytes.toNat :=
    fun hstarts => Nat.dvd_of_mod_eq_zero hstarts.whole
  have hlen : WriteStarts p self s elements numBytes →
      (elements.take numBytes.toNat).length = numBytes.toNat := by
    intro hstarts
    rw [List.length_take]
    exact Nat.min_eq_left hstarts.long
  have hproduce : WriteStarts p self s elements numBytes → ∀ n producer pages,
      (s.flushLocked self).producer.write (s.flushLocked self).pages
        (elements.take numBytes.toNat) = (n, producer, pages) →
      p.PairEffect op (s.flushLocked self)
        (({ s.flushLocked self with producer, pages }).pushAndCollect self.peer
          (UInt32.ofNat n)) := by
    intro hstarts n producer pages hw
    obtain ⟨hn, hext⟩ := RingBuffer.extendDataRange_write hw
    rw [hlen hstarts] at hn
    have hn32 : (UInt32.ofNat n).toNat = n := by
      have := numBytes.toNat_lt
      exact UInt32.toNat_ofNat_of_lt' (by simp only [UInt32.size]; omega)
    refine .produce (s.flushLocked self) self (UInt32.ofNat n) producer pages ?_ ?_
    · rw [hn32, hn]
      exact cut_min (hcut hstarts) _
    · rw [hn32]
      exact hext
  apply write_rule (motive := fun out => p.Effects op s out.1)
  · exact fun _ => .refl
  · exact fun _ => hflush
  · exact fun _ => hflush.tail (.poison _)
  · intro hstarts producer pages hw
    have hext := RingBuffer.extendDataRange_writeAll hw
    rw [hlen hstarts] at hext
    exact hflush.tail (.produce _ self numBytes producer pages (.inl (hcut hstarts)) hext)
  · -- nothing was written: no count is sent
    intro hstarts producer pages hw
    exact hflush.tail (hproduce hstarts 0 producer pages hw)
  · intro hstarts n producer pages hw
    exact hflush.tail (hproduce hstarts n producer pages hw)

theorem effects_beginWrite : p.Effects op s (p.beginWrite self s).1 := by
  unfold DataPipe.beginWrite
  dsimp only
  split
  · exact .refl
  refine .head (.flush s self) ?_
  generalize s.flushLocked self = s₁
  split
  · exact .refl
  split
  · exact .refl
  split
  · exact .refl
  · exact .single (.beginWrite s₁ self)

theorem effects_endWrite (produced : UInt32) : p.Effects op s (p.endWrite self s produced).1 := by
  unfold DataPipe.endWrite
  split
  · exact .refl
  cases htwo : (s.endpoint self).twoPhase with
  | none => exact .refl
  | some two =>
      dsimp only
      refine .head (.endTwoPhase s self) ?_
      generalize s.modifyEndpoint self (fun ep => { ep with twoPhase := none }) = s₁
      split
      · exact .refl
      rename_i hwhole
      split
      · exact .refl
      cases two with
      | reader r => exact .refl
      | writer w =>
          dsimp only
          cases hcommit : w.commit produced.toNat s₁.producer with
          | none => exact .refl
          | some producer =>
              unfold DirectWriter.commit at hcommit
              split at hcommit
              · exact .single (.produce s₁ self produced producer s₁.pages
                  (.inl (Nat.dvd_of_mod_eq_zero (Decidable.not_not.mp hwhole))) hcommit)
              · cases hcommit

theorem effects_readAllOrNone {numBytes : UInt32} (flags : ReadFlags)
    (hwhole : p.elementSize.toNat ∣ numBytes.toNat)
    (hforgotten : (s.endpoint self).hasNewData = false)
    (hidle : (s.endpoint self).twoPhase = none) (hreads : op.ReadsAt self) :
    p.Effects op s (p.readAllOrNone self s numBytes flags).1 := by
  have hcap := p.cap_lt
  unfold DataPipe.readAllOrNone
  dsimp only
  split
  · exact .refl
  · rename_i data consumer hresult
    cases hpeek : flags.peek with
    | true => exact .refl
    | false =>
        have hdiscard : s.consumer.discardAll numBytes.toNat = some consumer := by
          rw [hpeek] at hresult
          cases hd : flags.discard with
          | true =>
              rw [hd] at hresult
              obtain ⟨c, hc, heq⟩ := Option.map_eq_some_iff.mp hresult
              cases heq
              exact hc
          | false =>
              rw [hd] at hresult
              exact (RingBuffer.discardAll_readAll (by omega) hresult).2
        exact .single (.take s self numBytes consumer (.inl hwhole) hdiscard hforgotten
          hidle hreads)

theorem effects_readPartial {numBytes : UInt32} {flags : ReadFlags}
    (hflags : (flags.peek && flags.discard) = false)
    (hwhole : p.elementSize.toNat ∣ numBytes.toNat)
    (hforgotten : (s.endpoint self).hasNewData = false)
    (hidle : (s.endpoint self).twoPhase = none) (hreads : op.ReadsAt self) :
    p.Effects op s (p.readPartial self s numBytes flags).1 := by
  have hcap := p.cap_lt
  have hsize := s.consumer.size_le
  have hn32 : ∀ n, n ≤ s.consumer.size → (UInt32.ofNat n).toNat = n := fun n hn =>
    UInt32.toNat_ofNat_of_lt' (by simp only [UInt32.size]; omega)
  -- what is taken is the request, or all there is
  have htake : ∀ (n : UInt32) consumer, n.toNat = min numBytes.toNat s.consumer.size →
      s.consumer.discardAll n.toNat = some consumer →
      p.Effects op s (({ s with consumer } : PairState p.cap).pushAndCollect self.peer n) := by
    intro n consumer hn hdiscard
    refine .single (.take s self n consumer ?_ hdiscard hforgotten hidle hreads)
    rw [hn]
    exact cut_min hwhole _
  unfold DataPipe.readPartial
  cases hpeek : flags.peek with
  | true =>
      rw [hpeek, Bool.true_and] at hflags
      rw [hflags]
      exact .refl
  | false =>
      cases flags.discard with
      | true =>
          have hn : (min numBytes (UInt32.ofNat s.consumer.dataSize)).toNat =
              min numBytes.toNat s.consumer.size := by
            rw [UInt32.toNat_min, RingBuffer.dataSize, hn32 _ (Nat.le_refl _)]
          refine htake _ _ hn ?_
          have hmin : min (min numBytes.toNat s.consumer.size) s.consumer.size =
              min numBytes.toNat s.consumer.size := by omega
          have hdiscard := RingBuffer.discardAll_discard (r := s.consumer) (by omega)
            (min numBytes.toNat s.consumer.size)
          rw [hmin, ← hn] at hdiscard
          exact hdiscard
      | false =>
          rcases hr : s.consumer.read s.pages numBytes.toNat with ⟨data, consumer⟩
          obtain ⟨hlen, hdiscard⟩ := RingBuffer.discardAll_read (by omega) hr
          have hdata : (UInt32.ofNat data.length).toNat = data.length :=
            hn32 _ (hlen ▸ Nat.min_le_right _ _)
          refine htake _ _ (hdata.trans hlen) ?_
          rw [hdata]
          exact hdiscard

theorem effects_read (elements : Option (List UInt8)) (numBytes : UInt32) (flags : ReadFlags) :
    p.Effects (.read self elements numBytes flags) s
      (p.read self s elements numBytes flags).1 := by
  have hflush : p.Effects (.read self elements numBytes flags) s (s.flushLocked self) :=
    .single (.flush s self)
  have hforgotten : p.Effects (.read self elements numBytes flags) s (forgotten s self) :=
    hflush.tail (.forget _ self)
  have hlatch : ((forgotten s self).endpoint self).hasNewData = false := by
    unfold forgotten
    cases self <;> rfl
  have hidle : ReadStarts p self s elements numBytes flags →
      ((forgotten s self).endpoint self).twoPhase = none := by
    intro hstarts
    unfold forgotten
    cases self
    · exact hstarts.idle
    · exact hstarts.idle
  have hwhole : ReadStarts p self s elements numBytes flags →
      p.elementSize.toNat ∣ numBytes.toNat :=
    fun hstarts => Nat.dvd_of_mod_eq_zero hstarts.whole
  have hreads : (DataPipeOp.read self elements numBytes flags).ReadsAt self := ⟨_, _, _, rfl⟩
  apply read_rule (motive := fun out => p.Effects (.read self elements numBytes flags) s out.1)
  · exact fun _ => .refl
  · exact fun _ => hflush
  · exact fun _ => hflush
  · exact fun _ _ => hforgotten
  · exact fun _ _ => hforgotten.tail (.poison _)
  · exact fun hstarts => hforgotten.trans
      (effects_readAllOrNone flags (hwhole hstarts) hlatch (hidle hstarts) hreads)
  · exact fun hstarts => hforgotten.trans
      (effects_readPartial hstarts.notBoth (hwhole hstarts) hlatch (hidle hstarts) hreads)

theorem effects_beginRead : p.Effects op s (p.beginRead self s).1 := by
  unfold DataPipe.beginRead
  dsimp only
  split
  · exact .refl
  refine .head (.flush s self) ?_
  generalize s.flushLocked self = s₁
  split
  · exact .refl
  split
  · exact .refl
  · exact .single (.beginRead s₁ self)

/-- The consumed bytes can be taken: whole elements of the span, still there. -/
structure Consumes (p : DataPipe) (s : PairState p.cap) (e : DataPipeEnd) (consumed : UInt32)
    (consumer : RingBuffer p.cap) : Prop where
  unpoisoned : s.poisoned = false
  nonzero : consumed ≠ 0
  whole : p.elementSize.toNat ∣ consumed.toNat
  reader : ∃ r, (s.endpoint e).twoPhase = some (.reader r) ∧ consumed.toNat ≤ r.span.len
  discarded : s.consumer.discardAll consumed.toNat = some consumer

/-- An `end_read` takes the consumed bytes. -/
theorem Consumes.endRead {consumed : UInt32} {consumer : RingBuffer p.cap}
    (h : p.Consumes s self consumed consumer) : (p.endRead self s consumed).1 =
      ({ s.modifyEndpoint self fun ep => { ep with twoPhase := none } with
        consumer }).pushAndCollect self.peer consumed := by
  obtain ⟨hpoison, hnonzero, hwhole, ⟨r, hr, hle⟩, hdiscard⟩ := h
  have hconsume : r.consume consumed.toNat s.consumer = some consumer := by
    rw [DirectReader.consume, if_pos hle]
    exact hdiscard
  have hkept : (s.modifyEndpoint self fun ep => { ep with twoPhase := none }).consumer =
      s.consumer := by
    cases self <;> rfl
  unfold DataPipe.endRead
  simp only [hpoison, hr, Nat.mod_eq_zero_of_dvd hwhole, hnonzero, hkept, hconsume,
    Bool.false_eq_true, if_false, ne_eq, not_true_eq_false]

/-- An `end_read` takes the consumed bytes, or just ends the operation, or
does nothing. -/
theorem endRead_cases (s : PairState p.cap) (self : DataPipeEnd) (consumed : UInt32) :
    (p.endRead self s consumed).1 = s ∨
    (p.endRead self s consumed).1 =
      (s.modifyEndpoint self fun ep => { ep with twoPhase := none }) ∨
    ∃ consumer, p.Consumes s self consumed consumer := by
  have hkept : (s.modifyEndpoint self fun ep => { ep with twoPhase := none }).consumer =
      s.consumer := by
    cases self <;> rfl
  unfold DataPipe.endRead
  split
  · exact .inl rfl
  rename_i hpoison
  cases htwo : (s.endpoint self).twoPhase with
  | none => exact .inl rfl
  | some two =>
      dsimp only
      split
      · exact .inr (.inl rfl)
      rename_i hwhole
      split
      · exact .inr (.inl rfl)
      rename_i hnonzero
      cases two with
      | writer w => exact .inr (.inl rfl)
      | reader r =>
          dsimp only
          rw [hkept]
          cases hconsume : r.consume consumed.toNat s.consumer with
          | none => exact .inr (.inl rfl)
          | some consumer =>
              unfold DirectReader.consume at hconsume
              split at hconsume
              · rename_i hle
                exact .inr (.inr ⟨consumer, Bool.eq_false_iff.mpr hpoison, hnonzero,
                  Nat.dvd_of_mod_eq_zero (Decidable.not_not.mp hwhole), ⟨r, htwo, hle⟩, hconsume⟩)
              · cases hconsume

theorem effects_endRead (consumed : UInt32) :
    p.Effects (.endRead self consumed) s (p.endRead self s consumed).1 := by
  rcases endRead_cases s self consumed with h | h | ⟨consumer, h⟩
  · rw [h]
  · rw [h]
    exact .single (.endTwoPhase s self)
  · rw [h.endRead]
    refine .head (.endTwoPhase s self) (.single (.finish _ self consumed consumer h.whole ?_ ?_
      ⟨consumed, rfl⟩))
    · have hkept : (s.modifyEndpoint self fun ep => { ep with twoPhase := none }).consumer =
          s.consumer := by
        cases self <;> rfl
      rw [hkept]
      exact h.discarded
    · cases self <;> rfl

theorem effects_querySignals : p.Effects op s (p.querySignals self s).1 := by
  unfold DataPipe.querySignals
  split
  · exact .refl
  · exact .head (.flush s self) (.single (.latch _ self))

theorem effects_close : p.Effects op s (p.close self s) := by
  unfold DataPipe.close
  split
  · exact .refl
  split
  · exact .refl
  · exact .head (.close s self) (.single (.latch _ self.peer))

/-- An operation is a sequence of effects. -/
theorem effects_apply (op : DataPipeOp) : p.Effects op s (p.apply s op) := by
  cases op with
  | write self elements numBytes allOrNone => exact effects_write elements numBytes allOrNone
  | beginWrite self => exact effects_beginWrite
  | endWrite self produced => exact effects_endWrite produced
  | read self elements numBytes flags => exact effects_read elements numBytes flags
  | beginRead self => exact effects_beginRead
  | endRead self consumed => exact effects_endRead consumed
  | querySignals self => exact effects_querySignals
  | close self => exact effects_close

/-- What every effect keeps, every operation keeps. -/
theorem keeps_apply {P : PairState p.cap → Prop} (op : DataPipeOp)
    (hkeep : ∀ s s', p.PairEffect op s s' → P s → P s') (h : P s) :
    P (p.apply s op) := by
  have heffects := effects_apply (s := s) op
  generalize p.apply s op = s' at heffects ⊢
  induction heffects with
  | refl => exact h
  | tail _ heffect ih => exact hkeep _ _ heffect ih

end DataPipe

end MojoRs.Core
