/-
MojoRs/Core/TruthfulSignals.lean

What the signals of a data pipe promise.  A consumer that reports READABLE can
read, a producer that reports WRITABLE can write, and NEW_DATA_READABLE means
that there are unread bytes; the byte counts that an end has not yet taken over
are counted in.

The sizes agree whatever the two ends call (`PairState.Accounted`): a count
that is sent makes up for the bytes added to one ring or taken from the other.
The news latch is the delicate part.  A read clears it before it takes bytes,
but `end_read` does not.  As long as nothing else takes bytes from the consumer
during its two-phase read, a latch set in the meantime stands for bytes behind
the span.  The producer's endpoint, however, accepts reads too, and sends the
count to the consumer, so that the same bytes are announced once more; when the
consumer then ends its read of all of them, the latch stays without data.

Main results: `signals_truthful_iff`, `own_ends_truthful`.
-/
import Mathlib.Tactic.Ring
import MojoRs.Core.DataPipeEffects
import MojoRs.Core.DataPipeStream

namespace MojoRs.Core

open Lib

namespace PairState

variable {cap : Nat} {s : PairState cap}

/-! ### Sizes -/

/-- The number of bytes not yet handed to the consumer. -/
theorem length_unread (s : PairState cap) :
    s.unread.length = s.consumer.size + pending s.consumerEnd.control := by
  rw [unread, length_window]

theorem unread_ne_nil :
    s.unread ≠ [] ↔ 0 < s.consumer.size + pending s.consumerEnd.control := by
  rw [← length_unread, List.length_pos_iff]

/-- The sizes of the two views agree up to the counts in the queues, and no
count is zero. -/
structure Accounted (s : PairState cap) : Prop where
  nonzero : ∀ e, ∀ n ∈ (s.endpoint e).control, n ≠ 0
  sizes : s.producer.size =
    s.consumer.size + pending s.consumerEnd.control + pending s.producerEnd.control

/-- An open consumer with news has unread bytes. -/
def News (s : PairState cap) : Prop :=
  s.consumerEnd.localClosed = false → s.consumerEnd.hasNewData = true → s.unread ≠ []

theorem pending_pos {control : List UInt32} (h : ∀ n ∈ control, n ≠ 0) (hne : control ≠ []) :
    0 < pending control := by
  cases control with
  | nil => exact absurd rfl hne
  | cons value rest =>
      have hvalue : 0 < value.toNat := Nat.pos_of_ne_zero fun hz =>
        h value List.mem_cons_self (UInt32.toNat_inj.mp hz)
      simp only [pending, List.map_cons, List.sum_cons]
      exact Nat.lt_of_lt_of_le hvalue (Nat.le_add_right _ _)

/-- Nothing that changes only flags or two-phase operations matters. -/
theorem Accounted.modify (h : s.Accounted) (e : DataPipeEnd) {f : EndpointState → EndpointState}
    (hf : ∀ ep, (f ep).control = ep.control) : (s.modifyEndpoint e f).Accounted := by
  cases e with
  | producer =>
      refine ⟨?_, ?_⟩
      · rintro (- | -) n hn
        · exact h.nonzero .producer n (hf _ ▸ hn)
        · exact h.nonzero .consumer n hn
      · show s.producer.size = _ + pending (f s.producerEnd).control
        rw [hf]
        exact h.sizes
  | consumer =>
      refine ⟨?_, ?_⟩
      · rintro (- | -) n hn
        · exact h.nonzero .producer n hn
        · exact h.nonzero .consumer n (hf _ ▸ hn)
      · show s.producer.size = s.consumer.size + pending (f s.consumerEnd).control + _
        rw [hf]
        exact h.sizes

/-! ### Sending a count -/

theorem signalsOf_producer_fst (s : PairState cap) : (s.signalsOf .producer).1 = s := by
  simp only [signalsOf]
  split <;> rfl

theorem push_zero (s : PairState cap) (e : DataPipeEnd) : s.pushAndCollect e 0 = s := if_pos rfl

theorem push_producer {n : UInt32} (hn : n ≠ 0) : s.pushAndCollect .producer n =
    { s with producerEnd := { s.producerEnd with control := s.producerEnd.control ++ [n] } } := by
  rw [pushAndCollect, if_neg hn, collectWatchers, signalsOf_producer_fst]
  rfl

/-- The count is news, and collecting the watches latches it. -/
theorem push_consumer {n : UInt32} (hn : n ≠ 0) : s.pushAndCollect .consumer n =
    { s with consumerEnd := { s.consumerEnd with
        control := s.consumerEnd.control ++ [n], hasNewData := true } } := by
  have hnews : (s.consumerEnd.hasNewData || !(s.consumerEnd.control ++ [n]).isEmpty) = true := by
    simp
  rw [pushAndCollect, if_neg hn]
  simp only [collectWatchers, signalsOf, endpoint, modifyEndpoint, hnews, if_true]

theorem nonzero_append {control : List UInt32} {n : UInt32} (h : ∀ m ∈ control, m ≠ 0)
    (hn : n ≠ 0) : ∀ m ∈ control ++ [n], m ≠ 0 := by
  intro m hm
  rcases List.mem_append.mp hm with hm | hm
  · exact h m hm
  · rwa [List.mem_singleton.mp hm]

/-- A count makes up for what the rings differ by. -/
theorem accounted_push (hnonzero : ∀ e, ∀ m ∈ (s.endpoint e).control, m ≠ 0) (e : DataPipeEnd)
    {n : UInt32} (hsizes : s.producer.size = s.consumer.size + pending s.consumerEnd.control +
      pending s.producerEnd.control + n.toNat) : (s.pushAndCollect e n).Accounted := by
  by_cases hn : n = 0
  · subst hn
    rw [push_zero]
    exact ⟨hnonzero, hsizes⟩
  cases e with
  | producer =>
      rw [push_producer hn]
      refine ⟨?_, ?_⟩
      · rintro (- | -)
        · exact nonzero_append (hnonzero .producer) hn
        · exact hnonzero .consumer
      · show s.producer.size = _ + pending (s.producerEnd.control ++ [n])
        rw [pending_append, hsizes]
        ring
  | consumer =>
      rw [push_consumer hn]
      refine ⟨?_, ?_⟩
      · rintro (- | -)
        · exact hnonzero .producer
        · exact nonzero_append (hnonzero .consumer) hn
      · show s.producer.size = _ + pending (s.consumerEnd.control ++ [n]) + _
        rw [pending_append, hsizes]
        ring

/-- A count for the consumer is news of bytes; one for the producer tells the
consumer nothing. -/
theorem news_push {n : UInt32} {e : DataPipeEnd} (h : n = 0 ∨ e = .producer → s.News) :
    (s.pushAndCollect e n).News := by
  by_cases hn : n = 0
  · subst hn
    rw [push_zero]
    exact h (.inl rfl)
  cases e with
  | producer =>
      rw [push_producer hn]
      exact h (.inr rfl)
  | consumer =>
      intro _ _
      rw [push_consumer hn, unread_ne_nil]
      show 0 < s.consumer.size + pending (s.consumerEnd.control ++ [n])
      rw [pending_append]
      have hpos : 0 < n.toNat := Nat.pos_of_ne_zero fun hz => hn (UInt32.toNat_inj.mp hz)
      exact Nat.lt_of_lt_of_le hpos (by omega)

/-! ### Flushing -/

theorem Accounted.drain (h : s.Accounted) (hcap : cap < 2 ^ 32) (e : DataPipeEnd) :
    PairState.drain (s.endpoint e).control 0 = (pending (s.endpoint e).control, []) := by
  have hsizes := h.sizes
  have hle := s.producer.size_le
  have hsum : 0 + pending (s.endpoint e).control < 2 ^ 64 := by
    cases e with
    | producer =>
        show 0 + pending s.producerEnd.control < 2 ^ 64
        omega
    | consumer =>
        show 0 + pending s.consumerEnd.control < 2 ^ 64
        omega
  rw [drain_eq _ _ hsum, Nat.zero_add]

/-- After a flush the producer counts what the consumer has, or was told of. -/
theorem Accounted.flush_producer (h : s.Accounted) (hcap : cap < 2 ^ 32) :
    ∃ producer, s.flushLocked .producer =
        { s with producer, producerEnd := { s.producerEnd with control := [] } } ∧
      producer.size = s.consumer.size + pending s.consumerEnd.control := by
  have hsizes := h.sizes
  have hdrain := h.drain hcap .producer
  simp only [flushLocked, hdrain]
  split
  · rename_i hzero
    exact ⟨s.producer, rfl, by rw [hsizes]; exact Nat.add_eq_left.mpr hzero⟩
  · obtain ⟨r, hr⟩ := RingBuffer.discardAll_isSome (r := s.producer)
      (n := pending s.producerEnd.control) (by omega) (by omega)
    refine ⟨r, ?_, ?_⟩
    · simp only [endpoint, modifyEndpoint, hr, Option.getD_some]
    · rw [(RingBuffer.discardAll_eq_some hr).2.2, hsizes, Nat.add_sub_cancel]

/-- After a flush the consumer has what it was told of, and news of it. -/
theorem Accounted.flush_consumer (h : s.Accounted) (hcap : cap < 2 ^ 32) :
    ∃ consumer, s.flushLocked .consumer =
        { s with consumer, consumerEnd := { s.consumerEnd with
            control := [], hasNewData := s.consumerEnd.hasNews } } ∧
      consumer.size = s.consumer.size + pending s.consumerEnd.control := by
  have hsizes := h.sizes
  have hle := s.producer.size_le
  have hdrain := h.drain hcap .consumer
  simp only [flushLocked, hdrain]
  split
  · rename_i hzero
    have hempty : s.consumerEnd.control = [] := by
      by_contra hne
      exact absurd hzero (Nat.ne_of_gt (pending_pos (h.nonzero .consumer) hne))
    refine ⟨s.consumer, ?_, by rw [hempty]; rfl⟩
    simp [modifyEndpoint, EndpointState.hasNews, hempty]
  · rename_i hne
    have hne : pending s.consumerEnd.control ≠ 0 := hne
    have hnews : s.consumerEnd.hasNews = true := by
      rw [EndpointState.hasNews, Bool.or_eq_true]
      refine .inr ?_
      cases hc : s.consumerEnd.control with
      | nil => exact absurd (by rw [hc]; rfl) hne
      | cons => rfl
    obtain ⟨r, hr⟩ := RingBuffer.extendDataRange_isSome (r := s.consumer)
      (n := pending s.consumerEnd.control) (by omega)
    refine ⟨r, ?_, (RingBuffer.extendDataRange_eq_some hr).2.2⟩
    simp only [endpoint, modifyEndpoint, hr, Option.getD_some, hnews]

theorem Accounted.flush (h : s.Accounted) (hcap : cap < 2 ^ 32) (e : DataPipeEnd) :
    (s.flushLocked e).Accounted := by
  cases e with
  | producer =>
      obtain ⟨producer, hflush, hsize⟩ := h.flush_producer hcap
      rw [hflush]
      refine ⟨?_, ?_⟩
      · rintro (- | -) n hn
        · exact absurd hn List.not_mem_nil
        · exact h.nonzero .consumer n hn
      · exact hsize
  | consumer =>
      obtain ⟨consumer, hflush, hsize⟩ := h.flush_consumer hcap
      rw [hflush]
      refine ⟨?_, ?_⟩
      · rintro (- | -) n hn
        · exact h.nonzero .producer n hn
        · exact absurd hn List.not_mem_nil
      · show s.producer.size = consumer.size + 0 + _
        rw [hsize]
        exact h.sizes

/-- News is bytes, latched or not. -/
theorem News.pos (hn : s.News) (h : s.Accounted) (hopen : s.consumerEnd.localClosed = false)
    (hnews : s.consumerEnd.hasNews = true) : s.unread ≠ [] := by
  rcases Bool.or_eq_true_iff.mp hnews with hlatch | hcontrol
  · exact hn hopen hlatch
  · rw [unread_ne_nil]
    have hne : s.consumerEnd.control ≠ [] := by
      intro hempty
      rw [hempty] at hcontrol
      cases hcontrol
    exact Nat.lt_of_lt_of_le (pending_pos (h.nonzero .consumer) hne) (Nat.le_add_left _ _)

theorem News.flush (hn : s.News) (h : s.Accounted) (hcap : cap < 2 ^ 32) (e : DataPipeEnd) :
    (s.flushLocked e).News := by
  cases e with
  | producer =>
      obtain ⟨producer, hflush, -⟩ := h.flush_producer hcap
      rw [hflush]
      exact hn
  | consumer =>
      obtain ⟨consumer, hflush, hsize⟩ := h.flush_consumer hcap
      rw [hflush]
      intro hopen hnews
      have hpos := unread_ne_nil.mp (hn.pos h hopen hnews)
      rw [unread_ne_nil]
      show 0 < consumer.size + 0
      rw [hsize]
      exact hpos

theorem News.latch (hn : s.News) (h : s.Accounted) (e : DataPipeEnd) :
    (s.signalsOf e).1.News := by
  cases e with
  | producer =>
      rw [signalsOf_producer_fst]
      exact hn
  | consumer =>
      simp only [signalsOf]
      split
      · rename_i hnews
        exact fun hopen _ => hn.pos h hopen hnews
      · exact hn

/-! ### What is reported -/

/-- The producer has room, or is about to. -/
def hasRoom (s : PairState cap) : Bool :=
  decide (s.producer.availableCapacity > 0) || !s.producerEnd.control.isEmpty

theorem signalsOf_producer_room (s : PairState cap) :
    (s.signalsOf .producer).2 = producerSignals s.producerEnd.peerClosed s.hasRoom := by
  simp only [signalsOf, producerSignals, hasRoom, endpoint]
  cases s.producerEnd.peerClosed <;> rfl

theorem Accounted.hasRoom_eq (h : s.Accounted) :
    s.hasRoom = decide (s.consumer.size + pending s.consumerEnd.control < cap) := by
  have hsizes := h.sizes
  have hle := s.producer.size_le
  unfold hasRoom
  cases hc : s.producerEnd.control with
  | nil =>
      rw [hc] at hsizes
      have hsizes : s.producer.size = s.consumer.size + pending s.consumerEnd.control := hsizes
      rw [List.isEmpty_nil, Bool.not_true, Bool.or_false, RingBuffer.availableCapacity]
      exact decide_eq_decide.mpr (by omega)
  | cons n rest =>
      have hpos : 0 < pending s.producerEnd.control :=
        pending_pos (h.nonzero .producer) (hc ▸ List.cons_ne_nil n rest)
      rw [List.isEmpty_cons, Bool.not_false, Bool.or_true]
      exact (decide_eq_true (by omega)).symm

theorem Accounted.hasData_eq (h : s.Accounted) (hn : s.News)
    (hopen : s.consumerEnd.localClosed = false) : s.hasData = decide (s.unread ≠ []) := by
  rw [Bool.eq_iff_iff, decide_eq_true_iff]
  unfold hasData
  rw [Bool.or_eq_true, decide_eq_true_iff]
  constructor
  · rintro (hnews | hsize)
    · exact hn.pos h hopen hnews
    · exact unread_ne_nil.mpr (Nat.lt_of_lt_of_le hsize (Nat.le_add_right _ _))
  · intro hpos
    rw [unread_ne_nil] at hpos
    by_cases hsize : s.consumer.dataSize > 0
    · exact .inr hsize
    · refine .inl ?_
      rw [EndpointState.hasNews, Bool.or_eq_true]
      refine .inr ?_
      cases hc : s.consumerEnd.control with
      | nil =>
          rw [hc] at hpos
          exact absurd hpos hsize
      | cons => rfl

/-- The signals do not depend on whether the counts were taken over. -/
theorem Accounted.signalsOf_flush (h : s.Accounted) (hcap : cap < 2 ^ 32) (e : DataPipeEnd) :
    (s.signalsOf e).2 = ((s.flushLocked e).signalsOf e).2 := by
  have h' := h.flush hcap e
  cases e with
  | producer =>
      obtain ⟨producer, hflush, hsize⟩ := h.flush_producer hcap
      rw [signalsOf_producer_room, signalsOf_producer_room, h.hasRoom_eq, h'.hasRoom_eq, hflush]
  | consumer =>
      obtain ⟨consumer, hflush, hsize⟩ := h.flush_consumer hcap
      have hnews : (s.flushLocked .consumer).consumerEnd.hasNews = s.consumerEnd.hasNews := by
        rw [hflush]
        exact Bool.or_false _
      have hdata : (s.flushLocked .consumer).hasData = s.hasData := by
        unfold hasData
        rw [hnews]
        cases hs : s.consumerEnd.hasNews with
        | true => rfl
        | false =>
            have hempty : s.consumerEnd.control = [] := by
              rw [EndpointState.hasNews, Bool.or_eq_false_iff, Bool.not_eq_false',
                List.isEmpty_iff] at hs
              exact hs.2
            rw [hempty] at hsize
            have hsize : consumer.size = s.consumer.size := hsize
            rw [hflush, RingBuffer.dataSize, RingBuffer.dataSize, hsize]
      rw [signalsOf_consumer, signalsOf_consumer, hnews, hdata, hflush]

end PairState

/-! ### Effects -/

namespace DataPipe

open PairState

variable {p : DataPipe} {s s' : PairState p.cap} {op : DataPipeOp}

/-- Every effect keeps the sizes accounted. -/
theorem accounted_effect (heffect : p.PairEffect op s s') (h : s.Accounted) : s'.Accounted := by
  have hsizes := h.sizes
  -- bytes taken from the front of the consumer's ring
  have htake : ∀ (self : DataPipeEnd) (n : UInt32) consumer,
      s.consumer.discardAll n.toNat = some consumer →
      (({ s with consumer } : PairState p.cap).pushAndCollect self.peer n).Accounted := by
    intro self n consumer hdiscard
    obtain ⟨hle, -, hsize⟩ := RingBuffer.discardAll_eq_some hdiscard
    refine accounted_push (s := { s with consumer }) h.nonzero self.peer ?_
    show s.producer.size = consumer.size + pending s.consumerEnd.control +
      pending s.producerEnd.control + n.toNat
    omega
  cases heffect with
  | flush self => exact h.flush p.cap_lt self
  | latch self =>
      cases self with
      | producer =>
          rw [signalsOf_producer_fst]
          exact h
      | consumer =>
          simp only [signalsOf]
          split
          · exact h.modify .consumer fun _ => rfl
          · exact h
  | poison => exact ⟨h.nonzero, h.sizes⟩
  | forget self => exact h.modify self fun _ => rfl
  | beginWrite self => exact h.modify self fun _ => rfl
  | beginRead self => exact h.modify self fun _ => rfl
  | endTwoPhase self => exact h.modify self fun _ => rfl
  | produce self n producer pages cut extended =>
      obtain ⟨-, -, hsize⟩ := RingBuffer.extendDataRange_eq_some extended
      refine accounted_push (s := { s with producer, pages }) h.nonzero self.peer ?_
      show producer.size = _
      rw [hsize, hsizes]
  | take self n consumer cut discarded => exact htake self n consumer discarded
  | finish self n consumer cut discarded => exact htake self n consumer discarded
  | close self =>
      have hlocal := h.modify self (f := fun ep => { ep with localClosed := true }) fun _ => rfl
      exact hlocal.modify self.peer fun _ => rfl

/-- Every effect but the end of the consumer's own two-phase read keeps the
news about bytes. -/
theorem news_effect (hends : ¬op.EndsReadAt .consumer) (heffect : p.PairEffect op s s')
    (h : s.Accounted) (hn : s.News) : s'.News := by
  -- an end other than the consumer sends the count to the consumer
  have htake : ∀ (n : UInt32) consumer, s.consumer.discardAll n.toNat = some consumer →
      (({ s with consumer } : PairState p.cap).pushAndCollect .consumer n).News := by
    intro n consumer hdiscard
    refine news_push ?_
    rintro (rfl | he)
    · intro hopen hlatch
      have hpos := unread_ne_nil.mp (hn hopen hlatch)
      rw [unread_ne_nil]
      show 0 < consumer.size + _
      rw [(RingBuffer.discardAll_eq_some hdiscard).2.2]
      exact hpos
    · cases he
  cases heffect with
  | flush self => exact hn.flush h p.cap_lt self
  | latch self => exact hn.latch h self
  | poison => exact hn
  | forget self =>
      cases self with
      | producer => exact hn
      | consumer => exact fun _ hlatch => Bool.noConfusion hlatch
  | beginWrite self =>
      cases self with
      | producer => exact hn
      | consumer => exact hn
  | beginRead self =>
      cases self with
      | producer => exact hn
      | consumer => exact fun _ hlatch => Bool.noConfusion hlatch
  | endTwoPhase self =>
      cases self with
      | producer => exact hn
      | consumer => exact hn
  | produce self n producer pages cut extended =>
      refine news_push fun _ => ?_
      intro hopen hlatch
      have hpos := unread_ne_nil.mp (hn hopen hlatch)
      exact unread_ne_nil.mpr hpos
  | take self n consumer cut discarded forgotten _ =>
      cases self with
      | producer => exact htake n consumer discarded
      | consumer =>
          refine news_push fun _ => fun _ hlatch => ?_
          exact absurd hlatch (Bool.eq_false_iff.mp forgotten)
  | finish self n consumer cut discarded _ ends =>
      cases self with
      | producer => exact htake n consumer discarded
      | consumer => exact absurd ends hends
  | close self =>
      cases self with
      | producer => exact hn
      | consumer => exact fun hopen => Bool.noConfusion hopen

/-! ### Runs -/

/-- The flags of a plain partial read. -/
def partialRead : ReadFlags := ⟨false, false, false, false⟩

/-- What the signals of a pair promise, by what the ends can do. -/
structure Truthful (p : DataPipe) (s : PairState p.cap) : Prop where
  flushed : ∀ e, (s.signalsOf e).2 = ((s.flushLocked e).signalsOf e).2
  readable : s.consumerEnd.localClosed = false → s.consumerEnd.twoPhase = none →
    ∀ out : List UInt8, out.length = p.elementSize.toNat →
      ((p.report s .consumer).isSatisfied .readable = true ↔
        ∃ o, (p.read .consumer s (some out) p.elementSize partialRead).2 = some (.ok o) ∧
          1 ≤ o.numBytes.toNat)
  writable : s.producerEnd.localClosed = false → s.producerEnd.twoPhase = none →
    s.producerEnd.peerClosed = false →
    ∀ elements : List UInt8, elements.length = p.elementSize.toNat →
      ((p.report s .producer).isSatisfied .writable = true ↔
        ∃ n, (p.write .producer s elements p.elementSize false).2 = some (.ok n) ∧ 1 ≤ n.toNat)
  news : s.consumerEnd.localClosed = false → s.consumerEnd.twoPhase = none →
    (p.report s .consumer).isSatisfied .newDataReadable = true → s.unread ≠ []

theorem report_consumer (h : s.Accounted) :
    (p.report s .consumer).isSatisfied .readable = (!s.poisoned && s.hasData) ∧
      (p.report s .consumer).isSatisfied .newDataReadable =
        (!s.poisoned && s.consumerEnd.hasNews) := by
  unfold report DataPipe.querySignals
  cases s.poisoned with
  | true =>
      exact ⟨(by decide : SignalsState.empty.isSatisfied .readable = false),
        (by decide : SignalsState.empty.isSatisfied .newDataReadable = false)⟩
  | false =>
      rw [if_neg Bool.false_ne_true, ← h.signalsOf_flush p.cap_lt, signalsOf_consumer]
      have hnews : s.consumerEnd.hasNews = true → s.hasData = true := fun hn => by
        rw [hasData, hn, Bool.true_or]
      revert hnews
      generalize s.consumerEnd.peerClosed = a, s.consumerEnd.hasNews = b, s.hasData = c
      revert a b c
      decide

theorem report_producer (h : s.Accounted) (hpeer : s.producerEnd.peerClosed = false) :
    (p.report s .producer).isSatisfied .writable = (!s.poisoned && s.hasRoom) := by
  unfold report DataPipe.querySignals
  cases s.poisoned with
  | true => exact (by decide : SignalsState.empty.isSatisfied .writable = false)
  | false =>
      rw [if_neg Bool.false_ne_true, ← h.signalsOf_flush p.cap_lt, signalsOf_producer_room, hpeer]
      cases s.hasRoom <;> decide

/-- A number of bytes of one element at most survives the cast. -/
theorem toNat_ofNat_element (n : Nat) :
    (UInt32.ofNat (min p.elementSize.toNat n)).toNat = min p.elementSize.toNat n := by
  have hlt := Nat.lt_of_le_of_lt (Nat.min_le_left p.elementSize.toNat n) p.elementSize.toNat_lt
  exact UInt32.toNat_ofNat_of_lt' hlt

theorem element_pos : 0 < p.elementSize.toNat := Nat.pos_of_ne_zero fun hz =>
  p.elementSize_ne (UInt32.toNat_inj.mp hz)

/-- A partial read of one element returns bytes just if there are any. -/
theorem read_element (h : s.Accounted) (hnone : s.consumerEnd.twoPhase = none) {out : List UInt8}
    (hout : out.length = p.elementSize.toNat) :
    (∃ o, (p.read .consumer s (some out) p.elementSize partialRead).2 = some (.ok o) ∧
      1 ≤ o.numBytes.toNat) ↔ s.poisoned = false ∧ s.unread ≠ [] := by
  obtain ⟨consumer, hflush, hsize⟩ := h.flush_consumer p.cap_lt
  have hlong : DataPipe.outTooShort (some out) p.elementSize ⟨false, false, false, false⟩ =
      false := by
    simp [DataPipe.outTooShort, hout]
  rw [unread_ne_nil, ← hsize]
  unfold DataPipe.read
  cases hpoison : s.poisoned with
  | true => simp [partialRead]
  | false =>
      rw [hflush]
      by_cases hzero : consumer.size = 0
      · simp [partialRead, modifyEndpoint, hnone, hpoison, RingBuffer.dataSize, hzero]
      · have hlen : (consumer.read s.pages p.elementSize.toNat).1.length =
            min p.elementSize.toNat consumer.size := RingBuffer.length_peek _
        have hpos := Nat.pos_of_ne_zero hzero
        simp [partialRead, modifyEndpoint, hnone, hpoison, RingBuffer.dataSize, hzero, hlong,
          DataPipe.readPartial, hlen, toNat_ofNat_element, -UInt32.toNat_ofNat']
        exact iff_of_true ⟨element_pos, hpos⟩ hpos

/-- A partial write of one element accepts bytes just if there is room. -/
theorem write_element (h : s.Accounted) (hnone : s.producerEnd.twoPhase = none)
    (hpeer : s.producerEnd.peerClosed = false) {elements : List UInt8}
    (helements : elements.length = p.elementSize.toNat) :
    (∃ n, (p.write .producer s elements p.elementSize false).2 = some (.ok n) ∧ 1 ≤ n.toNat) ↔
      s.poisoned = false ∧ s.consumer.size + pending s.consumerEnd.control < p.cap := by
  obtain ⟨producer, hflush, hsize⟩ := h.flush_producer p.cap_lt
  have hne : elements ≠ [] := by
    rintro rfl
    exact absurd helements (Nat.ne_of_lt element_pos)
  rw [← hsize]
  unfold DataPipe.write
  cases hpoison : s.poisoned with
  | true => simp
  | false =>
      rw [hflush]
      have hlen : (producer.write s.pages elements).1 =
          min p.elementSize.toNat (p.cap - producer.size) := by
        have hwrite := RingBuffer.extendDataRange_write (Eq.refl (producer.write s.pages elements))
        rw [← helements]
        exact hwrite.1
      have htake : elements.take p.elementSize.toNat = elements := by
        rw [← helements, List.take_length]
      have hle := producer.size_le
      by_cases hfull : producer.size < p.cap
      · have hpos : 1 ≤ min p.elementSize.toNat (p.cap - producer.size) :=
          Nat.le_min.mpr ⟨element_pos, Nat.sub_pos_of_lt hfull⟩
        have hsome : (producer.write s.pages elements).1 ≠ 0 := by
          rw [hlen]
          exact Nat.ne_of_gt hpos
        simp only [hnone, hpoison, hpeer, helements, htake]
        simp [hsome, -UInt32.toNat_ofNat']
        rw [iff_true_right hfull, hlen, toNat_ofNat_element]
        exact hpos
      · have hzero : (producer.write s.pages elements).1 = 0 := by
          rw [hlen]
          omega
        simp [hnone, hpoison, hpeer, ← helements, hzero, hne]
        exact Nat.le_of_not_lt hfull

/-- With the sizes accounted and the news about bytes, the signals are
truthful. -/
theorem Truthful.of (h : s.Accounted) (hn : s.News) : p.Truthful s where
  flushed e := h.signalsOf_flush p.cap_lt e
  readable hopen hnone out hout := by
    rw [read_element h hnone hout, (report_consumer h).1, h.hasData_eq hn hopen, Bool.and_eq_true,
      Bool.not_eq_true', decide_eq_true_iff]
  writable hopen hnone hpeer elements helements := by
    rw [write_element h hnone hpeer helements, report_producer h hpeer, h.hasRoom_eq,
      Bool.and_eq_true, Bool.not_eq_true', decide_eq_true_iff]
  news hopen hnone hreport := by
    rw [(report_consumer h).2, Bool.and_eq_true] at hreport
    exact hn.pos h hopen hreport.2

/-- The consumer ends a two-phase read of all its bytes, and no more are
announced. -/
structure TakesLast (p : DataPipe) (s : PairState p.cap) (consumed : UInt32) : Prop where
  unpoisoned : s.poisoned = false
  nonzero : consumed ≠ 0
  whole : p.elementSize.toNat ∣ consumed.toNat
  reader : ∃ r, s.consumerEnd.twoPhase = some (.reader r) ∧ consumed.toNat ≤ r.span.len
  all : consumed.toNat = s.consumer.size
  announced : s.consumerEnd.control = []

/-- An open consumer that ends a two-phase read of the last bytes has had no
news since it began. -/
def NoStaleNews (p : DataPipe) (s : PairState p.cap) (op : DataPipeOp) : Prop :=
  ∀ consumed, op = .endRead .consumer consumed → p.TakesLast s consumed →
    s.consumerEnd.localClosed = false → s.consumerEnd.hasNewData = false

theorem apply_accounted (h : s.Accounted) (op : DataPipeOp) : (p.apply s op).Accounted :=
  keeps_apply op (fun _ _ heffect => accounted_effect heffect) h

theorem apply_news (h : s.Accounted) (hn : s.News) (op : DataPipeOp) (hop : p.NoStaleNews s op) :
    (p.apply s op).News := by
  by_cases hends : op.EndsReadAt .consumer
  · obtain ⟨consumed, rfl⟩ := hends
    show (p.endRead .consumer s consumed).1.News
    rcases endRead_cases s .consumer consumed with heq | heq | ⟨consumer, hc⟩
    · rw [heq]
      exact hn
    · rw [heq]
      exact hn
    · rw [hc.endRead]
      refine news_push fun _ => fun hopen hlatch => ?_
      have hpos := unread_ne_nil.mp (hn hopen hlatch)
      obtain ⟨hle, -, hsize⟩ := RingBuffer.discardAll_eq_some hc.discarded
      rw [unread_ne_nil]
      show 0 < consumer.size + pending s.consumerEnd.control
      -- nothing is left only where the last bytes were taken
      by_contra hzero
      have hlast : p.TakesLast s consumed := by
        refine ⟨hc.unpoisoned, hc.nonzero, hc.whole, hc.reader, by omega, ?_⟩
        by_contra hne
        have := pending_pos (h.nonzero .consumer) hne
        simp only [endpoint] at this
        omega
      have hclear := hop consumed rfl hlast hopen
      have hlatch : s.consumerEnd.hasNewData = true := hlatch
      rw [hclear] at hlatch
      cases hlatch
  · have hkeep : ∀ s s' : PairState p.cap, p.PairEffect op s s' →
        s.Accounted ∧ s.News → s'.Accounted ∧ s'.News := fun s s' heffect h =>
      ⟨accounted_effect heffect h.1, news_effect hends heffect h.1 h.2⟩
    exact (keeps_apply op hkeep ⟨h, hn⟩).2

/-- The state after the last bytes were taken: a latch that was set stays, with
nothing to read. -/
theorem TakesLast.stale {consumed : UInt32} (h : p.TakesLast s consumed) (hs : s.Accounted)
    (hopen : s.consumerEnd.localClosed = false) (hlatch : s.consumerEnd.hasNewData = true) :
    ¬p.Truthful (p.apply s (.endRead .consumer consumed)) := by
  have hcap := p.cap_lt
  obtain ⟨consumer, hdiscard⟩ := RingBuffer.discardAll_isSome (r := s.consumer)
    (by omega) (Nat.le_of_eq h.all)
  have hc : p.Consumes s .consumer consumed consumer :=
    ⟨h.unpoisoned, h.nonzero, h.whole, h.reader, hdiscard⟩
  have hzero : consumer.size = 0 := by
    rw [(RingBuffer.discardAll_eq_some hdiscard).2.2, h.all, Nat.sub_self]
  have hs' := apply_accounted hs (.endRead .consumer consumed)
  have happly : p.apply s (.endRead .consumer consumed) = _ :=
    hc.endRead.trans (push_producer h.nonzero)
  rw [happly] at hs' ⊢
  intro htrue
  refine htrue.news hopen rfl ?_ ?_
  · rw [(report_consumer hs').2, Bool.and_eq_true]
    refine ⟨?_, ?_⟩
    · show (!s.poisoned) = true
      rw [h.unpoisoned]
      rfl
    · exact Bool.or_eq_true_iff.mpr (.inl hlatch)
  · rw [← not_ne_iff, unread_ne_nil]
    show ¬0 < consumer.size + pending s.consumerEnd.control
    rw [hzero, h.announced]
    exact Nat.lt_irrefl 0

theorem accounted_new (p : DataPipe) : (PairState.new p).Accounted := by
  refine ⟨?_, rfl⟩
  rintro (- | -) n hn
  · exact absurd hn List.not_mem_nil
  · exact absurd hn List.not_mem_nil

theorem step_news (s : PairState p.cap) (op : DataPipeOp) (h : s.Accounted ∧ s.News)
    (hop : p.NoStaleNews s op) : (p.apply s op).Accounted ∧ (p.apply s op).News :=
  ⟨apply_accounted h.1 op, apply_news h.1 h.2 op hop⟩

theorem news_new (p : DataPipe) : (PairState.new p).Accounted ∧ (PairState.new p).News :=
  ⟨accounted_new p, fun _ hlatch => Bool.noConfusion hlatch⟩

theorem truthful_of_noStaleNews {ops : List DataPipeOp}
    (h : Meets p.apply p.NoStaleNews (.new p) ops) : Always p.apply p.Truthful (.new p) ops :=
  (always_of_meets step_news (news_new p) h).imp fun _ hs => .of hs.1 hs.2

theorem noStaleNews_of_truthful {ops : List DataPipeOp}
    (h : Always p.apply p.Truthful (.new p) ops) : Meets p.apply p.NoStaleNews (.new p) ops := by
  refine meets_of_always step_news ?_ (news_new p) h
  rintro s op hs htrue consumed rfl hlast hopen
  by_contra hlatch
  exact hlast.stale hs.1 hopen (Bool.not_eq_false _ ▸ hlatch) htrue

/-- The signals are truthful along a run just if the consumer never ends a
two-phase read of its last bytes with the news latch set. -/
theorem signals_truthful_iff (p : DataPipe) (ops : List DataPipeOp) :
    Always p.apply p.Truthful (.new p) ops ↔ Meets p.apply p.NoStaleNews (.new p) ops :=
  ⟨noStaleNews_of_truthful, truthful_of_noStaleNews⟩

/-- One byte, read by the consumer in two phases while the producer's endpoint
discards it and so announces it again. -/
theorem stale_news : ¬Always (DataPipe.apply ⟨1, 4, by decide, by decide, by decide⟩)
    (Truthful ⟨1, 4, by decide, by decide, by decide⟩)
    (.new ⟨1, 4, by decide, by decide, by decide⟩)
    [.write .producer [7] 1 false, .beginRead .consumer,
      .read .producer none 1 ⟨false, false, true, false⟩, .querySignals .consumer,
      .endRead .consumer 1] := by
  intro h
  have hclear := (noStaleNews_of_truthful h).2.2.2.2.1 1 rfl
    ⟨rfl, by decide, by decide, ⟨⟨⟨0, 1⟩⟩, rfl, by decide⟩, rfl, rfl⟩ rfl
  cases hclear

/-! ### Reads at the consumer only -/

/-- The operation does not read at the producer's endpoint. -/
def OwnReads (op : DataPipeOp) : Prop := ¬op.ReadsAt .producer ∧ ¬op.EndsReadAt .producer

/-- The consumer's span is in its ring, and there is news only of bytes behind
it. -/
def Ahead (s : PairState p.cap) : Prop := ∀ r, s.consumerEnd.twoPhase = some (.reader r) →
  r.span.len ≤ s.consumer.size ∧ (s.consumerEnd.hasNewData = true →
    r.span.len < s.consumer.size + pending s.consumerEnd.control)

/-- What is announced lies behind the span. -/
theorem Ahead.lt_of_news (ha : Ahead s) (h : s.Accounted) {r : DirectReader}
    (hr : s.consumerEnd.twoPhase = some (.reader r)) (hnews : s.consumerEnd.hasNews = true) :
    r.span.len < s.consumer.size + pending s.consumerEnd.control := by
  obtain ⟨hle, hlatch⟩ := ha r hr
  rcases Bool.or_eq_true_iff.mp hnews with hn | hcontrol
  · exact hlatch hn
  · have hne : s.consumerEnd.control ≠ [] := by
      intro hempty
      rw [hempty] at hcontrol
      cases hcontrol
    exact Nat.lt_of_le_of_lt hle (Nat.lt_add_of_pos_right (pending_pos (h.nonzero .consumer) hne))

theorem ahead_push (ha : Ahead s) (e : DataPipeEnd) (n : UInt32) :
    Ahead (s.pushAndCollect e n) := by
  by_cases hn : n = 0
  · subst hn
    rw [push_zero]
    exact ha
  cases e with
  | producer =>
      rw [push_producer hn]
      exact ha
  | consumer =>
      rw [push_consumer hn]
      intro r hr
      obtain ⟨hle, -⟩ := ha r hr
      refine ⟨hle, fun _ => ?_⟩
      show r.span.len < s.consumer.size + pending (s.consumerEnd.control ++ [n])
      have hpos : 0 < n.toNat := Nat.pos_of_ne_zero fun hz => hn (UInt32.toNat_inj.mp hz)
      rw [pending_append]
      omega

theorem ahead_effect (hop : OwnReads op) (heffect : p.PairEffect op s s') (h : s.Accounted)
    (ha : Ahead s) : Ahead s' := by
  cases heffect with
  -- the flush adds what the producer reported to the bytes the consumer sees
  | flush self =>
      cases self with
      | producer =>
          obtain ⟨producer, hflush, -⟩ := h.flush_producer p.cap_lt
          rw [hflush]
          exact ha
      | consumer =>
          obtain ⟨consumer, hflush, hsize⟩ := h.flush_consumer p.cap_lt
          rw [hflush]
          intro r hr
          show r.span.len ≤ consumer.size ∧ (s.consumerEnd.hasNews = true →
            r.span.len < consumer.size + 0)
          rw [hsize]
          exact ⟨Nat.le_trans (ha r hr).1 (Nat.le_add_right _ _), ha.lt_of_news h hr⟩
  -- news is latched when there are more bytes than the read under way covers
  | latch self =>
      cases self with
      | producer =>
          rw [signalsOf_producer_fst]
          exact ha
      | consumer =>
          simp only [signalsOf]
          split
          · rename_i hnews
            exact fun r hr => ⟨(ha r hr).1, fun _ => ha.lt_of_news h hr hnews⟩
          · exact ha
  | poison => exact ha
  | forget self =>
      cases self with
      | producer => exact ha
      | consumer => exact fun r hr => ⟨(ha r hr).1, fun hlatch => Bool.noConfusion hlatch⟩
  | beginWrite self =>
      cases self with
      | producer => exact ha
      | consumer =>
          intro r hr
          cases hr
  -- a read takes what is there, and the news with it
  | beginRead self =>
      cases self with
      | producer => exact ha
      | consumer =>
          intro r hr
          cases hr
          exact ⟨Nat.min_le_left _ _, fun hlatch => Bool.noConfusion hlatch⟩
  | endTwoPhase self =>
      cases self with
      | producer => exact ha
      | consumer =>
          intro r hr
          cases hr
  -- written bytes are on their way to the other end
  | produce self n producer pages cut extended =>
      have hs : Ahead ({ s with producer, pages } : PairState p.cap) := ha
      exact ahead_push hs self.peer n
  -- only the consumer reads, and not during a two-phase read
  | take self n consumer cut discarded forgotten idle reads =>
      cases self with
      | producer => exact absurd reads hop.1
      | consumer =>
          have hs : Ahead ({ s with consumer } : PairState p.cap) := fun r hr =>
            absurd (hr.symm.trans idle) (Option.some_ne_none _)
          exact ahead_push hs .producer n
  | finish self n consumer cut discarded idle ends =>
      cases self with
      | producer => exact absurd ends hop.2
      | consumer =>
          have hs : Ahead ({ s with consumer } : PairState p.cap) := fun r hr =>
            absurd (hr.symm.trans idle) (Option.some_ne_none _)
          exact ahead_push hs .producer n
  | close self =>
      cases self with
      | producer => exact ha
      | consumer => exact ha

theorem Ahead.noStaleNews (ha : Ahead s) (op : DataPipeOp) : p.NoStaleNews s op := by
  intro consumed _ hlast _
  obtain ⟨r, hr, hle⟩ := hlast.reader
  have hall := hlast.all
  by_contra hlatch
  have hlt := (ha r hr).2 (Bool.not_eq_false _ ▸ hlatch)
  rw [hlast.announced, pending_nil] at hlt
  omega

/-- As long as only the consumer reads, the signals are truthful. -/
theorem own_reads_truthful (p : DataPipe) (ops : List DataPipeOp) (hops : ∀ op ∈ ops, OwnReads op) :
    Always p.apply p.Truthful (.new p) ops := by
  have hrun : ∀ s : PairState p.cap, s.Accounted ∧ Ahead s →
      Meets p.apply p.NoStaleNews s ops := by
    induction ops with
    | nil => exact fun _ _ => trivial
    | cons op ops ih =>
        rw [List.forall_mem_cons] at hops
        refine fun s hs => ⟨hs.2.noStaleNews op, ih hops.2 _ ?_⟩
        exact keeps_apply op (P := fun s => s.Accounted ∧ Ahead s) (fun s s' heffect h =>
          ⟨accounted_effect heffect h.1, ahead_effect hops.1 heffect h.1 h.2⟩) hs
  refine truthful_of_noStaleNews (hrun (.new p) ⟨accounted_new p, fun r hr => ?_⟩)
  cases hr

end DataPipe

end MojoRs.Core
