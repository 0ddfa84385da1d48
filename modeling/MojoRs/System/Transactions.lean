/-
MojoRs/System/Transactions.lean

What the safe API of a data pipe is safe from.  `Held` ties what a client holds to
the two-phase operation that the core has at the same end: the borrow checker
keeps the one in step with the other, a forgotten transaction excepted.

No call panics, none finds the lock poisoned, and none is refused as busy but
behind a forgotten transaction.  A commit fails only for its own argument, and
what a read transaction shows is the front of the stream for as long as it lives.

Main result: `transactions_safe`.
-/
import MojoRs.Core.TruthfulSignals
import MojoRs.System.DataPipe

namespace MojoRs.Core

open Lib

/-! ### Calls that leave two-phase operations alone -/

namespace PairState

variable {cap : Nat} {s s' s'' : PairState cap}

/-- No two-phase operation begins or ends. -/
def SameTwoPhase (s s' : PairState cap) : Prop :=
  ∀ e, (s'.endpoint e).twoPhase = (s.endpoint e).twoPhase

theorem SameTwoPhase.refl (s : PairState cap) : SameTwoPhase s s := fun _ => rfl

theorem SameTwoPhase.trans (h : SameTwoPhase s s') (h' : SameTwoPhase s' s'') :
    SameTwoPhase s s'' := fun e => (h' e).trans (h e)

theorem sameTwoPhase_modify (s : PairState cap) (e : DataPipeEnd)
    {f : EndpointState → EndpointState} (hf : ∀ ep, (f ep).twoPhase = ep.twoPhase) :
    SameTwoPhase s (s.modifyEndpoint e f) := by
  intro e'
  cases e <;> cases e'
  · exact hf _
  · rfl
  · rfl
  · exact hf _

theorem sameTwoPhase_signalsOf (s : PairState cap) (e : DataPipeEnd) :
    SameTwoPhase s (s.signalsOf e).1 := by
  cases e with
  | producer =>
      rw [signalsOf_producer_fst]
      exact .refl s
  | consumer =>
      simp only [signalsOf]
      split_ifs
      · exact sameTwoPhase_modify s .consumer fun _ => rfl
      · exact .refl s

theorem sameTwoPhase_push (s : PairState cap) (e : DataPipeEnd) (n : UInt32) :
    SameTwoPhase s (s.pushAndCollect e n) := by
  rw [pushAndCollect]
  split_ifs
  · exact .refl s
  · have hmodify := sameTwoPhase_modify s e (f := fun ep =>
      { ep with control := ep.control ++ [n] }) fun _ => rfl
    exact hmodify.trans (sameTwoPhase_signalsOf _ e)

theorem sameTwoPhase_flush (s : PairState cap) (e : DataPipeEnd) :
    SameTwoPhase s (s.flushLocked e) := by
  have hmodify : SameTwoPhase s (s.modifyEndpoint e fun ep =>
      { ep with control := (drain (s.endpoint e).control 0).2 }) :=
    sameTwoPhase_modify s e fun _ => rfl
  rw [flushLocked]
  dsimp only
  split_ifs
  · exact hmodify
  · cases e
    · exact hmodify
    · apply hmodify.trans
      intro e'
      cases e' <;> rfl

end PairState

namespace DataPipe

open PairState

variable {p : DataPipe} {self : DataPipeEnd} {s : PairState p.cap}

theorem sameTwoPhase_write (elements : List UInt8) (numBytes : UInt32) (allOrNone : Bool) :
    SameTwoPhase s (p.write self s elements numBytes allOrNone).1 := by
  have hflush := sameTwoPhase_flush s self
  apply write_rule (motive := fun out => SameTwoPhase s out.1)
  · exact fun _ => .refl s
  · exact fun _ => hflush
  · exact fun _ => hflush
  · exact fun _ producer pages _ => hflush.trans (sameTwoPhase_push _ _ _)
  · exact fun _ _ _ _ => hflush
  · exact fun _ n producer pages _ => hflush.trans (sameTwoPhase_push _ _ _)

theorem sameTwoPhase_read (elements : Option (List UInt8)) (numBytes : UInt32)
    (flags : ReadFlags) : SameTwoPhase s (p.read self s elements numBytes flags).1 := by
  have hflush := sameTwoPhase_flush s self
  have hforgotten : SameTwoPhase s (forgotten s self) :=
    hflush.trans (sameTwoPhase_modify _ self fun _ => rfl)
  apply read_rule (motive := fun out => SameTwoPhase s out.1)
  · exact fun _ => .refl s
  · exact fun _ => hflush
  · exact fun _ => hflush
  · exact fun _ _ => hforgotten
  · exact fun _ _ => hforgotten
  · intro _
    rw [readAllOrNone]
    split
    · exact hforgotten
    · split_ifs
      · exact hforgotten
      · exact hforgotten.trans (sameTwoPhase_push _ _ _)
  · intro _
    rw [readPartial]
    split_ifs
    · exact hforgotten.trans (sameTwoPhase_push _ _ _)
    · exact hforgotten
    · exact hforgotten.trans (sameTwoPhase_push _ _ _)

theorem sameTwoPhase_querySignals (s : PairState p.cap) (self : DataPipeEnd) :
    SameTwoPhase s (p.querySignals self s).1 := by
  rw [querySignals]
  split_ifs
  · exact .refl s
  · exact (sameTwoPhase_flush s self).trans (sameTwoPhase_signalsOf _ self)

theorem sameTwoPhase_close (s : PairState p.cap) (self : DataPipeEnd) :
    SameTwoPhase s (p.close self s) := by
  rw [close]
  split_ifs
  · exact .refl s
  · exact .refl s
  · have hown := sameTwoPhase_modify s self (f := fun ep => { ep with localClosed := true })
      fun _ => rfl
    have hpeer := sameTwoPhase_modify
      (s.modifyEndpoint self fun ep => { ep with localClosed := true }) self.peer
      (f := fun ep => { ep with peerClosed := true }) fun _ => rfl
    exact (hown.trans hpeer).trans (sameTwoPhase_signalsOf _ self.peer)

theorem sameTwoPhase_fill (s : PairState p.cap) (pos : Nat) (bytes : List UInt8) :
    SameTwoPhase s (p.fill s pos bytes) := by
  rw [fill]
  split
  · split_ifs
    · exact fun e => by cases e <;> rfl
    · exact .refl s
  · exact .refl s

/-! ### Calls that begin and end them -/

/-- The operation that an end begins on a span. -/
def twoPhaseOn : DataPipeEnd → Span → TwoPhase
  | .producer, span => .writer ⟨span⟩
  | .consumer, span => .reader ⟨span⟩

/-- The outcome of a call that begins an operation: on success there is one on the
span handed out, and otherwise nothing changes. -/
structure Begins (e : DataPipeEnd) (s : PairState p.cap) (out : PairState p.cap × Call Span) :
    Prop where
  answers : ∃ r, out.2 = some r ∧ r ≠ .error .internal ∧
    (r = .error .busy ↔ (s.endpoint e).twoPhase.isSome)
  begun : ∀ span, out.2 = some (.ok span) →
    (out.1.endpoint e).twoPhase = some (twoPhaseOn e span)
  refused : ∀ error, out.2 = some (.error error) → SameTwoPhase s out.1
  other : (out.1.endpoint e.peer).twoPhase = (s.endpoint e.peer).twoPhase

/-- A call refused with an error of its own begins nothing. -/
theorem Begins.refuse {e : DataPipeEnd} {out : PairState p.cap × Call Span} {error : CoreError}
    (hout : out.2 = some (.error error)) (hinternal : error ≠ .internal)
    (hbusy : error = .busy ↔ (s.endpoint e).twoPhase.isSome) (hsame : SameTwoPhase s out.1) :
    Begins e s out where
  answers := by
    refine ⟨_, hout, ?_, ?_⟩
    · intro h
      exact hinternal (Except.error.inj h)
    · rw [Except.error.injEq, hbusy]
  begun span h := by
    cases hout.symm.trans h
  refused _ _ := hsame
  other := hsame e.peer

/-- A call that is granted a span begins an operation on it. -/
theorem Begins.grant {e : DataPipeEnd} {out : PairState p.cap × Call Span} {span : Span}
    (hout : out.2 = some (.ok span)) (hidle : ¬(s.endpoint e).twoPhase.isSome)
    (hbegun : (out.1.endpoint e).twoPhase = some (twoPhaseOn e span))
    (hother : (out.1.endpoint e.peer).twoPhase = (s.endpoint e.peer).twoPhase) :
    Begins e s out where
  answers := ⟨_, hout, by simp, iff_of_false (by simp) hidle⟩
  begun span' h := by
    cases hout.symm.trans h
    exact hbegun
  refused error h := by
    cases hout.symm.trans h
  other := hother

theorem begins_beginWrite (h : s.poisoned = false) :
    Begins .producer s (p.beginWrite .producer s) := by
  have hflush := sameTwoPhase_flush s .producer
  have hself : (s.flushLocked .producer).producerEnd.twoPhase = s.producerEnd.twoPhase :=
    hflush .producer
  have hpeer : (s.flushLocked .producer).consumerEnd.twoPhase = s.consumerEnd.twoPhase :=
    hflush .consumer
  rw [beginWrite, h, if_neg Bool.false_ne_true]
  dsimp only [endpoint]
  rw [hself]
  split_ifs with hbusy hclosed hfull
  · exact .refuse rfl (by simp) (iff_of_true rfl hbusy) hflush
  · exact .refuse rfl (by simp) (iff_of_false (by simp) hbusy) hflush
  · exact .refuse rfl (by simp) (iff_of_false (by simp) hbusy) hflush
  · exact .grant rfl hbusy rfl hpeer

theorem begins_beginRead (h : s.poisoned = false) :
    Begins .consumer s (p.beginRead .consumer s) := by
  have hflush := sameTwoPhase_flush s .consumer
  have hself : (s.flushLocked .consumer).consumerEnd.twoPhase = s.consumerEnd.twoPhase :=
    hflush .consumer
  have hpeer : (s.flushLocked .consumer).producerEnd.twoPhase = s.producerEnd.twoPhase :=
    hflush .producer
  rw [beginRead, h, if_neg Bool.false_ne_true]
  dsimp only [endpoint]
  rw [hself]
  split_ifs with hbusy hempty hclosed
  · exact .refuse rfl (by simp) (iff_of_true rfl hbusy) hflush
  · exact .refuse rfl (by simp) (iff_of_false (by simp) hbusy) hflush
  · exact .refuse rfl (by simp) (iff_of_false (by simp) hbusy) hflush
  · exact .grant rfl hbusy rfl hpeer

/-- The outcome of the end of an operation on `span`: it is over, and it succeeds
just for whole elements of the span. -/
structure Ends (e : DataPipeEnd) (span : Span) (n : UInt32) (s : PairState p.cap)
    (out : PairState p.cap × Call Unit) : Prop where
  ended : (out.1.endpoint e).twoPhase = none
  other : (out.1.endpoint e.peer).twoPhase = (s.endpoint e.peer).twoPhase
  answer : (out.2 = some (.ok ()) ∧ p.elementSize.toNat ∣ n.toNat ∧ n.toNat ≤ span.len) ∨
    (out.2 = some (.error .invalidArgument) ∧
      ¬(p.elementSize.toNat ∣ n.toNat ∧ n.toNat ≤ span.len))

theorem ends_endWrite {span : Span} (hi : s.Inv) (h : s.poisoned = false)
    (hw : s.producerEnd.twoPhase = some (.writer ⟨span⟩)) (n : UInt32) :
    Ends .producer span n s (p.endWrite .producer s n) := by
  obtain ⟨-, -, hfree⟩ := hi.writer _ hw
  rw [endWrite, h, if_neg Bool.false_ne_true]
  dsimp only [endpoint]
  rw [hw]
  dsimp only
  split_ifs with hwhole hzero
  · exact ⟨rfl, rfl, .inr ⟨rfl, fun hn => hwhole (Nat.mod_eq_zero_of_dvd hn.1)⟩⟩
  · refine ⟨rfl, rfl, .inl ⟨rfl, ?_⟩⟩
    rw [hzero]
    exact ⟨dvd_zero _, Nat.zero_le _⟩
  · have hdvd : p.elementSize.toNat ∣ n.toNat := Nat.dvd_of_mod_eq_zero (not_not.mp hwhole)
    rw [DirectWriter.commit]
    by_cases hlen : n.toNat ≤ span.len
    · -- there is room for the whole span
      obtain ⟨producer, hproducer⟩ := RingBuffer.extendDataRange_isSome (r := s.producer)
        (n := n.toNat) (Nat.le_trans (Nat.add_le_add_left hlen _) hfree)
      rw [if_pos hlen]
      dsimp only [modifyEndpoint]
      rw [hproducer]
      exact ⟨sameTwoPhase_push _ _ _ .producer, sameTwoPhase_push _ _ _ .consumer,
        .inl ⟨rfl, hdvd, hlen⟩⟩
    · rw [if_neg hlen]
      exact ⟨rfl, rfl, .inr ⟨rfl, fun hn => hlen hn.2⟩⟩

theorem ends_endRead {span : Span} (hi : s.Inv) (h : s.poisoned = false)
    (hr : s.consumerEnd.twoPhase = some (.reader ⟨span⟩)) (n : UInt32) :
    Ends .consumer span n s (p.endRead .consumer s n) := by
  obtain ⟨-, -, hdata⟩ := hi.reader _ hr
  have hcap : p.cap ≤ 2 ^ 63 := by
    have := p.cap_lt
    omega
  rw [endRead, h, if_neg Bool.false_ne_true]
  dsimp only [endpoint]
  rw [hr]
  dsimp only
  split_ifs with hwhole hzero
  · exact ⟨rfl, rfl, .inr ⟨rfl, fun hn => hwhole (Nat.mod_eq_zero_of_dvd hn.1)⟩⟩
  · refine ⟨rfl, rfl, .inl ⟨rfl, ?_⟩⟩
    rw [hzero]
    exact ⟨dvd_zero _, Nat.zero_le _⟩
  · have hdvd : p.elementSize.toNat ∣ n.toNat := Nat.dvd_of_mod_eq_zero (not_not.mp hwhole)
    rw [DirectReader.consume]
    by_cases hlen : n.toNat ≤ span.len
    · -- the whole span is data
      obtain ⟨consumer, hconsumer⟩ := RingBuffer.discardAll_isSome (r := s.consumer)
        (n := n.toNat) hcap (Nat.le_trans hlen hdata)
      rw [if_pos hlen]
      dsimp only [modifyEndpoint]
      rw [hconsumer]
      exact ⟨sameTwoPhase_push _ _ _ .consumer, sameTwoPhase_push _ _ _ .producer,
        .inl ⟨rfl, hdvd, hlen⟩⟩
    · rw [if_neg hlen]
      exact ⟨rfl, rfl, .inr ⟨rfl, fun hn => hlen hn.2⟩⟩

/-- Nothing ends where nothing is in progress. -/
theorem endWrite_idle (h : s.poisoned = false) (hnone : s.producerEnd.twoPhase = none) (n : UInt32) :
    (p.endWrite .producer s n) = (s, some (.error .failedPrecondition)) := by
  rw [endWrite, h, if_neg Bool.false_ne_true]
  dsimp only [endpoint]
  rw [hnone]

theorem endRead_idle (h : s.poisoned = false) (hnone : s.consumerEnd.twoPhase = none) (n : UInt32) :
    (p.endRead .consumer s n) = (s, some (.error .failedPrecondition)) := by
  rw [endRead, h, if_neg Bool.false_ne_true]
  dsimp only [endpoint]
  rw [hnone]

/-! ### What a write and a read answer -/

/-- A call that returns: the lock was not poisoned, and it was refused as busy only
behind a two-phase operation. -/
def Answers {α : Type} (r : Call α) (busy : Prop) : Prop :=
  ∃ a, r = some a ∧ a ≠ .error .internal ∧ (a = .error .busy → busy)

theorem Answers.ok {α : Type} (a : α) (busy : Prop) : Answers (some (.ok a)) busy :=
  ⟨_, rfl, by simp, by simp⟩

theorem Answers.refuse {α : Type} {e : CoreError} (busy : Prop) (h : e ≠ .internal)
    (h' : e ≠ .busy) : Answers (some (.error e : CoreResult α)) busy :=
  ⟨_, rfl, fun heq => h (Except.error.inj heq), fun heq => absurd (Except.error.inj heq) h'⟩

theorem Begins.toAnswers {e : DataPipeEnd} {out : PairState p.cap × Call Span}
    (h : Begins e s out) : Answers out.2 (s.endpoint e).twoPhase.isSome := by
  obtain ⟨r, hr, hinternal, hbusy⟩ := h.answers
  exact ⟨r, hr, hinternal, hbusy.mp⟩

theorem write_answers {elements : List UInt8} {numBytes : UInt32} (h : s.poisoned = false)
    (hlen : numBytes.toNat ≤ elements.length) (allOrNone : Bool) :
    Answers (p.write .producer s elements numBytes allOrNone).2 s.producerEnd.twoPhase.isSome := by
  have hself : (s.flushLocked .producer).producerEnd.twoPhase = s.producerEnd.twoPhase :=
    sameTwoPhase_flush s .producer .producer
  rw [write, h, if_neg Bool.false_ne_true]
  dsimp only [endpoint]
  rw [hself]
  by_cases hwhole : numBytes.toNat % p.elementSize.toNat ≠ 0
  · rw [if_pos hwhole]
    exact .refuse _ (by simp) (by simp)
  rw [if_neg hwhole]
  by_cases hbusy : s.producerEnd.twoPhase.isSome = true
  · rw [if_pos hbusy]
    exact ⟨_, rfl, by simp, fun _ => hbusy⟩
  rw [if_neg hbusy, if_neg (Nat.not_lt.mpr hlen)]
  by_cases hclosed : (s.flushLocked .producer).producerEnd.peerClosed = true
  · rw [if_pos hclosed]
    exact .refuse _ (by simp) (by simp)
  rw [if_neg hclosed]
  cases allOrNone with
  | true =>
      rw [if_pos rfl]
      rcases (s.flushLocked .producer).producer.writeAll _ _ with - | ⟨producer, pages⟩
      · dsimp only
        split_ifs
        · exact .refuse _ (by simp) (by simp)
        · exact .refuse _ (by simp) (by simp)
      · exact .ok _ _
  | false =>
      rw [if_neg Bool.false_ne_true]
      rcases (s.flushLocked .producer).producer.write _ _ with ⟨n, producer, pages⟩
      dsimp only
      split_ifs
      · exact .refuse _ (by simp) (by simp)
      · exact .ok _ _

theorem readAllOrNone_answers (numBytes : UInt32) (flags : ReadFlags) (busy : Prop) :
    Answers (p.readAllOrNone self s numBytes flags).2 busy := by
  rw [readAllOrNone]
  split
  · dsimp only
    split_ifs
    · exact .refuse _ (by simp) (by simp)
    · exact .refuse _ (by simp) (by simp)
  · exact .ok _ _

theorem readPartial_answers (numBytes : UInt32) (flags : ReadFlags) (busy : Prop) :
    Answers (p.readPartial self s numBytes flags).2 busy := by
  rw [readPartial]
  split_ifs
  · exact .ok _ _
  · exact .ok _ _
  · exact .ok _ _

theorem read_answers {elements : Option (List UInt8)} {numBytes : UInt32} {flags : ReadFlags}
    (h : s.poisoned = false)
    (hlong : flags.query = false → outTooShort elements numBytes flags = false) :
    Answers (p.read .consumer s elements numBytes flags).2 s.consumerEnd.twoPhase.isSome := by
  have hself : (s.flushLocked .consumer).consumerEnd.twoPhase = s.consumerEnd.twoPhase :=
    sameTwoPhase_flush s .consumer .consumer
  rw [read, h, if_neg Bool.false_ne_true]
  dsimp only [endpoint]
  rw [hself]
  split_ifs with hflags hgiven hbusy hquery hwhole hall hshort hempty hclosed hshort
  · exact .refuse _ (by simp) (by simp)
  · exact .refuse _ (by simp) (by simp)
  · exact ⟨_, rfl, by simp, fun _ => hbusy⟩
  · exact .ok _ _
  · exact .refuse _ (by simp) (by simp)
  · rw [hlong (Bool.eq_false_iff.mpr hquery)] at hshort
    cases hshort
  · exact readAllOrNone_answers _ _ _
  · exact .refuse _ (by simp) (by simp)
  · exact .refuse _ (by simp) (by simp)
  · rw [hlong (Bool.eq_false_iff.mpr hquery)] at hshort
    cases hshort
  · exact readPartial_answers _ _ _

end DataPipe

end MojoRs.Core

namespace MojoRs.System

open MojoRs.Core Lib
open Core.DataPipe (twoPhaseOn)
open Core.PairState (SameTwoPhase)

namespace SafePipe

variable {p : DataPipe} {s : SafePipe p}

/-- The two-phase operation in progress at an end is the one that its client
holds. -/
def Held (e : DataPipeEnd) : Holder → Option TwoPhase → Prop
  | .owned, two => two = none
  | .transaction span, two => two = some (twoPhaseOn e span)
  | .forgotten, two => two.isSome = true
  | .dropped, _ => True

/-- What holds of a pair in the hands of its clients. -/
structure Inv (s : SafePipe p) : Prop where
  pair : s.pair.Inv
  intact : s.stream.Intact
  alive : s.pair.poisoned = false
  held : ∀ e, Held e (s.holder e) (s.pair.endpoint e).twoPhase

theorem Inv.init (p : DataPipe) : (SafePipe.init p).Inv where
  pair := .new p
  intact := rfl
  alive := rfl
  held e := by cases e <;> rfl

/-- A call that neither begins nor ends an operation. -/
theorem Inv.same (h : s.Inv) {op : PipeOp} (halive : (s.core op).pair.poisoned = false)
    (hsame : SameTwoPhase s.pair (s.core op).pair) : (s.core op).Inv := by
  obtain ⟨hpair, hintact⟩ := StreamState.step_intact op ⟨h.pair, h.intact⟩
  refine ⟨hpair, hintact, halive, fun e => ?_⟩
  rw [hsame e]
  exact h.held e

/-- A call that begins or ends an operation at the end `e`. -/
theorem Inv.change (h : s.Inv) {op : PipeOp} {e : DataPipeEnd} {holder : Holder}
    (halive : (s.core op).pair.poisoned = false)
    (hself : Held e holder ((s.core op).pair.endpoint e).twoPhase)
    (hother : ((s.core op).pair.endpoint e.peer).twoPhase = (s.pair.endpoint e.peer).twoPhase) :
    ((s.core op).hold e holder).Inv := by
  obtain ⟨hpair, hintact⟩ := StreamState.step_intact op ⟨h.pair, h.intact⟩
  refine ⟨hpair, hintact, halive, fun e' => ?_⟩
  show Held e' (Function.update s.holder e holder e') ((s.core op).pair.endpoint e').twoPhase
  by_cases he : e' = e
  · rw [he, Function.update_self]
    exact hself
  · have hpeer : e' = e.peer := by
      cases e <;> cases e' <;> first | exact absurd rfl he | rfl
    rw [Function.update_of_ne he, hpeer, hother]
    exact h.held e.peer

theorem u32TryFrom_some {n : Nat} {m : UInt32} (h : u32TryFrom n = some m) : m.toNat = n := by
  rw [u32TryFrom] at h
  split_ifs at h with hn
  rw [← Option.some.inj h]
  exact UInt32.toNat_ofNat_of_lt' hn

theorem u32TryFrom_of_lt {n : Nat} (h : n < 2 ^ 32) : u32TryFrom n = some (UInt32.ofNat n) :=
  if_pos h

/-! ### The calls -/

theorem poisoned_of_flags {s' : PairState p.cap} (h : s'.flags = s.pair.flags)
    (halive : s.pair.poisoned = false) : s'.poisoned = false :=
  (congrArg Prod.fst h).trans halive

theorem Inv.write (h : s.Inv) (data : List UInt8) (allOrNone : Bool) :
    (s.write data allOrNone).1.Inv := by
  rw [SafePipe.write]
  rcases hn : u32TryFrom data.length with - | numBytes
  · exact h
  · have hlen : numBytes.toNat ≤ data.length := Nat.le_of_eq (u32TryFrom_some hn)
    apply h.same
    · exact poisoned_of_flags (DataPipe.flags_write allOrNone hlen) h.alive
    · exact DataPipe.sameTwoPhase_write data numBytes allOrNone

theorem Inv.read (h : s.Inv) (buffer : List UInt8) (flags : ReadFlags) :
    (s.read buffer flags).1.Inv := by
  rw [SafePipe.read]
  rcases hn : u32TryFrom buffer.length with - | numBytes
  · exact h
  · have hlong : flags.query = true ∨ flags.discard = true ∨
        ∀ b ∈ (if flags.query || flags.discard then none else some buffer),
          numBytes.toNat ≤ b.length := by
      refine .inr (.inr fun b hb => ?_)
      split_ifs at hb with hflags
      · cases hb
      · rw [← Option.mem_some.mp hb, u32TryFrom_some hn]
    apply h.same
    · exact poisoned_of_flags (DataPipe.flags_read hlong) h.alive
    · exact DataPipe.sameTwoPhase_read _ numBytes flags

theorem Inv.beginWrite (h : s.Inv) : s.beginWrite.1.Inv := by
  have hbegins := DataPipe.begins_beginWrite h.alive
  have hflags : (p.beginWrite .producer s.pair).1.flags = s.pair.flags := DataPipe.flags_beginWrite
  have halive := poisoned_of_flags hflags h.alive
  obtain ⟨r, hr, -, -⟩ := hbegins.answers
  rw [SafePipe.beginWrite, hr]
  cases r with
  | error e => exact h.same halive (hbegins.refused e hr)
  | ok span => exact h.change halive (hbegins.begun span hr) hbegins.other

theorem Inv.beginRead (h : s.Inv) : s.beginRead.1.Inv := by
  have hbegins := DataPipe.begins_beginRead h.alive
  have hflags : (p.beginRead .consumer s.pair).1.flags = s.pair.flags := DataPipe.flags_beginRead
  have halive := poisoned_of_flags hflags h.alive
  obtain ⟨r, hr, -, -⟩ := hbegins.answers
  rw [SafePipe.beginRead, hr]
  cases r with
  | error e => exact h.same halive (hbegins.refused e hr)
  | ok span => exact h.change halive (hbegins.begun span hr) hbegins.other

/-- The operation of a write transaction. -/
theorem Inv.writer (h : s.Inv) {span : Span} (ht : s.holder .producer = .transaction span) :
    s.pair.producerEnd.twoPhase = some (.writer ⟨span⟩) := by
  have hheld := h.held .producer
  rw [ht] at hheld
  exact hheld

theorem Inv.reader (h : s.Inv) {span : Span} (ht : s.holder .consumer = .transaction span) :
    s.pair.consumerEnd.twoPhase = some (.reader ⟨span⟩) := by
  have hheld := h.held .consumer
  rw [ht] at hheld
  exact hheld

/-- The end of a write transaction, by whatever call. -/
theorem Inv.endWrite (h : s.Inv) {span : Span} (ht : s.holder .producer = .transaction span)
    (n : UInt32) : ((s.core (.endWrite n)).hold .producer .owned).Inv := by
  have hends := DataPipe.ends_endWrite h.pair h.alive (h.writer ht) n
  exact h.change (poisoned_of_flags (DataPipe.flags_endWrite n) h.alive) hends.ended hends.other

theorem Inv.endRead (h : s.Inv) {span : Span} (ht : s.holder .consumer = .transaction span)
    (n : UInt32) : ((s.core (.endRead n)).hold .consumer .owned).Inv := by
  have hends := DataPipe.ends_endRead h.pair h.alive (h.reader ht) n
  exact h.change (poisoned_of_flags (DataPipe.flags_endRead n) h.alive) hends.ended hends.other

/-- A second end of an operation changes nothing. -/
theorem core_endWrite_idle (halive : s.pair.poisoned = false)
    (hnone : s.pair.producerEnd.twoPhase = none) (n : UInt32) : s.core (.endWrite n) = s := by
  obtain ⟨⟨pair, accepted, consumed⟩, holder⟩ := s
  show (⟨⟨(p.endWrite .producer pair n).1, accepted ++
    p.movedByEnd pair .producer n (p.endWrite .producer pair n).2, consumed⟩, holder⟩ : SafePipe p) = _
  rw [DataPipe.endWrite_idle halive hnone]
  show (⟨⟨pair, accepted ++ [], consumed⟩, holder⟩ : SafePipe p) = _
  rw [List.append_nil]

theorem core_endRead_idle (halive : s.pair.poisoned = false)
    (hnone : s.pair.consumerEnd.twoPhase = none) (n : UInt32) : s.core (.endRead n) = s := by
  obtain ⟨⟨pair, accepted, consumed⟩, holder⟩ := s
  show (⟨⟨(p.endRead .consumer pair n).1, accepted, consumed ++
    p.movedByEnd pair .consumer n (p.endRead .consumer pair n).2⟩, holder⟩ : SafePipe p) = _
  rw [DataPipe.endRead_idle halive hnone]
  show (⟨⟨pair, accepted, consumed ++ []⟩, holder⟩ : SafePipe p) = _
  rw [List.append_nil]

theorem movedByEnd_zero (pair : PairState p.cap) (e : DataPipeEnd) (r : Call Unit) :
    p.movedByEnd pair e 0 r = [] := by
  rcases r with - | ⟨- | -⟩
  · rfl
  · rfl
  · show p.spanBytes pair e 0 = []
    rw [DataPipe.spanBytes]
    split
    · rfl
    · rfl
    · rfl

/-- The outcome of a commit: the bytes of the span are accepted, or the transaction
is over without. -/
theorem Inv.commit (h : s.Inv) {span : Span} (ht : s.holder .producer = .transaction span)
    (n : Nat) :
    (s.commit n).1.Inv ∧
      (((s.commit n).2 = some (.ok ()) ∧ (p.elementSize.toNat ∣ n ∧ n ≤ span.len) ∧
          (s.commit n).1.stream.accepted =
            s.stream.accepted ++ copyOut s.pair.pages span.start n) ∨
        ((s.commit n).2 = some (.error .invalidArgument) ∧
          ¬(p.elementSize.toNat ∣ n ∧ n ≤ span.len) ∧
          (s.commit n).1.stream.accepted = s.stream.accepted)) := by
  have hwriter := h.writer ht
  obtain ⟨-, hfits, -⟩ := h.pair.writer _ hwriter
  rw [SafePipe.commit]
  rcases hn : u32TryFrom n with - | produced
  · -- no span is as long
    refine ⟨h.endWrite ht 0, .inr ⟨rfl, fun hlen => ?_, ?_⟩⟩
    · have hcap := p.cap_lt
      have hfits' : span.start + span.len ≤ p.cap := hfits
      rw [u32TryFrom_of_lt (by omega)] at hn
      cases hn
    · show s.stream.accepted ++ p.movedByEnd s.pair .producer 0 _ = _
      rw [movedByEnd_zero, List.append_nil]
  · have hends := DataPipe.ends_endWrite h.pair h.alive hwriter produced
    have hended := h.endWrite ht produced
    rw [← u32TryFrom_some hn]
    rcases hends.answer with ⟨hok, hlen⟩ | ⟨herror, hlen⟩
    · dsimp only
      rw [hok]
      refine ⟨hended, .inl ⟨rfl, hlen, ?_⟩⟩
      show s.stream.accepted ++ p.movedByEnd s.pair .producer produced
        (p.endWrite .producer s.pair produced).2 = _
      rw [hok]
      show s.stream.accepted ++ p.spanBytes s.pair .producer produced.toNat = _
      rw [DataPipe.spanBytes, PairState.endpoint, hwriter]
    · dsimp only
      rw [herror]
      -- the drop behind a failed commit finds nothing to end
      have halive : (s.core (.endWrite produced)).pair.poisoned = false := hended.alive
      have hidle : (s.core (.endWrite produced)).dropWrite =
          (s.core (.endWrite produced)).hold .producer .owned := by
        rw [dropWrite, core_endWrite_idle halive hends.ended]
      refine ⟨hidle ▸ hended, .inr ⟨rfl, hlen, ?_⟩⟩
      rw [hidle]
      show s.stream.accepted ++ p.movedByEnd s.pair .producer produced
        (p.endWrite .producer s.pair produced).2 = _
      rw [herror]
      exact List.append_nil _

theorem Inv.consume (h : s.Inv) {span : Span} (ht : s.holder .consumer = .transaction span)
    (n : Nat) :
    (s.consume n).1.Inv ∧
      (((s.consume n).2 = some (.ok ()) ∧ (p.elementSize.toNat ∣ n ∧ n ≤ span.len) ∧
          (s.consume n).1.stream.consumed =
            s.stream.consumed ++ copyOut s.pair.pages span.start n) ∨
        ((s.consume n).2 = some (.error .invalidArgument) ∧
          ¬(p.elementSize.toNat ∣ n ∧ n ≤ span.len) ∧
          (s.consume n).1.stream.consumed = s.stream.consumed)) := by
  have hreader := h.reader ht
  obtain ⟨-, hfits, -⟩ := h.pair.reader _ hreader
  rw [SafePipe.consume]
  rcases hn : u32TryFrom n with - | consumed
  · refine ⟨h.endRead ht 0, .inr ⟨rfl, fun hlen => ?_, ?_⟩⟩
    · have hcap := p.cap_lt
      have hfits' : span.start + span.len ≤ p.cap := hfits
      rw [u32TryFrom_of_lt (by omega)] at hn
      cases hn
    · show s.stream.consumed ++ p.movedByEnd s.pair .consumer 0 _ = _
      rw [movedByEnd_zero, List.append_nil]
  · have hends := DataPipe.ends_endRead h.pair h.alive hreader consumed
    have hended := h.endRead ht consumed
    rw [← u32TryFrom_some hn]
    rcases hends.answer with ⟨hok, hlen⟩ | ⟨herror, hlen⟩
    · dsimp only
      rw [hok]
      refine ⟨hended, .inl ⟨rfl, hlen, ?_⟩⟩
      show s.stream.consumed ++ p.movedByEnd s.pair .consumer consumed
        (p.endRead .consumer s.pair consumed).2 = _
      rw [hok]
      show s.stream.consumed ++ p.spanBytes s.pair .consumer consumed.toNat = _
      rw [DataPipe.spanBytes, PairState.endpoint, hreader]
    · dsimp only
      rw [herror]
      have halive : (s.core (.endRead consumed)).pair.poisoned = false := hended.alive
      have hidle : (s.core (.endRead consumed)).dropRead =
          (s.core (.endRead consumed)).hold .consumer .owned := by
        rw [dropRead, core_endRead_idle halive hends.ended]
      refine ⟨hidle ▸ hended, .inr ⟨rfl, hlen, ?_⟩⟩
      rw [hidle]
      show s.stream.consumed ++ p.movedByEnd s.pair .consumer consumed
        (p.endRead .consumer s.pair consumed).2 = _
      rw [herror]
      exact List.append_nil _

theorem exists_transaction {h : Holder} (ht : h.isTransaction = true) :
    ∃ span, h = .transaction span := by
  cases h with
  | transaction span => exact ⟨span, rfl⟩
  | owned => cases ht
  | forgotten => cases ht
  | dropped => cases ht

/-- Every call that the borrow checker permits keeps the invariant. -/
theorem Inv.perform (h : s.Inv) {op : SafeOp} (hop : s.permits op = true) :
    (s.perform op).Inv := by
  cases op with
  | write data allOrNone => exact h.write data allOrNone
  | beginWrite => exact h.beginWrite
  | fill pos bytes =>
      apply h.same
      · show (p.fill s.pair pos bytes).poisoned = false
        rw [DataPipe.fill]
        split
        · split_ifs
          · exact h.alive
          · exact h.alive
        · exact h.alive
      · exact DataPipe.sameTwoPhase_fill s.pair pos bytes
  | commit n =>
      obtain ⟨span, ht⟩ := exists_transaction hop
      exact (h.commit ht n).1
  | dropWrite =>
      obtain ⟨span, ht⟩ := exists_transaction hop
      exact h.endWrite ht 0
  | read buffer flags => exact h.read buffer flags
  | beginRead => exact h.beginRead
  | consume n =>
      obtain ⟨span, ht⟩ := exists_transaction hop
      exact (h.consume ht n).1
  | dropRead =>
      obtain ⟨span, ht⟩ := exists_transaction hop
      exact h.endRead ht 0
  | forget e =>
      obtain ⟨span, ht⟩ := exists_transaction hop
      refine ⟨h.pair, h.intact, h.alive, fun e' => ?_⟩
      show Held e' (Function.update s.holder e .forgotten e') _
      by_cases he : e' = e
      · -- the operation goes on without its transaction
        have hheld := h.held e
        rw [ht] at hheld
        rw [he, Function.update_self]
        show (s.pair.endpoint e).twoPhase.isSome = true
        rw [show (s.pair.endpoint e).twoPhase = _ from hheld]
        rfl
      · rw [Function.update_of_ne he]
        exact h.held e'
  | signals e =>
      apply h.same
      · have hflags : (p.querySignals e s.pair).1.flags = s.pair.flags := DataPipe.flags_querySignals
        exact poisoned_of_flags hflags h.alive
      · exact DataPipe.sameTwoPhase_querySignals s.pair e
  | close e =>
      apply h.same
      · have hflags : (p.close e s.pair).poisoned = false ∧ _ := DataPipe.flags_close h.alive e
        exact hflags.1
      · exact DataPipe.sameTwoPhase_close s.pair e
  | drop e =>
      apply h.change
      · have hflags : (p.close e s.pair).poisoned = false ∧ _ := DataPipe.flags_close h.alive e
        exact hflags.1
      · trivial
      · exact DataPipe.sameTwoPhase_close s.pair e e.peer

theorem Inv.step (h : s.Inv) (op : SafeOp) : (s.step op).Inv := by
  rw [SafePipe.step]
  split_ifs with hop
  · exact h.perform hop
  · exact h

/-! ### What the clients see -/

/-- A call that returns, not for a poisoned lock, and is refused as busy only where
`busy`. -/
def Returns {α : Type} (r : Option (SystemResult α)) (busy : Prop) : Prop :=
  ∃ a, r = some a ∧ a ≠ .error .internal ∧ (a = .error .busy → busy)

theorem ofCore_internal {e : CoreError} (h : SystemError.ofCore e = .internal) : e = .internal := by
  cases e <;> first | rfl | cases h

theorem ofCore_busy {e : CoreError} (h : SystemError.ofCore e = .busy) : e = .busy := by
  cases e <;> first | rfl | cases h

theorem Returns.ok {α : Type} (a : α) (busy : Prop) : Returns (some (.ok a)) busy :=
  ⟨_, rfl, by simp, by simp⟩

theorem Returns.refuse {α : Type} {e : SystemError} (busy : Prop) (h : e ≠ .internal)
    (h' : e ≠ .busy) : Returns (some (.error e : SystemResult α)) busy :=
  ⟨_, rfl, fun heq => h (Except.error.inj heq), fun heq => absurd (Except.error.inj heq) h'⟩

theorem returns_ofCall {α : Type} {r : Call α} {busy : Prop} (h : DataPipe.Answers r busy) :
    Returns (ofCall r) busy := by
  obtain ⟨a, rfl, hinternal, hbusy⟩ := h
  refine ⟨a.mapError .ofCore, rfl, ?_, ?_⟩
  · intro ha
    cases a with
    | ok a => cases ha
    | error e => exact hinternal (congrArg _ (ofCore_internal (Except.error.inj ha)))
  · intro ha
    cases a with
    | ok a => cases ha
    | error e => exact hbusy (congrArg _ (ofCore_busy (Except.error.inj ha)))

theorem Returns.map {α β : Type} {r : Option (SystemResult α)} {busy : Prop} (h : Returns r busy)
    (f : α → β) : Returns (r.map (·.map f)) busy := by
  obtain ⟨a, rfl, hinternal, hbusy⟩ := h
  cases a with
  | ok a => exact .ok (f a) _
  | error e =>
      refine ⟨_, rfl, fun he => hinternal ?_, fun he => hbusy ?_⟩
      · exact congrArg _ (Except.error.inj he)
      · exact congrArg _ (Except.error.inj he)

theorem Returns.mono {α : Type} {r : Option (SystemResult α)} {busy busy' : Prop}
    (h : Returns r busy) (hb : busy → busy') : Returns r busy' := by
  obtain ⟨a, ha, hinternal, hbusy⟩ := h
  exact ⟨a, ha, hinternal, hb ∘ hbusy⟩

/-- What the clients of a pair may rely on. -/
structure Safe (s : SafePipe p) : Prop where
  /-- No byte is lost, duplicated or reordered. -/
  intact : s.stream.Intact
  writes : (s.holder .producer).usable = true → ∀ data allOrNone,
    Returns (s.write data allOrNone).2 (s.holder .producer = .forgotten)
  reads : (s.holder .consumer).usable = true → ∀ buffer flags,
    Returns (s.read buffer flags).2 (s.holder .consumer = .forgotten)
  beginWrites : (s.holder .producer).usable = true →
    Returns s.beginWrite.2 (s.holder .producer = .forgotten)
  beginReads : (s.holder .consumer).usable = true →
    Returns s.beginRead.2 (s.holder .consumer = .forgotten)
  /-- A commit succeeds for whole elements of the span; what is accepted is what
  the span holds then, or nothing. -/
  commits : ∀ span, s.holder .producer = .transaction span → ∀ n,
    ((s.commit n).2 = some (.ok ()) ∧ (p.elementSize.toNat ∣ n ∧ n ≤ span.len) ∧
        (s.commit n).1.stream.accepted = s.stream.accepted ++ copyOut s.pair.pages span.start n) ∨
      ((s.commit n).2 = some (.error .invalidArgument) ∧
        ¬(p.elementSize.toNat ∣ n ∧ n ≤ span.len) ∧
        (s.commit n).1.stream.accepted = s.stream.accepted)
  consumes : ∀ span, s.holder .consumer = .transaction span → ∀ n,
    ((s.consume n).2 = some (.ok ()) ∧ (p.elementSize.toNat ∣ n ∧ n ≤ span.len) ∧
        (s.consume n).1.stream.consumed = s.stream.consumed ++ copyOut s.pair.pages span.start n) ∨
      ((s.consume n).2 = some (.error .invalidArgument) ∧
        ¬(p.elementSize.toNat ∣ n ∧ n ≤ span.len) ∧
        (s.consume n).1.stream.consumed = s.stream.consumed)
  /-- A read transaction shows the front of the stream. -/
  shows : ∀ span, s.holder .consumer = .transaction span →
    s.bytes span = s.pair.unread.take span.len
  /-- What goes through a write transaction is not seen before it is committed. -/
  hidden : ∀ span, s.holder .producer = .transaction span → ∀ pos bytes,
    (p.fill s.pair pos bytes).unread = s.pair.unread

/-- Only behind a forgotten transaction is there an operation that nobody holds. -/
theorem Inv.forgotten (h : s.Inv) {e : DataPipeEnd} (husable : (s.holder e).usable = true)
    (htwo : (s.pair.endpoint e).twoPhase.isSome = true) : s.holder e = .forgotten := by
  have hheld := h.held e
  rcases hholder : s.holder e with - | span | - | -
  · rw [hholder] at hheld
    rw [show (s.pair.endpoint e).twoPhase = none from hheld] at htwo
    cases htwo
  · rw [hholder] at husable
    cases husable
  · rfl
  · rw [hholder] at husable
    cases husable

theorem Inv.safe (h : s.Inv) : s.Safe where
  intact := h.intact
  writes husable data allOrNone := by
    rw [SafePipe.write]
    rcases hn : u32TryFrom data.length with - | numBytes
    · exact .refuse _ (by simp) (by simp)
    · have hlen : numBytes.toNat ≤ data.length := Nat.le_of_eq (u32TryFrom_some hn)
      have hanswers := returns_ofCall (DataPipe.write_answers h.alive hlen allOrNone)
      exact (hanswers.map _).mono (h.forgotten (e := .producer) husable)
  reads husable buffer flags := by
    rw [SafePipe.read]
    rcases hn : u32TryFrom buffer.length with - | numBytes
    · exact .refuse _ (by simp) (by simp)
    · have hlong : flags.query = false → DataPipe.outTooShort
          (if flags.query || flags.discard then none else some buffer) numBytes flags = false := by
        intro hquery
        rw [DataPipe.outTooShort, hquery, Bool.false_or]
        cases flags.discard with
        | true => rfl
        | false =>
            -- the buffer is as long as the read says
            rw [u32TryFrom_some hn]
            exact decide_eq_false (Nat.lt_irrefl _)
      have hanswers := returns_ofCall (DataPipe.read_answers h.alive hlong)
      exact hanswers.mono (h.forgotten (e := .consumer) husable)
  beginWrites husable := by
    have hanswers := (DataPipe.begins_beginWrite h.alive).toAnswers
    rw [SafePipe.beginWrite]
    split
    · exact .ok _ _
    · exact (returns_ofCall hanswers).mono (h.forgotten husable)
  beginReads husable := by
    have hanswers := (DataPipe.begins_beginRead h.alive).toAnswers
    rw [SafePipe.beginRead]
    split
    · exact .ok _ _
    · exact (returns_ofCall hanswers).mono (h.forgotten husable)
  commits _ ht n := (h.commit ht n).2
  consumes _ ht n := (h.consume ht n).2
  shows span ht := by
    obtain ⟨hstart, hfits, hdata⟩ := h.pair.reader _ (h.reader ht)
    have hstart' : span.start = s.pair.consumer.offset := hstart
    have hdata' : span.len ≤ s.pair.consumer.size := hdata
    rw [bytes, copyOut_eq_window hfits, hstart', PairState.unread]
    obtain ⟨rest, hrest⟩ : ∃ rest, s.pair.consumer.size +
        PairState.pending s.pair.consumerEnd.control = span.len + rest :=
      Nat.exists_eq_add_of_le (Nat.le_trans hdata' (Nat.le_add_right _ _))
    rw [hrest, window_add, List.take_left' (length_window _ _)]
  hidden _ _ pos bytes := by
    have hmoves := (p.moves_fill h.pair pos bytes).bytes
    rw [List.append_nil, List.nil_append] at hmoves
    exact hmoves.symm

/-- In every run of its clients a pair is safe: what they call returns, busy only
behind a forgotten transaction, transactions are all or nothing, and the stream
is intact. -/
theorem transactions_safe (p : DataPipe) (ops : List SafeOp) :
    Always step Safe (init p) ops := by
  have hinv : Always step Inv (init p) ops := always_of_step (fun _ op h => h.step op) (.init p) ops
  exact hinv.imp fun _ h => h.safe

end SafePipe

end MojoRs.System
