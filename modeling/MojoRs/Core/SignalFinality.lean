/-
MojoRs/Core/SignalFinality.lean

Whether what is reported as unsatisfiable stays so.  A signal set is
unsatisfiable when the satisfiable signals of an endpoint do not contain it, so
the question is whether these can grow.

For a message pipe they cannot: an endpoint loses `WRITABLE` and `PEER_REMOTE`
with its peer, and `READABLE` with the last message after that, and a closed
peer writes no more.  For a data pipe they can, because a producer may send
byte counts after its own close (`late_write_revives`); where it sends none to a
consumer without news, they cannot.

Main result: `unsatisfiable_final`.
-/
import MojoRs.Core.DataPipe
import MojoRs.Core.MessageDelivery

namespace MojoRs.Core

open Lib

/-! ### Reports -/

/-- In every run, what an endpoint reports as unsatisfiable while it is open,
it reports as unsatisfiable from then on. -/
def Final {σ α ε : Type} (step : σ → α → σ) (isOpen : σ → ε → Prop) (report : σ → ε → SignalsState)
    (s : σ) (ops : List α) : Prop :=
  ∀ earlier later, ops = earlier ++ later → ∀ e w, isOpen (exec step s earlier) e →
    (report (exec step s earlier) e).isUnsatisfiable w = true →
      (report (exec step s ops) e).isUnsatisfiable w = true

namespace SignalsState

/-- The satisfiable signals of the first state cover those of the second, which
cover what is satisfied there. -/
structure Covers (s s' : SignalsState) : Prop where
  satisfiable : s.satisfiable.contains s'.satisfiable = true
  satisfied : s.satisfiable.contains s'.satisfied = true

theorem Covers.isUnsatisfiable {s s' : SignalsState} (h : s.Covers s') {w : Signals}
    (hw : s.isUnsatisfiable w = true) : s'.isUnsatisfiable w = true := by
  simp only [SignalsState.isUnsatisfiable, Bool.and_eq_true, Bool.not_eq_true'] at hw ⊢
  constructor
  · by_contra hs
    rw [Bool.not_eq_false] at hs
    exact absurd hw.2 (by rw [Signals.contains_trans h.satisfied hs]; decide)
  · by_contra hs
    rw [Bool.not_eq_false] at hs
    exact absurd hw.2 (by rw [Signals.contains_trans h.satisfiable hs]; decide)

end SignalsState

/-- Reports that only shrink are final. -/
theorem final_of_covers {σ α ε : Type} {step : σ → α → σ} {isOpen : σ → ε → Prop}
    {report : σ → ε → SignalsState} {P : σ → Prop} {C : σ → α → Prop} {R : σ → σ → Prop}
    (hrefl : ∀ s, R s s) (htrans : ∀ s s' s'', R s s' → R s' s'' → R s s'')
    (hstep : ∀ s a, P s → C s a → P (step s a) ∧ R s (step s a))
    (hcovers : ∀ s s' e, P s → P s' → R s s' → (report s e).Covers (report s' e))
    {s : σ} {ops : List α} (h₀ : P s) (h : Meets step C s ops) :
    Final step isOpen report s ops := by
  rintro earlier later rfl e w - hw
  obtain ⟨hearlier, hlater⟩ := meets_append.mp h
  have hP := (related_of_meets hrefl htrans hstep h₀ hearlier).1
  obtain ⟨hP', hR⟩ := related_of_meets hrefl htrans hstep hP hlater
  rw [exec_append]
  exact (hcovers _ _ e hP hP' hR).isUnsatisfiable hw

/-! ### Message pipes -/

namespace Pipe

variable {η κ : Type}

/-- The signals of an endpoint by its flags and whether its queue is empty. -/
def signalsBy (localClosed peerClosed isEmpty : Bool) : SignalsState :=
  EndpointState.signalsOf (⟨localClosed, peerClosed, if isEmpty then [] else [⟨[], []⟩], 0, []⟩ :
    EndpointState Unit Unit)

theorem signalsOf_eq (ep : EndpointState η κ) :
    ep.signalsOf = signalsBy ep.localClosed ep.peerClosed ep.queue.isEmpty := by
  unfold signalsBy EndpointState.signalsOf
  cases ep.queue <;> rfl

/-- An end whose peer was closed knows it. -/
def PeersKnow (s : PipeState η κ) : Prop :=
  ∀ e, (s.endpoints e).peerClosed = (s.endpoints e.peer).localClosed

/-- How an end went on: flags stay set, and after the peer closed an empty
queue stays empty. -/
structure Later (s s' : PipeState η κ) : Prop where
  localClosed : ∀ e, (s.endpoints e).localClosed = true → (s'.endpoints e).localClosed = true
  peerClosed : ∀ e, (s.endpoints e).peerClosed = true → (s'.endpoints e).peerClosed = true
  queue : ∀ e, (s.endpoints e).peerClosed = true → (s.endpoints e).queue = [] →
    (s'.endpoints e).queue = []

theorem Later.refl (s : PipeState η κ) : Later s s :=
  ⟨fun _ h => h, fun _ h => h, fun _ _ h => h⟩

theorem Later.trans {s s' s'' : PipeState η κ} (h : Later s s') (h' : Later s' s'') :
    Later s s'' :=
  ⟨fun e hc => h'.localClosed e (h.localClosed e hc),
    fun e hc => h'.peerClosed e (h.peerClosed e hc),
    fun e hc hq => h'.queue e (h.peerClosed e hc) (h.queue e hc hq)⟩

/-- A change at one end. -/
theorem Later.setEndpoint {s : PipeState η κ} {e : End} {ep : EndpointState η κ}
    (hlocal : (s.endpoints e).localClosed = true → ep.localClosed = true)
    (hpeer : (s.endpoints e).peerClosed = true → ep.peerClosed = true)
    (hqueue : (s.endpoints e).peerClosed = true → (s.endpoints e).queue = [] → ep.queue = []) :
    Later s (s.setEndpoint e ep) := by
  refine ⟨fun e' => ?_, fun e' => ?_, fun e' => ?_⟩
  all_goals
    by_cases he : e' = e
  · subst he
    rwa [PipeState.endpoints_setEndpoint]
  · rw [PipeState.endpoints_setEndpoint_ne _ _ he]
    exact id
  · subst he
    rwa [PipeState.endpoints_setEndpoint]
  · rw [PipeState.endpoints_setEndpoint_ne _ _ he]
    exact id
  · subst he
    rwa [PipeState.endpoints_setEndpoint]
  · rw [PipeState.endpoints_setEndpoint_ne _ _ he]
    exact fun _ => id

theorem PeersKnow.setEndpoint {s : PipeState η κ} (h : PeersKnow s) {e : End}
    {ep : EndpointState η κ} (hlocal : ep.localClosed = (s.endpoints e).localClosed)
    (hpeer : ep.peerClosed = (s.endpoints e).peerClosed) : PeersKnow (s.setEndpoint e ep) := by
  intro e'
  have hflags (x : End) : ((s.setEndpoint e ep).endpoints x).localClosed =
        (s.endpoints x).localClosed ∧
      ((s.setEndpoint e ep).endpoints x).peerClosed = (s.endpoints x).peerClosed := by
    by_cases hx : x = e
    · subst hx
      rw [PipeState.endpoints_setEndpoint]
      exact ⟨hlocal, hpeer⟩
    · rw [PipeState.endpoints_setEndpoint_ne _ _ hx]
      exact ⟨rfl, rfl⟩
  rw [(hflags e').2, (hflags e'.peer).1]
  exact h e'

/-- An operation keeps the flags in step, and what is over stays over. -/
theorem apply_later {s : PipeState η κ} (h : PeersKnow s) (op : PipeOp η κ) :
    PeersKnow (s.apply op) ∧ Later s (s.apply op) := by
  cases op with
  | write e message =>
      rcases write_cases s e message with ⟨err, hw⟩ | ⟨hopen, -, hw⟩
      · simp only [PipeState.apply, hw]
        exact ⟨h, .refl s⟩
      · simp only [PipeState.apply, hw]
        refine ⟨h.setEndpoint rfl rfl, .setEndpoint id id fun hclosed => ?_⟩
        -- the peer of the writer would know that the writer is closed
        rw [h, End.peer_peer, hopen] at hclosed
        cases hclosed
  | read e maxNumBytes mayDiscard =>
      rcases read_cases s e maxNumBytes mayDiscard with
        ⟨hr, -⟩ | ⟨hr, -⟩ | ⟨message, queue, hqueue, hr | hr⟩
      · simp only [PipeState.apply, hr]
        exact ⟨h, .refl s⟩
      · simp only [PipeState.apply, hr]
        exact ⟨h, .refl s⟩
      · simp only [PipeState.apply, hr]
        exact ⟨h.setEndpoint rfl rfl, .setEndpoint id id fun _ => id⟩
      · simp only [PipeState.apply, hr]
        refine ⟨h.setEndpoint rfl rfl, .setEndpoint id id fun _ hempty => ?_⟩
        rw [hqueue] at hempty
        cases hempty
  | close e =>
      have hep := endpoints_close s e
      by_cases hclosed : (s.endpoints e).localClosed = true
      · have hsame : s.apply (.close e) = s := congrArg Prod.fst (if_pos hclosed)
        rw [hsame]
        exact ⟨h, .refl s⟩
      · simp only [if_neg hclosed] at hep
        refine ⟨fun e' => ?_, fun e' => ?_, fun e' => ?_, fun e' => ?_⟩
        all_goals
          simp only [PipeState.apply, hep]
          by_cases he : e' = e
        · subst he
          rw [if_pos rfl, if_neg (End.peer_ne e')]
          exact h e'
        · have hpeer : e'.peer = e := by
            revert he
            cases e <;> cases e' <;> simp [End.peer]
          rw [if_neg he, if_pos hpeer]
          rfl
        · subst he
          exact fun hlocal => absurd hlocal hclosed
        · rw [if_neg he]
          exact id
        · subst he
          rw [if_pos rfl]
          exact id
        · rw [if_neg he]
          exact fun _ => rfl
        · subst he
          rw [if_pos rfl]
          exact fun _ => id
        · rw [if_neg he]
          exact fun _ => id
  | registerWatch e id signals callback =>
      simp only [PipeState.apply, PipeState.registerWatch]
      split_ifs
      · exact ⟨h, .refl s⟩
      · exact ⟨h.setEndpoint rfl rfl, .setEndpoint (fun h => h) (fun h => h) fun _ h => h⟩
  | cancelWatch e id =>
      exact ⟨h.setEndpoint rfl rfl, .setEndpoint (fun h => h) (fun h => h) fun _ h => h⟩

theorem covers_of_later {s s' : PipeState η κ} (h : Later s s') (e : End) :
    (s.querySignals e).Covers (s'.querySignals e) := by
  have hlocal := h.localClosed e
  have hpeer := h.peerClosed e
  have hqueue : (s.endpoints e).peerClosed = true → (s.endpoints e).queue.isEmpty = true →
      (s'.endpoints e).queue.isEmpty = true := by
    simpa only [List.isEmpty_iff] using h.queue e
  simp only [PipeState.querySignals, signalsOf_eq]
  revert hlocal hpeer hqueue
  generalize (s.endpoints e).localClosed = a, (s'.endpoints e).localClosed = a',
    (s.endpoints e).peerClosed = b, (s'.endpoints e).peerClosed = b',
    (s.endpoints e).queue.isEmpty = c, (s'.endpoints e).queue.isEmpty = c'
  intro hlocal hpeer hqueue
  constructor
  · revert a a' b b' c c'
    decide
  · revert a a' b b' c c'
    decide

end Pipe

/-! ### Data pipes -/

/-- The public operations, at either end. -/
inductive DataPipeOp
  | write (self : DataPipeEnd) (elements : List UInt8) (numBytes : UInt32) (allOrNone : Bool)
  | beginWrite (self : DataPipeEnd)
  | endWrite (self : DataPipeEnd) (produced : UInt32)
  | read (self : DataPipeEnd) (elements : Option (List UInt8)) (numBytes : UInt32)
      (flags : ReadFlags)
  | beginRead (self : DataPipeEnd)
  | endRead (self : DataPipeEnd) (consumed : UInt32)
  | querySignals (self : DataPipeEnd)
  | close (self : DataPipeEnd)
  deriving DecidableEq, Repr

/-- The pair after an operation. -/
def DataPipe.apply (p : DataPipe) (s : PairState p.cap) : DataPipeOp → PairState p.cap
  | .write self elements numBytes allOrNone => (p.write self s elements numBytes allOrNone).1
  | .beginWrite self => (p.beginWrite self s).1
  | .endWrite self produced => (p.endWrite self s produced).1
  | .read self elements numBytes flags => (p.read self s elements numBytes flags).1
  | .beginRead self => (p.beginRead self s).1
  | .endRead self consumed => (p.endRead self s consumed).1
  | .querySignals self => (p.querySignals self s).1
  | .close self => p.close self s

/-- The end that an operation would send a byte count from, and the count it
asks for. -/
def DataPipeOp.request : DataPipeOp → Option (DataPipeEnd × UInt32)
  | .write self _ numBytes _ => some (self, numBytes)
  | .endWrite self produced => some (self, produced)
  | .read self _ numBytes flags => if flags.query || flags.peek then none else some (self, numBytes)
  | .endRead self consumed => some (self, consumed)
  | _ => none

/-- An endpoint has been told of data, or is about to be. -/
def EndpointState.hasNews (ep : EndpointState) : Bool := ep.hasNewData || !ep.control.isEmpty

namespace PairState

variable {cap : Nat} {s s' s'' : PairState cap}

/-- The consumer has data, or will have. -/
def hasData (s : PairState cap) : Bool := s.consumerEnd.hasNews || decide (s.consumer.dataSize > 0)

/-- The signals of an end by what they depend on. -/
def consumerSignals (peerClosed news data : Bool) : SignalsState :=
  let satisfied := if peerClosed then Signals.peerClosed else .none
  let satisfiable :=
    if peerClosed then Signals.peerClosed else Signals.peerClosed ||| Signals.peerRemote
  let (satisfied, satisfiable) :=
    if news then
      (satisfied ||| Signals.newDataReadable, satisfiable ||| Signals.newDataReadable)
    else (satisfied, satisfiable)
  let (satisfied, satisfiable) :=
    if data then (satisfied ||| Signals.readable, satisfiable ||| Signals.readable)
    else (satisfied, satisfiable)
  ⟨satisfied,
    if peerClosed then satisfiable
    else satisfiable ||| Signals.readable ||| Signals.newDataReadable⟩

/-- The signals of a producer, by what is left of its peer and of the room. -/
def producerSignals (peerClosed room : Bool) : SignalsState :=
  let satisfied := if peerClosed then Signals.peerClosed else .none
  let satisfiable :=
    if peerClosed then Signals.peerClosed else Signals.peerClosed ||| Signals.peerRemote
  if peerClosed then ⟨satisfied, satisfiable⟩
  else ⟨if room then satisfied ||| Signals.writable else satisfied, satisfiable ||| Signals.writable⟩

theorem signalsOf_consumer (s : PairState cap) : (s.signalsOf .consumer).2 =
    consumerSignals s.consumerEnd.peerClosed s.consumerEnd.hasNews s.hasData := by
  have hsize : (if s.consumerEnd.hasNews then
      s.modifyEndpoint .consumer fun ep => { ep with hasNewData := true } else s).consumer =
      s.consumer := by
    split_ifs <;> rfl
  unfold hasData
  rw [← hsize]
  rfl

theorem signalsOf_producer (s : PairState cap) : ∃ room, (s.signalsOf .producer).2 =
    producerSignals s.producerEnd.peerClosed room := by
  refine ⟨s.producer.availableCapacity > 0 || !s.producerEnd.control.isEmpty, ?_⟩
  simp only [signalsOf, producerSignals, endpoint]
  cases s.producerEnd.peerClosed <;> rfl

/-! ### What an operation does to the signals -/

/-- No count of zero is ever sent, and a consumer learns of a close of the
producer only. -/
structure Counts (s : PairState cap) : Prop where
  nonzero : ∀ e, ∀ n ∈ (s.endpoint e).control, n ≠ 0
  closed : s.consumerEnd.peerClosed = true → s.producerEnd.localClosed = true

/-- What is over stays over: after the producer closed, no news comes to a
consumer without news and no data to one without data. -/
structure Later (s s' : PairState cap) : Prop where
  poisoned : s.poisoned = true → s'.poisoned = true
  peerClosed : ∀ e, (s.endpoint e).peerClosed = true → (s'.endpoint e).peerClosed = true
  news : s.consumerEnd.peerClosed = true → s'.consumerEnd.hasNews = true →
    s.consumerEnd.hasNews = true
  data : s.consumerEnd.peerClosed = true → s'.hasData = true → s.hasData = true

theorem Later.refl (s : PairState cap) : Later s s :=
  ⟨id, fun _ => id, fun _ => id, fun _ => id⟩

theorem Later.trans (h : Later s s') (h' : Later s' s'') : Later s s'' :=
  ⟨fun hp => h'.poisoned (h.poisoned hp), fun e hc => h'.peerClosed e (h.peerClosed e hc),
    fun hc hn => h.news hc (h'.news (h.peerClosed .consumer hc) hn),
    fun hc hd => h.data hc (h'.data (h.peerClosed .consumer hc) hd)⟩

/-- A step keeps the counts in order, and what is over stays over. -/
def Evolves (s s' : PairState cap) : Prop := Counts s → Counts s' ∧ Later s s'

theorem Evolves.refl (s : PairState cap) : Evolves s s := fun h => ⟨h, .refl s⟩

theorem Evolves.trans (h : Evolves s s') (h' : Evolves s' s'') : Evolves s s'' := fun hc =>
  have ⟨hc', hl⟩ := h hc
  have ⟨hc'', hl'⟩ := h' hc'
  ⟨hc'', hl.trans hl'⟩

/-- A step that leaves both ends as they are, and puts no data into the
consumer's ring. -/
theorem Evolves.ofRings (hp : s'.producerEnd = s.producerEnd) (hc : s'.consumerEnd = s.consumerEnd)
    (hsize : s'.consumer.size ≤ s.consumer.size)
    (hpoison : s.poisoned = true → s'.poisoned = true) : Evolves s s' := by
  have hend (e : DataPipeEnd) : s'.endpoint e = s.endpoint e := by
    cases e
    · exact hp
    · exact hc
  intro h
  refine ⟨⟨fun e => hend e ▸ h.nonzero e, ?_⟩, hpoison, fun e => hend e ▸ id, ?_, ?_⟩
  · rw [hp, hc]
    exact h.closed
  · rw [hc]
    exact fun _ => id
  · intro _
    simp only [hasData, hc, Bool.or_eq_true]
    exact Or.imp_right fun hs => decide_eq_true (Nat.lt_of_lt_of_le (of_decide_eq_true hs) hsize)

/-- A step that changes only the two-phase operation of an end, or clears its
latch. -/
theorem evolves_modify (e : DataPipeEnd) (two : EndpointState → Option TwoPhase)
    (latch : EndpointState → Bool) (hlatch : ∀ ep, latch ep = true → ep.hasNewData = true) :
    Evolves s (s.modifyEndpoint e fun ep =>
      { ep with twoPhase := two ep, hasNewData := latch ep }) := by
  intro h
  have hnews (ep : EndpointState) :
      ({ ep with twoPhase := two ep, hasNewData := latch ep } : EndpointState).hasNews = true →
        ep.hasNews = true := by
    simp only [EndpointState.hasNews, Bool.or_eq_true]
    exact Or.imp_left (hlatch ep)
  cases e with
  | producer =>
      refine ⟨⟨?_, h.closed⟩, id, ?_, fun _ => id, fun _ => id⟩
      · rintro (- | -)
        · exact h.nonzero .producer
        · exact h.nonzero .consumer
      · rintro (- | -) hc
        · exact hc
        · exact hc
  | consumer =>
      refine ⟨⟨?_, h.closed⟩, id, ?_, fun _ => hnews _, fun _ => ?_⟩
      · rintro (- | -)
        · exact h.nonzero .producer
        · exact h.nonzero .consumer
      · rintro (- | -) hc
        · exact hc
        · exact hc
      · simp only [hasData, Bool.or_eq_true]
        exact Or.imp_left (hnews _)

/-- Sending a count: to the producer at any time, to the consumer only while
its peer is open or it has news anyway. -/
theorem evolves_push {count : UInt32} (e : DataPipeEnd)
    (hpush : e = .consumer → count ≠ 0 → s.consumerEnd.peerClosed = true →
      s.consumerEnd.hasNews = true) : Evolves s (s.pushAndCollect e count) := by
  unfold pushAndCollect
  split_ifs with hzero
  · exact .refl s
  have hnonzero {control : List UInt32} (h : ∀ n ∈ control, n ≠ 0) :
      ∀ n ∈ control ++ [count], n ≠ 0 := by
    intro n hn
    rcases List.mem_append.mp hn with hn | hn
    · exact h n hn
    · obtain rfl := List.mem_singleton.mp hn
      exact hzero
  intro h
  cases e with
  | producer =>
      have hsame (s : PairState cap) : s.collectWatchers .producer = s := by
        simp only [collectWatchers, signalsOf]
        split_ifs <;> rfl
      rw [hsame]
      refine ⟨⟨?_, h.closed⟩, id, ?_, fun _ => id, fun _ => id⟩
      · rintro (- | -)
        · exact hnonzero (h.nonzero .producer)
        · exact h.nonzero .consumer
      · rintro (- | -) hc
        · exact hc
        · exact hc
  | consumer =>
      -- the count is news, and collecting the watches latches it
      have hcollect : (s.modifyEndpoint .consumer fun ep =>
            { ep with control := ep.control ++ [count] }).collectWatchers .consumer =
          { s with consumerEnd := { s.consumerEnd with
              control := s.consumerEnd.control ++ [count], hasNewData := true } } := by
        have hnews : (s.consumerEnd.hasNewData ||
            !(s.consumerEnd.control ++ [count]).isEmpty) = true := by simp
        simp only [collectWatchers, signalsOf, endpoint, modifyEndpoint, hnews, if_true]
      rw [hcollect]
      refine ⟨⟨?_, h.closed⟩, id, ?_, fun hc _ => hpush rfl hzero hc, fun hc _ => ?_⟩
      · rintro (- | -)
        · exact h.nonzero .producer
        · exact hnonzero (h.nonzero .consumer)
      · rintro (- | -) hc
        · exact hc
        · exact hc
      · exact Bool.or_eq_true_iff.mpr (.inl (hpush rfl hzero hc))

theorem evolves_latch (e : DataPipeEnd) : Evolves s (s.signalsOf e).1 := by
  cases e with
  | producer =>
      have hsame : (s.signalsOf .producer).1 = s := by
        simp only [signalsOf]
        split_ifs <;> rfl
      rw [hsame]
      exact .refl s
  | consumer =>
      simp only [signalsOf]
      split_ifs with hnews
      · intro h
        refine ⟨⟨?_, h.closed⟩, id, ?_, fun _ _ => hnews, fun _ _ => ?_⟩
        · rintro (- | -)
          · exact h.nonzero .producer
          · exact h.nonzero .consumer
        · rintro (- | -) hc
          · exact hc
          · exact hc
        · exact Bool.or_eq_true_iff.mpr (.inl hnews)
      · exact .refl s

/-! ### Flushing -/

theorem le_drain (control : List UInt32) (changed : Nat) :
    changed ≤ (drain control changed).1 ∧ ∀ n ∈ (drain control changed).2, n ∈ control := by
  induction control generalizing changed with
  | nil => exact ⟨Nat.le_refl _, fun _ => id⟩
  | cons value rest ih =>
      simp only [drain, checkedAdd]
      split_ifs with hlt
      · obtain ⟨hle, hmem⟩ := ih (changed + value.toNat)
        exact ⟨Nat.le_trans (Nat.le_add_right _ _) hle,
          fun n hn => List.mem_cons_of_mem _ (hmem n hn)⟩
      · exact ⟨Nat.le_refl _, fun n hn => List.mem_cons_of_mem _ hn⟩

/-- A queue of counts that are not zero does not add up to zero. -/
theorem drain_ne_zero {control : List UInt32} (hnonzero : ∀ n ∈ control, n ≠ 0)
    (hne : control ≠ []) : (drain control 0).1 ≠ 0 := by
  cases control with
  | nil => exact absurd rfl hne
  | cons value rest =>
      have hvalue : 0 < value.toNat := by
        refine Nat.pos_of_ne_zero fun hz => hnonzero value List.mem_cons_self ?_
        exact UInt32.toNat_inj.mp hz
      have hlt := value.toNat_lt
      simp only [drain, checkedAdd]
      rw [if_pos (Nat.lt_trans (by omega) (by decide : 2 ^ 32 < 2 ^ 64))]
      have := (le_drain rest (0 + value.toNat)).1
      simp only
      omega

/-- A flush of the consumer moves what it was told into its ring, which changes
neither its news nor its data. -/
theorem flush_consumer (h : Counts s) :
    ∃ control consumer latch, s.flushLocked .consumer =
        { s with consumer, consumerEnd := { s.consumerEnd with control, hasNewData := latch } } ∧
      (∀ n ∈ control, n ∈ s.consumerEnd.control) ∧
      (s.flushLocked .consumer).consumerEnd.hasNews = s.consumerEnd.hasNews ∧
      (s.flushLocked .consumer).hasData = s.hasData := by
  by_cases hempty : s.consumerEnd.control = []
  · have hsame : s.flushLocked .consumer = s := by
      simp only [flushLocked, endpoint, hempty, drain, modifyEndpoint, if_true]
      rw [← hempty]
    rw [hsame]
    exact ⟨_, _, _, rfl, fun _ => id, rfl, rfl⟩
  · have hne := drain_ne_zero (h.nonzero .consumer) hempty
    have hflush : s.flushLocked .consumer =
        { s with
          consumer := (s.consumer.extendDataRange (drain s.consumerEnd.control 0).1).getD s.consumer
          consumerEnd := { s.consumerEnd with
            control := (drain s.consumerEnd.control 0).2, hasNewData := true } } := by
      simp only [flushLocked, endpoint, modifyEndpoint]
      rw [if_neg hne]
    have hnews : s.consumerEnd.hasNews = true := by
      simp [EndpointState.hasNews, hempty]
    rw [hflush]
    refine ⟨_, _, _, rfl, (le_drain _ _).2, ?_, ?_⟩
    · rw [hnews]
      rfl
    · rw [hasData, hasData, hnews]
      rfl

theorem evolves_flush (e : DataPipeEnd) : Evolves s (s.flushLocked e) := by
  intro h
  cases e with
  | producer =>
      have hflush : ∃ control producer, s.flushLocked .producer =
          { s with producer, producerEnd := { s.producerEnd with control } } ∧
            ∀ n ∈ control, n ∈ s.producerEnd.control := by
        simp only [flushLocked, endpoint, modifyEndpoint]
        split_ifs
        · exact ⟨_, _, rfl, (le_drain _ _).2⟩
        · exact ⟨_, _, rfl, (le_drain _ _).2⟩
      obtain ⟨control, producer, hflush, hmem⟩ := hflush
      rw [hflush]
      refine ⟨⟨?_, h.closed⟩, id, ?_, fun _ => id, fun _ => id⟩
      · rintro (- | -) n hn
        · exact h.nonzero .producer n (hmem n hn)
        · exact h.nonzero .consumer n hn
      · rintro (- | -) hc
        · exact hc
        · exact hc
  | consumer =>
      obtain ⟨control, consumer, latch, hflush, hmem, hnews, hdata⟩ := flush_consumer h
      refine ⟨⟨?_, ?_⟩, ?_, ?_, fun _ => ?_, fun _ => ?_⟩
      · rw [hflush]
        rintro (- | -) n hn
        · exact h.nonzero .producer n hn
        · exact h.nonzero .consumer n (hmem n hn)
      · rw [hflush]
        exact h.closed
      · rw [hflush]
        exact id
      · rw [hflush]
        rintro (- | -) hc
        · exact hc
        · exact hc
      · rw [hnews]
        exact id
      · rw [hdata]
        exact id

/-! ### Operations -/

/-- An end may send `count`: the producer not after its close, unless the
consumer has news already. -/
def Allowed (s : PairState cap) (self : DataPipeEnd) (count : UInt32) : Prop :=
  self = .producer → count ≠ 0 → s.consumerEnd.peerClosed = true → s.consumerEnd.hasNews = true

theorem Allowed.le {self : DataPipeEnd} {count count' : UInt32} (h : Allowed s self count)
    (hle : count = 0 → count' = 0) : Allowed s self count' :=
  fun hself hcount => h hself fun hz => hcount (hle hz)

/-- What the producer does to its own end is no matter. -/
theorem Allowed.congr {self : DataPipeEnd} {count : UInt32} (h : Allowed s self count)
    (hsame : self = .producer → s'.consumerEnd = s.consumerEnd) : Allowed s' self count := by
  intro hself
  rw [hsame hself]
  exact h hself

theorem Allowed.push {self : DataPipeEnd} {count : UInt32} (h : Allowed s self count) :
    Evolves s (s.pushAndCollect self.peer count) := by
  refine evolves_push _ fun hpeer hcount hclosed => h ?_ hcount hclosed
  cases self
  · rfl
  · cases hpeer

/-- Sending a count, at most the one asked for, after work on the rings. -/
theorem Allowed.sends {self : DataPipeEnd} {count count' : UInt32} (h : Allowed s self count)
    (hp : s'.producerEnd = s.producerEnd) (hc : s'.consumerEnd = s.consumerEnd)
    (hsize : s'.consumer.size ≤ s.consumer.size) (hpoison : s'.poisoned = s.poisoned)
    (hle : count = 0 → count' = 0) : Evolves s (s'.pushAndCollect self.peer count') := by
  have hrings : Evolves s s' := .ofRings hp hc hsize fun hs => hpoison.trans hs
  exact hrings.trans ((h.congr fun _ => hc).le hle).push

theorem Allowed.flush {self : DataPipeEnd} {count : UInt32} (h : Allowed s self count) :
    Allowed (s.flushLocked self) self count := by
  refine h.congr ?_
  rintro rfl
  simp only [flushLocked, modifyEndpoint]
  split_ifs <;> rfl

theorem Allowed.modify {self : DataPipeEnd} {count : UInt32} (h : Allowed s self count)
    (f : EndpointState → EndpointState) : Allowed (s.modifyEndpoint self f) self count := by
  refine h.congr ?_
  rintro rfl
  rfl

theorem evolves_poison : Evolves s s.poison :=
  .ofRings rfl rfl (Nat.le_refl _) fun _ => rfl

theorem size_discardAll_le {r r' : RingBuffer cap} {n : Nat} (h : r.discardAll n = some r') :
    r'.size ≤ r.size := by
  rw [(RingBuffer.discardAll_eq_some h).2.2]
  exact Nat.sub_le _ _

theorem size_getD_discardAll_le (r : RingBuffer cap) (n : Nat) :
    ((r.discardAll n).getD r).size ≤ r.size := by
  cases h : r.discardAll n with
  | none => exact Nat.le_refl _
  | some r' => exact size_discardAll_le h

end PairState

namespace DataPipe

open PairState

variable {p : DataPipe} {s : PairState p.cap} {self : DataPipeEnd}

theorem evolves_write {numBytes : UInt32} (elements : List UInt8) (allOrNone : Bool)
    (hallow : Allowed s self numBytes) :
    Evolves s (p.write self s elements numBytes allOrNone).1 := by
  have hflush := evolves_flush (s := s) self
  have hallow' := hallow.flush
  apply write_rule (motive := fun out => Evolves s out.1)
  · exact fun _ => .refl s
  · exact fun _ => hflush
  · exact fun _ => hflush.trans evolves_poison
  · intro _ producer pages _
    exact hflush.trans (hallow'.sends rfl rfl (Nat.le_refl _) rfl id)
  · intro _ producer pages _
    exact hflush.trans (.ofRings rfl rfl (Nat.le_refl _) id)
  · intro _ n producer pages hw
    have hlen : n ≤ numBytes.toNat := by
      have hn : ((s.flushLocked self).producer.freeChunks (elements.take numBytes.toNat).length).1 +
          ((s.flushLocked self).producer.freeChunks (elements.take numBytes.toNat).length).2 = n :=
        congrArg Prod.fst hw
      rw [← hn, RingBuffer.freeChunks_add, List.length_take]
      exact Nat.le_trans (Nat.min_le_left _ _) (Nat.min_le_left _ _)
    refine hflush.trans (hallow'.sends rfl rfl (Nat.le_refl _) rfl fun hz => ?_)
    rw [hz] at hlen
    rw [Nat.le_zero.mp hlen]
    rfl

theorem evolves_beginWrite : Evolves s (p.beginWrite self s).1 := by
  unfold DataPipe.beginWrite
  dsimp only
  split
  · exact .refl s
  refine (evolves_flush self).trans ?_
  generalize s.flushLocked self = s₁
  split
  · exact .refl _
  split
  · exact .refl _
  split
  · exact .refl _
  · exact evolves_modify self (fun _ => some _) (·.hasNewData) fun _ => id

theorem evolves_endWrite {produced : UInt32} (hallow : Allowed s self produced) :
    Evolves s (p.endWrite self s produced).1 := by
  unfold DataPipe.endWrite
  split
  · exact .refl s
  cases htwo : (s.endpoint self).twoPhase with
  | none => exact .refl s
  | some two =>
      dsimp only
      have hallow' := hallow.modify fun ep => { ep with twoPhase := none }
      have hmodify : Evolves s (s.modifyEndpoint self fun ep => { ep with twoPhase := none }) :=
        evolves_modify self (fun _ => none) (·.hasNewData) fun _ => id
      refine hmodify.trans ?_
      generalize s.modifyEndpoint self (fun ep => { ep with twoPhase := none }) = s₁ at hallow' ⊢
      split
      · exact .refl _
      split
      · exact .refl _
      · cases two with
        | reader r => exact .refl _
        | writer w =>
            dsimp only
            cases w.commit produced.toNat s₁.producer with
            | none => exact .refl _
            | some producer =>
                show Evolves s₁ (({ s₁ with producer } : PairState p.cap).pushAndCollect _ _)
                exact hallow'.sends rfl rfl (Nat.le_refl _) rfl id

theorem evolves_readAllOrNone {numBytes : UInt32} {flags : ReadFlags}
    (hallow : flags.peek = false → Allowed s self numBytes) :
    Evolves s (p.readAllOrNone self s numBytes flags).1 := by
  unfold DataPipe.readAllOrNone
  dsimp only
  split
  · exact .refl s
  · rename_i data consumer hresult
    cases hpeek : flags.peek with
    | true => exact .refl s
    | false =>
        show Evolves s (({ s with consumer } : PairState p.cap).pushAndCollect self.peer numBytes)
        have hsize : consumer.size ≤ s.consumer.size := by
          rw [hpeek] at hresult
          cases hdiscard : flags.discard with
          | true =>
              rw [hdiscard] at hresult
              obtain ⟨c, hc, heq⟩ := Option.map_eq_some_iff.mp hresult
              cases heq
              exact size_discardAll_le hc
          | false =>
              rw [hdiscard] at hresult
              simp only [RingBuffer.readAll, Bool.false_eq_true, if_false] at hresult
              split_ifs at hresult
              cases hresult
              exact size_getD_discardAll_le _ _
        exact (hallow hpeek).sends rfl rfl hsize rfl id

theorem evolves_readPartial {numBytes : UInt32} {flags : ReadFlags}
    (hflags : (flags.peek && flags.discard) = false)
    (hallow : flags.peek = false → Allowed s self numBytes) :
    Evolves s (p.readPartial self s numBytes flags).1 := by
  unfold DataPipe.readPartial
  cases hpeek : flags.peek with
  | true =>
      rw [hpeek, Bool.true_and] at hflags
      rw [hflags]
      exact .refl s
  | false =>
      have hallow' := hallow hpeek
      cases flags.discard with
      | true =>
          refine hallow'.sends rfl rfl (size_getD_discardAll_le _ _) rfl fun hz => ?_
          show (if numBytes ≤ _ then numBytes else _) = 0
          rw [hz, if_pos (UInt32.le_iff_toNat_le.mpr (Nat.zero_le _))]
      | false =>
          refine hallow'.sends rfl rfl (size_getD_discardAll_le _ _) rfl fun hz => ?_
          have hlen : (s.consumer.peek s.pages numBytes.toNat).length = 0 := by
            rw [RingBuffer.length_peek, hz]
            exact Nat.min_eq_left (Nat.zero_le _)
          show UInt32.ofNat (s.consumer.peek s.pages numBytes.toNat).length = 0
          rw [hlen]
          rfl

theorem evolves_read {numBytes : UInt32} {flags : ReadFlags} (elements : Option (List UInt8))
    (hallow : (flags.query || flags.peek) = false → Allowed s self numBytes) :
    Evolves s (p.read self s elements numBytes flags).1 := by
  have hflush := evolves_flush (s := s) self
  have hforget : Evolves (s.flushLocked self) (forgotten s self) :=
    evolves_modify self (·.twoPhase) (fun _ => false) nofun
  have hforgotten := hflush.trans hforget
  have hallow' : ReadStarts p self s elements numBytes flags → flags.peek = false →
      Allowed (forgotten s self) self numBytes := by
    intro hstarts hpeek
    refine (hallow ?_).flush.modify _
    rw [hpeek, hstarts.noQuery]
    rfl
  apply read_rule (motive := fun out => Evolves s out.1)
  · exact fun _ => .refl s
  · exact fun _ => hflush
  · exact fun _ => hflush
  · exact fun _ _ => hforgotten
  · exact fun _ _ => hforgotten.trans evolves_poison
  · exact fun hstarts => hforgotten.trans (evolves_readAllOrNone (hallow' hstarts))
  · exact fun hstarts =>
      hforgotten.trans (evolves_readPartial hstarts.notBoth (hallow' hstarts))

theorem evolves_beginRead : Evolves s (p.beginRead self s).1 := by
  unfold DataPipe.beginRead
  dsimp only
  split
  · exact .refl s
  refine (evolves_flush self).trans ?_
  generalize s.flushLocked self = s₁
  split
  · exact .refl _
  split
  · exact .refl _
  · exact evolves_modify self (fun _ => some _) (fun _ => false) nofun

theorem evolves_endRead {consumed : UInt32} (hallow : Allowed s self consumed) :
    Evolves s (p.endRead self s consumed).1 := by
  unfold DataPipe.endRead
  split
  · exact .refl s
  cases htwo : (s.endpoint self).twoPhase with
  | none => exact .refl s
  | some two =>
      dsimp only
      have hallow' := hallow.modify fun ep => { ep with twoPhase := none }
      have hmodify : Evolves s (s.modifyEndpoint self fun ep => { ep with twoPhase := none }) :=
        evolves_modify self (fun _ => none) (·.hasNewData) fun _ => id
      refine hmodify.trans ?_
      generalize s.modifyEndpoint self (fun ep => { ep with twoPhase := none }) = s₁ at hallow' ⊢
      split
      · exact .refl _
      split
      · exact .refl _
      · cases two with
        | writer w => exact .refl _
        | reader r =>
            dsimp only
            cases hconsume : r.consume consumed.toNat s₁.consumer with
            | none => exact .refl _
            | some consumer =>
                show Evolves s₁ (({ s₁ with consumer } : PairState p.cap).pushAndCollect _ _)
                have hsize : consumer.size ≤ s₁.consumer.size := by
                  unfold DirectReader.consume at hconsume
                  split_ifs at hconsume
                  exact size_discardAll_le hconsume
                exact hallow'.sends rfl rfl hsize rfl id

/-- A close tells the peer, and cancels the watches here. -/
theorem evolves_close : Evolves s (p.close self s) := by
  unfold DataPipe.close
  split
  · exact .refl s
  split
  · exact .refl s
  refine Evolves.trans ?_ (evolves_latch _)
  intro h
  cases self with
  | producer =>
      refine ⟨⟨?_, fun _ => rfl⟩, id, ?_, fun _ => id, fun _ => id⟩
      · rintro (- | -)
        · exact h.nonzero .producer
        · exact h.nonzero .consumer
      · rintro (- | -) hc
        · exact hc
        · rfl
  | consumer =>
      refine ⟨⟨?_, h.closed⟩, id, ?_, fun _ => id, fun _ => id⟩
      · rintro (- | -)
        · exact h.nonzero .producer
        · exact h.nonzero .consumer
      · rintro (- | -) hc
        · rfl
        · exact hc

/-- No count is asked to be sent from a closed producer to a consumer without
news. -/
def NoLateNews (p : DataPipe) (s : PairState p.cap) (op : DataPipeOp) : Prop :=
  ∀ r ∈ op.request, r.1 = .producer → r.2 ≠ 0 →
    s.producerEnd.localClosed = true → s.consumerEnd.hasNews = true

instance (s : PairState p.cap) (op : DataPipeOp) : Decidable (p.NoLateNews s op) :=
  inferInstanceAs (Decidable (∀ r ∈ op.request, _))

theorem apply_evolves (h : Counts s) (op : DataPipeOp) (hop : p.NoLateNews s op) :
    Counts (p.apply s op) ∧ Later s (p.apply s op) := by
  have hallow {self : DataPipeEnd} {count : UInt32} (hrequest : op.request = some (self, count)) :
      Allowed s self count := by
    rintro rfl hcount hclosed
    exact hop _ hrequest rfl hcount (h.closed hclosed)
  cases op with
  | write self elements numBytes allOrNone => exact evolves_write elements allOrNone (hallow rfl) h
  | beginWrite self => exact evolves_beginWrite h
  | endWrite self produced => exact evolves_endWrite (hallow rfl) h
  | read self elements numBytes flags =>
      refine evolves_read elements (fun hflags => hallow ?_) h
      simp only [DataPipeOp.request, hflags]
      rfl
  | beginRead self => exact evolves_beginRead h
  | endRead self consumed => exact evolves_endRead (hallow rfl) h
  | close self => exact evolves_close h
  | querySignals self =>
      simp only [DataPipe.apply, DataPipe.querySignals]
      split_ifs
      · exact ⟨h, .refl s⟩
      · exact (evolves_flush self).trans (evolves_latch self) h

/-- What an end reports when it is asked. -/
def report (p : DataPipe) (s : PairState p.cap) (e : DataPipeEnd) : SignalsState :=
  (p.querySignals e s).2

/-- What an end reports, by what a flush leaves alone. -/
theorem report_eq (h : Counts s) (hpoison : s.poisoned = false) : ∃ room,
    p.report s .producer = producerSignals s.producerEnd.peerClosed room ∧
      p.report s .consumer =
        consumerSignals s.consumerEnd.peerClosed s.consumerEnd.hasNews s.hasData := by
  obtain ⟨room, hroom⟩ := signalsOf_producer (s.flushLocked .producer)
  refine ⟨room, ?_, ?_⟩
  · have hclosed : (s.flushLocked .producer).producerEnd.peerClosed = s.producerEnd.peerClosed := by
      simp only [flushLocked, modifyEndpoint]
      split_ifs <;> rfl
    rw [report, DataPipe.querySignals, hpoison, if_neg Bool.false_ne_true, hroom, hclosed]
  · obtain ⟨control, consumer, latch, hflush, -, hnews, hdata⟩ := flush_consumer h
    rw [report, DataPipe.querySignals, hpoison, if_neg Bool.false_ne_true, signalsOf_consumer,
      hnews, hdata, hflush]

theorem covers_of_later {s' : PairState p.cap} (e : DataPipeEnd) (h : Counts s) (h' : Counts s')
    (hl : Later s s') : (p.report s e).Covers (p.report s' e) := by
  cases hpoison' : s'.poisoned with
  | true =>
      rw [report, report, DataPipe.querySignals.eq_def p e s', hpoison', if_pos rfl]
      exact ⟨Signals.contains_none _, Signals.contains_none _⟩
  | false =>
      have hpoison : s.poisoned = false := by
        cases hp : s.poisoned
        · rfl
        · rw [hl.poisoned hp] at hpoison'
          cases hpoison'
      obtain ⟨room, hproducer, hconsumer⟩ := report_eq h hpoison
      obtain ⟨room', hproducer', hconsumer'⟩ := report_eq h' hpoison'
      cases e with
      | producer =>
          have hpeer := hl.peerClosed .producer
          simp only [endpoint] at hpeer
          rw [hproducer, hproducer']
          clear hproducer hproducer' hconsumer hconsumer'
          revert hpeer
          generalize s.producerEnd.peerClosed = a, s'.producerEnd.peerClosed = a'
          intro hpeer
          constructor
          · revert a a' room room'
            decide
          · revert a a' room room'
            decide
      | consumer =>
          have hpeer := hl.peerClosed .consumer
          have hnews := hl.news
          have hdata := hl.data
          simp only [endpoint] at hpeer
          rw [hconsumer, hconsumer']
          revert hpeer hnews hdata
          generalize s.consumerEnd.peerClosed = a, s'.consumerEnd.peerClosed = a',
            s.consumerEnd.hasNews = b, s'.consumerEnd.hasNews = b', s.hasData = c, s'.hasData = c'
          intro hpeer hnews hdata
          constructor
          · revert a a' b b' c c'
            decide
          · revert a a' b b' c c'
            decide

end DataPipe

/-! ### Both kinds of pipes -/

/-- Every message pipe reports finally; a data pipe does where its producer
sends nothing after its close to a consumer without news. -/
theorem unsatisfiable_final {η κ : Type} :
    (∀ ops : List (Pipe.PipeOp η κ), Final Pipe.PipeState.apply
      (fun s e => (s.endpoints e).localClosed = false) Pipe.PipeState.querySignals .create ops) ∧
    ∀ (p : DataPipe) (ops : List DataPipeOp), Meets p.apply p.NoLateNews (.new p) ops →
      Final p.apply (fun s e => (s.endpoint e).localClosed = false) p.report (.new p) ops := by
  constructor
  · intro ops
    have hall : Meets Pipe.PipeState.apply (fun _ _ => True) (.create : Pipe.PipeState η κ) ops :=
      meets_of_forall (fun _ _ => trivial) _ _
    have hknow : Pipe.PeersKnow (.create : Pipe.PipeState η κ) := fun _ => rfl
    exact final_of_covers (P := Pipe.PeersKnow) Pipe.Later.refl (fun _ _ _ => .trans)
      (fun s op h _ => Pipe.apply_later h op) (fun s s' e _ _ hl => Pipe.covers_of_later hl e)
      hknow hall
  · intro p ops hops
    refine final_of_covers PairState.Later.refl (fun _ _ _ => .trans)
      (fun s op h hop => DataPipe.apply_evolves h op hop)
      (fun s s' e h h' hl => DataPipe.covers_of_later e h h' hl) ⟨?_, nofun⟩ hops
    rintro (- | -) n hn
    · cases hn
    · cases hn

/-- A pipe of four bytes: the producer closes, and what it wrote before is
still read. -/
theorem unsatisfiable_final_drained :
    Final (⟨1, 4, by decide, by decide, by decide⟩ : DataPipe).apply
      (fun s e => (s.endpoint e).localClosed = false)
      (⟨1, 4, by decide, by decide, by decide⟩ : DataPipe).report (.new _)
      [.write .producer [7, 8] 2 true, .close .producer,
        .read .consumer none 1 ⟨false, false, true, false⟩] :=
  (unsatisfiable_final (η := Unit) (κ := Unit)).2 _ _ (by decide)

/-- The producer writes after its close, and `NEW_DATA_READABLE` comes back. -/
theorem late_write_revives :
    ¬ Final (⟨1, 4, by decide, by decide, by decide⟩ : DataPipe).apply
      (fun s e => (s.endpoint e).localClosed = false)
      (⟨1, 4, by decide, by decide, by decide⟩ : DataPipe).report (.new _)
      [.close .producer, .write .producer [7] 1 true] := by
  intro h
  have hrevived := h [.close .producer] [.write .producer [7] 1 true] rfl .consumer
    .newDataReadable (by decide +kernel) (by decide +kernel)
  revert hrevived
  decide +kernel

end MojoRs.Core
