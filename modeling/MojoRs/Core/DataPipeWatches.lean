/-
MojoRs/Core/DataPipeWatches.lean

The watches on data pipe endpoints, over the model of the data pipe, which
leaves them out.  An operation that sends the peer a byte count calls back the
peer's watches (`push_and_collect`), and so does a close.

Data pipes are dispatchers that treat watches as they should (`dataPipesLawful`)
while no call poisons the lock, and no call does that gives a buffer as long as
it says.  So the events of a trap over message pipes and data pipes go where
they belong while its contexts are fresh.  `add_trigger` does not reject a
context that is in use, and then events go astray (`events_astray`).

Main result: `events_attributed`.
-/
import MojoRs.Core.SignalFinality
import MojoRs.Core.TrapEvents

namespace MojoRs.Core

open Pipe (Notification WatcherRegistration watchesOf)
open Function (update)

/-! ### What the operations call back -/

namespace DataPipe

variable (p : DataPipe)

/-- The end whose watches an operation calls back: the peer's, where the
operation sends it a byte count. -/
def collects (s : PairState p.cap) : DataPipeOp → Option DataPipeEnd
  | .write self elements numBytes allOrNone =>
      match (p.write self s elements numBytes allOrNone).2 with
      | some (.ok written) => if written > 0 then some self.peer else none
      | _ => none
  | .endWrite self produced =>
      match (p.endWrite self s produced).2 with
      | some (.ok ()) => if produced = 0 then none else some self.peer
      | _ => none
  | .read self elements numBytes flags =>
      match (p.read self s elements numBytes flags).2 with
      | some (.ok outcome) =>
          if flags.query || flags.peek || outcome.numBytes = 0 then none else some self.peer
      | _ => none
  | .endRead self consumed =>
      match (p.endRead self s consumed).2 with
      | some (.ok ()) => if consumed = 0 then none else some self.peer
      | _ => none
  | .close self =>
      if s.poisoned || (s.endpoint self).localClosed then none else some self.peer
  | _ => none

/-- The end that an operation closes. -/
def closesEnd (s : PairState p.cap) : DataPipeOp → Option DataPipeEnd
  | .close self => if s.poisoned || (s.endpoint self).localClosed then none else some self
  | _ => none

end DataPipe

/-- A data pipe with the watches of its endpoints. -/
structure WatchedPair where
  pipe : DataPipe
  pair : PairState pipe.cap
  watchers : DataPipeEnd → List (WatcherRegistration Nat)

namespace WatchedPair

/-- `DataPipe::create_pair`. -/
def create (pipe : DataPipe) : WatchedPair := ⟨pipe, .new pipe, fun _ => []⟩

/-- `signals_of`, which is asked again without any change after it latched. -/
def signals (s : WatchedPair) (e : DataPipeEnd) : SignalsState := (s.pair.signalsOf e).2

/-- `DataPipe::query_signals`. -/
def querySignals (s : WatchedPair) (e : DataPipeEnd) : WatchedPair × SignalsState :=
  ({ s with pair := (s.pipe.querySignals e s.pair).1 }, (s.pipe.querySignals e s.pair).2)

/-- `DataPipe::register_watch`. -/
def registerWatch (s : WatchedPair) (e : DataPipeEnd) (id : Nat) (signals : Signals)
    (callback : Nat) : WatchedPair :=
  if s.pair.poisoned then s
  else if (s.pair.endpoint e).localClosed then s
  else { s with
    watchers := update s.watchers e (s.watchers e ++ [⟨id, signals, callback, false⟩]) }

/-- `DataPipe::cancel_registered_watch`. -/
def cancelRegisteredWatch (s : WatchedPair) (e : DataPipeEnd) (id : Nat) : WatchedPair :=
  if s.pair.poisoned then s
  else { s with
    watchers := update s.watchers e (Pipe.EndpointState.cancelWatcher id (s.watchers e)) }

/-- An operation, with the watch callbacks that it invokes: those cancelled by
a close first. -/
def operate (s : WatchedPair) (op : DataPipeOp) : WatchedPair × List (Notification Nat) :=
  let watchers :=
    match s.pipe.closesEnd s.pair op with
    | none => s.watchers
    | some e => update s.watchers e ((s.watchers e).map fun w => { w with cancelled := true })
  let s' := { s with pair := s.pipe.apply s.pair op, watchers }
  (s', ((s.pipe.closesEnd s.pair op).elim [] fun e => cancellations (watchesOf (s.watchers e))) ++
    (s.pipe.collects s.pair op).elim [] fun e => changes (s'.signals e) (watchesOf (watchers e)))

end WatchedPair

/-- All data pipes, and the counter of watch ids that they share. -/
structure DataPipes where
  nextWatchId : Nat
  pipes : Nat → WatchedPair

namespace DataPipes

/-- One pipe, as it was created. -/
def init (created : Nat → DataPipe) : DataPipes := ⟨1, fun n => .create (created n)⟩

/-- Change one pipe. -/
def setPipe (s : DataPipes) (n : Nat) (pipe : WatchedPair) : DataPipes :=
  { s with pipes := update s.pipes n pipe }

end DataPipes

/-- Data pipes as dispatchers (`impl Dispatcher for DataPipe`). -/
def dataPipes : Dispatchers DataPipes (Nat × DataPipeEnd) (Nat × DataPipeOp) where
  querySignals s h :=
    let (pipe, state) := (s.pipes h.1).querySignals h.2
    (s.setPipe h.1 pipe, state)
  startWatch s h signals context :=
    let pipe := (s.pipes h.1).registerWatch h.2 s.nextWatchId signals context
    ({ s.setPipe h.1 pipe with nextWatchId := s.nextWatchId + 1 }, s.nextWatchId)
  cancelWatch s h id := s.setPipe h.1 ((s.pipes h.1).cancelRegisteredWatch h.2 id)
  operate s op :=
    let (pipe, notifications) := (s.pipes op.1).operate op.2
    (s.setPipe op.1 pipe, notifications)

/-! ### Calls that do not poison the lock -/

/-- A call gives a buffer as long as it says, where the buffer is used. -/
def DataPipeOp.calls : DataPipeOp → Prop
  | .write _ elements numBytes _ => numBytes.toNat ≤ elements.length
  | .read _ elements numBytes flags =>
      flags.query = true ∨ flags.discard = true ∨ ∀ b ∈ elements, numBytes.toNat ≤ b.length
  | _ => True

instance : (op : DataPipeOp) → Decidable op.calls
  | .write .. => inferInstanceAs (Decidable (_ ≤ _))
  | .read .. => inferInstanceAs (Decidable (_ ∨ _ ∨ _))
  | .beginWrite _ | .endWrite .. | .beginRead _ | .endRead .. | .querySignals _ | .close _ =>
      isTrue trivial

namespace PairState

variable {cap : Nat} {s s' : PairState cap}

/-- Whether the lock is poisoned, and which ends are closed. -/
def flags (s : PairState cap) : Bool × Bool × Bool :=
  (s.poisoned, s.producerEnd.localClosed, s.consumerEnd.localClosed)

theorem flags_modifyEndpoint (e : DataPipeEnd) {f : EndpointState → EndpointState}
    (hf : ∀ ep, (f ep).localClosed = ep.localClosed) : (s.modifyEndpoint e f).flags = s.flags := by
  cases e with
  | producer => exact congrArg (fun c => (s.poisoned, c, s.consumerEnd.localClosed)) (hf _)
  | consumer => exact congrArg (fun c => (s.poisoned, s.producerEnd.localClosed, c)) (hf _)

theorem flags_signalsOf (e : DataPipeEnd) : (s.signalsOf e).1.flags = s.flags := by
  cases e with
  | producer =>
      simp only [signalsOf]
      split_ifs <;> rfl
  | consumer =>
      simp only [signalsOf]
      split_ifs
      · exact flags_modifyEndpoint _ fun _ => rfl
      · rfl

theorem flags_pushAndCollect (e : DataPipeEnd) (count : UInt32) :
    (s.pushAndCollect e count).flags = s.flags := by
  unfold pushAndCollect
  split_ifs
  · rfl
  · exact (flags_signalsOf e).trans (flags_modifyEndpoint _ fun _ => rfl)

theorem flags_flushLocked (e : DataPipeEnd) : (s.flushLocked e).flags = s.flags := by
  have hmodify := flags_modifyEndpoint (s := s) e
    (f := fun ep => { ep with control := (drain (s.endpoint e).control 0).2 }) fun _ => rfl
  unfold flushLocked
  dsimp only
  split_ifs
  · exact hmodify
  · cases e
    · exact hmodify
    · exact hmodify

end PairState

namespace DataPipe

open PairState

variable {p : DataPipe} {s : PairState p.cap} {self : DataPipeEnd}

theorem flags_write {elements : List UInt8} {numBytes : UInt32} (allOrNone : Bool)
    (h : numBytes.toNat ≤ elements.length) :
    (p.write self s elements numBytes allOrNone).1.flags = s.flags := by
  have hflush := flags_flushLocked (s := s) self
  apply write_rule (motive := fun out => out.1.flags = s.flags)
  · exact fun _ => rfl
  · exact fun _ => hflush
  · exact fun hshort => absurd h (Nat.not_le_of_lt hshort)
  · exact fun _ _ _ _ => (flags_pushAndCollect ..).trans hflush
  · exact fun _ _ _ _ => hflush
  · exact fun _ _ _ _ _ => (flags_pushAndCollect ..).trans hflush

theorem flags_readAllOrNone (numBytes : UInt32) (flags : ReadFlags) :
    (p.readAllOrNone self s numBytes flags).1.flags = s.flags := by
  unfold DataPipe.readAllOrNone
  dsimp only
  split
  · rfl
  · split_ifs
    · rfl
    · exact flags_pushAndCollect ..

theorem flags_readPartial (numBytes : UInt32) (flags : ReadFlags) :
    (p.readPartial self s numBytes flags).1.flags = s.flags := by
  unfold DataPipe.readPartial
  split_ifs
  · exact flags_pushAndCollect ..
  · rfl
  · exact flags_pushAndCollect ..

/-- A buffer that is long enough, or is not there, is no reason to panic. -/
theorem not_outTooShort {elements : Option (List UInt8)} {numBytes : UInt32} {flags : ReadFlags}
    (h : flags.query = true ∨ flags.discard = true ∨ ∀ b ∈ elements, numBytes.toNat ≤ b.length)
    (hstarts : ReadStarts p self s elements numBytes flags) :
    outTooShort elements numBytes flags = false := by
  have hquery : ¬flags.query = true := Bool.eq_false_iff.mp hstarts.noQuery
  cases hdiscard : flags.discard with
  | true => simp [outTooShort, hdiscard]
  | false =>
      have h := (h.resolve_left hquery).resolve_left (by simp [hdiscard])
      cases elements with
      | some b => simpa [outTooShort, hdiscard] using h b rfl
      | none =>
          have hzero : numBytes.toNat = 0 := by
            simpa [hdiscard, hquery, UInt32.lt_iff_toNat_lt] using hstarts.given
          simp [outTooShort, hzero]

theorem flags_read {elements : Option (List UInt8)} {numBytes : UInt32} {flags : ReadFlags}
    (h : flags.query = true ∨ flags.discard = true ∨ ∀ b ∈ elements, numBytes.toNat ≤ b.length) :
    (p.read self s elements numBytes flags).1.flags = s.flags := by
  have hflush := flags_flushLocked (s := s) self
  have hforget : (forgotten s self).flags = (s.flushLocked self).flags :=
    flags_modifyEndpoint (f := fun ep => { ep with hasNewData := false }) self fun _ => rfl
  have hforgotten := hforget.trans hflush
  apply read_rule (motive := fun out => out.1.flags = s.flags)
  · exact fun _ => rfl
  · exact fun _ => hflush
  · exact fun _ => hflush
  · exact fun _ _ => hforgotten
  · intro hstarts hshort
    rw [not_outTooShort h hstarts] at hshort
    exact absurd hshort Bool.false_ne_true
  · exact fun _ => (flags_readAllOrNone ..).trans hforgotten
  · exact fun _ => (flags_readPartial ..).trans hforgotten

theorem flags_beginWrite : (p.beginWrite self s).1.flags = s.flags := by
  unfold DataPipe.beginWrite
  dsimp only
  split
  · rfl
  refine Eq.trans ?_ (flags_flushLocked self)
  split
  · rfl
  split
  · rfl
  split
  · rfl
  · exact flags_modifyEndpoint self fun _ => rfl

theorem flags_beginRead : (p.beginRead self s).1.flags = s.flags := by
  unfold DataPipe.beginRead
  dsimp only
  split
  · rfl
  refine Eq.trans ?_ (flags_flushLocked self)
  split
  · rfl
  split
  · rfl
  · exact flags_modifyEndpoint self fun _ => rfl

theorem flags_endWrite (produced : UInt32) : (p.endWrite self s produced).1.flags = s.flags := by
  unfold DataPipe.endWrite
  split
  · rfl
  cases (s.endpoint self).twoPhase with
  | none => rfl
  | some two =>
      dsimp only
      refine Eq.trans ?_
        (flags_modifyEndpoint (f := fun ep => { ep with twoPhase := none }) self fun _ => rfl)
      split
      · rfl
      split
      · rfl
      · cases two with
        | reader r => rfl
        | writer w =>
            dsimp only
            split
            · rfl
            · exact flags_pushAndCollect ..

theorem flags_endRead (consumed : UInt32) : (p.endRead self s consumed).1.flags = s.flags := by
  unfold DataPipe.endRead
  split
  · rfl
  cases (s.endpoint self).twoPhase with
  | none => rfl
  | some two =>
      dsimp only
      refine Eq.trans ?_
        (flags_modifyEndpoint (f := fun ep => { ep with twoPhase := none }) self fun _ => rfl)
      split
      · rfl
      split
      · rfl
      · cases two with
        | writer w => rfl
        | reader r =>
            dsimp only
            split
            · rfl
            · exact flags_pushAndCollect ..

theorem flags_querySignals : (p.querySignals self s).1.flags = s.flags := by
  unfold DataPipe.querySignals
  split
  · rfl
  · exact (flags_signalsOf self).trans (flags_flushLocked self)

/-- A close closes its end, if it was open. -/
theorem flags_close (h : s.poisoned = false) (e : DataPipeEnd) :
    (p.close self s).poisoned = false ∧ ((p.close self s).endpoint e).localClosed =
      ((s.endpoint e).localClosed || decide (p.closesEnd s (.close self) = some e)) := by
  by_cases hclosed : (s.endpoint self).localClosed = true
  · have hsame : p.close self s = s := by
      rw [DataPipe.close, h, if_neg Bool.false_ne_true, if_pos hclosed]
    have hcloses : p.closesEnd s (.close self) = none := by
      rw [closesEnd, h, hclosed]
      rfl
    rw [hsame, hcloses, decide_eq_false nofun, Bool.or_false]
    exact ⟨h, rfl⟩
  · have hcloses : p.closesEnd s (.close self) = some self := by
      rw [closesEnd, h, Bool.eq_false_iff.mpr hclosed]
      rfl
    have hflags : (p.close self s).flags = ((s.modifyEndpoint self fun ep =>
        { ep with localClosed := true }).flags) := by
      rw [DataPipe.close, h, if_neg Bool.false_ne_true, if_neg hclosed]
      exact (flags_signalsOf _).trans (flags_modifyEndpoint _ fun _ => rfl)
    obtain ⟨hp, hproducer, hconsumer⟩ := Prod.ext_iff.mp hflags |>.imp_right Prod.ext_iff.mp
    refine ⟨?_, ?_⟩
    · rw [show (p.close self s).poisoned = _ from hp]
      cases self
      · exact h
      · exact h
    · rw [hcloses]
      cases e with
      | producer =>
          rw [show ((p.close self s).endpoint .producer).localClosed = _ from hproducer]
          cases self
          · exact (Bool.or_true _).symm
          · exact (Bool.or_false _).symm
      | consumer =>
          rw [show ((p.close self s).endpoint .consumer).localClosed = _ from hconsumer]
          cases self
          · exact (Bool.or_false _).symm
          · exact (Bool.or_true _).symm

theorem flags_apply {op : DataPipeOp} (h : op.calls) (hpoison : s.poisoned = false)
    (e : DataPipeEnd) : (p.apply s op).poisoned = false ∧ ((p.apply s op).endpoint e).localClosed =
      ((s.endpoint e).localClosed || decide (p.closesEnd s op = some e)) := by
  have hof {s' : PairState p.cap} (hflags : s'.flags = s.flags)
      (hcloses : p.closesEnd s op = none) : s'.poisoned = false ∧ (s'.endpoint e).localClosed =
        ((s.endpoint e).localClosed || decide (p.closesEnd s op = some e)) := by
    obtain ⟨hp, hproducer, hconsumer⟩ := Prod.ext_iff.mp hflags |>.imp_right Prod.ext_iff.mp
    refine ⟨hp.trans hpoison, ?_⟩
    rw [hcloses, decide_eq_false nofun, Bool.or_false]
    cases e
    · exact hproducer
    · exact hconsumer
  cases op with
  | write self elements numBytes allOrNone => exact hof (flags_write allOrNone h) rfl
  | beginWrite self => exact hof flags_beginWrite rfl
  | endWrite self produced => exact hof (flags_endWrite produced) rfl
  | read self elements numBytes flags => exact hof (flags_read h) rfl
  | beginRead self => exact hof flags_beginRead rfl
  | endRead self consumed => exact hof (flags_endRead consumed) rfl
  | querySignals self => exact hof flags_querySignals rfl
  | close self => exact flags_close hpoison e

end DataPipe

/-! ### Data pipes as dispatchers -/

namespace WatchedPair

variable {s : WatchedPair}

/-- The lock is not poisoned, and the ids of both ends are in order. -/
def InOrder (s : WatchedPair) (next : Nat) : Prop :=
  s.pair.poisoned = false ∧ ∀ e, Pipe.Ordered (s.watchers e) next

/-- The end takes watches. -/
def isOpen (s : WatchedPair) (e : DataPipeEnd) : Prop :=
  s.pair.poisoned = false ∧ (s.pair.endpoint e).localClosed = false

theorem watchers_registerWatch {e : DataPipeEnd} (h : s.isOpen e) (id : Nat) (w : Signals) (c : Nat)
    (e' : DataPipeEnd) : (s.registerWatch e id w c).watchers e' =
      if e' = e then s.watchers e ++ [⟨id, w, c, false⟩] else s.watchers e' := by
  rw [registerWatch, h.1, if_neg Bool.false_ne_true, h.2, if_neg Bool.false_ne_true]
  show update s.watchers e _ e' = _
  by_cases he : e' = e
  · rw [if_pos he, he, Function.update_self]
  · rw [if_neg he, Function.update_of_ne he]

theorem registerWatch_closed {e : DataPipeEnd} (h : ¬s.isOpen e) (id : Nat) (w : Signals) (c : Nat) :
    s.registerWatch e id w c = s := by
  unfold registerWatch
  split_ifs with hpoison hclosed
  · rfl
  · rfl
  · exact absurd ⟨Bool.eq_false_iff.mpr hpoison, Bool.eq_false_iff.mpr hclosed⟩ h

theorem isOpen_registerWatch (e : DataPipeEnd) (id : Nat) (w : Signals) (c : Nat) :
    (s.registerWatch e id w c).isOpen = s.isOpen := by
  unfold registerWatch
  split_ifs <;> rfl

theorem watchers_cancelRegisteredWatch (h : s.pair.poisoned = false) (e : DataPipeEnd) (id : Nat)
    (e' : DataPipeEnd) : (s.cancelRegisteredWatch e id).watchers e' =
      if e' = e then Pipe.EndpointState.cancelWatcher id (s.watchers e) else s.watchers e' := by
  rw [cancelRegisteredWatch, h, if_neg Bool.false_ne_true]
  show update s.watchers e _ e' = _
  by_cases he : e' = e
  · rw [if_pos he, he, Function.update_self]
  · rw [if_neg he, Function.update_of_ne he]

theorem watchers_cancelRegisteredWatch_ne {e e' : DataPipeEnd} (id : Nat) (h : e' ≠ e) :
    (s.cancelRegisteredWatch e id).watchers e' = s.watchers e' := by
  unfold cancelRegisteredWatch
  split_ifs
  · rfl
  · exact Function.update_of_ne h ..

theorem pair_cancelRegisteredWatch (e : DataPipeEnd) (id : Nat) :
    (s.cancelRegisteredWatch e id).isOpen = s.isOpen ∧
      (s.cancelRegisteredWatch e id).pair.poisoned = s.pair.poisoned := by
  by_cases hpoison : s.pair.poisoned = true
  · rw [cancelRegisteredWatch, if_pos hpoison]
    exact ⟨rfl, rfl⟩
  · rw [cancelRegisteredWatch, if_neg hpoison]
    exact ⟨rfl, rfl⟩

theorem isOpen_querySignals (e : DataPipeEnd) : (s.querySignals e).1.isOpen = s.isOpen := by
  have hflags : (s.pipe.querySignals e s.pair).1.flags = s.pair.flags := DataPipe.flags_querySignals
  obtain ⟨hp, hproducer, hconsumer⟩ := Prod.ext_iff.mp hflags |>.imp_right Prod.ext_iff.mp
  funext e'
  cases e' with
  | producer => exact congrArg₂ (fun a b : Bool => a = false ∧ b = false) hp hproducer
  | consumer => exact congrArg₂ (fun a b : Bool => a = false ∧ b = false) hp hconsumer

theorem watchers_operate (op : DataPipeOp) (e : DataPipeEnd) : (s.operate op).1.watchers e =
    if s.pipe.closesEnd s.pair op = some e then
      (s.watchers e).map fun w => { w with cancelled := true }
    else s.watchers e := by
  unfold operate
  cases s.pipe.closesEnd s.pair op with
  | none => rfl
  | some e' =>
      show update s.watchers e' _ e = _
      by_cases he : e = e'
      · rw [if_pos (congrArg some he.symm), he, Function.update_self]
      · rw [if_neg (fun h => he (Option.some.inj h).symm), Function.update_of_ne he]

theorem isOpen_operate {op : DataPipeOp} (h : op.calls) (hpoison : s.pair.poisoned = false)
    (e : DataPipeEnd) : (s.operate op).1.isOpen e ↔
      s.isOpen e ∧ s.pipe.closesEnd s.pair op ≠ some e := by
  obtain ⟨hp, hlocal⟩ := DataPipe.flags_apply h hpoison e
  show (s.pipe.apply s.pair op).poisoned = false ∧
    ((s.pipe.apply s.pair op).endpoint e).localClosed = false ↔ _
  rw [hlocal, Bool.or_eq_false_iff, decide_eq_false_iff_not, and_iff_right hp, isOpen,
    and_iff_right hpoison]

/-- An end that is closed was open, and is not told. -/
theorem closesEnd_isOpen {op : DataPipeOp} {e : DataPipeEnd}
    (h : s.pipe.closesEnd s.pair op = some e) : s.isOpen e := by
  cases op with
  | close self =>
      simp only [DataPipe.closesEnd] at h
      split_ifs at h with hopen
      obtain rfl := Option.some.inj h
      simpa [isOpen] using hopen
  | _ => cases h

theorem collects_ne {op : DataPipeOp} {e : DataPipeEnd}
    (h : s.pipe.collects s.pair op = some e) : s.pipe.closesEnd s.pair op ≠ some e := by
  cases op with
  | close self =>
      simp only [DataPipe.closesEnd, DataPipe.collects] at h ⊢
      split_ifs at h ⊢
      obtain rfl := Option.some.inj h
      cases self <;> nofun
  | _ => nofun

end WatchedPair

namespace DataPipes

variable {s : DataPipes}

theorem pipes_setPipe (n : Nat) (pipe : WatchedPair) (m : Nat) :
    (s.setPipe n pipe).pipes m = if m = n then pipe else s.pipes m := by
  show update s.pipes n pipe m = _
  by_cases hm : m = n
  · rw [if_pos hm, hm, Function.update_self]
  · rw [if_neg hm, Function.update_of_ne hm]

/-- No lock is poisoned, and the ids of every endpoint are in order. -/
def InOrder (s : DataPipes) : Prop := ∀ n, (s.pipes n).InOrder s.nextWatchId

theorem inOrder_setPipe {next n : Nat} {pipe : WatchedPair} (hpipe : pipe.InOrder next)
    (hothers : ∀ m, (s.pipes m).InOrder next) (m : Nat) :
    ((s.setPipe n pipe).pipes m).InOrder next := by
  rw [pipes_setPipe]
  split_ifs
  · exact hpipe
  · exact hothers m

end DataPipes

open DataPipes WatchedPair

namespace DataPipes

variable {s : DataPipes}

theorem InOrder.querySignals (h : s.InOrder) (d : Nat × DataPipeEnd) :
    (s.setPipe d.1 ((s.pipes d.1).querySignals d.2).1).InOrder := by
  have hflags : ((s.pipes d.1).pipe.querySignals d.2 (s.pipes d.1).pair).1.flags =
      (s.pipes d.1).pair.flags := DataPipe.flags_querySignals
  exact inOrder_setPipe ⟨(Prod.ext_iff.mp hflags).1.trans (h d.1).1, fun e => (h d.1).2 e⟩ h

theorem InOrder.startWatch (h : s.InOrder) (d : Nat × DataPipeEnd) (w : Signals) (c : Nat) :
    (dataPipes.startWatch s d w c).1.InOrder := by
  have hmono (n : Nat) : (s.pipes n).InOrder (s.nextWatchId + 1) :=
    ⟨(h n).1, fun e => ((h n).2 e).mono (Nat.le_succ _)⟩
  refine inOrder_setPipe ?_ hmono
  by_cases hopen : (s.pipes d.1).isOpen d.2
  · have hsame := isOpen_registerWatch (s := s.pipes d.1) d.2 s.nextWatchId w c
    refine ⟨(cast (congrFun hsame d.2).symm hopen).1, fun e => ?_⟩
    rw [watchers_registerWatch hopen]
    split_ifs
    · exact ((h d.1).2 d.2).append w c
    · exact (hmono d.1).2 e
  · rw [registerWatch_closed hopen]
    exact hmono d.1

theorem InOrder.cancelWatch (h : s.InOrder) (d : Nat × DataPipeEnd) (id : Nat) :
    (dataPipes.cancelWatch s d id).InOrder := by
  refine inOrder_setPipe ⟨(pair_cancelRegisteredWatch d.2 id).2.trans (h d.1).1, fun e => ?_⟩ h
  rw [watchers_cancelRegisteredWatch (h d.1).1]
  split_ifs
  · exact ((h d.1).2 d.2).congr (Pipe.ids_cancelWatcher id _)
  · exact (h d.1).2 e

theorem InOrder.operate (h : s.InOrder) {op : Nat × DataPipeOp} (hop : op.2.calls) :
    (dataPipes.operate s op).1.InOrder := by
  refine inOrder_setPipe ⟨(DataPipe.flags_apply hop (h op.1).1 .producer).1, fun e => ?_⟩ h
  show Pipe.Ordered (((s.pipes op.1).operate op.2).1.watchers e) s.nextWatchId
  rw [watchers_operate]
  split_ifs
  · refine ((h op.1).2 e).congr ?_
    rw [List.map_map]
    rfl
  · exact (h op.1).2 e

/-- The handles of an operation are on its pipe. -/
theorem handle_iff {n : Nat} {o : Option DataPipeEnd} {d : Nat × DataPipeEnd} :
    o.map (n, ·) = some d ↔ d.1 = n ∧ o = some d.2 := by
  constructor
  · intro h
    obtain ⟨e, rfl, rfl⟩ := Option.map_eq_some_iff.mp h
    exact ⟨rfl, rfl⟩
  · rintro ⟨rfl, rfl⟩
    rfl

end DataPipes

/-- Data pipes treat watches as they should. -/
def dataPipesLawful : dataPipes.Lawful where
  isOpen s d := (s.pipes d.1).isOpen d.2
  watches s d := watchesOf ((s.pipes d.1).watchers d.2)
  signals s d := (s.pipes d.1).signals d.2
  nextId s _ := s.nextWatchId
  closes s op := ((s.pipes op.1).pipe.closesEnd (s.pipes op.1).pair op.2).map (op.1, ·)
  tells s op := ((s.pipes op.1).pipe.collects (s.pipes op.1).pair op.2).map (op.1, ·)
  calls op := op.2.calls
  inv := DataPipes.InOrder
  inv_querySignals d h := h.querySignals d
  isOpen_querySignals s d := by
    funext d'
    show ((s.setPipe d.1 ((s.pipes d.1).querySignals d.2).1).pipes d'.1).isOpen d'.2 = _
    rw [pipes_setPipe]
    split_ifs with hn
    · rw [isOpen_querySignals, hn]
    · rfl
  watches_querySignals s d := by
    funext d'
    show watchesOf (((s.setPipe d.1 ((s.pipes d.1).querySignals d.2).1).pipes d'.1).watchers d'.2) = _
    rw [pipes_setPipe]
    split_ifs with hn
    · rw [hn]
      rfl
    · rfl
  nextId_querySignals _ _ := rfl
  inv_startWatch d w c h := h.startWatch d w c
  isOpen_startWatch s d w c := by
    funext d'
    show ((s.setPipe d.1 _).pipes d'.1).isOpen d'.2 = _
    rw [pipes_setPipe]
    split_ifs with hn
    · rw [isOpen_registerWatch, hn]
    · rfl
  id_startWatch _ _ _ _ := rfl
  nextId_startWatch_le _ _ _ _ _ := Nat.le_succ _
  nextId_startWatch _ _ _ _ := Nat.lt_succ_self _
  watches_startWatch {s d} w c h := by
    show watchesOf (((s.setPipe d.1 _).pipes d.1).watchers d.2) = _
    rw [pipes_setPipe, if_pos rfl, watchers_registerWatch h, if_pos rfl]
    exact Pipe.watchesOf_append ..
  watches_startWatch_closed {s d} w c h := by
    show watchesOf (((s.setPipe d.1 _).pipes d.1).watchers d.2) = _
    rw [pipes_setPipe, if_pos rfl, registerWatch_closed h]
  watches_startWatch_ne {s d d'} w c h := by
    show watchesOf (((s.setPipe d.1 _).pipes d'.1).watchers d'.2) = _
    rw [pipes_setPipe]
    split_ifs with hn
    · by_cases hopen : (s.pipes d.1).isOpen d.2
      · rw [watchers_registerWatch hopen, if_neg fun he => h (Prod.ext hn he), hn]
      · rw [registerWatch_closed hopen, hn]
    · rfl
  inv_cancelWatch d id h := h.cancelWatch d id
  isOpen_cancelWatch s d id := by
    funext d'
    show ((s.setPipe d.1 _).pipes d'.1).isOpen d'.2 = _
    rw [pipes_setPipe]
    split_ifs with hn
    · rw [(pair_cancelRegisteredWatch d.2 id).1, hn]
    · rfl
  nextId_cancelWatch _ _ _ := rfl
  watches_cancelWatch {s} d id h := by
    show watchesOf (((s.setPipe d.1 _).pipes d.1).watchers d.2) = _
    rw [pipes_setPipe, if_pos rfl, watchers_cancelRegisteredWatch (h d.1).1, if_pos rfl]
    exact Pipe.watchesOf_cancelWatcher ((h d.1).2 d.2).1 id
  watches_cancelWatch_ne {s d d'} id h := by
    show watchesOf (((s.setPipe d.1 _).pipes d'.1).watchers d'.2) = _
    rw [pipes_setPipe]
    split_ifs with hn
    · rw [watchers_cancelRegisteredWatch_ne _ fun he => h (Prod.ext hn he), hn]
    · rfl
  inv_operate h hop := h.operate hop
  nextId_operate _ _ := rfl
  isOpen_operate {s op} d h hop := by
    show ((s.setPipe op.1 ((s.pipes op.1).operate op.2).1).pipes d.1).isOpen d.2 ↔ _
    rw [pipes_setPipe, Ne, handle_iff, not_and]
    split_ifs with hn
    · rw [isOpen_operate hop (h op.1).1, hn]
      exact and_congr_right' ⟨fun hne _ => hne, fun hall => hall rfl⟩
    · exact (and_iff_left fun heq => absurd heq hn).symm
  watches_operate {s op d} _ _ hcloses := by
    show watchesOf (((s.setPipe op.1 ((s.pipes op.1).operate op.2).1).pipes d.1).watchers d.2) = _
    rw [pipes_setPipe]
    split_ifs with hn
    · rw [watchers_operate, if_neg fun h => hcloses (handle_iff.mpr ⟨hn, h⟩), hn]
    · rfl
  watches_operate_closed {s op d} _ _ hcloses := by
    obtain ⟨hn, hend⟩ := handle_iff.mp hcloses
    refine ⟨hn ▸ closesEnd_isOpen hend, ?_⟩
    show watchesOf (((s.setPipe op.1 ((s.pipes op.1).operate op.2).1).pipes d.1).watchers d.2) = _
    rw [pipes_setPipe, if_pos hn, watchers_operate, if_pos hend]
    exact Pipe.watchesOf_cancelled _
  tells_ne {s op d} htells hcloses :=
    collects_ne (handle_iff.mp htells).2 (handle_iff.mp hcloses).2
  notifications {s op} _ _ := by
    show ((s.pipes op.1).operate op.2).2 =
      ((((s.pipes op.1).pipe.closesEnd (s.pipes op.1).pair op.2).map (op.1, ·)).elim [] fun d =>
        cancellations (watchesOf ((s.pipes d.1).watchers d.2))) ++
      (((s.pipes op.1).pipe.collects (s.pipes op.1).pair op.2).map (op.1, ·)).elim [] fun d =>
        changes (((s.setPipe op.1 ((s.pipes op.1).operate op.2).1).pipes d.1).signals d.2)
          (watchesOf (((s.setPipe op.1 ((s.pipes op.1).operate op.2).1).pipes d.1).watchers d.2))
    unfold WatchedPair.operate
    refine congrArg₂ _ ?_ ?_
    · cases (s.pipes op.1).pipe.closesEnd (s.pipes op.1).pair op.2 <;> rfl
    · cases (s.pipes op.1).pipe.collects (s.pipes op.1).pair op.2 with
      | none => rfl
      | some e =>
          show _ = changes (((s.setPipe op.1 _).pipes op.1).signals e)
            (watchesOf (((s.setPipe op.1 _).pipes op.1).watchers e))
          rw [pipes_setPipe, if_pos rfl]
          rfl

/-! ### Traps over pipes of both kinds -/

namespace Dispatchers

variable {σ σ' ι ι' ω ω' : Type}

/-- Objects of two kinds. -/
def sum (D : Dispatchers σ ι ω) (D' : Dispatchers σ' ι' ω') :
    Dispatchers (σ × σ') (ι ⊕ ι') (ω ⊕ ω') where
  querySignals s
    | .inl h => (((D.querySignals s.1 h).1, s.2), (D.querySignals s.1 h).2)
    | .inr h => ((s.1, (D'.querySignals s.2 h).1), (D'.querySignals s.2 h).2)
  startWatch s
    | .inl h, w, c => (((D.startWatch s.1 h w c).1, s.2), (D.startWatch s.1 h w c).2)
    | .inr h, w, c => ((s.1, (D'.startWatch s.2 h w c).1), (D'.startWatch s.2 h w c).2)
  cancelWatch s
    | .inl h, id => (D.cancelWatch s.1 h id, s.2)
    | .inr h, id => (s.1, D'.cancelWatch s.2 h id)
  operate s
    | .inl op => (((D.operate s.1 op).1, s.2), (D.operate s.1 op).2)
    | .inr op => ((s.1, (D'.operate s.2 op).1), (D'.operate s.2 op).2)

theorem map_inl_eq {o : Option ι} {h : ι ⊕ ι'} :
    o.map Sum.inl = some h ↔ ∃ d, h = .inl d ∧ o = some d := by
  rw [Option.map_eq_some_iff]
  exact exists_congr fun d => ⟨fun ⟨ho, hd⟩ => ⟨hd.symm, ho⟩, fun ⟨hd, ho⟩ => ⟨ho, hd.symm⟩⟩

theorem map_inr_eq {o : Option ι'} {h : ι ⊕ ι'} :
    o.map Sum.inr = some h ↔ ∃ d, h = .inr d ∧ o = some d := by
  rw [Option.map_eq_some_iff]
  exact exists_congr fun d => ⟨fun ⟨ho, hd⟩ => ⟨hd.symm, ho⟩, fun ⟨hd, ho⟩ => ⟨ho, hd.symm⟩⟩

/-- Two kinds of objects that treat watches as they should do so together. -/
def Lawful.sum {D : Dispatchers σ ι ω} {D' : Dispatchers σ' ι' ω'} (L : D.Lawful) (L' : D'.Lawful) :
    (D.sum D').Lawful where
  isOpen s := Sum.elim (L.isOpen s.1) (L'.isOpen s.2)
  watches s := Sum.elim (L.watches s.1) (L'.watches s.2)
  signals s := Sum.elim (L.signals s.1) (L'.signals s.2)
  nextId s := Sum.elim (L.nextId s.1) (L'.nextId s.2)
  closes s
    | .inl op => (L.closes s.1 op).map .inl
    | .inr op => (L'.closes s.2 op).map .inr
  tells s
    | .inl op => (L.tells s.1 op).map .inl
    | .inr op => (L'.tells s.2 op).map .inr
  calls := Sum.elim L.calls L'.calls
  inv s := L.inv s.1 ∧ L'.inv s.2
  inv_querySignals {s} h hinv := by
    cases h with
    | inl h => exact ⟨L.inv_querySignals h hinv.1, hinv.2⟩
    | inr h => exact ⟨hinv.1, L'.inv_querySignals h hinv.2⟩
  isOpen_querySignals s h := by
    cases h with
    | inl h => exact congrArg (Sum.elim · _) (L.isOpen_querySignals s.1 h)
    | inr h => exact congrArg (Sum.elim _ ·) (L'.isOpen_querySignals s.2 h)
  watches_querySignals s h := by
    cases h with
    | inl h => exact congrArg (Sum.elim · _) (L.watches_querySignals s.1 h)
    | inr h => exact congrArg (Sum.elim _ ·) (L'.watches_querySignals s.2 h)
  nextId_querySignals s h := by
    cases h with
    | inl h => exact congrArg (Sum.elim · _) (L.nextId_querySignals s.1 h)
    | inr h => exact congrArg (Sum.elim _ ·) (L'.nextId_querySignals s.2 h)
  inv_startWatch {s} h w c hinv := by
    cases h with
    | inl h => exact ⟨L.inv_startWatch h w c hinv.1, hinv.2⟩
    | inr h => exact ⟨hinv.1, L'.inv_startWatch h w c hinv.2⟩
  isOpen_startWatch s h w c := by
    cases h with
    | inl h => exact congrArg (Sum.elim · _) (L.isOpen_startWatch s.1 h w c)
    | inr h => exact congrArg (Sum.elim _ ·) (L'.isOpen_startWatch s.2 h w c)
  id_startWatch s h w c := by
    cases h with
    | inl h => exact L.id_startWatch s.1 h w c
    | inr h => exact L'.id_startWatch s.2 h w c
  nextId_startWatch_le s h w c h' := by
    cases h with
    | inl h =>
        cases h' with
        | inl h' => exact L.nextId_startWatch_le s.1 h w c h'
        | inr h' => exact Nat.le_refl _
    | inr h =>
        cases h' with
        | inl h' => exact Nat.le_refl _
        | inr h' => exact L'.nextId_startWatch_le s.2 h w c h'
  nextId_startWatch s h w c := by
    cases h with
    | inl h => exact L.nextId_startWatch s.1 h w c
    | inr h => exact L'.nextId_startWatch s.2 h w c
  watches_startWatch {s h} w c hopen := by
    cases h with
    | inl h => exact L.watches_startWatch w c hopen
    | inr h => exact L'.watches_startWatch w c hopen
  watches_startWatch_closed {s h} w c hclosed := by
    cases h with
    | inl h => exact L.watches_startWatch_closed w c hclosed
    | inr h => exact L'.watches_startWatch_closed w c hclosed
  watches_startWatch_ne {s h h'} w c hne := by
    cases h with
    | inl h =>
        cases h' with
        | inl h' => exact L.watches_startWatch_ne w c fun heq => hne (congrArg _ heq)
        | inr h' => rfl
    | inr h =>
        cases h' with
        | inl h' => rfl
        | inr h' => exact L'.watches_startWatch_ne w c fun heq => hne (congrArg _ heq)
  inv_cancelWatch {s} h id hinv := by
    cases h with
    | inl h => exact ⟨L.inv_cancelWatch h id hinv.1, hinv.2⟩
    | inr h => exact ⟨hinv.1, L'.inv_cancelWatch h id hinv.2⟩
  isOpen_cancelWatch s h id := by
    cases h with
    | inl h => exact congrArg (Sum.elim · _) (L.isOpen_cancelWatch s.1 h id)
    | inr h => exact congrArg (Sum.elim _ ·) (L'.isOpen_cancelWatch s.2 h id)
  nextId_cancelWatch s h id := by
    cases h with
    | inl h => exact congrArg (Sum.elim · _) (L.nextId_cancelWatch s.1 h id)
    | inr h => exact congrArg (Sum.elim _ ·) (L'.nextId_cancelWatch s.2 h id)
  watches_cancelWatch {s} h id hinv := by
    cases h with
    | inl h => exact L.watches_cancelWatch h id hinv.1
    | inr h => exact L'.watches_cancelWatch h id hinv.2
  watches_cancelWatch_ne {s h h'} id hne := by
    cases h with
    | inl h =>
        cases h' with
        | inl h' => exact L.watches_cancelWatch_ne id fun heq => hne (congrArg _ heq)
        | inr h' => rfl
    | inr h =>
        cases h' with
        | inl h' => rfl
        | inr h' => exact L'.watches_cancelWatch_ne id fun heq => hne (congrArg _ heq)
  inv_operate {s op} hinv hop := by
    cases op with
    | inl op => exact ⟨L.inv_operate hinv.1 hop, hinv.2⟩
    | inr op => exact ⟨hinv.1, L'.inv_operate hinv.2 hop⟩
  nextId_operate s op := by
    cases op with
    | inl op => exact congrArg (Sum.elim · _) (L.nextId_operate s.1 op)
    | inr op => exact congrArg (Sum.elim _ ·) (L'.nextId_operate s.2 op)
  isOpen_operate {s op} h hinv hop := by
    cases op with
    | inl op =>
        cases h with
        | inl h =>
            refine (L.isOpen_operate h hinv.1 hop).trans (and_congr_right' (not_congr ?_))
            exact ⟨congrArg (Option.map Sum.inl), fun heq => by
              obtain ⟨d, hd, ho⟩ := map_inl_eq.mp heq
              rwa [Sum.inl.inj hd]⟩
        | inr h =>
            refine (and_iff_left fun heq => ?_).symm
            obtain ⟨d, hd, -⟩ := map_inl_eq.mp heq
            cases hd
    | inr op =>
        cases h with
        | inl h =>
            refine (and_iff_left fun heq => ?_).symm
            obtain ⟨d, hd, -⟩ := map_inr_eq.mp heq
            cases hd
        | inr h =>
            refine (L'.isOpen_operate h hinv.2 hop).trans (and_congr_right' (not_congr ?_))
            exact ⟨congrArg (Option.map Sum.inr), fun heq => by
              obtain ⟨d, hd, ho⟩ := map_inr_eq.mp heq
              rwa [Sum.inr.inj hd]⟩
  watches_operate {s op h} hinv hop hcloses := by
    cases op with
    | inl op =>
        cases h with
        | inl h =>
            exact L.watches_operate hinv.1 hop fun h => hcloses (congrArg (Option.map Sum.inl) h)
        | inr h => rfl
    | inr op =>
        cases h with
        | inl h => rfl
        | inr h =>
            exact L'.watches_operate hinv.2 hop fun h => hcloses (congrArg (Option.map Sum.inr) h)
  watches_operate_closed {s op h} hinv hop hcloses := by
    cases op with
    | inl op =>
        obtain ⟨d, rfl, hd⟩ := map_inl_eq.mp hcloses
        exact L.watches_operate_closed hinv.1 hop hd
    | inr op =>
        obtain ⟨d, rfl, hd⟩ := map_inr_eq.mp hcloses
        exact L'.watches_operate_closed hinv.2 hop hd
  tells_ne {s op h} htells hcloses := by
    cases op with
    | inl op =>
        obtain ⟨d, rfl, hd⟩ := map_inl_eq.mp htells
        obtain ⟨d', hd', hcloses⟩ := map_inl_eq.mp hcloses
        exact L.tells_ne hd (Sum.inl.inj hd' ▸ hcloses)
    | inr op =>
        obtain ⟨d, rfl, hd⟩ := map_inr_eq.mp htells
        obtain ⟨d', hd', hcloses⟩ := map_inr_eq.mp hcloses
        exact L'.tells_ne hd (Sum.inr.inj hd' ▸ hcloses)
  notifications {s op} hinv hop := by
    cases op with
    | inl op =>
        refine (L.notifications hinv.1 hop).trans (congrArg₂ _ ?_ ?_)
        · show _ = ((L.closes s.1 op).map Sum.inl).elim [] _
          cases L.closes s.1 op <;> rfl
        · show _ = ((L.tells s.1 op).map Sum.inl).elim [] _
          cases L.tells s.1 op <;> rfl
    | inr op =>
        refine (L'.notifications hinv.2 hop).trans (congrArg₂ _ ?_ ?_)
        · show _ = ((L'.closes s.2 op).map Sum.inr).elim [] _
          cases L'.closes s.2 op <;> rfl
        · show _ = ((L'.tells s.2 op).map Sum.inr).elim [] _
          cases L'.tells s.2 op <;> rfl

end Dispatchers

/-- Message pipes and data pipes. -/
def allPipes (η : Type) : Dispatchers (Pipe.MessagePipes η × DataPipes)
    (Nat × Pipe.End ⊕ Nat × DataPipeEnd) (Pipe.MessagePipeOp η ⊕ Nat × DataPipeOp) :=
  (Pipe.messagePipes η).sum dataPipes

/-- Message pipes and data pipes together are lawful. -/
def allPipesLawful (η : Type) : (allPipes η).Lawful := (Pipe.messagePipesLawful η).sum dataPipesLawful

/-- In every run over message pipes and data pipes that adds no trigger with the
context of a live one, the events of every operation go where they belong, and
every trigger is cancelled once and for all. -/
theorem events_attributed {η : Type} (created : Nat → DataPipe)
    (ops : List (TrapOp (Nat × Pipe.End ⊕ Nat × DataPipeEnd)
      (Pipe.MessagePipeOp η ⊕ Nat × DataPipeOp)))
    (h : Lib.Meets (TrapRun.step (allPipes η)) (fun s op => s.state.Fresh (allPipesLawful η) op)
      ⟨⟨(.init, .init created), .create⟩, [], []⟩ ops) :
    Lib.Meets (TrapRun.step (allPipes η)) (fun s op => s.state.Attributes (allPipesLawful η) op)
        ⟨⟨(.init, .init created), .create⟩, [], []⟩ ops ∧
      Lib.Always (TrapRun.step (allPipes η)) TrapRun.Accounted
        ⟨⟨(.init, .init created), .create⟩, [], []⟩ ops := by
  refine TrapRun.attributed ops ⟨⟨nofun, .nil⟩, ?_, nofun, nofun, nofun⟩ h
  refine ⟨⟨⟨fun _ => ⟨.nil, nofun⟩, fun _ => ⟨rfl, fun _ => ⟨.nil, nofun⟩⟩⟩, nofun, .nil, nofun⟩,
    .nil, fun {d} _ => ?_, fun {d} _ => ?_⟩
  · cases d <;> rfl
  · cases d <;> rfl

/-- One trigger on each kind of pipe: a message comes, its reader closes, and
the other trigger is removed. -/
theorem events_attributed_both :
    Lib.Meets (TrapRun.step (allPipes Unit)) (fun s op => s.state.Attributes (allPipesLawful Unit) op)
        ⟨⟨(.init, .init fun _ => ⟨1, 4, by decide, by decide, by decide⟩), .create⟩, [], []⟩
        [.addTrigger (.inl (0, .a)) .readable 7, .addTrigger (.inr (0, .consumer)) .readable 8, .arm,
          .operate (.inl (.write (0, .b) ⟨[1], []⟩)), .operate (.inl (.close (0, .a))),
          .removeTrigger 8] ∧
      Lib.Always (TrapRun.step (allPipes Unit)) TrapRun.Accounted
        ⟨⟨(.init, .init fun _ => ⟨1, 4, by decide, by decide, by decide⟩), .create⟩, [], []⟩
        [.addTrigger (.inl (0, .a)) .readable 7, .addTrigger (.inr (0, .consumer)) .readable 8, .arm,
          .operate (.inl (.write (0, .b) ⟨[1], []⟩)), .operate (.inl (.close (0, .a))),
          .removeTrigger 8] :=
  events_attributed _ _
    ⟨nofun, by show ∀ t ∈ Trap.live _, t.context ≠ 8; decide +kernel, trivial, trivial, trivial,
      trivial, trivial⟩

/-- Two triggers with one context: the second handle is closed, and the trigger
on the first is cancelled. -/
theorem events_astray :
    ¬(Lib.Meets (TrapRun.step (allPipes Unit))
        (fun s op => s.state.Attributes (allPipesLawful Unit) op)
        ⟨⟨(.init, .init fun _ => ⟨1, 4, by decide, by decide, by decide⟩), .create⟩, [], []⟩
        [.addTrigger (.inl (0, .a)) .readable 7, .addTrigger (.inl (1, .a)) .readable 7,
          .operate (.inl (.close (1, .a)))] ∧
      Lib.Always (TrapRun.step (allPipes Unit)) TrapRun.Accounted
        ⟨⟨(.init, .init fun _ => ⟨1, 4, by decide, by decide, by decide⟩), .create⟩, [], []⟩
        [.addTrigger (.inl (0, .a)) .readable 7, .addTrigger (.inl (1, .a)) .readable 7,
          .operate (.inl (.close (1, .a)))]) := by
  rintro ⟨h, -⟩
  have hclose := h.2.2.1.1
  revert hclose
  decide +kernel

end MojoRs.Core
