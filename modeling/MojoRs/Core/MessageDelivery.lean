/-
MojoRs/Core/MessageDelivery.lean

What comes through a message pipe.  A run is any sequence of operations on its
two ends.  Three ghost fields record, for each end, the messages that were
successfully written to it, those that reads returned there, and whether its
own close was called.

The invariant is an equation for each end: what was returned, followed by the
queue, is what was written.  The closed flags agree with the calls of close,
so that nothing is written to a closed end or by one.

Main result: `delivery`.
-/
import MojoRs.Core.MessagePipe
import MojoRs.Lib.Run

namespace MojoRs.Core.Pipe

open Function (update)
open Lib

variable {η κ : Type}

/-- The public operations on a pipe. -/
inductive PipeOp (η κ : Type)
  | write (e : End) (message : Message η)
  | read (e : End) (maxNumBytes : Option Nat) (mayDiscard : Bool)
  | close (e : End)
  | registerWatch (e : End) (id : Nat) (signals : Signals) (callback : κ)
  | cancelWatch (e : End) (id : Nat)
  deriving DecidableEq, Repr

/-- The state of the pipe after an operation. -/
def PipeState.apply (s : PipeState η κ) : PipeOp η κ → PipeState η κ
  | .write e message => (s.write e message).1
  | .read e maxNumBytes mayDiscard => (s.read e maxNumBytes mayDiscard).1
  | .close e => (s.close e).1
  | .registerWatch e id signals callback => s.registerWatch e id signals callback
  | .cancelWatch e id => s.cancelRegisteredWatch e id

/-- A pipe with its history. -/
structure PipeRun (η κ : Type) where
  pipe : PipeState η κ
  /-- Successfully written to this end. -/
  written : End → List (Message η)
  /-- Returned by reads at this end. -/
  returned : End → List (Message η)
  closeCalled : End → Bool

namespace PipeRun

/-- A new pipe, nothing written and nothing read. -/
def init : PipeRun η κ := ⟨.create, fun _ => [], fun _ => [], fun _ => false⟩

/-- One call, with what it accepts or delivers. -/
def step (s : PipeRun η κ) (op : PipeOp η κ) : PipeRun η κ :=
  let s' := { s with pipe := s.pipe.apply op }
  match op with
  | .write e message =>
      match (s.pipe.write e message).2.1 with
      | .ok () => { s' with
          written := update s.written e.peer (s.written e.peer ++ [message]) }
      | .error _ => s'
  | .read e maxNumBytes mayDiscard =>
      match (s.pipe.read e maxNumBytes mayDiscard).2.1 with
      | .ok (.message data handles) => { s' with
          returned := update s.returned e (s.returned e ++ [⟨data, handles⟩]) }
      | _ => s'
  | .close e => { s' with closeCalled := update s.closeCalled e true }
  | _ => s'

/-- What a user of the pipe may rely on. -/
structure Delivers (s : PipeRun η κ) : Prop where
  fifo : ∀ e, s.returned e <+: s.written e
  bytes : ∀ e, (s.pipe.endpoints e).queuedBytes =
    ((s.pipe.endpoints e).queue.map (·.data.length)).sum
  tooLarge : ∀ e maxNumBytes mayDiscard size,
    (s.pipe.read e maxNumBytes mayDiscard).2.1 = .ok (.tooLarge size) → ∀ e',
      ((s.pipe.read e maxNumBytes mayDiscard).1.endpoints e').queue =
          (s.pipe.endpoints e').queue ∧
        ((s.pipe.read e maxNumBytes mayDiscard).1.endpoints e').queuedBytes =
          (s.pipe.endpoints e').queuedBytes
  closed : ∀ e maxNumBytes mayDiscard,
    (s.pipe.read e maxNumBytes mayDiscard).2.1 = .error .failedPrecondition →
      s.closeCalled e.peer = true ∧ s.returned e = s.written e

end PipeRun

/-! ### The cases of an operation -/

section Cases

variable (s : PipeState η κ) (e : End)

/-- A read fails, or puts the first message back, or takes it. -/
theorem read_cases (maxNumBytes : Option Nat) (mayDiscard : Bool) :
    (s.read e maxNumBytes mayDiscard = (s, .error .invalidArgument, []) ∧
        (s.endpoints e).localClosed = true) ∨
      (s.read e maxNumBytes mayDiscard =
          (s, .error (if (s.endpoints e).peerClosed then .failedPrecondition else .shouldWait), []) ∧
        (s.endpoints e).queue = []) ∨
      ∃ message queue, (s.endpoints e).queue = message :: queue ∧
        (s.read e maxNumBytes mayDiscard =
            (s.setEndpoint e { s.endpoints e with
              queuedBytes := (s.endpoints e).queuedBytes - message.data.length +
                message.data.length }, .ok (.tooLarge message.data.length), []) ∨
          s.read e maxNumBytes mayDiscard =
            let ep := { s.endpoints e with
              queue := queue
              queuedBytes := (s.endpoints e).queuedBytes - message.data.length }
            (s.setEndpoint e ep, .ok (.message message.data message.handles),
              ep.collectNotifications)) := by
  unfold PipeState.read
  dsimp only
  by_cases hclosed : (s.endpoints e).localClosed = true
  · exact .inl ⟨if_pos hclosed, hclosed⟩
  · rw [if_neg hclosed]
    right
    cases hqueue : (s.endpoints e).queue with
    | nil => exact .inl ⟨rfl, rfl⟩
    | cons message queue =>
        refine .inr ⟨message, queue, rfl, ?_⟩
        dsimp only
        split_ifs with hlarge
        · exact .inl rfl
        · exact .inr rfl

/-- A write fails, or appends at the peer, and then neither end is closed. -/
theorem write_cases (message : Message η) :
    (∃ err, s.write e message = (s, .error err, [])) ∨
      ((s.endpoints e).localClosed = false ∧ (s.endpoints e).peerClosed = false ∧
        s.write e message =
          let peer := { s.endpoints e.peer with
            queue := (s.endpoints e.peer).queue ++ [message]
            queuedBytes := (s.endpoints e.peer).queuedBytes + message.data.length }
          (s.setEndpoint e.peer peer, .ok (), peer.collectNotifications)) := by
  unfold PipeState.write
  dsimp only
  split_ifs with hlocal hpeer
  · exact .inl ⟨_, rfl⟩
  · exact .inl ⟨_, rfl⟩
  · exact .inr ⟨by simpa using hlocal, by simpa using hpeer, rfl⟩

/-- The endpoints after a close. -/
theorem endpoints_close (e' : End) : ((s.close e).1.endpoints e') =
    if (s.endpoints e).localClosed then s.endpoints e'
    else if e' = e then
      (({ s.endpoints e with localClosed := true } : EndpointState η κ).cancelWatchers).1
    else { s.endpoints e' with peerClosed := true } := by
  unfold PipeState.close
  dsimp only
  split_ifs with hclosed he
  · rfl
  · subst he
    rw [PipeState.endpoints_setEndpoint_ne _ _ (End.peer_ne e').symm,
      PipeState.endpoints_setEndpoint]
  · have hpeer : e' = e.peer := by
      revert he
      cases e <;> cases e' <;> simp [End.peer]
    rw [hpeer, PipeState.endpoints_setEndpoint]

end Cases

/-! ### The invariant of a run -/

namespace PipeRun

/-- The messages of an end, and its flags. -/
structure Inv (s : PipeRun η κ) : Prop where
  queue : ∀ e, s.returned e ++ (s.pipe.endpoints e).queue = s.written e
  bytes : ∀ e, (s.pipe.endpoints e).queuedBytes =
    ((s.pipe.endpoints e).queue.map (·.data.length)).sum
  localClosed : ∀ e, (s.pipe.endpoints e).localClosed = s.closeCalled e
  peerClosed : ∀ e, (s.pipe.endpoints e).peerClosed = s.closeCalled e.peer

theorem Inv.init : Inv (PipeRun.init : PipeRun η κ) :=
  ⟨fun _ => rfl, fun _ => rfl, fun _ => rfl, fun _ => rfl⟩

variable {s : PipeRun η κ}

/-- An end changed in its queue, its bytes and its watchers only. -/
theorem Inv.setEndpoint (hi : s.Inv) {e : End} {ep : EndpointState η κ}
    {written returned : End → List (Message η)}
    (hqueue : returned e ++ ep.queue = written e)
    (hbytes : ep.queuedBytes = (ep.queue.map (·.data.length)).sum)
    (hlocal : ep.localClosed = (s.pipe.endpoints e).localClosed)
    (hpeer : ep.peerClosed = (s.pipe.endpoints e).peerClosed)
    (hothers : ∀ e', e' ≠ e → returned e' = s.returned e' ∧ written e' = s.written e') :
    Inv ⟨s.pipe.setEndpoint e ep, written, returned, s.closeCalled⟩ := by
  have hep (e' : End) : (s.pipe.setEndpoint e ep).endpoints e' =
      if e' = e then ep else s.pipe.endpoints e' := by
    simp only [PipeState.setEndpoint, Function.update_apply]
  refine ⟨fun e' => ?_, fun e' => ?_, fun e' => ?_, fun e' => ?_⟩
  all_goals
    simp only [hep]
    split_ifs with he
  · exact he ▸ hqueue
  · rw [(hothers e' he).1, (hothers e' he).2]
    exact hi.queue e'
  · exact hbytes
  · exact hi.bytes e'
  · rw [hlocal, he]
    exact hi.localClosed e
  · exact hi.localClosed e'
  · rw [hpeer, he]
    exact hi.peerClosed e
  · exact hi.peerClosed e'

theorem Inv.write (hi : s.Inv) (e : End) (message : Message η) :
    (s.step (.write e message)).Inv := by
  rcases write_cases s.pipe e message with ⟨err, h⟩ | ⟨-, -, h⟩
  · simp only [step, PipeState.apply, h]
    exact hi
  · simp only [step, PipeState.apply, h]
    refine hi.setEndpoint ?_ ?_ rfl rfl fun e' he => ⟨rfl, Function.update_of_ne he ..⟩
    · rw [Function.update_self, ← hi.queue, List.append_assoc]
    · simp [hi.bytes]

theorem Inv.read (hi : s.Inv) (e : End) (maxNumBytes : Option Nat) (mayDiscard : Bool) :
    (s.step (.read e maxNumBytes mayDiscard)).Inv := by
  rcases read_cases s.pipe e maxNumBytes mayDiscard with
    ⟨h, -⟩ | ⟨h, -⟩ | ⟨message, queue, hqueue, h | h⟩
  · simp only [step, PipeState.apply, h]
    exact hi
  · simp only [step, PipeState.apply, h]
    exact hi
  · simp only [step, PipeState.apply, h]
    refine hi.setEndpoint (hi.queue e) ?_ rfl rfl fun e' _ => ⟨rfl, rfl⟩
    have hbytes := hi.bytes e
    rw [hqueue] at hbytes
    simp only [hbytes, hqueue, List.map_cons, List.sum_cons, Nat.add_sub_cancel_left]
    exact Nat.add_comm _ _
  · simp only [step, PipeState.apply, h]
    refine hi.setEndpoint ?_ ?_ rfl rfl fun e' he => ⟨Function.update_of_ne he .., rfl⟩
    · rw [Function.update_self, ← hi.queue, hqueue, List.append_assoc]
      rfl
    · have hbytes := hi.bytes e
      rw [hqueue] at hbytes
      simp only [hbytes, List.map_cons, List.sum_cons, Nat.add_sub_cancel_left]

theorem Inv.close (hi : s.Inv) (e : End) : (s.step (.close e)).Inv := by
  have hep := endpoints_close s.pipe e
  by_cases hclosed : (s.pipe.endpoints e).localClosed = true
  · -- a second close changes nothing
    have hpipe : (s.pipe.close e).1 = s.pipe := by
      unfold PipeState.close
      exact congrArg Prod.fst (if_pos hclosed)
    have hcalled : update s.closeCalled e true = s.closeCalled := by
      rw [← hclosed, hi.localClosed, Function.update_eq_self]
    simp only [step, PipeState.apply, hpipe, hcalled]
    exact hi
  · simp only [if_neg hclosed] at hep
    refine ⟨fun e' => ?_, fun e' => ?_, fun e' => ?_, fun e' => ?_⟩
    all_goals
      simp only [step, PipeState.apply, hep]
      by_cases he : e' = e
    · subst he
      rw [if_pos rfl]
      exact hi.queue e'
    · rw [if_neg he]
      exact hi.queue e'
    · subst he
      rw [if_pos rfl]
      exact hi.bytes e'
    · rw [if_neg he]
      exact hi.bytes e'
    · subst he
      rw [if_pos rfl, Function.update_self]
      rfl
    · rw [if_neg he, Function.update_of_ne he]
      exact hi.localClosed e'
    · subst he
      rw [if_pos rfl, Function.update_of_ne (End.peer_ne e')]
      exact hi.peerClosed e'
    · have hpeer : e'.peer = e := by
        revert he
        cases e <;> cases e' <;> simp [End.peer]
      rw [if_neg he, hpeer, Function.update_self]

/-- Watches are not messages. -/
theorem Inv.watch (hi : s.Inv) (e : End) (watchers : List (WatcherRegistration κ)) :
    Inv { s with pipe := s.pipe.setEndpoint e { s.pipe.endpoints e with watchers } } :=
  hi.setEndpoint (hi.queue e) (hi.bytes e) rfl rfl fun _ _ => ⟨rfl, rfl⟩

theorem Inv.step (hi : s.Inv) (op : PipeOp η κ) : (s.step op).Inv := by
  cases op with
  | write e message => exact hi.write e message
  | read e maxNumBytes mayDiscard => exact hi.read e maxNumBytes mayDiscard
  | close e => exact hi.close e
  | cancelWatch e id => exact hi.watch e _
  | registerWatch e id signals callback =>
      simp only [PipeRun.step, PipeState.apply, PipeState.registerWatch]
      split_ifs
      · exact hi
      · exact hi.watch e _

theorem Inv.delivers (hi : s.Inv) : s.Delivers := by
  refine ⟨fun e => ⟨_, hi.queue e⟩, hi.bytes, ?_, ?_⟩
  · intro e maxNumBytes mayDiscard size hread e'
    rcases read_cases s.pipe e maxNumBytes mayDiscard with
      ⟨h, -⟩ | ⟨h, -⟩ | ⟨message, queue, hqueue, h | h⟩
    · rw [h] at hread
      cases hread
    · rw [h] at hread
      cases hread
    · rw [h]
      by_cases he : e' = e
      · subst he
        have hbytes := hi.bytes e'
        rw [hqueue, List.map_cons, List.sum_cons] at hbytes
        rw [PipeState.endpoints_setEndpoint]
        refine ⟨rfl, Nat.sub_add_cancel ?_⟩
        exact hbytes ▸ Nat.le_add_right _ _
      · rw [PipeState.endpoints_setEndpoint_ne _ _ he]
        exact ⟨rfl, rfl⟩
    · rw [h] at hread
      cases hread
  · intro e maxNumBytes mayDiscard hread
    rcases read_cases s.pipe e maxNumBytes mayDiscard with
      ⟨h, -⟩ | ⟨h, hempty⟩ | ⟨message, queue, hqueue, h | h⟩
    · rw [h] at hread
      cases hread
    · rw [h] at hread
      have hqueue := hi.queue e
      rw [hempty, List.append_nil] at hqueue
      refine ⟨?_, hqueue⟩
      rw [← hi.peerClosed]
      by_contra hopen
      rw [if_neg hopen] at hread
      cases hread
    · rw [h] at hread
      cases hread
    · rw [h] at hread
      cases hread

/-- In every run, reads return a prefix of what was written, unchanged and in
order; the counter of queued bytes is right; a message that is too large stays;
and a failed precondition means that the peer is closed and all is read. -/
theorem delivery (ops : List (PipeOp η κ)) : Always step Delivers init ops :=
  (always_of_step (fun _ op hi => hi.step op) Inv.init ops).imp fun _ hi => hi.delivers

end PipeRun

end MojoRs.Core.Pipe
