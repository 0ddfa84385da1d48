/-
MojoRs/Core/Trap.lean

Traps (`trap.rs`), function by function, over the objects that handles lead to
(`dispatcher.rs`).

The objects are a record of the functions that a trap calls, with the
operations of their users; what these have to do with watches is stated apart,
in `Dispatchers.Lawful`.  A watch callback knows its trap and a trigger context
only, so with one trap it is the context.  Callbacks run after the locks are
released; the user's callback does not call back.

An event is kept with the entry of the trigger list that it was made for.
-/
import MojoRs.Core.MessagePipe
import MojoRs.Lib.Run

namespace MojoRs.Core

open Pipe (Notification WatchKind)

/-- The objects behind the handles `ι`, with state `σ`, as a trap sees them
(`trait Dispatcher`), and the operations `ω` of their users.  Callbacks are
trigger contexts. -/
structure Dispatchers (σ ι ω : Type) where
  querySignals : σ → ι → σ × SignalsState
  startWatch : σ → ι → Signals → Nat → σ × Nat
  cancelWatch : σ → ι → Nat → σ
  /-- An operation, with the watch callbacks that it invokes. -/
  operate : σ → ω → σ × List (Notification Nat)

/-- An event delivered for a trigger. -/
structure TrapEvent where
  triggerContext : Nat
  signalsState : SignalsState
  result : CoreError
  deriving DecidableEq, Repr

/-- A trigger of a trap, with the watch it has at its dispatcher. -/
structure Trigger (ι : Type) where
  watch : Nat
  dispatcher : ι
  signals : Signals
  context : Nat
  removed : Bool
  deriving DecidableEq, Repr

/-- `TrapInner`. -/
structure Trap (ι : Type) where
  triggers : List (Trigger ι)
  armed : Bool
  deriving DecidableEq, Repr

/-- An event, with the trigger that it was made for. -/
structure Delivery (ι : Type) where
  trigger : Trigger ι
  event : TrapEvent
  deriving DecidableEq, Repr

variable {σ ι ω : Type}

namespace Trigger

/-- The trigger is what a search for `context` looks for. -/
def answers (t : Trigger ι) (context : Nat) : Bool := t.context == context && !t.removed

/-- The first trigger that answers is marked removed, and returned as it was. -/
def takeFirst (context : Nat) : List (Trigger ι) → Option (Trigger ι × List (Trigger ι))
  | [] => none
  | t :: ts =>
      if t.answers context then some (t, { t with removed := true } :: ts)
      else (takeFirst context ts).map fun (u, us) => (u, t :: us)

/-- `Trap::fire_cancelled`. -/
def cancelled (t : Trigger ι) : Delivery ι := ⟨t, t.context, .empty, .cancelled⟩

end Trigger

namespace Trap

/-- `Trap::create`. -/
def create : Trap ι := ⟨[], false⟩

/-- The triggers that are not removed. -/
def live (trap : Trap ι) : List (Trigger ι) := trap.triggers.filter (!·.removed)

/-- `Trap::on_watch`: a cancellation removes the first trigger with the
context, also of an unarmed trap; a change disarms. -/
def onWatch (trap : Trap ι) (n : Notification Nat) : Trap ι × List (Delivery ι) :=
  match n.kind with
  | .cancelled =>
      match Trigger.takeFirst n.callback trap.triggers with
      | none => (trap, [])
      | some (t, triggers) => ({ trap with triggers }, [t.cancelled])
  | .changed =>
      if !trap.armed then (trap, [])
      else
        match trap.triggers.find? (·.answers n.callback) with
        | none => (trap, [])
        | some t =>
            let result := if n.state.isSatisfied t.signals then .ok else .failedPrecondition
            ({ trap with armed := false }, [⟨t, n.callback, n.state, result⟩])

/-- The callbacks of one operation, in their order. -/
def onWatches (trap : Trap ι) : List (Notification Nat) → Trap ι × List (Delivery ι)
  | [] => (trap, [])
  | n :: ns =>
      let (trap, deliveries) := trap.onWatch n
      let (trap, deliveries') := trap.onWatches ns
      (trap, deliveries ++ deliveries')

end Trap

/-- A trap and the objects that it may watch. -/
structure TrapState (σ ι : Type) where
  objects : σ
  trap : Trap ι

namespace TrapState

variable (D : Dispatchers σ ι ω)

/-- `Trap::add_trigger`. -/
def addTrigger (s : TrapState σ ι) (dispatcher : ι) (signals : Signals) (context : Nat) :
    TrapState σ ι :=
  let (objects, watch) := D.startWatch s.objects dispatcher signals context
  let trigger := { watch, dispatcher, signals, context, removed := false }
  { objects, trap := { s.trap with triggers := s.trap.triggers ++ [trigger] } }

/-- `Trap::remove_trigger`, by context. -/
def removeTrigger (s : TrapState σ ι) (context : Nat) :
    TrapState σ ι × CoreResult Unit × List (Delivery ι) :=
  match Trigger.takeFirst context s.trap.triggers with
  | none => (s, .error .notFound, [])
  | some (t, triggers) =>
      let objects := D.cancelWatch s.objects t.dispatcher t.watch
      ({ objects, trap := { s.trap with triggers } }, .ok (), [t.cancelled])

/-- The events that keep a trap from being armed; a trigger that watches no
signals always does. -/
def immediate (objects : σ) : List (Trigger ι) → σ × List (Delivery ι)
  | [] => (objects, [])
  | t :: ts =>
      if t.removed then immediate objects ts
      else
        let (objects, state) := D.querySignals objects t.dispatcher
        let (objects, deliveries) := immediate objects ts
        (objects,
          if t.signals.isEmpty then ⟨t, t.context, .empty, .failedPrecondition⟩ :: deliveries
          else if state.isSatisfied t.signals then ⟨t, t.context, state, .ok⟩ :: deliveries
          else if state.isUnsatisfiable t.signals then
            ⟨t, t.context, state, .failedPrecondition⟩ :: deliveries
          else deliveries)

/-- `Trap::arm`. -/
def arm (s : TrapState σ ι) : TrapState σ ι × CoreResult Unit × List (Delivery ι) :=
  if s.trap.armed then (s, .ok (), [])
  else
    let (objects, deliveries) := immediate D s.objects s.trap.triggers
    if deliveries.isEmpty then
      ({ objects, trap := { s.trap with armed := true } }, .ok (), [])
    else ({ s with objects }, .error .failedPrecondition, deliveries)

/-- `Trap::close`: the triggers are drained, and their watches cancelled. -/
def close (s : TrapState σ ι) : TrapState σ ι × List (Delivery ι) :=
  let triggers := s.trap.live
  let objects := triggers.foldl (fun objects t => D.cancelWatch objects t.dispatcher t.watch)
    s.objects
  ({ objects, trap := { s.trap with triggers := [] } }, triggers.map (·.cancelled))

/-- An operation on the objects, and the callbacks that it invokes. -/
def operate (s : TrapState σ ι) (op : ω) : TrapState σ ι × List (Delivery ι) :=
  let (objects, notifications) := D.operate s.objects op
  let (trap, deliveries) := s.trap.onWatches notifications
  ({ objects, trap }, deliveries)

end TrapState

/-- What the user of a trap and of its objects may do. -/
inductive TrapOp (ι ω : Type)
  | addTrigger (dispatcher : ι) (signals : Signals) (context : Nat)
  | removeTrigger (context : Nat)
  | arm
  | close
  | operate (op : ω)
  deriving DecidableEq, Repr

/-- An operation, with the events that it delivers. -/
def TrapState.run (D : Dispatchers σ ι ω) (s : TrapState σ ι) :
    TrapOp ι ω → TrapState σ ι × List (Delivery ι)
  | .addTrigger dispatcher signals context => (s.addTrigger D dispatcher signals context, [])
  | .removeTrigger context => ((s.removeTrigger D context).1, (s.removeTrigger D context).2.2)
  | .arm => ((s.arm D).1, (s.arm D).2.2)
  | .close => s.close D
  | .operate op => s.operate D op

/-! ### Searching the triggers -/

namespace Trigger

variable {context : Nat} {ts us : List (Trigger ι)} {t : Trigger ι}

theorem answers_iff : t.answers context = true ↔ t.context = context ∧ t.removed = false := by
  rw [answers, Bool.and_eq_true, beq_iff_eq, Bool.not_eq_true']

/-- What is taken is the first trigger that answers. -/
theorem takeFirst_eq_some (h : takeFirst context ts = some (t, us)) :
    t.answers context = true ∧ ∃ before after, ts = before ++ t :: after ∧
      us = before ++ { t with removed := true } :: after ∧
        ∀ u ∈ before, u.answers context = false := by
  induction ts generalizing us with
  | nil => cases h
  | cons u ts ih =>
      rw [takeFirst] at h
      split_ifs at h with hu
      · cases h
        exact ⟨hu, [], ts, rfl, rfl, nofun⟩
      · obtain ⟨⟨v, vs⟩, htake, heq⟩ := Option.map_eq_some_iff.mp h
        cases heq
        obtain ⟨ht, before, after, rfl, rfl, hbefore⟩ := ih htake
        refine ⟨ht, u :: before, after, rfl, rfl, ?_⟩
        rintro v (- | ⟨_, hv⟩)
        · exact Bool.eq_false_iff.mpr hu
        · exact hbefore v hv

theorem takeFirst_eq_none : takeFirst context ts = none ↔ ∀ t ∈ ts, t.answers context = false := by
  induction ts with
  | nil => exact iff_of_true rfl nofun
  | cons u ts ih =>
      rw [takeFirst, List.forall_mem_cons, ← ih]
      split_ifs with hu
      · exact iff_of_false nofun fun h => Bool.eq_false_iff.mp h.1 hu
      · rw [Option.map_eq_none_iff]
        exact (and_iff_right (Bool.eq_false_iff.mpr hu)).symm

end Trigger

/-! ### What the objects have to do -/

/-- A watch that is not cancelled. -/
structure Watch where
  id : Nat
  signals : Signals
  context : Nat
  deriving DecidableEq, Repr

/-- The watch is to be called back in this state. -/
def Watch.fires (state : SignalsState) (w : Watch) : Bool :=
  state.isSatisfied w.signals || state.isUnsatisfiable w.signals

/-- The callbacks when a handle with these watches is closed. -/
def cancellations (ws : List Watch) : List (Notification Nat) :=
  ws.map fun w => ⟨w.context, .empty, .cancelled⟩

/-- The callbacks when the signals of a handle with these watches may have
changed. -/
def changes (state : SignalsState) (ws : List Watch) : List (Notification Nat) :=
  (ws.filter (·.fires state)).map fun w => ⟨w.context, state, .changed⟩

theorem kind_of_mem_changes {state : SignalsState} {ws : List Watch} {n : Notification Nat}
    (h : n ∈ changes state ws) : n.kind = .changed := by
  obtain ⟨w, -, rfl⟩ := List.mem_map.mp h
  rfl

/-- The objects keep, for every handle, the watches in the order in which they
were started.  Closing a handle cancels its watches, and an operation tells the
watches of at most one other handle about its signals. -/
structure Dispatchers.Lawful (D : Dispatchers σ ι ω) where
  isOpen : σ → ι → Prop
  watches : σ → ι → List Watch
  signals : σ → ι → SignalsState
  nextId : σ → ι → Nat
  /-- The handle that an operation closes. -/
  closes : σ → ω → Option ι
  /-- The handle whose watches an operation tells of its signals. -/
  tells : σ → ω → Option ι
  /-- The operation is called as its contract asks. -/
  calls : ω → Prop
  inv : σ → Prop
  inv_querySignals {s} (h) : inv s → inv (D.querySignals s h).1
  isOpen_querySignals (s h) : isOpen (D.querySignals s h).1 = isOpen s
  watches_querySignals (s h) : watches (D.querySignals s h).1 = watches s
  nextId_querySignals (s h) : nextId (D.querySignals s h).1 = nextId s
  inv_startWatch {s} (h w c) : inv s → inv (D.startWatch s h w c).1
  isOpen_startWatch (s h w c) : isOpen (D.startWatch s h w c).1 = isOpen s
  id_startWatch (s h w c) : (D.startWatch s h w c).2 = nextId s h
  nextId_startWatch_le (s h w c h') : nextId s h' ≤ nextId (D.startWatch s h w c).1 h'
  nextId_startWatch (s h w c) : nextId s h < nextId (D.startWatch s h w c).1 h
  watches_startWatch {s h} (w c) : isOpen s h →
    watches (D.startWatch s h w c).1 h = watches s h ++ [⟨nextId s h, w, c⟩]
  watches_startWatch_closed {s h} (w c) : ¬isOpen s h →
    watches (D.startWatch s h w c).1 h = watches s h
  watches_startWatch_ne {s h h'} (w c) : h' ≠ h →
    watches (D.startWatch s h w c).1 h' = watches s h'
  inv_cancelWatch {s} (h id) : inv s → inv (D.cancelWatch s h id)
  isOpen_cancelWatch (s h id) : isOpen (D.cancelWatch s h id) = isOpen s
  nextId_cancelWatch (s h id) : nextId (D.cancelWatch s h id) = nextId s
  watches_cancelWatch {s} (h id) : inv s →
    watches (D.cancelWatch s h id) h = (watches s h).filter (·.id ≠ id)
  watches_cancelWatch_ne {s h h'} (id) : h' ≠ h →
    watches (D.cancelWatch s h id) h' = watches s h'
  inv_operate {s op} : inv s → calls op → inv (D.operate s op).1
  nextId_operate (s op) : nextId (D.operate s op).1 = nextId s
  isOpen_operate {s op} (h) : inv s → calls op →
    (isOpen (D.operate s op).1 h ↔ isOpen s h ∧ closes s op ≠ some h)
  watches_operate {s op h} : inv s → calls op → closes s op ≠ some h →
    watches (D.operate s op).1 h = watches s h
  watches_operate_closed {s op h} : inv s → calls op → closes s op = some h →
    isOpen s h ∧ watches (D.operate s op).1 h = []
  tells_ne {s op h} : tells s op = some h → closes s op ≠ some h
  notifications {s op} : inv s → calls op → (D.operate s op).2 =
    ((closes s op).elim [] fun h => cancellations (watches s h)) ++
      (tells s op).elim [] fun h =>
        changes (signals (D.operate s op).1 h) (watches (D.operate s op).1 h)

/-! ### Message pipes -/

namespace Pipe

/-- All message pipes, and the counter of watch ids that they share. -/
structure MessagePipes (η : Type) where
  nextWatchId : Nat
  pipes : Nat → PipeState η Nat

/-- What the holder of an endpoint may do. -/
inductive MessagePipeOp (η : Type)
  | write (handle : Nat × End) (message : Message η)
  | read (handle : Nat × End) (maxNumBytes : Option Nat) (mayDiscard : Bool)
  | close (handle : Nat × End)
  deriving DecidableEq, Repr

namespace MessagePipes

open Function (update)

variable {η : Type}

/-- `NEXT_WATCH_ID` starts at one. -/
def init : MessagePipes η := ⟨1, fun _ => .create⟩

/-- The endpoint of a handle. -/
def endpoint (s : MessagePipes η) (h : Nat × End) : EndpointState η Nat :=
  (s.pipes h.1).endpoints h.2

/-- Change one pipe. -/
def setPipe (s : MessagePipes η) (n : Nat) (pipe : PipeState η Nat) : MessagePipes η :=
  { s with pipes := update s.pipes n pipe }

/-- One call on a pipe, with the notifications it sends. -/
def operate (s : MessagePipes η) : MessagePipeOp η → MessagePipes η × List (Notification Nat)
  | .write h message =>
      let (pipe, _, notifications) := (s.pipes h.1).write h.2 message
      (s.setPipe h.1 pipe, notifications)
  | .read h maxNumBytes mayDiscard =>
      let (pipe, _, notifications) := (s.pipes h.1).read h.2 maxNumBytes mayDiscard
      (s.setPipe h.1 pipe, notifications)
  | .close h =>
      let (pipe, notifications) := (s.pipes h.1).close h.2
      (s.setPipe h.1 pipe, notifications)

end MessagePipes

/-- Message pipes as dispatchers (`MessagePipeDispatcher`). -/
def messagePipes (η : Type) : Dispatchers (MessagePipes η) (Nat × End) (MessagePipeOp η) where
  querySignals s h := (s, (s.pipes h.1).querySignals h.2)
  startWatch s h signals context :=
    let pipe := (s.pipes h.1).registerWatch h.2 s.nextWatchId signals context
    ({ s.setPipe h.1 pipe with nextWatchId := s.nextWatchId + 1 }, s.nextWatchId)
  cancelWatch s h id := s.setPipe h.1 ((s.pipes h.1).cancelRegisteredWatch h.2 id)
  operate := MessagePipes.operate

end Pipe

end MojoRs.Core
