/-
MojoRs/Core/MessagePipe.lean

A message pipe (`pipe.rs`), function by function: two endpoints with a FIFO
queue each, a write enqueues at the peer.

Handles attached to messages and watch callbacks are abstract, `η` and `κ`.  An
operation returns, besides its result, the callbacks that it invokes after the
lock is released, in their order.  The lock is never poisoned (no operation
panics under it), so the `Internal` error does not occur.  Watch ids come from
a counter that all pipes share, and are an argument here.
-/
import Mathlib.Logic.Function.Basic
import MojoRs.Core.Error
import MojoRs.Core.Signal

namespace MojoRs.Core.Pipe

open Function (update)

/-- One end of a message pipe pair. -/
inductive End
  | a
  | b
  deriving DecidableEq, Repr

/-- The other end. -/
def End.peer : End → End
  | .a => .b
  | .b => .a

@[simp] theorem End.peer_peer (e : End) : e.peer.peer = e := by cases e <;> rfl

theorem End.peer_ne (e : End) : e.peer ≠ e := by cases e <;> decide

/-- A message in transit (`message.rs`): its payload and its handles. -/
structure Message (η : Type) where
  data : List UInt8
  handles : List η
  deriving DecidableEq, Repr

/-- A watch on an end. -/
structure WatcherRegistration (κ : Type) where
  id : Nat
  signals : Signals
  callback : κ
  cancelled : Bool
  deriving DecidableEq, Repr

/-- Why a watch callback fired. -/
inductive WatchKind
  | changed
  | cancelled
  deriving DecidableEq, Repr

/-- A callback to invoke, with its arguments. -/
structure Notification (κ : Type) where
  callback : κ
  state : SignalsState
  kind : WatchKind
  deriving DecidableEq, Repr

variable {η κ : Type}

/-- One end of a message pipe. -/
structure EndpointState (η κ : Type) where
  localClosed : Bool
  peerClosed : Bool
  queue : List (Message η)
  queuedBytes : Nat
  watchers : List (WatcherRegistration κ)
  deriving DecidableEq, Repr

/-- The outcome of a read. -/
inductive ReadOutcome (η : Type)
  | message (data : List UInt8) (handles : List η)
  | tooLarge (size : Nat)
  deriving DecidableEq, Repr

namespace EndpointState

/-- An end that is open, its queue empty. -/
def new : EndpointState η κ := ⟨false, false, [], 0, []⟩

/-- `signals_of`: an endpoint is dead when its peer is closed and its queue is
empty. -/
def signalsOf (ep : EndpointState η κ) : SignalsState :=
  if ep.localClosed then .empty
  else
    let satisfiable := Signals.peerClosed ||| Signals.quotaExceeded
    let (satisfied, satisfiable) :=
      if ep.peerClosed then (Signals.peerClosed, satisfiable)
      else (Signals.writable, satisfiable ||| Signals.writable ||| Signals.peerRemote)
    let dead := ep.peerClosed && ep.queue.isEmpty
    let satisfiable := if dead then satisfiable else satisfiable ||| Signals.readable
    let satisfied := if ep.queue.isEmpty then satisfied else satisfied ||| Signals.readable
    ⟨satisfied, satisfiable⟩

/-- `collect_notifications`: the live watchers whose signals are satisfied or
unsatisfiable now. -/
def collectNotifications (ep : EndpointState η κ) : List (Notification κ) :=
  let state := ep.signalsOf
  (ep.watchers.filter fun w =>
    !w.cancelled && (state.isSatisfied w.signals || state.isUnsatisfiable w.signals)).map
    fun w => ⟨w.callback, state, .changed⟩

/-- `cancel_watchers`. -/
def cancelWatchers (ep : EndpointState η κ) : EndpointState η κ × List (Notification κ) :=
  ({ ep with watchers := ep.watchers.map fun w => { w with cancelled := true } },
    (ep.watchers.filter (!·.cancelled)).map fun w => ⟨w.callback, .empty, .cancelled⟩)

/-- Cancel the first watcher with the id `id`. -/
def cancelWatcher (id : Nat) : List (WatcherRegistration κ) → List (WatcherRegistration κ)
  | [] => []
  | w :: ws => if w.id = id then { w with cancelled := true } :: ws else w :: cancelWatcher id ws

end EndpointState

/-- The state that both endpoints share. -/
structure PipeState (η κ : Type) where
  endpoints : End → EndpointState η κ

namespace PipeState

/-- `MessagePipe::create`. -/
def create : PipeState η κ := ⟨fun _ => .new⟩

/-- Change the state of an end. -/
def setEndpoint (s : PipeState η κ) (e : End) (ep : EndpointState η κ) : PipeState η κ :=
  ⟨update s.endpoints e ep⟩

@[simp] theorem endpoints_setEndpoint (s : PipeState η κ) (e : End) (ep : EndpointState η κ) :
    (s.setEndpoint e ep).endpoints e = ep := Function.update_self ..

theorem endpoints_setEndpoint_ne (s : PipeState η κ) {e e' : End} (ep : EndpointState η κ)
    (h : e' ≠ e) : (s.setEndpoint e ep).endpoints e' = s.endpoints e' := Function.update_of_ne h ..

/-- `MessagePipe::query_signals`. -/
def querySignals (s : PipeState η κ) (e : End) : SignalsState := (s.endpoints e).signalsOf

/-- `MessagePipe::write`. -/
def write (s : PipeState η κ) (e : End) (message : Message η) :
    PipeState η κ × CoreResult Unit × List (Notification κ) :=
  let this := s.endpoints e
  if this.localClosed then (s, .error .invalidArgument, [])
  else if this.peerClosed then (s, .error .failedPrecondition, [])
  else
    let peer := s.endpoints e.peer
    let peer := { peer with
      queue := peer.queue ++ [message]
      queuedBytes := peer.queuedBytes + message.data.length }
    (s.setEndpoint e.peer peer, .ok (), peer.collectNotifications)

/-- `MessagePipe::read`: a message that is too large goes back to the front. -/
def read (s : PipeState η κ) (e : End) (maxNumBytes : Option Nat) (mayDiscard : Bool) :
    PipeState η κ × CoreResult (ReadOutcome η) × List (Notification κ) :=
  let ep := s.endpoints e
  if ep.localClosed then (s, .error .invalidArgument, [])
  else
    match ep.queue with
    | [] => (s, .error (if ep.peerClosed then .failedPrecondition else .shouldWait), [])
    | message :: queue =>
        let dataLen := message.data.length
        let ep := { ep with queue, queuedBytes := ep.queuedBytes - dataLen }
        if maxNumBytes.any (decide <| dataLen > ·) && !mayDiscard then
          let ep := { ep with
            queue := message :: ep.queue
            queuedBytes := ep.queuedBytes + dataLen }
          (s.setEndpoint e ep, .ok (.tooLarge dataLen), [])
        else
          (s.setEndpoint e ep, .ok (.message message.data message.handles),
            ep.collectNotifications)

/-- `MessagePipe::close`: the watchers of this end are cancelled, those of the
peer are told. -/
def close (s : PipeState η κ) (e : End) : PipeState η κ × List (Notification κ) :=
  let ep := s.endpoints e
  if ep.localClosed then (s, [])
  else
    let (ep, cancelledHere) := ({ ep with localClosed := true } : EndpointState η κ).cancelWatchers
    let peer := { s.endpoints e.peer with peerClosed := true }
    ((s.setEndpoint e ep).setEndpoint e.peer peer, cancelledHere ++ peer.collectNotifications)

/-- `MessagePipe::register_watch`: nothing is registered at a closed end. -/
def registerWatch (s : PipeState η κ) (e : End) (id : Nat) (signals : Signals) (callback : κ) :
    PipeState η κ :=
  let ep := s.endpoints e
  if ep.localClosed then s
  else s.setEndpoint e { ep with watchers := ep.watchers ++ [⟨id, signals, callback, false⟩] }

/-- `MessagePipe::cancel_registered_watch`. -/
def cancelRegisteredWatch (s : PipeState η κ) (e : End) (id : Nat) : PipeState η κ :=
  let ep := s.endpoints e
  s.setEndpoint e { ep with watchers := EndpointState.cancelWatcher id ep.watchers }

end PipeState

end MojoRs.Core.Pipe
