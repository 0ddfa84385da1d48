/-
MojoRs/Core/BlockingWait.lean

Threads that block until signals are final (`wait.rs`).  `Waiter::wait` queries
the signals, registers a watch, queries again, and parks on a condition variable
until a callback of its watch has set the flag of the `Waiter`.

Any number of threads run it on the two ends of a message pipe, while anybody
else writes, reads, closes and watches.  Each access to the pipe, to the flag or
to the clock is one step, and so is each half of a callback: it sets the flag
under its lock, and notifies after the lock is released.  A callback runs some
time after the operation that collected it.  The condition variable may wake a
thread for no reason, and a timeout may be reported together with a
notification.  No lock is poisoned, so the `Internal` errors do not occur.

No wakeup is lost: a parked thread whose signals are final has a callback on its
way.  What a call returns is true: beside a run it is written down what the last
query of each thread found (`ObservedWaits`), and a returned state is just that.
No lost wakeup needs each thread to have its own `Waiter`: the flag of a shared
one is taken by whoever comes first (`shared_loses`).

Main result: `waits_sound`.
-/
import MojoRs.Core.SignalFinality

namespace MojoRs.Core

open Function (update)
open Lib Pipe

/-! ### Threads -/

/-- A call of `Waiter::wait`, with its deadline on the clock. -/
structure WaitCall where
  endpoint : End
  signals : Signals
  deadline : Option Nat
  deriving DecidableEq, Repr

/-- Where a thread is in `Waiter::wait`, with the id of its watch. -/
inductive WaitPoint
  | idle
  /-- The head of the loop. -/
  | query
  | expiry
  | register
  | recheck (id : Nat)
  | lock (id : Nat)
  | parked (id : Nat)
  /-- Woken, before it has the lock again. -/
  | woke (id : Nat) (timedOut : Bool)
  /-- About to cancel the watch, and then to return or to loop. -/
  | cancel (id : Nat) (result : Option (CoreResult SignalsState))
  | returned (result : CoreResult SignalsState)
  deriving DecidableEq, Repr

/-- The watch of a thread. -/
def WaitPoint.watch : WaitPoint → Option Nat
  | .recheck id | .lock id | .parked id | .woke id _ | .cancel id _ => some id
  | _ => none

/-- A thread with the call it makes, and where it is in it. -/
structure WaitThread where
  call : WaitCall
  point : WaitPoint
  deriving DecidableEq, Repr

namespace Pipe

variable {η κ : Type}

/-- The state of the pipe after an operation, and the callbacks it invokes. -/
def PipeState.perform (s : PipeState η κ) : PipeOp η κ → PipeState η κ × List (Notification κ)
  | .write e message => ((s.write e message).1, (s.write e message).2.2)
  | .read e maxNumBytes mayDiscard =>
      ((s.read e maxNumBytes mayDiscard).1, (s.read e maxNumBytes mayDiscard).2.2)
  | .close e => s.close e
  | .registerWatch e id signals callback => (s.registerWatch e id signals callback, [])
  | .cancelWatch e id => (s.cancelRegisteredWatch e id, [])

theorem PipeState.perform_fst (s : PipeState η κ) (op : PipeOp η κ) :
    (s.perform op).1 = s.apply op := by
  cases op <;> rfl

/-- The signals are satisfied, or can never be. -/
def PipeState.Ready (s : PipeState η κ) (e : End) (signals : Signals) : Prop :=
  (s.querySignals e).isSatisfied signals = true ∨ (s.querySignals e).isUnsatisfiable signals = true

end Pipe

/-! ### The system -/

/-- Threads `ι` that use `Waiter`s `ω`.  A watch calls back a `Waiter`, or
somebody else. -/
structure WaitSystem (ι ω η : Type) where
  pipe : PipeState η (Option ω)
  now : Nat
  nextWatchId : Nat
  threads : ι → WaitThread
  /-- The flag of a `Waiter`. -/
  woken : ω → Bool
  /-- Callbacks that were collected and have not run yet. -/
  calls : ω → Nat
  /-- Callbacks that have set the flag and have not notified yet. -/
  notifies : ω → Nat

/-- The steps of threads that share pipes and waiters. -/
inductive WaitOp (ι ω η : Type)
  | call (t : ι) (c : WaitCall)
  /-- The next step of a thread that is not parked. -/
  | run (t : ι)
  /-- A parked thread wakes by a timeout or for no reason. -/
  | wakeUp (t : ι) (timedOut : Bool)
  /-- A callback sets the flag. -/
  | deliver (w : ω)
  /-- A callback notifies. -/
  | notify (w : ω)
  | tick
  /-- An operation on the pipe by anybody. -/
  | pipe (op : Pipe.PipeOp η (Option ω))

/-- The callbacks of a `Waiter` among those collected. -/
def callbacksOf {ω : Type} [DecidableEq ω] (ns : List (Notification (Option ω))) (w : ω) : Nat :=
  ns.countP fun n => n.callback = some w

namespace WaitSystem

variable {ι ω η : Type} [DecidableEq ι] [DecidableEq ω] (user : ι → ω)

/-- Where a thread is. -/
def setPoint (s : WaitSystem ι ω η) (t : ι) (point : WaitPoint) : WaitSystem ι ω η :=
  { s with threads := update s.threads t { s.threads t with point } }

/-- The flag of a waiter. -/
def setWoken (s : WaitSystem ι ω η) (w : ω) (b : Bool) : WaitSystem ι ω η :=
  { s with woken := update s.woken w b }

/-- An operation on the pipe, with the callbacks that it collects. -/
def perform (s : WaitSystem ι ω η) (op : Pipe.PipeOp η (Option ω)) : WaitSystem ι ω η :=
  let (pipe, ns) := s.pipe.perform op
  { s with pipe, calls := fun w => s.calls w + callbacksOf ns w }

/-- The deadline of the call has passed. -/
def expired (s : WaitSystem ι ω η) (t : ι) : Bool :=
  (s.threads t).call.deadline.any (· ≤ s.now)

/-- What a query of the signals says to a call: the result, or nothing yet. -/
def verdict (s : WaitSystem ι ω η) (c : WaitCall) : Option (CoreResult SignalsState) :=
  let state := s.pipe.querySignals c.endpoint
  if state.isSatisfied c.signals then some (.ok state)
  else if state.isUnsatisfiable c.signals then some (.error .failedPrecondition)
  else none

/-- The next step of a thread in `Waiter::wait`. -/
def run (s : WaitSystem ι ω η) (t : ι) : WaitSystem ι ω η :=
  let c := (s.threads t).call
  match (s.threads t).point with
  | .idle | .parked _ | .returned _ => s
  | .query =>
      match s.verdict c with
      | some result => s.setPoint t (.returned result)
      | none => s.setPoint t .expiry
  | .expiry =>
      if s.expired t then s.setPoint t (.returned (.error .deadlineExceeded))
      else s.setPoint t .register
  | .register =>
      let op := .registerWatch c.endpoint s.nextWatchId c.signals (some (user t))
      let s' := { s.perform op with nextWatchId := s.nextWatchId + 1 }
      s'.setPoint t (.recheck s.nextWatchId)
  | .recheck id =>
      match s.verdict c with
      | some result => s.setPoint t (.cancel id (some result))
      | none => s.setPoint t (.lock id)
  | .lock id =>
      if s.woken (user t) then (s.setWoken (user t) false).setPoint t (.cancel id none)
      else if s.expired t then s.setPoint t (.cancel id (some (.error .deadlineExceeded)))
      else s.setPoint t (.parked id)
  | .woke id timedOut =>
      if timedOut && !s.woken (user t) then
        s.setPoint t (.cancel id (some (.error .deadlineExceeded)))
      else (s.setWoken (user t) false).setPoint t (.cancel id none)
  | .cancel id result =>
      (s.perform (.cancelWatch c.endpoint id)).setPoint t
        (match result with
        | some result => .returned result
        | none => .query)

/-- Every thread that is parked with `Waiter` `w` wakes. -/
def notifyAll (s : WaitSystem ι ω η) (w : ω) : WaitSystem ι ω η :=
  { s with
    threads := fun t =>
      match (s.threads t).point with
      | .parked id =>
          if user t = w then { s.threads t with point := .woke id false } else s.threads t
      | _ => s.threads t }

/-- One step of the threads. -/
def step (s : WaitSystem ι ω η) : WaitOp ι ω η → WaitSystem ι ω η
  | .call t c =>
      match (s.threads t).point with
      | .idle | .returned _ => { s with threads := update s.threads t ⟨c, .query⟩ }
      | _ => s
  | .run t => s.run user t
  | .wakeUp t timedOut =>
      match (s.threads t).point with
      | .parked id =>
          if timedOut && !s.expired t then s else s.setPoint t (.woke id timedOut)
      | _ => s
  | .deliver w =>
      if s.calls w = 0 then s
      else
        { s.setWoken w true with
          calls := update s.calls w (s.calls w - 1)
          notifies := update s.notifies w (s.notifies w + 1) }
  | .notify w =>
      if s.notifies w = 0 then s
      else { s.notifyAll user w with notifies := update s.notifies w (s.notifies w - 1) }
  | .tick => { s with now := s.now + 1 }
  | .pipe op =>
      match op with
      | .registerWatch .. => { s.perform op with nextWatchId := s.nextWatchId + 1 }
      | _ => s.perform op

/-- Others take their watch ids from the counter, and cancel only their own
watches. -/
def Legal (s : WaitSystem ι ω η) : WaitOp ι ω η → Prop
  | .pipe (.registerWatch _ id _ callback) => id = s.nextWatchId ∧ callback = none
  | .pipe (.cancelWatch _ id) => ∀ t, (s.threads t).point.watch ≠ some id
  | _ => True

/-- A new pipe, and nobody waits. -/
def start : WaitSystem ι ω η :=
  ⟨.create, 0, 1, fun _ => ⟨⟨.a, .none, none⟩, .idle⟩, fun _ => false, fun _ => 0, fun _ => 0⟩

/-! ### What is to hold -/

/-- The signals of a call are final. -/
def Ready (s : WaitSystem ι ω η) (t : ι) : Prop :=
  s.pipe.Ready (s.threads t).call.endpoint (s.threads t).call.signals

/-- A parked thread whose signals are final will be notified. -/
def NoLostWakeup (s : WaitSystem ι ω η) : Prop :=
  ∀ t id, (s.threads t).point = .parked id → s.Ready t →
    0 < s.calls (user t) ∨ 0 < s.notifies (user t)

/-- The result of a call is so: a state with the signals, or they are
unsatisfiable, or the deadline has passed. -/
def Holds (s : WaitSystem ι ω η) (t : ι) : CoreResult SignalsState → Prop
  | .ok state => state.isSatisfied (s.threads t).call.signals = true
  | .error e =>
      e = .failedPrecondition ∧ (s.pipe.querySignals (s.threads t).call.endpoint).isUnsatisfiable
          (s.threads t).call.signals = true ∨
        e = .deadlineExceeded ∧ s.expired t = true

end WaitSystem

/-- The points at which a thread queries the signals. -/
def WaitPoint.queries : WaitPoint → Bool
  | .query | .recheck _ => true
  | _ => false

/-- The result that a thread has, whether it has returned or is about to. -/
def WaitPoint.result : WaitPoint → Option (CoreResult SignalsState)
  | .returned result => some result
  | .cancel _ result => result
  | _ => none

/-- The system, with what the last query of each thread found. -/
structure ObservedWaits (ι ω η : Type) where
  waits : WaitSystem ι ω η
  found : ι → SignalsState

namespace ObservedWaits

variable {ι ω η : Type} [DecidableEq ι] [DecidableEq ω] (user : ι → ω)

/-- A step of the system.  The signals are those of the pipe when a thread is at a
query, whatever the thread makes of them. -/
def step (o : ObservedWaits ι ω η) (op : WaitOp ι ω η) : ObservedWaits ι ω η where
  waits := o.waits.step user op
  found :=
    match op with
    | .run t =>
        let thread := o.waits.threads t
        if thread.point.queries then
          update o.found t (o.waits.pipe.querySignals thread.call.endpoint)
        else o.found
    | _ => o.found

/-- Nobody has queried anything. -/
def start : ObservedWaits ι ω η := ⟨.start, fun _ => .empty⟩

/-- Calls return what is so, and a state is the one that their last query found. -/
def Truthful (o : ObservedWaits ι ω η) : Prop :=
  ∀ t result, (o.waits.threads t).point = .returned result →
    o.waits.Holds t result ∧ ∀ state, result = .ok state → state = o.found t

/-- The state that a thread has as its result is the one it found. -/
def Found (o : ObservedWaits ι ω η) : Prop :=
  ∀ t state, (o.waits.threads t).point.result = some (.ok state) → state = o.found t

end ObservedWaits

/-! ### What a pipe tells a watch -/

namespace Pipe

variable {η κ : Type} {s s' : PipeState η κ} {ns : List (Notification κ)} {e : End}
  {r : WatcherRegistration κ}

/-- A live watch stays at its end until that is closed, and when its signals
become final it is called back. -/
structure Tells (s s' : PipeState η κ) (ns : List (Notification κ)) (e : End)
    (r : WatcherRegistration κ) : Prop where
  kept : (s'.endpoints e).localClosed = true ∨ r ∈ (s'.endpoints e).watchers
  told : s'.Ready e r.signals → s.Ready e r.signals ∨ ∃ n ∈ ns, n.callback = r.callback

/-- Where an end does not change, nothing becomes final. -/
theorem Tells.same (hr : r ∈ (s.endpoints e).watchers) (h : s'.endpoints e = s.endpoints e) :
    Tells s s' ns e r := by
  refine ⟨.inr (h ▸ hr), fun hready => .inl ?_⟩
  unfold PipeState.Ready PipeState.querySignals at *
  rwa [h] at hready

/-- Collecting the notifications at an end finds the watch. -/
theorem mem_collectNotifications {ep : EndpointState η κ} (hr : r ∈ ep.watchers)
    (hlive : r.cancelled = false)
    (hready : ep.signalsOf.isSatisfied r.signals = true ∨
      ep.signalsOf.isUnsatisfiable r.signals = true) :
    ∃ n ∈ ep.collectNotifications, n.callback = r.callback := by
  refine ⟨⟨r.callback, ep.signalsOf, .changed⟩, List.mem_map.mpr ⟨r, ?_, rfl⟩, rfl⟩
  refine List.mem_filter.mpr ⟨hr, ?_⟩
  rw [hlive, Bool.not_false, Bool.true_and, Bool.or_eq_true]
  exact hready

/-- A change at one end, after which the notifications of this end are
collected. -/
theorem Tells.collect {e' : End} {ep : EndpointState η κ} (hr : r ∈ (s.endpoints e).watchers)
    (hlive : r.cancelled = false) (hwatchers : ep.watchers = (s.endpoints e').watchers)
    (hns : ∀ n ∈ ep.collectNotifications, n ∈ ns) : Tells s (s.setEndpoint e' ep) ns e r := by
  by_cases he : e = e'
  · subst he
    have hmem : r ∈ ep.watchers := hwatchers ▸ hr
    refine ⟨.inr (by rwa [PipeState.endpoints_setEndpoint]), fun hready => .inr ?_⟩
    unfold PipeState.Ready PipeState.querySignals at hready
    rw [PipeState.endpoints_setEndpoint] at hready
    obtain ⟨n, hn, hcallback⟩ := mem_collectNotifications hmem hlive hready
    exact ⟨n, hns n hn, hcallback⟩
  · exact .same hr (PipeState.endpoints_setEndpoint_ne _ _ he)

/-- A change at one end that does not change its signals. -/
theorem Tells.quiet {e' : End} {ep : EndpointState η κ} (hr : r ∈ (s.endpoints e).watchers)
    (hkept : e = e' → r ∈ ep.watchers) (hsignals : ep.signalsOf = (s.endpoints e').signalsOf) :
    Tells s (s.setEndpoint e' ep) ns e r := by
  by_cases he : e = e'
  · subst he
    refine ⟨.inr (by rw [PipeState.endpoints_setEndpoint]; exact hkept rfl), fun hready => .inl ?_⟩
    unfold PipeState.Ready PipeState.querySignals at *
    rwa [PipeState.endpoints_setEndpoint, hsignals] at hready
  · exact .same hr (PipeState.endpoints_setEndpoint_ne _ _ he)

theorem mem_cancelWatcher {id : Nat} (h : r.id ≠ id) {ws : List (WatcherRegistration κ)}
    (hr : r ∈ ws) : r ∈ EndpointState.cancelWatcher id ws := by
  induction ws with
  | nil => cases hr
  | cons w ws ih =>
      unfold EndpointState.cancelWatcher
      rcases List.mem_cons.mp hr with rfl | hr
      · rw [if_neg h]
        exact List.mem_cons_self
      · split_ifs
        · exact List.mem_cons_of_mem _ hr
        · exact List.mem_cons_of_mem _ (ih hr)

/-- A close calls back the watches of its end, and tells those of the peer. -/
theorem close_tells (hr : r ∈ (s.endpoints e).watchers) (hlive : r.cancelled = false) (e' : End) :
    Tells s (s.close e').1 (s.close e').2 e r := by
  by_cases hclosed : (s.endpoints e').localClosed = true
  · rw [show s.close e' = (s, []) from if_pos hclosed]
    exact .same hr rfl
  have hend := endpoints_close s e' e
  rw [if_neg hclosed] at hend
  have hns : (s.close e').2 =
      ((s.endpoints e').watchers.filter (!·.cancelled)).map (fun w => ⟨w.callback, .empty, .cancelled⟩) ++
        ({ s.endpoints e'.peer with peerClosed := true } : EndpointState η κ).collectNotifications := by
    unfold PipeState.close
    dsimp only
    rw [if_neg hclosed]
    rfl
  by_cases he : e = e'
  · subst he
    rw [if_pos rfl] at hend
    refine ⟨.inl (by rw [hend]; rfl), fun _ => .inr ?_⟩
    refine ⟨⟨r.callback, .empty, .cancelled⟩, ?_, rfl⟩
    rw [hns]
    refine List.mem_append_left _ (List.mem_map.mpr ⟨r, List.mem_filter.mpr ⟨hr, ?_⟩, rfl⟩)
    rw [hlive, Bool.not_false]
  · rw [if_neg he] at hend
    have hpeer : e = e'.peer := by
      revert he
      cases e <;> cases e' <;> simp [End.peer]
    refine ⟨.inr (by rw [hend]; exact hr), fun hready => .inr ?_⟩
    unfold PipeState.Ready PipeState.querySignals at hready
    rw [hend] at hready
    have hr' : r ∈ ({ s.endpoints e with peerClosed := true } : EndpointState η κ).watchers := hr
    obtain ⟨n, hn, hcallback⟩ := mem_collectNotifications hr' hlive hready
    refine ⟨n, ?_, hcallback⟩
    rw [hns, ← hpeer]
    exact List.mem_append_right _ hn

theorem registerWatch_live (s : PipeState η κ) (e : End) (id : Nat) (signals : Signals)
    (callback : κ) :
    ((s.registerWatch e id signals callback).endpoints e).localClosed = true ∨
      ⟨id, signals, callback, false⟩ ∈
        ((s.registerWatch e id signals callback).endpoints e).watchers := by
  unfold PipeState.registerWatch
  dsimp only
  split_ifs with hclosed
  · exact .inl hclosed
  · rw [PipeState.endpoints_setEndpoint]
    exact .inr (List.mem_append_right _ (List.mem_singleton.mpr rfl))

/-- Every operation but its own cancellation tells a watch what it has to
know. -/
theorem perform_tells (hr : r ∈ (s.endpoints e).watchers) (hlive : r.cancelled = false)
    (op : PipeOp η κ) (hop : ∀ e', op ≠ .cancelWatch e' r.id) :
    Tells s (s.perform op).1 (s.perform op).2 e r := by
  cases op with
  | write e' message =>
      show Tells s (s.write e' message).1 (s.write e' message).2.2 e r
      rcases write_cases s e' message with ⟨err, hw⟩ | ⟨-, -, hw⟩
      · rw [hw]
        exact .same hr rfl
      · rw [hw]
        exact .collect hr hlive rfl fun _ hn => hn
  | read e' maxNumBytes mayDiscard =>
      show Tells s (s.read e' maxNumBytes mayDiscard).1 (s.read e' maxNumBytes mayDiscard).2.2 e r
      rcases read_cases s e' maxNumBytes mayDiscard with
        ⟨h, -⟩ | ⟨h, -⟩ | ⟨message, queue, hqueue, h | h⟩
      · rw [h]
        exact .same hr rfl
      · rw [h]
        exact .same hr rfl
      · rw [h]
        exact .quiet hr (fun he => he ▸ hr) rfl
      · rw [h]
        exact .collect hr hlive rfl fun _ hn => hn
  | close e' => exact close_tells hr hlive e'
  | registerWatch e' id signals callback =>
      show Tells s (s.registerWatch e' id signals callback) [] e r
      unfold PipeState.registerWatch
      dsimp only
      split_ifs
      · exact .same hr rfl
      · exact .quiet hr (fun he => List.mem_append_left _ (he ▸ hr)) rfl
  | cancelWatch e' id =>
      refine .quiet hr (fun he => ?_) rfl
      exact mem_cancelWatcher (fun hid => hop e' (by rw [hid])) (he ▸ hr)

end Pipe

/-! ### The invariant -/

namespace WaitSystem

section Results

variable {ι ω η : Type} {s s' : WaitSystem ι ω η} {t : ι}

theorem expired_mono (hcall : (s'.threads t).call = (s.threads t).call) (hnow : s.now ≤ s'.now)
    (h : s.expired t = true) : s'.expired t = true := by
  unfold expired at *
  rw [hcall]
  obtain ⟨dl, hdl, hle⟩ := (Option.any_eq_true _ _).mp h
  exact (Option.any_eq_true _ _).mpr ⟨dl, hdl, decide_eq_true ((of_decide_eq_true hle).trans hnow)⟩

/-- What a call returned stays so. -/
theorem Holds.mono {result : CoreResult SignalsState}
    (hcall : (s'.threads t).call = (s.threads t).call) (hlater : Later s.pipe s'.pipe)
    (hnow : s.now ≤ s'.now) (h : s.Holds t result) : s'.Holds t result := by
  cases result with
  | ok state =>
      unfold Holds at *
      rwa [hcall]
  | error e =>
      rcases h with ⟨he, hunsat⟩ | ⟨he, hexpired⟩
      · refine .inl ⟨he, ?_⟩
        rw [hcall]
        exact (covers_of_later hlater _).isUnsatisfiable hunsat
      · exact .inr ⟨he, expired_mono hcall hnow hexpired⟩

/-- A verdict is so. -/
theorem holds_of_verdict {result : CoreResult SignalsState}
    (h : s.verdict (s.threads t).call = some result) : s.Holds t result := by
  unfold verdict at h
  dsimp only at h
  split_ifs at h with hsat hunsat
  · injection h with h
    subst h
    exact hsat
  · injection h with h
    subst h
    exact .inl ⟨rfl, hunsat⟩

/-- Without a verdict the signals are not final. -/
theorem not_ready_of_verdict (h : s.verdict (s.threads t).call = none) : ¬s.Ready t := by
  unfold verdict at h
  dsimp only at h
  split_ifs at h with hsat hunsat
  rintro (hready | hready)
  · exact hsat hready
  · exact hunsat hready

end Results

variable {ι ω η : Type} {user : ι → ω} {s s' : WaitSystem ι ω η}

section Invariant

variable (user)

/-- The watch of a thread is at its end, unless that is closed. -/
def Watching (s : WaitSystem ι ω η) (t : ι) (id : Nat) : Prop :=
  let c := (s.threads t).call
  (s.pipe.endpoints c.endpoint).localClosed = true ∨
    ⟨id, c.signals, some (user t), false⟩ ∈ (s.pipe.endpoints c.endpoint).watchers

/-- The thread will not park, or will not stay so. -/
def Pending (s : WaitSystem ι ω η) (t : ι) : Prop :=
  match (s.threads t).point with
  | .lock _ => 0 < s.calls (user t) ∨ s.woken (user t) = true
  | .parked _ => 0 < s.calls (user t) ∨ 0 < s.notifies (user t)
  | _ => True

/-- What holds of one thread. -/
structure ThreadOk (s : WaitSystem ι ω η) (t : ι) : Prop where
  watching : ∀ id, (s.threads t).point.watch = some id → s.Watching user t id
  pending : s.Ready t → s.Pending user t
  result : ∀ result, (s.threads t).point = .returned result ∨
    (∃ id, (s.threads t).point = .cancel id (some result)) → s.Holds t result
  timeout : ∀ id, (s.threads t).point = .woke id true → s.expired t = true

/-- What holds of the system in every run. -/
structure Sound (s : WaitSystem ι ω η) : Prop where
  peers : PeersKnow s.pipe
  fresh : ∀ t id, (s.threads t).point.watch = some id → id < s.nextWatchId
  apart : ∀ t t' id, (s.threads t).point.watch = some id →
    (s.threads t').point.watch = some id → t = t'
  threads : ∀ t, s.ThreadOk user t

/-- What a step does to a thread that it does not move. -/
structure Keeps (s s' : WaitSystem ι ω η) (t : ι) : Prop where
  thread : s'.threads t = s.threads t
  later : Later s.pipe s'.pipe
  now : s.now ≤ s'.now
  watching : ∀ id, (s.threads t).point.watch = some id → s.Watching user t id →
    s'.Watching user t id ∧ (s'.Ready t → s.Ready t ∨ 0 < s'.calls (user t))
  pending : s.Pending user t → s'.Pending user t

end Invariant

/-- A thread that is not moved stays as it should be. -/
theorem ThreadOk.keep {t : ι} (h : s.ThreadOk user t) (hkeeps : Keeps user s s' t) :
    s'.ThreadOk user t := by
  have hthread := hkeeps.thread
  refine ⟨fun id hid => ?_, fun hready => ?_, fun result hresult => ?_, fun id hid => ?_⟩
  · rw [hthread] at hid
    exact (hkeeps.watching id hid (h.watching id hid)).1
  · cases hwatch : (s.threads t).point.watch with
    | none =>
        unfold Pending
        rw [hthread]
        cases hpoint : (s.threads t).point with
        | lock id => rw [hpoint] at hwatch; cases hwatch
        | parked id => rw [hpoint] at hwatch; cases hwatch
        | _ => trivial
    | some id =>
        rcases (hkeeps.watching id hwatch (h.watching id hwatch)).2 hready with hold | hcalls
        · exact hkeeps.pending (h.pending hold)
        · unfold Pending
          split
          · exact .inl hcalls
          · exact .inl hcalls
          · trivial
  · rw [hthread] at hresult
    exact (h.result result hresult).mono (by rw [hthread]) hkeeps.later hkeeps.now
  · rw [hthread] at hid
    exact expired_mono (by rw [hthread]) hkeeps.now (h.timeout id hid)

section Keep

variable {t u : ι}

theorem Keeps.refl (s : WaitSystem ι ω η) (u : ι) : Keeps user s s u :=
  ⟨rfl, .refl _, le_rfl, fun _ _ h => ⟨h, .inl⟩, id⟩

/-- Only what the thread sees counts. -/
theorem Keeps.congr {s'' : WaitSystem ι ω η} (h : Keeps user s s' u)
    (hthread : s''.threads u = s'.threads u) (hpipe : s''.pipe = s'.pipe) (hnow : s''.now = s'.now)
    (hwoken : s''.woken (user u) = s'.woken (user u)) (hcalls : s''.calls = s'.calls)
    (hnotifies : s''.notifies = s'.notifies) : Keeps user s s'' u := by
  refine ⟨hthread.trans h.thread, hpipe ▸ h.later, hnow ▸ h.now, fun id hid hwatching => ?_,
    fun hpending => ?_⟩
  · have hkept := h.watching id hid hwatching
    unfold Watching Ready at *
    rw [hthread, hpipe, hcalls]
    exact hkept
  · have hkept := h.pending hpending
    unfold Pending at *
    rw [hthread, hwoken, hcalls, hnotifies]
    exact hkept

/-- An operation on the pipe, but the cancellation of the watch of the thread. -/
theorem keeps_perform [DecidableEq ω] (hpeers : PeersKnow s.pipe) (op : Pipe.PipeOp η (Option ω))
    (hop : ∀ e id, op = .cancelWatch e id → (s.threads u).point.watch ≠ some id) :
    Keeps user s (s.perform op) u := by
  have hpipe : (s.perform op).pipe = s.pipe.apply op := PipeState.perform_fst _ _
  have hmore : ∀ w, s.calls w ≤ (s.perform op).calls w := fun w => Nat.le_add_right _ _
  refine ⟨rfl, hpipe ▸ (apply_later hpeers op).2, le_rfl, fun id hid hwatching => ?_,
    fun hpending => ?_⟩
  · rcases hwatching with hclosed | hmem
    · refine ⟨.inl ?_, fun _ => .inl ?_⟩
      · rw [hpipe]
        exact (apply_later hpeers op).2.localClosed _ hclosed
      · -- a closed end reports nothing, which is final
        unfold Ready PipeState.Ready PipeState.querySignals EndpointState.signalsOf
        rw [if_pos hclosed]
        unfold SignalsState.isSatisfied SignalsState.isUnsatisfiable SignalsState.empty
        cases Signals.none.contains (s.threads u).call.signals <;> simp
    · have htells := perform_tells hmem rfl op fun e' he' => hop e' id he' hid
      refine ⟨htells.kept, fun hready => ?_⟩
      rcases htells.told hready with hold | ⟨n, hn, hcallback⟩
      · exact .inl hold
      · refine .inr (Nat.add_pos_right _ ?_)
        exact List.countP_pos_iff.mpr ⟨n, hn, decide_eq_true hcallback⟩
  · unfold Pending at *
    show match (s.threads u).point with | .lock _ => _ | .parked _ => _ | _ => _
    split at hpending
    · exact hpending.imp (fun h => h.trans_le (hmore _)) id
    · exact hpending.imp (fun h => h.trans_le (hmore _)) id
    · trivial

variable [DecidableEq ι]

theorem keeps_setPoint (hu : u ≠ t) (point : WaitPoint) : Keeps user s (s.setPoint t point) u :=
  (Keeps.refl s u).congr (Function.update_of_ne hu ..) rfl rfl rfl rfl rfl

/-- A thread takes only its own flag. -/
theorem keeps_takeFlag [DecidableEq ω] (hinj : Function.Injective user) (hu : u ≠ t) (point : WaitPoint) :
    Keeps user s ((s.setWoken (user t) false).setPoint t point) u :=
  (Keeps.refl s u).congr (Function.update_of_ne hu ..) rfl rfl
    (Function.update_of_ne (fun h => hu (hinj h)) ..) rfl rfl

end Keep

/-! ### A step -/

section Step

variable {t : ι}

/-- At a point without a watch there is nothing to keep but the result. -/
theorem threadOk_free (hwatch : (s.threads t).point.watch = none)
    (hresult : ∀ result, (s.threads t).point = .returned result → s.Holds t result) :
    s.ThreadOk user t := by
  refine ⟨fun id hid => ?_, fun _ => ?_, fun result hor => ?_, fun id hid => ?_⟩
  · rw [hwatch] at hid
    cases hid
  · unfold Pending
    cases hpoint : (s.threads t).point with
    | lock id =>
        rw [hpoint] at hwatch
        cases hwatch
    | parked id =>
        rw [hpoint] at hwatch
        cases hwatch
    | _ => trivial
  · rcases hor with hor | ⟨id, hor⟩
    · exact hresult result hor
    · rw [hor] at hwatch
      cases hwatch
  · rw [hid] at hwatch
    cases hwatch

/-- Threads that get no watch keep their ids apart. -/
theorem Sound.of_threads (h : s.Sound user) (hpeers : PeersKnow s'.pipe)
    (hwatch : ∀ u id, (s'.threads u).point.watch = some id → (s.threads u).point.watch = some id)
    (hnext : s.nextWatchId ≤ s'.nextWatchId) (hthreads : ∀ u, s'.ThreadOk user u) :
    s'.Sound user :=
  ⟨hpeers, fun u id hid => (h.fresh u id (hwatch u id hid)).trans_le hnext,
    fun u u' id hid hid' => h.apart u u' id (hwatch u id hid) (hwatch u' id hid'), hthreads⟩

variable [DecidableEq ι]

@[simp] theorem threads_setPoint (s : WaitSystem ι ω η) (t : ι) (point : WaitPoint) :
    (s.setPoint t point).threads t = { s.threads t with point } := Function.update_self ..

theorem threads_setPoint_ne {u : ι} (hu : u ≠ t) (point : WaitPoint) :
    (s.setPoint t point).threads u = s.threads u := Function.update_of_ne hu ..

/-- One thread moves on, with the watch that it has or without. -/
theorem Sound.move (h : s.Sound user) (hpeers : PeersKnow s'.pipe)
    (hnext : s.nextWatchId ≤ s'.nextWatchId) (hkeeps : ∀ u, u ≠ t → Keeps user s s' u)
    (hwatch : ∀ id, (s'.threads t).point.watch = some id → (s.threads t).point.watch = some id)
    (hok : s'.ThreadOk user t) : s'.Sound user := by
  refine h.of_threads hpeers (fun u id hid => ?_) hnext fun u => ?_
  · by_cases hu : u = t
    · subst hu
      exact hwatch id hid
    · rwa [(hkeeps u hu).thread] at hid
  · by_cases hu : u = t
    · subst hu
      exact hok
    · exact (h.threads u).keep (hkeeps u hu)

/-- What a thread needs at its new point. -/
theorem threadOk_setPoint {point : WaitPoint}
    (hwatching : ∀ id, point.watch = some id → s.Watching user t id)
    (hpending : s.Ready t → (s.setPoint t point).Pending user t)
    (hresult : ∀ result, point = .returned result ∨ (∃ id, point = .cancel id (some result)) →
      s.Holds t result)
    (htimeout : ∀ id, point = .woke id true → s.expired t = true) :
    (s.setPoint t point).ThreadOk user t := by
  have hcall : ((s.setPoint t point).threads t).call = (s.threads t).call := by
    rw [threads_setPoint]
  have hpoint : ((s.setPoint t point).threads t).point = point := by rw [threads_setPoint]
  refine ⟨fun id hid => ?_, fun hready => hpending ?_, fun result hor => ?_, fun id hid => ?_⟩
  · unfold Watching
    rw [hcall]
    exact hwatching id (hpoint ▸ hid)
  · unfold Ready at *
    rwa [hcall] at hready
  · rw [hpoint] at hor
    exact (hresult result hor).mono hcall (.refl _) le_rfl
  · rw [hpoint] at hid
    exact expired_mono hcall le_rfl (htimeout id hid)

theorem threadOk_setPoint_free {point : WaitPoint} (hwatch : point.watch = none)
    (hresult : ∀ result, point = .returned result → s.Holds t result) :
    (s.setPoint t point).ThreadOk user t := by
  refine threadOk_free (by rw [threads_setPoint]; exact hwatch) fun result hpoint => ?_
  rw [threads_setPoint] at hpoint
  exact Holds.mono (s := s) (by rw [threads_setPoint]) (.refl _) le_rfl (hresult result hpoint)

/-- A thread that only changes its point. -/
theorem Sound.setPoint (h : s.Sound user) {point : WaitPoint}
    (hwatch : ∀ id, point.watch = some id → (s.threads t).point.watch = some id)
    (hok : (s.setPoint t point).ThreadOk user t) : (s.setPoint t point).Sound user :=
  h.move h.peers le_rfl (fun _ hu => keeps_setPoint hu point)
    (by rw [threads_setPoint]; exact hwatch) hok

/-- The watch stays, and the thread is about to cancel it. -/
theorem Sound.toCancel (h : s.Sound user) {id : Nat} {result : Option (CoreResult SignalsState)}
    (hwatch : (s.threads t).point.watch = some id) (hresult : ∀ r ∈ result, s.Holds t r) :
    (s.setPoint t (.cancel id result)).Sound user := by
  refine h.setPoint (fun id' hid' => hwatch.trans hid') ?_
  refine threadOk_setPoint (fun id' hid' => (h.threads t).watching id' (hwatch.trans hid'))
    (fun _ => ?_) (fun r hr => ?_) fun _ => nofun
  · unfold Pending
    rw [threads_setPoint]
    trivial
  · rcases hr with hr | ⟨id', hr⟩
    · cases hr
    · injection hr with _ hr
      exact hresult r hr

variable [DecidableEq ω]

/-- The same with the flag taken. -/
theorem takeFlag_sound (hinj : Function.Injective user) (h : s.Sound user) {id : Nat}
    (hwatch : (s.threads t).point.watch = some id) :
    ((s.setWoken (user t) false).setPoint t (.cancel id none)).Sound user := by
  refine h.move (t := t) h.peers le_rfl (fun _ hu => keeps_takeFlag hinj hu _) (fun id' hid' => ?_) ?_
  · rw [threads_setPoint] at hid'
    exact hwatch.trans hid'
  · refine threadOk_setPoint (fun id' hid' => (h.threads t).watching id' (hwatch.trans hid'))
      (fun _ => ?_) (fun r hr => ?_) fun _ => nofun
    · unfold Pending
      rw [threads_setPoint]
      trivial
    · rcases hr with hr | ⟨id', hr⟩
      · cases hr
      · cases hr

omit [DecidableEq ι] in
theorem perform_peers (h : PeersKnow s.pipe) (op : Pipe.PipeOp η (Option ω)) :
    PeersKnow (s.perform op).pipe := by
  show PeersKnow (s.pipe.perform op).1
  rw [PipeState.perform_fst]
  exact (apply_later h op).1

/-- The watch is new, and nobody else has its id. -/
theorem register_sound (h : s.Sound user) (hpoint : (s.threads t).point = .register) :
    (s.run user t).Sound user := by
  unfold run
  rw [hpoint]
  dsimp only
  set c := (s.threads t).call with hc
  set op : Pipe.PipeOp η (Option ω) := .registerWatch c.endpoint s.nextWatchId c.signals (some (user t))
  set s' := { s.perform op with nextWatchId := s.nextWatchId + 1 } with hs'
  have hthreads : s'.threads = s.threads := rfl
  have hkeeps : ∀ u, u ≠ t → Keeps user s (s'.setPoint t (.recheck s.nextWatchId)) u := fun u hu =>
    (keeps_perform h.peers op fun _ _ => nofun).congr (Function.update_of_ne hu ..) rfl rfl rfl rfl
      rfl
  -- the watch of `t` is new, the watches of the others are the ones they had
  have hid : ∀ u id, ((s'.setPoint t (.recheck s.nextWatchId)).threads u).point.watch = some id →
      (u = t ∧ id = s.nextWatchId) ∨ (u ≠ t ∧ (s.threads u).point.watch = some id) := by
    intro u id hid
    by_cases hu : u = t
    · subst hu
      rw [threads_setPoint] at hid
      injection hid with hid
      exact .inl ⟨rfl, hid.symm⟩
    · rw [(hkeeps u hu).thread] at hid
      exact .inr ⟨hu, hid⟩
  refine ⟨perform_peers h.peers op, fun u id hu => ?_, fun u u' id hu hu' => ?_, fun u => ?_⟩
  · rcases hid u id hu with ⟨-, rfl⟩ | ⟨-, hold⟩
    · exact Nat.lt_succ_self _
    · exact (h.fresh u id hold).trans (Nat.lt_succ_self _)
  · rcases hid u id hu with ⟨rfl, rfl⟩ | ⟨-, hold⟩
    · rcases hid u' _ hu' with ⟨rfl, -⟩ | ⟨-, hold'⟩
      · rfl
      · exact absurd (h.fresh u' _ hold') (lt_irrefl _)
    · rcases hid u' id hu' with ⟨-, rfl⟩ | ⟨-, hold'⟩
      · exact absurd (h.fresh u _ hold) (lt_irrefl _)
      · exact h.apart u u' id hold hold'
  -- registered, and about to query again: nothing is pending yet
  · by_cases hu : u = t
    · subst hu
      refine threadOk_setPoint (fun id hid' => ?_) (fun _ => ?_) (fun r hr => ?_) fun _ => nofun
      · injection hid' with hid'
        subst hid'
        exact registerWatch_live s.pipe c.endpoint s.nextWatchId c.signals (some (user u))
      · unfold Pending
        rw [threads_setPoint]
        trivial
      · rcases hr with hr | ⟨id', hr⟩
        · cases hr
        · cases hr
    · exact (h.threads u).keep (hkeeps u hu)

/-- The watch is cancelled, and the thread returns or loops. -/
theorem cancel_sound (h : s.Sound user) {id : Nat} {result : Option (CoreResult SignalsState)}
    (hpoint : (s.threads t).point = .cancel id result) : (s.run user t).Sound user := by
  unfold run
  rw [hpoint]
  dsimp only
  set op : Pipe.PipeOp η (Option ω) := .cancelWatch (s.threads t).call.endpoint id with hop
  have hwatch : (s.threads t).point.watch = some id := by
    rw [hpoint]
    rfl
  have hlater : Later s.pipe (s.perform op).pipe := by
    show Later s.pipe (s.pipe.perform op).1
    rw [PipeState.perform_fst]
    exact (apply_later h.peers op).2
  have hkeeps : ∀ point u, u ≠ t → Keeps user s ((s.perform op).setPoint t point) u := by
    intro point u hu
    refine (keeps_perform h.peers op fun e id' he hwatch' => ?_).congr (Function.update_of_ne hu ..)
      rfl rfl rfl rfl rfl
    injection he with _ hid
    subst hid
    exact hu (h.apart u t id hwatch' hwatch)
  cases result with
  | none =>
      refine h.move (t := t) (perform_peers h.peers op) le_rfl (hkeeps _) (fun id' hid' => ?_)
        (threadOk_setPoint_free rfl fun r => nofun)
      rw [threads_setPoint] at hid'
      cases hid'
  | some r =>
      refine h.move (t := t) (perform_peers h.peers op) le_rfl (hkeeps _) (fun id' hid' => ?_)
        (threadOk_setPoint_free rfl fun r' hr => ?_)
      · rw [threads_setPoint] at hid'
        cases hid'
      · injection hr with hr
        subst hr
        exact Holds.mono (s := s) rfl hlater le_rfl ((h.threads t).result r (.inr ⟨id, hpoint⟩))

/-- The step of a thread. -/
theorem run_sound (hinj : Function.Injective user) (h : s.Sound user) (t : ι) :
    (s.run user t).Sound user := by
  cases hpoint : (s.threads t).point with
  -- a thread that does not run takes no step
  | idle =>
      unfold run
      rw [hpoint]
      exact h
  | parked id =>
      unfold run
      rw [hpoint]
      exact h
  | returned result =>
      unfold run
      rw [hpoint]
      exact h
  -- a result is the verdict on the signals of this moment
  | query =>
      unfold run
      rw [hpoint]
      dsimp only
      cases hverdict : s.verdict (s.threads t).call with
      | some result =>
          refine h.setPoint nofun (threadOk_setPoint_free rfl fun r hr => ?_)
          injection hr with hr
          exact hr ▸ holds_of_verdict hverdict
      | none => exact h.setPoint nofun (threadOk_setPoint_free rfl fun r => nofun)
  -- the deadline is the other way to a result
  | expiry =>
      unfold run
      rw [hpoint]
      dsimp only
      split_ifs with hexpired
      · refine h.setPoint nofun (threadOk_setPoint_free rfl fun r hr => ?_)
        injection hr with hr
        exact hr ▸ .inr ⟨rfl, hexpired⟩
      · exact h.setPoint nofun (threadOk_setPoint_free rfl fun r => nofun)
  | register => exact register_sound h hpoint
  | cancel id result => exact cancel_sound h hpoint
  -- registered before this query: not ready now, or the callback comes
  | recheck id =>
      have hwatch : (s.threads t).point.watch = some id := by
        rw [hpoint]
        rfl
      unfold run
      rw [hpoint]
      dsimp only
      cases hverdict : s.verdict (s.threads t).call with
      | some result =>
          refine h.toCancel hwatch fun r hr => ?_
          obtain rfl := Option.some.inj hr
          exact holds_of_verdict hverdict
      | none =>
          refine h.setPoint (fun _ hid => hwatch.trans hid) ?_
          refine threadOk_setPoint (fun id' hid' => (h.threads t).watching id' (hwatch.trans hid'))
            (fun hready => absurd hready (not_ready_of_verdict hverdict)) (fun r hr => ?_)
            fun _ => nofun
          rcases hr with hr | ⟨id', hr⟩
          · cases hr
          · cases hr
  -- the flag under the lock of the `Waiter`: taken, expired, or the thread parks
  | lock id =>
      have hwatch : (s.threads t).point.watch = some id := by
        rw [hpoint]
        rfl
      unfold run
      rw [hpoint]
      dsimp only
      split_ifs with hwoken hexpired
      · exact takeFlag_sound hinj h hwatch
      · refine h.toCancel hwatch fun r hr => ?_
        obtain rfl := Option.some.inj hr
        exact .inr ⟨rfl, hexpired⟩
      · refine h.setPoint (fun _ hid => hwatch.trans hid) ?_
        refine threadOk_setPoint (fun id' hid' => (h.threads t).watching id' (hwatch.trans hid'))
          (fun hready => ?_) (fun r hr => ?_) fun _ => nofun
        · -- the flag is not set, so the callback has not run
          have hpending := (h.threads t).pending hready
          unfold Pending at hpending ⊢
          rw [hpoint] at hpending
          rw [threads_setPoint]
          exact .inl (hpending.resolve_right hwoken)
        · rcases hr with hr | ⟨id', hr⟩
          · cases hr
          · cases hr
  -- awake again: by the clock, or the flag decides
  | woke id timedOut =>
      have hwatch : (s.threads t).point.watch = some id := by
        rw [hpoint]
        rfl
      unfold run
      rw [hpoint]
      dsimp only
      split_ifs with htimeout
      · refine h.toCancel hwatch fun r hr => ?_
        obtain rfl := Option.some.inj hr
        refine .inr ⟨rfl, (h.threads t).timeout id ?_⟩
        rw [hpoint, (Bool.and_eq_true_iff.mp htimeout).1]
      · exact takeFlag_sound hinj h hwatch

/-- A callback sets the flag, and is about to notify. -/
theorem deliver_sound (h : s.Sound user) (w : ω) : (s.step user (.deliver w)).Sound user := by
  show Sound user (if s.calls w = 0 then s else _)
  split_ifs
  · exact h
  refine h.of_threads h.peers (fun _ _ hid => hid) le_rfl fun u => (h.threads u).keep ?_
  refine ⟨rfl, .refl _, le_rfl, fun id _ hwatching => ⟨hwatching, .inl⟩, fun hpending => ?_⟩
  unfold Pending at *
  show match (s.threads u).point with | .lock _ => _ | .parked _ => _ | _ => _
  -- the threads of this `Waiter` have the flag now, the others nothing new
  by_cases hu : user u = w
  · subst hu
    split
    · exact .inr (Function.update_self ..)
    · refine .inr ?_
      show 0 < update s.notifies (user u) (s.notifies (user u) + 1) (user u)
      rw [Function.update_self]
      exact Nat.succ_pos _
    · trivial
  · split at hpending
    · refine hpending.imp (fun hcalls => ?_) fun hwoken => ?_
      · show 0 < update s.calls w (s.calls w - 1) (user u)
        rwa [Function.update_of_ne hu]
      · show update s.woken w true (user u) = true
        rwa [Function.update_of_ne hu]
    · refine hpending.imp (fun hcalls => ?_) fun hnotifies => ?_
      · show 0 < update s.calls w (s.calls w - 1) (user u)
        rwa [Function.update_of_ne hu]
      · show 0 < update s.notifies w (s.notifies w + 1) (user u)
        rwa [Function.update_of_ne hu]
    · trivial

/-- Who is parked with the `Waiter` wakes, and nobody else needs the
notification. -/
theorem notify_sound (h : s.Sound user) (w : ω) : (s.step user (.notify w)).Sound user := by
  show Sound user (if s.notifies w = 0 then s else _)
  split_ifs
  · exact h
  set s' : WaitSystem ι ω η :=
    { s.notifyAll user w with notifies := update s.notifies w (s.notifies w - 1) } with hs'
  -- parked with this `Waiter`, and moved, or left alone
  have hmoved : ∀ u, (∃ id, (s.threads u).point = .parked id ∧ user u = w ∧
        s'.threads u = { s.threads u with point := .woke id false }) ∨
      s'.threads u = s.threads u ∧ ∀ id, (s.threads u).point = .parked id → user u ≠ w := by
    intro u
    have hu : s'.threads u = match (s.threads u).point with
      | .parked id =>
          if user u = w then { s.threads u with point := .woke id false } else s.threads u
      | _ => s.threads u := rfl
    cases hpoint : (s.threads u).point with
    | parked id =>
        rw [hpoint] at hu
        by_cases huser : user u = w
        · exact .inl ⟨id, rfl, huser, hu.trans (if_pos huser)⟩
        · exact .inr ⟨hu.trans (if_neg huser), fun _ _ => huser⟩
    | _ =>
        rw [hpoint] at hu
        exact .inr ⟨hu, fun _ => nofun⟩
  refine h.of_threads h.peers (fun u id hid => ?_) le_rfl fun u => ?_
  · rcases hmoved u with ⟨id', hpoint, -, hu⟩ | ⟨hu, -⟩
    · rw [hu] at hid
      rw [hpoint]
      exact hid
    · rwa [hu] at hid
  · rcases hmoved u with ⟨id', hpoint, -, hu⟩ | ⟨hu, hother⟩
    -- who wakes keeps its watch and waits for nothing more
    · refine ⟨fun id hid => ?_, fun _ => ?_, fun r hr => ?_, fun id hid => ?_⟩
      · rw [hu] at hid
        unfold Watching
        rw [hu]
        exact (h.threads u).watching id (by rw [hpoint]; exact hid)
      · unfold Pending
        rw [hu]
        trivial
      · rw [hu] at hr
        rcases hr with hr | ⟨id, hr⟩
        · cases hr
        · cases hr
      · rw [hu] at hid
        cases hid
    -- who is parked with another `Waiter` keeps its own notifications
    · refine (h.threads u).keep ⟨hu, .refl _, le_rfl, fun id _ hwatching => ?_, fun hpending => ?_⟩
      · unfold Watching Ready
        rw [hu]
        exact ⟨hwatching, .inl⟩
      · unfold Pending at *
        rw [hu]
        cases hpoint : (s.threads u).point with
        | lock id =>
            rw [hpoint] at hpending
            exact hpending
        | parked id =>
            rw [hpoint] at hpending
            refine hpending.imp (fun hcalls => hcalls) fun hnotifies => ?_
            show 0 < update s.notifies w (s.notifies w - 1) (user u)
            rwa [Function.update_of_ne (hother id hpoint)]
        | _ => trivial

/-- Every step keeps the invariant. -/
theorem step_sound (hinj : Function.Injective user) (h : s.Sound user) (op : WaitOp ι ω η)
    (hlegal : s.Legal op) : (s.step user op).Sound user := by
  cases op with
  | run t => exact run_sound hinj h t
  | deliver w => exact deliver_sound h w
  | notify w => exact notify_sound h w
  -- a later clock keeps every result
  | tick =>
      refine h.of_threads h.peers (fun _ _ hid => hid) le_rfl fun u => (h.threads u).keep ?_
      exact ⟨rfl, .refl _, Nat.le_succ _, fun _ _ hwatching => ⟨hwatching, .inl⟩, id⟩
  -- a call starts only where none is under way
  | call t c =>
      have hcalled : Sound user { s with threads := update s.threads t ⟨c, .query⟩ } := by
        set s' : WaitSystem ι ω η := { s with threads := update s.threads t ⟨c, .query⟩ }
        have hthread : s'.threads t = ⟨c, .query⟩ := Function.update_self ..
        refine h.move (t := t) h.peers le_rfl (fun u hu => ?_) (fun id hid => ?_) ?_
        · exact (Keeps.refl s u).congr (Function.update_of_ne hu ..) rfl rfl rfl rfl rfl
        · rw [hthread] at hid
          cases hid
        · refine threadOk_free (by rw [hthread]; rfl) fun r hr => ?_
          rw [hthread] at hr
          cases hr
      show Sound user (match (s.threads t).point with
        | .idle | .returned _ => _
        | _ => s)
      split
      · exact hcalled
      · exact hcalled
      · exact h
  -- a wake-up by the clock needs the deadline to have passed
  | wakeUp t timedOut =>
      show Sound user (match (s.threads t).point with
        | .parked id => if timedOut && !s.expired t then s else s.setPoint t (.woke id timedOut)
        | _ => s)
      split
      · next id hpoint =>
          have hwatch : (s.threads t).point.watch = some id := by
            rw [hpoint]
            rfl
          split_ifs with htimeout
          · exact h
          · refine h.setPoint (fun _ hid => hwatch.trans hid) ?_
            refine threadOk_setPoint (fun id' hid' => (h.threads t).watching id' (hwatch.trans hid'))
              (fun _ => ?_) (fun r hr => ?_) fun id' hid' => ?_
            · unfold Pending
              rw [threads_setPoint]
              trivial
            · rcases hr with hr | ⟨id', hr⟩
              · cases hr
              · cases hr
            · injection hid' with _ hid'
              subst hid'
              simpa using htimeout
      · exact h
  -- the rest of the program works on the pipe, and no thread moves
  | pipe op =>
      have hkeeps : ∀ u, Keeps user s (s.perform op) u := fun u =>
        keeps_perform h.peers op fun e id he => by
          subst he
          exact hlegal u
      have hperform : (s.perform op).Sound user :=
        h.of_threads (perform_peers h.peers op) (fun _ _ hid => hid) le_rfl
          fun u => (h.threads u).keep (hkeeps u)
      show Sound user (match op with
        | .registerWatch .. => { s.perform op with nextWatchId := s.nextWatchId + 1 }
        | _ => s.perform op)
      split
      · refine h.of_threads hperform.peers (fun _ _ hid => hid) (Nat.le_succ _) fun u => ?_
        exact (h.threads u).keep ((hkeeps u).congr rfl rfl rfl rfl rfl rfl)
      · exact hperform

omit [DecidableEq ι] [DecidableEq ω] in
theorem start_sound : (start : WaitSystem ι ω η).Sound user :=
  ⟨fun _ => rfl, fun _ _ => nofun, fun _ _ _ => nofun, fun _ => threadOk_free rfl fun _ => nofun⟩

/-! ### Results -/

theorem run_threads_ne {u : ι} (hu : u ≠ t) : (s.run user t).threads u = s.threads u := by
  unfold run
  dsimp only
  repeat' split
  all_goals first | rfl | exact Function.update_of_ne hu ..

/-- A thread gets its result from the verdict of a query, or from the clock. -/
theorem run_result {r : CoreResult SignalsState}
    (h : ((s.run user t).threads t).point.result = some r) :
    (s.threads t).point.queries = false ∧ (s.threads t).point.result = some r ∨
      (s.threads t).point.queries = true ∧ s.verdict (s.threads t).call = some r ∨
      r = .error .deadlineExceeded := by
  cases hpoint : (s.threads t).point with
  -- the point stays as it is
  | idle | parked | returned =>
      unfold run at h
      rw [hpoint] at h
      dsimp only at h
      rw [hpoint] at h
      exact .inl ⟨rfl, h⟩
  -- the two points that look at the signals
  | query | recheck =>
      unfold run at h
      rw [hpoint] at h
      dsimp only at h
      cases hverdict : s.verdict (s.threads t).call with
      | some result =>
          rw [hverdict] at h
          dsimp only at h
          rw [threads_setPoint] at h
          exact .inr (.inl ⟨rfl, h⟩)
      | none =>
          rw [hverdict] at h
          dsimp only at h
          rw [threads_setPoint] at h
          cases h
  -- without a query only the clock gives a result
  | expiry | lock | woke =>
      unfold run at h
      rw [hpoint] at h
      dsimp only at h
      split_ifs at h <;> rw [threads_setPoint] at h <;>
        first | exact .inr (.inr (Option.some.inj h).symm) | cases h
  | register =>
      unfold run at h
      rw [hpoint] at h
      dsimp only at h
      rw [threads_setPoint] at h
      cases h
  -- the result was found before, the thread only gives up its watch
  | cancel id result =>
      unfold run at h
      rw [hpoint] at h
      dsimp only at h
      rw [threads_setPoint] at h
      cases result with
      | none => cases h
      | some r' => exact .inl ⟨rfl, h⟩

/-- A thread has a result of its last query, or none, or that of the clock. -/
theorem step_result {op : WaitOp ι ω η} {u : ι} {r : CoreResult SignalsState}
    (h : ((s.step user op).threads u).point.result = some r) :
    (op = .run u → (s.threads u).point.queries = false) ∧ (s.threads u).point.result = some r ∨
      (op = .run u ∧ (s.threads u).point.queries = true ∧
        s.verdict (s.threads u).call = some r) ∨
      r = .error .deadlineExceeded := by
  cases op with
  -- only its own step brings a thread a result
  | run t =>
      by_cases hu : u = t
      · subst hu
        rcases run_result h with ⟨hqueries, hr⟩ | ⟨hqueries, hr⟩ | hr
        · exact .inl ⟨fun _ => hqueries, hr⟩
        · exact .inr (.inl ⟨rfl, hqueries, hr⟩)
        · exact .inr (.inr hr)
      · refine .inl ⟨fun heq => absurd (WaitOp.run.inj heq).symm hu, ?_⟩
        have hrun : ((s.run user t).threads u).point.result = some r := h
        rwa [run_threads_ne hu] at hrun
  -- a new call has no result yet
  | call t c =>
      refine .inl ⟨nofun, ?_⟩
      have hcall (hr : (update s.threads t ⟨c, .query⟩ u).point.result = some r) :
          (s.threads u).point.result = some r := by
        by_cases hu : u = t
        · subst hu
          rw [Function.update_self] at hr
          cases hr
        · rwa [Function.update_of_ne hu] at hr
      unfold step at h
      dsimp only at h
      split at h
      · exact hcall h
      · exact hcall h
      · exact h
  | wakeUp t timedOut =>
      refine .inl ⟨nofun, ?_⟩
      unfold step at h
      dsimp only at h
      split at h
      · split_ifs at h
        · exact h
        · by_cases hu : u = t
          · subst hu
            rw [threads_setPoint] at h
            cases h
          · rwa [threads_setPoint_ne hu] at h
      · exact h
  | notify w =>
      refine .inl ⟨nofun, ?_⟩
      unfold step at h
      dsimp only at h
      split_ifs at h
      · exact h
      · unfold notifyAll at h
        dsimp only at h
        split at h
        · split_ifs at h
          · cases h
          · exact h
        · exact h
  | deliver w =>
      refine .inl ⟨nofun, ?_⟩
      unfold step at h
      dsimp only at h
      split_ifs at h
      · exact h
      · exact h
  | tick => exact .inl ⟨nofun, h⟩
  | pipe op =>
      refine .inl ⟨nofun, ?_⟩
      unfold step at h
      dsimp only at h
      split at h
      · exact h
      · exact h

omit [DecidableEq ι] [DecidableEq ω] in
/-- A verdict that is a state is the state of the signals. -/
theorem state_of_verdict {c : WaitCall} {state : SignalsState}
    (h : s.verdict c = some (.ok state)) : state = s.pipe.querySignals c.endpoint := by
  unfold verdict at h
  dsimp only at h
  split_ifs at h
  · injection h with h
    injection h with h
    exact h.symm
  · injection h with h
    cases h

/-- What a thread has found it keeps until it queries again. -/
theorem found_step {o : ObservedWaits ι ω η} (h : o.Found) (op : WaitOp ι ω η) :
    (o.step user op).Found := by
  intro t state hstate
  rcases step_result hstate with ⟨hqueries, hresult⟩ | ⟨rfl, hqueries, hverdict⟩ | hclock
  · have hkept : (o.step user op).found t = o.found t := by
      cases op with
      | run u =>
          show (if (o.waits.threads u).point.queries then update o.found u _ else o.found) t = _
          split_ifs with hu
          · refine Function.update_of_ne (fun htu => ?_) ..
            subst htu
            rw [hqueries rfl] at hu
            cases hu
          · rfl
      | _ => rfl
    rw [hkept]
    exact h t state hresult
  · show state = (if (o.waits.threads t).point.queries then update o.found t _ else o.found) t
    rw [if_pos hqueries, Function.update_self]
    exact state_of_verdict hverdict
  · cases hclock

/-- If no two threads share a `Waiter`, no run loses a wakeup, and what calls
return is so. -/
theorem waits_sound (hinj : Function.Injective user) (ops : List (WaitOp ι ω η))
    (h : Meets (ObservedWaits.step user) (fun o op => o.waits.Legal op) .start ops) :
    Always (ObservedWaits.step user) (fun o => o.waits.NoLostWakeup user ∧ o.Truthful) .start
      ops := by
  have hsound : Always (ObservedWaits.step user) (fun o => Sound user o.waits ∧ o.Found) .start ops :=
    always_of_meets (fun o op ho hop => ⟨step_sound hinj ho.1 op hop, found_step ho.2 op⟩)
      ⟨start_sound, fun _ _ => nofun⟩ h
  refine hsound.imp fun o ho => ⟨fun t id hpoint hready => ?_, fun t result hpoint => ⟨?_, ?_⟩⟩
  · have hpending := (ho.1.threads t).pending hready
    unfold Pending at hpending
    rw [hpoint] at hpending
    exact hpending
  · exact (ho.1.threads t).result result (.inl hpoint)
  · rintro state rfl
    exact ho.2 t state (by rw [hpoint]; rfl)

/-- Two threads wait for a message.  One parks, the other is about to; then the
message comes, its callbacks run, and the first thread goes on before the
second. -/
def raceForFlag (w w' : Bool) : List (WaitOp Bool Bool Unit) :=
  let c : WaitCall := ⟨.a, .readable, none⟩
  .call false c :: List.replicate 5 (.run false) ++ .call true c :: List.replicate 4 (.run true) ++
    [.pipe (.write .b ⟨[7], []⟩), .deliver w, .deliver w', .notify w, .notify w', .run false,
      .run true]

theorem raceForFlag_legal (user : Bool → Bool) (w w' : Bool) :
    Meets (ObservedWaits.step user) (fun o op => o.waits.Legal op) .start (raceForFlag w w') := by
  simp [raceForFlag, Meets, Legal]

/-- Each with its own `Waiter`: both see the message. -/
theorem raceForFlag_sound : Always (ObservedWaits.step id)
    (fun o => o.waits.NoLostWakeup id ∧ o.Truthful) .start (raceForFlag false true) :=
  waits_sound Function.injective_id _ (raceForFlag_legal _ _ _)

/-- With one `Waiter` for both, the second thread stays parked. -/
theorem shared_loses : ¬Always (step fun _ => false) (NoLostWakeup fun _ => false) start
    (raceForFlag false false) := by
  intro h
  have hlast := h.last true 2 (by decide +kernel) (.inl (by decide +kernel))
  revert hlast
  decide +kernel

end Step

end WaitSystem

end MojoRs.Core
