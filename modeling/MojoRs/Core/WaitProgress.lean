/-
MojoRs/Core/WaitProgress.lean

That a blocking wait (`wait.rs`) ends.  In an endless run in which the thread
goes on again and again, and callbacks of its `Waiter` run again and again, a
call whose signals stay final returns.  A call with a deadline returns in any
case, where the clock and the timeout of the condition variable go on as well.

Both go by the rank rule: the point that the thread has reached says how far it
has to go, and what it needs for the next step.

Main results: `wait_returns`, `wait_in_time`.
-/
import Mathlib.Tactic.IntervalCases
import MojoRs.Core.BlockingWait
import MojoRs.Lib.Fairness

namespace MojoRs.Core.WaitSystem

open Function (update)
open Lib Pipe

variable {ι ω η : Type} [DecidableEq ι] [DecidableEq ω] {user : ι → ω} {s : WaitSystem ι ω η}
  {t : ι}

/-! ### What moves a thread -/

/-- The thread is in a call. -/
def Waits (s : WaitSystem ι ω η) (t : ι) : Prop :=
  (s.threads t).point ≠ .idle ∧ ∀ result, (s.threads t).point ≠ .returned result

/-- The call of the thread has returned, with a result that is so. -/
def Returns (s : WaitSystem ι ω η) (t : ι) : Prop :=
  ∃ result, (s.threads t).point = .returned result ∧ s.Holds t result

/-- A thread moves only itself. -/
theorem run_frame (s : WaitSystem ι ω η) (u : ι) :
    (∀ t, t ≠ u → (s.run user u).threads t = s.threads t) ∧
      (s.run user u).notifies = s.notifies ∧ (s.run user u).now = s.now := by
  unfold run
  dsimp only
  split
  all_goals repeat' split
  all_goals
    refine ⟨fun t ht => ?_, rfl, rfl⟩
    first | rfl | exact Function.update_of_ne ht ..

/-- A thread in a call is moved by its own step, and while it is parked by a
wakeup. -/
theorem threads_step (hwaits : s.Waits t) {op : WaitOp ι ω η} (hrun : op ≠ .run t)
    (hparked : ∀ id, (s.threads t).point = .parked id →
      (∀ timedOut, op ≠ .wakeUp t timedOut) ∧ op ≠ .notify (user t)) :
    (s.step user op).threads t = s.threads t := by
  cases op with
  -- a call starts for threads that are idle or done, and `t` is neither
  | call u c =>
      rw [step]
      by_cases hu : t = u
      · subst hu
        split
        · next h => exact absurd h hwaits.1
        · next h => exact absurd h (hwaits.2 _)
        · rfl
      · split
        · exact Function.update_of_ne hu ..
        · exact Function.update_of_ne hu ..
        · rfl
  | run u => exact (run_frame s u).1 t fun h => hrun (h ▸ rfl)
  -- only a parked thread wakes up
  | wakeUp u timedOut =>
      rw [step]
      split
      · next id hpoint =>
          have hu : t ≠ u := by
            rintro rfl
            exact (hparked id hpoint).1 timedOut rfl
          split_ifs
          · rfl
          · exact Function.update_of_ne hu ..
      · rfl
  | deliver w =>
      show (if s.calls w = 0 then s else _).threads t = _
      split_ifs <;> rfl
  -- and only the one whose `Waiter` it is
  | notify w =>
      show (if s.notifies w = 0 then s else _).threads t = _
      split_ifs
      · rfl
      · dsimp only [notifyAll]
        split
        · next id hpoint =>
            refine if_neg ?_
            rintro rfl
            exact (hparked id hpoint).2 rfl
        · rfl
  | tick => rfl
  | pipe op => cases op <;> rfl

section Parked

variable {id : Nat} (hpoint : (s.threads t).point = .parked id)

include hpoint

theorem run_parked : s.run user t = s := by
  unfold run
  rw [hpoint]

variable (user) in
theorem wakeUp_parked (timedOut : Bool) : s.step user (.wakeUp t timedOut) =
    if timedOut && !s.expired t then s else s.setPoint t (.woke id timedOut) := by
  rw [step, hpoint]

theorem notify_parked (hsome : s.notifies (user t) ≠ 0) :
    (s.step user (.notify (user t))).threads t = { s.threads t with point := .woke id false } := by
  show (if s.notifies (user t) = 0 then s else _ : WaitSystem ι ω η).threads t = _
  rw [if_neg hsome]
  dsimp only [notifyAll]
  rw [hpoint]
  dsimp only
  rw [if_pos rfl]

end Parked

variable (user) in
/-- What happens to a thread in a call: its own step, a wakeup, or nothing. -/
theorem step_thread (hwaits : s.Waits t) (op : WaitOp ι ω η) :
    op = .run t ∨
      (∃ id timedOut, (s.threads t).point = .parked id ∧
        (s.step user op).threads t = { s.threads t with point := .woke id timedOut }) ∨
      (s.step user op).threads t = s.threads t ∧ op ≠ .run t ∧
        ∀ id, (s.threads t).point = .parked id →
          (s.expired t = true → op ≠ .wakeUp t true) ∧
            (s.notifies (user t) ≠ 0 → op ≠ .notify (user t)) := by
  by_cases hrun : op = .run t
  · exact .inl hrun
  refine .inr ?_
  by_cases hparked : ∃ id, (s.threads t).point = .parked id
  · obtain ⟨id, hpoint⟩ := hparked
    by_cases hwake : ∃ timedOut, op = .wakeUp t timedOut
    · obtain ⟨timedOut, rfl⟩ := hwake
      have hstep := wakeUp_parked user hpoint timedOut
      split_ifs at hstep with htimeout
      · rw [hstep]
        refine .inr ⟨rfl, nofun, fun _ _ => ⟨fun hexpired heq => ?_, fun _ => nofun⟩⟩
        injection heq with _ heq
        rw [heq, hexpired] at htimeout
        cases htimeout
      · rw [hstep]
        exact .inl ⟨id, timedOut, hpoint, threads_setPoint ..⟩
    by_cases hnotify : op = .notify (user t)
    · subst hnotify
      by_cases hnone : s.notifies (user t) = 0
      · rw [show s.step user (.notify (user t)) = s from if_pos hnone]
        exact .inr ⟨rfl, nofun, fun _ _ => ⟨fun _ => nofun, fun hsome => absurd hnone hsome⟩⟩
      · exact .inl ⟨id, false, hpoint, notify_parked hpoint hnone⟩
    · refine .inr ⟨threads_step hwaits hrun fun _ _ => ⟨fun b hb => hwake ⟨b, hb⟩, hnotify⟩, hrun, ?_⟩
      exact fun _ _ => ⟨fun _ hop => hwake ⟨true, hop⟩, fun _ => hnotify⟩
  · have hfree : ∀ id, (s.threads t).point ≠ .parked id := fun id hid => hparked ⟨id, hid⟩
    exact .inr ⟨threads_step hwaits hrun fun id hid => absurd hid (hfree id), hrun,
      fun id hid => absurd hid (hfree id)⟩

/-- A thread in a call keeps its arguments, and does not give it up. -/
theorem call_step (hwaits : s.Waits t) (op : WaitOp ι ω η) :
    ((s.step user op).threads t).call = (s.threads t).call ∧
      ((s.step user op).threads t).point ≠ .idle := by
  rcases step_thread user hwaits op with rfl | ⟨id, timedOut, -, hthread⟩ | ⟨hthread, -⟩
  · have hsame := hwaits.1
    show ((s.run user t).threads t).call = _ ∧ ((s.run user t).threads t).point ≠ .idle
    unfold run
    dsimp only
    split
    all_goals repeat' split
    all_goals first | exact ⟨rfl, hsame⟩ | (rw [threads_setPoint]; exact ⟨rfl, nofun⟩)
  · rw [hthread]
    exact ⟨rfl, nofun⟩
  · rw [hthread]
    exact ⟨rfl, hwaits.1⟩

theorem deliver_notifies {w : ω} (hsome : s.calls w ≠ 0) :
    (s.step user (.deliver w)).notifies w ≠ 0 := by
  show (if s.calls w = 0 then s else _ : WaitSystem ι ω η).notifies w ≠ 0
  rw [if_neg hsome]
  show update s.notifies w (s.notifies w + 1) w ≠ 0
  rw [Function.update_self]
  exact Nat.succ_ne_zero _

/-! ### Signals that stay final -/

section Ready

/-- How far the thread has to go if its signals are final. -/
def toReturn (s : WaitSystem ι ω η) (user : ι → ω) (t : ι) : ℕ :=
  match (s.threads t).point with
  | .idle | .returned _ => 0
  | .query | .cancel _ (some _) => 1
  | .cancel _ none | .recheck _ => 2
  | .woke _ _ | .register => 3
  | .expiry => 4
  | .parked _ => if s.notifies (user t) = 0 then 5 else 4
  | .lock _ => 6

/-- What the thread needs next. -/
def needs (s : WaitSystem ι ω η) (user : ι → ω) (t : ι) : WaitOp ι ω η :=
  match (s.threads t).point with
  | .parked _ => if s.notifies (user t) = 0 then .deliver (user t) else .notify (user t)
  | _ => .run t

omit [DecidableEq ι] [DecidableEq ω] in
/-- Final signals have a verdict. -/
theorem verdict_of_ready (h : s.Ready t) : ∃ result, s.verdict (s.threads t).call = some result := by
  cases hverdict : s.verdict (s.threads t).call with
  | none => exact absurd h (not_ready_of_verdict hverdict)
  | some result => exact ⟨result, rfl⟩

/-- The step of a thread that is not parked brings it nearer. -/
theorem toReturn_run (hwaits : s.Waits t) (hready : s.Ready t)
    (hparked : ∀ id, (s.threads t).point ≠ .parked id) :
    (s.run user t).toReturn user t < s.toReturn user t := by
  obtain ⟨result, hverdict⟩ := verdict_of_ready hready
  unfold toReturn run
  cases hpoint : (s.threads t).point with
  | idle => exact absurd hpoint hwaits.1
  | returned r => exact absurd hpoint (hwaits.2 r)
  | parked id => exact absurd hpoint (hparked id)
  | query => simp [hverdict]
  | expiry => dsimp only; split_ifs <;> simp
  | register => simp
  | recheck id => simp [hverdict]
  | lock id => dsimp only; split_ifs <;> simp
  | woke id timedOut => dsimp only; split_ifs <;> simp
  | cancel id r => cases r <;> simp

/-- Only callbacks of a `Waiter` notify it. -/
theorem notifies_step {w : ω} {op : WaitOp ι ω η} (hdeliver : op ≠ .deliver w)
    (hnotify : op ≠ .notify w) : (s.step user op).notifies w = s.notifies w := by
  cases op with
  | call u c =>
      rw [step]
      split <;> rfl
  | run u => exact congrFun (run_frame s u).2.1 w
  | wakeUp u timedOut =>
      rw [step]
      split
      · split_ifs <;> rfl
      · rfl
  | deliver w' =>
      have hw : w ≠ w' := fun h => hdeliver (h ▸ rfl)
      show (if s.calls w' = 0 then s else _).notifies w = _
      split_ifs
      · rfl
      · exact Function.update_of_ne hw ..
  | notify w' =>
      have hw : w ≠ w' := fun h => hnotify (h ▸ rfl)
      show (if s.notifies w' = 0 then s else _).notifies w = _
      split_ifs
      · rfl
      · exact Function.update_of_ne hw ..
  | tick => rfl
  | pipe op => cases op <;> rfl

variable (user) in
omit [DecidableEq ι] [DecidableEq ω] in
/-- A thread that is not parked needs only its own step. -/
theorem toReturn_same {s' : WaitSystem ι ω η} (hthread : s'.threads t = s.threads t)
    (hparked : ∀ id, (s.threads t).point ≠ .parked id) :
    s'.toReturn user t = s.toReturn user t ∧ s'.needs user t = .run t ∧ s.needs user t = .run t := by
  unfold toReturn needs
  rw [hthread]
  cases hpoint : (s.threads t).point with
  | parked id => exact absurd hpoint (hparked id)
  | cancel id result => cases result <;> exact ⟨rfl, rfl, rfl⟩
  | _ => exact ⟨rfl, rfl, rfl⟩

variable (user) in
omit [DecidableEq ι] [DecidableEq ω] in
theorem needs_parked {id : Nat} (hpoint : (s.threads t).point = .parked id) :
    s.needs user t = if s.notifies (user t) = 0 then .deliver (user t) else .notify (user t) := by
  unfold needs
  rw [hpoint]

variable (user) in
omit [DecidableEq ι] [DecidableEq ω] in
theorem toReturn_parked {id : Nat} (hpoint : (s.threads t).point = .parked id) :
    s.toReturn user t = if s.notifies (user t) = 0 then 5 else 4 := by
  unfold toReturn
  rw [hpoint]

omit [DecidableEq ι] [DecidableEq ω] in
theorem toReturn_woke {id : Nat} {timedOut : Bool} (hpoint : (s.threads t).point = .woke id timedOut) :
    s.toReturn user t = 3 := by
  unfold toReturn
  rw [hpoint]

/-- With final signals every operation brings the thread nearer, or it is not
what the thread needs. -/
theorem toReturn_step (h : s.Sound user) (hwaits : s.Waits t) (hready : s.Ready t)
    (op : WaitOp ι ω η) :
    (s.step user op).toReturn user t < s.toReturn user t ∨
      (s.step user op).toReturn user t = s.toReturn user t ∧
        (s.step user op).needs user t = s.needs user t ∧ op ≠ s.needs user t := by
  by_cases hparked : ∃ id, (s.threads t).point = .parked id
  · obtain ⟨id, hpoint⟩ := hparked
    have hneeds := needs_parked user hpoint
    have hrank := toReturn_parked user hpoint
    rcases step_thread user hwaits op with
      rfl | ⟨id', timedOut, -, hthread⟩ | ⟨hthread, hrun, hother⟩
    · refine .inr ⟨congrArg (toReturn · user t) (run_parked hpoint),
        congrArg (needs · user t) (run_parked hpoint), ?_⟩
      rw [hneeds]
      split_ifs <;> exact nofun
    · rw [toReturn_woke (congrArg WaitThread.point hthread), hrank]
      split_ifs <;> exact .inl (by decide)
    have hpoint' : ((s.step user op).threads t).point = .parked id := hthread ▸ hpoint
    rw [toReturn_parked user hpoint', needs_parked user hpoint', hrank, hneeds]
    by_cases hdeliver : op = .deliver (user t)
    · subst hdeliver
      by_cases hnone : s.notifies (user t) = 0
      · -- the callback that is on its way
        have hpending := (h.threads t).pending hready
        unfold Pending at hpending
        rw [hpoint] at hpending
        have hcalls := (hpending.resolve_right (by omega)).ne'
        rw [if_neg (deliver_notifies hcalls), if_pos hnone]
        exact .inl (by decide)
      · have hmore : (s.step user (.deliver (user t))).notifies (user t) ≠ 0 := by
          by_cases hcalls : s.calls (user t) = 0
          · rwa [show s.step user (.deliver (user t)) = s from if_pos hcalls]
          · exact deliver_notifies hcalls
        rw [if_neg hmore, if_neg hmore, if_neg hnone, if_neg hnone]
        exact .inr ⟨rfl, rfl, nofun⟩
    by_cases hnotify : op = .notify (user t)
    · subst hnotify
      have hnone : s.notifies (user t) = 0 := by
        by_contra hsome
        exact (hother id hpoint).2 hsome rfl
      rw [show s.step user (.notify (user t)) = s from if_pos hnone, if_pos hnone, if_pos hnone]
      exact .inr ⟨rfl, rfl, nofun⟩
    · rw [notifies_step hdeliver hnotify]
      refine .inr ⟨rfl, rfl, ?_⟩
      split_ifs
      · exact hdeliver
      · exact hnotify
  have hfree : ∀ id, (s.threads t).point ≠ .parked id := fun id hid => hparked ⟨id, hid⟩
  rcases step_thread user hwaits op with rfl | ⟨id, -, hid, -⟩ | ⟨hthread, hrun, -⟩
  · exact .inl (toReturn_run hwaits hready hfree)
  · exact absurd hid (hfree id)
  · obtain ⟨hrank, hneeds', hneeds⟩ := toReturn_same user hthread hfree
    exact .inr ⟨hrank, hneeds'.trans hneeds.symm, hneeds ▸ hrun⟩

end Ready

/-! ### Endless runs -/

section Endless

variable {ops : ℕ → WaitOp ι ω η} {n₀ : ℕ}

/-- What an endless run of threads keeps. -/
theorem trace_sound (hinj : Function.Injective user)
    (hlegal : ∀ n, (trace (step user) start ops n).Legal (ops n)) (n : ℕ) :
    (trace (step user) start ops n).Sound user :=
  trace_always (P := Sound user) (C := Legal) (fun _ op hs hop => step_sound hinj hs op hop)
    start_sound hlegal n

/-- A call that does not return goes on. -/
theorem waits_from (hwaits : (trace (step user) start ops n₀).Waits t)
    (hnever : ∀ n, n₀ ≤ n → ∀ result,
      ((trace (step user) start ops n).threads t).point ≠ .returned result) (n : ℕ) (hn : n₀ ≤ n) :
    (trace (step user) start ops n).Waits t := by
  induction n, hn using Nat.le_induction with
  | base => exact hwaits
  | succ n hn ih => exact ⟨(call_step ih (ops n)).2, hnever (n + 1) (hn.trans n.le_succ)⟩

/-- A call whose signals stay final returns. -/
theorem wait_returns (hinj : Function.Injective user)
    (hlegal : ∀ n, (trace (step user) start ops n).Legal (ops n))
    (hrun : Recurs ops (.run t)) (hdeliver : Recurs ops (.deliver (user t)))
    (hnotify : Recurs ops (.notify (user t)))
    (hwaits : (trace (step user) start ops n₀).Waits t)
    (hready : ∀ n, n₀ ≤ n → (trace (step user) start ops n).Waits t →
      (trace (step user) start ops n).Ready t) :
    ∃ n, n₀ ≤ n ∧ (trace (step user) start ops n).Returns t := by
  by_contra hnever
  push Not at hnever
  have hsound := trace_sound hinj hlegal
  have hwaits' := waits_from hwaits fun n hn result hpoint =>
    hnever n hn ⟨result, hpoint, ((hsound n).threads t).result result (.inl hpoint)⟩
  obtain ⟨n, hn, hreturns⟩ := reaches_of_rank (trace (step user) start ops) (fun s => s.Returns t)
    (fun s => s.toReturn user t) (fun s => s.needs user t)
    (fun n (_ : n₀ ≤ n) _ => by
      show Recurs ops (needs _ user t)
      unfold needs
      split
      · split_ifs
        · exact hdeliver
        · exact hnotify
      · exact hrun)
    (fun n hn _ => .inr (toReturn_step (hsound n) (hwaits' n hn) (hready n hn (hwaits' n hn)) _))
  exact hnever n hn hreturns

/-- A thread parks before a message comes, and then the three go on in turn. -/
def parkThenMessage (n : ℕ) : WaitOp Unit Unit Unit :=
  if n = 0 then .call () ⟨.a, .readable, none⟩
  else if n < 6 then .run ()
  else if n = 6 then .pipe (.write .b ⟨[7], []⟩)
  else if n % 3 = 0 then .run ()
  else if n % 3 = 1 then .deliver ()
  else .notify ()

theorem parkThenMessage_after {n : ℕ} (hn : 7 ≤ n) : parkThenMessage n =
    if n % 3 = 0 then .run () else if n % 3 = 1 then .deliver () else .notify () := by
  unfold parkThenMessage
  rw [if_neg (by omega), if_neg (by omega), if_neg (by omega)]

/-- In the end nothing happens any more. -/
theorem parkThenMessage_end (n : ℕ) :
    trace (step id) start parkThenMessage (16 + n) = trace (step id) start parkThenMessage 16 := by
  induction n with
  | zero => rfl
  | succ n ih =>
      show step id (trace (step id) start parkThenMessage (16 + n)) (parkThenMessage (16 + n)) = _
      rw [ih, parkThenMessage_after (by omega)]
      split_ifs
      · rfl
      · rfl
      · rfl

theorem parkThenMessage_returns : ∃ n, 7 ≤ n ∧
    (trace (step id) start parkThenMessage n).Returns () := by
  have hlegal : ∀ n, (trace (step id) start parkThenMessage n).Legal (parkThenMessage n) := by
    intro n
    unfold parkThenMessage
    split_ifs <;> trivial
  have hrecurs : ∀ r op, r < 3 → (∀ n, 7 ≤ n → n % 3 = r → parkThenMessage n = op) →
      Recurs parkThenMessage op := by
    intro r op hr h n
    exact ⟨3 * (n + 3) + r, by omega, h _ (by omega) (by omega)⟩
  have hwaits : (trace (step id) start parkThenMessage 7).Waits () := ⟨nofun, fun _ => nofun⟩
  refine wait_returns Function.injective_id hlegal (hrecurs 0 _ (by omega) ?_)
    (hrecurs 1 _ (by omega) ?_) (hrecurs 2 _ (by omega) ?_) hwaits ?_
  · intro n hn hmod
    rw [parkThenMessage_after hn, if_pos hmod]
  · intro n hn hmod
    rw [parkThenMessage_after hn, if_neg (by omega), if_pos hmod]
  · intro n hn hmod
    rw [parkThenMessage_after hn, if_neg (by omega), if_neg (by omega)]
  · intro n hn hwaits
    by_cases hend : 16 ≤ n
    · obtain ⟨k, rfl⟩ := Nat.exists_eq_add_of_le hend
      rw [parkThenMessage_end] at hwaits
      exact absurd rfl (hwaits.2 _)
    · refine .inl ?_
      interval_cases n <;> rfl

/-! ### Deadlines -/

/-- Only the clock changes the time. -/
theorem now_step {op : WaitOp ι ω η} (hop : op ≠ .tick) : (s.step user op).now = s.now := by
  cases op with
  | call u c =>
      rw [step]
      split <;> rfl
  | run u => exact (run_frame s u).2.2
  | wakeUp u timedOut =>
      rw [step]
      split
      · split_ifs <;> rfl
      · rfl
  | deliver w =>
      show (if s.calls w = 0 then s else _).now = _
      split_ifs <;> rfl
  | notify w =>
      show (if s.notifies w = 0 then s else _).now = _
      split_ifs <;> rfl
  | tick => exact absurd rfl hop
  | pipe op => cases op <;> rfl

theorem now_le_step (s : WaitSystem ι ω η) (op : WaitOp ι ω η) : s.now ≤ (s.step user op).now := by
  by_cases hop : op = .tick
  · subst hop
    exact Nat.le_succ _
  · exact (now_step hop).ge

/-- How far the thread has to go once its deadline has passed. -/
def toExpire (s : WaitSystem ι ω η) (t : ι) : ℕ :=
  match (s.threads t).point with
  | .idle | .returned _ => 0
  | .expiry | .cancel _ (some _) => 1
  | .query => 2
  | .cancel _ none => 3
  | .woke _ _ => 4
  | .parked _ => 5
  | .lock _ => 6
  | .recheck _ => 7
  | .register => 8

/-- What the thread needs next: a timeout if it is parked. -/
def needsTimeout (s : WaitSystem ι ω η) (t : ι) : WaitOp ι ω η :=
  match (s.threads t).point with
  | .parked _ => .wakeUp t true
  | _ => .run t

theorem toExpire_run (hwaits : s.Waits t) (hexpired : s.expired t = true)
    (hparked : ∀ id, (s.threads t).point ≠ .parked id) :
    (s.run user t).toExpire t < s.toExpire t := by
  unfold toExpire run
  cases hpoint : (s.threads t).point with
  | idle => exact absurd hpoint hwaits.1
  | returned r => exact absurd hpoint (hwaits.2 r)
  | parked id => exact absurd hpoint (hparked id)
  | query => cases hverdict : s.verdict (s.threads t).call <;> simp [hverdict]
  | expiry => simp [hexpired]
  | register => simp
  | recheck id => cases hverdict : s.verdict (s.threads t).call <;> simp [hverdict]
  | lock id => dsimp only; split_ifs <;> simp
  | woke id timedOut => dsimp only; split_ifs <;> simp
  | cancel id r => cases r <;> simp

/-- After the deadline every operation brings the thread nearer, or it is not
what the thread needs. -/
theorem toExpire_step (hwaits : s.Waits t) (hexpired : s.expired t = true) (op : WaitOp ι ω η) :
    (s.step user op).toExpire t < s.toExpire t ∨
      (s.step user op).toExpire t = s.toExpire t ∧
        (s.step user op).needsTimeout t = s.needsTimeout t ∧ op ≠ s.needsTimeout t := by
  rcases step_thread user hwaits op with
    rfl | ⟨id, timedOut, hpoint, hthread⟩ | ⟨hthread, hrun, hother⟩
  · by_cases hparked : ∃ id, (s.threads t).point = .parked id
    · obtain ⟨id, hpoint⟩ := hparked
      refine .inr ⟨congrArg (toExpire · t) (run_parked hpoint),
        congrArg (needsTimeout · t) (run_parked hpoint), ?_⟩
      unfold needsTimeout
      rw [hpoint]
      exact nofun
    · exact .inl (toExpire_run hwaits hexpired fun id hid => hparked ⟨id, hid⟩)
  · unfold toExpire
    rw [hthread, hpoint]
    exact .inl (Nat.lt_succ_self 4)
  · unfold toExpire needsTimeout
    rw [hthread]
    refine .inr ⟨rfl, rfl, ?_⟩
    split
    · next id hpoint => exact (hother id hpoint).1 hexpired
    · exact hrun

variable (user n₀) in
/-- The time comes. -/
theorem time_comes (htick : Recurs ops .tick) (dl : Nat) :
    ∃ n, n₀ ≤ n ∧ dl ≤ (trace (step user) start ops n).now := by
  refine reaches_of_rank (trace (step user) start ops) (fun s => dl ≤ s.now) (fun s => dl - s.now)
    (fun _ => WaitOp.tick) (fun _ _ _ => htick) fun n hn hearly => ?_
  by_cases hop : ops n = .tick
  · have hnow : (trace (step user) start ops (n + 1)).now = (trace (step user) start ops n).now + 1 := by
      show (step user _ (ops n)).now = _
      rw [hop]
      rfl
    exact .inr (.inl (by omega))
  · have hnow : (trace (step user) start ops (n + 1)).now = (trace (step user) start ops n).now :=
      now_step hop
    exact .inr (.inr ⟨by rw [hnow], rfl, hop⟩)

/-- A call with a deadline returns, whatever becomes of its signals. -/
theorem wait_in_time (hinj : Function.Injective user)
    (hlegal : ∀ n, (trace (step user) start ops n).Legal (ops n))
    (hrun : Recurs ops (.run t)) (htick : Recurs ops .tick) (htimeout : Recurs ops (.wakeUp t true))
    (hwaits : (trace (step user) start ops n₀).Waits t) {dl : Nat}
    (hdeadline : ((trace (step user) start ops n₀).threads t).call.deadline = some dl) :
    ∃ n, n₀ ≤ n ∧ (trace (step user) start ops n).Returns t := by
  by_contra hnever
  push Not at hnever
  have hsound := trace_sound hinj hlegal
  have hwaits' := waits_from hwaits fun n hn result hpoint =>
    hnever n hn ⟨result, hpoint, ((hsound n).threads t).result result (.inl hpoint)⟩
  have hcall : ∀ n, n₀ ≤ n →
      ((trace (step user) start ops n).threads t).call.deadline = some dl := by
    intro n hn
    induction n, hn using Nat.le_induction with
    | base => exact hdeadline
    | succ n hn ih =>
        rw [← ih]
        exact congrArg WaitCall.deadline (call_step (hwaits' n hn) (ops n)).1
  obtain ⟨n₁, hn₁, htime⟩ := time_comes user n₀ htick dl
  have hexpired : ∀ n, n₁ ≤ n → (trace (step user) start ops n).expired t = true := by
    intro n hn
    unfold expired
    rw [hcall n (hn₁.trans hn)]
    refine decide_eq_true ?_
    induction n, hn using Nat.le_induction with
    | base => exact htime
    | succ n hn ih => exact ih.trans (now_le_step _ _)
  obtain ⟨n, hn, hreturns⟩ := reaches_of_rank (trace (step user) start ops) (fun s => s.Returns t)
    (fun s => s.toExpire t) (fun s => s.needsTimeout t)
    (fun n (_ : n₁ ≤ n) _ => by
      show Recurs ops (needsTimeout _ t)
      unfold needsTimeout
      split
      · exact htimeout
      · exact hrun)
    (fun n hn _ => .inr (toExpire_step (hwaits' n (hn₁.trans hn)) (hexpired n hn) _))
  exact hnever n (hn₁.trans hn) hreturns

/-- A thread waits for a message that does not come. -/
def waitInVain (n : ℕ) : WaitOp Unit Unit Unit :=
  if n = 0 then .call () ⟨.a, .readable, some 2⟩
  else if n % 3 = 0 then .tick
  else if n % 3 = 1 then .run ()
  else .wakeUp () true

theorem waitInVain_returns : ∃ n, 1 ≤ n ∧ (trace (step id) start waitInVain n).Returns () := by
  have hlegal : ∀ n, (trace (step id) start waitInVain n).Legal (waitInVain n) := by
    intro n
    unfold waitInVain
    split_ifs <;> trivial
  have hafter : ∀ n, 1 ≤ n → waitInVain n =
      if n % 3 = 0 then .tick else if n % 3 = 1 then .run () else .wakeUp () true := by
    intro n hn
    unfold waitInVain
    rw [if_neg (by omega)]
  have hwaits : (trace (step id) start waitInVain 1).Waits () := ⟨nofun, fun _ => nofun⟩
  refine wait_in_time Function.injective_id hlegal (fun n => ⟨3 * n + 1, by omega, ?_⟩)
    (fun n => ⟨3 * n + 3, by omega, ?_⟩) (fun n => ⟨3 * n + 2, by omega, ?_⟩) hwaits rfl
  · rw [hafter _ (by omega), if_neg (by omega), if_pos (by omega)]
  · rw [hafter _ (by omega), if_pos (by omega)]
  · rw [hafter _ (by omega), if_neg (by omega), if_neg (by omega)]

end Endless

end MojoRs.Core.WaitSystem
