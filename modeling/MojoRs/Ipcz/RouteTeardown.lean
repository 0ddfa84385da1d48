/-
MojoRs/Ipcz/RouteTeardown.lean

How the two ends of a route give up the link between them, without nodes or
memories.  The link has a lock, which the first end that closes takes: it
gives its link up and tells the other end how many parcels there were.  The
other end gives its link up once it has all of them, unless it has closed
itself meanwhile: then it waits for the lock, and nobody unlocks it.

So both links are given up exactly if the closures do not cross on the wire
(`unlinked_iff`).

Main results: `sound_step`, `crossed_step`, `unlinked_iff`.
-/
import MojoRs.Ipcz.LinkMemory
import MojoRs.Lib.Run

namespace MojoRs.Ipcz

open Function (update)
open Lib

theorem LinkSide.eq_or_opposite (x y : LinkSide) : y = x ∨ y = x.opposite := by
  cases x <;> cases y <;> simp [LinkSide.opposite]

theorem LinkSide.forall_iff {P : LinkSide → Prop} (x : LinkSide) :
    (∀ y, P y) ↔ P x ∧ P x.opposite := by
  refine ⟨fun h => ⟨h x, h x.opposite⟩, fun h y => ?_⟩
  obtain rfl | rfl := x.eq_or_opposite y
  · exact h.1
  · exact h.2

namespace Teardown

/-! ### The route -/

/-- What goes over the link. -/
inductive Msg
  | parcel (n : Nat)
  | closed (length : Nat)
  deriving DecidableEq, Repr

/-- One end: how many parcels it has sent and received, and the final lengths
of what it sends and of what it receives. -/
structure RouteEnd where
  linked : Bool
  sent : Nat
  received : Nat
  final : Option Nat
  peerFinal : Option Nat
  deriving DecidableEq, Repr

/-- Both ends, the lock, and what is on the way to each end. -/
structure Route where
  ends : LinkSide → RouteEnd
  locked : Bool
  wire : LinkSide → List Msg
  deriving DecidableEq

/-- What the two ends of a route do. -/
inductive Move
  | put (x : LinkSide)
  | close (x : LinkSide)
  | deliver (x : LinkSide)
  deriving DecidableEq, Repr

namespace RouteEnd

/-- An end gives its link up: one that has closed needs the lock, one that has
not gives it up when nothing more will come.  The end, the lock and what is
sent. -/
def settle (e : RouteEnd) (locked : Bool) : RouteEnd × Bool × List Msg :=
  if !e.linked then (e, locked, [])
  else match e.final with
  | some n =>
      if locked then (e, locked, []) else ({ e with linked := false }, true, [.closed n])
  | none =>
      if e.peerFinal.all fun n => decide (e.received < n) then (e, locked, [])
      else ({ e with linked := false }, locked, [])

/-- Send a parcel while there is a link. -/
def put (e : RouteEnd) (locked : Bool) : RouteEnd × Bool × List Msg :=
  if e.linked then
    let (e', locked', ms) := { e with sent := e.sent + 1 }.settle locked
    (e', locked', .parcel e.sent :: ms)
  else (e, locked, [])

/-- Close the end. -/
def close (e : RouteEnd) (locked : Bool) : RouteEnd × Bool × List Msg :=
  { e with final := some e.sent }.settle locked

/-- An end without its link knows no message. -/
def receive (e : RouteEnd) (locked : Bool) : Msg → RouteEnd × Bool × List Msg
  | .parcel _ =>
      if e.linked then { e with received := e.received + 1 }.settle locked else (e, locked, [])
  | .closed n =>
      if e.linked then { e with peerFinal := some n }.settle locked else (e, locked, [])

end RouteEnd

namespace Route

/-- Change the messages on their way to a side. -/
def setWire (t : Route) (x : LinkSide) (ms : List Msg) : Route :=
  { t with wire := update t.wire x ms }

/-- End `x` changes, and with it the lock and what is on the way to the other
end. -/
def apply (t : Route) (x : LinkSide) (r : RouteEnd × Bool × List Msg) : Route where
  ends := update t.ends x r.1
  locked := r.2.1
  wire := update t.wire x.opposite (t.wire x.opposite ++ r.2.2)

/-- Send a parcel. -/
def put (t : Route) (x : LinkSide) : Route := t.apply x ((t.ends x).put t.locked)

/-- Close an end. -/
def close (t : Route) (x : LinkSide) : Route := t.apply x ((t.ends x).close t.locked)

/-- The next message arrives. -/
def deliver (t : Route) (x : LinkSide) : Route :=
  match t.wire x with
  | [] => t
  | m :: ms => (t.setWire x ms).apply x ((t.ends x).receive t.locked m)

/-- One move. -/
def step (t : Route) : Move → Route
  | .put x => t.put x
  | .close x => t.close x
  | .deliver x => t.deliver x

end Route

/-- No end closes while the closure of the other one is on its way. -/
def NotCrossing (t : Route) : Move → Prop
  | .close x => ∀ n, Msg.closed n ∉ t.wire x
  | _ => True

/-! ### Consecutive parcels -/

/-- Parcels `a` to `b - 1`. -/
def between (a b : Nat) : List Msg := (List.range' a (b - a)).map .parcel

@[simp] theorem between_self (a : Nat) : between a a = [] := by simp [between]

theorem between_cons {a b : Nat} (h : a < b) : between a b = .parcel a :: between (a + 1) b := by
  rw [between, show b - a = (b - (a + 1)) + 1 by omega, List.range'_succ]
  rfl

theorem between_concat {a b : Nat} (h : a ≤ b) :
    between a (b + 1) = between a b ++ [.parcel b] := by
  obtain ⟨k, rfl⟩ := Nat.exists_eq_add_of_le h
  simp [between, Nat.add_assoc, List.range'_1_concat]

theorem closed_notMem_between (n a b : Nat) : Msg.closed n ∉ between a b := by
  simp [between]

/-! ### The phases of a route -/

/-- Neither end has closed. -/
structure Open (t : Route) : Prop where
  linked : ∀ x, (t.ends x).linked = true
  final : ∀ x, (t.ends x).final = none
  peerFinal : ∀ x, (t.ends x).peerFinal = none
  unlocked : t.locked = false
  order : ∀ x, (t.ends x).received ≤ (t.ends x.opposite).sent
  wire : ∀ x, t.wire x = between (t.ends x).received (t.ends x.opposite).sent

/-- End `x` has closed and the other end does not know it yet. -/
structure Closing (x : LinkSide) (t : Route) : Prop where
  unlinked : (t.ends x).linked = false
  final : (t.ends x).final.isSome
  linked : (t.ends x.opposite).linked = true
  peerFinal : (t.ends x.opposite).peerFinal = none
  locked : t.locked = true
  order : ∃ n, (t.ends x.opposite).received ≤ n ∧
    t.wire x.opposite = between (t.ends x.opposite).received n ++ [.closed n]
  quiet : ∀ n, Msg.closed n ∉ t.wire x

/-- The other end knows it. -/
structure Told (x : LinkSide) (t : Route) : Prop where
  unlinked : (t.ends x).linked = false
  final : (t.ends x).final.isSome
  locked : t.locked = true
  wire : t.wire x.opposite = []
  quiet : ∀ n, Msg.closed n ∉ t.wire x

/-- The closures have not crossed. -/
inductive Sound (t : Route) : Prop
  | open : Open t → Sound t
  | closing (x : LinkSide) : Closing x t → (t.ends x.opposite).final = none → Sound t
  | told (x : LinkSide) : Told x t → (t.ends x.opposite).linked = false → Sound t

/-- They have, and the end that did not get the lock keeps its link. -/
inductive Crossed (t : Route) : Prop
  | closing (x : LinkSide) : Closing x t → (t.ends x.opposite).final.isSome → Crossed t
  | told (x : LinkSide) : Told x t → (t.ends x.opposite).linked = true →
      (t.ends x.opposite).final.isSome → Crossed t

/-! ### One end -/

section Ends

variable {e : RouteEnd} {locked : Bool}

theorem settle_unlinked (h : e.linked = false) : e.settle locked = (e, locked, []) := by
  simp [RouteEnd.settle, h]

/-- An end that has not closed waits for what is still to come. -/
theorem settle_waiting (h : e.final = none) (hmore : e.peerFinal = none) :
    e.settle locked = (e, locked, []) := by
  simp [RouteEnd.settle, h, hmore]

/-- So does an end whose lock the other one has. -/
theorem settle_held (h : e.final.isSome ∨ e.peerFinal = none) :
    e.settle true = (e, true, []) := by
  cases hfinal : e.final with
  | none =>
      rw [hfinal] at h
      exact settle_waiting hfinal (h.resolve_left Bool.false_ne_true)
  | some n => simp [RouteEnd.settle, hfinal]

theorem settle_closes {n : Nat} (h : e.linked = true) (hfinal : e.final = some n) :
    e.settle false = ({ e with linked := false }, true, [.closed n]) := by
  simp [RouteEnd.settle, h, hfinal]

/-- An end that has not closed gives its link up when nothing more will come. -/
theorem settle_open (h : e.linked = true) (hfinal : e.final = none) :
    e.settle locked =
      ({ e with linked := e.peerFinal.all fun n => decide (e.received < n) }, locked, []) := by
  rw [RouteEnd.settle, h, hfinal]
  cases hmore : e.peerFinal.all fun n => decide (e.received < n) with
  | true => simp [← h, ← hfinal]
  | false => simp [← hfinal]

theorem put_unlinked (h : e.linked = false) : e.put locked = (e, locked, []) := by
  simp [RouteEnd.put, h]

theorem put_linked (h : e.linked = true) {e' : RouteEnd}
    (hsettle : { e with sent := e.sent + 1 }.settle locked = (e', locked, [])) :
    e.put locked = (e', locked, [.parcel e.sent]) := by
  rw [RouteEnd.put, if_pos h, hsettle]

theorem receive_unlinked (h : e.linked = false) (m : Msg) :
    e.receive locked m = (e, locked, []) := by
  cases m <;> simp [RouteEnd.receive, h]

theorem receive_linked (h : e.linked = true) (n : Nat) :
    e.receive locked (.parcel n) = { e with received := e.received + 1 }.settle locked ∧
      e.receive locked (.closed n) = { e with peerFinal := some n }.settle locked := by
  simp [RouteEnd.receive, h]

/-- A closed end stays closed. -/
theorem settle_final (e : RouteEnd) (locked : Bool) : (e.settle locked).1.final = e.final := by
  rw [RouteEnd.settle]
  split
  · rfl
  split
  · split <;> rfl
  · split <;> rfl

end Ends

/-! ### One move -/

section Steps

variable {t : Route} {x y : LinkSide}

@[simp] theorem setWire_self (t : Route) (x : LinkSide) (ms : List Msg) :
    (t.setWire x ms).wire x = ms := Function.update_self ..

@[simp] theorem setWire_opposite (t : Route) (x : LinkSide) (ms : List Msg) :
    (t.setWire x ms).wire x.opposite = t.wire x.opposite :=
  Function.update_of_ne x.opposite_ne ..

@[simp] theorem setWire_of_opposite (t : Route) (x : LinkSide) (ms : List Msg) :
    (t.setWire x.opposite ms).wire x = t.wire x := Function.update_of_ne x.opposite_ne.symm ..

@[simp] theorem setWire_ends (t : Route) (x : LinkSide) (ms : List Msg) :
    (t.setWire x ms).ends = t.ends := rfl

@[simp] theorem setWire_locked (t : Route) (x : LinkSide) (ms : List Msg) :
    (t.setWire x ms).locked = t.locked := rfl

@[simp] theorem apply_self (t : Route) (x : LinkSide) (r : RouteEnd × Bool × List Msg) :
    (t.apply x r).ends x = r.1 := Function.update_self ..

@[simp] theorem apply_opposite (t : Route) (x : LinkSide) (r : RouteEnd × Bool × List Msg) :
    (t.apply x r).ends x.opposite = t.ends x.opposite := Function.update_of_ne x.opposite_ne ..

@[simp] theorem apply_of_opposite (t : Route) (x : LinkSide) (r : RouteEnd × Bool × List Msg) :
    (t.apply x.opposite r).ends x = t.ends x := Function.update_of_ne x.opposite_ne.symm ..

@[simp] theorem apply_locked (t : Route) (x : LinkSide) (r : RouteEnd × Bool × List Msg) :
    (t.apply x r).locked = r.2.1 := rfl

@[simp] theorem apply_wire (t : Route) (x : LinkSide) (r : RouteEnd × Bool × List Msg) :
    (t.apply x r).wire x.opposite = t.wire x.opposite ++ r.2.2 := Function.update_self ..

@[simp] theorem apply_wire_self (t : Route) (x : LinkSide) (r : RouteEnd × Bool × List Msg) :
    (t.apply x r).wire x = t.wire x := Function.update_of_ne x.opposite_ne.symm ..

@[simp] theorem apply_wire_of_opposite (t : Route) (x : LinkSide)
    (r : RouteEnd × Bool × List Msg) :
    (t.apply x.opposite r).wire x = t.wire x ++ r.2.2 := by
  have hwire := apply_wire t x.opposite r
  rwa [LinkSide.opposite_opposite] at hwire

theorem deliver_cons {m : Msg} {ms : List Msg} (hwire : t.wire x = m :: ms) :
    t.deliver x = (t.setWire x ms).apply x ((t.ends x).receive t.locked m) := by
  simp [Route.deliver, hwire]

theorem deliver_nil (hwire : t.wire x = []) : t.deliver x = t := by
  simp [Route.deliver, hwire]

namespace Open

theorem put (h : Open t) (x : LinkSide) : Open (t.put x) := by
  rw [Route.put, put_linked (h.linked x) (settle_waiting (h.final x) (h.peerFinal x))]
  have horder := h.order x.opposite
  have hwire := h.wire x.opposite
  rw [LinkSide.opposite_opposite] at horder hwire
  refine ⟨?linked, ?final, ?peerFinal, h.unlocked, ?order, ?wire⟩
  all_goals rw [LinkSide.forall_iff x]
  case linked => simp [h.linked]
  case final => simp [h.final]
  case peerFinal => simp [h.peerFinal]
  case order => simp [h.order x, Nat.le_succ_of_le horder]
  case wire => simp [h.wire x, hwire, between_concat horder]

theorem close (h : Open t) (x : LinkSide) :
    Closing x (t.close x) ∧ ((t.close x).ends x.opposite).final = none := by
  have horder := h.order x.opposite
  have hwire := h.wire x.opposite
  rw [LinkSide.opposite_opposite] at horder hwire
  have hclose : (t.ends x).close t.locked =
      ({ t.ends x with final := some (t.ends x).sent, linked := false }, true,
        [.closed (t.ends x).sent]) := by
    rw [RouteEnd.close, h.unlocked, settle_closes (e := { t.ends x with final := some (t.ends x).sent })
      (h.linked x) rfl]
  rw [Route.close, hclose]
  refine ⟨⟨?unlinked, ?final, ?linked, ?peerFinal, rfl, ⟨(t.ends x).sent, ?order⟩, ?quiet⟩, ?waits⟩
  case unlinked => simp
  case final => simp
  case linked => simp [h.linked]
  case peerFinal => simp [h.peerFinal]
  case order => simp [horder, hwire]
  case quiet => simp [h.wire x, closed_notMem_between]
  case waits => simp [h.final]

theorem deliver (h : Open t) (x : LinkSide) : Open (t.deliver x) := by
  have hwire := h.wire x
  obtain heq | hlt := Nat.eq_or_lt_of_le (h.order x)
  · -- nothing is on its way
    rw [heq, between_self] at hwire
    rw [deliver_nil hwire]
    exact h
  · rw [between_cons hlt] at hwire
    rw [deliver_cons hwire, (receive_linked (h.linked x) _).1,
      settle_waiting (e := { t.ends x with received := (t.ends x).received + 1 }) (h.final x)
        (h.peerFinal x)]
    have horder := h.order x.opposite
    have hwire' := h.wire x.opposite
    rw [LinkSide.opposite_opposite] at horder hwire'
    refine ⟨?linked, ?final, ?peerFinal, h.unlocked, ?order, ?wire⟩
    all_goals rw [LinkSide.forall_iff x]
    case linked => simp [h.linked]
    case final => simp [h.final]
    case peerFinal => simp [h.peerFinal]
    case order => simpa using ⟨hlt, horder⟩
    case wire => simp [hwire']

end Open

/-- An end without its link drops what comes. -/
theorem deliver_unlinked (h : (t.ends x).linked = false) :
    (t.deliver x).ends = t.ends ∧ (t.deliver x).locked = t.locked ∧
      (t.deliver x).wire x = (t.wire x).tail ∧
      (t.deliver x).wire x.opposite = t.wire x.opposite := by
  cases hwire : t.wire x with
  | nil =>
      rw [deliver_nil hwire]
      exact ⟨rfl, rfl, hwire, rfl⟩
  | cons m ms =>
      rw [deliver_cons hwire, receive_unlinked h]
      refine ⟨?_, rfl, by simp, by simp⟩
      funext y
      obtain rfl | rfl := x.eq_or_opposite y <;> simp

namespace Closing

theorem put (h : Closing x t) (y : LinkSide) :
    Closing x (t.put y) ∧ ((t.put y).ends x.opposite).final = (t.ends x.opposite).final := by
  rw [Route.put, h.locked]
  obtain rfl | rfl := x.eq_or_opposite y
  · rw [put_unlinked h.unlinked]
    refine ⟨⟨?_, ?_, ?_, ?_, rfl, ?_, ?_⟩, ?_⟩
    · simp [h.unlinked]
    · simp [h.final]
    · simp [h.linked]
    · simp [h.peerFinal]
    · simpa using h.order
    · simp [h.quiet]
    · simp
  · rw [put_linked h.linked (settle_held (.inr h.peerFinal))]
    refine ⟨⟨?_, ?_, ?_, ?_, rfl, ?_, ?_⟩, ?_⟩
    · simp [h.unlinked]
    · simp [h.final]
    · simp [h.linked]
    · simp [h.peerFinal]
    · simpa using h.order
    · simp [h.quiet]
    · simp

theorem close (h : Closing x t) (y : LinkSide) :
    Closing x (t.close y) ∧ ((t.close y).ends x.opposite).final =
      if y = x then (t.ends x.opposite).final else some (t.ends x.opposite).sent := by
  rw [Route.close, h.locked, RouteEnd.close, settle_held (.inl rfl)]
  obtain rfl | rfl := x.eq_or_opposite y
  · refine ⟨⟨?_, ?_, ?_, ?_, rfl, ?_, ?_⟩, ?_⟩
    · simp [h.unlinked]
    · simp
    · simp [h.linked]
    · simp [h.peerFinal]
    · simpa using h.order
    · simp [h.quiet]
    · simp
  · refine ⟨⟨?_, ?_, ?_, ?_, rfl, ?_, ?_⟩, ?_⟩
    · simp [h.unlinked]
    · simp [h.final]
    · simp [h.linked]
    · simp [h.peerFinal]
    · simpa using h.order
    · simp [h.quiet]
    · simp

theorem deliver (h : Closing x t) : Closing x (t.deliver x) ∧
    ((t.deliver x).ends x.opposite).final = (t.ends x.opposite).final := by
  obtain ⟨hends, hlocked, hwire, hwire'⟩ := deliver_unlinked h.unlinked
  refine ⟨⟨?_, ?_, ?_, ?_, hlocked.trans h.locked, ?_, fun n hn => ?_⟩, by rw [hends]⟩
  · rw [hends, h.unlinked]
  · rw [hends, h.final]
  · rw [hends, h.linked]
  · rw [hends, h.peerFinal]
  · rw [hends, hwire']
    exact h.order
  · rw [hwire] at hn
    exact h.quiet n (List.mem_of_mem_tail hn)

/-- The other end gets what was sent before the closure, and then the
closure: it keeps its link only if it has closed itself. -/
theorem deliver_opposite (h : Closing x t) :
    ((t.deliver x.opposite).ends x.opposite).final = (t.ends x.opposite).final ∧
      (Closing x (t.deliver x.opposite) ∨ (Told x (t.deliver x.opposite) ∧
        ((t.deliver x.opposite).ends x.opposite).linked = (t.ends x.opposite).final.isSome)) := by
  obtain ⟨n, hle, hwire⟩ := h.order
  obtain heq | hlt := Nat.eq_or_lt_of_le hle
  · rw [heq, between_self, List.nil_append] at hwire
    rw [deliver_cons hwire, (receive_linked h.linked n).2, h.locked]
    refine ⟨?_, .inr ?_⟩
    · simp [settle_final]
    cases hfinal : (t.ends x.opposite).final with
    | none =>
        have hsettle : { t.ends x.opposite with peerFinal := some n }.settle true =
            ({ t.ends x.opposite with peerFinal := some n, linked := false }, true, []) := by
          rw [settle_open (e := { t.ends x.opposite with peerFinal := some n }) h.linked hfinal]
          simp [heq]
        rw [← hfinal, hsettle]
        refine ⟨⟨?_, ?_, rfl, ?_, ?_⟩, ?_⟩
        · simp [h.unlinked]
        · simp [h.final]
        · simp
        · simp [h.quiet]
        · simp [hfinal]
    | some k =>
        rw [← hfinal, settle_held (e := { t.ends x.opposite with peerFinal := some n })
          (.inl (by simp [hfinal]))]
        refine ⟨⟨?_, ?_, rfl, ?_, ?_⟩, ?_⟩
        · simp [h.unlinked]
        · simp [h.final]
        · simp
        · simp [h.quiet]
        · simp [h.linked, hfinal]
  · rw [between_cons hlt] at hwire
    rw [deliver_cons hwire, (receive_linked h.linked _).1, h.locked,
      settle_held (e := { t.ends x.opposite with received := (t.ends x.opposite).received + 1 })
        (.inr h.peerFinal)]
    refine ⟨by simp, .inl ⟨?_, ?_, ?_, ?_, rfl, ⟨n, ?_⟩, ?_⟩⟩
    · simp [h.unlinked]
    · simp [h.final]
    · simp [h.linked]
    · simp [h.peerFinal]
    · simp [Nat.succ_le_of_lt hlt]
    · simp [h.quiet]

end Closing

/-- Then nothing changes but what the end with the link, if any, sends. -/
theorem Told.step (h : Told x t)
    (hend : (t.ends x.opposite).linked = true → (t.ends x.opposite).final.isSome) (m : Move) :
    Told x (t.step m) ∧
      ((t.step m).ends x.opposite).linked = (t.ends x.opposite).linked ∧
      ((t.ends x.opposite).final.isSome → ((t.step m).ends x.opposite).final.isSome) := by
  cases m with
  -- end `x` has closed and has no link, so it sends nothing
  | put y =>
      show Told x (t.put y) ∧ ((t.put y).ends x.opposite).linked = _ ∧
        (_ → ((t.put y).ends x.opposite).final.isSome)
      rw [Route.put, h.locked]
      obtain rfl | rfl := x.eq_or_opposite y
      · rw [put_unlinked h.unlinked]
        refine ⟨⟨?_, ?_, rfl, ?_, ?_⟩, ?_, ?_⟩
        · simp [h.unlinked]
        · simp [h.final]
        · simp [h.wire]
        · simp [h.quiet]
        · simp
        · simp
      -- the other end sends if it has its link, and then it is closed
      · cases hlinked : (t.ends x.opposite).linked with
        | false =>
            rw [put_unlinked hlinked]
            refine ⟨⟨?_, ?_, rfl, ?_, ?_⟩, ?_, ?_⟩
            · simp [h.unlinked]
            · simp [h.final]
            · simp [h.wire]
            · simp [h.quiet]
            · simp [hlinked]
            · simp
        | true =>
            rw [put_linked hlinked (settle_held (.inl (hend hlinked)))]
            refine ⟨⟨?_, ?_, rfl, ?_, ?_⟩, ?_, ?_⟩
            · simp [h.unlinked]
            · simp [h.final]
            · simp [h.wire]
            · simp [h.quiet]
            · simp [hlinked]
            · simp
  -- the lock is held, so a close settles nothing
  | close y =>
      show Told x (t.close y) ∧ ((t.close y).ends x.opposite).linked = _ ∧
        (_ → ((t.close y).ends x.opposite).final.isSome)
      rw [Route.close, h.locked, RouteEnd.close, settle_held (.inl rfl)]
      obtain rfl | rfl := x.eq_or_opposite y
      · refine ⟨⟨?_, ?_, rfl, ?_, ?_⟩, ?_, ?_⟩
        · simp [h.unlinked]
        · simp
        · simp [h.wire]
        · simp [h.quiet]
        · simp
        · simp
      · refine ⟨⟨?_, ?_, rfl, ?_, ?_⟩, ?_, ?_⟩
        · simp [h.unlinked]
        · simp [h.final]
        · simp [h.wire]
        · simp [h.quiet]
        · simp
        · simp
  -- what comes to `x` is dropped, and nothing comes to the other end
  | deliver y =>
      show Told x (t.deliver y) ∧ ((t.deliver y).ends x.opposite).linked = _ ∧
        (_ → ((t.deliver y).ends x.opposite).final.isSome)
      obtain rfl | rfl := x.eq_or_opposite y
      · obtain ⟨hends, hlocked, hwire, hwire'⟩ := deliver_unlinked h.unlinked
        rw [hends]
        refine ⟨⟨?_, ?_, hlocked.trans h.locked, hwire'.trans h.wire, fun n hn => ?_⟩, rfl, id⟩
        · rw [hends, h.unlinked]
        · rw [hends, h.final]
        · rw [hwire] at hn
          exact h.quiet n (List.mem_of_mem_tail hn)
      · rw [deliver_nil h.wire]
        exact ⟨h, rfl, id⟩

/-- What any move but a crossing closure leaves of such a route. -/
theorem Closing.step (h : Closing x t) {m : Move} (hm : m ≠ .close x.opposite) :
    ((t.step m).ends x.opposite).final = (t.ends x.opposite).final ∧
      (Closing x (t.step m) ∨
        (Told x (t.step m) ∧
          ((t.step m).ends x.opposite).linked = (t.ends x.opposite).final.isSome)) := by
  cases m with
  | put y => exact ⟨(h.put y).2, .inl (h.put y).1⟩
  | close y =>
      obtain rfl | rfl := x.eq_or_opposite y
      · have hclose := h.close y
        rw [if_pos rfl] at hclose
        exact ⟨hclose.2, .inl hclose.1⟩
      · exact absurd rfl hm
  | deliver y =>
      obtain rfl | rfl := x.eq_or_opposite y
      · exact ⟨h.deliver.2, .inl h.deliver.1⟩
      · exact h.deliver_opposite

theorem Closing.crosses (h : Closing x t) : Crossed (t.step (.close x.opposite)) := by
  have hclose := h.close x.opposite
  rw [if_neg x.opposite_ne] at hclose
  refine .closing x hclose.1 ?_
  show ((t.close x.opposite).ends x.opposite).final.isSome = true
  rw [hclose.2]
  rfl

theorem sound_step (h : Sound t) {m : Move} (hm : NotCrossing t m) : Sound (t.step m) := by
  cases h with
  | «open» h =>
      cases m with
      | put y => exact .open (h.put y)
      | close y => exact .closing y (h.close y).1 (h.close y).2
      | deliver y => exact .open (h.deliver y)
  | closing x h hfinal =>
      have hne : m ≠ .close x.opposite := by
        rintro rfl
        obtain ⟨n, -, hwire⟩ := h.order
        exact hm n (by simp [hwire])
      obtain ⟨hsame, h' | ⟨h', hlinked⟩⟩ := h.step hne
      · exact .closing x h' (hsame.trans hfinal)
      · exact .told x h' (by rw [hlinked, hfinal]; rfl)
  | told x h hunlinked =>
      obtain ⟨h', hlinked, -⟩ := h.step (by simp [hunlinked]) m
      exact .told x h' (hlinked.trans hunlinked)

/-- Crossing closures never get apart again. -/
theorem crossed_step (h : Crossed t) (m : Move) : Crossed (t.step m) := by
  cases h with
  | closing x h hfinal =>
      by_cases hm : m = .close x.opposite
      · subst hm
        exact h.crosses
      · obtain ⟨hsame, h' | ⟨h', hlinked⟩⟩ := h.step hm
        · exact .closing x h' (hsame ▸ hfinal)
        · exact .told x h' (hlinked.trans hfinal) (hsame ▸ hfinal)
  | told x h hlinked hfinal =>
      obtain ⟨h', hlinked', hfinal'⟩ := h.step (fun _ => hfinal) m
      exact .told x h' (hlinked'.trans hlinked) (hfinal' hfinal)

theorem crossed_of_crossing (h : Sound t) {m : Move} (hm : ¬NotCrossing t m) :
    Crossed (t.step m) := by
  cases m with
  | put y => exact absurd trivial hm
  | deliver y => exact absurd trivial hm
  | close y =>
      obtain ⟨n, hn⟩ := not_forall_not.mp hm
      cases h with
      | «open» h => exact absurd hn (h.wire y ▸ closed_notMem_between n _ _)
      | closing x h hfinal =>
          obtain rfl | rfl := x.eq_or_opposite y
          · exact absurd hn (h.quiet n)
          · exact h.crosses
      | told x h hunlinked =>
          obtain rfl | rfl := x.eq_or_opposite y
          · exact absurd hn (h.quiet n)
          · rw [h.wire] at hn
            cases hn

theorem step_final (h : (t.ends y).final.isSome) (m : Move) :
    ((t.step m).ends y).final.isSome := by
  have happly (t' : Route) (r : RouteEnd × Bool × List Msg) (x : LinkSide)
      (hends : t'.ends = t.ends) (hr : (t.ends x).final.isSome → r.1.final.isSome) :
      ((t'.apply x r).ends y).final.isSome := by
    obtain rfl | rfl := x.eq_or_opposite y
    · rw [apply_self]
      exact hr h
    · rw [apply_opposite, hends]
      exact h
  cases m with
  | put x =>
      refine happly t _ x rfl fun hx => ?_
      cases hlinked : (t.ends x).linked with
      | false => rwa [put_unlinked hlinked]
      | true =>
          rw [RouteEnd.put, if_pos hlinked]
          exact (congrArg Option.isSome (settle_final _ _)).trans hx
  | close x =>
      refine happly t _ x rfl fun _ => ?_
      exact congrArg Option.isSome (settle_final _ _)
  | deliver x =>
      show ((t.deliver x).ends y).final.isSome
      cases hwire : t.wire x with
      | nil => rwa [deliver_nil hwire]
      | cons m ms =>
          rw [deliver_cons hwire]
          refine happly (t.setWire x ms) _ x rfl fun hx => ?_
          cases hlinked : (t.ends x).linked with
          | false => rwa [receive_unlinked hlinked]
          | true =>
              cases m with
              | parcel n =>
                  rw [(receive_linked hlinked n).1]
                  exact (congrArg Option.isSome (settle_final _ _)).trans hx
              | closed n =>
                  rw [(receive_linked hlinked n).2]
                  exact (congrArg Option.isSome (settle_final _ _)).trans hx

/-- The parcels come in order. -/
theorem parcel_head (h : Sound t ∨ Crossed t) (hlinked : (t.ends x).linked = true) {n : Nat}
    {ms : List Msg} (hwire : t.wire x = .parcel n :: ms) : n = (t.ends x).received := by
  have hbetween {a b : Nat} {tail : List Msg} (hle : a ≤ b)
      (h : between a b ++ tail = .parcel n :: ms) (htail : tail ≠ .parcel n :: ms) : n = a := by
    obtain heq | hlt := Nat.eq_or_lt_of_le hle
    · rw [heq, between_self] at h
      exact absurd h htail
    · rw [between_cons hlt] at h
      injection h with h
      injection h with h
      exact h.symm
  have hclosing {y : LinkSide} (h : Closing y t) : n = (t.ends x).received := by
    obtain rfl | rfl := y.eq_or_opposite x
    · rw [h.unlinked] at hlinked
      cases hlinked
    · obtain ⟨k, hle, hwire'⟩ := h.order
      exact hbetween hle (hwire'.symm.trans hwire) (by simp)
  have htold {y : LinkSide} (h : Told y t) : n = (t.ends x).received := by
    obtain rfl | rfl := y.eq_or_opposite x
    · rw [h.unlinked] at hlinked
      cases hlinked
    · rw [h.wire] at hwire
      cases hwire
  obtain (h | ⟨y, h, -⟩ | ⟨y, h, -⟩) | (⟨y, h, -⟩ | ⟨y, h, -, -⟩) := h
  · have hwire' := h.wire x
    rw [hwire, ← List.append_nil (between _ _)] at hwire'
    exact hbetween (h.order x) hwire'.symm (by simp)
  · exact hclosing h
  · exact htold h
  · exact hclosing h
  · exact htold h

/-- A closure comes to an end that has its link, and after all parcels. -/
theorem closed_head (h : Sound t ∨ Crossed t) {n : Nat} {ms : List Msg}
    (hwire : t.wire x = .closed n :: ms) :
    (t.ends x).linked = true ∧ (t.ends x).received ≤ n := by
  have hmem : Msg.closed n ∈ t.wire x := hwire ▸ List.mem_cons_self
  have hclosing {y : LinkSide} (h : Closing y t) :
      (t.ends x).linked = true ∧ (t.ends x).received ≤ n := by
    obtain rfl | rfl := y.eq_or_opposite x
    · exact absurd hmem (h.quiet n)
    · obtain ⟨k, hle, hwire'⟩ := h.order
      rw [hwire'] at hmem
      obtain hmem | hmem := List.mem_append.mp hmem
      · exact absurd hmem (closed_notMem_between n _ _)
      · obtain rfl : n = k := by simpa using hmem
        exact ⟨h.linked, hle⟩
  have htold {y : LinkSide} (h : Told y t) :
      (t.ends x).linked = true ∧ (t.ends x).received ≤ n := by
    obtain rfl | rfl := y.eq_or_opposite x
    · exact absurd hmem (h.quiet n)
    · rw [h.wire] at hmem
      cases hmem
  obtain (h | ⟨y, h, -⟩ | ⟨y, h, -⟩) | (⟨y, h, -⟩ | ⟨y, h, -, -⟩) := h
  · exact absurd hmem (h.wire x ▸ closed_notMem_between n _ _)
  · exact hclosing h
  · exact htold h
  · exact hclosing h
  · exact htold h

/-- Whatever an end does, the closures have crossed or they have not. -/
theorem phase_step (h : Sound t ∨ Crossed t) (m : Move) : Sound (t.step m) ∨ Crossed (t.step m) := by
  obtain h | h := h
  · by_cases hm : NotCrossing t m
    · exact .inl (sound_step h hm)
    · exact .inr (crossed_of_crossing h hm)
  · exact .inr (crossed_step h m)

theorem close_final (t : Route) (x : LinkSide) : ((t.close x).ends x).final.isSome := by
  rw [Route.close, apply_self]
  exact congrArg Option.isSome (settle_final _ _)

end Steps

/-! ### Runs -/

section Runs

variable {t : Route} {ms : List Move}

theorem exec_final {x : LinkSide} (h : (t.ends x).final.isSome ∨ .close x ∈ ms) :
    ((exec Route.step t ms).ends x).final.isSome := by
  induction ms generalizing t with
  | nil => exact h.resolve_right List.not_mem_nil
  | cons m ms ih =>
      apply ih
      obtain h | h := h
      · exact .inl (step_final h m)
      · obtain rfl | h := List.mem_cons.mp h
        · exact .inl (close_final t x)
        · exact .inr h

theorem crossed_exec (h : Crossed t) (ms : List Move) : Crossed (exec Route.step t ms) := by
  induction ms generalizing t with
  | nil => exact h
  | cons m ms ih => exact ih (crossed_step h m)

/-- The closures cross in a run or they do not. -/
theorem exec_phase (h : Sound t) (ms : List Move) :
    (Meets Route.step NotCrossing t ms ∧ Sound (exec Route.step t ms)) ∨
      (¬Meets Route.step NotCrossing t ms ∧ Crossed (exec Route.step t ms)) := by
  induction ms generalizing t with
  | nil => exact .inl ⟨trivial, h⟩
  | cons m ms ih =>
      by_cases hm : NotCrossing t m
      · obtain ⟨hmeets, h'⟩ | ⟨hmeets, h'⟩ := ih (sound_step h hm)
        · exact .inl ⟨⟨hm, hmeets⟩, h'⟩
        · exact .inr ⟨fun hboth => hmeets hboth.2, h'⟩
      · exact .inr ⟨fun hboth => hm hboth.1, crossed_exec (crossed_of_crossing h hm) ms⟩

/-- Once both ends have closed and nothing is on its way, both links are given
up exactly if the closures did not cross. -/
theorem unlinked_iff (h : Open t) (hclosed : ∀ x, .close x ∈ ms)
    (hquiet : ∀ x, (exec Route.step t ms).wire x = []) :
    (∀ x, ((exec Route.step t ms).ends x).linked = false) ↔
      Meets Route.step NotCrossing t ms := by
  obtain ⟨hmeets, hsound⟩ | ⟨hmeets, hcrossed⟩ := exec_phase (.open h) ms
  · refine iff_of_true ?_ hmeets
    cases hsound with
    | «open» h' =>
        have hfinal := exec_final (t := t) (.inr (hclosed .a))
        rw [h'.final] at hfinal
        cases hfinal
    | closing x h' hfinal =>
        obtain ⟨n, -, hwire⟩ := h'.order
        rw [hquiet] at hwire
        exact absurd hwire.symm (by simp)
    | told x h' hunlinked => exact (x.forall_iff).mpr ⟨h'.unlinked, hunlinked⟩
  · refine iff_of_false (fun hunlinked => ?_) hmeets
    cases hcrossed with
    | closing x h' hfinal =>
        have hlinked := h'.linked
        rw [hunlinked] at hlinked
        cases hlinked
    | told x h' hlinked hfinal =>
        rw [hunlinked] at hlinked
        cases hlinked

end Runs

end Teardown

end MojoRs.Ipcz
