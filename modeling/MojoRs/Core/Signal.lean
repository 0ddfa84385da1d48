/-
MojoRs/Core/Signal.lean

Signals and signal states (`signal.rs`).
-/

namespace MojoRs.Core

/-- A set of handle signals (bitmask). -/
structure Signals where
  bits : UInt32
  deriving DecidableEq, Repr

namespace Signals

/-- No signal. -/
def none : Signals := ⟨0⟩
/-- A message or data can be read. -/
def readable : Signals := ⟨(1 : UInt32) <<< 0⟩
/-- A message or data can be written. -/
def writable : Signals := ⟨(1 : UInt32) <<< 1⟩
/-- The other end is closed. -/
def peerClosed : Signals := ⟨(1 : UInt32) <<< 2⟩
/-- Data has come since the last read. -/
def newDataReadable : Signals := ⟨(1 : UInt32) <<< 3⟩
/-- The other end is in another process. -/
def peerRemote : Signals := ⟨(1 : UInt32) <<< 4⟩
/-- A quota is exceeded. -/
def quotaExceeded : Signals := ⟨(1 : UInt32) <<< 5⟩

instance : OrOp Signals := ⟨fun a b => ⟨a.bits ||| b.bits⟩⟩

/-- Whether the set contains `other`. -/
def contains (s other : Signals) : Bool := s.bits &&& other.bits == other.bits

/-- No bit is set. -/
def isEmpty (s : Signals) : Bool := s.bits == 0

theorem contains_none (s : Signals) : s.contains .none := by simp [contains, Signals.none]

theorem contains_trans {s t u : Signals} (hst : s.contains t) (htu : t.contains u) :
    s.contains u := by
  simp only [contains, beq_iff_eq] at *
  calc s.bits &&& u.bits = s.bits &&& (t.bits &&& u.bits) := by rw [htu]
    _ = u.bits := by rw [← UInt32.and_assoc, hst, htu]

end Signals

/-- Signals currently satisfied, and those that could still become so. -/
structure SignalsState where
  satisfied : Signals
  satisfiable : Signals
  deriving DecidableEq, Repr

namespace SignalsState

/-- `SignalsState::default`. -/
def empty : SignalsState := ⟨.none, .none⟩

/-- Whether the trigger set is currently satisfied. -/
def isSatisfied (s : SignalsState) (trigger : Signals) : Bool := s.satisfied.contains trigger

/-- Whether the trigger set can never be satisfied. -/
def isUnsatisfiable (s : SignalsState) (trigger : Signals) : Bool :=
  !s.satisfied.contains trigger && !s.satisfiable.contains trigger

end SignalsState

end MojoRs.Core
