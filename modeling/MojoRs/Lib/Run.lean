/-
MojoRs/Lib/Run.lean

Runs of a deterministic system.  A system is a state type `σ`, a type `α` of
operations and a total `step : σ → α → σ`; a run is a list of operations.

Two ways of speaking about a whole run are used by the developments above:

* `Always step P s as` — `P` holds in every state the run `as` visits from
  `s`, the first and the last included;
* `Meets step C s as` — every operation of the run is taken in a state where
  the guard `C` allows it.

The induction over runs is done once, in `always_of_meets`: an invariant that
holds at the start and that every guarded step keeps holds always.
-/
import Mathlib.Algebra.Ring.Nat
import Mathlib.Data.List.Basic

namespace MojoRs.Lib

variable {σ α : Type*}

/-- The state after a run. -/
def exec (step : σ → α → σ) : σ → List α → σ
  | s, [] => s
  | s, a :: as => exec step (step s a) as

/-- `P` holds in every state visited by a run. -/
def Always (step : σ → α → σ) (P : σ → Prop) : σ → List α → Prop
  | s, [] => P s
  | s, a :: as => P s ∧ Always step P (step s a) as

/-- Every operation of a run is taken where the guard `C` allows it. -/
def Meets (step : σ → α → σ) (C : σ → α → Prop) : σ → List α → Prop
  | _, [] => True
  | s, a :: as => C s a ∧ Meets step C (step s a) as

variable {step : σ → α → σ} {P Q : σ → Prop} {C : σ → α → Prop}

@[simp] theorem exec_nil (s : σ) : exec step s [] = s := rfl

@[simp] theorem exec_cons (s : σ) (a : α) (as : List α) :
    exec step s (a :: as) = exec step (step s a) as := rfl

theorem exec_append (s : σ) (as bs : List α) :
    exec step s (as ++ bs) = exec step (exec step s as) bs := by
  induction as generalizing s with
  | nil => rfl
  | cons a as ih => exact ih (step s a)

/-- A property that always holds along a run holds at its end. -/
theorem Always.last {s : σ} {as : List α} (h : Always step P s as) :
    P (exec step s as) := by
  induction as generalizing s with
  | nil => exact h
  | cons a as ih => exact ih h.2

theorem Always.imp (hPQ : ∀ s, P s → Q s) {s : σ} {as : List α}
    (h : Always step P s as) : Always step Q s as := by
  induction as generalizing s with
  | nil => exact hPQ s h
  | cons a as ih => exact ⟨hPQ s h.1, ih h.2⟩

/-- The induction over runs: an invariant kept by every guarded step holds in
every state of a run that meets the guard. -/
theorem always_of_meets (hstep : ∀ s a, P s → C s a → P (step s a)) {s : σ}
    {as : List α} (h₀ : P s) (h : Meets step C s as) : Always step P s as := by
  induction as generalizing s with
  | nil => exact h₀
  | cons a as ih => exact ⟨h₀, ih (hstep s a h₀ h.1) h.2⟩

/-- The same induction for a system without guard. -/
theorem always_of_step (hstep : ∀ s a, P s → P (step s a)) {s : σ}
    (h₀ : P s) (as : List α) : Always step P s as := by
  induction as generalizing s with
  | nil => exact h₀
  | cons a as ih => exact ⟨h₀, ih (hstep s a h₀)⟩

/-- Conversely, where an invariant turns a step that breaks the guard into a
violation of `Q`, a run that always satisfies `Q` meets the guard. -/
theorem meets_of_always (hstep : ∀ s a, P s → C s a → P (step s a))
    (hbad : ∀ s a, P s → Q (step s a) → C s a) {s : σ} {as : List α}
    (h₀ : P s) (h : Always step Q s as) : Meets step C s as := by
  induction as generalizing s with
  | nil => trivial
  | cons a as ih =>
      have hQ : Q (step s a) := by
        cases as with
        | nil => exact h.2
        | cons b bs => exact h.2.1
      have hC : C s a := hbad s a h₀ hQ
      exact ⟨hC, ih (hstep s a h₀ hC) h.2⟩

/-- The same where the violation may also be one of a law `L` of the steps. -/
theorem meets_of_always_meets {L : σ → α → Prop} (hstep : ∀ s a, P s → C s a → P (step s a))
    (hbad : ∀ s a, P s → L s a → Q (step s a) → C s a) {s : σ} {as : List α}
    (h₀ : P s) (h : Always step Q s as) (hL : Meets step L s as) : Meets step C s as := by
  induction as generalizing s with
  | nil => trivial
  | cons a as ih =>
      have hQ : Q (step s a) := by
        cases as with
        | nil => exact h.2
        | cons b bs => exact h.2.1
      have hC : C s a := hbad s a h₀ hL.1 hQ
      exact ⟨hC, ih (hstep s a h₀ hC) h.2 hL.2⟩

/-- A guard that always allows is met by every run. -/
theorem meets_of_forall (h : ∀ s a, C s a) (s : σ) (as : List α) : Meets step C s as := by
  induction as generalizing s with
  | nil => trivial
  | cons a as ih => exact ⟨h s a, ih _⟩

instance decidableMeets [∀ s a, Decidable (C s a)] :
    (s : σ) → (as : List α) → Decidable (Meets step C s as)
  | _, [] => isTrue trivial
  | s, a :: as =>
      have := decidableMeets (step s a) as
      inferInstanceAs (Decidable (C s a ∧ Meets step C (step s a) as))

theorem meets_append {s : σ} {as bs : List α} :
    Meets step C s (as ++ bs) ↔ Meets step C s as ∧ Meets step C (exec step s as) bs := by
  induction as generalizing s with
  | nil => exact (iff_of_eq (true_and _)).symm
  | cons a as ih => exact (and_congr_right fun _ => ih).trans and_assoc.symm

theorem meets_and {D : σ → α → Prop} {s : σ} {as : List α} :
    Meets step (fun s a => C s a ∧ D s a) s as ↔ Meets step C s as ∧ Meets step D s as := by
  induction as generalizing s with
  | nil => exact (iff_of_eq (true_and _)).symm
  | cons a as ih => exact (and_congr_right fun _ => ih).trans and_and_and_comm

/-- What every guarded step relates is related along the run. -/
theorem related_of_meets {R : σ → σ → Prop} (hrefl : ∀ s, R s s)
    (htrans : ∀ s s' s'', R s s' → R s' s'' → R s s'')
    (hstep : ∀ s a, P s → C s a → P (step s a) ∧ R s (step s a)) {s : σ} {as : List α}
    (h₀ : P s) (h : Meets step C s as) : P (exec step s as) ∧ R s (exec step s as) := by
  induction as generalizing s with
  | nil => exact ⟨h₀, hrefl s⟩
  | cons a as ih =>
      obtain ⟨hP, hR⟩ := hstep s a h₀ h.1
      obtain ⟨hP', hR'⟩ := ih hP h.2
      exact ⟨hP', htrans _ _ _ hR hR'⟩

/-- A guard that follows from another one wherever an invariant holds. -/
theorem Meets.imp {C' : σ → α → Prop} (hstep : ∀ s a, P s → C s a → P (step s a))
    (h : ∀ s a, P s → C s a → C' s a) {s : σ} {as : List α} (h₀ : P s)
    (hC : Meets step C s as) : Meets step C' s as := by
  induction as generalizing s with
  | nil => trivial
  | cons a as ih => exact ⟨h s a h₀ hC.1, ih (hstep s a h₀ hC.1) hC.2⟩

/-- Two guards that agree wherever an invariant holds are met by the same
runs. -/
theorem meets_congr {C' : σ → α → Prop} (hstep : ∀ s a, P s → P (step s a))
    (h : ∀ s a, P s → (C s a ↔ C' s a)) {s : σ} {as : List α} (h₀ : P s) :
    Meets step C s as ↔ Meets step C' s as := by
  induction as generalizing s with
  | nil => exact Iff.rfl
  | cons a as ih => exact and_congr (h s a h₀) (ih (hstep s a h₀))

end MojoRs.Lib
