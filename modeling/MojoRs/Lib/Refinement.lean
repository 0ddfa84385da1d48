/-
MojoRs/Lib/Refinement.lean

Refinement between two systems that answer calls.  A step takes a state and a
call to an answer and the next state.  The abstract system may leave something
open in its calls; then a call comes with a choice that settles it, and the
concrete system refines the abstract one if choices exist with which this gives
the same answers.

`Refines.answers` carries the step over to runs.
-/
import MojoRs.Lib.Run

namespace MojoRs.Lib

variable {σ τ α β ω : Type*}

/-- The answers to the calls of a run. -/
def answers (step : σ → α → ω × σ) : σ → List α → List ω
  | _, [] => []
  | s, a :: as => (step s a).1 :: answers step (step s a).2 as

/-- Every answer is that of a step. -/
theorem forall_mem_answers {P : ω → Prop} {step : σ → α → ω × σ} (h : ∀ s a, P (step s a).1)
    (s : σ) (as : List α) : ∀ x ∈ answers step s as, P x := by
  induction as generalizing s with
  | nil =>
      intro x hx
      exact absurd hx List.not_mem_nil
  | cons a as ih => exact List.forall_mem_cons.mpr ⟨h s a, ih (step s a).2⟩

/-- Each call of the concrete system is one of the abstract system, which gives
the same answer and keeps the states related. -/
def Refines (step : σ → α → ω × σ) (spec : τ → α × β → ω × τ) (R : σ → τ → Prop) : Prop :=
  ∀ s t a, R s t → ∃ b, (spec t (a, b)).1 = (step s a).1 ∧ R (step s a).2 (spec t (a, b)).2

variable {step : σ → α → ω × σ} {spec : τ → α × β → ω × τ} {R : σ → τ → Prop}

/-- The abstract system gives the answers of every run of the concrete one. -/
theorem Refines.answers (h : Refines step spec R) {s : σ} {t : τ} (hR : R s t) (as : List α) :
    ∃ bs : List β, bs.length = as.length ∧
      Lib.answers spec t (as.zip bs) = Lib.answers step s as ∧
      R (exec (fun s a => (step s a).2) s as) (exec (fun t c => (spec t c).2) t (as.zip bs)) := by
  induction as generalizing s t with
  | nil => exact ⟨[], rfl, rfl, hR⟩
  | cons a as ih =>
      obtain ⟨b, hanswer, hnext⟩ := h s t a hR
      obtain ⟨bs, hlength, hanswers, hlast⟩ := ih hnext
      refine ⟨b :: bs, congrArg (· + 1) hlength, ?_, hlast⟩
      show (spec t (a, b)).1 :: Lib.answers spec _ (as.zip bs) = (step s a).1 :: _
      rw [hanswer, hanswers]

end MojoRs.Lib
