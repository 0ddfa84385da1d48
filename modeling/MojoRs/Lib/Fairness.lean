/-
MojoRs/Lib/Fairness.lean

Endless runs of a deterministic system, and what they reach.  `trace step s ops n`
is the state after the first `n` operations.

A state short of the goal needs some operation.  If this operation lowers a
rank, and the others lower the rank or leave both the rank and the need as they
are, then a run in which what is needed comes again and again reaches the goal
(`reaches_of_rank`).

Main results: `trace_always`, `reaches_of_rank`.
-/
import Mathlib.Order.Basic
import MojoRs.Lib.Run

namespace MojoRs.Lib

variable {σ α : Type*}

/-- The states of an endless run. -/
def trace (step : σ → α → σ) (s : σ) (ops : ℕ → α) : ℕ → σ
  | 0 => s
  | n + 1 => step (trace step s ops n) (ops n)

/-- The operation comes again and again. -/
def Recurs (ops : ℕ → α) (a : α) : Prop := ∀ n, ∃ m, n ≤ m ∧ ops m = a

/-- An invariant that every guarded step keeps holds all along. -/
theorem trace_always {step : σ → α → σ} {P : σ → Prop} {C : σ → α → Prop}
    (hstep : ∀ s a, P s → C s a → P (step s a)) {s : σ} {ops : ℕ → α} (h₀ : P s)
    (h : ∀ n, C (trace step s ops n) (ops n)) (n : ℕ) : P (trace step s ops n) := by
  induction n with
  | zero => exact h₀
  | succ n ih => exact hstep _ _ ih (h n)

section Rank

variable {f : ℕ → σ} {ops : ℕ → α} {goal : σ → Prop} {rank : σ → ℕ} {need : σ → α} {n₀ : ℕ}

/-- Between two operations that are needed, the rank falls or all stays as it
is. -/
theorem rank_until
    (hstep : ∀ n, n₀ ≤ n → rank (f (n + 1)) < rank (f n) ∨
      rank (f (n + 1)) = rank (f n) ∧ need (f (n + 1)) = need (f n) ∧ ops n ≠ need (f n))
    {n m : ℕ} (hn : n₀ ≤ n) (hm : n ≤ m) :
    (∃ k, n₀ ≤ k ∧ rank (f k) < rank (f n)) ∨
      rank (f m) = rank (f n) ∧ need (f m) = need (f n) := by
  induction m, hm using Nat.le_induction with
  | base => exact .inr ⟨rfl, rfl⟩
  | succ m hm ih =>
      rcases ih with hless | ⟨hrank, hneed⟩
      · exact .inl hless
      · rcases hstep m (hn.trans hm) with hless | ⟨hrank', hneed', -⟩
        · exact .inl ⟨m + 1, (hn.trans hm).trans m.le_succ, hrank ▸ hless⟩
        · exact .inr ⟨hrank'.trans hrank, hneed'.trans hneed⟩

variable (f goal rank need) in
/-- The rule for reaching a goal. -/
theorem reaches_of_rank (hfair : ∀ n, n₀ ≤ n → ¬goal (f n) → Recurs ops (need (f n)))
    (hstep : ∀ n, n₀ ≤ n → ¬goal (f n) → goal (f (n + 1)) ∨ rank (f (n + 1)) < rank (f n) ∨
      rank (f (n + 1)) = rank (f n) ∧ need (f (n + 1)) = need (f n) ∧ ops n ≠ need (f n)) :
    ∃ n, n₀ ≤ n ∧ goal (f n) := by
  by_contra hnever
  push Not at hnever
  have hsteps : ∀ n, n₀ ≤ n → rank (f (n + 1)) < rank (f n) ∨
      rank (f (n + 1)) = rank (f n) ∧ need (f (n + 1)) = need (f n) ∧ ops n ≠ need (f n) :=
    fun n hn => (hstep n hn (hnever n hn)).resolve_left (hnever _ (hn.trans n.le_succ))
  -- the rank falls without end
  have hdescent : ∀ r n, n₀ ≤ n → rank (f n) ≠ r := by
    intro r
    induction r using Nat.strong_induction_on with
    | _ r ih =>
      intro n hn hr
      obtain ⟨m, hm, hneeded⟩ := hfair n hn (hnever n hn) n
      rcases rank_until hsteps hn hm with ⟨k, hk, hless⟩ | ⟨hrank, hneed⟩
      · exact ih _ (hr ▸ hless) k hk rfl
      · rcases hsteps m (hn.trans hm) with hless | ⟨-, -, hother⟩
        · exact ih _ (hr ▸ hrank ▸ hless) (m + 1) ((hn.trans hm).trans m.le_succ) rfl
        · exact hother (hneeded.trans hneed.symm)
  exact hdescent _ n₀ le_rfl rfl

end Rank

end MojoRs.Lib
