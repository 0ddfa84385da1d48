/-
MojoRs/Lib/Effect.lean

Effectful code: a function in `EStateM ε σ` reads and writes a state and may
fail, and then the state it had reached stays as it is.

* `bind_eq_ok` and the lemmas beside it read a run that returned backwards,
  one statement at a time;
* `Maintains R x` says that `x` relates the state it starts in to the one it
  leaves, whether it returns or fails.  For a preorder `R` the statements of
  a sequence are taken one by one (`Maintains.bind`), and a loop as one of its
  rounds (`keeps_forM`);
* `Yields P x V` says that `x` keeps the invariant `P`, and that what it
  returns is in `V`;
* `InTurn R l` takes a step of `R` for each element of a list, as a loop over
  the list does that returns (`forM_eq_ok`);
* `RunsThrough f l` runs `f` for each element of a list, the last of which may
  fail: a loop does so if it stops nowhere before (`runsThrough_forM_iff`).

Main results: `bind_eq_ok`, `Maintains.bind`, `keeps_forM`, `Yields.bind`, `forM_eq_ok`,
`runsThrough_forM_iff`.
-/
import Mathlib.Order.Defs.Unbundled

namespace MojoRs.Lib

variable {ε σ α β : Type}

/-! ### Runs that return -/

theorem bind_eq_ok {x : EStateM ε σ α} {f : α → EStateM ε σ β} {s s'' : σ} {b : β} :
    (x >>= f).run s = .ok b s'' ↔ ∃ a s', x.run s = .ok a s' ∧ (f a).run s' = .ok b s'' := by
  rw [EStateM.run_bind]
  cases x.run s with
  | ok a s' =>
      constructor
      · exact fun h => ⟨a, s', rfl, h⟩
      · rintro ⟨a', s₁, h, hf⟩
        injection h with ha hs
        subst ha hs
        exact hf
  | error e s' =>
      constructor
      · intro h
        cases h
      · rintro ⟨_, _, h, _⟩
        cases h

theorem pure_eq_ok {a b : α} {s s' : σ} :
    (pure a : EStateM ε σ α).run s = .ok b s' ↔ a = b ∧ s = s' := by
  show EStateM.Result.ok a s = .ok b s' ↔ _
  constructor
  · intro h
    injection h with ha hs
    exact ⟨ha, hs⟩
  · rintro ⟨rfl, rfl⟩
    rfl

@[simp] theorem throw_ne_ok {e : ε} {b : α} {s s' : σ} :
    (throw e : EStateM ε σ α).run s = .ok b s' ↔ False :=
  ⟨nofun, nofun⟩

theorem run_get_bind (f : σ → EStateM ε σ β) (s : σ) : (get >>= f).run s = (f s).run s := rfl

@[simp] theorem run_modify (f : σ → σ) (s : σ) :
    (modify f : EStateM ε σ PUnit).run s = .ok ⟨⟩ (f s) := rfl

/-- A statement that is known to return. -/
theorem run_bind_of_ok {x : EStateM ε σ α} {f : α → EStateM ε σ β} {s s' : σ} {a : α}
    (h : x.run s = .ok a s') : (x >>= f).run s = (f a).run s' := by
  rw [EStateM.run_bind, h]

/-! ### What a run keeps -/

/-- The state that a run leaves. -/
def endState : EStateM.Result ε σ α → σ
  | .ok _ s => s
  | .error _ s => s

/-- `x` relates every state to the one it leaves. -/
def Maintains (R : σ → σ → Prop) (x : EStateM ε σ α) : Prop := ∀ s, R s (endState (x.run s))

variable {R : σ → σ → Prop}

theorem Maintains.ok {x : EStateM ε σ α} (h : Maintains R x) {s s' : σ} {a : α}
    (hx : x.run s = .ok a s') : R s s' := by
  have := h s
  rwa [hx] at this

theorem keeps_pure [Std.Refl R] (a : α) : Maintains R (pure a : EStateM ε σ α) :=
  fun s => Std.Refl.refl s

theorem keeps_throw [Std.Refl R] (e : ε) : Maintains R (throw e : EStateM ε σ α) :=
  fun s => Std.Refl.refl s

/-- What follows a failure does not run. -/
theorem keeps_throw_bind [Std.Refl R] (e : ε) (f : α → EStateM ε σ β) :
    Maintains R ((throw e : EStateM ε σ α) >>= f) := fun s => Std.Refl.refl s

theorem keeps_get [Std.Refl R] : Maintains R (get : EStateM ε σ σ) := fun s => Std.Refl.refl s

theorem keeps_modify {f : σ → σ} (h : ∀ s, R s (f s)) :
    Maintains R (modify f : EStateM ε σ PUnit) := h

theorem Maintains.bind [IsTrans σ R] {x : EStateM ε σ α} {f : α → EStateM ε σ β} (hx : Maintains R x)
    (hf : ∀ a, Maintains R (f a)) : Maintains R (x >>= f) := by
  intro s
  have h := hx s
  rw [EStateM.run_bind]
  cases hrun : x.run s with
  | ok a s' =>
      rw [hrun] at h
      exact IsTrans.trans _ _ _ h (hf a s')
  | error e s' =>
      rw [hrun] at h
      exact h

theorem Maintains.mono {R' : σ → σ → Prop} {x : EStateM ε σ α} (hx : Maintains R x)
    (h : ∀ s s', R s s' → R' s s') : Maintains R' x := fun s => h _ _ (hx s)

/-- A statement that reads the state may use what it read. -/
theorem keeps_get_bind {f : σ → EStateM ε σ β} (h : ∀ s, R s (endState ((f s).run s))) :
    Maintains R (get >>= f) := h

theorem keeps_forM [Std.Refl R] [IsTrans σ R] {l : List α} {f : α → EStateM ε σ PUnit}
    (h : ∀ a ∈ l, Maintains R (f a)) : Maintains R (l.forM f) := by
  induction l with
  | nil => exact keeps_pure _
  | cons a l ih =>
      exact (h a List.mem_cons_self).bind fun _ => ih fun a ha => h a (List.mem_cons_of_mem _ ha)

/-! ### Invariants -/

/-- `x` keeps the invariant `P`, and returns only values in `V`. -/
def Yields (P : σ → Prop) (x : EStateM ε σ α) (V : α → Prop) : Prop :=
  ∀ s, P s → P (endState (x.run s)) ∧ ∀ a s', x.run s = .ok a s' → V a

section Yields

variable {P : σ → Prop} {V : α → Prop} {W : β → Prop}

/-- What a run that returned leaves. -/
theorem Yields.ok {x : EStateM ε σ α} (h : Yields P x V) {s s' : σ} {a : α} (hs : P s)
    (hx : x.run s = .ok a s') : P s' := by
  have hend := (h s hs).1
  rwa [hx] at hend

theorem yields_pure {a : α} (h : V a) : Yields P (pure a : EStateM ε σ α) V := by
  refine fun s hs => ⟨hs, fun a' s' hrun => ?_⟩
  obtain ⟨rfl, -⟩ := pure_eq_ok.mp hrun
  exact h

theorem yields_throw (e : ε) : Yields P (throw e : EStateM ε σ α) V :=
  fun _ hs => ⟨hs, fun _ _ hrun => absurd hrun nofun⟩

/-- What was read satisfies the invariant. -/
theorem yields_get : Yields P (get : EStateM ε σ σ) P := by
  intro s hs
  refine ⟨hs, fun a s' hrun => ?_⟩
  injection hrun with ha
  exact ha ▸ hs

theorem yields_modify {f : σ → σ} (h : ∀ s, P s → P (f s)) :
    Yields P (modify f : EStateM ε σ PUnit) fun _ => True :=
  fun s hs => ⟨h s hs, fun _ _ _ => trivial⟩

theorem Yields.bind {x : EStateM ε σ α} {f : α → EStateM ε σ β} (hx : Yields P x V)
    (hf : ∀ a, V a → Yields P (f a) W) : Yields P (x >>= f) W := by
  intro s hs
  obtain ⟨hend, hval⟩ := hx s hs
  rw [EStateM.run_bind]
  cases hrun : x.run s with
  | ok a s' =>
      rw [hrun] at hend
      exact hf a (hval a s' hrun) s' hend
  | error e s' =>
      rw [hrun] at hend
      exact ⟨hend, nofun⟩

/-- What follows a statement may use that the statement was run. -/
theorem Yields.bind_ran {x : EStateM ε σ α} {f : α → EStateM ε σ β} (hx : Yields P x V)
    (hf : ∀ a s s', P s' → V a → x.run s = .ok a s' →
      P (endState ((f a).run s')) ∧ ∀ b s'', (f a).run s' = .ok b s'' → W b) :
    Yields P (x >>= f) W := by
  intro s hs
  obtain ⟨hend, hval⟩ := hx s hs
  rw [EStateM.run_bind]
  cases hrun : x.run s with
  | ok a s' =>
      rw [hrun] at hend
      exact hf a s s' hend (hval a s' hrun) hrun
  | error e s' =>
      rw [hrun] at hend
      exact ⟨hend, nofun⟩

/-- A statement that keeps more than what follows it does. -/
theorem Yields.before {Q : σ → Prop} {W : β → σ → Prop} {x : EStateM ε σ α}
    {f : α → EStateM ε σ β} (hx : Yields Q x V) (hQ : ∀ s, Q s → P s)
    (hf : ∀ a s, Q s → V a →
      P (endState ((f a).run s)) ∧ ∀ b s', (f a).run s = .ok b s' → W b s') {s : σ} (hs : Q s) :
    P (endState ((x >>= f).run s)) ∧ ∀ b s', (x >>= f).run s = .ok b s' → W b s' := by
  obtain ⟨hend, hval⟩ := hx s hs
  rw [EStateM.run_bind]
  cases hrun : x.run s with
  | ok a s' =>
      rw [hrun] at hend
      exact hf a s' hend (hval a s' hrun)
  | error e s' =>
      rw [hrun] at hend
      exact ⟨hQ _ hend, nofun⟩

theorem yields_throw_bind (e : ε) (f : α → EStateM ε σ β) :
    Yields P ((throw e : EStateM ε σ α) >>= f) W := yields_throw e

/-- A step that leaves what the invariant is about. -/
theorem Maintains.yields {x : EStateM ε σ α} (hx : Maintains R x) (h : ∀ s s', R s s' → P s → P s') :
    Yields P x fun _ => True :=
  fun s hs => ⟨h _ _ (hx s) hs, fun _ _ _ => trivial⟩

theorem yields_forM {l : List α} {f : α → EStateM ε σ PUnit}
    (h : ∀ a ∈ l, Yields P (f a) fun _ => True) : Yields P (l.forM f) fun _ => True := by
  induction l with
  | nil => exact yields_pure trivial
  | cons a l ih =>
      exact (h a List.mem_cons_self).bind fun _ _ => ih fun a ha => h a (List.mem_cons_of_mem _ ha)

end Yields

/-! ### Loops, turn by turn -/

/-- `s'` comes from `s` by one step of `R` for each element, in order. -/
inductive InTurn (R : α → σ → σ → Prop) : List α → σ → σ → Prop
  | nil (s : σ) : InTurn R [] s s
  | cons {a : α} {l : List α} {s s' s'' : σ} :
      R a s s' → InTurn R l s' s'' → InTurn R (a :: l) s s''

/-- `C` holds of each element in the state that its turn comes in. -/
def EachTurn (f : α → EStateM ε σ PUnit) (C : α → σ → Prop) : List α → σ → Prop
  | [], _ => True
  | a :: l, s => C a s ∧ ∀ s', (f a).run s = .ok ⟨⟩ s' → EachTurn f C l s'

section InTurn

variable {f : α → EStateM ε σ PUnit} {C : α → σ → Prop} {D R₁ R₂ : α → σ → σ → Prop}

theorem InTurn.mono (h : ∀ a s s', R₁ a s s' → R₂ a s s') {l : List α} {s s' : σ}
    (hl : InTurn R₁ l s s') : InTurn R₂ l s s' := by
  induction hl with
  | nil s => exact .nil s
  | cons ha _ ih => exact .cons (h _ _ _ ha) ih

/-- A loop that returned went through all turns. -/
theorem forM_eq_ok {l : List α} {s s' : σ} :
    (l.forM f).run s = .ok ⟨⟩ s' ↔ InTurn (fun a s s' => (f a).run s = .ok ⟨⟩ s') l s s' := by
  induction l generalizing s with
  | nil =>
      constructor
      · intro h
        obtain ⟨-, rfl⟩ := pure_eq_ok.mp h
        exact .nil s
      · intro h
        cases h
        rfl
  | cons a l ih =>
      show (f a >>= fun _ => l.forM f).run s = .ok ⟨⟩ s' ↔ _
      rw [bind_eq_ok]
      constructor
      · rintro ⟨⟨⟩, s₁, ha, hl⟩
        exact .cons ha (ih.mp hl)
      · intro h
        cases h with
        | cons ha hl => exact ⟨⟨⟩, _, ha, ih.mpr hl⟩

/-- All turns do `D` where each may: it is enough to look at one turn. -/
theorem exists_inTurn_iff
    (h : ∀ a s, (∃ s', (f a).run s = .ok ⟨⟩ s' ∧ D a s s') ↔ C a s) {l : List α} {s : σ} :
    (∃ s', InTurn (fun a s s' => (f a).run s = .ok ⟨⟩ s' ∧ D a s s') l s s') ↔
      EachTurn f C l s := by
  induction l generalizing s with
  | nil => exact ⟨fun _ => trivial, fun _ => ⟨s, .nil s⟩⟩
  | cons a l ih =>
      constructor
      · rintro ⟨s'', hturns⟩
        cases hturns with
        | cons ha hl =>
            refine ⟨(h a s).mp ⟨_, ha⟩, fun s' hrun => ih.mp ⟨s'', ?_⟩⟩
            obtain rfl := (EStateM.Result.ok.inj (ha.1.symm.trans hrun)).2
            exact hl
      · rintro ⟨ha, hl⟩
        obtain ⟨s', hturn⟩ := (h a s).mpr ha
        obtain ⟨s'', hturns⟩ := ih.mpr (hl s' hturn.1)
        exact ⟨s'', .cons hturn hturns⟩

end InTurn

/-- `f` is run for each element, once and in order, and the last run has the
result. -/
inductive RunsThrough (f : α → EStateM ε σ PUnit) : List α → σ → EStateM.Result ε σ PUnit → Prop
  | nil (s : σ) : RunsThrough f [] s (.ok ⟨⟩ s)
  | last (a : α) (s : σ) : RunsThrough f [a] s ((f a).run s)
  | next {a b : α} {l : List α} {s s' : σ} {r : EStateM.Result ε σ PUnit} :
      (f a).run s = .ok ⟨⟩ s' → RunsThrough f (b :: l) s' r → RunsThrough f (a :: b :: l) s r

/-- A loop reaches all elements exactly if no run but the last fails. -/
theorem runsThrough_forM_iff {f : α → EStateM ε σ PUnit} {l : List α} {s : σ} :
    RunsThrough f l s ((l.forM f).run s) ↔
      EachTurn f (fun a s => ∃ s', (f a).run s = .ok ⟨⟩ s') l.dropLast s := by
  induction l generalizing s with
  | nil => exact iff_of_true (.nil s) trivial
  | cons a l ih =>
      have hloop : ((a :: l).forM f).run s = (f a >>= fun _ => l.forM f).run s := rfl
      cases l with
      | nil =>
          have hlast : (([a] : List α).forM f).run s = (f a).run s := by
            rw [hloop, EStateM.run_bind]
            cases (f a).run s with
            | ok _ s' => rfl
            | error e s' => rfl
          rw [hlast]
          exact iff_of_true (.last a s) trivial
      | cons b l =>
          constructor
          · intro h
            generalize hr : ((a :: b :: l).forM f).run s = r at h
            cases h with
            | next ha hrest =>
                refine ⟨⟨_, ha⟩, fun s' hrun => ih.mp ?_⟩
                obtain rfl := (EStateM.Result.ok.inj (ha.symm.trans hrun)).2
                rw [hloop, run_bind_of_ok ha] at hr
                rwa [hr]
          · rintro ⟨⟨s', ha⟩, hrest⟩
            rw [hloop, run_bind_of_ok ha]
            exact .next ha (ih.mpr (hrest s' ha))

end MojoRs.Lib
