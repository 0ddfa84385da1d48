/-
MojoRs/Lib/Traced.lean

Computations that may fail, with a record of what they did.  The record of a
computation that fails ends where it fails.  A traced function stands next to
the function whose record it keeps: its results are the same (`result_bind`
takes a sequence apart), and the events are what is to be said about it.

`Meets` says at once what the events of a computation have in common and what
it returns, with one rule for each way to make a computation.  `Follows` says
which events they are: a beginning of a list that is known in advance, and the
whole list where the computation succeeds.

Main results: `result_bind`, `mem_events_bind`, `Meets.bind`, `Follows.bind`.
-/
import Mathlib.Data.List.Basic

namespace MojoRs.Lib

/-- A computation with the events that it went through. -/
structure Traced (ω ε α : Type) where
  events : List ω
  result : Except ε α

namespace Traced

variable {ω ε α β : Type}

/-- What follows a failure does not run. -/
def bind (x : Traced ω ε α) (f : α → Traced ω ε β) : Traced ω ε β :=
  match x.result with
  | .ok a => ⟨x.events ++ (f a).events, (f a).result⟩
  | .error e => ⟨x.events, .error e⟩

instance : Monad (Traced ω ε) where
  pure a := ⟨[], .ok a⟩
  bind := bind

/-- A computation without events. -/
def lift (x : Except ε α) : Traced ω ε α := ⟨[], x⟩

/-- Note an access. -/
def record (w : ω) : Traced ω ε Unit := ⟨[w], .ok ()⟩

@[simp] theorem result_lift (x : Except ε α) : (lift x : Traced ω ε α).result = x := rfl

@[simp] theorem result_bind (x : Traced ω ε α) (f : α → Traced ω ε β) :
    (x >>= f).result = x.result >>= fun a => (f a).result := by
  show (bind x f).result = _
  unfold bind
  cases x.result <;> rfl

@[simp] theorem result_record (w : ω) : (record w : Traced ω ε Unit).result = .ok () := rfl

theorem events_bind_ok {x : Traced ω ε α} {f : α → Traced ω ε β} {a : α} (h : x.result = .ok a) :
    (x >>= f).events = x.events ++ (f a).events := by
  show (bind x f).events = _
  unfold bind
  rw [h]

theorem events_bind_error {x : Traced ω ε α} {f : α → Traced ω ε β} {e : ε}
    (h : x.result = .error e) : (x >>= f).events = x.events := by
  show (bind x f).events = _
  unfold bind
  rw [h]

theorem mem_events_bind {x : Traced ω ε α} {f : α → Traced ω ε β} {w : ω} :
    w ∈ (x >>= f).events ↔ w ∈ x.events ∨ ∃ a, x.result = .ok a ∧ w ∈ (f a).events := by
  show w ∈ (bind x f).events ↔ _
  unfold bind
  cases x.result with
  | ok a => simp
  | error e => simp

/-! ### What events and results meet -/

/-- All events meet `P`, and what is returned meets `V`. -/
structure Meets (P : ω → Prop) (x : Traced ω ε α) (V : α → Prop) : Prop where
  events : ∀ w ∈ x.events, P w
  returns : ∀ a, x.result = .ok a → V a

section Rules

variable {P : ω → Prop} {V : α → Prop} {W : β → Prop} {x : Traced ω ε α} {f : α → Traced ω ε β}

theorem meets_lift {y : Except ε α} (h : ∀ a, y = .ok a → V a) : Meets P (lift y) V :=
  ⟨fun _ hw => absurd hw List.not_mem_nil, h⟩

theorem meets_pure {a : α} (h : V a) : Meets P (pure a : Traced ω ε α) V :=
  ⟨fun _ hw => absurd hw List.not_mem_nil, fun _ ha => Except.ok.inj ha ▸ h⟩

theorem meets_error {e : ε} : Meets P (lift (.error e)) V := meets_lift fun _ ha => nomatch ha

theorem meets_record {w : ω} (h : P w) : Meets P (record w : Traced ω ε Unit) fun _ => True :=
  ⟨fun _ hw => List.mem_singleton.mp hw ▸ h, fun _ _ => trivial⟩

theorem Meets.bind (hx : Meets P x V) (hf : ∀ a, V a → Meets P (f a) W) :
    Meets P (x >>= f) W := by
  refine ⟨fun w hw => ?_, fun b hb => ?_⟩
  · rcases mem_events_bind.mp hw with hw | ⟨a, ha, hw⟩
    · exact hx.events w hw
    · exact (hf a (hx.returns a ha)).events w hw
  · rw [result_bind] at hb
    cases hresult : x.result with
    | error e =>
        rw [hresult] at hb
        nomatch hb
    | ok a =>
        rw [hresult] at hb
        exact (hf a (hx.returns a hresult)).returns b hb

theorem meets_ite {c : Prop} {_ : Decidable c} {y : Traced ω ε α} (hx : c → Meets P x V)
    (hy : ¬c → Meets P y V) : Meets P (if c then x else y) V := by
  split
  · exact hx ‹_›
  · exact hy ‹_›

theorem Meets.imp {V' : α → Prop} (hx : Meets P x V) (h : ∀ a, V a → V' a) : Meets P x V' :=
  ⟨hx.events, fun a ha => h a (hx.returns a ha)⟩

end Rules

/-! ### Which events there are -/

/-- The events are those of the list `ws`, up to a failure, and what is returned
meets `V`. -/
structure Follows (ws : List ω) (x : Traced ω ε α) (V : α → Prop) : Prop where
  events : x.events <+: ws
  returns : ∀ a, x.result = .ok a → x.events = ws ∧ V a

section Rules

variable {ws ws' : List ω} {V : α → Prop} {W : β → Prop} {x : Traced ω ε α}
  {f : α → Traced ω ε β}

theorem follows_lift {y : Except ε α} (h : ∀ a, y = .ok a → V a) :
    Follows ([] : List ω) (lift y) V :=
  ⟨List.prefix_rfl, fun a ha => ⟨rfl, h a ha⟩⟩

/-- A failure cuts any list short. -/
theorem follows_error {e : ε} : Follows ws (lift (.error e)) V :=
  ⟨List.nil_prefix, fun _ ha => nomatch ha⟩

theorem follows_record {w : ω} : Follows [w] (record w : Traced ω ε Unit) fun _ => True :=
  ⟨List.prefix_rfl, fun _ _ => ⟨rfl, trivial⟩⟩

theorem Follows.bind (hx : Follows ws x V) (hf : ∀ a, V a → Follows ws' (f a) W) :
    Follows (ws ++ ws') (x >>= f) W := by
  cases hresult : x.result with
  | error e =>
      refine ⟨?_, fun b hb => ?_⟩
      · rw [events_bind_error hresult]
        exact hx.events.trans (List.prefix_append ws ws')
      · rw [result_bind, hresult] at hb
        nomatch hb
  | ok a =>
      obtain ⟨hevents, ha⟩ := hx.returns a hresult
      have hrest := hf a ha
      rw [← hevents]
      refine ⟨?_, fun b hb => ?_⟩
      · rw [events_bind_ok hresult]
        exact (List.prefix_append_right_inj _).mpr hrest.events
      · rw [result_bind, hresult] at hb
        rw [events_bind_ok hresult, (hrest.returns b hb).1]
        exact ⟨rfl, (hrest.returns b hb).2⟩

/-- What comes first and is not recorded. -/
theorem Follows.after_lift {y : Except ε α} (hf : ∀ a, y = .ok a → Follows ws (f a) W) :
    Follows ws (lift y >>= f) W :=
  (follows_lift (V := fun a => y = .ok a) fun _ ha => ha).bind hf

/-- What is recorded first. -/
theorem Follows.after_record {w : ω} {f : Unit → Traced ω ε β} (hf : Follows ws (f ()) W) :
    Follows (w :: ws) (record w >>= f) W :=
  follows_record.bind fun _ _ => hf

end Rules

end Traced

end MojoRs.Lib
