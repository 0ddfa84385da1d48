/-
MojoRs/Casefile/TrapRuns.lean

Streams of events up to the order of trap events.  Two streams are alike if they
have the same length, agree at every position of an event that is no trap event,
and differ in a run of trap events by the order of events of different contexts
only (`Alike`).

This is said position by position; proofs go run by run instead (`Aligned`): a
stream is cut at the events that are no trap events.  `agree` relates single
events and is not assumed to be an equality.

Main results: `forall₂_trapOrderLoop`, `alike_iff`.
-/
import MojoRs.Casefile.Compare

namespace MojoRs.Casefile

open Lib (sortByKey withKey Reordered)
open List (Forall₂)

variable {M : Type}

/-! ### Streams that are alike -/

/-- A run of trap events that cannot be made longer. -/
structure MaximalRun (pre run post : List (Event M)) : Prop where
  traps : ∀ e ∈ run, e.event = .trap
  before : ∀ e ∈ pre.getLast?, e.event ≠ .trap
  after : ∀ e ∈ post.head?, e.event ≠ .trap

/-- The streams agree position by position, up to the order of trap events of
different contexts within a maximal run. -/
structure Alike (agree : Event M → Event M → Prop)
    (oracle candidate : List (Event M)) : Prop where
  length : oracle.length = candidate.length
  others : ∀ (i : Nat) (a b : Event M), oracle[i]? = some a → candidate[i]? = some b →
    a.event ≠ .trap ∨ b.event ≠ .trap → agree a b
  runs : ∀ pre run post, oracle = pre ++ (run ++ post) → MaximalRun pre run post →
    Reordered (fun a b => a.triggerContext ≠ b.triggerContext) agree run
      ((candidate.drop pre.length).take run.length)

/-! ### Streams, run by run -/

/-- Only trap events. -/
def Traps (r : List (Event M)) : Prop := ∀ e ∈ r, e.event = .trap

/-- A stream is a run of trap events, or goes on after one with another event. -/
theorem traps_or_exists (s : List (Event M)) :
    Traps s ∨ ∃ r e rest, s = r ++ e :: rest ∧ Traps r ∧ e.event ≠ .trap := by
  induction s with
  | nil => exact .inl fun _ h => absurd h List.not_mem_nil
  | cons a s ih =>
      by_cases ha : a.event = .trap
      · rcases ih with hs | ⟨r, e, rest, rfl, hr, he⟩
        · exact .inl (List.forall_mem_cons.mpr ⟨ha, hs⟩)
        · exact .inr ⟨a :: r, e, rest, rfl, List.forall_mem_cons.mpr ⟨ha, hr⟩, he⟩
      · exact .inr ⟨[], a, s, rfl, fun _ h => absurd h List.not_mem_nil, ha⟩

/-- The runs of the two streams are related by `P`, what stands between them
agrees. -/
inductive Aligned (agree : Event M → Event M → Prop)
    (P : List (Event M) → List (Event M) → Prop) : List (Event M) → List (Event M) → Prop
  | run {r r' : List (Event M)} : Traps r → Traps r' → P r r' → Aligned agree P r r'
  | step {r r' s s' : List (Event M)} {e e' : Event M} : Traps r → Traps r' → P r r' →
      e.event ≠ .trap → agree e e' → Aligned agree P s s' →
      Aligned agree P (r ++ e :: s) (r' ++ e' :: s')

/-- The trap events of each context agree in turn. -/
def Contexts (agree : Event M → Event M → Prop) (r r' : List (Event M)) : Prop :=
  ∀ k, Forall₂ agree (withKey Event.triggerContext k r) (withKey Event.triggerContext k r')

section Aligned

variable {agree agree' : Event M → Event M → Prop} {P Q : List (Event M) → List (Event M) → Prop}
  {o c : List (Event M)}

theorem Aligned.imp (h : Aligned agree P o c) (hagree : ∀ a b, agree a b → agree' a b)
    (hP : ∀ r r', P r r' → Q r r') : Aligned agree' Q o c := by
  induction h with
  | run hr hr' h => exact .run hr hr' (hP _ _ h)
  | step hr hr' h he hee' _ ih => exact .step hr hr' (hP _ _ h) he (hagree _ _ hee') ih

/-- What is asked of each run beyond `Q`, and of each event beyond `agree'`, is
asked of the whole streams: that `proj` is the same. -/
theorem aligned_iff_and {ι β : Type} {proj : ι → List (Event M) → List β}
    (happend : ∀ i s s', proj i (s ++ s') = proj i s ++ proj i s')
    (hrun : ∀ r r', Traps r → Traps r' → (P r r' ↔ Q r r' ∧ ∀ i, proj i r = proj i r'))
    (hevent : ∀ e e', e.event ≠ .trap →
      (agree e e' ↔ agree' e e' ∧ ∀ i, proj i [e] = proj i [e']))
    (hrunLength : ∀ r r', Traps r → Traps r' → Q r r' →
      ∀ i, (proj i r).length = (proj i r').length)
    (heventLength : ∀ e e', e.event ≠ .trap → agree' e e' →
      ∀ i, (proj i [e]).length = (proj i [e']).length) :
    Aligned agree P o c ↔ Aligned agree' Q o c ∧ ∀ i, proj i o = proj i c := by
  have hstep : ∀ i r e s, proj i (r ++ e :: s) = proj i r ++ (proj i [e] ++ proj i s) := by
    intro i r e s
    rw [← happend, ← happend]
    rfl
  constructor
  · intro h
    induction h with
    | run hr hr' h =>
        obtain ⟨hQ, hproj⟩ := (hrun _ _ hr hr').mp h
        exact ⟨.run hr hr' hQ, hproj⟩
    | step hr hr' h he hee' _ ih =>
        obtain ⟨hQ, hproj⟩ := (hrun _ _ hr hr').mp h
        obtain ⟨hagree, hproje⟩ := (hevent _ _ he).mp hee'
        refine ⟨.step hr hr' hQ he hagree ih.1, fun i => ?_⟩
        rw [hstep, hstep, hproj, hproje, ih.2]
  · rintro ⟨h, hproj⟩
    induction h with
    | run hr hr' h => exact .run hr hr' ((hrun _ _ hr hr').mpr ⟨h, hproj⟩)
    | step hr hr' h he hee' _ ih =>
        -- the parts have equal lengths, so they are equal one by one
        have hsplit := fun i => List.append_inj
          ((hstep i _ _ _).symm.trans ((hproj i).trans (hstep i _ _ _))) (hrunLength _ _ hr hr' h i)
        have hrest := fun i => List.append_inj (hsplit i).2 (heventLength _ _ he hee' i)
        exact .step hr hr' ((hrun _ _ hr hr').mpr ⟨h, fun i => (hsplit i).1⟩) he
          ((hevent _ _ he).mpr ⟨hee', fun i => (hrest i).1⟩) (ih fun i => (hrest i).2)

theorem contexts_single (hcontext : ∀ a b, agree a b → a.triggerContext = b.triggerContext)
    {e e' : Event M} : Contexts agree [e] [e'] ↔ agree e e' := by
  constructor
  · intro h
    have hk := h e.triggerContext
    rw [Lib.withKey_cons_of_eq rfl] at hk
    by_cases he' : e'.triggerContext = e.triggerContext
    · rw [Lib.withKey_cons_of_eq he'] at hk
      exact (List.forall₂_cons.mp hk).1
    · rw [Lib.withKey_cons_of_ne he'] at hk
      exact absurd hk.length_eq (Nat.succ_ne_zero _)
  · intro h k
    exact Lib.forall₂_withKey hcontext (Forall₂.cons h Forall₂.nil) k

end Aligned

/-! ### The sort, run by run -/

section Loop

variable {key : Event M → Nat} {agree : Event M → Event M → Prop} {o c r : List (Event M)}

theorem flushRun_eq (key : Event M → Nat) (out run : List (Event M)) :
    flushRun key out run = out ++ sortByKey key run := by
  unfold flushRun
  split
  · rename_i hempty
    rw [List.isEmpty_iff.mp hempty]
    simp [sortByKey]
  · rfl

theorem trapOrderLoop_run (hr : Traps r) (out run : List (Event M)) :
    trapOrderLoop key out run r = out ++ sortByKey key (run ++ r) := by
  induction r generalizing run with
  | nil => rw [trapOrderLoop, flushRun_eq, List.append_nil]
  | cons e r ih =>
      obtain ⟨he, hr⟩ := List.forall_mem_cons.mp hr
      rw [trapOrderLoop, if_pos he, ih hr, List.append_assoc]
      rfl

theorem trapOrderLoop_out (out run s : List (Event M)) :
    trapOrderLoop key out run s = out ++ trapOrderLoop key [] run s := by
  induction s generalizing out run with
  | nil => rw [trapOrderLoop, trapOrderLoop, flushRun_eq, flushRun_eq, List.nil_append]
  | cons e s ih =>
      rw [trapOrderLoop, trapOrderLoop]
      split
      · exact ih out (run ++ [e])
      · rw [ih, ih (flushRun key [] run ++ [e]), flushRun_eq, flushRun_eq, List.nil_append]
        simp only [List.append_assoc]

theorem trapOrderLoop_step (hr : Traps r) {e : Event M} (he : e.event ≠ .trap)
    (run s : List (Event M)) :
    trapOrderLoop key [] run (r ++ e :: s) =
      sortByKey key (run ++ r) ++ e :: trapOrderLoop key [] [] s := by
  induction r generalizing run with
  | nil =>
      show trapOrderLoop key [] run (e :: s) = _
      rw [trapOrderLoop, if_neg he, trapOrderLoop_out, flushRun_eq, List.append_nil,
        List.nil_append, List.append_assoc]
      rfl
  | cons a r ih =>
      obtain ⟨ha, hr⟩ := List.forall_mem_cons.mp hr
      show trapOrderLoop key [] run (a :: (r ++ e :: s)) = _
      rw [trapOrderLoop, if_pos ha, ih hr, List.append_assoc]
      rfl

theorem traps_sortByKey (hr : Traps r) : Traps (sortByKey key r) :=
  fun e he => hr e ((List.mergeSort_perm ..).mem_iff.mp he)

variable (hkind : ∀ a b, agree a b → a.event = b.event)
include hkind

theorem traps_of_forall₂ {r r' : List (Event M)} (h : Forall₂ agree r r') : Traps r ↔ Traps r' := by
  induction h with
  | nil => exact Iff.rfl
  | cons hab _ ih =>
      show (∀ _ ∈ _, _) ↔ ∀ _ ∈ _, _
      rw [List.forall_mem_cons, List.forall_mem_cons, hkind _ _ hab]
      exact and_congr_right fun _ => ih

/-- The first events that are no trap events stand against one another. -/
theorem forall₂_step {r r' s s' : List (Event M)} {e e' : Event M} (hr : Traps r) (hr' : Traps r')
    (he : e.event ≠ .trap) (he' : e'.event ≠ .trap)
    (h : Forall₂ agree (r ++ e :: s) (r' ++ e' :: s')) :
    Forall₂ agree r r' ∧ agree e e' ∧ Forall₂ agree s s' := by
  induction r generalizing r' with
  | nil =>
      cases r' with
      | nil => exact ⟨Forall₂.nil, List.forall₂_cons.mp h⟩
      | cons a' r' =>
          have hkind := hkind _ _ (List.forall₂_cons.mp h).1
          exact absurd (hkind.trans (hr' a' List.mem_cons_self)) he
  | cons a r ih =>
      obtain ⟨ha, hr⟩ := List.forall_mem_cons.mp hr
      cases r' with
      | nil =>
          have hkind := hkind _ _ (List.forall₂_cons.mp h).1
          exact absurd (hkind.symm.trans ha) he'
      | cons a' r' =>
          obtain ⟨haa', h⟩ := List.forall₂_cons.mp h
          obtain ⟨hrr', hrest⟩ := ih hr (List.forall_mem_cons.mp hr').2 h
          exact ⟨Forall₂.cons haa' hrr', hrest⟩

variable (hkey : ∀ a b, agree a b → key a = key b)
include hkey

/-- With the trap events of each run sorted, two streams are compared run by run. -/
theorem forall₂_trapOrderLoop :
    Forall₂ agree (trapOrderLoop key [] [] o) (trapOrderLoop key [] [] c) ↔
      Aligned agree (fun r r' => ∀ k, Forall₂ agree (withKey key k r) (withKey key k r')) o c := by
  constructor
  · intro h
    induction hn : o.length using Nat.strongRecOn generalizing o c with
    | ind n ih =>
        have hmem : ∀ {x y : List (Event M)} {e : Event M}, e ∈ x ++ e :: y :=
          List.mem_append_right _ List.mem_cons_self
        -- a stream of trap events alone cannot agree with one that has another event
        rcases traps_or_exists o with ho | ⟨r, e, s, rfl, hr, he⟩ <;>
          rcases traps_or_exists c with hc | ⟨r', e', s', rfl, hr', he'⟩
        · rw [trapOrderLoop_run ho, trapOrderLoop_run hc] at h
          exact .run ho hc ((Lib.forall₂_sortByKey hkey).mp h)
        · rw [trapOrderLoop_run ho, trapOrderLoop_step hr' he'] at h
          exact absurd ((traps_of_forall₂ hkind h).mp (traps_sortByKey ho) e' hmem) he'
        · rw [trapOrderLoop_step hr he, trapOrderLoop_run hc] at h
          exact absurd ((traps_of_forall₂ hkind h).mpr (traps_sortByKey hc) e hmem) he
        · rw [trapOrderLoop_step hr he, trapOrderLoop_step hr' he'] at h
          obtain ⟨hrun, hee', hrest⟩ := forall₂_step hkind (traps_sortByKey hr)
            (traps_sortByKey hr') he he' h
          have hlt : s.length < n := by
            rw [← hn, List.length_append, List.length_cons]
            omega
          exact .step hr hr' ((Lib.forall₂_sortByKey hkey).mp hrun) he hee' (ih _ hlt hrest rfl)
  · intro h
    induction h with
    | run hr hr' h =>
        rw [trapOrderLoop_run hr, trapOrderLoop_run hr']
        exact (Lib.forall₂_sortByKey hkey).mpr h
    | step hr hr' h he hee' _ ih =>
        rw [trapOrderLoop_step hr he, trapOrderLoop_step hr' (hkind _ _ hee' ▸ he)]
        exact List.rel_append ((Lib.forall₂_sortByKey hkey).mpr h) (Forall₂.cons hee' ih)

end Loop

/-! ### Alike streams, run by run -/

section Runs

variable {agree : Event M → Event M → Prop} {o c pre run post : List (Event M)}

theorem MaximalRun.pre_eq_nil (h : MaximalRun pre run post) (hpre : Traps pre) : pre = [] := by
  by_contra hne
  obtain ⟨e, he⟩ := Option.isSome_iff_exists.mp (List.getLast?_isSome.mpr hne)
  exact h.before e he (hpre e (List.mem_of_getLast? he))

theorem MaximalRun.post_eq_nil {rest : List (Event M)} (h : MaximalRun pre run (post ++ rest))
    (hpost : Traps post) : post = [] := by
  cases post with
  | nil => rfl
  | cons e post => exact absurd (hpost e List.mem_cons_self) (h.after e rfl)

/-- The same positions of the other stream. -/
abbrev slice (c pre run : List (Event M)) : List (Event M) := (c.drop pre.length).take run.length

theorem runs_of_traps {P : List (Event M) → List (Event M) → Prop} {r r' : List (Event M)}
    (hr : Traps r) (hlen : r.length = r'.length) (h : P r r') (heq : r = pre ++ (run ++ post))
    (hmax : MaximalRun pre run post) : P run (slice r' pre run) := by
  subst heq
  have hpre := hmax.pre_eq_nil fun e he => hr e (List.mem_append_left _ he)
  subst hpre
  have hmax' : MaximalRun [] run (post ++ []) := by rwa [List.append_nil]
  have hpost := hmax'.post_eq_nil fun e he =>
    hr e (List.mem_append_right _ (List.mem_append_right _ he))
  subst hpost
  have hrun : slice r' [] run = r' := by
    show (r'.drop 0).take run.length = r'
    rw [List.drop_zero]
    exact List.take_of_length_le (by simpa using hlen.symm.le)
  rw [hrun]
  simpa using h

/-- Runs of trap events differ in the order of different contexts. -/
def SameRun (agree : Event M → Event M → Prop) : List (Event M) → List (Event M) → Prop :=
  Reordered (fun a b => a.triggerContext ≠ b.triggerContext) agree

theorem sameRun_nil : SameRun agree ([] : List (Event M)) [] :=
  ⟨[], Relation.ReflTransGen.refl, Forall₂.nil⟩

/-- A maximal run lies before the first event that is no trap event, or behind it. -/
theorem runs_of_step {r r' s s' : List (Event M)} {e e' : Event M} (hr : Traps r)
    (he : e.event ≠ .trap) (h : SameRun agree r r')
    (hrest : ∀ pre run post, s = pre ++ (run ++ post) → MaximalRun pre run post →
      SameRun agree run (slice s' pre run))
    (heq : r ++ e :: s = pre ++ (run ++ post)) (hmax : MaximalRun pre run post) :
    SameRun agree run (slice (r' ++ e' :: s') pre run) := by
  have hlen := h.length_eq
  rcases List.append_eq_append_iff.mp heq with ⟨as, rfl, hs⟩ | ⟨bs, rfl, hs⟩
  · -- behind the event
    cases as with
    | nil =>
        cases run with
        | nil => exact sameRun_nil
        | cons x run =>
            obtain ⟨rfl, -⟩ := List.cons.inj hs
            exact absurd (hmax.traps e List.mem_cons_self) he
    | cons x as =>
        obtain ⟨rfl, rfl⟩ := List.cons.inj hs
        have hslice : slice (r' ++ e' :: s') (r ++ e :: as) run = slice s' as run := by
          have hdrop : (r' ++ e' :: s').drop (r ++ e :: as).length = s'.drop as.length := by
            rw [List.length_append, List.length_cons, hlen, ← List.drop_drop, List.drop_left]
            rfl
          rw [slice, hdrop]
        rw [hslice]
        refine hrest as run post rfl ⟨hmax.traps, fun y hy => ?_, hmax.after⟩
        apply hmax.before y
        rw [List.getLast?_append, List.getLast?_cons, Option.mem_def.mp hy]
        rfl
  · -- the run that the event ends
    have hpre := hmax.pre_eq_nil fun y hy => hr y (List.mem_append_left _ hy)
    subst hpre
    have hrun : run = bs := by
      rcases List.append_eq_append_iff.mp hs with ⟨as, rfl, rfl⟩ | ⟨cs, rfl, hcs⟩
      · have has := hmax.post_eq_nil fun y hy =>
          hr y (List.mem_append_right _ (List.mem_append_right _ hy))
        rw [has, List.append_nil]
      · cases cs with
        | nil => exact List.append_nil _
        | cons x cs =>
            obtain ⟨rfl, -⟩ := List.cons.inj hcs
            exact absurd (hmax.traps e (List.mem_append_right _ List.mem_cons_self)) he
    subst hrun
    have hslice : slice (r' ++ e' :: s') [] run = r' := List.take_left' hlen.symm
    rwa [hslice]

theorem alike_of_aligned (h : Aligned agree (SameRun agree) o c) : Alike agree o c := by
  induction h with
  | run hr hr' h =>
      refine ⟨h.length_eq, fun i a b ha hb hother => ?_,
        fun pre run post => runs_of_traps hr h.length_eq h⟩
      have ha := hr a (List.mem_of_getElem? ha)
      have hb := hr' b (List.mem_of_getElem? hb)
      exact (hother.elim (fun h => h ha) fun h => h hb).elim
  | @step r r' s s' e e' hr hr' h he hee' _ ih =>
      have hlen := h.length_eq
      refine ⟨?_, fun i a b ha hb hother => ?_, fun pre run post => runs_of_step hr he h ih.runs⟩
      · rw [List.length_append, List.length_append, List.length_cons, List.length_cons, hlen,
          ih.length]
      · -- `i` lies in the run, at the event behind it, or farther on
        rcases Nat.lt_trichotomy i r.length with hi | rfl | hi
        · rw [List.getElem?_append_left hi] at ha
          rw [List.getElem?_append_left (hlen ▸ hi)] at hb
          have ha := hr a (List.mem_of_getElem? ha)
          have hb := hr' b (List.mem_of_getElem? hb)
          exact (hother.elim (fun h => h ha) fun h => h hb).elim
        · rw [List.getElem?_append_right (Nat.le_refl _), Nat.sub_self] at ha
          rw [hlen, List.getElem?_append_right (Nat.le_refl _), Nat.sub_self] at hb
          obtain rfl := Option.some.inj ha
          obtain rfl := Option.some.inj hb
          exact hee'
        · obtain ⟨j, rfl⟩ := Nat.exists_eq_add_of_lt hi
          have hj : r.length + j + 1 - r.length = j + 1 := by omega
          rw [List.getElem?_append_right (Nat.le_of_lt hi), hj] at ha
          rw [List.getElem?_append_right (hlen ▸ Nat.le_of_lt hi), ← hlen, hj] at hb
          exact ih.others j a b ha hb hother

variable (hkind : ∀ a b, agree a b → a.event = b.event)
include hkind

theorem traps_of_sameRun {r r' : List (Event M)} (h : SameRun agree r r') (hr : Traps r) :
    Traps r' := by
  obtain ⟨cs, hreorders, hforall⟩ := h
  exact (traps_of_forall₂ hkind hforall).mp fun e he => hr e (hreorders.perm.mem_iff.mpr he)

omit hkind in
/-- A run that starts the stream, up to an event that is no trap event. -/
theorem maximalRun_first {r post : List (Event M)} (hr : Traps r)
    (hpost : ∀ e ∈ post.head?, e.event ≠ .trap) : MaximalRun [] r post where
  traps := hr
  before := fun _ he => absurd he (Option.not_mem_none _)
  after := hpost

omit hkind in
/-- What stands behind the first event that is no trap event. -/
theorem Alike.tail {r r' s s' : List (Event M)} {e e' : Event M} (hlen : r.length = r'.length)
    (he : e.event ≠ .trap) (h : Alike agree (r ++ e :: s) (r' ++ e' :: s')) : Alike agree s s' := by
  have hlength := h.length
  rw [List.length_append, List.length_append, List.length_cons, List.length_cons] at hlength
  refine ⟨by omega, fun i a b ha hb => ?_, fun pre run post hs hmax => ?_⟩
  · have hshift : ∀ {x y : List (Event M)} {z : Event M} (j : Nat),
        (x ++ z :: y)[x.length + (j + 1)]? = y[j]? := by
      intro x y z j
      rw [List.getElem?_append_right (Nat.le_add_right _ _), Nat.add_sub_cancel_left]
      rfl
    apply h.others (r.length + (i + 1)) a b
    · rw [hshift, ha]
    · rw [hlen, hshift, hb]
  · subst hs
    have hwhole : r ++ e :: (pre ++ (run ++ post)) = (r ++ e :: pre) ++ (run ++ post) := by
      rw [List.append_assoc]
      rfl
    have hdrop : (r' ++ e' :: s').drop (r ++ e :: pre).length = s'.drop pre.length := by
      rw [List.length_append, List.length_cons, hlen, ← List.drop_drop, List.drop_left]
      rfl
    rw [← hdrop]
    refine h.runs (r ++ e :: pre) run post hwhole ⟨hmax.traps, fun y hy => ?_, hmax.after⟩
    cases hlast : pre.getLast? with
    | none =>
        rw [List.getLast?_append, List.getLast?_cons, hlast] at hy
        obtain rfl : e = y := Option.some.inj hy
        exact he
    | some z =>
        rw [List.getLast?_append, List.getLast?_cons, hlast] at hy
        obtain rfl : z = y := Option.some.inj hy
        exact hmax.before z hlast

theorem aligned_of_alike (h : Alike agree o c) : Aligned agree (SameRun agree) o c := by
  induction hn : o.length using Nat.strongRecOn generalizing o c with
  | ind n ih =>
      rcases traps_or_exists o with ho | ⟨r, e, s, rfl, hr, he⟩
      · have hmax : MaximalRun [] o [] :=
          maximalRun_first ho fun _ he => absurd he (Option.not_mem_none _)
        have hrun : SameRun agree o (slice c [] o) := h.runs [] o [] (List.append_nil o).symm hmax
        have hslice : slice c [] o = c := List.take_of_length_le h.length.ge
        rw [hslice] at hrun
        exact .run ho (traps_of_sameRun hkind hrun ho) hrun
      · have hmax : MaximalRun [] r (e :: s) := maximalRun_first hr fun y hy => by
          rwa [← Option.some.inj hy]
        have hrun : SameRun agree r (slice c [] r) := h.runs [] r (e :: s) rfl hmax
        have hr' := traps_of_sameRun hkind hrun hr
        have hlen := hrun.length_eq
        have hlength := h.length
        rw [List.length_append, List.length_cons] at hlength
        -- the other stream has an event at this position, as it is not shorter
        have hc : slice c [] r ++ c.drop r.length = c := List.take_append_drop r.length c
        cases hdrop : c.drop r.length with
        | nil =>
            have hshort := congrArg List.length hdrop
            rw [List.length_drop, List.length_nil] at hshort
            omega
        | cons e' s' =>
            rw [hdrop] at hc
            rw [← hc] at h
            have hee' : agree e e' := by
              refine h.others r.length e e' ?_ ?_ (.inl he)
              · rw [List.getElem?_append_right (Nat.le_refl _), Nat.sub_self]
                rfl
              · rw [hlen, List.getElem?_append_right (Nat.le_refl _), Nat.sub_self]
                rfl
            have hlt : s.length < n := by
              rw [← hn, List.length_append, List.length_cons]
              omega
            rw [← hc]
            exact .step hr hr' hrun he hee' (ih _ hlt (h.tail hlen he) rfl)

variable (hcontext : ∀ a b, agree a b → a.triggerContext = b.triggerContext)
include hcontext

/-- Streams are alike if their runs agree context by context. -/
theorem alike_iff : Alike agree o c ↔ Aligned agree (Contexts agree) o c := by
  have hrun : ∀ r r' : List (Event M), SameRun agree r r' ↔ Contexts agree r r' :=
    fun _ _ => Lib.reordered_iff hcontext
  constructor
  · exact fun h => (aligned_of_alike hkind h).imp (fun _ _ => id) fun _ _ => (hrun _ _).mp
  · exact fun h => alike_of_aligned (h.imp (fun _ _ => id) fun _ _ => (hrun _ _).mpr)

end Runs

end MojoRs.Casefile
