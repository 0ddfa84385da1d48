/-
MojoRs/Core/ArmedTrap.lean

An armed trap over message pipes.  It is to be disarmed by the first event that
its triggers wait for, so that while it is armed no live trigger is satisfied
or unsatisfiable.

That a live trigger on an open handle keeps its watch (`Linked`) holds in every
run.  Two operations on an armed trap can break what is wanted all the same:
adding a trigger that fires already, which `add_trigger` does not look at, and
closing a handle when another handle has an older trigger with the same
context, which is then cancelled in place of the trigger on the closed handle.
`Attentive` excludes these two.

Main result: `armed_vigilant`.
-/
import Mathlib.Data.List.Nodup
import Mathlib.Data.List.Perm.Subperm
import MojoRs.Core.MessageDelivery
import MojoRs.Core.Trap

namespace MojoRs.Core

open Lib
open Pipe (Notification WatchKind End)

variable {σ ι ω : Type}

/-! ### What callbacks do to the triggers -/

namespace Trigger

/-- What tells a trigger from all others. -/
def key (t : Trigger ι) : ι × Nat := (t.dispatcher, t.watch)

/-- The watch that belongs to a trigger. -/
def toWatch (t : Trigger ι) : Watch := ⟨t.watch, t.signals, t.context⟩

/-- Taking a trigger takes it out of the live ones, where it is the first with
its context. -/
theorem live_takeFirst {context : Nat} {ts us : List (Trigger ι)} {t : Trigger ι}
    (h : takeFirst context ts = some (t, us)) :
    t.context = context ∧ ∃ before after, ts.filter (!·.removed) = before ++ t :: after ∧
      us.filter (!·.removed) = before ++ after ∧ ∀ u ∈ before, u.context ≠ context := by
  obtain ⟨ht, before, after, rfl, rfl, hbefore⟩ := takeFirst_eq_some h
  obtain ⟨hcontext, hlive⟩ := answers_iff.mp ht
  refine ⟨hcontext, before.filter (!·.removed), after.filter (!·.removed), ?_, ?_, ?_⟩
  · rw [List.filter_append, List.filter_cons_of_pos (by rw [hlive]; rfl)]
  · rw [List.filter_append, List.filter_cons_of_neg (by simp)]
  · rintro u hu rfl
    obtain ⟨hmem, hremoved⟩ := List.mem_filter.mp hu
    have hno := hbefore u hmem
    rw [answers, beq_self_eq_true, Bool.true_and] at hno
    rw [hno] at hremoved
    cases hremoved

end Trigger

namespace Trap

/-- Some triggers were marked removed, and the trap was not armed. -/
structure Fewer (trap trap' : Trap ι) : Prop where
  triggers : List.Forall₂ (fun t t' => t' = t ∨ t' = { t with removed := true })
    trap.triggers trap'.triggers
  armed : trap'.armed = true → trap.armed = true

theorem Fewer.refl (trap : Trap ι) : Fewer trap trap :=
  ⟨List.forall₂_same.mpr fun _ _ => .inl rfl, id⟩

theorem Fewer.trans {trap trap' trap'' : Trap ι} (h : Fewer trap trap') (h' : Fewer trap' trap'') :
    Fewer trap trap'' := by
  refine ⟨?_, fun ha => h.armed (h'.armed ha)⟩
  have hts := h.triggers
  have hts' := h'.triggers
  generalize trap.triggers = ts, trap'.triggers = ts', trap''.triggers = ts'' at hts hts'
  clear h h'
  induction hts generalizing ts'' with
  | nil => exact hts'
  | cons ht _ ih =>
      cases hts' with
      | cons ht' hts' =>
          refine .cons ?_ (ih _ hts')
          rcases ht with rfl | rfl
          · exact ht'
          · rcases ht' with rfl | rfl
            · exact .inr rfl
            · exact .inr rfl

/-- The live triggers are some of those before. -/
theorem Fewer.live {trap trap' : Trap ι} (h : Fewer trap trap') : trap'.live.Sublist trap.live := by
  have hts := h.triggers
  unfold Trap.live
  generalize trap.triggers = ts, trap'.triggers = ts' at hts
  induction hts with
  | nil => exact .slnil
  | @cons t t' _ _ ht _ ih =>
      rcases ht with rfl | rfl
      · simp only [List.filter_cons]
        split_ifs
        · exact ih.cons_cons _
        · exact ih
      · rw [List.filter_cons_of_neg (by simp)]
        simp only [List.filter_cons]
        split_ifs
        · exact ih.cons _
        · exact ih

theorem fewer_takeFirst {trap : Trap ι} {context : Nat} {t : Trigger ι} {us : List (Trigger ι)}
    (h : Trigger.takeFirst context trap.triggers = some (t, us)) :
    Fewer trap { trap with triggers := us } := by
  obtain ⟨-, before, after, hts, rfl, -⟩ := Trigger.takeFirst_eq_some h
  refine ⟨?_, id⟩
  rw [hts]
  exact List.rel_append (List.forall₂_same.mpr fun _ _ => .inl rfl)
    (.cons (.inr rfl) (List.forall₂_same.mpr fun _ _ => .inl rfl))

theorem fewer_onWatch (trap : Trap ι) (n : Notification Nat) : Fewer trap (trap.onWatch n).1 := by
  unfold onWatch
  split
  · split
    · exact .refl trap
    · rename_i t us htake
      exact fewer_takeFirst htake
  · split_ifs
    · exact .refl trap
    · split
      · exact .refl trap
      · exact ⟨(Fewer.refl trap).triggers, nofun⟩

theorem fewer_onWatches (trap : Trap ι) (ns : List (Notification Nat)) :
    Fewer trap (trap.onWatches ns).1 := by
  induction ns generalizing trap with
  | nil => exact .refl trap
  | cons n ns ih => exact (fewer_onWatch trap n).trans (ih _)

theorem Fewer.keys {trap trap' : Trap ι} (h : Fewer trap trap') :
    trap'.triggers.map (·.key) = trap.triggers.map (·.key) := by
  have hts := h.triggers
  generalize trap.triggers = ts, trap'.triggers = ts' at hts
  induction hts with
  | nil => rfl
  | cons ht _ ih =>
      rw [List.map_cons, List.map_cons, ih]
      rcases ht with rfl | rfl <;> rfl

theorem onWatches_append (trap : Trap ι) (ns ns' : List (Notification Nat)) :
    trap.onWatches (ns ++ ns') =
      (((trap.onWatches ns).1.onWatches ns').1,
        (trap.onWatches ns).2 ++ ((trap.onWatches ns).1.onWatches ns').2) := by
  induction ns generalizing trap with
  | nil => rfl
  | cons n ns ih => simp only [List.cons_append, onWatches, ih, List.append_assoc]

/-- A change removes no trigger. -/
theorem onWatch_changed (trap : Trap ι) {n : Notification Nat} (hn : n.kind = .changed) :
    (trap.onWatch n).1.triggers = trap.triggers := by
  rw [onWatch, hn]
  dsimp only
  split_ifs
  · rfl
  · split <;> rfl

/-- A live trigger that is told of a change disarms. -/
theorem disarmed {trap : Trap ι} {ns : List (Notification Nat)} {t : Trigger ι}
    (hkind : ∀ n ∈ ns, n.kind = .changed) (ht : t ∈ trap.live)
    (htold : ∃ n ∈ ns, n.callback = t.context) : (trap.onWatches ns).1.armed = false := by
  induction ns generalizing trap with
  | nil => exact absurd htold nofun
  | cons n ns ih =>
      obtain ⟨hn, hns⟩ := List.forall_mem_cons.mp hkind
      have htriggers := onWatch_changed trap hn
      cases harmed : (trap.onWatch n).1.armed with
      | false =>
          cases hlater : ((trap.onWatch n).1.onWatches ns).1.armed with
          | false => exact hlater
          | true => rw [(fewer_onWatches _ ns).armed hlater] at harmed; cases harmed
      | true =>
          have hlive : (trap.onWatch n).1.live = trap.live := by rw [Trap.live, htriggers]; rfl
          refine ih hns (show t ∈ (trap.onWatch n).1.live from hlive ▸ ht) ?_
          obtain ⟨m, hm, hcontext⟩ := htold
          rcases List.mem_cons.mp hm with rfl | hm
          · -- this change finds a trigger, and would have disarmed
            have hsearch : trap.triggers.find? (·.answers m.callback) ≠ none := by
              intro hnone
              obtain ⟨hmem, hlive⟩ := List.mem_filter.mp ht
              refine List.find?_eq_none.mp hnone t hmem ?_
              exact Trigger.answers_iff.mpr ⟨hcontext.symm, by simpa using hlive⟩
            have hbefore := (fewer_onWatch trap m).armed harmed
            obtain ⟨u, hu⟩ := Option.ne_none_iff_exists'.mp hsearch
            simp only [onWatch, hn, hbefore, hu] at harmed
            cases harmed
          · exact ⟨m, hm, hcontext⟩

/-- No trigger on another handle stands before one on `h` with its context. -/
def OwnFirst (trap : Trap ι) (h : ι) : Prop :=
  trap.live.Pairwise fun u t => t.dispatcher = h → u.context = t.context → u.dispatcher = h

instance [DecidableEq ι] (trap : Trap ι) (h : ι) : Decidable (trap.OwnFirst h) :=
  inferInstanceAs (Decidable (List.Pairwise _ _))

/-- As many cancellations as there are triggers on `h` with each context remove
them all, if none on another handle comes first. -/
theorem cancels_all {trap : Trap ι} {h : ι} (hfirst : trap.OwnFirst h) {ws : List Watch}
    (hcount : ∀ (c : Nat) (ts : List (Trigger ι)), ts.Sublist trap.live →
      (∀ t ∈ ts, t.dispatcher = h ∧ t.context = c) → ts.length ≤ (ws.map (·.context)).count c) :
    ∀ t ∈ (trap.onWatches (cancellations ws)).1.live, t.dispatcher ≠ h := by
  induction ws generalizing trap with
  | nil =>
      intro t ht hdispatcher
      have hone := hcount t.context [t] (List.singleton_sublist.mpr ht) (by simp [hdispatcher])
      exact absurd hone (by simp)
  | cons w ws ih =>
      show ∀ t ∈ ((trap.onWatch ⟨w.context, .empty, .cancelled⟩).1.onWatches
        (cancellations ws)).1.live, _
      cases htake : Trigger.takeFirst w.context trap.triggers with
      | none =>
          have hsame : (trap.onWatch ⟨w.context, .empty, .cancelled⟩).1 = trap := by
            simp only [onWatch, htake]
          rw [hsame]
          refine ih hfirst fun c ts hts hall => ?_
          have hle := hcount c ts hts hall
          rw [List.map_cons, List.count_cons] at hle
          split_ifs at hle with hc
          · -- no live trigger has this context
            cases ts with
            | nil => exact Nat.zero_le _
            | cons t ts =>
                obtain ⟨hmem, hlive⟩ := List.mem_filter.mp (hts.subset List.mem_cons_self)
                have hno := Trigger.takeFirst_eq_none.mp htake t hmem
                have hyes := Trigger.answers_iff.mpr
                  ⟨(hall t List.mem_cons_self).2.trans (beq_iff_eq.mp hc).symm, by simpa using hlive⟩
                rw [hno] at hyes
                cases hyes
          · exact hle
      | some taken =>
          obtain ⟨t, us⟩ := taken
          obtain ⟨hcontext, before, after, hlive, hlive', hbefore⟩ := Trigger.live_takeFirst htake
          have hnew : (trap.onWatch ⟨w.context, .empty, .cancelled⟩).1 =
              { trap with triggers := us } := by
            simp only [onWatch, htake]
          rw [hnew]
          have hsub : ({ trap with triggers := us } : Trap ι).live.Sublist trap.live := by
            show (us.filter _).Sublist (trap.triggers.filter _)
            rw [hlive, hlive']
            exact (List.Sublist.refl before).append (List.sublist_cons_self t after)
          refine ih (hfirst.sublist hsub) fun c ts hts hall => ?_
          have hts' : ts.Sublist (before ++ after) := by
            rwa [Trap.live, hlive'] at hts
          by_cases hc : w.context = c
          · -- the trigger taken is one on `h`, if there is any with the context
            subst hc
            obtain ⟨ts₁, ts₂, rfl, hts₁, hts₂⟩ := List.sublist_append_iff.mp hts'
            obtain rfl : ts₁ = [] := List.eq_nil_iff_forall_not_mem.mpr fun u hu =>
              hbefore u (hts₁.subset hu) (hall u (List.mem_append_left _ hu)).2
            cases ts₂ with
            | nil => exact Nat.zero_le _
            | cons u ts =>
                obtain ⟨hu, hcu⟩ := hall u List.mem_cons_self
                have hpair := hfirst
                rw [OwnFirst, Trap.live, hlive] at hpair
                have ht : t.dispatcher = h := by
                  obtain ⟨-, hafter, -⟩ := List.pairwise_append.mp hpair
                  exact List.rel_of_pairwise_cons hafter (hts₂.subset List.mem_cons_self) hu
                    (hcontext.trans hcu.symm)
                have hlonger : (t :: u :: ts).Sublist trap.live := by
                  rw [Trap.live, hlive]
                  exact (hts₂.cons_cons t).trans (List.sublist_append_right before _)
                have hle := hcount w.context (t :: u :: ts) hlonger
                  (List.forall_mem_cons.mpr ⟨⟨ht, hcontext⟩, hall⟩)
                rw [List.map_cons, List.count_cons_self] at hle
                exact Nat.le_of_succ_le_succ hle
          · have hle := hcount c ts (hts.trans hsub) hall
            rwa [List.map_cons, List.count_cons_of_ne (by simpa using hc)] at hle

end Trap

/-! ### Triggers and their watches -/

/-- The operation is called as its contract asks. -/
def TrapOp.calls {D : Dispatchers σ ι ω} (L : D.Lawful) : TrapOp ι ω → Prop
  | .operate op => L.calls op
  | _ => True

namespace TrapState

variable {D : Dispatchers σ ι ω} {L : D.Lawful} {s : TrapState σ ι}

/-- Every live trigger on an open handle has its watch there. -/
structure Linked (L : D.Lawful) (s : TrapState σ ι) : Prop where
  inv : L.inv s.objects
  below : ∀ k ∈ s.trap.triggers.map (·.key), k.2 < L.nextId s.objects k.1
  distinct : (s.trap.triggers.map (·.key)).Nodup
  watched : ∀ t ∈ s.trap.live, L.isOpen s.objects t.dispatcher →
    t.toWatch ∈ L.watches s.objects t.dispatcher

theorem immediate_objects {objects : σ} (ts : List (Trigger ι)) (h : L.inv objects) :
    L.inv (immediate D objects ts).1 ∧
      L.isOpen (immediate D objects ts).1 = L.isOpen objects ∧
      L.watches (immediate D objects ts).1 = L.watches objects ∧
      L.nextId (immediate D objects ts).1 = L.nextId objects := by
  induction ts generalizing objects with
  | nil => exact ⟨h, rfl, rfl, rfl⟩
  | cons t ts ih =>
      by_cases hremoved : t.removed = true
      · rw [immediate, if_pos hremoved]
        exact ih h
      · rw [immediate, if_neg hremoved]
        obtain ⟨hinv, hopen, hwatches, hnext⟩ := ih (L.inv_querySignals t.dispatcher h)
        exact ⟨hinv, hopen.trans (L.isOpen_querySignals ..),
          hwatches.trans (L.watches_querySignals ..), hnext.trans (L.nextId_querySignals ..)⟩

/-- Only the objects change, and not in what concerns the watches. -/
theorem Linked.congr {s' : TrapState σ ι} (h : s.Linked L) (htrap : s'.trap.triggers = s.trap.triggers)
    (hinv : L.inv s'.objects) (hopen : L.isOpen s'.objects = L.isOpen s.objects)
    (hwatches : L.watches s'.objects = L.watches s.objects)
    (hnext : L.nextId s'.objects = L.nextId s.objects) : s'.Linked L := by
  refine ⟨hinv, ?_, ?_, ?_⟩
  · rw [htrap, hnext]
    exact h.below
  · rw [htrap]
    exact h.distinct
  · rw [Trap.live, htrap, hopen, hwatches]
    exact h.watched

theorem Linked.addTrigger (h : s.Linked L) (dispatcher : ι) (signals : Signals) (context : Nat) :
    (s.addTrigger D dispatcher signals context).Linked L := by
  have hid := L.id_startWatch s.objects dispatcher signals context
  have hnext := L.nextId_startWatch s.objects dispatcher signals context
  have hle := L.nextId_startWatch_le s.objects dispatcher signals context
  have hkeys : (s.addTrigger D dispatcher signals context).trap.triggers.map (·.key) =
      s.trap.triggers.map (·.key) ++ [(dispatcher, L.nextId s.objects dispatcher)] := by
    rw [← hid]
    exact List.map_append
  have hlive : (s.addTrigger D dispatcher signals context).trap.live =
      s.trap.live ++ [⟨L.nextId s.objects dispatcher, dispatcher, signals, context, false⟩] := by
    rw [← hid]
    exact List.filter_append ..
  refine ⟨L.inv_startWatch _ _ _ h.inv, ?_, ?_, ?_⟩
  · rw [hkeys]
    intro k hk
    rcases List.mem_append.mp hk with hk | hk
    · exact Nat.lt_of_lt_of_le (h.below k hk) (hle _)
    · rw [List.mem_singleton.mp hk]
      exact hnext
  · rw [hkeys, List.nodup_append]
    refine ⟨h.distinct, List.nodup_singleton _, ?_⟩
    rintro k hk k' hk' rfl
    rw [List.mem_singleton.mp hk'] at hk
    exact absurd (h.below _ hk) (Nat.lt_irrefl _)
  · rw [hlive]
    show ∀ t ∈ _, L.isOpen (D.startWatch s.objects dispatcher signals context).1 _ →
      _ ∈ L.watches (D.startWatch s.objects dispatcher signals context).1 _
    rw [L.isOpen_startWatch]
    intro t ht hopen
    rcases List.mem_append.mp ht with ht | ht
    · have hmem := h.watched t ht hopen
      by_cases hd : t.dispatcher = dispatcher
      · rw [hd] at hmem hopen ⊢
        rw [L.watches_startWatch _ _ hopen]
        exact List.mem_append_left _ hmem
      · rwa [L.watches_startWatch_ne _ _ hd]
    · rw [List.mem_singleton.mp ht] at hopen ⊢
      rw [L.watches_startWatch _ _ hopen]
      exact List.mem_append_right _ (List.mem_singleton.mpr rfl)

theorem Linked.removeTrigger (h : s.Linked L) (context : Nat) :
    (s.removeTrigger D context).1.Linked L := by
  unfold TrapState.removeTrigger
  split
  · exact h
  · rename_i t us htake
    have hkeys := (Trap.fewer_takeFirst htake).keys
    obtain ⟨-, before, after, hlive, hlive', -⟩ := Trigger.live_takeFirst htake
    refine ⟨L.inv_cancelWatch _ _ h.inv, ?_, ?_, ?_⟩
    · show ∀ k ∈ us.map (·.key), k.2 < L.nextId (D.cancelWatch s.objects _ _) k.1
      rw [hkeys, L.nextId_cancelWatch]
      exact h.below
    · exact hkeys ▸ h.distinct
    · show ∀ u ∈ us.filter _, L.isOpen (D.cancelWatch s.objects _ _) _ →
        _ ∈ L.watches (D.cancelWatch s.objects _ _) _
      rw [hlive', L.isOpen_cancelWatch]
      intro u hu hopen
      have hnodup : ((before ++ t :: after).map (·.key)).Nodup :=
        hlive ▸ h.distinct.sublist (List.filter_sublist.map _)
      have hne : u.key ≠ t.key := by
        rw [List.map_append, List.map_cons, List.nodup_middle, List.nodup_cons,
          ← List.map_append] at hnodup
        exact fun hkey => hnodup.1 (hkey ▸ List.mem_map_of_mem hu)
      have hmem := h.watched u (by
        rw [Trap.live, hlive]
        exact List.mem_append.mpr ((List.mem_append.mp hu).imp_right (List.mem_cons_of_mem t))) hopen
      by_cases hd : u.dispatcher = t.dispatcher
      · rw [hd] at hmem ⊢
        rw [L.watches_cancelWatch _ _ h.inv]
        refine List.mem_filter.mpr ⟨hmem, decide_eq_true fun hid => hne ?_⟩
        exact Prod.ext hd hid
      · rwa [L.watches_cancelWatch_ne _ hd]

theorem Linked.close (h : s.Linked L) : (s.close D).1.Linked L := by
  refine ⟨?_, nofun, List.nodup_nil, nofun⟩
  show L.inv (s.trap.live.foldl _ s.objects)
  have hinv := h.inv
  generalize s.objects = objects at hinv ⊢
  induction s.trap.live generalizing objects with
  | nil => exact hinv
  | cons t ts ih => exact ih _ (L.inv_cancelWatch _ _ hinv)

theorem Linked.operate (h : s.Linked L) {op : ω} (hop : L.calls op) :
    (s.operate D op).1.Linked L := by
  have hfewer := Trap.fewer_onWatches s.trap (D.operate s.objects op).2
  refine ⟨L.inv_operate h.inv hop, ?_, ?_, fun t ht hopen => ?_⟩
  · show ∀ k ∈ (s.trap.onWatches _).1.triggers.map (·.key), k.2 < L.nextId (D.operate _ _).1 k.1
    rw [hfewer.keys, L.nextId_operate]
    exact h.below
  · exact hfewer.keys ▸ h.distinct
  · obtain ⟨hopen, hcloses⟩ := (L.isOpen_operate _ h.inv hop).mp hopen
    show _ ∈ L.watches (D.operate _ _).1 _
    rw [L.watches_operate h.inv hop hcloses]
    exact h.watched t (hfewer.live.subset ht) hopen

theorem Linked.run (h : s.Linked L) {op : TrapOp ι ω} (hop : op.calls L) :
    (s.run D op).1.Linked L := by
  cases op with
  | addTrigger dispatcher signals context => exact h.addTrigger dispatcher signals context
  | removeTrigger context => exact h.removeTrigger context
  | arm =>
      show (s.arm D).1.Linked L
      unfold TrapState.arm
      obtain ⟨hinv, hopen, hwatches, hnext⟩ := immediate_objects s.trap.triggers h.inv
      dsimp only
      split_ifs
      · exact h
      · exact h.congr rfl hinv hopen hwatches hnext
      · exact h.congr rfl hinv hopen hwatches hnext
  | close => exact h.close
  | operate op => exact h.operate hop

/-! ### Vigilance -/

/-- While the trap is armed, the signals of no live trigger are satisfied or
unsatisfiable on its handle. -/
def Vigilant (D : Dispatchers σ ι ω) (s : TrapState σ ι) : Prop :=
  s.trap.armed = true → ∀ t ∈ s.trap.live,
    (D.querySignals s.objects t.dispatcher).2.isSatisfied t.signals = false ∧
      (D.querySignals s.objects t.dispatcher).2.isUnsatisfiable t.signals = false

end TrapState

/-- The signals are what a query returns, and only the handles that an
operation closes or tells of them see theirs change. -/
structure Dispatchers.Lawful.Alert {D : Dispatchers σ ι ω} (L : D.Lawful) : Prop where
  querySignals (s h) : D.querySignals s h = (s, L.signals s h)
  signals_startWatch (s h w c) : L.signals (D.startWatch s h w c).1 = L.signals s
  signals_cancelWatch (s h id) : L.signals (D.cancelWatch s h id) = L.signals s
  signals_operate {s op h} : L.inv s → L.calls op → L.tells s op ≠ some h → L.closes s op ≠ some h →
    L.signals (D.operate s op).1 h = L.signals s h
  signals_closed {s h} : ¬L.isOpen s h → L.signals s h = .empty

namespace TrapState

variable {D : Dispatchers σ ι ω} {L : D.Lawful} {s : TrapState σ ι}

theorem vigilant_iff (hA : L.Alert) : s.Vigilant D ↔ (s.trap.armed = true →
    ∀ t ∈ s.trap.live, t.toWatch.fires (L.signals s.objects t.dispatcher) = false) := by
  simp only [Vigilant, hA.querySignals, Watch.fires, Trigger.toWatch, Bool.or_eq_false_iff]

/-- Nothing is waited for on a closed handle. -/
theorem isOpen_of_not_fires (hA : L.Alert) {objects : σ} {h : ι} {w : Watch}
    (hw : w.fires (L.signals objects h) = false) : L.isOpen objects h := by
  by_contra hclosed
  rw [hA.signals_closed hclosed] at hw
  revert hw
  simp only [Watch.fires, SignalsState.isUnsatisfiable, SignalsState.isSatisfied,
    SignalsState.empty]
  cases Signals.contains .none w.signals <;> simp

/-- The watches of a handle are enough to cancel all triggers on it. -/
theorem Linked.count_le (h : s.Linked L) {d : ι} (hopen : L.isOpen s.objects d) {c : Nat}
    {ts : List (Trigger ι)} (hts : ts.Sublist s.trap.live)
    (hall : ∀ t ∈ ts, t.dispatcher = d ∧ t.context = c) :
    ts.length ≤ ((L.watches s.objects d).map (·.context)).count c := by
  have hkeys : (ts.map (·.key)).Nodup :=
    h.distinct.sublist ((hts.trans List.filter_sublist).map _)
  have hnodup : (ts.map (·.toWatch)).Nodup := by
    refine List.Nodup.of_map (fun w => (d, w.id)) ?_
    rw [List.map_map]
    refine List.map_congr_left (fun t ht => ?_) ▸ hkeys
    exact Prod.ext (hall t ht).1 rfl
  have hsubset : ts.map (·.toWatch) ⊆ (L.watches s.objects d).filter (·.context = c) := by
    intro w hw
    obtain ⟨t, ht, rfl⟩ := List.mem_map.mp hw
    obtain ⟨hd, hc⟩ := hall t ht
    have hmem := h.watched t (hts.subset ht) (hd ▸ hopen)
    exact List.mem_filter.mpr ⟨hd ▸ hmem, decide_eq_true hc⟩
  have hle := (hnodup.subperm hsubset).length_le
  rw [List.length_map] at hle
  rw [List.count, List.countP_map, List.countP_eq_length_filter]
  exact hle

/-- An operation on the objects does not go unnoticed. -/
theorem vigilant_operate (hA : L.Alert) (h : s.Linked L) (hv : s.Vigilant D) {op : ω}
    (hop : L.calls op)
    (hfirst : s.trap.armed = true → ∀ d, L.closes s.objects op = some d → s.trap.OwnFirst d) :
    (s.operate D op).1.Vigilant D := by
  rw [vigilant_iff hA] at hv ⊢
  intro harmed t ht
  have hfewer := Trap.fewer_onWatches s.trap (D.operate s.objects op).2
  have hwas := hfewer.armed harmed
  have hquiet := hv hwas t (hfewer.live.subset ht)
  have hopen := isOpen_of_not_fires hA hquiet
  have hwatch := h.watched t (hfewer.live.subset ht) hopen
  have hns := L.notifications h.inv hop
  by_cases hcloses : L.closes s.objects op = some t.dispatcher
  · -- all triggers on the handle were cancelled
    rw [hcloses] at hns
    have hcancelled := Trap.cancels_all (hfirst hwas _ hcloses)
      (fun c ts hts hall => h.count_le hopen hts hall)
    have hlive : t ∈ (s.trap.onWatches (D.operate s.objects op).2).1.live := ht
    rw [hns, Trap.onWatches_append] at hlive
    exact absurd rfl (hcancelled t ((Trap.fewer_onWatches _ _).live.subset hlive))
  · by_cases htells : L.tells s.objects op = some t.dispatcher
    · by_contra hfires
      rw [Bool.not_eq_false] at hfires
      -- the watch of the trigger is called back, which disarms
      obtain ⟨ns, hsplit⟩ : ∃ ns, (D.operate s.objects op).2 =
          ns ++ changes (L.signals (D.operate s.objects op).1 t.dispatcher)
            (L.watches (D.operate s.objects op).1 t.dispatcher) :=
        ⟨_, by rw [hns, htells]; rfl⟩
      have hlive : t ∈ (s.trap.onWatches (D.operate s.objects op).2).1.live := ht
      have hstill : (s.trap.onWatches (D.operate s.objects op).2).1.armed = true := harmed
      rw [hsplit, Trap.onWatches_append] at hlive hstill
      rw [L.watches_operate h.inv hop hcloses] at hlive hstill
      have hdisarmed := Trap.disarmed (fun n => kind_of_mem_changes)
        ((Trap.fewer_onWatches _ _).live.subset hlive)
        ⟨_, List.mem_map_of_mem (List.mem_filter.mpr ⟨hwatch, hfires⟩), rfl⟩
      exact Bool.false_ne_true (hdisarmed.symm.trans hstill)
    · rw [show (s.operate D op).1.objects = (D.operate s.objects op).1 from rfl,
        hA.signals_operate h.inv hop htells hcloses]
      exact hquiet

theorem vigilant_addTrigger (hA : L.Alert) (hv : s.Vigilant D) {dispatcher : ι}
    {signals : Signals} (context : Nat)
    (hquiet : s.trap.armed = true →
      (D.querySignals s.objects dispatcher).2.isSatisfied signals = false ∧
        (D.querySignals s.objects dispatcher).2.isUnsatisfiable signals = false) :
    (s.addTrigger D dispatcher signals context).Vigilant D := by
  rw [vigilant_iff hA] at hv ⊢
  intro harmed t ht
  show t.toWatch.fires (L.signals (D.startWatch s.objects dispatcher signals context).1 _) = false
  rw [hA.signals_startWatch]
  have hlive : (s.addTrigger D dispatcher signals context).trap.live = s.trap.live ++ _ :=
    List.filter_append ..
  rw [hlive] at ht
  rcases List.mem_append.mp ht with ht | ht
  · exact hv harmed t ht
  · obtain ⟨hmem, -⟩ := List.mem_filter.mp ht
    rw [List.mem_singleton.mp hmem]
    have hboth := hquiet harmed
    rw [hA.querySignals] at hboth
    exact Bool.or_eq_false_iff.mpr hboth

theorem vigilant_removeTrigger (hA : L.Alert) (hv : s.Vigilant D) (context : Nat) :
    (s.removeTrigger D context).1.Vigilant D := by
  unfold TrapState.removeTrigger
  split
  · exact hv
  · rename_i t us htake
    rw [vigilant_iff hA] at hv ⊢
    intro harmed u hu
    show u.toWatch.fires (L.signals (D.cancelWatch s.objects _ _) _) = false
    rw [hA.signals_cancelWatch]
    exact hv harmed u ((Trap.fewer_takeFirst htake).live.subset hu)

/-- A trigger that fires already keeps the trap from being armed. -/
theorem immediate_eq_nil (hA : L.Alert) {objects : σ} {ts : List (Trigger ι)}
    (h : (immediate D objects ts).2 = []) :
    ∀ t ∈ ts.filter (!·.removed), t.toWatch.fires (L.signals objects t.dispatcher) = false := by
  induction ts with
  | nil => exact nofun
  | cons t ts ih =>
      by_cases hremoved : t.removed = true
      · rw [immediate, if_pos hremoved] at h
        rw [List.filter_cons_of_neg (by simp [hremoved])]
        exact ih h
      · rw [immediate, if_neg hremoved, hA.querySignals] at h
        dsimp only at h
        split_ifs at h with hempty hsat hunsat
        rw [List.filter_cons_of_pos (by simp [hremoved])]
        refine List.forall_mem_cons.mpr ⟨?_, ih h⟩
        exact Bool.or_eq_false_iff.mpr ⟨Bool.eq_false_iff.mpr hsat, Bool.eq_false_iff.mpr hunsat⟩

theorem vigilant_arm (hA : L.Alert) (hv : s.Vigilant D) : (s.arm D).1.Vigilant D := by
  have hobjects (ts : List (Trigger ι)) (objects : σ) : (immediate D objects ts).1 = objects := by
    induction ts with
    | nil => rfl
    | cons t ts ih =>
        unfold immediate
        rw [hA.querySignals]
        split
        · exact ih
        · exact ih
  unfold TrapState.arm
  dsimp only
  split_ifs with harmed hnone
  · exact hv
  · rw [vigilant_iff hA, hobjects]
    exact fun _ => immediate_eq_nil hA (List.isEmpty_iff.mp hnone)
  · exact fun h => absurd h harmed

end TrapState

/-! ### Message pipes -/

namespace Pipe

variable {η : Type}

/-- The watches among these registrations that are not cancelled. -/
def watchesOf (ws : List (WatcherRegistration Nat)) : List Watch :=
  (ws.filter (!·.cancelled)).map fun w => ⟨w.id, w.signals, w.callback⟩

/-- Ids are given out in order. -/
def Ordered (ws : List (WatcherRegistration Nat)) (next : Nat) : Prop :=
  ws.Pairwise (·.id < ·.id) ∧ ∀ w ∈ ws, w.id < next

theorem Ordered.append {ws : List (WatcherRegistration Nat)} {next : Nat} (h : Ordered ws next)
    (signals : Signals) (callback : Nat) :
    Ordered (ws ++ [⟨next, signals, callback, false⟩]) (next + 1) := by
  refine ⟨List.pairwise_append.mpr ⟨h.1, List.pairwise_singleton .., ?_⟩, fun w hw => ?_⟩
  · intro w hw v hv
    rw [List.mem_singleton.mp hv]
    exact h.2 w hw
  · rcases List.mem_append.mp hw with hw | hw
    · exact Nat.lt_succ_of_lt (h.2 w hw)
    · rw [List.mem_singleton.mp hw]
      exact Nat.lt_succ_self next

theorem Ordered.mono {ws : List (WatcherRegistration Nat)} {next next' : Nat} (h : Ordered ws next)
    (hle : next ≤ next') : Ordered ws next' :=
  ⟨h.1, fun w hw => Nat.lt_of_lt_of_le (h.2 w hw) hle⟩

/-- The ids stay when cancelled flags are set. -/
theorem Ordered.congr {ws ws' : List (WatcherRegistration Nat)} {next : Nat} (h : Ordered ws next)
    (hids : ws'.map (·.id) = ws.map (·.id)) : Ordered ws' next := by
  constructor
  · exact List.pairwise_map.mp (hids ▸ List.pairwise_map.mpr h.1 : (ws'.map (·.id)).Pairwise (· < ·))
  · intro w hw
    have hmem : w.id ∈ ws.map (·.id) := hids ▸ List.mem_map_of_mem hw
    obtain ⟨v, hv, hid⟩ := List.mem_map.mp hmem
    exact hid ▸ h.2 v hv

theorem ids_cancelWatcher (id : Nat) (ws : List (WatcherRegistration Nat)) :
    (EndpointState.cancelWatcher id ws).map (·.id) = ws.map (·.id) := by
  induction ws with
  | nil => rfl
  | cons w ws ih =>
      rw [EndpointState.cancelWatcher]
      split_ifs
      · rfl
      · rw [List.map_cons, List.map_cons, ih]

theorem watchesOf_cons (w : WatcherRegistration Nat) (ws : List (WatcherRegistration Nat)) :
    watchesOf (w :: ws) =
      if w.cancelled then watchesOf ws else ⟨w.id, w.signals, w.callback⟩ :: watchesOf ws := by
  unfold watchesOf
  cases hc : w.cancelled <;> simp [hc]

/-- Cancelling an id takes its watch out. -/
theorem watchesOf_cancelWatcher {ws : List (WatcherRegistration Nat)}
    (h : ws.Pairwise (·.id < ·.id)) (id : Nat) :
    watchesOf (EndpointState.cancelWatcher id ws) = (watchesOf ws).filter (·.id ≠ id) := by
  induction ws with
  | nil => rfl
  | cons w ws ih =>
      obtain ⟨hw, hws⟩ := List.pairwise_cons.mp h
      rw [EndpointState.cancelWatcher, watchesOf_cons w]
      split_ifs with hid hc hc
      · -- all other watches have later ids
        have hrest : (watchesOf ws).filter (·.id ≠ id) = watchesOf ws := by
          refine List.filter_eq_self.mpr fun v hv => ?_
          obtain ⟨u, hu, rfl⟩ := List.mem_map.mp hv
          exact decide_eq_true (hid ▸ Nat.ne_of_gt (hw u (List.mem_of_mem_filter hu)))
        rw [watchesOf_cons, hrest, if_pos rfl]
      · have hrest : (watchesOf ws).filter (·.id ≠ id) = watchesOf ws := by
          refine List.filter_eq_self.mpr fun v hv => ?_
          obtain ⟨u, hu, rfl⟩ := List.mem_map.mp hv
          exact decide_eq_true (hid ▸ Nat.ne_of_gt (hw u (List.mem_of_mem_filter hu)))
        rw [watchesOf_cons, if_pos rfl, List.filter_cons_of_neg (by simp [hid]), hrest]
      · rw [watchesOf_cons, if_pos hc, ih hws]
      · rw [watchesOf_cons, if_neg hc, ih hws, List.filter_cons_of_pos (by simp [hid])]

theorem watchesOf_append (ws ws' : List (WatcherRegistration Nat)) :
    watchesOf (ws ++ ws') = watchesOf ws ++ watchesOf ws' := by
  rw [watchesOf, List.filter_append, List.map_append]
  rfl

theorem watchesOf_cancelled (ws : List (WatcherRegistration Nat)) :
    watchesOf (ws.map fun w => { w with cancelled := true }) = [] := by
  rw [watchesOf, List.filter_eq_nil_iff.mpr]
  · rfl
  · intro w hw
    obtain ⟨v, -, rfl⟩ := List.mem_map.mp hw
    exact Bool.false_ne_true

theorem collectNotifications_eq (ep : EndpointState η Nat) :
    ep.collectNotifications = changes ep.signalsOf (watchesOf ep.watchers) := by
  unfold EndpointState.collectNotifications changes watchesOf
  rw [List.filter_map, List.map_map, List.filter_filter]
  refine congrArg (List.map _) (List.filter_congr fun w _ => ?_)
  exact Bool.and_comm ..

namespace MessagePipes

theorem setPipe_self (s : MessagePipes η) (n : Nat) : s.setPipe n (s.pipes n) = s := by
  rw [setPipe, Function.update_eq_self]

theorem endpoint_setPipe (s : MessagePipes η) (n : Nat) (pipe : PipeState η Nat) (h : Nat × End) :
    (s.setPipe n pipe).endpoint h = if h.1 = n then pipe.endpoints h.2 else s.endpoint h := by
  show (Function.update s.pipes n pipe h.1).endpoints h.2 = _
  split_ifs with hn
  · rw [hn, Function.update_self]
  · rw [Function.update_of_ne hn]
    rfl

/-- One endpoint of one pipe changes. -/
theorem endpoint_setEndpoint (s : MessagePipes η) (n : Nat) (e : End) (ep : EndpointState η Nat)
    (h : Nat × End) : (s.setPipe n ((s.pipes n).setEndpoint e ep)).endpoint h =
      if h = (n, e) then ep else s.endpoint h := by
  rw [endpoint_setPipe]
  by_cases hn : h.1 = n
  · rw [if_pos hn]
    by_cases he : h.2 = e
    · rw [if_pos (Prod.ext hn he), he, PipeState.endpoints_setEndpoint]
    · rw [if_neg (fun hh => he (congrArg Prod.snd hh)), PipeState.endpoints_setEndpoint_ne _ _ he,
        ← hn]
      rfl
  · rw [if_neg hn, if_neg (fun hh => hn (congrArg Prod.fst hh))]

/-- The handle that an operation closes. -/
def closes (s : MessagePipes η) : MessagePipeOp η → Option (Nat × End)
  | .close h => if (s.endpoint h).localClosed then none else some h
  | _ => none

/-- The handle that an operation tells of its signals. -/
def tells (s : MessagePipes η) : MessagePipeOp η → Option (Nat × End)
  | .write h message =>
      match ((s.pipes h.1).write h.2 message).2.1 with
      | .ok () => some (h.1, h.2.peer)
      | .error _ => none
  | .read h maxNumBytes mayDiscard =>
      match ((s.pipes h.1).read h.2 maxNumBytes mayDiscard).2.1 with
      | .ok (.message ..) => some h
      | _ => none
  | .close h => if (s.endpoint h).localClosed then none else some (h.1, h.2.peer)

/-- An operation: the endpoint that it closes loses its watches, the one that
it tells has others signals, the rest stays. -/
structure Effect (s : MessagePipes η) (op : MessagePipeOp η) : Prop where
  nextWatchId : (s.operate op).1.nextWatchId = s.nextWatchId
  watchers (h) : closes s op ≠ some h →
    ((s.operate op).1.endpoint h).watchers = (s.endpoint h).watchers
  cancelled {h} : closes s op = some h → ((s.operate op).1.endpoint h).watchers =
    (s.endpoint h).watchers.map fun w => { w with cancelled := true }
  localClosed (h) : ((s.operate op).1.endpoint h).localClosed =
    ((s.endpoint h).localClosed || decide (closes s op = some h))
  closed {h} : closes s op = some h → (s.endpoint h).localClosed = false
  signals {h} : tells s op ≠ some h → closes s op ≠ some h →
    ((s.operate op).1.endpoint h).signalsOf = (s.endpoint h).signalsOf
  notifications : (s.operate op).2 =
    ((closes s op).elim [] fun h => cancellations (watchesOf (s.endpoint h).watchers)) ++
      (tells s op).elim [] fun h => changes ((s.operate op).1.endpoint h).signalsOf
        (watchesOf ((s.operate op).1.endpoint h).watchers)

/-- Nothing happens that a watch would see. -/
theorem Effect.quiet {s s' : MessagePipes η} {op : MessagePipeOp η} (h : s.operate op = (s', []))
    (hcloses : closes s op = none) (htells : tells s op = none)
    (hnext : s'.nextWatchId = s.nextWatchId)
    (hsame : ∀ h, (s'.endpoint h).watchers = (s.endpoint h).watchers ∧
      (s'.endpoint h).localClosed = (s.endpoint h).localClosed ∧
        (s'.endpoint h).signalsOf = (s.endpoint h).signalsOf) : s.Effect op := by
  refine ⟨?_, fun d _ => ?_, fun {d} hd => ?_, fun d => ?_, fun {d} hd => ?_, fun {d} _ _ => ?_, ?_⟩
  · rw [h]
    exact hnext
  · rw [h]
    exact (hsame d).1
  · rw [hcloses] at hd
    cases hd
  · rw [h, hcloses]
    exact (hsame d).2.1.trans (Bool.or_false _).symm
  · rw [hcloses] at hd
    cases hd
  · rw [h]
    exact (hsame d).2.2
  · rw [h, hcloses, htells]
    rfl

/-- One endpoint changes, and is told of its signals. -/
theorem Effect.one {s : MessagePipes η} {op : MessagePipeOp η} (d : Nat × End)
    (ep : EndpointState η Nat)
    (h : s.operate op = (s.setPipe d.1 ((s.pipes d.1).setEndpoint d.2 ep), ep.collectNotifications))
    (hcloses : closes s op = none) (htells : tells s op = some d)
    (hwatchers : ep.watchers = (s.endpoint d).watchers)
    (hlocal : ep.localClosed = (s.endpoint d).localClosed) : s.Effect op := by
  have hep (d' : Nat × End) : (s.operate op).1.endpoint d' = if d' = d then ep else s.endpoint d' := by
    rw [h]
    exact endpoint_setEndpoint s d.1 d.2 ep d'
  refine ⟨?_, fun d' _ => ?_, fun hd => ?_, fun d' => ?_, fun hd => ?_, fun {d'} hd' _ => ?_, ?_⟩
  · rw [h]
    rfl
  · rw [hep]
    split_ifs with hd
    · rw [hd, hwatchers]
    · rfl
  · rw [hcloses] at hd
    cases hd
  · rw [hep, hcloses]
    split_ifs with hd
    · rw [hd, hlocal]
      exact (Bool.or_false _).symm
    · exact (Bool.or_false _).symm
  · rw [hcloses] at hd
    cases hd
  · rw [hep, if_neg]
    rintro rfl
    exact hd' htells
  · rw [hcloses, htells]
    show (s.operate op).2 = changes ((s.operate op).1.endpoint d).signalsOf
      (watchesOf ((s.operate op).1.endpoint d).watchers)
    rw [hep, if_pos rfl, h]
    exact collectNotifications_eq ep

/-- A close: the watches here are cancelled, the peer is told. -/
theorem effect_close (s : MessagePipes η) (d : Nat × End) : s.Effect (.close d) := by
  -- a second close does nothing
  by_cases hclosed : (s.endpoint d).localClosed = true
  · have hop : s.operate (.close d) = (s, []) := by
      show (s.setPipe d.1 ((s.pipes d.1).close d.2).1, ((s.pipes d.1).close d.2).2) = _
      rw [show (s.pipes d.1).close d.2 = (s.pipes d.1, []) from if_pos hclosed, setPipe_self]
    exact .quiet hop (if_pos hclosed) (if_pos hclosed) rfl fun _ => ⟨rfl, rfl, rfl⟩
  · have hcloses : closes s (.close d) = some d := if_neg hclosed
    have htells : tells s (.close d) = some (d.1, d.2.peer) := if_neg hclosed
    have hopen : ¬((s.pipes d.1).endpoints d.2).localClosed = true := hclosed
    -- the endpoint, its peer, and all others
    have hep (d' : Nat × End) : (s.operate (.close d)).1.endpoint d' =
        if d' = d then
          (({ s.endpoint d with localClosed := true } : EndpointState η Nat).cancelWatchers).1
        else if d' = (d.1, d.2.peer) then { s.endpoint d' with peerClosed := true }
        else s.endpoint d' := by
      show (s.setPipe d.1 ((s.pipes d.1).close d.2).1).endpoint d' = _
      obtain ⟨n, e⟩ := d
      obtain ⟨n', e'⟩ := d'
      rw [endpoint_setPipe, endpoints_close, if_neg hopen]
      by_cases hn : n' = n
      · subst hn
        rw [if_pos rfl]
        by_cases he : e' = e
        · subst he
          rw [if_pos rfl, if_pos rfl]
          rfl
        · have hpeer : e' = e.peer := by
            revert he
            cases e <;> cases e' <;> simp [End.peer]
          rw [if_neg he, if_neg (fun h => he (congrArg Prod.snd h)), hpeer, if_pos rfl]
          rfl
      · rw [if_neg hn, if_neg (fun h => hn (congrArg Prod.fst h)),
          if_neg (fun h => hn (congrArg Prod.fst h))]
    refine ⟨rfl, fun d' hd => ?_, fun {d'} hd => ?_, fun d' => ?_, fun {d'} hd => ?_,
      fun {d'} hd' hd => ?_, ?_⟩
    · rw [hep, if_neg]
      · split_ifs <;> rfl
      · rintro rfl
        exact hd hcloses
    · obtain rfl := Option.some.inj (hcloses.symm.trans hd)
      rw [hep, if_pos rfl]
      rfl
    · rw [hep, hcloses]
      by_cases hd : d' = d
      · rw [if_pos hd, hd, decide_eq_true rfl, Bool.or_true]
        rfl
      · rw [if_neg hd, decide_eq_false fun h => hd (Option.some.inj h).symm, Bool.or_false]
        split_ifs <;> rfl
    · obtain rfl := Option.some.inj (hcloses.symm.trans hd)
      exact Bool.eq_false_iff.mpr hclosed
    · rw [hep, if_neg, if_neg]
      · rintro rfl
        exact hd' htells
      · rintro rfl
        exact hd hcloses
    -- first the cancellations here, then what changed for the watches of the peer
    · rw [hcloses, htells]
      show ((s.pipes d.1).close d.2).2 = cancellations (watchesOf (s.endpoint d).watchers) ++
        changes ((s.operate (.close d)).1.endpoint (d.1, d.2.peer)).signalsOf
          (watchesOf ((s.operate (.close d)).1.endpoint (d.1, d.2.peer)).watchers)
      rw [hep, if_neg (fun h => End.peer_ne d.2 (congrArg Prod.snd h)), if_pos rfl]
      refine (congrArg Prod.snd (if_neg hopen : (s.pipes d.1).close d.2 = _)).trans ?_
      exact congrArg₂ _ (by simp [cancellations, watchesOf]; rfl)
        (collectNotifications_eq _)

theorem effect (s : MessagePipes η) (op : MessagePipeOp η) : s.Effect op := by
  cases op with
  | write d message =>
      rcases write_cases (s.pipes d.1) d.2 message with ⟨err, hw⟩ | ⟨-, -, hw⟩
      · have hop : s.operate (.write d message) = (s, []) := by
          simp only [operate, hw, setPipe_self]
        exact .quiet hop rfl (by simp only [tells, hw]) rfl fun _ => ⟨rfl, rfl, rfl⟩
      · let peer := { (s.pipes d.1).endpoints d.2.peer with
          queue := ((s.pipes d.1).endpoints d.2.peer).queue ++ [message]
          queuedBytes := ((s.pipes d.1).endpoints d.2.peer).queuedBytes + message.data.length }
        refine .one (d.1, d.2.peer) peer ?_ rfl (by simp only [tells, hw]) rfl rfl
        simp only [operate, hw]
        rfl
  | read d maxNumBytes mayDiscard =>
      rcases read_cases (s.pipes d.1) d.2 maxNumBytes mayDiscard with
        ⟨hr, -⟩ | ⟨hr, -⟩ | ⟨message, queue, hqueue, hr | hr⟩
      · have hop : s.operate (.read d maxNumBytes mayDiscard) = (s, []) := by
          simp only [operate, hr, setPipe_self]
        exact .quiet hop rfl (by simp only [tells, hr]) rfl fun _ => ⟨rfl, rfl, rfl⟩
      · have hop : s.operate (.read d maxNumBytes mayDiscard) = (s, []) := by
          simp only [operate, hr, setPipe_self]
        exact .quiet hop rfl (by simp only [tells, hr]) rfl fun _ => ⟨rfl, rfl, rfl⟩
      · -- the message is put back
        let ep := { (s.pipes d.1).endpoints d.2 with
          queuedBytes := ((s.pipes d.1).endpoints d.2).queuedBytes - message.data.length +
            message.data.length }
        have hop : s.operate (.read d maxNumBytes mayDiscard) =
            (s.setPipe d.1 ((s.pipes d.1).setEndpoint d.2 ep), []) := by
          simp only [operate, hr]
          rfl
        refine .quiet hop rfl (by simp only [tells, hr]) rfl fun d' => ?_
        rw [endpoint_setEndpoint]
        split_ifs with hd
        · subst hd
          exact ⟨rfl, rfl, rfl⟩
        · exact ⟨rfl, rfl, rfl⟩
      · let ep := { (s.pipes d.1).endpoints d.2 with
          queue := queue
          queuedBytes := ((s.pipes d.1).endpoints d.2).queuedBytes - message.data.length }
        refine .one d ep ?_ rfl (by simp only [tells, hr]) rfl rfl
        simp only [operate, hr]
        rfl
  | close d => exact effect_close s d

theorem endpoint_startWatch (s : MessagePipes η) (d : Nat × End) (w : Signals) (c : Nat)
    (d' : Nat × End) : ((messagePipes η).startWatch s d w c).1.endpoint d' =
      if (s.endpoint d).localClosed then s.endpoint d'
      else if d' = d then
        { s.endpoint d with
          watchers := (s.endpoint d).watchers ++ [⟨s.nextWatchId, w, c, false⟩] }
      else s.endpoint d' := by
  show (s.setPipe d.1 ((s.pipes d.1).registerWatch d.2 s.nextWatchId w c)).endpoint d' = _
  by_cases hclosed : (s.endpoint d).localClosed = true
  · rw [if_pos hclosed, show (s.pipes d.1).registerWatch d.2 s.nextWatchId w c = s.pipes d.1 from
      if_pos hclosed, setPipe_self]
  · have hopen : ¬((s.pipes d.1).endpoints d.2).localClosed = true := hclosed
    rw [if_neg hclosed, PipeState.registerWatch, if_neg hopen]
    exact endpoint_setEndpoint ..

theorem endpoint_cancelWatch (s : MessagePipes η) (d : Nat × End) (id : Nat) (d' : Nat × End) :
    ((messagePipes η).cancelWatch s d id).endpoint d' =
      if d' = d then
        { s.endpoint d with
          watchers := EndpointState.cancelWatcher id (s.endpoint d).watchers }
      else s.endpoint d' :=
  endpoint_setEndpoint ..

/-- The ids of every endpoint are in order. -/
def InOrder (s : MessagePipes η) : Prop := ∀ d, Ordered (s.endpoint d).watchers s.nextWatchId

theorem InOrder.startWatch {s : MessagePipes η} (h : s.InOrder) (d : Nat × End) (w : Signals)
    (c : Nat) : ((messagePipes η).startWatch s d w c).1.InOrder := by
  intro d'
  rw [endpoint_startWatch]
  split_ifs
  · exact (h d').mono (Nat.le_succ _)
  · exact (h d).append w c
  · exact (h d').mono (Nat.le_succ _)

theorem InOrder.cancelWatch {s : MessagePipes η} (h : s.InOrder) (d : Nat × End) (id : Nat) :
    ((messagePipes η).cancelWatch s d id).InOrder := by
  intro d'
  rw [endpoint_cancelWatch]
  split_ifs
  · exact (h d).congr (ids_cancelWatcher id _)
  · exact h d'

theorem InOrder.operate {s : MessagePipes η} (h : s.InOrder) (op : MessagePipeOp η) :
    (s.operate op).1.InOrder := by
  have heffect := s.effect op
  intro d
  rw [heffect.nextWatchId]
  by_cases hcloses : closes s op = some d
  · refine (h d).congr ?_
    rw [heffect.cancelled hcloses, List.map_map]
    rfl
  · rw [heffect.watchers d hcloses]
    exact h d

end MessagePipes

open MessagePipes TrapState

/-- Message pipes treat watches as they should. -/
def messagePipesLawful (η : Type) : (messagePipes η).Lawful where
  isOpen s d := (s.endpoint d).localClosed = false
  watches s d := watchesOf (s.endpoint d).watchers
  signals s d := (s.endpoint d).signalsOf
  nextId s _ := s.nextWatchId
  closes := closes
  tells := tells
  calls _ := True
  inv := InOrder
  inv_querySignals _ := id
  isOpen_querySignals _ _ := rfl
  watches_querySignals _ _ := rfl
  nextId_querySignals _ _ := rfl
  inv_startWatch d w c h := h.startWatch d w c
  isOpen_startWatch s d w c := by
    funext d'
    rw [endpoint_startWatch]
    split_ifs with _ hd
    · rfl
    · rw [hd]
    · rfl
  id_startWatch _ _ _ _ := rfl
  nextId_startWatch_le _ _ _ _ _ := Nat.le_succ _
  nextId_startWatch _ _ _ _ := Nat.lt_succ_self _
  watches_startWatch {s d} w c h := by
    rw [endpoint_startWatch, if_neg (Bool.eq_false_iff.mp h), if_pos rfl]
    exact watchesOf_append ..
  watches_startWatch_closed {s d} w c h := by
    rw [endpoint_startWatch, if_pos (Bool.not_eq_false _ ▸ h)]
  watches_startWatch_ne {s d d'} w c h := by
    rw [endpoint_startWatch, if_neg h, ite_self]
  inv_cancelWatch d id h := h.cancelWatch d id
  isOpen_cancelWatch s d id := by
    funext d'
    rw [endpoint_cancelWatch]
    split_ifs with hd
    · rw [hd]
    · rfl
  nextId_cancelWatch _ _ _ := rfl
  watches_cancelWatch {s} d id h := by
    rw [endpoint_cancelWatch, if_pos rfl]
    exact watchesOf_cancelWatcher (h d).1 id
  watches_cancelWatch_ne {s d d'} id h := by
    rw [endpoint_cancelWatch, if_neg h]
  inv_operate {s op} h _ := h.operate op
  nextId_operate s op := funext fun _ => (s.effect op).nextWatchId
  isOpen_operate {s op} d _ _ := by
    show ((s.operate op).1.endpoint d).localClosed = false ↔ _
    rw [(s.effect op).localClosed, Bool.or_eq_false_iff, decide_eq_false_iff_not]
  watches_operate {s op d} _ _ h := congrArg watchesOf ((s.effect op).watchers d h)
  watches_operate_closed {s op d} _ _ h := by
    refine ⟨(s.effect op).closed h, ?_⟩
    show watchesOf ((s.operate op).1.endpoint d).watchers = []
    rw [(s.effect op).cancelled h]
    exact watchesOf_cancelled _
  tells_ne {s op d} h hcloses := by
    cases op with
    | write d' message => cases hcloses
    | read d' maxNumBytes mayDiscard => cases hcloses
    | close d' =>
        simp only [MessagePipes.tells, MessagePipes.closes] at h hcloses
        split_ifs at h hcloses
        obtain rfl := Option.some.inj hcloses
        exact End.peer_ne _ (congrArg Prod.snd (Option.some.inj h))
  notifications {s op} _ _ := (s.effect op).notifications

theorem messagePipesAlert (η : Type) : (messagePipesLawful η).Alert where
  querySignals _ _ := rfl
  signals_startWatch s d w c := by
    funext d'
    show (((messagePipes η).startWatch s d w c).1.endpoint d').signalsOf = _
    rw [endpoint_startWatch]
    split_ifs with _ hd
    · rfl
    · rw [hd]
      rfl
    · rfl
  signals_cancelWatch s d id := by
    funext d'
    show (((messagePipes η).cancelWatch s d id).endpoint d').signalsOf = _
    rw [endpoint_cancelWatch]
    split_ifs with hd
    · rw [hd]
      rfl
    · rfl
  signals_operate {s op d} _ _ htells hcloses := (s.effect op).signals htells hcloses
  signals_closed {s d} h := if_pos (Bool.not_eq_false _ ▸ h)

/-- Two steps need care while the trap is armed: a trigger added must have
something to wait for, and a handle closed must have the oldest triggers with
its contexts. -/
def Attentive (s : TrapState (MessagePipes η) (Nat × End)) :
    TrapOp (Nat × End) (MessagePipeOp η) → Prop
  | .addTrigger d signals _ => s.trap.armed = true →
      ((messagePipes η).querySignals s.objects d).2.isSatisfied signals = false ∧
        ((messagePipes η).querySignals s.objects d).2.isUnsatisfiable signals = false
  | .operate (.close d) => s.trap.armed = true → s.trap.OwnFirst d
  | _ => True

instance (s : TrapState (MessagePipes η) (Nat × End)) :
    (op : TrapOp (Nat × End) (MessagePipeOp η)) → Decidable (Attentive s op)
  | .addTrigger .. => inferInstanceAs (Decidable (_ → _ ∧ _))
  | .operate (.close _) => inferInstanceAs (Decidable (_ → _))
  | .operate (.write ..) => isTrue trivial
  | .operate (.read ..) => isTrue trivial
  | .removeTrigger _ => isTrue trivial
  | .arm => isTrue trivial
  | .close => isTrue trivial

/-- One operation keeps the links, and vigilance if it is attentive. -/
theorem attentive_step {s : TrapState (MessagePipes η) (Nat × End)}
    {op : TrapOp (Nat × End) (MessagePipeOp η)}
    (h : s.Linked (messagePipesLawful η) ∧ s.Vigilant (messagePipes η)) (hop : Attentive s op) :
    (s.run (messagePipes η) op).1.Linked (messagePipesLawful η) ∧
      (s.run (messagePipes η) op).1.Vigilant (messagePipes η) := by
  obtain ⟨hlinked, hv⟩ := h
  have hA := messagePipesAlert η
  refine ⟨hlinked.run ?_, ?_⟩
  · cases op <;> trivial
  cases op with
  | addTrigger d signals context => exact vigilant_addTrigger hA hv context hop
  | removeTrigger context => exact vigilant_removeTrigger hA hv context
  | arm => exact vigilant_arm hA hv
  | close => exact fun _ => nofun
  | operate op =>
      refine vigilant_operate hA hlinked hv trivial fun harmed d hcloses => ?_
      cases op with
      | write d' message => cases hcloses
      | read d' maxNumBytes mayDiscard => cases hcloses
      | close d' =>
          have hd : d' = d := by
            simp only [messagePipesLawful, MessagePipes.closes] at hcloses
            split_ifs at hcloses
            exact Option.some.inj hcloses
          exact hd ▸ hop harmed

/-- In every run that is attentive, the trap is vigilant throughout. -/
theorem armed_vigilant (ops : List (TrapOp (Nat × End) (MessagePipeOp η)))
    (h : Meets (fun s op => (s.run (messagePipes η) op).1) Attentive ⟨.init, .create⟩ ops) :
    Always (fun s op => (s.run (messagePipes η) op).1) (TrapState.Vigilant (messagePipes η))
      ⟨.init, .create⟩ ops := by
  have hlinked : (⟨.init, .create⟩ : TrapState (MessagePipes η) (Nat × End)).Linked
      (messagePipesLawful η) :=
    ⟨fun _ => ⟨.nil, nofun⟩, nofun, .nil, nofun⟩
  exact (always_of_meets (fun _ _ => attentive_step) ⟨hlinked, nofun⟩ h).imp fun _ => And.right

/-- Armed with one trigger that waits for a message, which comes. -/
theorem armed_vigilant_message :
    Always (fun s op => (s.run (messagePipes Unit) op).1) (TrapState.Vigilant (messagePipes Unit))
      ⟨.init, .create⟩
      [.addTrigger (0, .a) .readable 7, .arm, .operate (.write (0, .b) ⟨[1], []⟩)] :=
  armed_vigilant _ (by decide +kernel)

/-- A trigger for `WRITABLE` is added to an armed trap while the pipe is
writable. -/
theorem armed_sleeps :
    ¬Always (fun s op => (s.run (messagePipes Unit) op).1)
      (TrapState.Vigilant (messagePipes Unit)) ⟨.init, .create⟩
      [.addTrigger (0, .a) .readable 7, .arm, .addTrigger (0, .a) .writable 8] := by
  intro h
  have hlast := h.2.2.2 (by decide +kernel)
  revert hlast
  decide +kernel

end Pipe

end MojoRs.Core
