/-
MojoRs/Core/TrapEvents.lean

Which trigger an event goes to.  A watch callback knows a trigger only by its
context, so what is proved here is for runs that add no trigger with the context
of a live one (`Fresh`): then the watches of every open handle are those of the
live triggers on it, in the same order (`Aligned`), and a callback finds the
trigger that its watch belongs to.

Main result: `TrapRun.attributed`.
-/
import MojoRs.Core.ArmedTrap

namespace MojoRs.Core

open Lib
open Pipe (Notification)

variable {σ ι ω : Type}

/-! ### What is to be shown -/

section

variable [DecidableEq ι]

/-- The delivery cancels the trigger `t`. -/
def Delivery.cancels (t : Trigger ι) (d : Delivery ι) : Bool :=
  d.trigger == t && d.event.result == .cancelled

/-- A trap with its history: the triggers ever added, and all events. -/
structure TrapRun (σ ι : Type) where
  state : TrapState σ ι
  added : List (Trigger ι)
  log : List (Delivery ι)

namespace TrapRun

variable (D : Dispatchers σ ι ω)

/-- One call, with the trigger it adds and the events it yields. -/
def step (s : TrapRun σ ι) (op : TrapOp ι ω) : TrapRun σ ι where
  state := (s.state.run D op).1
  added :=
    match op with
    | .addTrigger dispatcher signals context =>
        let watch := (D.startWatch s.state.objects dispatcher signals context).2
        s.added ++ [⟨watch, dispatcher, signals, context, false⟩]
    | _ => s.added
  log := s.log ++ (s.state.run D op).2

/-- Every trigger is cancelled once, when it ceases to be live, and receives
nothing after that. -/
structure Accounted (s : TrapRun σ ι) : Prop where
  once : ∀ t ∈ s.added, s.log.countP (·.cancels t) = if t ∈ s.state.trap.live then 0 else 1
  last : s.log.Pairwise fun d d' => d.event.result = .cancelled → d'.trigger ≠ d.trigger

end TrapRun

namespace TrapState

variable {D : Dispatchers σ ι ω} (L : D.Lawful)

/-- The change event that is due to a trigger. -/
def changed (state : SignalsState) (t : Trigger ι) : Delivery ι :=
  ⟨t, t.context, state, if state.isSatisfied t.signals then .ok else .failedPrecondition⟩

/-- The events of an operation go where they belong. -/
def Attributes (s : TrapState σ ι) (op : TrapOp ι ω) : Prop :=
  let (s', deliveries) := s.run D op
  match op with
  | .addTrigger .. => deliveries = []
  | .removeTrigger context =>
      deliveries = (s.trap.live.filter (·.context = context)).map (·.cancelled)
  | .arm => ∀ d ∈ deliveries, d.trigger ∈ s.trap.live ∧ d.event.result ≠ .cancelled
  | .close => deliveries = s.trap.live.map (·.cancelled)
  | .operate op =>
      deliveries.filter (·.event.result = .cancelled) =
          (s.trap.live.filter (L.closes s.objects op = some ·.dispatcher)).map (·.cancelled) ∧
        ∀ d ∈ deliveries, d.event.result ≠ .cancelled →
          d.trigger ∈ s.trap.live ∧ L.tells s.objects op = some d.trigger.dispatcher ∧
            d = changed (L.signals s'.objects d.trigger.dispatcher) d.trigger

/-- No trigger is added with the context of a live one, and the operations on
the objects are called as their contracts ask. -/
def Fresh (s : TrapState σ ι) : TrapOp ι ω → Prop
  | .addTrigger _ _ context => ∀ t ∈ s.trap.live, t.context ≠ context
  | .operate op => L.calls op
  | _ => True

/-! ### The invariant -/

/-- The live triggers have different contexts, and the watches of the handles
are theirs. -/
structure Aligned (s : TrapState σ ι) : Prop extends s.Linked L where
  contexts : (s.trap.live.map (·.context)).Nodup
  watches {h} : L.isOpen s.objects h →
    L.watches s.objects h = (s.trap.live.filter (·.dispatcher = h)).map (·.toWatch)
  closed {h} : ¬L.isOpen s.objects h → L.watches s.objects h = []

end TrapState

end

/-! ### Callbacks of fresh contexts -/

namespace Trap

variable {trap : Trap ι} {t : Trigger ι}

/-- A live trigger is the one that its context finds. -/
theorem eq_of_context (h : (trap.live.map (·.context)).Nodup) {u : Trigger ι} (ht : t ∈ trap.live)
    (hu : u ∈ trap.live) (hcontext : u.context = t.context) : u = t :=
  List.inj_on_of_nodup_map h hu ht hcontext

/-- A change event goes to the live trigger with the context of the callback. -/
theorem onWatches_changed {ns : List (Notification Nat)} (hkind : ∀ n ∈ ns, n.kind = .changed) :
    (trap.onWatches ns).1.live = trap.live ∧ ∀ d ∈ (trap.onWatches ns).2,
      ∃ n ∈ ns, d.trigger ∈ trap.live ∧ d.trigger.context = n.callback ∧
        d = TrapState.changed n.state d.trigger := by
  induction ns generalizing trap with
  | nil => exact ⟨rfl, nofun⟩
  | cons n ns ih =>
      obtain ⟨hn, hns⟩ := List.forall_mem_cons.mp hkind
      have hlive : (trap.onWatch n).1.live = trap.live := by
        rw [Trap.live, onWatch_changed trap hn]
        rfl
      obtain ⟨hrest, hds⟩ := @ih (trap.onWatch n).1 hns
      refine ⟨hrest.trans hlive, fun d hd => ?_⟩
      rcases List.mem_append.mp hd with hd | hd
      · refine ⟨n, List.mem_cons_self, ?_⟩
        simp only [hn] at hd
        split_ifs at hd
        · cases hd
        · split at hd
          · cases hd
          · rename_i t hfind
            obtain rfl := List.mem_singleton.mp hd
            have hanswers := List.find?_some (p := fun t : Trigger ι => t.answers n.callback) hfind
            obtain ⟨hcontext, hremoved⟩ := Trigger.answers_iff.mp hanswers
            refine ⟨?_, hcontext, ?_⟩
            · exact List.mem_filter.mpr ⟨List.mem_of_find?_eq_some hfind, by rw [hremoved]; rfl⟩
            · rw [TrapState.changed, hcontext]
      · obtain ⟨m, hm, hrest⟩ := hds d hd
        rw [hlive] at hrest
        exact ⟨m, List.mem_cons_of_mem n hm, hrest⟩

variable [DecidableEq ι]

theorem takeFirst_live (h : (trap.live.map (·.context)).Nodup) (ht : t ∈ trap.live) :
    ∃ us, Trigger.takeFirst t.context trap.triggers = some (t, us) ∧
      us.filter (!·.removed) = trap.live.filter (· ≠ t) := by
  cases htake : Trigger.takeFirst t.context trap.triggers with
  | none =>
      obtain ⟨hmem, hlive⟩ := List.mem_filter.mp ht
      have hno := Trigger.takeFirst_eq_none.mp htake t hmem
      have hyes := Trigger.answers_iff.mpr ⟨rfl, by simpa using hlive⟩
      rw [hno] at hyes
      cases hyes
  | some taken =>
      obtain ⟨u, us⟩ := taken
      obtain ⟨hcontext, before, after, hlive, hlive', -⟩ := Trigger.live_takeFirst htake
      have hu : u ∈ trap.live := by
        rw [Trap.live, hlive]
        exact List.mem_append_right _ List.mem_cons_self
      obtain rfl := eq_of_context h ht hu hcontext
      refine ⟨us, rfl, ?_⟩
      have hnodup : (before ++ u :: after).Nodup := hlive ▸ h.of_map
      obtain ⟨hnot, -⟩ := List.nodup_cons.mp (List.nodup_middle.mp hnodup)
      rw [hlive', Trap.live, hlive, List.filter_append, List.filter_cons_of_neg (by simp),
        ← List.filter_append, List.filter_eq_self.mpr]
      exact fun v hv => decide_eq_true fun heq => hnot (heq ▸ hv)

/-- The cancellations of some live triggers cancel just these. -/
theorem onWatches_cancellations (h : (trap.live.map (·.context)).Nodup) {ts : List (Trigger ι)}
    (hts : ts.Sublist trap.live) :
    (trap.onWatches (cancellations (ts.map (·.toWatch)))).2 = ts.map (·.cancelled) ∧
      (trap.onWatches (cancellations (ts.map (·.toWatch)))).1.live =
        trap.live.filter (· ∉ ts) := by
  induction ts generalizing trap with
  | nil => exact ⟨rfl, (List.filter_eq_self.mpr fun _ _ => by simp).symm⟩
  | cons t ts ih =>
      obtain ⟨us, htake, hlive⟩ := takeFirst_live h (hts.subset List.mem_cons_self)
      have hnew : trap.onWatch ⟨t.context, .empty, .cancelled⟩ =
          ({ trap with triggers := us }, [t.cancelled]) := by
        simp only [onWatch, htake]
      have hlive' : ({ trap with triggers := us } : Trap ι).live = trap.live.filter (· ≠ t) := hlive
      have hnodup := h.of_map.sublist hts
      have hts' : ts.Sublist ({ trap with triggers := us } : Trap ι).live := by
        have hsub := ((List.sublist_cons_self t ts).trans hts).filter (· ≠ t)
        rw [List.filter_eq_self.mpr] at hsub
        · exact hlive' ▸ hsub
        · exact fun u hu => decide_eq_true fun heq => (List.nodup_cons.mp hnodup).1 (heq ▸ hu)
      obtain ⟨hds, hrest⟩ := ih (hlive' ▸ h.sublist (List.filter_sublist.map _)) hts'
      have hunfold : trap.onWatches (cancellations ((t :: ts).map (·.toWatch))) =
          ((({ trap with triggers := us } : Trap ι).onWatches
            (cancellations (ts.map (·.toWatch)))).1,
            [t.cancelled] ++ (({ trap with triggers := us } : Trap ι).onWatches
              (cancellations (ts.map (·.toWatch)))).2) := by
        show trap.onWatches (⟨t.context, .empty, .cancelled⟩ :: _) = _
        rw [onWatches, hnew]
        rfl
      rw [hunfold]
      refine ⟨congrArg (t.cancelled :: ·) hds, ?_⟩
      rw [hrest, hlive', List.filter_filter]
      refine List.filter_congr fun u _ => ?_
      rw [← Bool.decide_and]
      exact decide_eq_decide.mpr (by rw [List.mem_cons, not_or, and_comm])

end Trap

/-! ### The watches are those of the live triggers -/

namespace TrapState

variable [DecidableEq ι] {D : Dispatchers σ ι ω} {L : D.Lawful} {s : TrapState σ ι}

theorem Aligned.addTrigger (h : s.Aligned L) {dispatcher : ι} {signals : Signals} {context : Nat}
    (hfresh : ∀ t ∈ s.trap.live, t.context ≠ context) :
    (s.addTrigger D dispatcher signals context).Aligned L := by
  have hlive : (s.addTrigger D dispatcher signals context).trap.live =
      s.trap.live ++ [⟨L.nextId s.objects dispatcher, dispatcher, signals, context, false⟩] := by
    rw [← L.id_startWatch s.objects dispatcher signals context]
    exact List.filter_append ..
  have hsame : L.isOpen (s.addTrigger D dispatcher signals context).objects = L.isOpen s.objects :=
    L.isOpen_startWatch ..
  refine ⟨h.toLinked.addTrigger .., ?_, fun {d} hopen => ?_, fun {d} hclosed => ?_⟩
  · rw [hlive, List.map_append, List.nodup_append]
    refine ⟨h.contexts, List.nodup_singleton _, ?_⟩
    rintro c hc c' hc' rfl
    obtain ⟨t, ht, rfl⟩ := List.mem_map.mp hc
    exact hfresh t ht (List.mem_singleton.mp hc')
  · rw [hsame] at hopen
    rw [hlive, List.filter_append, List.map_append, ← h.watches hopen]
    show L.watches (D.startWatch s.objects dispatcher signals context).1 d = _
    by_cases hd : d = dispatcher
    · subst hd
      rw [L.watches_startWatch _ _ hopen, List.filter_cons_of_pos (by exact decide_eq_true rfl)]
      rfl
    · rw [L.watches_startWatch_ne _ _ hd,
        List.filter_cons_of_neg (fun h => hd (of_decide_eq_true h).symm)]
      exact (List.append_nil _).symm
  · rw [hsame] at hclosed
    show L.watches (D.startWatch s.objects dispatcher signals context).1 d = []
    by_cases hd : d = dispatcher
    · subst hd
      rw [L.watches_startWatch_closed _ _ hclosed, h.closed hclosed]
    · rw [L.watches_startWatch_ne _ _ hd, h.closed hclosed]

/-- Cancelling the watches of some live triggers leaves those of the others. -/
theorem watches_cancel (hinv : L.inv s.objects) (ts : List (Trigger ι)) (d : ι) :
    L.watches (ts.foldl (fun o t => D.cancelWatch o t.dispatcher t.watch) s.objects) d =
      (L.watches s.objects d).filter fun w => ∀ t ∈ ts, t.dispatcher = d → w.id ≠ t.watch := by
  generalize s.objects = objects at hinv ⊢
  induction ts generalizing objects with
  | nil => exact (List.filter_eq_self.mpr fun _ _ => by simp).symm
  | cons t ts ih =>
      rw [List.foldl_cons, ih _ (L.inv_cancelWatch _ _ hinv)]
      by_cases hd : d = t.dispatcher
      · rw [hd, L.watches_cancelWatch _ _ hinv, List.filter_filter]
        refine List.filter_congr fun w _ => ?_
        rw [← Bool.decide_and]
        refine decide_eq_decide.mpr ?_
        rw [List.forall_mem_cons, and_comm]
        exact and_congr_left' ⟨fun h _ => h, fun h => h rfl⟩
      · rw [L.watches_cancelWatch_ne _ hd]
        refine List.filter_congr fun w _ => decide_eq_decide.mpr ?_
        rw [List.forall_mem_cons]
        exact (and_iff_right fun h => absurd h.symm hd).symm

omit [DecidableEq ι] in
theorem Linked.eq_of_key (h : s.Linked L) {t u : Trigger ι} (ht : t ∈ s.trap.live)
    (hu : u ∈ s.trap.live) (hd : u.dispatcher = t.dispatcher) (hw : u.watch = t.watch) : u = t :=
  List.inj_on_of_nodup_map h.distinct (List.mem_of_mem_filter hu) (List.mem_of_mem_filter ht)
    (Prod.ext hd hw)

/-- So the handles keep in step when live triggers are taken out with their
watches. -/
theorem Aligned.cancel (h : s.Aligned L) {ts : List (Trigger ι)} (hts : ts.Sublist s.trap.live)
    {s' : TrapState σ ι} (hlinked : s'.Linked L)
    (hobjects : s'.objects = ts.foldl (fun o t => D.cancelWatch o t.dispatcher t.watch) s.objects)
    (hlive : s'.trap.live = s.trap.live.filter (· ∉ ts)) : s'.Aligned L := by
  have hopen : L.isOpen s'.objects = L.isOpen s.objects := by
    rw [hobjects]
    generalize s.objects = objects
    clear hts hobjects hlive
    induction ts generalizing objects with
    | nil => rfl
    | cons t ts ih => exact (ih _).trans (L.isOpen_cancelWatch ..)
  refine ⟨hlinked, ?_, fun {d} hd => ?_, fun {d} hd => ?_⟩
  · rw [hlive]
    exact h.contexts.sublist (List.filter_sublist.map _)
  · rw [hopen] at hd
    rw [hobjects, watches_cancel h.inv, h.watches hd, hlive, List.filter_map, List.filter_filter,
      List.filter_filter]
    refine congrArg _ (List.filter_congr fun u hu => ?_)
    by_cases hud : u.dispatcher = d
    · rw [decide_eq_true hud, Bool.and_true, Bool.true_and]
      refine decide_eq_decide.mpr ⟨fun hall hmem => hall u hmem hud rfl, ?_⟩
      rintro hnot t ht rfl hid
      exact hnot (h.eq_of_key (hts.subset ht) hu hud hid ▸ ht)
    · rw [decide_eq_false hud, Bool.and_false, Bool.false_and]
  · rw [hopen] at hd
    rw [hobjects, watches_cancel h.inv, h.closed hd]
    rfl

/-- What an operation does to the triggers, and the events that it delivers. -/
theorem Aligned.operate_eq (h : s.Aligned L) {op : ω} (hop : L.calls op) :
    (s.operate D op).1.trap.live =
        s.trap.live.filter (L.closes s.objects op ≠ some ·.dispatcher) ∧
      ∃ ds, (s.operate D op).2 =
          (s.trap.live.filter (L.closes s.objects op = some ·.dispatcher)).map (·.cancelled) ++ ds ∧
        ∀ d ∈ ds, d.trigger ∈ (s.operate D op).1.trap.live ∧
          L.tells s.objects op = some d.trigger.dispatcher ∧
            d = changed (L.signals (D.operate s.objects op).1 d.trigger.dispatcher) d.trigger := by
  -- the cancellations
  obtain ⟨hcancel, hlive⟩ := Trap.onWatches_cancellations h.contexts
    (List.filter_sublist (p := fun t : Trigger ι => L.closes s.objects op = some t.dispatcher))
  have hns := L.notifications h.inv hop
  have hfirst : ((L.closes s.objects op).elim [] fun d => cancellations (L.watches s.objects d)) =
      cancellations ((s.trap.live.filter
        (L.closes s.objects op = some ·.dispatcher)).map (·.toWatch)) := by
    cases hcloses : L.closes s.objects op with
    | none =>
        rw [List.filter_eq_nil_iff.mpr fun _ _ => by simp]
        rfl
    | some d =>
        show cancellations (L.watches s.objects d) = _
        rw [h.watches (L.watches_operate_closed h.inv hop hcloses).1]
        refine congrArg (fun ts : List (Trigger ι) => cancellations (ts.map (·.toWatch))) ?_
        refine List.filter_congr fun t _ => decide_eq_decide.mpr ?_
        rw [Option.some.injEq, eq_comm]
  -- the changes
  have hkind : ∀ n ∈ (L.tells s.objects op).elim [] fun d =>
      changes (L.signals (D.operate s.objects op).1 d) (L.watches (D.operate s.objects op).1 d),
      n.kind = .changed := by
    cases L.tells s.objects op with
    | none => exact nofun
    | some d => exact fun n => kind_of_mem_changes
  obtain ⟨hsame, hchanged⟩ := (s.trap.onWatches (cancellations ((s.trap.live.filter
    (L.closes s.objects op = some ·.dispatcher)).map (·.toWatch)))).1.onWatches_changed hkind
  have hlive' : (s.operate D op).1.trap.live =
      s.trap.live.filter (L.closes s.objects op ≠ some ·.dispatcher) := by
    show (s.trap.onWatches (D.operate s.objects op).2).1.live = _
    rw [hns, hfirst, Trap.onWatches_append, hsame, hlive]
    refine List.filter_congr fun t ht => decide_eq_decide.mpr ?_
    rw [List.mem_filter, decide_eq_true_iff, not_and]
    exact ⟨fun hall => hall ht, fun hne _ => hne⟩
  have hds : (s.operate D op).2 = (s.trap.onWatches (D.operate s.objects op).2).2 := rfl
  rw [hns, hfirst, Trap.onWatches_append, hcancel] at hds
  refine ⟨hlive', _, hds, fun d hd => ?_⟩
  · obtain ⟨n, hn, htrigger, hcontext, heq⟩ := hchanged d hd
    have hmem : d.trigger ∈ (s.operate D op).1.trap.live := by
      show _ ∈ (s.trap.onWatches (D.operate s.objects op).2).1.live
      rwa [hns, hfirst, Trap.onWatches_append, hsame]
    cases htells : L.tells s.objects op with
    | none =>
        rw [htells] at hn
        cases hn
    | some e =>
        rw [htells] at hn
        obtain ⟨w, hw, rfl⟩ := List.mem_map.mp hn
        have hw : w ∈ L.watches s.objects e := by
          rw [← L.watches_operate h.inv hop (L.tells_ne htells)]
          exact List.mem_of_mem_filter hw
        have hopen : L.isOpen s.objects e := by
          by_contra hclosed
          rw [h.closed hclosed] at hw
          cases hw
        rw [h.watches hopen] at hw
        obtain ⟨u, hu, rfl⟩ := List.mem_map.mp hw
        obtain ⟨hu, hdispatcher⟩ := List.mem_filter.mp hu
        have hwas : d.trigger ∈ s.trap.live := List.mem_of_mem_filter (hlive' ▸ hmem)
        -- the trigger found is the one whose watch was called back
        have hfound : d.trigger = u := Trap.eq_of_context h.contexts hu hwas hcontext
        refine ⟨hmem, ?_, ?_⟩
        · rw [hfound, of_decide_eq_true hdispatcher]
        · rw [hfound] at heq ⊢
          rw [of_decide_eq_true hdispatcher]
          exact heq

theorem Aligned.operate (h : s.Aligned L) {op : ω} (hop : L.calls op) :
    (s.operate D op).1.Aligned L := by
  obtain ⟨hlive, -⟩ := h.operate_eq hop
  refine ⟨h.toLinked.operate hop, ?_, fun {d} hd => ?_, fun {d} hd => ?_⟩
  · rw [hlive]
    exact h.contexts.sublist (List.filter_sublist.map _)
  · obtain ⟨hopen, hcloses⟩ := (L.isOpen_operate d h.inv hop).mp hd
    show L.watches (D.operate s.objects op).1 d = _
    rw [L.watches_operate h.inv hop hcloses, h.watches hopen, hlive, List.filter_filter]
    refine congrArg _ (List.filter_congr fun t _ => ?_)
    by_cases ht : t.dispatcher = d
    · rw [decide_eq_true ht, Bool.true_and, ht, decide_eq_true hcloses]
    · rw [decide_eq_false ht, Bool.false_and]
  · show L.watches (D.operate s.objects op).1 d = []
    by_cases hcloses : L.closes s.objects op = some d
    · exact (L.watches_operate_closed h.inv hop hcloses).2
    · rw [L.watches_operate h.inv hop hcloses]
      refine h.closed fun hopen => hd ?_
      exact (L.isOpen_operate d h.inv hop).mpr ⟨hopen, hcloses⟩

/-- Removing by context finds the live trigger with the context, if any. -/
theorem Aligned.removeTrigger (h : s.Aligned L) (context : Nat) :
    (s.removeTrigger D context).1.Aligned L ∧ ∃ ts, ts.Sublist s.trap.live ∧
      ts = s.trap.live.filter (·.context = context) ∧
        (s.removeTrigger D context).2.2 = ts.map (·.cancelled) ∧
          (s.removeTrigger D context).1.trap.live = s.trap.live.filter (· ∉ ts) := by
  have hlinked := h.toLinked.removeTrigger context
  unfold TrapState.removeTrigger at hlinked ⊢
  cases htake : Trigger.takeFirst context s.trap.triggers with
  -- no live trigger answers to the context
  | none =>
      refine ⟨h, _, List.filter_sublist, rfl, ?_⟩
      have hnone : s.trap.live.filter (·.context = context) = [] := by
        refine List.filter_eq_nil_iff.mpr fun t ht hcontext => ?_
        obtain ⟨hmem, hlive⟩ := List.mem_filter.mp ht
        have hno := Trigger.takeFirst_eq_none.mp htake t hmem
        have hyes := Trigger.answers_iff.mpr ⟨of_decide_eq_true hcontext, by simpa using hlive⟩
        rw [hno] at hyes
        cases hyes
      rw [hnone]
      exact ⟨rfl, (List.filter_eq_self.mpr fun _ _ => by simp).symm⟩
  -- contexts of live triggers differ, so the one taken is the only one
  | some taken =>
      obtain ⟨t, us⟩ := taken
      rw [htake] at hlinked
      obtain ⟨rfl, before, after, hlive, hlive', hbefore⟩ := Trigger.live_takeFirst htake
      have ht : t ∈ s.trap.live := by
        rw [Trap.live, hlive]
        exact List.mem_append_right _ List.mem_cons_self
      obtain ⟨vs, htake', hvs⟩ := Trap.takeFirst_live h.contexts ht
      obtain rfl : us = vs := congrArg Prod.snd (Option.some.inj (htake.symm.trans htake'))
      have hone : s.trap.live.filter (·.context = t.context) = [t] := by
        have hnodup := h.contexts
        rw [Trap.live, hlive] at hnodup ⊢
        rw [List.map_append, List.map_cons, List.nodup_middle, List.nodup_cons,
          ← List.map_append] at hnodup
        rw [List.filter_append, List.filter_cons_of_pos (by exact decide_eq_true rfl),
          List.filter_eq_nil_iff.mpr, List.filter_eq_nil_iff.mpr]
        · rfl
        · intro u hu hcontext
          refine hnodup.1 (of_decide_eq_true hcontext ▸ List.mem_map_of_mem ?_)
          exact List.mem_append_right _ hu
        · exact fun u hu hcontext => hbefore u hu (of_decide_eq_true hcontext)
      have hrest : us.filter (!·.removed) = s.trap.live.filter (· ∉ [t]) := by
        rw [hvs]
        exact List.filter_congr fun u _ => decide_eq_decide.mpr (by rw [List.mem_singleton])
      refine ⟨h.cancel (List.singleton_sublist.mpr ht) hlinked rfl hrest, [t],
        List.singleton_sublist.mpr ht, hone.symm, rfl, hrest⟩

theorem Aligned.close (h : s.Aligned L) : (s.close D).1.Aligned L :=
  h.cancel (List.Sublist.refl _) h.toLinked.close rfl
    (List.filter_eq_nil_iff.mpr fun t ht => by simp [ht]).symm

omit [DecidableEq ι] in
/-- The events that keep a trap from being armed are for live triggers. -/
theorem mem_immediate {objects : σ} {ts : List (Trigger ι)} {d : Delivery ι}
    (h : d ∈ (immediate D objects ts).2) :
    d.trigger ∈ ts.filter (!·.removed) ∧ d.event.result ≠ .cancelled := by
  induction ts generalizing objects with
  | nil => cases h
  | cons t ts ih =>
      by_cases hremoved : t.removed = true
      · rw [immediate, if_pos hremoved] at h
        rw [List.filter_cons_of_neg (by simp [hremoved])]
        exact ih h
      · rw [immediate, if_neg hremoved] at h
        rw [List.filter_cons_of_pos (by simp [hremoved])]
        dsimp only at h
        have hlater (hd : d ∈ (immediate D (D.querySignals objects t.dispatcher).1 ts).2) :=
          (ih hd).imp_left (List.mem_cons_of_mem t)
        split_ifs at h
        · rcases List.mem_cons.mp h with rfl | hd
          · exact ⟨List.mem_cons_self, by simp⟩
          · exact hlater hd
        · rcases List.mem_cons.mp h with rfl | hd
          · exact ⟨List.mem_cons_self, by simp⟩
          · exact hlater hd
        · rcases List.mem_cons.mp h with rfl | hd
          · exact ⟨List.mem_cons_self, by simp⟩
          · exact hlater hd
        · exact hlater h

/-- Arming removes no trigger, and cancels none. -/
theorem Aligned.arm (h : s.Aligned L) : (s.arm D).1.Aligned L ∧
    (s.arm D).1.trap.live = s.trap.live ∧
      ∀ d ∈ (s.arm D).2.2, d.trigger ∈ s.trap.live ∧ d.event.result ≠ .cancelled := by
  obtain ⟨hinv, hopen, hwatches, hnext⟩ := immediate_objects (D := D) s.trap.triggers h.inv
  have haligned (armed : Bool) : (⟨(immediate D s.objects s.trap.triggers).1,
      { s.trap with armed }⟩ : TrapState σ ι).Aligned L := by
    refine ⟨h.toLinked.congr rfl hinv hopen hwatches hnext, h.contexts, fun {d} hd => ?_,
      fun {d} hd => ?_⟩
    · rw [hopen] at hd
      exact (congrFun hwatches d).trans (h.watches hd)
    · rw [hopen] at hd
      exact (congrFun hwatches d).trans (h.closed hd)
  unfold TrapState.arm
  dsimp only
  split_ifs
  · exact ⟨h, rfl, nofun⟩
  · exact ⟨haligned true, rfl, nofun⟩
  · exact ⟨haligned _, rfl, fun d hd => mem_immediate hd⟩

omit [DecidableEq ι] in
theorem result_changed (state : SignalsState) (t : Trigger ι) :
    (changed state t).event.result ≠ .cancelled := by
  show (if _ then CoreError.ok else .failedPrecondition) ≠ _
  split_ifs <;> nofun

theorem Aligned.run (h : s.Aligned L) {op : TrapOp ι ω} (hop : s.Fresh L op) :
    (s.run D op).1.Aligned L ∧ s.Attributes L op := by
  cases op with
  | addTrigger dispatcher signals context => exact ⟨h.addTrigger hop, rfl⟩
  | removeTrigger context =>
      obtain ⟨haligned, ts, -, rfl, hds, -⟩ := h.removeTrigger context
      exact ⟨haligned, hds⟩
  | arm => exact ⟨h.arm.1, h.arm.2.2⟩
  | close => exact ⟨h.close, rfl⟩
  | operate op =>
      obtain ⟨hlive, ds, hds, hchanged⟩ := h.operate_eq hop
      refine ⟨h.operate hop, ?_, fun d hd hresult => ?_⟩
      · have hothers : ds.filter (·.event.result = .cancelled) = [] := by
          refine List.filter_eq_nil_iff.mpr fun d hd hresult => ?_
          rw [(hchanged d hd).2.2] at hresult
          exact result_changed _ _ (of_decide_eq_true hresult)
        show (s.operate D op).2.filter _ = _
        rw [hds, List.filter_append, hothers, List.append_nil, List.filter_eq_self.mpr]
        intro d hd
        obtain ⟨t, -, rfl⟩ := List.mem_map.mp hd
        exact decide_eq_true rfl
      · have hd : d ∈ (s.operate D op).2 := hd
        rw [hds] at hd
        rcases List.mem_append.mp hd with hd | hd
        · obtain ⟨t, -, rfl⟩ := List.mem_map.mp hd
          exact absurd rfl hresult
        · obtain ⟨hmem, hrest⟩ := hchanged d hd
          rw [hlive] at hmem
          exact ⟨List.mem_of_mem_filter hmem, hrest⟩

/-! ### One cancellation each -/

/-- The deliveries of an operation: live triggers that cease to be so are
cancelled, and nothing follows. -/
structure Settles (live : List (Trigger ι)) (ds : List (Delivery ι)) (live' : List (Trigger ι)) :
    Prop where
  trigger : ∀ d ∈ ds, d.trigger ∈ live
  count : ∀ t ∈ live, ds.countP (·.cancels t) = if t ∈ live' then 0 else 1
  last : ds.Pairwise fun d d' => d.event.result = .cancelled → d'.trigger ≠ d.trigger
  subset : ∀ t ∈ live', t ∈ live

/-- Some are cancelled, and then others get events of another kind. -/
theorem Settles.of {live ts : List (Trigger ι)} {ds : List (Delivery ι)} (hlive : live.Nodup)
    (hts : ts.Sublist live) (hds : ∀ d ∈ ds, d.trigger ∈ live.filter (· ∉ ts) ∧
      d.event.result ≠ .cancelled) :
    Settles live (ts.map (·.cancelled) ++ ds) (live.filter (· ∉ ts)) := by
  refine ⟨fun d hd => ?_, fun t ht => ?_, ?_, fun t ht => List.mem_of_mem_filter ht⟩
  · rcases List.mem_append.mp hd with hd | hd
    · obtain ⟨t, ht, rfl⟩ := List.mem_map.mp hd
      exact hts.subset ht
    · exact List.mem_of_mem_filter (hds d hd).1
  · have hothers : ds.countP (·.cancels t) = 0 := by
      refine List.countP_eq_zero.mpr fun d hd hcancels => ?_
      obtain ⟨-, hresult⟩ := Bool.and_eq_true_iff.mp hcancels
      exact (hds d hd).2 (beq_iff_eq.mp hresult)
    have hcount : (ts.map (·.cancelled)).countP (·.cancels t) = ts.count t := by
      rw [List.countP_map, List.count]
      refine List.countP_congr fun u _ => ?_
      exact Bool.and_eq_true_iff.trans (and_iff_left rfl)
    rw [List.countP_append, hothers, hcount, Nat.add_zero]
    by_cases hmem : t ∈ ts
    · rw [if_neg (by simp [hmem]), List.count_eq_one_of_mem (hlive.sublist hts) hmem]
    · rw [if_pos (List.mem_filter.mpr ⟨ht, decide_eq_true hmem⟩), List.count_eq_zero.mpr hmem]
  · refine List.pairwise_append.mpr ⟨?_, ?_, fun d hd d' hd' _ => ?_⟩
    · refine List.pairwise_map.mpr ((hlive.sublist hts).imp fun hne _ => hne.symm)
    · exact List.pairwise_of_forall_mem_list fun d hd _ _ hresult => absurd hresult (hds d hd).2
    · obtain ⟨t, ht, rfl⟩ := List.mem_map.mp hd
      obtain ⟨-, hnot⟩ := List.mem_filter.mp (hds d' hd').1
      exact fun heq => of_decide_eq_true hnot (heq ▸ ht)

theorem Aligned.settles (h : s.Aligned L) {op : TrapOp ι ω} (hop : s.Fresh L op)
    (hadd : ∀ d w c, op ≠ .addTrigger d w c) :
    Settles s.trap.live (s.run D op).2 (s.run D op).1.trap.live := by
  have hlive : s.trap.live.Nodup := h.contexts.of_map
  cases op with
  | addTrigger dispatcher signals context => exact absurd rfl (hadd _ _ _)
  | removeTrigger context =>
      obtain ⟨-, ts, hts, -, hds, hrest⟩ := h.removeTrigger context
      show Settles _ (s.removeTrigger D context).2.2 (s.removeTrigger D context).1.trap.live
      rw [hds, hrest, ← List.append_nil (ts.map _)]
      exact .of hlive hts nofun
  | arm =>
      obtain ⟨-, hsame, hds⟩ := h.arm
      have hall : s.trap.live.filter (· ∉ ([] : List (Trigger ι))) = s.trap.live :=
        List.filter_eq_self.mpr fun _ _ => by simp
      have hsettles : Settles s.trap.live (([] : List (Trigger ι)).map (·.cancelled) ++
          (s.arm D).2.2) (s.trap.live.filter (· ∉ ([] : List (Trigger ι)))) :=
        .of hlive (List.nil_sublist _) (by rwa [hall])
      rw [hall] at hsettles
      show Settles _ (s.arm D).2.2 (s.arm D).1.trap.live
      rw [hsame]
      exact hsettles
  | close =>
      have hnone : s.trap.live.filter (· ∉ s.trap.live) = [] :=
        List.filter_eq_nil_iff.mpr fun t ht => by simp [ht]
      have hsettles : Settles s.trap.live (s.trap.live.map (·.cancelled) ++ [])
          (s.trap.live.filter (· ∉ s.trap.live)) := .of hlive (List.Sublist.refl _) nofun
      rw [hnone, List.append_nil] at hsettles
      exact hsettles
  | operate op =>
      obtain ⟨hrest, ds, hds, hchanged⟩ := h.operate_eq hop
      have hsame : (s.operate D op).1.trap.live = s.trap.live.filter
          (· ∉ s.trap.live.filter (L.closes s.objects op = some ·.dispatcher)) := by
        rw [hrest]
        refine List.filter_congr fun t ht => decide_eq_decide.mpr ?_
        rw [List.mem_filter, decide_eq_true_iff, not_and]
        exact ⟨fun hne _ => hne, fun hall => hall ht⟩
      show Settles _ (s.operate D op).2 (s.operate D op).1.trap.live
      rw [hds, hsame]
      refine .of hlive List.filter_sublist fun d hd => ⟨hsame ▸ (hchanged d hd).1, ?_⟩
      rw [(hchanged d hd).2.2]
      exact result_changed _ _

end TrapState

/-! ### Runs -/

namespace TrapRun

variable [DecidableEq ι] {D : Dispatchers σ ι ω} {L : D.Lawful} {s : TrapRun σ ι}

/-- The history fits the triggers of the trap. -/
structure Fits (L : D.Lawful) (s : TrapRun σ ι) : Prop extends s.Accounted where
  aligned : s.state.Aligned L
  live : ∀ t ∈ s.state.trap.live, t ∈ s.added
  logged : ∀ d ∈ s.log, d.trigger ∈ s.added
  below : ∀ t ∈ s.added, t.watch < L.nextId s.state.objects t.dispatcher

/-- An operation that adds no trigger. -/
theorem Fits.settle (h : s.Fits L) {state : TrapState σ ι} {ds : List (Delivery ι)}
    (hsettles : TrapState.Settles s.state.trap.live ds state.trap.live)
    (haligned : state.Aligned L)
    (hnext : ∀ d, L.nextId s.state.objects d ≤ L.nextId state.objects d) :
    Fits L ⟨state, s.added, s.log ++ ds⟩ := by
  refine ⟨⟨fun t ht => ?_, ?_⟩, haligned, fun t ht => h.live t (hsettles.subset t ht), fun d hd => ?_,
    fun t ht => Nat.lt_of_lt_of_le (h.below t ht) (hnext _)⟩
  · show (s.log ++ ds).countP (·.cancels t) = _
    rw [List.countP_append, h.once t ht]
    by_cases hlive : t ∈ s.state.trap.live
    · rw [if_pos hlive, hsettles.count t hlive, Nat.zero_add]
    · rw [if_neg hlive, if_neg fun h => hlive (hsettles.subset t h), List.countP_eq_zero.mpr]
      intro d hd hcancels
      obtain ⟨htrigger, -⟩ := Bool.and_eq_true_iff.mp hcancels
      exact hlive (beq_iff_eq.mp htrigger ▸ hsettles.trigger d hd)
  · refine List.pairwise_append.mpr ⟨h.last, hsettles.last, fun d hd d' hd' hresult heq => ?_⟩
    -- what was cancelled is not live, and gets no event
    have hzero := h.once d.trigger (h.logged d hd)
    rw [if_pos (heq ▸ hsettles.trigger d' hd')] at hzero
    refine List.countP_eq_zero.mp hzero d hd ?_
    exact Bool.and_eq_true_iff.mpr ⟨beq_self_eq_true _, beq_iff_eq.mpr hresult⟩
  · rcases List.mem_append.mp hd with hd | hd
    · exact h.logged d hd
    · exact h.live _ (hsettles.trigger d hd)

/-- A trigger that is added is a new one, and has no events yet. -/
theorem Fits.addTrigger (h : s.Fits L) {dispatcher : ι} {signals : Signals} {context : Nat}
    (hfresh : ∀ t ∈ s.state.trap.live, t.context ≠ context) :
    (s.step D (.addTrigger dispatcher signals context)).Fits L := by
  have hid := L.id_startWatch s.state.objects dispatcher signals context
  have hnext := L.nextId_startWatch s.state.objects dispatcher signals context
  have hle := L.nextId_startWatch_le s.state.objects dispatcher signals context
  have hstep : s.step D (.addTrigger dispatcher signals context) =
      ⟨s.state.addTrigger D dispatcher signals context, s.added ++
        [⟨L.nextId s.state.objects dispatcher, dispatcher, signals, context, false⟩], s.log⟩ := by
    rw [← hid]
    exact congrArg (TrapRun.mk _ _) (List.append_nil s.log)
  have hlive : (s.state.addTrigger D dispatcher signals context).trap.live = s.state.trap.live ++
      [⟨L.nextId s.state.objects dispatcher, dispatcher, signals, context, false⟩] := by
    rw [← hid]
    exact List.filter_append ..
  have hnew {t : Trigger ι} (ht : t ∈ s.added) :
      t ≠ ⟨L.nextId s.state.objects dispatcher, dispatcher, signals, context, false⟩ := by
    rintro rfl
    exact absurd (h.below _ ht) (Nat.lt_irrefl _)
  rw [hstep]
  refine ⟨⟨fun t ht => ?_, h.last⟩, h.aligned.addTrigger hfresh, ?_, fun d hd => ?_, fun t ht => ?_⟩
  · show s.log.countP (·.cancels t) =
      if t ∈ (s.state.addTrigger D dispatcher signals context).trap.live then 0 else 1
    rw [hlive]
    rcases List.mem_append.mp ht with ht | ht
    · rw [h.once t ht]
      refine if_congr ?_ rfl rfl
      rw [List.mem_append, List.mem_singleton]
      exact (or_iff_left (hnew ht)).symm
    · rw [if_pos (List.mem_append_right _ ht), List.countP_eq_zero]
      intro d hd hcancels
      obtain ⟨htrigger, -⟩ := Bool.and_eq_true_iff.mp hcancels
      refine hnew (h.logged d hd) ?_
      rw [beq_iff_eq.mp htrigger, List.mem_singleton.mp ht]
  · show ∀ t ∈ (s.state.addTrigger D dispatcher signals context).trap.live, _
    rw [hlive]
    intro t ht
    rcases List.mem_append.mp ht with ht | ht
    · exact List.mem_append_left _ (h.live t ht)
    · exact List.mem_append_right _ ht
  · exact List.mem_append_left _ (h.logged d hd)
  · show _ < L.nextId (D.startWatch s.state.objects dispatcher signals context).1 _
    rcases List.mem_append.mp ht with ht | ht
    · exact Nat.lt_of_lt_of_le (h.below t ht) (hle _)
    · rw [List.mem_singleton.mp ht]
      exact hnext

omit [DecidableEq ι] in
/-- Only a trigger that is added takes an id. -/
theorem nextId_run (hinv : L.inv s.state.objects) {op : TrapOp ι ω}
    (hadd : ∀ d w c, op ≠ .addTrigger d w c) :
    L.nextId (s.state.run D op).1.objects = L.nextId s.state.objects := by
  cases op with
  | addTrigger dispatcher signals context => exact absurd rfl (hadd _ _ _)
  | removeTrigger context =>
      show L.nextId (s.state.removeTrigger D context).1.objects = _
      unfold TrapState.removeTrigger
      split
      · rfl
      · exact L.nextId_cancelWatch ..
  | arm =>
      obtain ⟨-, -, -, hnext⟩ := TrapState.immediate_objects (D := D) s.state.trap.triggers hinv
      show L.nextId (s.state.arm D).1.objects = _
      unfold TrapState.arm
      dsimp only
      split_ifs
      · rfl
      · exact hnext
      · exact hnext
  | close =>
      show L.nextId (s.state.trap.live.foldl _ s.state.objects) = _
      generalize s.state.objects = objects
      induction s.state.trap.live generalizing objects with
      | nil => rfl
      | cons t ts ih => exact (ih _).trans (L.nextId_cancelWatch ..)
  | operate op => exact L.nextId_operate ..

theorem Fits.step (h : s.Fits L) {op : TrapOp ι ω} (hop : s.state.Fresh L op) :
    (s.step D op).Fits L := by
  by_cases hadd : ∃ d w c, op = .addTrigger d w c
  · obtain ⟨d, w, c, rfl⟩ := hadd
    exact h.addTrigger hop
  · have hadd (d w c) : op ≠ .addTrigger d w c := fun heq => hadd ⟨d, w, c, heq⟩
    have hsame : (s.step D op).added = s.added := by
      cases op with
      | addTrigger d w c => exact absurd rfl (hadd d w c)
      | removeTrigger context => rfl
      | arm => rfl
      | close => rfl
      | operate op => rfl
    have hsettle := h.settle (h.aligned.settles hop hadd) (h.aligned.run hop).1
      fun d => Nat.le_of_eq (congrFun (nextId_run h.aligned.inv hadd) d).symm
    rw [← hsame] at hsettle
    exact hsettle

/-- Over objects that treat watches as they should, every run that adds fresh
contexts only gives every trigger what is its own. -/
theorem attributed (ops : List (TrapOp ι ω)) (h : s.Fits L)
    (hops : Meets (TrapRun.step D) (fun s op => s.state.Fresh L op) s ops) :
    Meets (TrapRun.step D) (fun s op => s.state.Attributes L op) s ops ∧
      Always (TrapRun.step D) Accounted s ops := by
  have hstep (s : TrapRun σ ι) (op : TrapOp ι ω) (h : s.Fits L) (hop : s.state.Fresh L op) :
      (s.step D op).Fits L := h.step hop
  exact ⟨hops.imp hstep (fun s op h hop => (h.aligned.run hop).2) h,
    (always_of_meets hstep h hops).imp fun _ => Fits.toAccounted⟩

end TrapRun

end MojoRs.Core
