/-
MojoRs/Lib/Reorder.lean

Lists up to the order of independent neighbours.  `Reorders free` exchanges
neighbours that are `free` to be exchanged.  If these are the elements with
different keys, then nothing but the subsequence of each key is kept
(`reordered_iff`); and a stable sort by the key makes these subsequences
comparable position by position (`forall₂_sortByKey`).

`R` relates the elements of two lists; it is not assumed to be an equality.

Main results: `reordered_iff`, `forall₂_iff_withKey`, `forall₂_sortByKey`.
-/
import Mathlib.Data.List.Forall2
import Mathlib.Data.List.Sort
import Mathlib.Logic.Relation

namespace MojoRs.Lib

open List (Forall₂)

variable {α κ : Type}

/-! ### Exchanges of neighbours -/

/-- Two neighbours are exchanged. -/
inductive Exchange (free : α → α → Prop) : List α → List α → Prop
  | swap (pre post : List α) {a b : α} (h : free a b) :
      Exchange free (pre ++ a :: b :: post) (pre ++ b :: a :: post)

/-- Any number of exchanges. -/
def Reorders (free : α → α → Prop) : List α → List α → Prop :=
  Relation.ReflTransGen (Exchange free)

/-- Element by element related, but for the order of what is free. -/
def Reordered (free R : α → α → Prop) (as bs : List α) : Prop :=
  ∃ cs, Reorders free as cs ∧ Forall₂ R cs bs

variable {free R : α → α → Prop} {as bs : List α}

theorem Reorders.cons (a : α) (h : Reorders free as bs) : Reorders free (a :: as) (a :: bs) := by
  induction h with
  | refl => exact Relation.ReflTransGen.refl
  | tail _ hstep ih =>
      cases hstep with
      | swap pre post hfree => exact ih.tail (Exchange.swap (a :: pre) post hfree)

theorem Reorders.perm (h : Reorders free as bs) : as.Perm bs := by
  induction h with
  | refl => exact List.Perm.refl as
  | tail _ hstep ih =>
      cases hstep with
      | swap pre post => exact ih.trans ((List.Perm.swap ..).append_left pre)

theorem Reordered.length_eq (h : Reordered free R as bs) : as.length = bs.length := by
  obtain ⟨cs, hreorders, hforall⟩ := h
  exact hreorders.perm.length_eq.trans hforall.length_eq

/-- An element goes to the front past what it is free of. -/
theorem Reorders.to_front {a : α} {pre : List α} (post : List α) (h : ∀ x ∈ pre, free x a) :
    Reorders free (pre ++ a :: post) (a :: (pre ++ post)) := by
  induction pre with
  | nil => exact Relation.ReflTransGen.refl
  | cons x pre ih =>
      obtain ⟨hx, hpre⟩ := List.forall_mem_cons.mp h
      exact ((ih hpre).cons x).tail (Exchange.swap [] (pre ++ post) hx)

/-- Related element by element, and of equal lengths. -/
theorem forall₂_iff_getElem? {β : Type} {S : α → β → Prop} {as : List α} {bs : List β} :
    Forall₂ S as bs ↔ ∀ i : Nat, Option.Rel S as[i]? bs[i]? := by
  constructor
  · intro h
    induction h with
    | nil => exact fun _ => Option.Rel.none
    | cons hab _ ih =>
        intro i
        cases i with
        | zero => exact Option.Rel.some hab
        | succ i => exact ih i
  · intro h
    induction as generalizing bs with
    | nil =>
        cases bs with
        | nil => exact Forall₂.nil
        | cons b bs => exact absurd (h 0) fun hrel => by cases hrel
    | cons a as ih =>
        cases bs with
        | nil => exact absurd (h 0) fun hrel => by cases hrel
        | cons b bs =>
            have hab : S a b := by
              cases h 0 with
              | some hab => exact hab
            exact Forall₂.cons hab (ih fun i => h (i + 1))

/-! ### The subsequences of the keys -/

section Keys

variable [DecidableEq κ] {key : α → κ}

/-- The elements with a key. -/
def withKey (key : α → κ) (k : κ) (as : List α) : List α := as.filter fun a => key a = k

theorem withKey_append (k : κ) : withKey key k (as ++ bs) = withKey key k as ++ withKey key k bs :=
  List.filter_append ..

theorem withKey_cons_of_eq {a : α} {k : κ} (h : key a = k) :
    withKey key k (a :: as) = a :: withKey key k as :=
  List.filter_cons_of_pos (decide_eq_true h)

theorem withKey_cons_of_ne {a : α} {k : κ} (h : key a ≠ k) :
    withKey key k (a :: as) = withKey key k as :=
  List.filter_cons_of_neg (by simpa using h)

/-- Elements of different keys are exchanged without a trace in the
subsequences. -/
theorem withKey_reorders (h : Reorders (fun a b => key a ≠ key b) as bs) (k : κ) :
    withKey key k as = withKey key k bs := by
  induction h with
  | refl => rfl
  | tail _ hstep ih =>
      rw [ih]
      cases hstep with
      | @swap pre post a b hfree =>
          rw [withKey_append, withKey_append]
          congr 1
          by_cases ha : key a = k
          · have hb : key b ≠ k := fun hb => hfree (ha.trans hb.symm)
            rw [withKey_cons_of_eq ha, withKey_cons_of_ne hb, withKey_cons_of_ne hb,
              withKey_cons_of_eq ha]
          · rw [withKey_cons_of_ne ha]
            by_cases hb : key b = k
            · rw [withKey_cons_of_eq hb, withKey_cons_of_eq hb, withKey_cons_of_ne ha]
            · rw [withKey_cons_of_ne hb, withKey_cons_of_ne hb, withKey_cons_of_ne ha]

/-- The elements with a key are found among those with a coarser one. -/
theorem withKey_withKey {κ' : Type} [DecidableEq κ'] {coarse : α → κ'} {k : κ} {n : κ'}
    (h : ∀ a, key a = k → coarse a = n) (as : List α) :
    withKey key k (withKey coarse n as) = withKey key k as := by
  show ((as.filter _).filter _) = as.filter _
  rw [List.filter_filter]
  refine List.filter_congr fun a _ => ?_
  by_cases ha : key a = k
  · simp [ha, h a ha]
  · simp [ha]

variable (hR : ∀ a b, R a b → key a = key b)
include hR

theorem forall₂_withKey (h : Forall₂ R as bs) (k : κ) :
    Forall₂ R (withKey key k as) (withKey key k bs) := by
  induction h with
  | nil => exact Forall₂.nil
  | @cons a b as bs hab _ ih =>
      have hkey := hR a b hab
      by_cases ha : key a = k
      · rw [withKey_cons_of_eq ha, withKey_cons_of_eq (hkey.symm.trans ha)]
        exact Forall₂.cons hab ih
      · rw [withKey_cons_of_ne ha, withKey_cons_of_ne fun hb => ha (hkey.trans hb)]
        exact ih

omit hR in
/-- The first element with a key. -/
theorem exists_of_withKey_eq_cons {k : κ} {a : α} {rest : List α} (h : withKey key k as = a :: rest) :
    key a = k ∧ ∃ pre post, as = pre ++ a :: post ∧ (∀ x ∈ pre, key x ≠ k) ∧
      rest = withKey key k post := by
  obtain ⟨pre, post, rfl, hpre, ha, hpost⟩ := List.filter_eq_cons_iff.mp h
  exact ⟨of_decide_eq_true ha, pre, post, rfl, fun x hx hk => hpre x hx (decide_eq_true hk),
    hpost.symm⟩

/-- Only the subsequences matter if everything of different keys may be
exchanged. -/
theorem reordered_iff :
    Reordered (fun a b => key a ≠ key b) R as bs ↔
      ∀ k, Forall₂ R (withKey key k as) (withKey key k bs) := by
  constructor
  · rintro ⟨cs, hreorders, hforall⟩ k
    rw [withKey_reorders hreorders k]
    exact forall₂_withKey hR hforall k
  · intro h
    induction bs generalizing as with
    | nil =>
        have hempty : as = [] := by
          by_contra hne
          obtain ⟨a, rest, rfl⟩ := List.exists_cons_of_ne_nil hne
          have hfirst := h (key a)
          rw [withKey_cons_of_eq rfl] at hfirst
          nomatch hfirst
        rw [hempty]
        exact ⟨[], Relation.ReflTransGen.refl, Forall₂.nil⟩
    | cons b bs ih =>
        -- the first of its key goes to the front
        have hfirst := h (key b)
        rw [withKey_cons_of_eq rfl] at hfirst
        generalize hl : withKey key (key b) as = l at hfirst
        cases hfirst with
        | @cons a _ rest _ hab hrest =>
            obtain ⟨ha, pre, post, rfl, hpre, rfl⟩ := exists_of_withKey_eq_cons hl
            have hfront : Reorders (fun a b => key a ≠ key b) (pre ++ a :: post)
                (a :: (pre ++ post)) :=
              Reorders.to_front post fun x hx hk => hpre x hx (hk.trans ha)
            have hothers : ∀ k, Forall₂ R (withKey key k (pre ++ post)) (withKey key k bs) := by
              intro k
              have hk := h k
              rw [withKey_reorders hfront] at hk
              by_cases hak : key a = k
              · rw [withKey_cons_of_eq hak, withKey_cons_of_eq (ha.symm.trans hak)] at hk
                exact (List.forall₂_cons.mp hk).2
              · rwa [withKey_cons_of_ne hak, withKey_cons_of_ne fun hb => hak (ha.trans hb)] at hk
            obtain ⟨cs, hreorders, hforall⟩ := ih hothers
            exact ⟨a :: cs, hfront.trans (hreorders.cons a), Forall₂.cons hab hforall⟩

/-- Lists whose keys are the same in turn are compared key by key. -/
theorem forall₂_iff_withKey :
    Forall₂ R as bs ↔
      as.map key = bs.map key ∧ ∀ k, Forall₂ R (withKey key k as) (withKey key k bs) := by
  constructor
  · intro h
    refine ⟨?_, forall₂_withKey hR h⟩
    induction h with
    | nil => rfl
    | cons hab _ ih => rw [List.map_cons, List.map_cons, hR _ _ hab, ih]
  · rintro ⟨hkeys, h⟩
    induction as generalizing bs with
    | nil =>
        rw [List.map_eq_nil_iff.mp hkeys.symm]
        exact Forall₂.nil
    | cons a as ih =>
        cases bs with
        | nil => nomatch hkeys
        | cons b bs =>
            obtain ⟨hab, hrest⟩ := List.cons.inj hkeys
            have hfirst := h (key a)
            rw [withKey_cons_of_eq rfl, withKey_cons_of_eq hab.symm] at hfirst
            refine Forall₂.cons (List.forall₂_cons.mp hfirst).1 (ih hrest fun k => ?_)
            have hk := h k
            by_cases hak : key a = k
            · rw [withKey_cons_of_eq hak, withKey_cons_of_eq (hab.symm.trans hak)] at hk
              exact (List.forall₂_cons.mp hk).2
            · rwa [withKey_cons_of_ne hak, withKey_cons_of_ne fun hb => hak (hab.trans hb)] at hk

end Keys

/-! ### Stable sorting -/

section Sorting

variable [LinearOrder κ] {key : α → κ}

/-- A stable sort. -/
def sortByKey (key : α → κ) (as : List α) : List α := as.mergeSort fun a b => key a ≤ key b

theorem key_le_trans (a b c : α) (hab : decide (key a ≤ key b) = true)
    (hbc : decide (key b ≤ key c) = true) : decide (key a ≤ key c) = true :=
  decide_eq_true (le_trans (of_decide_eq_true hab) (of_decide_eq_true hbc))

theorem key_le_total (a b : α) : (decide (key a ≤ key b) || decide (key b ≤ key a)) = true := by
  rw [Bool.or_eq_true, decide_eq_true_eq, decide_eq_true_eq]
  exact le_total (key a) (key b)

theorem pairwise_sortByKey (as : List α) :
    (sortByKey key as).Pairwise fun a b => key a ≤ key b := by
  have hsorted : (sortByKey key as).Pairwise fun a b => decide (key a ≤ key b) = true :=
    List.pairwise_mergeSort key_le_trans key_le_total as
  exact hsorted.imp of_decide_eq_true

/-- A stable sort keeps the order of elements with one key. -/
theorem filter_sortByKey {p : α → Bool} (h : ∀ a b, p a = true → p b = true → key a = key b)
    (as : List α) : (sortByKey key as).filter p = as.filter p := by
  have hpairwise : (as.filter p).Pairwise fun a b => decide (key a ≤ key b) = true := by
    apply List.pairwise_of_forall_mem_list
    intro a ha b hb
    exact decide_eq_true (h a b (List.mem_filter.mp ha).2 (List.mem_filter.mp hb).2).le
  have hsub : (as.filter p).Sublist (sortByKey key as) :=
    List.sublist_mergeSort key_le_trans key_le_total hpairwise List.filter_sublist
  have hfilter := hsub.filter p
  simp only [List.filter_filter, Bool.and_self] at hfilter
  have hlength := ((List.mergeSort_perm as fun a b => decide (key a ≤ key b)).filter p).length_eq
  exact (hfilter.eq_of_length hlength.symm).symm

/-- Sorted lists with related subsequences have the same keys. -/
theorem map_key_of_sorted (has : as.Pairwise fun a b => key a ≤ key b)
    (hbs : bs.Pairwise fun a b => key a ≤ key b)
    (h : ∀ k, Forall₂ R (withKey key k as) (withKey key k bs)) : as.map key = bs.map key := by
  have hcount : ∀ (k : κ) (cs : List α), (cs.map key).count k = (withKey key k cs).length := by
    intro k cs
    rw [List.count, List.countP_map, List.countP_eq_length_filter]
    rfl
  have hperm : (as.map key).Perm (bs.map key) := by
    rw [List.perm_iff_count]
    intro k
    rw [hcount, hcount, (h k).length_eq]
  refine hperm.eq_of_pairwise (fun a b _ _ hab hba => le_antisymm hab hba) ?_ ?_
  · exact List.pairwise_map.mpr has
  · exact List.pairwise_map.mpr hbs

variable (hR : ∀ a b, R a b → key a = key b)
include hR

/-- After the sort, related lists are related position by position. -/
theorem forall₂_sortByKey :
    Forall₂ R (sortByKey key as) (sortByKey key bs) ↔
      ∀ k, Forall₂ R (withKey key k as) (withKey key k bs) := by
  have hkeep : ∀ k cs, withKey key k (sortByKey key cs) = withKey key k cs := fun k cs =>
    filter_sortByKey (fun a b ha hb => (of_decide_eq_true ha).trans (of_decide_eq_true hb).symm) cs
  rw [forall₂_iff_withKey hR]
  simp only [hkeep]
  refine and_iff_right_of_imp fun h => ?_
  have hsorted : ∀ k, Forall₂ R (withKey key k (sortByKey key as))
      (withKey key k (sortByKey key bs)) := by simpa only [hkeep] using h
  exact map_key_of_sorted (pairwise_sortByKey as) (pairwise_sortByKey bs) hsorted

end Sorting

end MojoRs.Lib
