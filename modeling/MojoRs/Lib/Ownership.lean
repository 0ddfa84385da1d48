/-
MojoRs/Lib/Ownership.lean

Resources and their owners.  Owners sit in numbered slots; `key` says which
resources an owner has.  `Owned slots key used` says that the resources in use
are those of the owners, and that no two owners share one: then every resource
in use has exactly one owner.

`Matches R f g` relates the slots of two systems one by one.
-/
import Mathlib.Data.Set.Lattice
import Mathlib.Logic.Function.Basic
import Mathlib.Order.CompletePartialOrder

namespace MojoRs.Lib

variable {ι α β ρ : Type*}

/-! ### Owners -/

/-- The resources in use are split up among the owners. -/
structure Owned (slots : ι → Option α) (key : α → Set ρ) (used : Set ρ) : Prop where
  apart : ∀ i j a b, slots i = some a → slots j = some b → i ≠ j → Disjoint (key a) (key b)
  covers : ∀ x, x ∈ used ↔ ∃ i a, slots i = some a ∧ x ∈ key a

namespace Owned

variable {slots : ι → Option α} {key : α → Set ρ} {used : Set ρ} {i : ι} {a b : α}

theorem empty (key : α → Set ρ) : Owned (fun _ : ι => none) key ∅ where
  apart _ _ _ _ hi := by cases hi
  covers x := by
    constructor
    · intro hx
      exact absurd hx (Set.notMem_empty x)
    · rintro ⟨i, a, ha, -⟩
      cases ha

theorem subset (h : Owned slots key used) (ha : slots i = some a) : key a ⊆ used :=
  fun x hx => (h.covers x).mpr ⟨i, a, ha, hx⟩

/-- Two owners with a resource in common are one. -/
theorem unique (h : Owned slots key used) {j : ι} (ha : slots i = some a) (hb : slots j = some b)
    {x : ρ} (hx : x ∈ key a) (hx' : x ∈ key b) : i = j := by
  by_contra hne
  exact Set.disjoint_left.mp (h.apart i j a b ha hb hne) hx hx'

variable [DecidableEq ι]

/-- A new owner brings resources that were not in use. -/
theorem add (h : Owned slots key used) (hnew : slots i = none) (hdisj : Disjoint used (key a)) :
    Owned (Function.update slots i (some a)) key (used ∪ key a) where
  apart j j' b b' hb hb' hne := by
    rw [Function.update_apply] at hb hb'
    split_ifs at hb hb' with hj hj'
    · exact absurd (hj.trans hj'.symm) hne
    · obtain rfl := Option.some.inj hb
      exact (hdisj.mono_left (h.subset hb')).symm
    · obtain rfl := Option.some.inj hb'
      exact hdisj.mono_left (h.subset hb)
    · exact h.apart j j' b b' hb hb' hne
  covers x := by
    rw [Set.mem_union, h.covers]
    constructor
    · rintro (⟨j, b, hb, hx⟩ | hx)
      · refine ⟨j, b, ?_, hx⟩
        rw [Function.update_of_ne _ _ _, hb]
        rintro rfl
        cases hnew.symm.trans hb
      · exact ⟨i, a, Function.update_self .., hx⟩
    · rintro ⟨j, b, hb, hx⟩
      rw [Function.update_apply] at hb
      split_ifs at hb with hj
      · obtain rfl := Option.some.inj hb
        exact .inr hx
      · exact .inl ⟨j, b, hb, hx⟩

/-- An owner that goes takes its resources with it. -/
theorem remove (h : Owned slots key used) (ha : slots i = some a) :
    Owned (Function.update slots i none) key (used \ key a) where
  apart j j' b b' hb hb' hne := by
    rw [Function.update_apply] at hb hb'
    split_ifs at hb hb'
    exact h.apart j j' b b' hb hb' hne
  covers x := by
    rw [Set.mem_sdiff, h.covers]
    constructor
    · rintro ⟨⟨j, b, hb, hx⟩, hnot⟩
      refine ⟨j, b, ?_, hx⟩
      rw [Function.update_of_ne _ _ _, hb]
      rintro rfl
      obtain rfl := Option.some.inj (ha.symm.trans hb)
      exact hnot hx
    · rintro ⟨j, b, hb, hx⟩
      rw [Function.update_apply] at hb
      split_ifs at hb with hj
      exact ⟨⟨j, b, hb, hx⟩, fun hx' => hj (h.unique hb ha hx hx')⟩

/-- An owner may change otherwise. -/
theorem replace (h : Owned slots key used) (ha : slots i = some a) (hkey : key b = key a) :
    Owned (Function.update slots i (some b)) key used where
  apart j j' c c' hc hc' hne := by
    rw [Function.update_apply] at hc hc'
    split_ifs at hc hc' with hj hj'
    · exact absurd (hj.trans hj'.symm) hne
    · obtain rfl := Option.some.inj hc
      rw [hkey]
      exact h.apart i j' a c' ha hc' (hj ▸ hne)
    · obtain rfl := Option.some.inj hc'
      rw [hkey]
      exact h.apart j i c a hc ha hj
    · exact h.apart j j' c c' hc hc' hne
  covers x := by
    rw [h.covers]
    constructor
    · rintro ⟨j, c, hc, hx⟩
      by_cases hj : j = i
      · subst hj
        obtain rfl := Option.some.inj (ha.symm.trans hc)
        exact ⟨j, b, Function.update_self .., hkey ▸ hx⟩
      · exact ⟨j, c, (Function.update_of_ne hj ..).trans hc, hx⟩
    · rintro ⟨j, c, hc, hx⟩
      rw [Function.update_apply] at hc
      split_ifs at hc with hj
      · obtain rfl := Option.some.inj hc
        exact ⟨i, a, ha, hkey ▸ hx⟩
      · exact ⟨j, c, hc, hx⟩

end Owned

/-! ### Filled slots -/

/-- The slots that hold something. -/
def filled (f : ι → Option α) : Set ι := {i | (f i).isSome}

theorem filled_none : filled (fun _ : ι => (none : Option α)) = ∅ := by
  ext i
  exact iff_of_false Bool.false_ne_true (Set.notMem_empty i)

theorem filled_set [DecidableEq ι] (f : ι → Option α) (i : ι) (a : α) :
    filled (Function.update f i (some a)) = filled f ∪ {i} := by
  ext j
  show (Function.update f i (some a) j).isSome ↔ (f j).isSome ∨ j = i
  by_cases hj : j = i
  · subst hj
    rw [Function.update_self]
    exact iff_of_true rfl (.inr rfl)
  · rw [Function.update_of_ne hj]
    exact (or_iff_left hj).symm

theorem filled_clear [DecidableEq ι] (f : ι → Option α) (i : ι) :
    filled (Function.update f i none) = filled f \ {i} := by
  ext j
  show (Function.update f i none j).isSome ↔ (f j).isSome ∧ ¬j = i
  by_cases hj : j = i
  · subst hj
    rw [Function.update_self]
    exact iff_of_false Bool.false_ne_true fun h => h.2 rfl
  · rw [Function.update_of_ne hj]
    exact (and_iff_left hj).symm

/-! ### Slots of two systems -/

/-- The slots are filled alike, and what they hold is related. -/
def Matches (R : α → β → Prop) (f : ι → Option α) (g : ι → Option β) : Prop :=
  ∀ i, Option.Rel R (f i) (g i)

namespace Matches

variable {R R' : α → β → Prop} {f : ι → Option α} {g : ι → Option β} {i : ι} {a : α} {b : β}

theorem mono (h : Matches R f g) (hR : ∀ i a b, f i = some a → R a b → R' a b) :
    Matches R' f g := by
  intro i
  have hi := h i
  cases hf : f i with
  | none =>
      rw [hf] at hi
      cases hg : g i with
      | none => exact .none
      | some b =>
          rw [hg] at hi
          cases hi
  | some a =>
      rw [hf] at hi
      cases hg : g i with
      | none =>
          rw [hg] at hi
          cases hi
      | some b =>
          rw [hg] at hi
          cases hi with
          | some hab => exact .some (hR i a b hf hab)

theorem none (h : Matches R f g) (hf : f i = Option.none) : g i = Option.none := by
  have hi := h i
  rw [hf] at hi
  cases hg : g i with
  | none => rfl
  | some b =>
      rw [hg] at hi
      cases hi

theorem some (h : Matches R f g) (ha : f i = Option.some a) :
    ∃ b, g i = Option.some b ∧ R a b := by
  have hi := h i
  rw [ha] at hi
  cases hg : g i with
  | none =>
      rw [hg] at hi
      cases hi
  | some b =>
      rw [hg] at hi
      cases hi with
      | some hab => exact ⟨b, rfl, hab⟩

variable [DecidableEq ι]

theorem set (h : Matches R f g) (hab : R a b) :
    Matches R (Function.update f i (Option.some a)) (Function.update g i (Option.some b)) := by
  intro j
  by_cases hj : j = i
  · subst hj
    rw [Function.update_self, Function.update_self]
    exact .some hab
  · rw [Function.update_of_ne hj, Function.update_of_ne hj]
    exact h j

theorem clear (h : Matches R f g) (i : ι) :
    Matches R (Function.update f i Option.none) (Function.update g i Option.none) := by
  intro j
  by_cases hj : j = i
  · subst hj
    rw [Function.update_self, Function.update_self]
    exact .none
  · rw [Function.update_of_ne hj, Function.update_of_ne hj]
    exact h j

end Matches

end MojoRs.Lib
