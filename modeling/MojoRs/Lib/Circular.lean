/-
MojoRs/Lib/Circular.lean

Circular storage.  A store is a function from cell numbers to values of which
the first `cap` cells are used; the cells from `off` on are read modulo `cap`.

* `window cap mem off n` — the `n` values stored from `off` on;
* `copyIn` and `copyOut` — a straight copy into and out of consecutive cells;
* `Stores cap mem off src mem'` — `mem'` is `mem` with `src` stored from `off`
  on, and nothing else changed.

A ring buffer works with windows and changes its store by `copyIn` in one or
two pieces.  The rules below say that such pieces compose (`Stores.append`),
what can be read back (`Stores.window_self`), and which windows are not
touched (`Stores.window_before`).
-/
import Mathlib.Data.Nat.ModEq

namespace MojoRs.Lib

universe u

variable {α : Type u} {cap : Nat} {mem mem' mem'' : Nat → α}

/-! ### Definitions -/

/-- The `n` values from cell `off` on. -/
def window (cap : Nat) (mem : Nat → α) (off n : Nat) : List α :=
  (List.range n).map fun i => mem ((off + i) % cap)

/-- Copy `src` to the cells from `pos` on. -/
def copyIn (mem : Nat → α) (pos : Nat) (src : List α) : Nat → α :=
  fun i => if pos ≤ i then (src[i - pos]?).getD (mem i) else mem i

/-- Copy the `n` cells from `pos` on. -/
def copyOut (mem : Nat → α) (pos n : Nat) : List α :=
  (List.range n).map fun i => mem (pos + i)

/-- `mem'` is `mem` after storing `src` from `off` on. -/
structure Stores (cap : Nat) (mem : Nat → α) (off : Nat) (src : List α) (mem' : Nat → α) :
    Prop where
  stored : ∀ (k : Nat) (hk : k < src.length), mem' ((off + k) % cap) = src[k]
  frame : ∀ i, (∀ k < src.length, i ≠ (off + k) % cap) → mem' i = mem i

/-! ### Windows -/

@[simp] theorem length_window (off n : Nat) : (window cap mem off n).length = n := by
  simp [window]

@[simp] theorem window_zero (off : Nat) : window cap mem off 0 = [] := rfl

/-- A window is read piece by piece. -/
theorem window_add (off m n : Nat) :
    window cap mem off (m + n) = window cap mem off m ++ window cap mem (off + m) n := by
  simp [window, List.range_add, Function.comp_def, Nat.add_assoc]

theorem window_mod (off n : Nat) : window cap mem (off % cap) n = window cap mem off n := by
  simp [window]

theorem window_congr {off off' : Nat} (n : Nat) (h : off % cap = off' % cap) :
    window cap mem off n = window cap mem off' n := by
  rw [← window_mod off, h, window_mod]

/-- What does not cross the end of the store is a straight copy. -/
theorem copyOut_eq_window {pos n : Nat} (h : pos + n ≤ cap) :
    copyOut mem pos n = window cap mem pos n := by
  refine List.map_congr_left fun i hi => ?_
  have hi : i < n := List.mem_range.mp hi
  rw [Nat.mod_eq_of_lt (by omega)]

/-- Cells of one lap are different. -/
theorem add_mod_inj {off i j : Nat} (hi : i < cap) (hj : j < cap)
    (h : (off + i) % cap = (off + j) % cap) : i = j :=
  Nat.ModEq.eq_of_lt_of_lt (Nat.ModEq.add_left_cancel' off h) hi hj

/-! ### Storing -/

/-- A straight copy that stays below the end of the store. -/
theorem stores_copyIn (mem : Nat → α) {pos : Nat} (src : List α)
    (h : pos + src.length ≤ cap) :
    Stores cap mem pos src (copyIn mem pos src) := by
  constructor
  · intro k hk
    rw [Nat.mod_eq_of_lt (by omega)]
    simp [copyIn, hk]
  · intro i hi
    unfold copyIn
    split
    · rename_i hle
      have hlt : src.length ≤ i - pos := by
        by_contra hlt
        refine hi (i - pos) (by omega) ?_
        rw [Nat.mod_eq_of_lt (by omega)]
        omega
      simp [List.getElem?_eq_none hlt]
    · rfl

/-- Two stores one after the other are one store, as long as they do not go
around. -/
theorem Stores.append {off : Nat} {src src' : List α} (h : Stores cap mem off src mem')
    (h' : Stores cap mem' (off + src.length) src' mem'')
    (hcap : src.length + src'.length ≤ cap) : Stores cap mem off (src ++ src') mem'' := by
  constructor
  · intro k hk
    rw [List.length_append] at hk
    rw [List.getElem_append]
    split
    · rename_i hlt
      rw [h'.frame, h.stored k hlt]
      intro j hj heq
      rw [Nat.add_assoc] at heq
      have := add_mod_inj (by omega) (by omega) heq
      omega
    · rename_i hge
      rw [← h'.stored (k - src.length) (by omega)]
      congr 2
      omega
  · intro i hi
    rw [h'.frame, h.frame]
    · exact fun k hk => hi k (by rw [List.length_append]; omega)
    · intro k hk
      rw [Nat.add_assoc]
      exact hi (src.length + k) (by rw [List.length_append]; omega)

theorem Stores.congr {off off' : Nat} {src : List α} (h : Stores cap mem off src mem')
    (hoff : off % cap = off' % cap) : Stores cap mem off' src mem' := by
  have key : ∀ k, (off + k) % cap = (off' + k) % cap := fun k =>
    Nat.ModEq.add_right k hoff
  exact ⟨fun k hk => by rw [← key, h.stored k hk],
    fun i hi => h.frame i fun k hk => by rw [key]; exact hi k hk⟩

/-- What was stored can be read back. -/
theorem Stores.window_self {off : Nat} {src : List α} (h : Stores cap mem off src mem') :
    window cap mem' off src.length = src := by
  refine List.ext_getElem (by simp) fun k hk hk' => ?_
  simp [window, h.stored k hk']

/-- A window that ends at or before the place of a store, within one lap, is
left as it was. -/
theorem Stores.window_before {off n gap : Nat} {src : List α}
    (h : Stores cap mem (off + n + gap) src mem') (hcap : n + gap + src.length ≤ cap) :
    window cap mem' off n = window cap mem off n := by
  refine List.map_congr_left fun i hi => h.frame _ fun k hk heq => ?_
  have hi : i < n := List.mem_range.mp hi
  rw [Nat.add_assoc, Nat.add_assoc] at heq
  have := add_mod_inj (by omega) (by omega) heq
  omega

end MojoRs.Lib
