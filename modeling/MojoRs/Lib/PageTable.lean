/-
MojoRs/Lib/PageTable.lean

Address spaces.  A page table says which page of which object each page of an
address space shows; pages are mapped and unmapped in runs.  Behind the table are
the bytes of the objects (`Memory`), and what an address shows is loaded and
stored one byte after another.  An access fails where nothing is shown, beyond
the end of an object, and for a store where the page is not writable.

Main results: where a run of pages shows a run of an object (`Shows.views`),
bytes are loaded from (`Views.loadBytes`) and stored to (`Views.storeBytes`) the
object itself; and what is shown stays when pages apart from it are mapped or
unmapped (`Shows.map`, `Shows.unmap`).
-/
import MojoRs.Lib.Ownership
import MojoRs.Lib.Program
import Mathlib.Order.Interval.Set.Disjoint

namespace MojoRs.Lib

variable {κ : Type}

/-- A page of an object, as it is shown. -/
structure Page (κ : Type) where
  object : κ
  index : Nat
  writable : Bool
  deriving DecidableEq, Repr

/-- What the pages of an address space show. -/
abbrev PageTable (κ : Type) := Nat → Option (Page κ)

/-- The pages of a run. -/
abbrev pageRun (first n : Nat) : Set Nat := Set.Ico first (first + n)

namespace PageTable

/-- The page that stands `i` pages behind another one. -/
def next (page : Page κ) (i : Nat) : Page κ := { page with index := page.index + i }

/-- The pages of an object from `page` on are mapped at a run. -/
def map (t : PageTable κ) (first n : Nat) (page : Page κ) : PageTable κ := fun p =>
  if first ≤ p ∧ p < first + n then some (next page (p - first)) else t p

/-- Pages without a place. -/
def unmap (t : PageTable κ) (first n : Nat) : PageTable κ := fun p =>
  if first ≤ p ∧ p < first + n then none else t p

/-- A run shows nothing. -/
def Free (t : PageTable κ) (first n : Nat) : Prop := ∀ i < n, (t (first + i)).isNone

instance (t : PageTable κ) (first n : Nat) : Decidable (t.Free first n) :=
  inferInstanceAs (Decidable (∀ i < n, (t (first + i)).isNone))

/-- A run shows the pages of an object from `page` on. -/
def Shows (t : PageTable κ) (first n : Nat) (page : Page κ) : Prop :=
  ∀ i < n, t (first + i) = some (next page i)

variable {t : PageTable κ} {first n first' n' : Nat} {page page' : Page κ}

theorem shows_map (t : PageTable κ) (first n : Nat) (page : Page κ) :
    (t.map first n page).Shows first n page := by
  intro i hi
  show (if first ≤ first + i ∧ first + i < first + n then _ else _) = _
  rw [if_pos ⟨Nat.le_add_right _ _, Nat.add_lt_add_left hi _⟩, Nat.add_sub_cancel_left]

theorem Shows.not_mem (hdisj : Disjoint (pageRun first n) (pageRun first' n')) {i : Nat}
    (hi : i < n) : ¬(first' ≤ first + i ∧ first + i < first' + n') := fun hmem =>
  Set.disjoint_left.mp hdisj ⟨Nat.le_add_right _ _, Nat.add_lt_add_left hi _⟩ hmem

/-- What is shown stays where pages are mapped apart from it. -/
theorem Shows.map (h : t.Shows first n page)
    (hdisj : Disjoint (pageRun first n) (pageRun first' n')) :
    (t.map first' n' page').Shows first n page := fun i hi =>
  (if_neg (Shows.not_mem hdisj hi)).trans (h i hi)

theorem Shows.unmap (h : t.Shows first n page)
    (hdisj : Disjoint (pageRun first n) (pageRun first' n')) :
    (t.unmap first' n').Shows first n page := fun i hi =>
  (if_neg (Shows.not_mem hdisj hi)).trans (h i hi)

theorem filled_map (t : PageTable κ) (first n : Nat) (page : Page κ) :
    filled (t.map first n page) = filled t ∪ pageRun first n := by
  ext p
  show (if first ≤ p ∧ p < first + n then _ else t p : Option (Page κ)).isSome ↔ (t p).isSome ∨ _
  by_cases hp : first ≤ p ∧ p < first + n
  · rw [if_pos hp]
    exact iff_of_true rfl (.inr hp)
  · rw [if_neg hp]
    exact (or_iff_left hp).symm

theorem filled_unmap (t : PageTable κ) (first n : Nat) :
    filled (t.unmap first n) = filled t \ pageRun first n := by
  ext p
  show (if first ≤ p ∧ p < first + n then none else t p).isSome ↔ (t p).isSome ∧ ¬_
  by_cases hp : first ≤ p ∧ p < first + n
  · rw [if_pos hp]
    exact iff_of_false Bool.false_ne_true fun h => h.2 hp
  · rw [if_neg hp]
    exact (and_iff_left hp).symm

theorem Free.disjoint (h : t.Free first n) : Disjoint (filled t) (pageRun first n) := by
  rw [Set.disjoint_left]
  rintro p hsome ⟨hlo, hhi⟩
  have hnone := h (p - first) (by omega)
  rw [Nat.add_sub_cancel' hlo] at hnone
  have hfilled : (t p).isSome := hsome
  rw [Option.isNone_iff_eq_none.mp hnone] at hfilled
  cases hfilled

end PageTable

/-! ### Addresses -/

/-- A byte of an object, as it is shown. -/
structure Place (κ : Type) where
  object : κ
  offset : Nat
  writable : Bool
  deriving DecidableEq, Repr

/-- The place that stands `i` bytes behind another one. -/
def Place.next (l : Place κ) (i : Nat) : Place κ := { l with offset := l.offset + i }

namespace PageTable

/-- What an address shows, with pages of `pageSize` bytes. -/
def place (t : PageTable κ) (pageSize a : Nat) : Option (Place κ) :=
  (t (a / pageSize)).map fun page =>
    ⟨page.object, page.index * pageSize + a % pageSize, page.writable⟩

/-- Addresses from `a` on show an object from the place `l` on. -/
def Views (t : PageTable κ) (pageSize a len : Nat) (l : Place κ) : Prop :=
  ∀ i < len, t.place pageSize (a + i) = some (l.next i)

variable {t : PageTable κ} {pageSize a len : Nat} {l : Place κ}

/-- Addresses within a run of pages show what the run shows. -/
theorem Shows.views {first n : Nat} {page : Page κ} (h : t.Shows first n page)
    (hsize : 0 < pageSize) {skip len : Nat} (hfits : skip + len ≤ pageSize * n) :
    t.Views pageSize (pageSize * first + skip) len
      ⟨page.object, pageSize * page.index + skip, page.writable⟩ := by
  intro i hi
  have hpage : (skip + i) / pageSize < n := Nat.div_lt_of_lt_mul (by omega)
  have hoffset : (page.index + (skip + i) / pageSize) * pageSize + (skip + i) % pageSize =
      pageSize * page.index + skip + i := by
    rw [Nat.add_mul, Nat.add_assoc, Nat.mul_comm ((skip + i) / pageSize), Nat.div_add_mod,
      Nat.mul_comm page.index, Nat.add_assoc]
  rw [place, Nat.add_assoc, Nat.mul_add_div hsize, h _ hpage, Nat.mul_add_mod, Option.map_some]
  show some (Place.mk page.object ((page.index + _) * pageSize + _) page.writable) = _
  rw [hoffset]
  rfl

/-- A part of what is shown. -/
theorem Views.part (h : t.Views pageSize a len l) {skip n : Nat} (hle : skip + n ≤ len) :
    t.Views pageSize (a + skip) n (l.next skip) := by
  intro i hi
  rw [Nat.add_assoc, h (skip + i) (by omega)]
  show some (Place.mk l.object (l.offset + (skip + i)) l.writable) = _
  rw [← Nat.add_assoc]
  rfl

theorem Views.head (h : t.Views pageSize a (len + 1) l) : t.place pageSize a = some l :=
  h 0 (Nat.succ_pos len)

theorem Views.tail (h : t.Views pageSize a (len + 1) l) :
    t.Views pageSize (a + 1) len (l.next 1) := h.part (Nat.le_of_eq (Nat.add_comm 1 len))

end PageTable

/-! ### Accesses -/

namespace Memory

theorem bytesAt_succ (m : Memory κ) (key : κ) (off len : Nat) :
    m.bytesAt key off (len + 1) = m key off :: m.bytesAt key (off + 1) len := by
  rw [bytesAt, List.range_succ_eq_map, List.map_cons, List.map_map, Nat.add_zero]
  congr 1
  apply List.map_congr_left
  intro i _
  show m key (off + (i + 1)) = m key (off + 1 + i)
  rw [Nat.add_assoc, Nat.add_comm 1 i]

variable [DecidableEq κ]

theorem putBytes_nil (m : Memory κ) (key : κ) (off : Nat) : m.putBytes key off [] = m := by
  funext key' i
  apply putBytes_of_not_mem
  rintro ⟨-, hlo, hhi⟩
  exact absurd (Nat.lt_of_le_of_lt hlo hhi) (Nat.lt_irrefl off)

/-- Bytes are put one after another. -/
theorem putBytes_cons (m : Memory κ) (key : κ) (off : Nat) (b : UInt8) (bs : List UInt8) :
    (m.putBytes key off [b]).putBytes key (off + 1) bs = m.putBytes key off (b :: bs) := by
  funext key' i
  unfold putBytes
  by_cases hkey : key' = key
  · by_cases hi : i = off
    · subst hi
      simp [hkey]
    · obtain hlt | hgt := Nat.lt_or_gt_of_ne hi
      · rw [if_neg (by omega), if_neg (by simp; omega), if_neg (by omega)]
      · obtain ⟨j, rfl⟩ : ∃ j, i = off + 1 + j := Nat.exists_eq_add_of_le hgt
        have hj : off + 1 + j - off = j + 1 := by omega
        simp only [hkey, true_and, hj, List.getD_cons_succ, Nat.add_sub_cancel_left,
          List.length_cons, List.length_nil]
        split_ifs <;> first | rfl | omega
  · simp [hkey]

end Memory

/-- The objects behind an address space; `size` is where each one ends. -/
structure VirtualMemory (κ : Type) where
  objects : Memory κ
  size : κ → Nat
  pages : PageTable κ

namespace VirtualMemory

variable (pageSize : Nat)

/-- The byte at an address. -/
def load (v : VirtualMemory κ) (a : Nat) : Option UInt8 :=
  match v.pages.place pageSize a with
  | none => none
  | some l => if l.offset < v.size l.object then some (v.objects l.object l.offset) else none

/-- Write the byte at an address. -/
def store [DecidableEq κ] (v : VirtualMemory κ) (a : Nat) (b : UInt8) : Option (VirtualMemory κ) :=
  match v.pages.place pageSize a with
  | none => none
  | some l =>
      if l.writable ∧ l.offset < v.size l.object then
        some { v with objects := v.objects.putBytes l.object l.offset [b] }
      else none

/-- The bytes from an address on. -/
def loadBytes (v : VirtualMemory κ) (a : Nat) : Nat → Option (List UInt8)
  | 0 => some []
  | n + 1 =>
      match v.load pageSize a with
      | none => none
      | some b => (v.loadBytes (a + 1) n).map (b :: ·)

/-- Write bytes from an address on. -/
def storeBytes [DecidableEq κ] (v : VirtualMemory κ) (a : Nat) : List UInt8 → Option (VirtualMemory κ)
  | [] => some v
  | b :: bs =>
      match v.store pageSize a b with
      | none => none
      | some v' => v'.storeBytes (a + 1) bs

end VirtualMemory

namespace PageTable.Views

variable [DecidableEq κ] {pageSize a : Nat} {l : Place κ} {v : VirtualMemory κ}

open VirtualMemory

omit [DecidableEq κ] in
/-- Bytes are loaded from the object that is shown. -/
theorem loadBytes {len : Nat} (h : v.pages.Views pageSize a len l)
    (hfits : l.offset + len ≤ v.size l.object) :
    v.loadBytes pageSize a len = some (v.objects.bytesAt l.object l.offset len) := by
  induction len generalizing a l with
  | zero => rfl
  | succ n ih =>
      have hload : v.load pageSize a = some (v.objects l.object l.offset) := by
        rw [load, h.head]
        exact if_pos (by omega)
      have hfits' : (l.next 1).offset + n ≤ v.size l.object := by
        show l.offset + 1 + n ≤ _
        omega
      rw [VirtualMemory.loadBytes, hload, Memory.bytesAt_succ]
      show Option.map _ (v.loadBytes pageSize (a + 1) n) = _
      rw [ih h.tail hfits']
      rfl

/-- Bytes are stored to the object that is shown, if it is shown writable. -/
theorem storeBytes {bs : List UInt8} (h : v.pages.Views pageSize a bs.length l)
    (hwritable : l.writable = true) (hfits : l.offset + bs.length ≤ v.size l.object) :
    v.storeBytes pageSize a bs =
      some { v with objects := v.objects.putBytes l.object l.offset bs } := by
  induction bs generalizing v a l with
  | nil => rw [Memory.putBytes_nil]; rfl
  | cons b bs ih =>
      rw [List.length_cons] at h hfits
      have hstore : v.store pageSize a b =
          some { v with objects := v.objects.putBytes l.object l.offset [b] } := by
        rw [store, h.head]
        exact if_pos ⟨hwritable, by omega⟩
      have hfits' : (l.next 1).offset + bs.length ≤ v.size l.object := by
        show l.offset + 1 + bs.length ≤ _
        omega
      rw [VirtualMemory.storeBytes, hstore, ← Memory.putBytes_cons _ _ _ b bs]
      exact @ih (a + 1) (l.next 1)
        ⟨v.objects.putBytes l.object l.offset [b], v.size, v.pages⟩ h.tail hwritable hfits'

end PageTable.Views

end MojoRs.Lib
