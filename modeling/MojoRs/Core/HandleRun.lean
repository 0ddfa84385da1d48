/-
MojoRs/Core/HandleRun.lean

Whole runs of the handle table.  A run is any sequence of `add`, `duplicate`,
drop and `get`; duplicate and drop name one of the handles the run owns, which
is how a `Handle` value is used: a drop consumes it.  Next to the table the
state records which handles are owned, and for which dispatcher each one was
created, and which dispatchers were told to close.

`Identity` says what an owned handle is good for.  It holds along a run
exactly when no allocation pushes a slot's generation past the 12 bits that a
handle value has for it (`always_identity_iff`); a slot reused 4096 times
breaks it (`reuse_breaks_identity`).
-/
import Mathlib.Data.List.InsertIdx
import MojoRs.Core.Handle
import MojoRs.Lib.Run

namespace MojoRs.Core

open Lib

variable {δ : Type}

/-- The table, the handles returned and not yet closed (each with the
dispatcher it was created for), and the dispatchers closed so far. -/
structure HandleState (δ : Type) where
  table : TableInner δ
  live : List (Handle × δ)
  closed : List δ
  deriving DecidableEq, Repr

/-- Operations; `duplicate` and `drop` name an owned handle by its position. -/
inductive HandleOp (δ : Type)
  | add (d : δ)
  | duplicate (k : Nat)
  | drop (k : Nat)
  | get (value : MojoHandleValue)
  deriving DecidableEq, Repr

namespace HandleState

/-- A new table, nothing returned. -/
def init : HandleState δ := ⟨.new, [], []⟩

/-- Keep the returned handle together with its dispatcher; a failed call
returns no handle and leaves the table alone. -/
def own (s : HandleState δ) (d : δ) : CoreResult (Handle × TableInner δ) → HandleState δ
  | .ok (h, t) => { s with table := t, live := s.live ++ [(h, d)] }
  | .error _ => s

/-- One call on the table, with what it returned. -/
def step (dup : δ → Bool) (s : HandleState δ) : HandleOp δ → HandleState δ
  | .add d => s.own d (s.table.add d)
  | .duplicate k =>
      match s.live[k]? with
      | some (h, d) => s.own d (s.table.duplicate dup h.value)
      | none => s
  | .drop k =>
      match s.live[k]? with
      | some (h, _) =>
          let (t, c) := s.table.closeSlot h.slot h.value
          { table := t, live := s.live.eraseIdx k, closed := s.closed ++ c.toList }
      | none => s
  | .get _ => s

/-- An owned handle is non-zero, resolves to its dispatcher, and closing it
removes exactly its entry, notifies its dispatcher and frees its slot. -/
structure Owns (t : TableInner δ) (h : Handle) (d : δ) : Prop where
  nonzero : h.value ≠ 0
  resolves : t.get h.value = .ok d
  entry : ∃ e, t.entries[h.slot.toNat]? = some (some e) ∧ e.dispatcher = d
  closes : t.closeSlot h.slot h.value =
    ({ t with entries := t.entries.set h.slot.toNat none, free := h.slot :: t.free }, some d)

/-- Every owned handle is good. -/
def Identity (s : HandleState δ) : Prop := ∀ p ∈ s.live, Owns s.table p.1 p.2

/-- The operation takes a slot: `add` always, `duplicate` when the named
handle is owned and its dispatcher can be duplicated. -/
def Allocates (dup : δ → Bool) (s : HandleState δ) : HandleOp δ → Prop
  | .add _ => True
  | .duplicate k => ∃ p, s.live[k]? = some p ∧ dup p.2 = true
  | _ => False

/-- A slot about to be reused has been allocated fewer than `2 ^ 12 - 1`
times. -/
def GenerationFits (dup : δ → Bool) (s : HandleState δ) (op : HandleOp δ) : Prop :=
  Allocates dup s op → ∀ slot ∈ s.table.free.head?,
    (s.table.generationOf slot).toNat < 2 ^ 12 - 1

end HandleState

/-! ### The table invariant -/

/-- What the table looks like as long as every generation fits. -/
structure TableInner.Inv (t : TableInner δ) : Prop where
  lengths : t.generations.length = t.entries.length
  bound : t.entries.length ≤ maxSlots
  gens : ∀ g ∈ t.generations, g.toNat < 2 ^ 12
  free_empty : ∀ slot ∈ t.free, t.entries[slot.toNat]? = some none
  free_nodup : t.free.Nodup

/-- The entry of a handle that `t` resolves to `d`. -/
def TableInner.Holds (t : TableInner δ) (h : Handle) (d : δ) : Prop :=
  ∃ g : UInt32, 0 < g.toNat ∧ g.toNat < 2 ^ 12 ∧ h.value = encode h.slot g ∧
    t.entries[h.slot.toNat]? = some (some ⟨d, g⟩)

namespace TableInner

theorem Inv.new : Inv (TableInner.new : TableInner δ) := by
  constructor <;> simp [TableInner.new]

theorem Inv.slot_lt {t : TableInner δ} (hi : t.Inv) {slot : UInt32} {o : Option (Entry δ)}
    (h : t.entries[slot.toNat]? = some o) : slot.toNat < 2 ^ 20 := by
  have hlt := (List.getElem?_eq_some_iff.mp h).1
  have := hi.bound
  simp only [maxSlots] at this
  omega

theorem bump_toNat {g : UInt32} (hg : g.toNat < 2 ^ 12 - 1) :
    (if g + 1 = 0 then 1 else g + 1).toNat = g.toNat + 1 := by
  have hadd : (g + 1).toNat = g.toNat + 1 := by
    rw [UInt32.toNat_add, UInt32.toNat_one, Nat.mod_eq_of_lt (by omega)]
  have hne : g + 1 ≠ 0 := by
    intro h
    simp [h] at hadd
  rw [if_neg hne, hadd]

theorem generationOf_eq {t : TableInner δ} {slot : UInt32}
    (h : slot.toNat < t.generations.length) :
    t.generationOf slot = t.generations[slot.toNat] := by
  simp [generationOf, List.getD_eq_getElem?_getD, h]

/-- The generation handed out when a slot is reused is the next one. -/
theorem generationOf_bump {t : TableInner δ} {slot : UInt32}
    (hrange : slot.toNat < t.generations.length)
    (hfit : (t.generationOf slot).toNat < 2 ^ 12 - 1) :
    ((t.bumpGeneration slot).generationOf slot).toNat = (t.generationOf slot).toNat + 1 := by
  have hlen : slot.toNat < (t.bumpGeneration slot).generations.length := by
    simpa [bumpGeneration] using hrange
  rw [generationOf_eq hlen]
  simpa [bumpGeneration] using bump_toNat hfit

/-- Bumping a slot keeps the counters small. -/
theorem gens_bump {t : TableInner δ} {slot : UInt32}
    (hgens : ∀ g ∈ t.generations, g.toNat < 2 ^ 12)
    (hfit : (t.generationOf slot).toNat < 2 ^ 12 - 1) :
    ∀ g ∈ (t.bumpGeneration slot).generations, g.toNat < 2 ^ 12 := by
  intro g hg
  rcases List.mem_or_eq_of_mem_set hg with hold | rfl
  · exact hgens g hold
  · rw [bump_toNat hfit]
    omega

/-- Reuse of the free slot `slot`. -/
theorem Inv.reuse {t : TableInner δ} {slot : UInt32} {free : List UInt32} (hi : t.Inv)
    (hfree : t.free = slot :: free)
    (hfit : (t.generationOf slot).toNat < 2 ^ 12 - 1) :
    let t' := { t with free }.bumpGeneration slot
    t'.Inv ∧ 0 < (t'.generationOf slot).toNat ∧ (t'.generationOf slot).toNat < 2 ^ 12 ∧
      t'.entries[slot.toNat]? = some none ∧ slot ∉ t'.free := by
  have hempty : t.entries[slot.toNat]? = some none := hi.free_empty slot (by simp [hfree])
  have hrange : slot.toNat < t.generations.length := by
    have := (List.getElem?_eq_some_iff.mp hempty).1
    have := hi.lengths
    omega
  have hfit' : ((⟨t.entries, t.generations, free⟩ : TableInner δ).generationOf slot).toNat
      < 2 ^ 12 - 1 := hfit
  have hb := generationOf_bump (t := ⟨t.entries, t.generations, free⟩) hrange hfit'
  have hgs := gens_bump (t := ⟨t.entries, t.generations, free⟩) hi.gens hfit'
  obtain ⟨hnot, hnodup⟩ := List.nodup_cons.mp (hfree ▸ hi.free_nodup)
  refine ⟨⟨?_, hi.bound, hgs, ?_, hnodup⟩, ?_, ?_, hempty, hnot⟩
  · simpa [bumpGeneration] using hi.lengths
  · intro x hx
    exact hi.free_empty x (hfree ▸ List.mem_cons_of_mem _ hx)
  · rw [hb]
    omega
  · rw [hb]
    omega

/-- Growing a table without free slots by one slot. -/
theorem Inv.grow {t : TableInner δ} (hi : t.Inv) (hfree : t.free = [])
    (hroom : t.entries.length < maxSlots) :
    let slot := UInt32.ofNat t.entries.length
    let t' := ({ t with entries := t.entries ++ [none], generations := t.generations ++ [0] } :
      TableInner δ).bumpGeneration slot
    t'.Inv ∧ 0 < (t'.generationOf slot).toNat ∧ (t'.generationOf slot).toNat < 2 ^ 12 ∧
      t'.entries[slot.toNat]? = some none ∧ slot ∉ t'.free ∧
      slot.toNat = t.entries.length := by
  have hslot : (UInt32.ofNat t.entries.length).toNat = t.entries.length := by
    simp only [maxSlots] at hroom
    exact UInt32.toNat_ofNat_of_lt' (by simp only [UInt32.size]; omega)
  have hrange : (UInt32.ofNat t.entries.length).toNat < (t.generations ++ [0]).length := by
    simp [hslot, hi.lengths]
  have hzero : ((⟨t.entries ++ [none], t.generations ++ [0], t.free⟩ :
      TableInner δ).generationOf (UInt32.ofNat t.entries.length)) = 0 := by
    rw [generationOf, hslot, ← hi.lengths]
    simp
  have hfit : ((⟨t.entries ++ [none], t.generations ++ [0], t.free⟩ :
      TableInner δ).generationOf (UInt32.ofNat t.entries.length)).toNat < 2 ^ 12 - 1 := by
    simp [hzero]
  have hb := generationOf_bump
    (t := ⟨t.entries ++ [none], t.generations ++ [0], t.free⟩) hrange hfit
  have hold : ∀ g ∈ t.generations ++ [0], g.toNat < 2 ^ 12 := by
    intro g hg
    rcases List.mem_append.mp hg with hg | hg
    · exact hi.gens g hg
    · simp_all
  have hgs := gens_bump (t := ⟨t.entries ++ [none], t.generations ++ [0], t.free⟩) hold hfit
  refine ⟨⟨?_, ?_, hgs, ?_, ?_⟩, ?_, ?_, ?_, ?_, hslot⟩
  · simpa [bumpGeneration] using hi.lengths
  · simp only [bumpGeneration, List.length_append, List.length_singleton]
    omega
  · simp [bumpGeneration, hfree]
  · simp [bumpGeneration, hfree]
  · rw [hb]
    omega
  · rw [hb, hzero]
    decide
  · simp [bumpGeneration, hslot]
  · simp [bumpGeneration, hfree]

/-- Allocation: the slot is empty and off the free list, its new generation
fits and is positive, and no entry of another slot changes. -/
theorem Inv.allocate {t t' : TableInner δ} {slot g : UInt32} (hi : t.Inv)
    (hfit : ∀ s ∈ t.free.head?, (t.generationOf s).toNat < 2 ^ 12 - 1)
    (h : t.allocate = .ok ((slot, g), t')) :
    t'.Inv ∧ 0 < g.toNat ∧ g.toNat < 2 ^ 12 ∧ t'.entries[slot.toNat]? = some none ∧
      slot ∉ t'.free ∧ ∀ (i : Nat) (e : Entry δ), t.entries[i]? = some (some e) →
        i ≠ slot.toNat ∧ t'.entries[i]? = some (some e) := by
  unfold TableInner.allocate at h
  split at h
  case h_1 s free hfree =>
    have hempty : t.entries[s.toNat]? = some none := hi.free_empty s (by simp [hfree])
    obtain ⟨hi', hpos, hlt, hnone, hnot⟩ := hi.reuse hfree (hfit s (by simp [hfree]))
    simp only [Except.ok.injEq, Prod.mk.injEq] at h
    obtain ⟨⟨rfl, rfl⟩, rfl⟩ := h
    refine ⟨hi', hpos, hlt, hnone, hnot, fun i e he => ⟨?_, he⟩⟩
    rintro rfl
    simp [hempty] at he
  case h_2 hfree =>
    split at h
    · cases h
    · rename_i hroom
      obtain ⟨hi', hpos, hlt, hnone, hnot, hslot⟩ := hi.grow hfree (by omega)
      simp only [Except.ok.injEq, Prod.mk.injEq] at h
      obtain ⟨⟨rfl, rfl⟩, rfl⟩ := h
      refine ⟨hi', hpos, hlt, hnone, hnot, fun i e he => ?_⟩
      have hi_lt := (List.getElem?_eq_some_iff.mp he).1
      refine ⟨by omega, ?_⟩
      simpa [bumpGeneration, List.getElem?_append_left hi_lt] using he

/-! ### What a held handle is good for -/

theorem Holds.get {t : TableInner δ} {h : Handle} {d : δ} (hi : t.Inv) (hh : t.Holds h d) :
    h.value ≠ 0 ∧ t.get h.value = .ok d := by
  obtain ⟨g, hpos, hlt, hval, hentry⟩ := hh
  have hslot := hi.slot_lt hentry
  have hgen : h.value >>> slotBits = g := by
    apply UInt32.toNat_inj.mp
    rw [hval, encode_generation hslot, Nat.mod_eq_of_lt hlt]
  have hne : h.value ≠ 0 := by
    intro hz
    rw [hz] at hgen
    have : g.toNat = 0 := by rw [← hgen]; decide
    omega
  refine ⟨hne, ?_⟩
  have hs : h.value &&& slotMask = h.slot := by rw [hval, encode_slot hslot]
  simp [TableInner.get, hne, hs, hgen, hentry]

theorem Holds.closeSlot {t : TableInner δ} {h : Handle} {d : δ} (hi : t.Inv)
    (hh : t.Holds h d) : t.closeSlot h.slot h.value =
      ({ t with entries := t.entries.set h.slot.toNat none, free := h.slot :: t.free },
        some d) := by
  obtain ⟨g, -, hlt, hval, hentry⟩ := hh
  have hgen : h.value >>> slotBits = g := by
    apply UInt32.toNat_inj.mp
    rw [hval, encode_generation (hi.slot_lt hentry), Nat.mod_eq_of_lt hlt]
  simp [TableInner.closeSlot, hgen, hentry]

/-! ### Installing and closing -/

/-- A new handle is held, and every handle held before still is, on another
slot. -/
theorem Inv.install {t t' : TableInner δ} {h : Handle} {d : δ} (hi : t.Inv)
    (hfit : ∀ s ∈ t.free.head?, (t.generationOf s).toNat < 2 ^ 12 - 1)
    (heq : t.install d = .ok (h, t')) :
    t'.Inv ∧ t'.Holds h d ∧
      ∀ h₀ d₀, t.Holds h₀ d₀ → h₀.slot ≠ h.slot ∧ t'.Holds h₀ d₀ := by
  unfold TableInner.install at heq
  rcases e : t.allocate with err | ⟨⟨slot, g⟩, t₁⟩
  · simp [e, bind, Except.bind] at heq
  · simp only [e, bind, Except.bind, pure, Except.pure, Except.ok.injEq,
      Prod.mk.injEq] at heq
    obtain ⟨rfl, rfl⟩ := heq
    obtain ⟨hi₁, hpos, hlt, hnone, hnot, hframe⟩ := hi.allocate hfit e
    have hrange := (List.getElem?_eq_some_iff.mp hnone).1
    refine ⟨⟨?_, ?_, hi₁.gens, ?_, hi₁.free_nodup⟩, ⟨g, hpos, hlt, rfl, ?_⟩, ?_⟩
    · simpa using hi₁.lengths
    · simpa using hi₁.bound
    · intro x hx
      have hne : slot.toNat ≠ x.toNat := by
        intro hxs
        exact hnot (UInt32.toNat_inj.mp hxs ▸ hx)
      rw [List.getElem?_set_ne hne]
      exact hi₁.free_empty x hx
    · simp [hrange]
    · rintro h₀ d₀ ⟨g₀, hpos₀, hlt₀, hval₀, hentry₀⟩
      obtain ⟨hne, hkeep⟩ := hframe _ _ hentry₀
      refine ⟨fun hs => hne (by rw [hs]), g₀, hpos₀, hlt₀, hval₀, ?_⟩
      rw [List.getElem?_set_ne (Ne.symm hne)]
      exact hkeep

/-- Closing a held handle keeps every handle on another slot. -/
theorem Inv.close {t : TableInner δ} {h : Handle} {d : δ} (hi : t.Inv) (hh : t.Holds h d) :
    let t' : TableInner δ :=
      { t with entries := t.entries.set h.slot.toNat none, free := h.slot :: t.free }
    t'.Inv ∧ ∀ h₀ d₀, h₀.slot ≠ h.slot → t.Holds h₀ d₀ → t'.Holds h₀ d₀ := by
  obtain ⟨g, hpos, hlt, hval, hentry⟩ := hh
  have hrange := (List.getElem?_eq_some_iff.mp hentry).1
  refine ⟨⟨?_, ?_, hi.gens, ?_, ?_⟩, ?_⟩
  · simpa using hi.lengths
  · simpa using hi.bound
  · intro x hx
    rcases List.mem_cons.mp hx with rfl | hx
    · simp [hrange]
    · have hold := hi.free_empty x hx
      have hne : h.slot.toNat ≠ x.toNat := by
        intro hxs
        simp [← hxs, hentry] at hold
      rw [List.getElem?_set_ne hne]
      exact hold
  · refine List.nodup_cons.mpr ⟨fun hmem => ?_, hi.free_nodup⟩
    simp [hi.free_empty _ hmem] at hentry
  · rintro h₀ d₀ hne ⟨g₀, hpos₀, hlt₀, hval₀, hentry₀⟩
    refine ⟨g₀, hpos₀, hlt₀, hval₀, ?_⟩
    rw [List.getElem?_set_ne fun hs => hne (UInt32.toNat_inj.mp hs.symm)]
    exact hentry₀

theorem duplicate_eq {dup : δ → Bool} {t : TableInner δ} {v : MojoHandleValue} {d : δ}
    (hget : t.get v = .ok d) (hdup : dup d = true) : t.duplicate dup v = t.install d := by
  simp [TableInner.duplicate, hget, hdup, bind, Except.bind]

theorem duplicate_refused {dup : δ → Bool} {t : TableInner δ} {v : MojoHandleValue} {d : δ}
    (hget : t.get v = .ok d) (hdup : dup d = false) :
    t.duplicate dup v = .error .invalidArgument := by
  simp [TableInner.duplicate, hget, hdup, bind, Except.bind]

/-- Where the counter of the next free slot is at its 12-bit end, the handle
that is installed next does not resolve to its dispatcher. -/
theorem Inv.install_overflow {t : TableInner δ} {slot : UInt32} {d : δ} (hi : t.Inv)
    (hfree : slot ∈ t.free.head?) (hfull : 2 ^ 12 - 1 ≤ (t.generationOf slot).toNat) :
    ∃ h t', t.install d = .ok (h, t') ∧ t'.get h.value ≠ .ok d := by
  obtain ⟨free, hcons⟩ : ∃ free, t.free = slot :: free := List.head?_eq_some_iff.mp hfree
  have hempty : t.entries[slot.toNat]? = some none := hi.free_empty slot (by simp [hcons])
  have hslot := hi.slot_lt hempty
  have hrange : slot.toNat < t.generations.length := by
    have := (List.getElem?_eq_some_iff.mp hempty).1
    have := hi.lengths
    omega
  have hgen : t.generationOf slot = 4095 := by
    apply UInt32.toNat_inj.mp
    have := hi.gens _ (generationOf_eq hrange ▸ List.getElem_mem hrange)
    have h4095 : (4095 : UInt32).toNat = 4095 := by decide
    omega
  have hnext : (({ t with free } : TableInner δ).bumpGeneration slot).generationOf slot
      = 4096 := by
    have hlen : slot.toNat < (({ t with free } : TableInner δ).bumpGeneration
        slot).generations.length := by
      simpa [bumpGeneration] using hrange
    have hgen' : ({ t with free } : TableInner δ).generationOf slot = 4095 := hgen
    rw [generationOf_eq hlen]
    simp [bumpGeneration, hgen']
  have hentries : slot.toNat < t.entries.length := (List.getElem?_eq_some_iff.mp hempty).1
  have hinstall : t.install d = .ok (⟨encode slot 4096, slot⟩,
      { ({ t with free } : TableInner δ).bumpGeneration slot with
        entries := t.entries.set slot.toNat (some ⟨d, 4096⟩) }) := by
    simp only [TableInner.install, TableInner.allocate, hcons, bind, Except.bind, pure,
      Except.pure, hnext]
    rfl
  refine ⟨_, _, hinstall, ?_⟩
  -- the value's own generation reads back as 0
  have hback : encode slot 4096 >>> slotBits = 0 := by
    apply UInt32.toNat_inj.mp
    rw [encode_generation hslot]
    decide
  unfold TableInner.get
  split
  · simp
  · simp [encode_slot hslot, hback, hentries]

end TableInner

/-! ### The invariant of a run -/

namespace HandleState

/-- Every owned handle is held by the table, each on its own slot. -/
structure Inv (s : HandleState δ) : Prop where
  table : s.table.Inv
  holds : ∀ p ∈ s.live, s.table.Holds p.1 p.2
  distinct : (s.live.map (·.1.slot)).Nodup

theorem Inv.init : Inv (HandleState.init : HandleState δ) :=
  ⟨.new, by simp [HandleState.init], by simp [HandleState.init]⟩

theorem Inv.identity {s : HandleState δ} (hi : s.Inv) : s.Identity := by
  intro p hp
  have hh := hi.holds p hp
  obtain ⟨hne, hget⟩ := hh.get hi.table
  obtain ⟨g, -, -, -, hentry⟩ := hh
  exact ⟨hne, hget, ⟨_, hentry, rfl⟩, (hi.holds p hp).closeSlot hi.table⟩

theorem Inv.own {s : HandleState δ} (hi : s.Inv) (d : δ)
    (hfit : ∀ slot ∈ s.table.free.head?, (s.table.generationOf slot).toNat < 2 ^ 12 - 1) :
    (s.own d (s.table.install d)).Inv := by
  rcases e : s.table.install d with - | ⟨h, t⟩
  · exact hi
  · obtain ⟨ht, hh, hframe⟩ := hi.table.install hfit e
    refine ⟨ht, ?_, ?_⟩
    · intro p hp
      rcases List.mem_append.mp hp with hp | hp
      · exact (hframe _ _ (hi.holds p hp)).2
      · obtain rfl := List.mem_singleton.mp hp
        exact hh
    · simp only [HandleState.own, List.map_append, List.map_cons, List.map_nil]
      refine List.nodup_append.mpr ⟨hi.distinct, by simp, ?_⟩
      rintro a ha b hb rfl
      obtain ⟨p, hp, rfl⟩ := List.mem_map.mp ha
      exact (hframe _ _ (hi.holds p hp)).1 (List.mem_singleton.mp hb)

theorem Inv.drop {dup : δ → Bool} {s : HandleState δ} (hi : s.Inv) (k : Nat) :
    (s.step dup (.drop k)).Inv := by
  rcases e : s.live[k]? with - | ⟨h, d⟩
  · simpa [HandleState.step, e] using hi
  · have hh : s.table.Holds h d := hi.holds _ (List.mem_of_getElem? e)
    obtain ⟨ht, hframe⟩ := hi.table.close hh
    simp only [HandleState.step, e, hh.closeSlot hi.table]
    refine ⟨ht, ?_, ?_⟩
    · intro p hp
      obtain ⟨j, hjk, hj⟩ := List.mem_eraseIdx_iff_getElem?.mp hp
      refine hframe _ _ (fun hslot => hjk ?_) (hi.holds p (List.mem_of_getElem? hj))
      obtain ⟨hlt, -⟩ := List.getElem?_eq_some_iff.mp hj
      refine (List.getElem?_inj (by simpa using hlt) hi.distinct).mp ?_
      simp [hj, e, hslot]
    · simp only [← List.eraseIdx_map]
      exact hi.distinct.eraseIdx k

/-- One step that stays within the generations keeps the invariant. -/
theorem Inv.step {dup : δ → Bool} {s : HandleState δ} (hi : s.Inv) (op : HandleOp δ)
    (hfit : s.GenerationFits dup op) : (s.step dup op).Inv := by
  cases op with
  | add d => exact hi.own d (hfit trivial)
  | get value => exact hi
  | drop k => exact hi.drop k
  | duplicate k =>
      rcases e : s.live[k]? with - | ⟨h, d⟩
      · simpa [HandleState.step, e] using hi
      · have hget := ((hi.holds _ (List.mem_of_getElem? e)).get hi.table).2
        cases hdup : dup d with
        | false =>
            simpa [HandleState.step, e, TableInner.duplicate_refused hget hdup,
              HandleState.own] using hi
        | true =>
            simp only [HandleState.step, e, TableInner.duplicate_eq hget hdup]
            exact hi.own d (hfit ⟨_, e, hdup⟩)

/-- A step past the last generation leaves an owned handle that does not
resolve to its dispatcher. -/
theorem Inv.step_bad {dup : δ → Bool} {s : HandleState δ} (hi : s.Inv) (op : HandleOp δ)
    (hid : (s.step dup op).Identity) : s.GenerationFits dup op := by
  intro halloc slot hslot
  by_contra hfull
  -- the dispatcher the step installs
  obtain ⟨d, hstep⟩ : ∃ d, s.step dup op = s.own d (s.table.install d) := by
    cases op with
    | add d => exact ⟨d, rfl⟩
    | duplicate k =>
        obtain ⟨⟨h, d⟩, e, hdup⟩ := halloc
        have hget := ((hi.holds _ (List.mem_of_getElem? e)).get hi.table).2
        exact ⟨d, by simp only [HandleState.step, e, TableInner.duplicate_eq hget hdup]⟩
    | drop k => exact halloc.elim
    | get value => exact halloc.elim
  obtain ⟨h, t, hinstall, hbad⟩ := hi.table.install_overflow (d := d) hslot (by omega)
  rw [hstep, hinstall] at hid
  exact hbad (hid (h, d) (by simp [HandleState.own])).resolves

/-- Every owned handle stays good along a run exactly when no slot is
allocated more often than a handle value can count. -/
theorem always_identity_iff (dup : δ → Bool) (ops : List (HandleOp δ)) :
    Always (step dup) Identity init ops ↔ Meets (step dup) (GenerationFits dup) init ops := by
  constructor
  · exact meets_of_always (fun s op hi hfit => hi.step op hfit)
      (fun s op hi hid => hi.step_bad op hid) Inv.init
  · intro h
    exact (always_of_meets (fun s op hi hfit => hi.step op hfit) Inv.init h).imp
      fun s hi => hi.identity

/-! ### A slot reused too often -/

/-- Add one dispatcher and drop its handle again, `n` times. -/
def churn (d : δ) : Nat → List (HandleOp δ)
  | 0 => []
  | n + 1 => churn d n ++ [.add d, .drop 0]

/-- One round on a table whose only slot is free. -/
theorem exec_round (dup : δ → Bool) (d : δ) {g : UInt32} (hg : g.toNat < 2 ^ 12 - 1)
    (closed : List δ) :
    exec (step dup) ⟨⟨[none], [g], [0]⟩, [], closed⟩ [.add d, .drop 0] =
      ⟨⟨[none], [g + 1], [0]⟩, [], closed ++ [d]⟩ := by
  have hadd : (g + 1).toNat = g.toNat + 1 := by
    rw [UInt32.toNat_add, UInt32.toNat_one, Nat.mod_eq_of_lt (by omega)]
  have hne : g + 1 ≠ 0 := by
    intro h
    simp [h] at hadd
  have hgen : encode 0 (g + 1) >>> slotBits = g + 1 := by
    apply UInt32.toNat_inj.mp
    rw [encode_generation (by decide), Nat.mod_eq_of_lt (by omega)]
  simp [step, TableInner.add, TableInner.install, TableInner.allocate,
    TableInner.bumpGeneration, TableInner.generationOf, TableInner.closeSlot, own, hne, hgen,
    bind, Except.bind, pure, Except.pure]

/-- After `n + 1` rounds the only slot is free again, its counter at `n + 1`. -/
theorem exec_churn (dup : δ → Bool) (d : δ) {n : Nat} (hn : n < 2 ^ 12 - 1) :
    ∃ closed, exec (step dup) init (churn d (n + 1)) =
      ⟨⟨[none], [UInt32.ofNat (n + 1)], [0]⟩, [], closed⟩ := by
  induction n with
  | zero =>
      refine ⟨[d], ?_⟩
      have hgen : encode 0 1 >>> slotBits = 1 := by decide
      simp [churn, init, TableInner.new, step, TableInner.add, TableInner.install,
        TableInner.allocate, maxSlots, TableInner.bumpGeneration, TableInner.generationOf,
        TableInner.closeSlot, own, hgen, bind, Except.bind, pure, Except.pure]
  | succ n ih =>
      obtain ⟨closed, hc⟩ := ih (by omega)
      have hn' : (UInt32.ofNat (n + 1)).toNat = n + 1 :=
        UInt32.toNat_ofNat_of_lt' (by simp only [UInt32.size]; omega)
      refine ⟨closed ++ [d], ?_⟩
      rw [churn, exec_append, hc, exec_round _ _ (by omega)]
      simp

/-- The 4096th allocation of a slot returns handle value 0, which does not
resolve. -/
theorem reuse_breaks_identity :
    ¬ Always (step fun _ => true) Identity (init : HandleState Unit)
      (churn () (2 ^ 12 - 1) ++ [.add ()]) := by
  refine mt Always.last ?_
  obtain ⟨closed, hc⟩ := exec_churn (fun _ : Unit => true) () (n := 2 ^ 12 - 2) (by decide)
  have hrounds : 2 ^ 12 - 2 + 1 = 2 ^ 12 - 1 := by decide
  have hvalue : encode 0 4096 = 0 := by decide
  rw [hrounds] at hc
  rw [exec_append, hc]
  intro hid
  exact (hid (⟨0, 0⟩, ()) (by simp [step, own, TableInner.add, TableInner.install,
    TableInner.allocate, TableInner.bumpGeneration, TableInner.generationOf, hvalue,
    bind, Except.bind, pure, Except.pure])).nonzero rfl

end HandleState

end MojoRs.Core
