/-
MojoRs/Core/StaleHandles.lean

What becomes of a handle value after it has been closed.  A run is any
sequence of `add`, `duplicate`, drop and `get`; since a `Handle` can be cloned,
duplicate and drop name any handle that was ever returned, closed or not.

The generation counter of a slot has 32 bits and a handle value has 12 for it,
so a value could come back.  It does not: the 4096th handle of a slot has the
generation bits 0, no close matches its entry, and its slot is never reused.

* `TableInner.Counted` says how entries, counters and free slots agree, and that
  no counter is past 4096;
* `ReuseState.Inv` adds the handles: each is made from a generation that its
  slot had, and no value that was closed matches the entry of its slot.

Main result: `stay_dead`.
-/
import MojoRs.Core.Handle
import MojoRs.Lib.Run

namespace MojoRs.Core

open Lib

variable {δ : Type}

/-! ### Runs -/

/-- The table, the handles returned so far, and the handles that were closed
and not returned again. -/
structure ReuseState (δ : Type) where
  table : TableInner δ
  returned : List Handle
  closed : List Handle
  deriving DecidableEq, Repr

/-- Operations; `duplicate` and `drop` name a returned handle by its
position. -/
inductive ReuseOp (δ : Type)
  | add (d : δ)
  | duplicate (k : Nat)
  | drop (k : Nat)
  | get (value : MojoHandleValue)
  deriving DecidableEq, Repr

namespace ReuseState

/-- A new table, no handle returned or closed. -/
def init : ReuseState δ := ⟨.new, [], []⟩

/-- A call that returns a handle, or fails. -/
def receive (s : ReuseState δ) : CoreResult (Handle × TableInner δ) → ReuseState δ
  | .ok (h, t) => ⟨t, s.returned ++ [h], s.closed.filter (·.value != h.value)⟩
  | .error _ => s

/-- One call on the table, with the handles that it returned and closed. -/
def step (dup : δ → Bool) (s : ReuseState δ) : ReuseOp δ → ReuseState δ
  | .add d => s.receive (s.table.add d)
  | .duplicate k =>
      match s.returned[k]? with
      | some h => s.receive (s.table.duplicate dup h.value)
      | none => s
  | .drop k =>
      match s.returned[k]? with
      | some h => ⟨(s.table.closeSlot h.slot h.value).1, s.returned, h :: s.closed⟩
      | none => s
  | .get _ => s

/-- A handle does nothing any more. -/
structure Dead (dup : δ → Bool) (t : TableInner δ) (h : Handle) : Prop where
  get : t.get h.value = .error .invalidArgument
  duplicate : t.duplicate dup h.value = .error .invalidArgument
  closeSlot : t.closeSlot h.slot h.value = (t, none)

/-- What was closed is dead, and no value was returned twice for a slot. -/
structure StaysDead (dup : δ → Bool) (s : ReuseState δ) : Prop where
  dead : ∀ h ∈ s.closed, Dead dup s.table h
  fresh : s.returned.Pairwise fun h h' => h.slot = h'.slot → h.value ≠ h'.value

end ReuseState

/-! ### Counters -/

namespace TableInner

/-- The generation that a slot has had last, 0 for a slot that does not exist
yet. -/
def lastGeneration (t : TableInner δ) (slot : UInt32) : Nat := (t.generationOf slot).toNat

/-- How the parts of a table agree. -/
structure Counted (t : TableInner δ) : Prop where
  lengths : t.generations.length = t.entries.length
  bound : t.entries.length ≤ maxSlots
  /-- A counter is the generation of the entry that is there. -/
  entry : ∀ (slot : UInt32) (e : Entry δ), t.entries[slot.toNat]? = some (some e) →
    e.generation = t.generationOf slot
  /-- No counter is past the first one that a value cannot hold. -/
  le : ∀ slot, t.lastGeneration slot ≤ 2 ^ 12
  /-- A slot that was freed has not got there. -/
  free : ∀ slot ∈ t.free, t.entries[slot.toNat]? = some none ∧ t.lastGeneration slot < 2 ^ 12
  nodup : t.free.Nodup

theorem Counted.new : Counted (TableInner.new : TableInner δ) := by
  constructor <;> simp [TableInner.new, lastGeneration, generationOf]

theorem Counted.slot_lt {t : TableInner δ} (hc : t.Counted) {slot : UInt32}
    {o : Option (Entry δ)} (h : t.entries[slot.toNat]? = some o) : slot.toNat < 2 ^ 20 :=
  Nat.lt_of_lt_of_le (List.getElem?_eq_some_iff.mp h).1 hc.bound

/-- A table with an empty slot that is not free any more. -/
structure Room (t : TableInner δ) (slot : UInt32) : Prop where
  counted : t.Counted
  empty : t.entries[slot.toNat]? = some none
  lt : t.lastGeneration slot < 2 ^ 12
  notFree : slot ∉ t.free

/-- A new slot behind the others. -/
def grow (t : TableInner δ) : TableInner δ :=
  { t with entries := t.entries ++ [none], generations := t.generations ++ [0] }

theorem Counted.reuse {t : TableInner δ} (hc : t.Counted) {slot : UInt32} {free : List UInt32}
    (hfree : t.free = slot :: free) : Room { t with free } slot := by
  have hslot := hc.free slot (hfree ▸ List.mem_cons_self)
  have hnodup := List.nodup_cons.mp (hfree ▸ hc.nodup)
  refine ⟨⟨hc.lengths, hc.bound, hc.entry, hc.le, ?_, hnodup.2⟩, hslot.1, hslot.2, hnodup.1⟩
  intro x hx
  exact hc.free x (hfree ▸ List.mem_cons_of_mem _ hx)

theorem generationOf_grow (t : TableInner δ) (slot : UInt32) :
    t.grow.generationOf slot = t.generationOf slot := by
  simp only [generationOf, grow, List.getD_eq_getElem?_getD, List.getElem?_append]
  split_ifs with h
  · rfl
  · rw [List.getElem?_eq_none (Nat.le_of_not_lt h)]
    cases slot.toNat - t.generations.length <;> rfl

theorem Counted.grow {t : TableInner δ} (hc : t.Counted) (hfree : t.free = [])
    (hroom : t.entries.length < maxSlots) :
    Room t.grow (UInt32.ofNat t.entries.length) := by
  have hslot : (UInt32.ofNat t.entries.length).toNat = t.entries.length :=
    UInt32.toNat_ofNat_of_lt' (Nat.lt_trans hroom (by decide))
  have hzero : t.lastGeneration (UInt32.ofNat t.entries.length) = 0 := by
    rw [lastGeneration, generationOf, hslot, ← hc.lengths]
    simp
  refine ⟨⟨?_, ?_, ?_, ?_, ?_, ?_⟩, ?_, ?_, ?_⟩
  · simp [TableInner.grow, hc.lengths]
  · simpa [TableInner.grow] using Nat.succ_le_of_lt hroom
  · intro slot e he
    rw [generationOf_grow]
    refine hc.entry slot e ?_
    simp only [TableInner.grow, List.getElem?_append] at he
    split_ifs at he with h
    · exact he
    · cases hi : slot.toNat - t.entries.length <;> simp [hi] at he
  · intro slot
    rw [lastGeneration, generationOf_grow]
    exact hc.le slot
  · simp [TableInner.grow, hfree]
  · simp [TableInner.grow, hfree]
  · rw [hslot]
    simp [TableInner.grow]
  · rw [lastGeneration, generationOf_grow]
    exact Nat.lt_of_le_of_lt (Nat.le_of_eq hzero) (by decide)
  · simp [TableInner.grow, hfree]

/-- The entry of a new handle. -/
def occupy (t : TableInner δ) (slot : UInt32) (d : δ) : TableInner δ :=
  let t := t.bumpGeneration slot
  { t with entries := t.entries.set slot.toNat (some ⟨d, t.generationOf slot⟩) }

/-- An allocation takes the first free slot, or adds one if there is none. -/
theorem install_cases {t t' : TableInner δ} {d : δ} {h : Handle} (hc : t.Counted)
    (heq : t.install d = .ok (h, t')) :
    ∃ t₁, Room t₁ h.slot ∧ t' = t₁.occupy h.slot d ∧
      h.value = encode h.slot (t'.generationOf h.slot) ∧
      (∀ slot, t₁.generationOf slot = t.generationOf slot) ∧
      ∀ (i : Nat) (e : Entry δ), t₁.entries[i]? = some (some e) → t.entries[i]? = some (some e) := by
  unfold install allocate at heq
  cases hfree : t.free with
  | cons slot free =>
      simp only [hfree, bind, Except.bind, pure, Except.pure, Except.ok.injEq,
        Prod.mk.injEq] at heq
      obtain ⟨rfl, rfl⟩ := heq
      exact ⟨_, hc.reuse hfree, rfl, rfl, fun _ => rfl, fun _ _ he => he⟩
  | nil =>
      by_cases hroom : t.entries.length ≥ maxSlots
      · simp only [hfree, if_pos hroom, bind, Except.bind] at heq
        cases heq
      · simp only [hfree, if_neg hroom, bind, Except.bind, pure, Except.pure, Except.ok.injEq,
          Prod.mk.injEq] at heq
        obtain ⟨rfl, rfl⟩ := heq
        have hgrow := hc.grow hfree (Nat.lt_of_not_le hroom)
        rw [grow, hfree] at hgrow
        refine ⟨_, hgrow, rfl, rfl, fun slot => ?_, fun i e he => ?_⟩
        · exact generationOf_grow t slot
        simp only [List.getElem?_append] at he
        split_ifs at he with h
        · exact he
        · cases hi : i - t.entries.length <;> simp [hi] at he

/-- The counter of the slot goes up by one, no other one changes. -/
theorem Room.lastGeneration_occupy {t : TableInner δ} {slot : UInt32} (hr : Room t slot) (d : δ)
    (x : UInt32) : (t.occupy slot d).lastGeneration x =
      if x = slot then t.lastGeneration slot + 1 else t.lastGeneration x := by
  have hrange : slot.toNat < t.generations.length := by
    rw [hr.counted.lengths]
    exact (List.getElem?_eq_some_iff.mp hr.empty).1
  have hlt : (t.generationOf slot).toNat < 2 ^ 12 := hr.lt
  have hadd : (t.generationOf slot + 1).toNat = (t.generationOf slot).toNat + 1 := by
    rw [UInt32.toNat_add, UInt32.toNat_one, Nat.mod_eq_of_lt (by omega)]
  have hne : t.generationOf slot + 1 ≠ 0 := by
    intro h
    simp [h] at hadd
  simp only [lastGeneration, occupy, bumpGeneration, if_neg hne]
  split_ifs with hx
  · subst hx
    rw [← hadd]
    simp [generationOf, hrange]
  · have htoNat : slot.toNat ≠ x.toNat := fun h => hx (UInt32.toNat_inj.mp h.symm)
    simp [generationOf, List.getD_eq_getElem?_getD, List.getElem?_set_ne htoNat]

theorem occupy_entries_ne {t : TableInner δ} {slot : UInt32} {i : Nat} (d : δ)
    (h : slot.toNat ≠ i) : (t.occupy slot d).entries[i]? = t.entries[i]? :=
  List.getElem?_set_ne h

theorem Room.occupy_entries {t : TableInner δ} {slot : UInt32} (hr : Room t slot) (d : δ) :
    (t.occupy slot d).entries[slot.toNat]? =
      some (some ⟨d, (t.occupy slot d).generationOf slot⟩) := by
  have hrange := (List.getElem?_eq_some_iff.mp hr.empty).1
  simp only [occupy, bumpGeneration, List.getElem?_set_self hrange]
  rfl

theorem Room.occupy {t : TableInner δ} {slot : UInt32} (hr : Room t slot) (d : δ) :
    (t.occupy slot d).Counted := by
  have hc := hr.counted
  have hlast := hr.lastGeneration_occupy d
  refine ⟨?_, ?_, ?_, ?_, ?_, hc.nodup⟩
  · simpa [TableInner.occupy, bumpGeneration] using hc.lengths
  · simpa [TableInner.occupy, bumpGeneration] using hc.bound
  · intro x e he
    by_cases hx : x = slot
    · subst hx
      rw [hr.occupy_entries d] at he
      injection he with he
      injection he with he
      exact (congrArg Entry.generation he).symm
    · rw [occupy_entries_ne d fun h => hx (UInt32.toNat_inj.mp h.symm)] at he
      apply UInt32.toNat_inj.mp
      have := hlast x
      rw [if_neg hx] at this
      rw [hc.entry x e he]
      exact this.symm
  · intro x
    rw [hlast x]
    split_ifs
    · exact hr.lt
    · exact hc.le x
  · intro x hx
    have hne : x ≠ slot := fun h => hr.notFree (h ▸ hx)
    rw [occupy_entries_ne d fun h => hne (UInt32.toNat_inj.mp h.symm), hlast x, if_neg hne]
    exact hc.free x hx

/-! ### Closing -/

/-- A value is alive if the entry of its slot has its generation bits. -/
def Alive (t : TableInner δ) (h : Handle) : Prop :=
  ∃ e, t.entries[h.slot.toNat]? = some (some e) ∧ e.generation = h.value >>> slotBits

/-- Closing removes the entry of a live value, which then is free, and of no
other one. -/
theorem closeSlot_cases (t : TableInner δ) (h : Handle) :
    t.Alive h ∧ (t.closeSlot h.slot h.value).1 =
        { t with entries := t.entries.set h.slot.toNat none, free := h.slot :: t.free } ∨
      ¬ t.Alive h ∧ t.closeSlot h.slot h.value = (t, none) := by
  unfold closeSlot Alive
  rcases hentry : t.entries[h.slot.toNat]? with - | - | e
  · exact .inr ⟨by simp, rfl⟩
  · exact .inr ⟨by simp, rfl⟩
  · by_cases hg : e.generation = h.value >>> slotBits
    · exact .inl ⟨⟨e, rfl, hg⟩, by simp [hg]⟩
    · refine .inr ⟨?_, by simp [hg]⟩
      rintro ⟨e', he', hg'⟩
      injection he' with he'
      injection he' with he'
      exact hg (he' ▸ hg')

/-- The slot of a live value has not had its 4096th handle. -/
theorem Counted.close {t : TableInner δ} (hc : t.Counted) {h : Handle} (halive : t.Alive h) :
    Counted { t with entries := t.entries.set h.slot.toNat none, free := h.slot :: t.free } := by
  obtain ⟨e, hentry, hgen⟩ := halive
  have hrange := (List.getElem?_eq_some_iff.mp hentry).1
  have hlt : t.lastGeneration h.slot < 2 ^ 12 := by
    have hbits : (slotBits.toNat % 32) = 20 := by decide
    have hvalue := h.value.toNat_lt
    rw [lastGeneration, ← hc.entry _ _ hentry, hgen, UInt32.toNat_shiftRight, hbits,
      Nat.shiftRight_eq_div_pow]
    omega
  have hfree : h.slot ∉ t.free := by
    intro hmem
    have := (hc.free _ hmem).1
    rw [hentry] at this
    cases this
  refine ⟨?_, ?_, ?_, hc.le, ?_, List.nodup_cons.mpr ⟨hfree, hc.nodup⟩⟩
  · simpa using hc.lengths
  · simpa using hc.bound
  · intro x e' he'
    have hx : h.slot.toNat ≠ x.toNat := by
      intro hx
      simp [← hx, hrange] at he'
    simp only [List.getElem?_set_ne hx] at he'
    exact hc.entry x e' he'
  · intro x hx
    rcases List.mem_cons.mp hx with rfl | hx
    · exact ⟨by simp [hrange], hlt⟩
    · have hne : h.slot.toNat ≠ x.toNat := fun hs => hfree (UInt32.toNat_inj.mp hs ▸ hx)
      simp only [List.getElem?_set_ne hne]
      exact hc.free x hx

end TableInner

/-! ### The invariant of a run -/

namespace ReuseState

/-- A handle made from a generation that its slot has had. -/
structure Issued (t : TableInner δ) (h : Handle) (g : UInt32) : Prop where
  value : h.value = encode h.slot g
  slot_lt : h.slot.toNat < 2 ^ 20
  pos : 0 < g.toNat
  le : g.toNat ≤ t.lastGeneration h.slot

/-- What holds of the table and of the handles it has returned. -/
structure Inv (s : ReuseState δ) : Prop where
  table : s.table.Counted
  issued : ∀ h ∈ s.returned, ∃ g, Issued s.table h g
  fresh : s.returned.Pairwise fun h h' => h.slot = h'.slot → h.value ≠ h'.value
  closed : ∀ h ∈ s.closed, h ∈ s.returned ∧ ¬ s.table.Alive h

theorem Inv.init : Inv (ReuseState.init : ReuseState δ) :=
  ⟨.new, by simp [ReuseState.init], by simp [ReuseState.init], by simp [ReuseState.init]⟩

/-- Only the first 4096 generations of a slot are issued, and those have
different values. -/
theorem Issued.ne {t : TableInner δ} {h h' : Handle} {g g' : UInt32} (hh : Issued t h g)
    (hv' : h'.value = encode h'.slot g') (hslot : h.slot = h'.slot) (hlt : g.toNat < g'.toNat)
    (hle : g'.toNat ≤ 2 ^ 12) : h.value ≠ h'.value := by
  intro heq
  have hpos := hh.pos
  have hbits : (encode h.slot g >>> slotBits).toNat = (encode h'.slot g' >>> slotBits).toNat := by
    rw [← hh.value, ← hv', heq]
  rw [encode_generation hh.slot_lt, encode_generation (hslot ▸ hh.slot_lt)] at hbits
  omega

/-- The generation bits of an issued value are not past its generation. -/
theorem Issued.bits_le {t : TableInner δ} {h : Handle} {g : UInt32} (hh : Issued t h g) :
    (h.value >>> slotBits).toNat ≤ g.toNat := by
  rw [hh.value, encode_generation hh.slot_lt]
  exact Nat.mod_le _ _

theorem Issued.dead {dup : δ → Bool} {t : TableInner δ} {h : Handle} {g : UInt32}
    (hh : Issued t h g) (hdead : ¬ t.Alive h) : Dead dup t h := by
  have hget : t.get h.value = .error .invalidArgument := by
    unfold TableInner.get
    split_ifs
    · rfl
    · rw [hh.value, encode_slot hh.slot_lt, ← hh.value]
      dsimp only
      rcases hentry : t.entries[h.slot.toNat]? with - | - | e
      · rfl
      · rfl
      · have hne : e.generation ≠ h.value >>> slotBits := fun hg => hdead ⟨e, hentry, hg⟩
        exact if_pos hne
  refine ⟨hget, ?_, ?_⟩
  · simp only [TableInner.duplicate, hget]
    rfl
  · exact ((t.closeSlot_cases h).resolve_left fun hl => hdead hl.1).2

theorem Inv.staysDead {dup : δ → Bool} {s : ReuseState δ} (hi : s.Inv) : s.StaysDead dup := by
  refine ⟨fun h hh => ?_, hi.fresh⟩
  obtain ⟨hmem, hdead⟩ := hi.closed h hh
  obtain ⟨g, hg⟩ := hi.issued h hmem
  exact hg.dead hdead

/-- A handle that an allocation returns is new, and brings no closed one back
to life. -/
theorem Inv.receive {s : ReuseState δ} (hi : s.Inv) (d : δ) :
    (s.receive (s.table.install d)).Inv := by
  rcases e : s.table.install d with - | ⟨h, t⟩
  · exact hi
  obtain ⟨t₁, hroom, rfl, hvalue, hgens, hentries⟩ := TableInner.install_cases hi.table e
  have hlast := hroom.lastGeneration_occupy d
  have hsame (x : UInt32) : t₁.lastGeneration x = s.table.lastGeneration x := by
    rw [TableInner.lastGeneration, hgens]
    rfl
  have hself := hlast h.slot
  rw [if_pos rfl, hsame] at hself
  have hslot := hroom.counted.slot_lt hroom.empty
  have hle := hroom.occupy d |>.le h.slot
  -- every older handle of the slot is from an earlier generation
  have hlater : ∀ {h₀ g₀}, Issued s.table h₀ g₀ → h₀.slot = h.slot →
      g₀.toNat < ((t₁.occupy h.slot d).generationOf h.slot).toNat := by
    intro h₀ g₀ hg₀ hs
    have := hg₀.le
    rw [hs] at this
    exact Nat.lt_of_le_of_lt this (Nat.lt_of_lt_of_eq (Nat.lt_succ_self _) hself.symm)
  refine ⟨hroom.occupy d, ?_, ?_, ?_⟩
  · intro h₀ hh₀
    rcases List.mem_append.mp hh₀ with hh₀ | hh₀
    · obtain ⟨g₀, hg₀⟩ := hi.issued h₀ hh₀
      refine ⟨g₀, hg₀.value, hg₀.slot_lt, hg₀.pos, Nat.le_trans hg₀.le ?_⟩
      show _ ≤ (t₁.occupy h.slot d).lastGeneration h₀.slot
      rw [hlast, hsame]
      split_ifs with hs
      · rw [hs]
        exact Nat.le_succ _
      · exact Nat.le_of_eq (hsame _).symm
    · obtain rfl := List.mem_singleton.mp hh₀
      refine ⟨_, hvalue, hslot, ?_, Nat.le_refl _⟩
      exact Nat.lt_of_lt_of_eq (Nat.succ_pos _) hself.symm
  · refine List.pairwise_append.mpr ⟨hi.fresh, List.pairwise_singleton _ _, ?_⟩
    intro h₀ hh₀ h' hh' hs
    obtain rfl := List.mem_singleton.mp hh'
    obtain ⟨g₀, hg₀⟩ := hi.issued h₀ hh₀
    exact hg₀.ne hvalue hs (hlater hg₀ hs) hle
  · intro h₀ hh₀
    obtain ⟨hh₀, -⟩ := List.mem_filter.mp hh₀
    obtain ⟨hmem, hdead⟩ := hi.closed h₀ hh₀
    refine ⟨List.mem_append_left _ hmem, ?_⟩
    rintro ⟨e', he', hgen⟩
    obtain ⟨g₀, hg₀⟩ := hi.issued h₀ hmem
    by_cases hs : h₀.slot = h.slot
    · rw [hs, show (ReuseState.receive s (.ok (h, t₁.occupy h.slot d))).table.entries[h.slot.toNat]? =
        _ from hroom.occupy_entries d] at he'
      injection he' with he'
      injection he' with he'
      have hbits := hg₀.bits_le
      rw [← hgen, ← he'] at hbits
      exact Nat.lt_irrefl _ (Nat.lt_of_le_of_lt hbits (hlater hg₀ hs))
    · have hne : h.slot.toNat ≠ h₀.slot.toNat := fun h' => hs (UInt32.toNat_inj.mp h'.symm)
      rw [show (ReuseState.receive s (.ok (h, t₁.occupy h.slot d))).table.entries[h₀.slot.toNat]? =
        _ from TableInner.occupy_entries_ne d hne] at he'
      exact hdead ⟨e', hentries _ _ he', hgen⟩

theorem Inv.drop {dup : δ → Bool} {s : ReuseState δ} (hi : s.Inv) (k : Nat) :
    (s.step dup (.drop k)).Inv := by
  rcases e : s.returned[k]? with - | h
  · simpa [ReuseState.step, e] using hi
  have hmem := List.mem_of_getElem? e
  simp only [ReuseState.step, e]
  rcases s.table.closeSlot_cases h with ⟨halive, hclose⟩ | ⟨hdead, hclose⟩
  · rw [hclose]
    have hrange : h.slot.toNat < s.table.entries.length := by
      obtain ⟨e, he, -⟩ := halive
      exact (List.getElem?_eq_some_iff.mp he).1
    refine ⟨hi.table.close halive, fun h₀ hh₀ => ?_, hi.fresh, ?_⟩
    · obtain ⟨g₀, hg₀⟩ := hi.issued h₀ hh₀
      exact ⟨g₀, hg₀.value, hg₀.slot_lt, hg₀.pos, hg₀.le⟩
    rintro h₀ hh₀
    have hh₀' : h₀ ∈ s.returned ∧ (h₀ = h ∨ ¬ s.table.Alive h₀) := by
      rcases List.mem_cons.mp hh₀ with rfl | hh₀
      · exact ⟨hmem, .inl rfl⟩
      · exact ⟨(hi.closed h₀ hh₀).1, .inr (hi.closed h₀ hh₀).2⟩
    refine ⟨hh₀'.1, ?_⟩
    rintro ⟨e', he', hgen⟩
    by_cases hs : h.slot.toNat = h₀.slot.toNat
    · simp [← hs, hrange] at he'
    · rcases hh₀'.2 with rfl | hdead
      · exact hs rfl
      · simp only [List.getElem?_set_ne hs] at he'
        exact hdead ⟨e', he', hgen⟩
  · rw [hclose]
    refine ⟨hi.table, hi.issued, hi.fresh, ?_⟩
    intro h₀ hh₀
    rcases List.mem_cons.mp hh₀ with rfl | hh₀
    · exact ⟨hmem, hdead⟩
    · exact hi.closed h₀ hh₀

theorem Inv.step {dup : δ → Bool} {s : ReuseState δ} (hi : s.Inv) (op : ReuseOp δ) :
    (s.step dup op).Inv := by
  cases op with
  | add d => exact hi.receive d
  | get value => exact hi
  | drop k => exact hi.drop k
  | duplicate k =>
      rcases e : s.returned[k]? with - | h
      · simpa [ReuseState.step, e] using hi
      simp only [ReuseState.step, e, TableInner.duplicate]
      rcases hget : s.table.get h.value with err | d
      · exact hi
      · cases hdup : dup d with
        | false =>
            simp only [hdup, bind, Except.bind]
            exact hi
        | true =>
            simp only [hdup, bind, Except.bind]
            exact hi.receive d

/-- A value that was closed stays dead, and no slot ever returns the same value
again. -/
theorem stay_dead (dup : δ → Bool) (ops : List (ReuseOp δ)) :
    Always (step dup) (StaysDead dup) init ops :=
  (always_of_step (fun _ op hi => hi.step op) Inv.init ops).imp fun _ hi => hi.staysDead

end ReuseState

end MojoRs.Core
