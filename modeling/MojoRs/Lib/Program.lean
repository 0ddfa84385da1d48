/-
MojoRs/Lib/Program.lean

Programs over a memory that others may write.  A memory has several parts, each
under a key, and a program accesses it a few bytes at a time: it loads bytes, or
replaces them in one step by what a function makes of them.  Beside that it may
state that a number lies in a range, where the machine would wrap or leave an
array; the program goes on with the number as it is.

* `Execution p events r` — a way in which `p` may go, whatever it finds at its
  accesses: the events it goes through, and its result, unless a loop of it has
  not come to an end.
* `run p m` — `p` on a memory that nobody else changes.

A run is an execution, and it leaves every byte alone that no write of the
execution covers (`run_execution`); so a bound on what a program may write
(`Emits`) is a frame rule (`run_frame`).

Main results: `execution_bind`, `run_execution`, `run_frame`.
-/
import Mathlib.Data.List.Basic
import Mathlib.Algebra.Ring.Nat

namespace MojoRs.Lib

/-- What a program goes through: an access to `len` bytes at an offset, and
what it found there, or a number `x` that is to satisfy `lo ≤ x < hi`. -/
inductive Event (ω κ : Type)
  | read (label : ω) (key : κ) (off len : Nat) (found : List UInt8)
  | write (label : ω) (key : κ) (off len : Nat) (found stored : List UInt8)
  | fits (x lo hi : Int)
  deriving DecidableEq, Repr

/-- A program that returns an `α` or fails; `stuck` is a loop that goes on. -/
inductive Prog (ω κ ε α : Type)
  | done (r : Except ε α)
  | stuck
  | fits (x lo hi : Int) (p : Prog ω κ ε α)
  | load (label : ω) (key : κ) (off len : Nat) (k : List UInt8 → Prog ω κ ε α)
  | update (label : ω) (key : κ) (off len : Nat) (f : List UInt8 → List UInt8)
      (k : List UInt8 → Prog ω κ ε α)

variable {ω κ ε α β : Type}

/-- A write that covers a byte. -/
def Event.Covers (key : κ) (i : Nat) : Event ω κ → Prop
  | .write _ key' off _ _ stored => key = key' ∧ off ≤ i ∧ i < off + stored.length
  | _ => False

/-- A write of as many bytes as it names. -/
def Event.Whole : Event ω κ → Prop
  | .write _ _ _ len _ stored => stored.length = len
  | _ => True

namespace Prog

/-- A program after another one. -/
def bind : Prog ω κ ε α → (α → Prog ω κ ε β) → Prog ω κ ε β
  | done (.ok a), g => g a
  | done (.error e), _ => done (.error e)
  | stuck, _ => stuck
  | fits x lo hi p, g => fits x lo hi (p.bind g)
  | load label key off len k, g => load label key off len fun found => (k found).bind g
  | update label key off len f k, g => update label key off len f fun found => (k found).bind g

instance : Monad (Prog ω κ ε) where
  pure a := done (.ok a)
  bind := bind

/-- A computation without an access. -/
def lift (x : Except ε α) : Prog ω κ ε α := done x

/-- State that `lo ≤ x < hi`. -/
def check (x lo hi : Int) : Prog ω κ ε Unit := fits x lo hi (pure ())

/-- Read bytes of a region. -/
def loadBytes (label : ω) (key : κ) (off len : Nat) : Prog ω κ ε (List UInt8) :=
  load label key off len pure

/-- Replace `len` bytes by what `f` makes of them, and return what was there. -/
def updateBytes (label : ω) (key : κ) (off len : Nat) (f : List UInt8 → List UInt8) :
    Prog ω κ ε (List UInt8) :=
  update label key off len f pure

/-- Write bytes to a region. -/
def storeBytes (label : ω) (key : κ) (off : Nat) (bytes : List UInt8) : Prog ω κ ε Unit :=
  update label key off bytes.length (fun _ => bytes) fun _ => pure ()

/-! ### Executions -/

/-- A way for a program to go. -/
inductive Execution : Prog ω κ ε α → List (Event ω κ) → Option (Except ε α) → Prop
  | done (r : Except ε α) : Execution (done r) [] (some r)
  | stuck : Execution stuck [] none
  | fits {x lo hi : Int} {p : Prog ω κ ε α} {es r} (h : Execution p es r) :
      Execution (fits x lo hi p) (.fits x lo hi :: es) r
  | load {label key off len k found es r} (hlen : found.length = len)
      (h : Execution (k found) es r) :
      Execution (load label key off len k) (.read label key off len found :: es) r
  | update {label key off len f k found es r} (hlen : found.length = len)
      (h : Execution (k found) es r) :
      Execution (update label key off len f k)
        (.write label key off len found (f found) :: es) r

/-- An execution of a sequence: of its first part alone, if that fails or does
not come to an end, else of the one and then the other. -/
theorem execution_bind {p : Prog ω κ ε α} {g : α → Prog ω κ ε β} {es r}
    (h : Execution (p >>= g) es r) :
    (∃ es₁ es₂ a, Execution p es₁ (some (.ok a)) ∧ Execution (g a) es₂ r ∧ es = es₁ ++ es₂) ∨
      (Execution p es none ∧ r = none) ∨
      ∃ e, Execution p es (some (.error e)) ∧ r = some (.error e) := by
  change Execution (p.bind g) es r at h
  induction p generalizing es with
  | done res =>
      cases res with
      | ok a => exact .inl ⟨[], es, a, .done _, h, rfl⟩
      | error e =>
          cases h
          exact .inr (.inr ⟨e, .done _, rfl⟩)
  | stuck =>
      cases h
      exact .inr (.inl ⟨.stuck, rfl⟩)
  | fits x lo hi p ih =>
      cases h with
      | fits h =>
          rcases ih h with ⟨es₁, es₂, a, h₁, h₂, rfl⟩ | ⟨h₁, hr⟩ | ⟨e, h₁, hr⟩
          · exact .inl ⟨_, es₂, a, .fits h₁, h₂, rfl⟩
          · exact .inr (.inl ⟨.fits h₁, hr⟩)
          · exact .inr (.inr ⟨e, .fits h₁, hr⟩)
  | load label key off len k ih =>
      cases h with
      | load hlen h =>
          rcases ih _ h with ⟨es₁, es₂, a, h₁, h₂, rfl⟩ | ⟨h₁, hr⟩ | ⟨e, h₁, hr⟩
          · exact .inl ⟨_, es₂, a, .load hlen h₁, h₂, rfl⟩
          · exact .inr (.inl ⟨.load hlen h₁, hr⟩)
          · exact .inr (.inr ⟨e, .load hlen h₁, hr⟩)
  | update label key off len f k ih =>
      cases h with
      | update hlen h =>
          rcases ih _ h with ⟨es₁, es₂, a, h₁, h₂, rfl⟩ | ⟨h₁, hr⟩ | ⟨e, h₁, hr⟩
          · exact .inl ⟨_, es₂, a, .update hlen h₁, h₂, rfl⟩
          · exact .inr (.inl ⟨.update hlen h₁, hr⟩)
          · exact .inr (.inr ⟨e, .update hlen h₁, hr⟩)

section Inversion

variable {g : β → Prog ω κ ε α} {es : List (Event ω κ)} {r : Option (Except ε α)}

theorem execution_check_bind {x lo hi : Int} {g : Unit → Prog ω κ ε α}
    (h : Execution (check x lo hi >>= g) es r) :
    ∃ es', es = .fits x lo hi :: es' ∧ Execution (g ()) es' r := by
  cases (h : Execution (fits x lo hi (g ())) es r) with
  | fits h => exact ⟨_, rfl, h⟩

theorem execution_loadBytes_bind {label : ω} {key : κ} {off len : Nat}
    {g : List UInt8 → Prog ω κ ε α} (h : Execution (loadBytes label key off len >>= g) es r) :
    ∃ found es', es = .read label key off len found :: es' ∧ Execution (g found) es' r := by
  cases (h : Execution (load label key off len g) es r) with
  | load _ h => exact ⟨_, _, rfl, h⟩

theorem execution_updateBytes_bind {label : ω} {key : κ} {off len : Nat}
    {f : List UInt8 → List UInt8} {g : List UInt8 → Prog ω κ ε α}
    (h : Execution (updateBytes label key off len f >>= g) es r) :
    ∃ found es', es = .write label key off len found (f found) :: es' ∧
      Execution (g found) es' r := by
  cases (h : Execution (update label key off len f g) es r) with
  | update _ h => exact ⟨_, _, rfl, h⟩

theorem execution_storeBytes_bind {label : ω} {key : κ} {off : Nat} {bytes : List UInt8}
    {g : Unit → Prog ω κ ε α} (h : Execution (storeBytes label key off bytes >>= g) es r) :
    ∃ found es', es = .write label key off bytes.length found bytes :: es' ∧
      Execution (g ()) es' r := by
  cases (h : Execution (update label key off bytes.length (fun _ => bytes) fun _ => g ()) es r) with
  | update _ h => exact ⟨_, _, rfl, h⟩

end Inversion

/-- A program can go some way, whatever it is. -/
theorem exists_execution (p : Prog ω κ ε α) : ∃ es r, Execution p es r := by
  induction p with
  | done r => exact ⟨_, _, .done r⟩
  | stuck => exact ⟨_, _, .stuck⟩
  | fits x lo hi p ih =>
      obtain ⟨es, r, h⟩ := ih
      exact ⟨_, _, .fits h⟩
  | load label key off len k ih =>
      obtain ⟨es, r, h⟩ := ih (List.replicate len 0)
      exact ⟨_, _, .load List.length_replicate h⟩
  | update label key off len f k ih =>
      obtain ⟨es, r, h⟩ := ih (List.replicate len 0)
      exact ⟨_, _, .update List.length_replicate h⟩

/-! ### Bounds on events -/

/-- Every event of every execution satisfies `P`. -/
def Emits (P : Event ω κ → Prop) (p : Prog ω κ ε α) : Prop :=
  ∀ es r, Execution p es r → ∀ ev ∈ es, P ev

section Emits

variable {P Q : Event ω κ → Prop} {p : Prog ω κ ε α} {g : α → Prog ω κ ε β}

theorem emits_lift (x : Except ε α) : Emits P (lift x : Prog ω κ ε α) := by
  rintro es r ⟨⟩
  exact List.forall_mem_nil _

theorem emits_pure (a : α) : Emits P (pure a : Prog ω κ ε α) := emits_lift (.ok a)

theorem emits_stuck : Emits P (stuck : Prog ω κ ε α) := by
  rintro es r ⟨⟩
  exact List.forall_mem_nil _

theorem Emits.mono (hPQ : ∀ ev, P ev → Q ev) (h : Emits P p) : Emits Q p :=
  fun es r hrun ev hev => hPQ ev (h es r hrun ev hev)

theorem Emits.and (h : Emits P p) (h' : Emits Q p) : Emits (fun ev => P ev ∧ Q ev) p :=
  fun es r hrun ev hev => ⟨h es r hrun ev hev, h' es r hrun ev hev⟩

theorem Emits.bind (h : Emits P p) (hg : ∀ a, Emits P (g a)) : Emits P (p >>= g) := by
  intro es r hrun
  rcases execution_bind hrun with ⟨es₁, es₂, a, h₁, h₂, rfl⟩ | ⟨h₁, -⟩ | ⟨e, h₁, -⟩
  · exact List.forall_mem_append.mpr ⟨h _ _ h₁, hg a _ _ h₂⟩
  · exact h _ _ h₁
  · exact h _ _ h₁

/-- Only results matter that the first part may have. -/
theorem Emits.lift_bind {x : Except ε α} (hg : ∀ a, x = .ok a → Emits P (g a)) :
    Emits P (lift x >>= g) := by
  cases x with
  | ok a => exact hg a rfl
  | error e => exact emits_lift _

theorem emits_loadBytes {label : ω} {key : κ} {off len : Nat}
    (h : ∀ found, P (.read label key off len found)) :
    Emits P (loadBytes label key off len : Prog ω κ ε _) := by
  rintro es r ⟨⟩
  rename_i found es hlen hrest
  cases hrest
  exact List.forall_mem_singleton.mpr (h found)

theorem emits_updateBytes {label : ω} {key : κ} {off len : Nat}
    {f : List UInt8 → List UInt8}
    (h : ∀ found, found.length = len → P (.write label key off len found (f found))) :
    Emits P (updateBytes label key off len f : Prog ω κ ε _) := by
  rintro es r ⟨⟩
  rename_i found es hlen hrest
  cases hrest
  exact List.forall_mem_singleton.mpr (h found hlen)

theorem emits_storeBytes {label : ω} {key : κ} {off : Nat} {bytes : List UInt8}
    (h : ∀ found, P (.write label key off bytes.length found bytes)) :
    Emits P (storeBytes label key off bytes : Prog ω κ ε _) := by
  rintro es r ⟨⟩
  rename_i found es hlen hrest
  cases hrest
  exact List.forall_mem_singleton.mpr (h found)

end Emits

end Prog

/-! ### Runs on a memory -/

/-- The bytes of each part. -/
abbrev Memory (κ : Type) := κ → Nat → UInt8

namespace Memory

/-- The bytes of a region. -/
def bytesAt (m : Memory κ) (key : κ) (off len : Nat) : List UInt8 :=
  (List.range len).map fun i => m key (off + i)

/-- A region after a write. -/
def putBytes [DecidableEq κ] (m : Memory κ) (key : κ) (off : Nat) (bytes : List UInt8) :
    Memory κ :=
  fun key' i =>
    if key' = key ∧ off ≤ i ∧ i < off + bytes.length then bytes.getD (i - off) 0 else m key' i

@[simp] theorem length_bytesAt (m : Memory κ) (key : κ) (off len : Nat) :
    (m.bytesAt key off len).length = len := by
  rw [bytesAt, List.length_map, List.length_range]

theorem bytesAt_congr {m m' : Memory κ} {key : κ} {off len : Nat}
    (h : ∀ i, off ≤ i → i < off + len → m key i = m' key i) :
    m.bytesAt key off len = m'.bytesAt key off len := by
  apply List.map_congr_left
  intro i hi
  have hlt := List.mem_range.mp hi
  exact h (off + i) (Nat.le_add_right _ _) (Nat.add_lt_add_left hlt off)

variable [DecidableEq κ]

theorem putBytes_of_not_mem {m : Memory κ} {key key' : κ} {off i : Nat} {bytes : List UInt8}
    (h : ¬(key' = key ∧ off ≤ i ∧ i < off + bytes.length)) :
    m.putBytes key off bytes key' i = m key' i := if_neg h

/-- What was put is there. -/
theorem bytesAt_putBytes (m : Memory κ) (key : κ) (off : Nat) (bytes : List UInt8) :
    (m.putBytes key off bytes).bytesAt key off bytes.length = bytes := by
  refine List.ext_getElem (length_bytesAt ..) fun i hi hi' => ?_
  simp only [bytesAt, List.getElem_map, List.getElem_range]
  rw [putBytes, if_pos ⟨rfl, Nat.le_add_right _ _, Nat.add_lt_add_left hi' off⟩,
    Nat.add_sub_cancel_left]
  exact (List.getElem_eq_getD 0).symm

/-- Putting back what is there changes nothing. -/
theorem putBytes_bytesAt (m : Memory κ) (key : κ) (off len : Nat) :
    m.putBytes key off (m.bytesAt key off len) = m := by
  funext key' i
  by_cases h : key' = key ∧ off ≤ i ∧ i < off + (m.bytesAt key off len).length
  · obtain ⟨rfl, hlo, hhi⟩ := id h
    have hlen : i - off < (m.bytesAt key' off len).length := by omega
    rw [putBytes, if_pos h, ← List.getElem_eq_getD (h := hlen) 0]
    simp only [bytesAt, List.getElem_map, List.getElem_range]
    rw [Nat.add_sub_cancel' hlo]
  · exact putBytes_of_not_mem h

theorem putBytes_putBytes (m : Memory κ) (key : κ) (off : Nat) (bytes : List UInt8) :
    (m.putBytes key off bytes).putBytes key off bytes = m.putBytes key off bytes := by
  funext key' i
  by_cases h : key' = key ∧ off ≤ i ∧ i < off + bytes.length
  · rw [putBytes, putBytes, if_pos h, if_pos h]
  · exact putBytes_of_not_mem h

/-- The rest is as it was. -/
theorem bytesAt_putBytes_of_disjoint (m : Memory κ) {key key' : κ} {off off' len : Nat}
    {bytes : List UInt8} (h : key' ≠ key ∨ off' + len ≤ off ∨ off + bytes.length ≤ off') :
    (m.putBytes key off bytes).bytesAt key' off' len = m.bytesAt key' off' len := by
  apply bytesAt_congr
  intro i hlo hhi
  apply putBytes_of_not_mem
  rintro ⟨rfl, hle, hlt⟩
  rcases h with h | h | h
  · exact h rfl
  · omega
  · omega

end Memory

namespace Prog

section Run

variable [DecidableEq κ]

/-- The result of a program, if it comes to an end, and the memory after it. -/
def run : Prog ω κ ε α → Memory κ → Option (Except ε α) × Memory κ
  | done r, m => (some r, m)
  | stuck, m => (none, m)
  | fits _ _ _ p, m => p.run m
  | load _ key off len k, m => (k (m.bytesAt key off len)).run m
  | update _ key off len f k, m =>
      let found := m.bytesAt key off len
      (k found).run (m.putBytes key off (f found))

@[simp] theorem run_loadBytes_bind (label : ω) (key : κ) (off len : Nat)
    (g : List UInt8 → Prog ω κ ε β) (m : Memory κ) :
    (loadBytes label key off len >>= g).run m = (g (m.bytesAt key off len)).run m := rfl

theorem run_bind {p : Prog ω κ ε α} {g : α → Prog ω κ ε β} {m m' : Memory κ} {a : α}
    (h : p.run m = (some (.ok a), m')) : (p >>= g).run m = (g a).run m' := by
  show (p.bind g).run m = _
  induction p generalizing m with
  | done r =>
      injection h with hr hm
      obtain rfl := Option.some.inj hr
      rw [hm]
      rfl
  | stuck => injection h with hr; cases hr
  | fits x lo hi p ih => exact ih h
  | load label key off len k ih => exact ih _ h
  | update label key off len f k ih => exact ih _ h

theorem run_bind_error {p : Prog ω κ ε α} {g : α → Prog ω κ ε β} {m m' : Memory κ} {e : ε}
    (h : p.run m = (some (.error e), m')) : (p >>= g).run m = (some (.error e), m') := by
  show (p.bind g).run m = _
  induction p generalizing m with
  | done r =>
      injection h with hr hm
      obtain rfl := Option.some.inj hr
      rw [hm]
      rfl
  | stuck => injection h with hr; cases hr
  | fits x lo hi p ih => exact ih h
  | load label key off len k ih => exact ih _ h
  | update label key off len f k ih => exact ih _ h

theorem run_bind_stuck {p : Prog ω κ ε α} {g : α → Prog ω κ ε β} {m m' : Memory κ}
    (h : p.run m = (none, m')) : (p >>= g).run m = (none, m') := by
  show (p.bind g).run m = _
  induction p generalizing m with
  | done r => injection h with hr; cases hr
  | stuck =>
      injection h with _ hm
      rw [hm]
      rfl
  | fits x lo hi p ih => exact ih h
  | load label key off len k ih => exact ih _ h
  | update label key off len f k ih => exact ih _ h

/-- A run is an execution, and changes what its writes cover. -/
theorem run_execution (p : Prog ω κ ε α) (m : Memory κ) :
    ∃ es, Execution p es (p.run m).1 ∧
      ∀ key i, (∀ ev ∈ es, ¬ev.Covers key i) → (p.run m).2 key i = m key i := by
  induction p generalizing m with
  | done r => exact ⟨[], .done r, fun _ _ _ => rfl⟩
  | stuck => exact ⟨[], .stuck, fun _ _ _ => rfl⟩
  | fits x lo hi p ih =>
      obtain ⟨es, hrun, hframe⟩ := ih m
      refine ⟨_, .fits hrun, fun key i h => hframe key i ?_⟩
      exact (List.forall_mem_cons.mp h).2
  | load label key off len k ih =>
      obtain ⟨es, hrun, hframe⟩ := ih (m.bytesAt key off len) m
      refine ⟨_, .load (Memory.length_bytesAt ..) hrun, fun key i h => hframe key i ?_⟩
      exact (List.forall_mem_cons.mp h).2
  | update label key off len f k ih =>
      obtain ⟨es, hrun, hframe⟩ := ih (m.bytesAt key off len)
        (m.putBytes key off (f (m.bytesAt key off len)))
      refine ⟨_, .update (Memory.length_bytesAt ..) hrun, fun key' i h => ?_⟩
      rw [List.forall_mem_cons] at h
      exact (hframe key' i h.2).trans (Memory.putBytes_of_not_mem h.1)

/-- What no execution writes stays. -/
theorem run_frame {S : κ → Nat → Prop} {p : Prog ω κ ε α}
    (h : Emits (fun ev => ∀ key i, ev.Covers key i → S key i) p) (m : Memory κ) {key : κ} {i : Nat}
    (hi : ¬S key i) : (p.run m).2 key i = m key i := by
  obtain ⟨es, hrun, hframe⟩ := run_execution p m
  exact hframe key i fun ev hev hcov => hi (h es _ hrun ev hev key i hcov)

end Run

end Prog

end MojoRs.Lib
