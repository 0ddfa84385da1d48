/-
MojoRs/Core/HandleOwnership.lean

Who owns the handles of message pipes.  A program works on a handle table and
on the pipes whose ends its handles are for: it creates pipes, moves handles
into messages and out of them, and drops handles.  The destructor of a handle
is an operation of its own, taken at any later moment: it closes the slot of
the table, the end of the pipe, and, when both ends are closed, frees the pipe
with the messages that are still queued, whose handles are dropped in turn.

A close leaves the queue of its own end alone.  Handles that are queued there
stay open until the other end is closed too, with no owner that could ever
close or use them (`close_strands`).  Where no end with handles in its queue is
closed before its peer, and no handle travels to an end that is reached through
that same handle, an owner is never lost (`nothing_stranded`).

Watches and clones of a `Handle` are left out.

Main results: `nothing_stranded`, `close_strands`, `destructors_end`.
-/
import Mathlib.Data.List.Nodup
import Mathlib.Data.List.Perm.Basic
import Mathlib.Data.List.Range
import Mathlib.Logic.Relation
import MojoRs.Core.HandleRun
import MojoRs.Core.SignalFinality

namespace MojoRs.Core

open Function (update)
open Lib Pipe

/-- An end of the pipe with this number. -/
abbrev Endpoint := Nat × End

/-- The other end of the same pipe. -/
def peerOf (d : Endpoint) : Endpoint := (d.1, d.2.peer)

/-- The messages of a pipe that is freed are dropped. -/
def Pipe.PipeState.clear {η κ : Type} (s : PipeState η κ) : PipeState η κ :=
  ⟨fun e => { s.endpoints e with queue := [], queuedBytes := 0 }⟩

/-- The handles attached to the messages that are queued at an end. -/
def Pipe.PipeState.handlesAt {η κ : Type} (s : PipeState η κ) (e : End) : List η :=
  (s.endpoints e).queue.flatMap (·.handles)

/-- Take the handles at the given positions, each one counted among those that
are left. -/
def takeHandles : List Nat → List Handle → List Handle × List Handle
  | [], held => ([], held)
  | k :: ks, held =>
      match held[k]? with
      | some h =>
          let (taken, rest) := takeHandles ks (held.eraseIdx k)
          (h :: taken, rest)
      | none => takeHandles ks held

/-- The table, the pipes created so far, the handles that the program holds,
those whose destructor has not run yet, and, as a record, all handles that the
table returned, each with the end it is for. -/
structure OwnerState where
  table : TableInner Endpoint
  count : Nat
  pipes : Nat → PipeState Handle Unit
  held : List Handle
  dropping : List Handle
  returned : List (Handle × Endpoint)

/-- What the program can do; it names a handle by its position in `held`, and
`finish` runs the destructor at a position in `dropping`. -/
inductive OwnerOp
  | create
  | write (k : Nat) (data : List UInt8) (ks : List Nat)
  | read (k : Nat) (maxNumBytes : Option Nat) (mayDiscard : Bool)
  | drop (k : Nat)
  | finish (k : Nat)
  deriving DecidableEq, Repr

namespace OwnerState

/-- No pipes, no handles. -/
def init : OwnerState := ⟨.new, 0, fun _ => .create, [], [], []⟩

/-- The end that a held handle resolves to. -/
def resolve (s : OwnerState) (k : Nat) : Option Endpoint :=
  s.held[k]?.bind fun h => (s.table.get h.value).toOption

/-- The handles in the queue of an end. -/
def queued (s : OwnerState) (d : Endpoint) : List Handle := (s.pipes d.1).handlesAt d.2

/-- All handles that are queued in a pipe. -/
def inPipe (s : OwnerState) (n : Nat) : List Handle := s.queued (n, .a) ++ s.queued (n, .b)

/-- The end was closed. -/
def localClosed (s : OwnerState) (d : Endpoint) : Bool :=
  ((s.pipes d.1).endpoints d.2).localClosed

/-- Close an end for a handle that is dropped; the second close frees the pipe
and drops what is queued in it. -/
def closeEnd (s : OwnerState) (d : Endpoint) : OwnerState :=
  let pipe := ((s.pipes d.1).close d.2).1
  if (pipe.endpoints .a).localClosed && (pipe.endpoints .b).localClosed then
    { s with
      pipes := update s.pipes d.1 pipe.clear
      dropping := s.inPipe d.1 ++ s.dropping }
  else
    { s with pipes := update s.pipes d.1 pipe }

/-- One call of the process. -/
def step (s : OwnerState) : OwnerOp → OwnerState
  | .create =>
      let n := s.count
      match s.table.add (n, .a) with
      | .error _ => s
      | .ok (ha, table) =>
          let s := { s with
            table
            count := n + 1
            pipes := update s.pipes n .create
            returned := s.returned ++ [(ha, (n, End.a))] }
          match table.add (n, .b) with
          | .error _ => { s with dropping := ha :: s.dropping } -- the first handle is dropped
          | .ok (hb, table) => { s with
              table
              held := s.held ++ [ha, hb]
              returned := s.returned ++ [(hb, (n, End.b))] }
  | .write k data ks =>
      match s.resolve k with
      | none => s
      | some (n, e) =>
          let (handles, held) := takeHandles ks s.held
          match (s.pipes n).write e ⟨data, handles⟩ with
          | (pipe, .ok (), _) => { s with pipes := update s.pipes n pipe, held }
          | (_, .error _, _) => { s with held, dropping := s.dropping ++ handles }
  | .read k maxNumBytes mayDiscard =>
      match s.resolve k with
      | none => s
      | some (n, e) =>
          match (s.pipes n).read e maxNumBytes mayDiscard with
          | (pipe, .ok (.message _ handles), _) =>
              { s with pipes := update s.pipes n pipe, held := s.held ++ handles }
          | (pipe, _, _) => { s with pipes := update s.pipes n pipe }
  | .drop k =>
      match s.held[k]? with
      | none => s
      | some h => { s with held := s.held.eraseIdx k, dropping := h :: s.dropping }
  | .finish k =>
      match s.dropping[k]? with
      | none => s
      | some h =>
          let s := { s with dropping := s.dropping.eraseIdx k }
          match s.table.closeSlot h.slot h.value with
          | (table, none) => { s with table }
          | (table, some d) => { s with table }.closeEnd d

/-- Everything that owns a handle: the program, the pending destructors, and
the messages in the pipes. -/
def owners (s : OwnerState) : List Handle :=
  s.held ++ s.dropping ++ (List.range s.count).flatMap s.inPipe

/-- The handle is attached to a message at the end of the other one. -/
def Carries (s : OwnerState) (h h' : Handle) : Prop :=
  ∃ d, s.table.get h.value = .ok d ∧ h' ∈ s.queued d

/-- The program or a destructor has the handle, or reads it through handles
that it has. -/
def Live (s : OwnerState) (h : Handle) : Prop :=
  ∃ r ∈ s.held ++ s.dropping, Relation.ReflTransGen s.Carries r h

/-- An end is closed: the table has no entry for it, and its peer was told. -/
structure Closed (s : OwnerState) (d : Endpoint) : Prop where
  removed : ∀ (i : Nat) (e : Entry Endpoint), s.table.entries[i]? = some (some e) → e.dispatcher ≠ d
  onClosed : s.localClosed d = true
  observed : ((s.pipes d.1).endpoints d.2.peer).peerClosed = true

/-- A handle is good for an end that is open, and has one owner, a live one. -/
structure Owned (s : OwnerState) (h : Handle) (d : Endpoint) : Prop where
  resolves : s.table.get h.value = .ok d
  isOpen : s.localClosed d = false
  once : s.owners.count h = 1
  live : s.Live h

/-- Nothing is queued at a closed end but closed handles, and every handle is
owned or closed. -/
structure NothingStranded (s : OwnerState) : Prop where
  queued : ∀ d, s.localClosed d = true → ∀ h ∈ s.queued d, ∀ d', (h, d') ∈ s.returned →
    s.Closed d'
  owned : ∀ h d, (h, d) ∈ s.returned → s.Owned h d ∨ s.Closed d

/-- The next slot to be reused has been allocated fewer than `2 ^ 12 - 1`
times. -/
def Fits (t : TableInner Endpoint) : Prop :=
  ∀ slot ∈ t.free.head?, (t.generationOf slot).toNat < 2 ^ 12 - 1

/-- The end is reached through the handle. -/
def Leads (s : OwnerState) (h : Handle) (d : Endpoint) : Prop :=
  ∃ h', Relation.ReflTransGen s.Carries h h' ∧ s.table.get h'.value = .ok d

/-- Where nothing gets lost: a message does not carry the end that it goes to,
and a destructor closes an end only if it has no handles in its queue or its
peer is closed. -/
def Allowed (s : OwnerState) : OwnerOp → Prop
  | .create => Fits s.table ∧ ∀ h t, s.table.add (s.count, .a) = .ok (h, t) → Fits t
  | .write k _ ks => ∀ d, s.resolve k = some d →
      ∀ h ∈ (takeHandles ks s.held).1, ¬ s.Leads h (peerOf d)
  | .finish k => ∀ h, s.dropping[k]? = some h → ∀ d, s.table.get h.value = .ok d →
      s.queued d = [] ∨ s.localClosed (peerOf d) = true
  | _ => True

end OwnerState

/-! ### Moving handles -/

theorem takeHandles_perm (ks : List Nat) (held : List Handle) :
    ((takeHandles ks held).1 ++ (takeHandles ks held).2).Perm held := by
  induction ks generalizing held with
  | nil => exact .refl _
  | cons k ks ih =>
      unfold takeHandles
      cases hk : held[k]? with
      | none => exact ih held
      | some h =>
          obtain ⟨hlt, rfl⟩ := List.getElem?_eq_some_iff.mp hk
          exact ((ih _).cons _).trans (List.getElem_cons_eraseIdx_perm hlt)

/-- Of the lists that are joined, one changes. -/
theorem flatMap_range_perm {α : Type*} {f f' : Nat → List α} {c n : Nat} (hn : n < c)
    (h : ∀ m, m ≠ n → f' m = f m) :
    (f n ++ (List.range c).flatMap f').Perm (f' n ++ (List.range c).flatMap f) := by
  have hmem : n ∈ List.range c := List.mem_range.mpr hn
  have hrest : ((List.range c).erase n).flatMap f' = ((List.range c).erase n).flatMap f := by
    refine List.flatMap_congr fun m hm => h m ?_
    rintro rfl
    exact List.nodup_range.not_mem_erase hm
  have hsplit (g : Nat → List α) : ((List.range c).flatMap g).Perm
      (g n ++ ((List.range c).erase n).flatMap g) :=
    (List.perm_cons_erase hmem).flatMap_right g
  refine ((hsplit f').append_left _).trans ?_
  rw [hrest, ← List.append_assoc]
  refine (List.perm_append_comm.append_right _).trans ?_
  rw [List.append_assoc]
  exact (hsplit f).symm.append_left _

namespace TableInner

variable {δ : Type}

/-- A handle is held for one dispatcher. -/
theorem Holds.unique {t : TableInner δ} {h : Handle} {d d' : δ} (hd : t.Holds h d)
    (hd' : t.Holds h d') : d = d' := by
  obtain ⟨g, -, -, -, he⟩ := hd
  obtain ⟨g', -, -, -, he'⟩ := hd'
  rw [he] at he'
  injection he' with he'
  injection he' with he'
  exact congrArg Entry.dispatcher he'

/-- An allocation adds one entry. -/
theorem install_entries {t t' : TableInner δ} {d : δ} {h : Handle} (heq : t.install d = .ok (h, t'))
    {i : Nat} {e : Entry δ} (he : t'.entries[i]? = some (some e)) :
    i = h.slot.toNat ∧ e.dispatcher = d ∨ t.entries[i]? = some (some e) := by
  unfold install at heq
  rcases halloc : t.allocate with err | ⟨⟨slot, g⟩, t₁⟩
  · simp [halloc, bind, Except.bind] at heq
  simp only [halloc, bind, Except.bind, pure, Except.pure, Except.ok.injEq, Prod.mk.injEq] at heq
  obtain ⟨rfl, rfl⟩ := heq
  by_cases hi : i = slot.toNat
  · subst hi
    have hlt := (List.getElem?_eq_some_iff.mp he).1
    rw [List.length_set] at hlt
    rw [List.getElem?_set_self hlt] at he
    injection he with he
    injection he with he
    exact .inl ⟨rfl, congrArg Entry.dispatcher he.symm⟩
  · rw [List.getElem?_set_ne fun h => hi h.symm] at he
    refine .inr ?_
    unfold allocate at halloc
    split at halloc
    · injection halloc with halloc
      obtain ⟨-, rfl⟩ := Prod.mk.inj halloc
      exact he
    · split at halloc
      · cases halloc
      · injection halloc with halloc
        obtain ⟨-, rfl⟩ := Prod.mk.inj halloc
        simp only [bumpGeneration, List.getElem?_append] at he
        split_ifs at he with hlt
        · exact he
        · cases hk : i - t.entries.length <;> simp [hk] at he

end TableInner

/-! ### The invariant -/

namespace OwnerState

/-- Every handle that is owned is good for an open end, no two share a slot,
and every open end and every entry of the table has such a handle. -/
structure Inv (s : OwnerState) : Prop where
  table : s.table.Inv
  know : ∀ n, PeersKnow (s.pipes n)
  fresh : ∀ n, s.count ≤ n → s.pipes n = .create
  below : ∀ p ∈ s.returned, p.2.1 < s.count
  single : ∀ h h' d, (h, d) ∈ s.returned → (h', d) ∈ s.returned → h = h'
  slots : (s.owners.map Handle.slot).Nodup
  holds : ∀ h ∈ s.owners, ∃ d, (h, d) ∈ s.returned ∧ s.table.Holds h d ∧ s.localClosed d = false
  entries : ∀ (i : Nat) (e : Entry Endpoint), s.table.entries[i]? = some (some e) →
    ∃ h ∈ s.owners, h.slot.toNat = i ∧ s.table.Holds h e.dispatcher
  open_owned : ∀ h d, (h, d) ∈ s.returned → s.localClosed d = false →
    h ∈ s.owners ∧ s.table.Holds h d
  emptied : ∀ d, s.localClosed d = true → s.queued d = []
  paired : ∀ h d, (h, d) ∈ s.returned → s.localClosed d = false →
    h ∈ s.dropping ∨ ∃ h', (h', peerOf d) ∈ s.returned
  live : ∀ h ∈ s.owners, s.Live h

theorem Inv.init : Inv init := by
  refine ⟨.new, fun _ _ => rfl, fun _ _ => rfl, nofun, nofun, .nil, nofun, ?_, nofun, ?_, nofun,
    nofun⟩
  · intro i e he
    cases he
  · intro d hd
    cases hd

variable {s s' : OwnerState}

theorem mem_owners {h : Handle} : h ∈ s.owners ↔
    h ∈ s.held ∨ h ∈ s.dropping ∨ ∃ d : Endpoint, d.1 < s.count ∧ h ∈ s.queued d := by
  simp only [owners, List.mem_append, List.mem_flatMap, List.mem_range, inPipe, or_assoc]
  refine or_congr_right (or_congr_right ⟨?_, ?_⟩)
  · rintro ⟨n, hn, h | h⟩
    · exact ⟨(n, .a), hn, h⟩
    · exact ⟨(n, .b), hn, h⟩
  · rintro ⟨⟨n, - | -⟩, hn, h⟩
    · exact ⟨n, hn, .inl h⟩
    · exact ⟨n, hn, .inr h⟩

theorem Inv.queued_below (hi : s.Inv) {h : Handle} {d : Endpoint} (hq : h ∈ s.queued d) :
    d.1 < s.count := by
  by_contra hd
  rw [queued, hi.fresh _ (Nat.le_of_not_lt hd)] at hq
  cases hq

theorem Inv.queued_owned (hi : s.Inv) {h : Handle} {d : Endpoint} (hq : h ∈ s.queued d) :
    h ∈ s.owners :=
  mem_owners.mpr (.inr (.inr ⟨d, hi.queued_below hq, hq⟩))

theorem Inv.of_carries (hi : s.Inv) {h h' : Handle} (hh : h ∈ s.owners) (hc : s.Carries h h') :
    ∃ d, s.table.Holds h d ∧ h' ∈ s.queued d := by
  obtain ⟨d, hget, hq⟩ := hc
  obtain ⟨d', -, hholds, -⟩ := hi.holds h hh
  have hd : d' = d := Except.ok.inj ((hholds.get hi.table).2.symm.trans hget)
  subst hd
  exact ⟨d', hholds, hq⟩

theorem Live.root {h : Handle} (hh : h ∈ s.held ++ s.dropping) : s.Live h := ⟨h, hh, .refl⟩

theorem Live.carried {h h' : Handle} (hl : s.Live h) (hc : s.Carries h h') : s.Live h' := by
  obtain ⟨r, hr, hpath⟩ := hl
  exact ⟨r, hr, hpath.tail hc⟩

/-- Induction over what is owned: from the program and the destructors along
the queues. -/
theorem Inv.induct (hi : s.Inv) {P : Handle → Prop} (hroot : ∀ h ∈ s.held ++ s.dropping, P h)
    (hcarry : ∀ h d h', h ∈ s.owners → s.table.Holds h d → h' ∈ s.queued d → P h → P h') :
    ∀ h ∈ s.owners, P h := by
  intro h hh
  obtain ⟨r, hr, hpath⟩ := hi.live h hh
  have haux : h ∈ s.owners ∧ P h := by
    clear hh
    induction hpath with
    | refl => exact ⟨List.mem_append_left _ hr, hroot r hr⟩
    | tail _ hc ih =>
        obtain ⟨d, hholds, hq⟩ := hi.of_carries ih.1 hc
        exact ⟨hi.queued_owned hq, hcarry _ d _ ih.1 hholds hq ih.2⟩
  exact haux.2

/-! ### What the invariant gives -/

theorem Inv.owned (hi : s.Inv) {h : Handle} (hh : h ∈ s.owners) {d : Endpoint}
    (hholds : s.table.Holds h d) (hopen : s.localClosed d = false) : s.Owned h d :=
  ⟨(hholds.get hi.table).2, hopen,
    List.count_eq_one_of_mem (List.Nodup.of_map _ hi.slots) hh, hi.live h hh⟩

theorem Inv.closed (hi : s.Inv) {d : Endpoint} (hclosed : s.localClosed d = true) :
    s.Closed d := by
  refine ⟨fun i e he hd => ?_, hclosed, ?_⟩
  · obtain ⟨h, hh, -, hholds⟩ := hi.entries i e he
    obtain ⟨d', -, hholds', hopen⟩ := hi.holds h hh
    rw [hholds'.unique hholds, hd, hclosed] at hopen
    cases hopen
  · rw [hi.know, End.peer_peer]
    exact hclosed

theorem Inv.nothingStranded (hi : s.Inv) : s.NothingStranded := by
  refine ⟨fun d hd h hh => ?_, fun h d hret => ?_⟩
  · rw [hi.emptied d hd] at hh
    cases hh
  · cases hd : s.localClosed d with
    | true => exact .inr (hi.closed hd)
    | false =>
        obtain ⟨hown, hholds⟩ := hi.open_owned h d hret hd
        exact .inl (hi.owned hown hholds hd)

/-! ### Moves

Handles go from one owner to another. -/

/-- What the owners of one pipe and of the program have between them stays the
same, but for what goes out. -/
theorem owners_perm {n : Nat} (out : List Handle) (hn : n < s.count)
    (hcount : s'.count = s.count) (hothers : ∀ m, m ≠ n → s'.inPipe m = s.inPipe m)
    (h : (out ++ (s'.held ++ s'.dropping ++ s'.inPipe n)).Perm
      (s.held ++ s.dropping ++ s.inPipe n)) :
    (out ++ s'.owners).Perm s.owners := by
  have hpipes := List.perm_iff_count.mp (flatMap_range_perm hn hothers)
  refine List.perm_iff_count.mpr fun a => ?_
  have ha := hpipes a
  have ha' := List.perm_iff_count.mp h a
  simp only [owners, List.count_append, hcount] at ha ha' ⊢
  omega

theorem Inv.move (hi : s.Inv) (htable : s'.table = s.table) (hcount : s'.count = s.count)
    (hreturned : s'.returned = s.returned)
    (hflags : ∀ n e, ((s'.pipes n).endpoints e).localClosed = ((s.pipes n).endpoints e).localClosed ∧
      ((s'.pipes n).endpoints e).peerClosed = ((s.pipes n).endpoints e).peerClosed)
    (hfresh : ∀ n, s.count ≤ n → s'.pipes n = s.pipes n)
    (hperm : s'.owners.Perm s.owners)
    (hemptied : ∀ d, s.localClosed d = true → s'.queued d = [])
    (hpaired : ∀ h d, (h, d) ∈ s.returned → s.localClosed d = false →
      h ∈ s'.dropping ∨ ∃ h', (h', peerOf d) ∈ s.returned)
    (hlive : ∀ h ∈ s.owners, s'.Live h) : s'.Inv := by
  have hlocal (d : Endpoint) : s'.localClosed d = s.localClosed d := (hflags d.1 d.2).1
  refine ⟨htable ▸ hi.table, fun n e => ?_, fun n hn => ?_, ?_, ?_, ?_, ?_, ?_, ?_, ?_, ?_, ?_⟩
  · rw [(hflags n e).2, (hflags n e.peer).1]
    exact hi.know n e
  · rw [hcount] at hn
    rw [hfresh n hn]
    exact hi.fresh n hn
  · rw [hreturned, hcount]
    exact hi.below
  · rw [hreturned]
    exact hi.single
  · exact (hperm.map _).nodup_iff.mpr hi.slots
  · intro h hh
    rw [hreturned, htable]
    obtain ⟨d, hret, hholds, hopen⟩ := hi.holds h (hperm.mem_iff.mp hh)
    exact ⟨d, hret, hholds, (hlocal d).trans hopen⟩
  · intro i e he
    rw [htable] at he ⊢
    obtain ⟨h, hh, hslot⟩ := hi.entries i e he
    exact ⟨h, hperm.mem_iff.mpr hh, hslot⟩
  · intro h d hret hopen
    rw [hreturned] at hret
    rw [hlocal] at hopen
    rw [htable, hperm.mem_iff]
    exact hi.open_owned h d hret hopen
  · intro d hd
    rw [hlocal] at hd
    exact hemptied d hd
  · intro h d hret hopen
    rw [hreturned] at hret ⊢
    rw [hlocal] at hopen
    exact hpaired h d hret hopen
  · exact fun h hh => hlive h (hperm.mem_iff.mp hh)

theorem Inv.of_resolve (hi : s.Inv) {k : Nat} {d : Endpoint} (hr : s.resolve k = some d) :
    ∃ h ∈ s.held, (h, d) ∈ s.returned ∧ s.table.Holds h d ∧ s.localClosed d = false := by
  unfold resolve at hr
  cases hk : s.held[k]? with
  | none => simp [hk] at hr
  | some h =>
      rw [hk] at hr
      have hmem := List.mem_of_getElem? hk
      obtain ⟨d', hret, hholds, hopen⟩ := hi.holds h (mem_owners.mpr (.inl hmem))
      simp only [Option.bind_some, (hholds.get hi.table).2, Except.toOption,
        Option.some.injEq] at hr
      subst hr
      exact ⟨h, hmem, hret, hholds, hopen⟩

/-- An owner has a handle once. -/
theorem Inv.nodup (hi : s.Inv) : s.owners.Nodup := List.Nodup.of_map _ hi.slots

theorem Inv.held_notMem_dropping (hi : s.Inv) {h : Handle} (hh : h ∈ s.held) :
    h ∉ s.dropping := by
  have hnodup := hi.nodup
  rw [owners, List.append_assoc] at hnodup
  intro hdrop
  exact (List.nodup_append.mp hnodup).2.2 h hh h (List.mem_append_left _ hdrop) rfl

theorem handlesAt_setEndpoint {η κ : Type} (p : PipeState η κ) (e e' : End)
    (ep : Pipe.EndpointState η κ) : (p.setEndpoint e ep).handlesAt e' =
      if e' = e then ep.queue.flatMap (·.handles) else p.handlesAt e' := by
  simp only [PipeState.handlesAt, PipeState.setEndpoint, Function.update_apply]
  split_ifs <;> rfl

theorem flags_setEndpoint {η κ : Type} {p : PipeState η κ} {e : End} {ep : Pipe.EndpointState η κ}
    (hlocal : ep.localClosed = (p.endpoints e).localClosed)
    (hpeer : ep.peerClosed = (p.endpoints e).peerClosed) (e' : End) :
    ((p.setEndpoint e ep).endpoints e').localClosed = (p.endpoints e').localClosed ∧
      ((p.setEndpoint e ep).endpoints e').peerClosed = (p.endpoints e').peerClosed := by
  by_cases he : e' = e
  · subst he
    rw [PipeState.endpoints_setEndpoint]
    exact ⟨hlocal, hpeer⟩
  · rw [PipeState.endpoints_setEndpoint_ne _ _ he]
    exact ⟨rfl, rfl⟩

/-- The handles of a pipe, those of one end first. -/
theorem inPipe_perm (s : OwnerState) (n : Nat) (e : End) :
    (s.inPipe n).Perm (s.queued (n, e) ++ s.queued (n, e.peer)) := by
  cases e with
  | a => exact .refl _
  | b => exact List.perm_append_comm

/-- One end of one pipe changes its queue, and the program and the destructors
have the rest. -/
theorem Inv.moveAt (hi : s.Inv) {n : Nat} {e : End} {ep : Pipe.EndpointState Handle Unit}
    {held dropping : List Handle} (hn : n < s.count)
    (hlocal : ep.localClosed = ((s.pipes n).endpoints e).localClosed)
    (hpeer : ep.peerClosed = ((s.pipes n).endpoints e).peerClosed)
    (hopen : s.localClosed (n, e) = false)
    (hperm : (held ++ dropping ++ ep.queue.flatMap (·.handles)).Perm
      (s.held ++ s.dropping ++ s.queued (n, e)))
    (hdropping : ∀ h ∈ s.dropping, h ∈ dropping)
    (hlive : ∀ h ∈ s.owners, Live { s with
      pipes := update s.pipes n ((s.pipes n).setEndpoint e ep), held, dropping } h) :
    Inv { s with pipes := update s.pipes n ((s.pipes n).setEndpoint e ep), held, dropping } := by
  have hpipes {m : Nat} (hm : m ≠ n) :
      update s.pipes n ((s.pipes n).setEndpoint e ep) m = s.pipes m := Function.update_of_ne hm ..
  refine hi.move rfl rfl rfl (fun m e' => ?_) (fun m hm => ?_) ?_ (fun d hd => ?_)
    (fun h d hret hd => (hi.paired h d hret hd).imp_left (hdropping h)) hlive
  · by_cases hm : m = n
    · subst hm
      simp only [Function.update_self]
      exact flags_setEndpoint hlocal hpeer e'
    · simp only [hpipes hm, and_self]
  · exact hpipes fun h => absurd hn (Nat.not_lt.mpr (h ▸ hm))
  · refine owners_perm [] hn rfl (fun m hm => ?_) ?_
    · simp only [inPipe, queued, hpipes hm]
    · refine ((inPipe_perm _ n e).append_left _).trans ?_
      refine List.Perm.trans ?_ ((inPipe_perm s n e).append_left _).symm
      simp only [queued, Function.update_self, handlesAt_setEndpoint, if_pos,
        if_neg (End.peer_ne e), ← List.append_assoc]
      exact hperm.append_right _
  · obtain ⟨m, e'⟩ := d
    by_cases hm : m = n
    · subst hm
      have he : e' ≠ e := by
        rintro rfl
        rw [hopen] at hd
        cases hd
      simp only [queued, Function.update_self, handlesAt_setEndpoint, if_neg he]
      exact hi.emptied (m, e') hd
    · simp only [queued, hpipes hm]
      exact hi.emptied (m, e') hd

/-- What is live stays so where the program and the destructors keep what they
have and no queue gets shorter but into their hands. -/
theorem Inv.live_mono (hi : s.Inv) (htable : s'.table = s.table)
    (hroot : ∀ h ∈ s.held ++ s.dropping, h ∈ s'.held ++ s'.dropping)
    (hqueued : ∀ d, ∀ h ∈ s.queued d, h ∈ s'.queued d ∨ h ∈ s'.held ++ s'.dropping) :
    ∀ h ∈ s.owners, s'.Live h := by
  refine hi.induct (fun h hh => .root (hroot h hh)) fun h d h' _ hholds hq hl => ?_
  rcases hqueued d h' hq with hq | hroot
  · refine hl.carried ⟨d, ?_, hq⟩
    rw [htable]
    exact (hholds.get hi.table).2
  · exact .root hroot

theorem Inv.drop (hi : s.Inv) (k : Nat) : (s.step (.drop k)).Inv := by
  simp only [OwnerState.step]
  rcases hk : s.held[k]? with - | h
  · exact hi
  obtain ⟨hlt, rfl⟩ := List.getElem?_eq_some_iff.mp hk
  have hheld := List.getElem_cons_eraseIdx_perm hlt
  have hperm : (s.held.eraseIdx k ++ s.held[k] :: s.dropping).Perm (s.held ++ s.dropping) :=
    List.perm_middle.trans (hheld.append_right _)
  refine hi.move rfl rfl rfl (fun _ _ => ⟨rfl, rfl⟩) (fun _ _ => rfl) (hperm.append_right _)
    hi.emptied (fun h d hret hd => ?_) (hi.live_mono rfl (fun h hh => ?_) fun d h hq => .inl hq)
  · exact (hi.paired h d hret hd).imp_left (List.mem_cons_of_mem _)
  · exact hperm.mem_iff.mpr hh

/-- The handles of a message that is written leave the program. -/
theorem Inv.write (hi : s.Inv) {k : Nat} {data : List UInt8} {ks : List Nat}
    (hc : s.Allowed (.write k data ks)) : (s.step (.write k data ks)).Inv := by
  simp only [OwnerState.step]
  rcases hr : s.resolve k with - | ⟨n, e⟩
  · exact hi
  obtain ⟨h, hheld, hret, hholds, hopen⟩ := hi.of_resolve hr
  have htake := takeHandles_perm ks s.held
  have hguard := hc (n, e) hr
  obtain ⟨handles, held, htaken⟩ : ∃ handles held, takeHandles ks s.held = (handles, held) :=
    ⟨_, _, rfl⟩
  rw [htaken] at htake hguard
  simp only [htaken]
  rcases write_cases (s.pipes n) e ⟨data, handles⟩ with ⟨err, hw⟩ | ⟨-, hpeer, hw⟩
  · -- nothing is written, and the message is dropped
    simp only [hw]
    have hperm : (held ++ (s.dropping ++ handles)).Perm (s.held ++ s.dropping) := by
      refine List.perm_append_comm.trans ?_
      rw [List.append_assoc]
      exact (htake.append_left _).trans List.perm_append_comm
    refine hi.move rfl rfl rfl (fun _ _ => ⟨rfl, rfl⟩) (fun _ _ => rfl) (hperm.append_right _)
      hi.emptied (fun h d hret hd => ?_) (hi.live_mono rfl (fun h hh => ?_) fun d h hq => .inl hq)
    · exact (hi.paired h d hret hd).imp_left (List.mem_append_left _)
    · exact hperm.mem_iff.mpr hh
  · simp only [hw]
    -- the end that receives the message has a handle, which is live without the moved ones
    have hopen' : s.localClosed (n, e.peer) = false := (hi.know n e).symm.trans hpeer
    obtain ⟨g, hg⟩ : ∃ g, (g, peerOf (n, e)) ∈ s.returned :=
      (hi.paired h (n, e) hret hopen).resolve_left (hi.held_notMem_dropping hheld)
    obtain ⟨hgown, hgholds⟩ := hi.open_owned g _ hg hopen'
    have hgget := (hgholds.get hi.table).2
    refine hi.moveAt (hi.below _ hret) rfl rfl hopen' ?_ (fun _ h => h) ?_
    · simp only [List.flatMap_append, List.flatMap_singleton]
      refine List.perm_iff_count.mpr fun a => ?_
      have ha := List.perm_iff_count.mp htake a
      simp only [List.count_append, queued, PipeState.handlesAt] at ha ⊢
      omega
    obtain ⟨s', hs'⟩ : ∃ s' : OwnerState, s' = { s with
        pipes := update s.pipes n ((s.pipes n).setEndpoint e.peer
          { (s.pipes n).endpoints e.peer with
            queue := ((s.pipes n).endpoints e.peer).queue ++ [⟨data, handles⟩]
            queuedBytes := ((s.pipes n).endpoints e.peer).queuedBytes + data.length })
        held } := ⟨_, rfl⟩
    have hqueued (d : Endpoint) : s'.queued d =
        if d = (n, e.peer) then s.queued d ++ handles else s.queued d := by
      obtain ⟨m, e'⟩ := d
      subst hs'
      by_cases hm : m = n
      · subst hm
        simp only [queued, Function.update_self, handlesAt_setEndpoint, Prod.mk.injEq, true_and]
        split_ifs with he
        · subst he
          simp only [List.flatMap_append, List.flatMap_singleton, PipeState.handlesAt]
        · rfl
      · rw [if_neg fun h => hm (congrArg Prod.fst h)]
        simp only [queued, Function.update_of_ne hm]
    have hgrow (d : Endpoint) (h' : Handle) (hq : h' ∈ s.queued d) : h' ∈ s'.queued d := by
      rw [hqueued]
      split_ifs
      · exact List.mem_append_left _ hq
      · exact hq
    have hglive : s'.Live g := by
      obtain ⟨r, hr, hpath⟩ := hi.live g hgown
      refine ⟨r, ?_, Relation.ReflTransGen.mono ?_ _ _ hpath⟩
      · subst hs'
        rcases List.mem_append.mp hr with hr | hr
        · refine List.mem_append_left _ ((List.mem_append.mp (htake.mem_iff.mpr hr)).resolve_left ?_)
          exact fun hmoved => hguard r hmoved ⟨g, hpath, hgget⟩
        · exact List.mem_append_right _ hr
      · rintro a b ⟨d, hget, hq⟩
        refine ⟨d, ?_, hgrow d b hq⟩
        subst hs'
        exact hget
    rw [← hs']
    refine hi.induct (fun r hr => ?_) fun h d h' _ hh hq hl => ?_
    · rcases List.mem_append.mp hr with hr | hr
      · rcases List.mem_append.mp (htake.mem_iff.mpr hr) with hr | hr
        · refine hglive.carried ⟨peerOf (n, e), ?_, ?_⟩
          · subst hs'
            exact hgget
          · rw [hqueued, if_pos (show peerOf (n, e) = (n, e.peer) from rfl)]
            exact List.mem_append_right _ hr
        · subst hs'
          exact .root (List.mem_append_left _ hr)
      · subst hs'
        exact .root (List.mem_append_right _ hr)
    · refine hl.carried ⟨d, ?_, hgrow d h' hq⟩
      subst hs'
      exact (hh.get hi.table).2

theorem Inv.read (hi : s.Inv) (k : Nat) (maxNumBytes : Option Nat) (mayDiscard : Bool) :
    (s.step (.read k maxNumBytes mayDiscard)).Inv := by
  simp only [OwnerState.step]
  rcases hr : s.resolve k with - | ⟨n, e⟩
  · exact hi
  obtain ⟨h, hheld, hret, hholds, hopen⟩ := hi.of_resolve hr
  have hn := hi.below _ hret
  rcases read_cases (s.pipes n) e maxNumBytes mayDiscard with
    ⟨hr, -⟩ | ⟨hr, -⟩ | ⟨message, queue, hqueue, hr | hr⟩
  -- nothing was taken: the state is the old one
  · simp only [hr, Function.update_eq_self]
    exact hi
  · simp only [hr, Function.update_eq_self]
    exact hi
  -- the message is too large: it stays at the front of the queue
  · simp only [hr]
    refine hi.moveAt hn rfl rfl hopen (.refl _) (fun _ h => h)
      (hi.live_mono rfl (fun _ hh => hh) fun d h' hq => .inl ?_)
    obtain ⟨m, e'⟩ := d
    by_cases hm : m = n
    · subst hm
      simp only [queued, Function.update_self, handlesAt_setEndpoint]
      split_ifs with he
      · exact he ▸ hq
      · exact hq
    · simpa only [queued, Function.update_of_ne hm] using hq
  -- the message is read: its handles go to the program
  · simp only [hr]
    have hhandles : s.queued (n, e) = message.handles ++ queue.flatMap (·.handles) := by
      simp only [queued, PipeState.handlesAt, hqueue, List.flatMap_cons]
    refine hi.moveAt hn rfl rfl hopen ?_ (fun _ h => h)
      (hi.live_mono rfl (fun h' hh => ?_) fun d h' hq => ?_)
    · rw [hhandles]
      refine List.perm_iff_count.mpr fun a => ?_
      simp only [List.count_append]
      omega
    · rcases List.mem_append.mp hh with hh | hh
      · exact List.mem_append_left _ (List.mem_append_left _ hh)
      · exact List.mem_append_right _ hh
    · obtain ⟨m, e'⟩ := d
      by_cases hm : m = n
      · subst hm
        by_cases he : e' = e
        · subst he
          rw [hhandles] at hq
          rcases List.mem_append.mp hq with hq | hq
          · exact .inr (List.mem_append_left _ (List.mem_append_right _ hq))
          · left
            simpa only [queued, Function.update_self, handlesAt_setEndpoint, if_pos] using hq
        · left
          simpa only [queued, Function.update_self, handlesAt_setEndpoint, if_neg he] using hq
      · left
        simpa only [queued, Function.update_of_ne hm] using hq

/-! ### New pipes -/

/-- A pipe that nobody has a handle for. -/
theorem Inv.grow (hi : s.Inv) : Inv { s with count := s.count + 1 } := by
  have howners : owners { s with count := s.count + 1 } = s.owners := by
    have hnone : s.inPipe s.count = [] := by
      simp only [inPipe, queued, hi.fresh _ (Nat.le_refl _)]
      rfl
    simp only [owners, List.range_succ, List.flatMap_append, List.flatMap_singleton]
    show _ ++ (_ ++ s.inPipe s.count) = _
    rw [hnone, List.append_nil]
    rfl
  refine ⟨hi.table, hi.know, fun n hn => hi.fresh n (Nat.le_of_succ_le hn),
    fun p hp => Nat.lt_succ_of_lt (hi.below p hp), hi.single, ?_, ?_, ?_, ?_, hi.emptied, hi.paired,
    ?_⟩
  all_goals rw [howners]
  · exact hi.slots
  · exact hi.holds
  · exact hi.entries
  · exact hi.open_owned
  · exact hi.live

/-- A new handle for an open end, in the hands of a destructor. -/
theorem Inv.addHandle (hi : s.Inv) {d : Endpoint} {h : Handle} {t : TableInner Endpoint}
    (hfits : Fits s.table) (heq : s.table.add d = .ok (h, t)) (hd : d.1 < s.count)
    (hnew : ∀ h', (h', d) ∉ s.returned) (hopen : s.localClosed d = false) :
    Inv { s with
      table := t
      dropping := h :: s.dropping
      returned := s.returned ++ [(h, d)] } := by
  obtain ⟨htable, hholds, hkeep⟩ := hi.table.install hfits heq
  have hperm : (owners { s with
      table := t
      dropping := h :: s.dropping
      returned := s.returned ++ [(h, d)] }).Perm (h :: s.owners) :=
    List.perm_middle.append_right _
  have hret {h' : Handle} {d' : Endpoint} : (h', d') ∈ s.returned ++ [(h, d)] ↔
      (h', d') ∈ s.returned ∨ h' = h ∧ d' = d := by
    simp only [List.mem_append, List.mem_singleton, Prod.mk.injEq]
  refine ⟨htable, hi.know, hi.fresh, ?_, ?_, ?_, ?_, ?_, ?_, hi.emptied, ?_, ?_⟩
  -- the new handle leads to a pipe that exists
  · intro p hp
    rcases List.mem_append.mp hp with hp | hp
    · exact hi.below p hp
    · obtain rfl := List.mem_singleton.mp hp
      exact hd
  -- no end was given out twice, and `hnew` says that of the new one
  · intro h₁ h₂ d' h₁ret h₂ret
    rcases hret.mp h₁ret with h₁old | ⟨rfl, rfl⟩
    · rcases hret.mp h₂ret with h₂old | ⟨rfl, rfl⟩
      · exact hi.single _ _ d' h₁old h₂old
      · exact absurd h₁old (hnew _)
    · rcases hret.mp h₂ret with h₂old | ⟨rfl, -⟩
      · exact absurd h₂old (hnew _)
      · rfl
  -- the slot was free, so no owner has it
  · refine (hperm.map _).nodup_iff.mpr (List.nodup_cons.mpr ⟨?_, hi.slots⟩)
    intro hslot
    obtain ⟨h', hh', heq'⟩ := List.mem_map.mp hslot
    obtain ⟨d', -, hholds', -⟩ := hi.holds h' hh'
    exact (hkeep h' d' hholds').1 heq'
  -- every owner holds an open end
  · intro h' hh'
    rcases List.mem_cons.mp (hperm.mem_iff.mp hh') with rfl | hh'
    · exact ⟨d, hret.mpr (.inr ⟨rfl, rfl⟩), hholds, hopen⟩
    · obtain ⟨d', hret', hholds', hopen'⟩ := hi.holds h' hh'
      exact ⟨d', hret.mpr (.inl hret'), (hkeep h' d' hholds').2, hopen'⟩
  -- every entry of the table has an owner
  · intro i e he
    rcases TableInner.install_entries heq he with ⟨rfl, rfl⟩ | he
    · exact ⟨h, hperm.mem_iff.mpr (List.mem_cons_self ..), rfl, hholds⟩
    · obtain ⟨h', hh', hslot, hholds'⟩ := hi.entries i e he
      exact ⟨h', hperm.mem_iff.mpr (List.mem_cons_of_mem _ hh'), hslot, (hkeep _ _ hholds').2⟩
  -- every open end has its handle owned
  · intro h' d' hret' hopen'
    rcases hret.mp hret' with hret' | ⟨rfl, rfl⟩
    · obtain ⟨hh', hholds'⟩ := hi.open_owned h' d' hret' hopen'
      exact ⟨hperm.mem_iff.mpr (List.mem_cons_of_mem _ hh'), (hkeep _ _ hholds').2⟩
    · exact ⟨hperm.mem_iff.mpr (List.mem_cons_self ..), hholds⟩
  -- the new handle is with a destructor
  · intro h' d' hret' hopen'
    rcases hret.mp hret' with hret' | ⟨rfl, -⟩
    · refine (hi.paired h' d' hret' hopen').imp (List.mem_cons_of_mem _) ?_
      rintro ⟨g, hg⟩
      exact ⟨g, hret.mpr (.inl hg)⟩
    · exact .inl (List.mem_cons_self ..)
  -- what led to a handle before leads to it now, and the new one is a root
  · have hroot {h' : Handle} (hh' : h' ∈ s.held ++ s.dropping) : h' ∈ s.held ++ h :: s.dropping :=
      List.perm_middle.mem_iff.mpr (List.mem_cons_of_mem _ hh')
    intro h' hh'
    rcases List.mem_cons.mp (hperm.mem_iff.mp hh') with rfl | hh'
    · exact .root (List.mem_append_right _ (List.mem_cons_self ..))
    · refine hi.induct (fun r hr => .root (hroot hr)) (fun h₁ d₁ h₂ _ hh₁ hq hl => ?_) h' hh'
      exact hl.carried ⟨d₁, ((hkeep h₁ d₁ hh₁).2.get htable).2, hq⟩

theorem Inv.create (hi : s.Inv) (hc : s.Allowed .create) : (s.step .create).Inv := by
  obtain ⟨hfits, hfits'⟩ := hc
  have hpipes : update s.pipes s.count .create = s.pipes := by
    rw [← hi.fresh _ (Nat.le_refl _), Function.update_eq_self]
  have hnew (h : Handle) (e : End) : (h, (s.count, e)) ∉ s.returned :=
    fun hmem => Nat.lt_irrefl _ (hi.below _ hmem)
  have hopen (e : End) : s.localClosed (s.count, e) = false := by
    rw [localClosed, hi.fresh _ (Nat.le_refl _)]
    rfl
  simp only [OwnerState.step, hpipes]
  rcases hadd : s.table.add (s.count, .a) with - | ⟨ha, t⟩
  · exact hi
  have hi' := hi.grow.addHandle hfits hadd (Nat.lt_succ_self _) (hnew · .a) (hopen .a)
  dsimp only
  rcases hadd' : t.add (s.count, .b) with - | ⟨hb, t'⟩
  · exact hi'
  have hi'' := hi'.addHandle (hfits' _ _ hadd) hadd' (Nat.lt_succ_self _) (fun h hmem => ?_) (hopen .b)
  · -- the two new handles go to the program
    dsimp only
    have hperm : ((s.held ++ [ha, hb]) ++ s.dropping).Perm (s.held ++ hb :: ha :: s.dropping) := by
      rw [List.append_assoc]
      exact (List.Perm.swap _ _ _).append_left _
    refine hi''.move rfl rfl rfl (fun _ _ => ⟨rfl, rfl⟩) (fun _ _ => rfl)
      (hperm.append_right _) hi''.emptied (fun h d hret hd => ?_)
      (hi''.live_mono rfl (fun _ hh => hperm.mem_iff.mpr hh) fun d h hq => .inl hq)
    rcases List.mem_append.mp hret with hret' | hret'
    · rcases List.mem_append.mp hret' with hold | hold
      · refine (hi.paired h d hold hd).imp id ?_
        rintro ⟨g, hg⟩
        exact ⟨g, List.mem_append_left _ (List.mem_append_left _ hg)⟩
      · obtain ⟨rfl, rfl⟩ := Prod.mk.inj (List.mem_singleton.mp hold)
        exact .inr ⟨hb, List.mem_append_right _ (List.mem_singleton.mpr rfl)⟩
    · obtain ⟨rfl, rfl⟩ := Prod.mk.inj (List.mem_singleton.mp hret')
      refine .inr ⟨ha, List.mem_append_left _ (List.mem_append_right _ ?_)⟩
      exact List.mem_singleton.mpr rfl
  · rcases List.mem_append.mp hmem with hmem | hmem
    · exact hnew _ _ hmem
    · have := List.mem_singleton.mp hmem
      injection this with _ this
      injection this with _ this
      cases this

/-! ### Destructors -/

/-- A close changes no queue. -/
theorem handlesAt_close {η κ : Type} (p : PipeState η κ) (e e' : End) :
    (p.close e).1.handlesAt e' = p.handlesAt e' := by
  rw [PipeState.handlesAt, endpoints_close]
  split_ifs with hclosed he
  · rfl
  · exact he ▸ rfl
  · rfl

/-- A close closes one end. -/
theorem localClosed_close {η κ : Type} (p : PipeState η κ) (e e' : End) :
    ((p.close e).1.endpoints e').localClosed =
      if e' = e then true else (p.endpoints e').localClosed := by
  rw [endpoints_close]
  split_ifs with hclosed he he
  · exact he ▸ hclosed
  · rfl
  · rfl
  · rfl

/-- An end that has nothing queued is closed with its handle. -/
theorem Inv.shut (hi : s.Inv) {h : Handle} {d : Endpoint} {dropping : List Handle}
    (hdropping : s.dropping.Perm (h :: dropping)) (hholds : s.table.Holds h d)
    (hempty : s.queued d = []) :
    Inv { s with
      table := { s.table with
        entries := s.table.entries.set h.slot.toNat none
        free := h.slot :: s.table.free }
      pipes := update s.pipes d.1 ((s.pipes d.1).close d.2).1
      dropping } := by
  have hown : h ∈ s.owners :=
    mem_owners.mpr (.inr (.inl (hdropping.mem_iff.mpr (List.mem_cons_self ..))))
  obtain ⟨hret, hopen⟩ : (h, d) ∈ s.returned ∧ s.localClosed d = false := by
    obtain ⟨d', hret, hholds', hopen⟩ := hi.holds h hown
    obtain rfl := hholds'.unique hholds
    exact ⟨hret, hopen⟩
  obtain ⟨htable, hkeep⟩ := hi.table.close hholds
  -- `s'` is opaque from here on, what the goals need of it is stated once
  obtain ⟨s', hs'⟩ : ∃ s' : OwnerState, s' = { s with
      table := { s.table with
        entries := s.table.entries.set h.slot.toNat none
        free := h.slot :: s.table.free }
      pipes := update s.pipes d.1 ((s.pipes d.1).close d.2).1
      dropping } := ⟨_, rfl⟩
  rw [← hs']
  have htab : s'.table = { s.table with
      entries := s.table.entries.set h.slot.toNat none
      free := h.slot :: s.table.free } := hs' ▸ rfl
  rw [← htab] at htable hkeep
  have hpipes : s'.pipes = update s.pipes d.1 ((s.pipes d.1).close d.2).1 := hs' ▸ rfl
  -- no queue changes, and `d` is the only end that closes
  have hqueued (d' : Endpoint) : s'.queued d' = s.queued d' := by
    rw [queued, hpipes, Function.update_apply]
    split_ifs with hm
    · rw [handlesAt_close, ← hm]
      rfl
    · rfl
  have hlocal (d' : Endpoint) : s'.localClosed d' = if d' = d then true else s.localClosed d' := by
    obtain ⟨m, e⟩ := d'
    rw [localClosed, hpipes]
    by_cases hm : m = d.1
    · subst hm
      simp only [Function.update_self, localClosed_close, Prod.ext_iff, true_and]
      split_ifs <;> rfl
    · rw [if_neg fun hd => hm (congrArg Prod.fst hd)]
      simp only [Function.update_of_ne hm]
      rfl
  have hlater {d' : Endpoint} (hd' : s'.localClosed d' = false) :
      d' ≠ d ∧ s.localClosed d' = false := by
    rw [hlocal] at hd'
    split_ifs at hd' with h
    exact ⟨h, hd'⟩
  -- the owners lose `h` and nothing else, so the slots of the others differ from its
  have hperm : (h :: s'.owners).Perm s.owners := by
    have hinPipe : s'.inPipe = s.inPipe := by
      funext m
      simp only [inPipe, hqueued]
    rw [owners, hinPipe]
    subst hs'
    show ((h :: (s.held ++ dropping)) ++ _).Perm (s.held ++ s.dropping ++ _)
    refine List.Perm.append_right _ (List.Perm.trans ?_ (hdropping.append_left _).symm)
    exact List.perm_middle.symm
  have hslots : (h.slot :: s'.owners.map Handle.slot).Nodup :=
    (hperm.map Handle.slot).nodup_iff.mpr hi.slots
  have hne {h' : Handle} (hh' : h' ∈ s'.owners) : h'.slot ≠ h.slot := fun heq =>
    (List.nodup_cons.mp hslots).1 (heq ▸ List.mem_map_of_mem hh')
  have hold {h' : Handle} (hh' : h' ∈ s'.owners) : h' ∈ s.owners :=
    hperm.mem_iff.mp (List.mem_cons_of_mem _ hh')
  have hcount : s'.count = s.count := hs' ▸ rfl
  have hreturned : s'.returned = s.returned := hs' ▸ rfl
  -- the fields of the invariant, in their order
  refine ⟨htable, fun n => ?_, fun n hn => ?_, ?_, ?_, (List.nodup_cons.mp hslots).2, ?_, ?_, ?_,
    ?_, ?_, ?_⟩
  -- a close keeps what is known of the pipe
  · rw [hpipes]
    by_cases hn : n = d.1
    · subst hn
      rw [Function.update_self]
      exact (apply_later (hi.know d.1) (.close d.2)).1
    · rw [Function.update_of_ne hn]
      exact hi.know n
  -- a pipe that does not exist yet is not the one that closes
  · rw [hcount] at hn
    have hn' : n ≠ d.1 := fun h => Nat.not_lt.mpr hn (h ▸ hi.below _ hret)
    rw [hpipes, Function.update_of_ne hn']
    exact hi.fresh n hn
  -- what was given out stays as it was
  · rw [hreturned, hcount]
    exact hi.below
  · rw [hreturned]
    exact hi.single
  -- the other owners hold open ends: only the end of `h` closed
  · intro h' hh'
    obtain ⟨d', hret', hholds', hopen'⟩ := hi.holds h' (hold hh')
    refine ⟨d', hreturned ▸ hret', hkeep _ _ (hne hh') hholds', ?_⟩
    rw [hlocal, if_neg]
    · exact hopen'
    · rintro rfl
      obtain rfl := hi.single _ _ _ hret hret'
      exact hne hh' rfl
  -- an entry that is left has the owner it had
  · intro i e he
    rw [htab] at he
    have hi' : h.slot.toNat ≠ i := by
      rintro rfl
      have hlt := (List.getElem?_eq_some_iff.mp he).1
      rw [List.length_set] at hlt
      rw [List.getElem?_set_self hlt] at he
      cases he
    rw [List.getElem?_set_ne hi'] at he
    obtain ⟨h', hh', hslot, hholds'⟩ := hi.entries i e he
    have hne' : h' ≠ h := by
      rintro rfl
      exact hi' hslot
    have hh'' : h' ∈ s'.owners := (List.mem_cons.mp (hperm.mem_iff.mpr hh')).resolve_left hne'
    exact ⟨h', hh'', hslot, hkeep _ _ (hne hh'') hholds'⟩
  -- an end that is still open has the handle it had
  · intro h' d' hret' hopen'
    rw [hreturned] at hret'
    obtain ⟨hd', hopen'⟩ := hlater hopen'
    obtain ⟨hh', hholds'⟩ := hi.open_owned h' d' hret' hopen'
    have hne' : h' ≠ h := by
      rintro rfl
      exact hd' (hholds'.unique hholds)
    have hh'' : h' ∈ s'.owners := (List.mem_cons.mp (hperm.mem_iff.mpr hh')).resolve_left hne'
    exact ⟨hh'', hkeep _ _ (hne hh'') hholds'⟩
  -- the end that closed had nothing queued
  · intro d' hd'
    rw [hqueued]
    rw [hlocal] at hd'
    split_ifs at hd' with h
    · rw [h]
      exact hempty
    · exact hi.emptied d' hd'
  -- the other end of an open pipe: a destructor that dropped `h` is done with it
  · intro h' d' hret' hopen'
    rw [hreturned] at hret' ⊢
    obtain ⟨hd', hopen'⟩ := hlater hopen'
    refine (hi.paired h' d' hret' hopen').imp_left fun hdrop => ?_
    rcases List.mem_cons.mp (hdropping.mem_iff.mp hdrop) with rfl | hdrop
    · exact absurd ((hi.open_owned _ d' hret' hopen').2.unique hholds) hd'
    · subst hs'
      exact hdrop
  · -- what was live is live without the handle, which led nowhere
    have haux : ∀ h' ∈ s.owners, h' = h ∨ s'.Live h' := by
      refine hi.induct (fun r hr => ?_) fun h₁ d₁ h₂ hh₁ hholds₁ hq hl => ?_
      · rcases List.mem_append.mp hr with hr | hr
        · right
          subst hs'
          exact .root (List.mem_append_left _ hr)
        · refine (List.mem_cons.mp (hdropping.mem_iff.mp hr)).imp_right fun hr => ?_
          subst hs'
          exact .root (List.mem_append_right _ hr)
      · by_cases heq : h₁ = h
        · subst heq
          obtain rfl := hholds₁.unique hholds
          rw [hempty] at hq
          cases hq
        · have hh₁' := (List.mem_cons.mp (hperm.mem_iff.mpr hh₁)).resolve_left heq
          refine .inr ((hl.resolve_left heq).carried ⟨d₁, ?_, (hqueued d₁).symm ▸ hq⟩)
          exact ((hkeep _ _ (hne hh₁') hholds₁).get htable).2
    intro h' hh'
    refine (haux h' (hold hh')).resolve_left ?_
    rintro rfl
    exact hne hh' rfl

/-- What is queued in a pipe goes to the destructors. -/
theorem Inv.free (hi : s.Inv) {n : Nat} (hn : n < s.count) : Inv { s with
    pipes := update s.pipes n (s.pipes n).clear
    dropping := s.inPipe n ++ s.dropping } := by
  have hqueued (d : Endpoint) : queued { s with
      pipes := update s.pipes n (s.pipes n).clear
      dropping := s.inPipe n ++ s.dropping } d = if d.1 = n then [] else s.queued d := by
    simp only [queued, Function.update_apply]
    split_ifs with hd <;> rfl
  have hinPipe (m : Nat) : inPipe { s with
      pipes := update s.pipes n (s.pipes n).clear
      dropping := s.inPipe n ++ s.dropping } m = if m = n then [] else s.inPipe m := by
    rw [inPipe, hqueued, hqueued]
    split_ifs <;> rfl
  refine hi.move rfl rfl rfl (fun m e => ?_) (fun m hm => ?_) ?_ (fun d hd => ?_)
    (fun h d hret hd => (hi.paired h d hret hd).imp_left (List.mem_append_right _))
    (hi.live_mono rfl (fun h hh => ?_) fun d h hq => ?_)
  · simp only [Function.update_apply]
    split_ifs with hm
    · exact hm ▸ ⟨rfl, rfl⟩
    · exact ⟨rfl, rfl⟩
  · refine Function.update_of_ne ?_ ..
    rintro rfl
    exact Nat.not_lt.mpr hm hn
  · refine owners_perm [] hn rfl (fun m hm => ?_) ?_
    · rw [hinPipe, if_neg hm]
    · rw [hinPipe, if_pos rfl]
      refine List.perm_iff_count.mpr fun a => ?_
      simp only [List.nil_append, List.count_append, List.count_nil]
      omega
  · rw [hqueued]
    split_ifs
    · rfl
    · exact hi.emptied d hd
  · rcases List.mem_append.mp hh with hh | hh
    · exact List.mem_append_left _ hh
    · exact List.mem_append_right _ (List.mem_append_right _ hh)
  · rw [hqueued]
    split_ifs with hd
    · right
      obtain ⟨m, e⟩ := d
      obtain rfl : m = n := hd
      exact List.mem_append_right _ (List.mem_append_left _
        ((inPipe_perm s m e).mem_iff.mpr (List.mem_append_left _ hq)))
    · exact .inl hq

@[simp] theorem handlesAt_clear {η κ : Type} (p : PipeState η κ) (e : End) :
    p.clear.handlesAt e = [] := rfl

theorem clear_close {η κ : Type} (p : PipeState η κ) (e : End) :
    (p.clear.close e).1 = (p.close e).1.clear := by
  have h (e' : End) : (p.clear.close e).1.endpoints e' = (p.close e).1.clear.endpoints e' := by
    simp only [PipeState.clear, endpoints_close]
    split_ifs <;> rfl
  show PipeState.mk _ = PipeState.mk _
  exact congrArg PipeState.mk (funext h)

/-- A destructor closes the end of its handle, and if that was the second one,
the messages of the pipe go to the destructors too. -/
theorem step_finish (hi : s.Inv) {k : Nat} {h : Handle} {d : Endpoint}
    (hk : s.dropping[k]? = some h) (hholds : s.table.Holds h d) :
    s.step (.finish k) =
      let table := { s.table with
        entries := s.table.entries.set h.slot.toNat none
        free := h.slot :: s.table.free }
      if s.localClosed (peerOf d) then
        { s with
          table
          pipes := update s.pipes d.1 ((s.pipes d.1).close d.2).1.clear
          dropping := s.inPipe d.1 ++ s.dropping.eraseIdx k }
      else
        { s with
          table
          pipes := update s.pipes d.1 ((s.pipes d.1).close d.2).1
          dropping := s.dropping.eraseIdx k } := by
  have hboth : ((((s.pipes d.1).close d.2).1.endpoints .a).localClosed &&
      (((s.pipes d.1).close d.2).1.endpoints .b).localClosed) = s.localClosed (peerOf d) := by
    obtain ⟨n, e⟩ := d
    cases e
    · simp only [localClosed_close, if_pos, localClosed, peerOf, End.peer, Bool.true_and]
      rfl
    · simp only [localClosed_close, if_pos, localClosed, peerOf, End.peer, Bool.and_true]
      rfl
  simp only [OwnerState.step, hk, hholds.closeSlot hi.table, closeEnd, hboth]
  rfl

theorem Inv.finish (hi : s.Inv) {k : Nat} (hc : s.Allowed (.finish k)) :
    (s.step (.finish k)).Inv := by
  rcases hk : s.dropping[k]? with - | h
  · simp only [OwnerState.step, hk]
    exact hi
  obtain ⟨d, hret, hholds, -⟩ := hi.holds h (mem_owners.mpr (.inr (.inl (List.mem_of_getElem? hk))))
  have hdropping : s.dropping.Perm (h :: s.dropping.eraseIdx k) := by
    obtain ⟨hlt, rfl⟩ := List.getElem?_eq_some_iff.mp hk
    exact (List.getElem_cons_eraseIdx_perm hlt).symm
  rw [step_finish hi hk hholds]
  dsimp only
  split_ifs with hpeer
  · -- first the messages are dropped, then the end is closed
    have hn := hi.below _ hret
    have hshut := (hi.free hn).shut (h := h) (d := d)
      ((hdropping.append_left (s.inPipe d.1)).trans List.perm_middle) hholds ?_
    · simpa only [Function.update_self, Function.update_idem, clear_close] using hshut
    · simp only [queued, Function.update_self]
      rfl
  · refine hi.shut hdropping hholds ((hc h hk d (hholds.get hi.table).2).resolve_right hpeer)

theorem Inv.step (hi : s.Inv) (op : OwnerOp) (hc : s.Allowed op) : (s.step op).Inv := by
  cases op with
  | create => exact hi.create hc
  | write k data ks => exact hi.write hc
  | read k maxNumBytes mayDiscard => exact hi.read k maxNumBytes mayDiscard
  | drop k => exact hi.drop k
  | finish k => exact hi.finish hc

/-! ### Runs -/

/-- Where no end is closed before its peer while messages with handles are
queued at it, and no handle goes to an end that is reached through it, every
handle is owned or closed. -/
theorem nothing_stranded (ops : List OwnerOp) (h : Meets OwnerState.step Allowed init ops) :
    Always OwnerState.step NothingStranded init ops :=
  (always_of_meets (fun _ op hi hc => hi.step op hc) Inv.init h).imp fun _ hi => hi.nothingStranded

/-- A handle for an end with an empty queue leads to that end only. -/
theorem not_leads {h : Handle} {d d' : Endpoint} (hget : s.table.get h.value = .ok d)
    (hempty : s.queued d = []) (hne : d ≠ d') : ¬ s.Leads h d' := by
  rintro ⟨h', hpath, hget'⟩
  rcases hpath.cases_head with rfl | ⟨c, ⟨d₁, hget₁, hq⟩, -⟩
  · exact hne (Except.ok.inj (hget.symm.trans hget'))
  · obtain rfl := Except.ok.inj (hget.symm.trans hget₁)
    rw [hempty] at hq
    cases hq

/-- A handle goes through a pipe and comes out again; then its peer is
closed. -/
theorem nothing_stranded_passed : Always OwnerState.step NothingStranded init
    [.create, .create, .write 0 [7] [2], .read 1 none true, .drop 2, .finish 0] := by
  refine nothing_stranded _ ⟨⟨?_, ?_⟩, ⟨?_, ?_⟩, ?_, trivial, trivial, ?_, trivial⟩
  · exact nofun
  · rintro h t heq
    obtain ⟨rfl, rfl⟩ := Prod.mk.inj (Except.ok.inj heq)
    exact nofun
  · exact nofun
  · rintro h t heq
    obtain ⟨rfl, rfl⟩ := Prod.mk.inj (Except.ok.inj heq)
    exact nofun
  · rintro d hd h hh
    obtain rfl : (0, End.a) = d := Option.some.inj (Eq.trans (by decide +kernel) hd)
    rw [show (takeHandles [2] ((init.step .create).step .create).held).1 =
      [⟨encode 2 1, 2⟩] by decide +kernel] at hh
    obtain rfl := List.mem_singleton.mp hh
    exact not_leads (d := (1, .a)) (by decide +kernel) (by decide +kernel) (by decide)
  · rintro h hh d hd
    obtain rfl : ⟨encode 3 1, 3⟩ = h := Option.some.inj (Eq.trans (by decide +kernel) hh)
    obtain rfl : (1, End.b) = d := Except.ok.inj (Eq.trans (by decide +kernel) hd)
    exact .inl (by decide +kernel)

/-- The end of a second pipe is sent to an end that is closed before it reads:
it is still open, and no one has it. -/
theorem close_strands : ¬ Always OwnerState.step NothingStranded init
    [.create, .create, .write 0 [7] [2], .drop 1, .finish 0] := by
  intro h
  have hclosed := h.last.queued (0, .b) (by decide +kernel) ⟨encode 2 1, 2⟩ (by decide +kernel)
    (1, .a) (by decide +kernel)
  exact absurd hclosed.onClosed (by decide +kernel)

/-! ### Destructors end -/

/-- A destructor takes its handle from the owners. -/
theorem Inv.owners_finish (hi : s.Inv) {k : Nat} {h : Handle} (hk : s.dropping[k]? = some h) :
    (h :: (s.step (.finish k)).owners).Perm s.owners := by
  obtain ⟨d, hret, hholds, -⟩ := hi.holds h (mem_owners.mpr (.inr (.inl (List.mem_of_getElem? hk))))
  have hdropping : (h :: s.dropping.eraseIdx k).Perm s.dropping := by
    obtain ⟨hlt, rfl⟩ := List.getElem?_eq_some_iff.mp hk
    exact List.getElem_cons_eraseIdx_perm hlt
  rw [step_finish hi hk hholds]
  dsimp only
  split_ifs
  all_goals
    refine owners_perm [h] (hi.below _ hret) rfl (fun m hm => ?_)
      (List.perm_iff_count.mpr fun a => ?_)
  · simp only [inPipe, queued, Function.update_of_ne hm]
  · have ha := List.perm_iff_count.mp hdropping a
    simp only [inPipe, queued, Function.update_self, handlesAt_clear, List.count_append,
      List.count_cons, List.count_nil] at ha ⊢
    omega
  · simp only [inPipe, queued, Function.update_of_ne hm]
  · have ha := List.perm_iff_count.mp hdropping a
    simp only [inPipe, queued, Function.update_self, handlesAt_close, List.count_append,
      List.count_cons, List.count_nil] at ha ⊢
    omega

/-- Without a pending destructor there is nothing to run. -/
theorem exec_finish_nil (hnone : s.dropping = []) (m : Nat) :
    exec OwnerState.step s (List.replicate m (.finish 0)) = s := by
  induction m with
  | zero => rfl
  | succ m ih =>
      have hstay : s.step (.finish 0) = s := by
        simp only [OwnerState.step, hnone]
        rfl
      rw [List.replicate_succ, exec_cons, hstay]
      exact ih

/-- Running the destructors one after the other comes to an end. -/
theorem destructors_end {m : Nat} (hi : s.Inv) (hm : s.owners.length ≤ m)
    (hc : Meets OwnerState.step Allowed s (List.replicate m (.finish 0))) :
    (exec OwnerState.step s (List.replicate m (.finish 0))).dropping = [] := by
  induction m generalizing s with
  | zero =>
      refine List.eq_nil_iff_forall_not_mem.mpr fun h hh => ?_
      have hmem : h ∈ s.owners := mem_owners.mpr (.inr (.inl hh))
      rw [List.length_eq_zero_iff.mp (Nat.le_zero.mp hm)] at hmem
      cases hmem
  | succ m ih =>
      rcases hk : s.dropping with - | ⟨h, rest⟩
      · rw [exec_finish_nil hk]
        exact hk
      · have hlen := (hi.owners_finish (k := 0) (h := h) (by rw [hk]; rfl)).length_eq
        exact ih (hi.step _ hc.1) (Nat.le_of_succ_le_succ (Nat.le_trans (Nat.le_of_eq hlen) hm)) hc.2

end OwnerState

end MojoRs.Core
