/-
MojoRs/Casefile/Differential.lean

What the verdict of a comparison says about two event streams, with the trap
events of each run sorted.  It is right if it passes the streams that are alike
in all observable fields (`Alike Agree`).

The comparison falls short of this in two ways.  It leaves out `num_bytes` and
`size` (`alike_agree_iff`); and the sort takes a trap event without a context for
one of context 0, and keeps the two in order (`forall₂_normalizeTrapOrder`).

Main results: `alike_agree_iff`, `forall₂_normalizeTrapOrder`, `verdict_iff`.
-/
import MojoRs.Casefile.TrapRuns
import MojoRs.Lib.Bytes

namespace MojoRs.Casefile

open Lib (withKey)
open List (Forall₂)

variable {M : Type}

/-! ### What the comparison leaves out -/

section Compared

variable [BEq M] {o c r r' : List (Event M)}

/-- All fields agree except for `seq`, `op_id`, `pid`, `num_bytes` and `size`. -/
structure Similar (a b : Event M) : Prop where
  event : a.event = b.event
  result : a.result = b.result
  handle : a.handle = b.handle
  payloadHex : a.payloadHex = b.payloadHex
  handles : a.handles = b.handles
  signals : a.signals = b.signals
  triggerContext : a.triggerContext = b.triggerContext
  signalsState : a.signalsState = b.signalsState
  outputs : (a.outputs == b.outputs) = true
  process : a.process = b.process
  fd : a.fd = b.fd
  note : a.note = b.note

/-- All fields agree except for `seq`, `op_id` and `pid`. -/
structure Agree (a b : Event M) : Prop extends Similar a b where
  numBytes : a.numBytes = b.numBytes
  size : a.size = b.size

/-- The comparison leaves out `num_bytes` and `size`. -/
theorem eventEq_iff {a b : Event M} : eventEq a b = true ↔ Similar a b := by
  unfold eventEq
  simp only [Bool.and_eq_true, beq_iff_eq]
  constructor
  · rintro ⟨⟨⟨⟨⟨⟨⟨⟨⟨⟨⟨h1, h2⟩, h3⟩, h4⟩, h5⟩, h6⟩, h7⟩, h8⟩, h9⟩, h10⟩, h11⟩, h12⟩
    exact ⟨h1, h2, h3, h4, h5, h6, h7, h8, h9, h10, h11, h12⟩
  · rintro ⟨h1, h2, h3, h4, h5, h6, h7, h8, h9, h10, h11, h12⟩
    exact ⟨⟨⟨⟨⟨⟨⟨⟨⟨⟨⟨h1, h2⟩, h3⟩, h4⟩, h5⟩, h6⟩, h7⟩, h8⟩, h9⟩, h10⟩, h11⟩, h12⟩

theorem Similar.sortContext {a b : Event M} (h : Similar a b) : sortContext a = sortContext b := by
  unfold Casefile.sortContext
  rw [h.triggerContext]

/-- `num_bytes` and `size` of the events with a context. -/
def sizes (k : Option UInt64) (s : List (Event M)) : List (Option UInt32 × Option UInt64) :=
  (withKey Event.triggerContext k s).map fun e => (e.numBytes, e.size)

omit [BEq M] in
theorem sizes_append (k : Option UInt64) (s s' : List (Event M)) :
    sizes k (s ++ s') = sizes k s ++ sizes k s' := by
  unfold sizes
  rw [Lib.withKey_append, List.map_append]

theorem forall₂_agree_iff :
    Forall₂ Agree r r' ↔ Forall₂ Similar r r' ∧
      r.map (fun e => (e.numBytes, e.size)) = r'.map fun e => (e.numBytes, e.size) := by
  constructor
  · intro h
    induction h with
    | nil => exact ⟨Forall₂.nil, rfl⟩
    | cons hab _ ih =>
        refine ⟨Forall₂.cons hab.toSimilar ih.1, ?_⟩
        rw [List.map_cons, List.map_cons, ih.2, hab.numBytes, hab.size]
  · rintro ⟨h, hsizes⟩
    induction h with
    | nil => exact Forall₂.nil
    | cons hab _ ih =>
        obtain ⟨hhead, hsizes⟩ := List.cons.inj hsizes
        obtain ⟨hnumBytes, hsize⟩ := Prod.mk.inj hhead
        exact Forall₂.cons ⟨hab, hnumBytes, hsize⟩ (ih hsizes)

theorem contexts_agree_iff :
    Contexts Agree r r' ↔ Contexts Similar r r' ∧ ∀ k, sizes k r = sizes k r' := by
  unfold Contexts sizes
  simp only [forall₂_agree_iff, forall_and]

/-- Streams that are alike to the comparison are alike if `num_bytes` and `size`
of the events of each context are the same. -/
theorem alike_agree_iff :
    Alike Agree o c ↔ Alike Similar o c ∧ ∀ k, sizes k o = sizes k c := by
  have hcontext : ∀ a b : Event M, Similar a b → a.triggerContext = b.triggerContext :=
    fun _ _ h => h.triggerContext
  have hcontext' : ∀ a b : Event M, Agree a b → a.triggerContext = b.triggerContext :=
    fun _ _ h => h.triggerContext
  have hlength : ∀ r r' : List (Event M), Contexts Similar r r' →
      ∀ k, (sizes k r).length = (sizes k r').length := by
    intro r r' h k
    show (List.map _ _).length = (List.map _ _).length
    rw [List.length_map, List.length_map, (h k).length_eq]
  rw [alike_iff (fun _ _ h => h.event) hcontext', alike_iff (fun _ _ h => h.event) hcontext]
  apply aligned_iff_and sizes_append
  · exact fun _ _ _ _ => contexts_agree_iff
  · intro e e' _
    rw [← contexts_single hcontext, ← contexts_single hcontext', contexts_agree_iff]
  · exact fun r r' _ _ => hlength r r'
  · exact fun e e' _ h => hlength _ _ ((contexts_single hcontext).mpr h)

/-! ### The order of contexts -/

/-- The contexts of the trap events that have none or 0. -/
def zeroContexts (s : List (Event M)) : List (Option UInt64) :=
  (s.filter fun e => e.event = .trap ∧ (e.triggerContext = none ∨ e.triggerContext = some 0)).map
    (·.triggerContext)

omit [BEq M] in
theorem zeroContexts_append (s s' : List (Event M)) :
    zeroContexts (s ++ s') = zeroContexts s ++ zeroContexts s' := by
  unfold zeroContexts
  rw [List.filter_append, List.map_append]

omit [BEq M] in
/-- The sort takes both for 0. -/
theorem sortContext_eq_zero_iff {e : Event M} :
    sortContext e = 0 ↔ e.triggerContext = none ∨ e.triggerContext = some 0 := by
  unfold sortContext
  cases e.triggerContext with
  | none => simp
  | some u => simp [← UInt64.toNat_inj]

omit [BEq M] in
theorem zeroContexts_traps (hr : Traps r) :
    zeroContexts r = (withKey sortContext 0 r).map (·.triggerContext) := by
  unfold zeroContexts withKey
  congr 1
  refine List.filter_congr fun e he => ?_
  simp [hr e he, sortContext_eq_zero_iff]

omit [BEq M] in
theorem zeroContexts_single {e : Event M} (he : e.event ≠ .trap) : zeroContexts [e] = [] := by
  simp [zeroContexts, he]

/-- Only the events that are sorted by 0 can be of two contexts. -/
theorem contexts_of_sortContext {n : Nat} (hn : n ≠ 0) (h : Contexts Similar r r') :
    Forall₂ Similar (withKey sortContext n r) (withKey sortContext n r') := by
  -- no event is sorted by a number that is not a context
  by_cases hlt : n < 2 ^ 64
  · have hsome : ∀ s : List (Event M),
        withKey sortContext n s = withKey Event.triggerContext (some (UInt64.ofNat n)) s := by
      intro s
      refine List.filter_congr fun e _ => ?_
      unfold sortContext
      cases e.triggerContext with
      | none => simpa using hn.symm
      | some u =>
          have hiff : u.toNat = n ↔ u = UInt64.ofNat n := by
            rw [← UInt64.toNat_inj, UInt64.toNat_ofNat_of_lt' hlt]
          simpa using hiff
    rw [hsome, hsome]
    exact h _
  · have hnone : ∀ s : List (Event M), withKey sortContext n s = [] := by
      intro s
      refine List.filter_eq_nil_iff.mpr fun e _ => ?_
      have hsort : sortContext e < 2 ^ 64 := UInt64.toNat_lt _
      simp only [decide_eq_true_eq]
      omega
    rw [hnone, hnone]
    exact Forall₂.nil

theorem length_withKey_sortContext (n : Nat) (h : Contexts Similar r r') :
    (withKey sortContext n r).length = (withKey sortContext n r').length := by
  obtain ⟨cs, hreorders, hforall⟩ := (Lib.reordered_iff fun _ _ h => h.triggerContext).mpr h
  have hperm : (withKey sortContext n r).length = (withKey sortContext n cs).length :=
    (hreorders.perm.filter _).length_eq
  rw [hperm]
  exact (Lib.forall₂_withKey (fun _ _ h => h.sortContext) hforall n).length_eq

/-- The sort keeps the contexts of a run apart, except for 0 and none. -/
theorem forall₂_sortContext_iff (hr : Traps r) (hr' : Traps r') :
    (∀ n, Forall₂ Similar (withKey sortContext n r) (withKey sortContext n r')) ↔
      Contexts Similar r r' ∧ zeroContexts r = zeroContexts r' := by
  have hcontext : ∀ a b : Event M, Similar a b → a.triggerContext = b.triggerContext :=
    fun _ _ h => h.triggerContext
  have hfine : ∀ (k : Option UInt64) (s : List (Event M)),
      withKey Event.triggerContext k (withKey sortContext (k.getD 0).toNat s) =
        withKey Event.triggerContext k s := by
    intro k s
    exact Lib.withKey_withKey (fun e he => by rw [sortContext, he]) s
  rw [zeroContexts_traps hr, zeroContexts_traps hr']
  constructor
  · intro h
    refine ⟨fun k => ?_, ((Lib.forall₂_iff_withKey hcontext).mp (h 0)).1⟩
    rw [← hfine, ← hfine k r']
    exact Lib.forall₂_withKey hcontext (h _) k
  · rintro ⟨h, hzero⟩ n
    by_cases hn : n = 0
    · -- both contexts are sorted by 0, and their order has to be the same
      subst hn
      refine (Lib.forall₂_iff_withKey hcontext).mpr ⟨hzero, fun k => ?_⟩
      by_cases hk : (k.getD 0).toNat = 0
      · have hk' := h k
        rwa [← hfine, ← hfine k r', hk] at hk'
      · have hnone : ∀ s : List (Event M),
            withKey Event.triggerContext k (withKey sortContext 0 s) = [] := by
          intro s
          refine List.filter_eq_nil_iff.mpr fun e he => ?_
          have hsort := of_decide_eq_true (List.mem_filter.mp he).2
          intro hk'
          apply hk
          rw [← of_decide_eq_true hk']
          exact hsort
        rw [hnone, hnone]
        exact Forall₂.nil
    · exact contexts_of_sortContext hn h

/-- The sorted streams are the same to the comparison if they are alike, and the
trap events without context and of context 0 come in the same order. -/
theorem forall₂_normalizeTrapOrder :
    Forall₂ Similar (normalizeTrapOrder o) (normalizeTrapOrder c) ↔
      Alike Similar o c ∧ zeroContexts o = zeroContexts c := by
  have hkind : ∀ a b : Event M, Similar a b → a.event = b.event := fun _ _ h => h.event
  have hcontext : ∀ a b : Event M, Similar a b → a.triggerContext = b.triggerContext :=
    fun _ _ h => h.triggerContext
  unfold normalizeTrapOrder
  rw [forall₂_trapOrderLoop hkind fun _ _ h => h.sortContext, alike_iff hkind hcontext]
  rw [← forall_const (α := Unit) (b := zeroContexts o = zeroContexts c)]
  apply aligned_iff_and fun _ => zeroContexts_append
  · intro r r' hr hr'
    rw [forall₂_sortContext_iff hr hr', forall_const]
  · intro e e' he
    refine (and_iff_left_of_imp fun h _ => ?_).symm
    rw [zeroContexts_single he, zeroContexts_single (hkind _ _ h ▸ he)]
  · intro r r' hr hr' h _
    rw [zeroContexts_traps hr, zeroContexts_traps hr', List.length_map, List.length_map]
    exact length_withKey_sortContext 0 h
  · intro e e' he h _
    rw [zeroContexts_single he, zeroContexts_single (hkind _ _ h ▸ he)]

/-! ### The verdict -/

theorem residualAt_eq_none_iff {oracle candidate : List (Event M)} {i : Nat} :
    residualAt oracle candidate i = none ↔ Option.Rel Similar oracle[i]? candidate[i]? := by
  unfold residualAt
  cases oracle[i]? with
  | none =>
      cases candidate[i]? with
      | none => exact iff_of_true rfl Option.Rel.none
      | some b => exact iff_of_false (Option.some_ne_none _) fun h => by cases h
  | some a =>
      cases candidate[i]? with
      | none => exact iff_of_false (Option.some_ne_none _) fun h => by cases h
      | some b =>
          rw [Option.rel_some_some, ← eventEq_iff]
          cases heq : eventEq a b <;> simp [heq]

/-- No position has a residual. -/
theorem residuals_eq_nil_iff :
    (List.range (max o.length c.length)).filterMap (residualAt o c) = [] ↔ Forall₂ Similar o c := by
  rw [List.filterMap_eq_nil_iff, Lib.forall₂_iff_getElem?]
  constructor
  · intro h i
    by_cases hi : i < max o.length c.length
    · exact residualAt_eq_none_iff.mp (h i (List.mem_range.mpr hi))
    · obtain ⟨ho, hc⟩ := Nat.max_le.mp (Nat.le_of_not_lt hi)
      rw [List.getElem?_eq_none ho, List.getElem?_eq_none hc]
      exact Option.Rel.none
  · exact fun h i _ => residualAt_eq_none_iff.mpr (h i)

variable {lib : Library M}

omit [BEq M] in
theorem sha256Events_ok (hser : ∀ e, ∃ line, lib.toString e = .ok line) (events : List (Event M)) :
    ∃ digest, sha256Events lib events = .ok digest := by
  have hlines : ∃ lines, events.mapM lib.toString = .ok lines := by
    induction events with
    | nil => exact ⟨[], rfl⟩
    | cons e events ih =>
        obtain ⟨line, hline⟩ := hser e
        obtain ⟨lines, hlines⟩ := ih
        refine ⟨line :: lines, ?_⟩
        rw [List.mapM_cons, hline, hlines]
        rfl
  obtain ⟨lines, hlines⟩ := hlines
  unfold sha256Events
  rw [hlines]
  exact ⟨_, rfl⟩

/-- The streams pass if the comparison finds no difference after the sort. -/
theorem compare_trapOrder (hser : ∀ e, ∃ line, lib.toString e = .ok line)
    {caseId oracleInput candidateInput : String} (ho : parseEvents lib oracleInput = .ok o)
    (hc : parseEvents lib candidateInput = .ok c) :
    ∃ cmp, compare lib caseId oracleInput candidateInput ["normalize.trap_order"] = .ok cmp ∧
      (cmp.status = "pass" ↔ Forall₂ Similar (normalizeTrapOrder o) (normalizeTrapOrder c)) := by
  obtain ⟨digest, hdigest⟩ := sha256Events_ok hser (normalizeTrapOrder o)
  obtain ⟨digest', hdigest'⟩ := sha256Events_ok hser (normalizeTrapOrder c)
  have happly : ∀ s : List (Event M),
      applyNormalizers s ["normalize.trap_order"] = .ok (normalizeTrapOrder s) := fun _ => rfl
  have hcompare : ∃ cmp,
      compare lib caseId oracleInput candidateInput ["normalize.trap_order"] = .ok cmp ∧
        cmp.status = if ((List.range (max (normalizeTrapOrder o).length
          (normalizeTrapOrder c).length)).filterMap (residualAt (normalizeTrapOrder o)
            (normalizeTrapOrder c))).isEmpty then "pass" else "fail" := by
    unfold compare
    simp only [ho, hc, happly, hdigest, hdigest', Except.mapError, bind, Except.bind]
    exact ⟨_, rfl, rfl⟩
  obtain ⟨cmp, heq, hstatus⟩ := hcompare
  refine ⟨cmp, heq, ?_⟩
  rw [hstatus, ← residuals_eq_nil_iff, ← List.isEmpty_iff]
  split
  · simp [*]
  · simp [*]

/-- A stream passes exactly if it is alike, unless the two fields and the two
contexts that the comparison confuses get in the way. -/
theorem verdict_iff (hser : ∀ e, ∃ line, lib.toString e = .ok line)
    {caseId oracleInput candidateInput : String} (ho : parseEvents lib oracleInput = .ok o)
    (hc : parseEvents lib candidateInput = .ok c) :
    ((∃ cmp, compare lib caseId oracleInput candidateInput ["normalize.trap_order"] = .ok cmp ∧
      cmp.status = "pass") ↔ Alike Agree o c) ↔
      (Alike Similar o c → (zeroContexts o = zeroContexts c ↔ ∀ k, sizes k o = sizes k c)) := by
  obtain ⟨cmp, heq, hstatus⟩ := compare_trapOrder hser ho hc
  have hpass : (∃ cmp,
      compare lib caseId oracleInput candidateInput ["normalize.trap_order"] = .ok cmp ∧
        cmp.status = "pass") ↔ Alike Similar o c ∧ zeroContexts o = zeroContexts c := by
    rw [← forall₂_normalizeTrapOrder, ← hstatus, heq]
    constructor
    · rintro ⟨_, hcmp, hpass⟩
      rwa [Except.ok.inj hcmp]
    · exact fun hpass => ⟨cmp, rfl, hpass⟩
  rw [hpass, alike_agree_iff]
  exact and_congr_right_iff

end Compared

/-! ### Streams of lines -/

/-- What is read back as one line. -/
def IsLine (l : List Char) : Prop :=
  newline ∉ l ∧ l.getLast? ≠ some carriageReturn ∧ l.all isWhiteSpace = false

instance (l : List Char) : Decidable (IsLine l) :=
  inferInstanceAs (Decidable (newline ∉ l ∧ l.getLast? ≠ some carriageReturn ∧
    l.all isWhiteSpace = false))

theorem linesFrom_newline {l : List Char} (hl : newline ∉ l) (line rest : List Char) :
    linesFrom line (l ++ newline :: rest) = stripReturn (line ++ l) :: linesFrom [] rest := by
  induction l generalizing line with
  | nil =>
      show linesFrom line (newline :: rest) = _
      rw [linesFrom, if_pos rfl, List.append_nil]
  | cons c l ih =>
      have hc : c ≠ newline := fun h => hl (h ▸ List.mem_cons_self)
      show linesFrom line (c :: (l ++ newline :: rest)) = _
      rw [linesFrom, if_neg hc, ih fun h => hl (List.mem_cons_of_mem c h), List.append_assoc]
      rfl

theorem linesFrom_lines {ls : List (List Char)} (h : ∀ l ∈ ls, IsLine l) :
    linesFrom [] (ls.flatMap fun l => l ++ [newline]) = ls := by
  induction ls with
  | nil => rfl
  | cons l ls ih =>
      obtain ⟨⟨hnew, hreturn, -⟩, h⟩ := List.forall_mem_cons.mp h
      rw [List.flatMap_cons, List.append_assoc]
      show linesFrom [] (l ++ newline :: ls.flatMap fun l => l ++ [newline]) = _
      rw [linesFrom_newline hnew, ih h, List.nil_append, stripReturn, if_neg hreturn]

/-- A stream that is written line by line is read line by line. -/
theorem parseEvents_lines (lib : Library M) {lines : List String}
    (h : ∀ l ∈ lines, IsLine l.toList) :
    parseEvents lib (String.join (lines.map (· ++ "\n"))) = lines.mapM lib.fromStr := by
  have hls : ∀ l ∈ lines.map String.toList, IsLine l := List.forall_mem_map.mpr h
  have hchars : (String.join (lines.map (· ++ "\n"))).toList =
      (lines.map String.toList).flatMap fun l => l ++ [newline] := by
    rw [String.toList_join, List.flatMap_map, List.flatMap_map]
    congr 1
    funext l
    exact String.toList_append
  have hfilter : (lines.map String.toList).filter (fun l => !l.all isWhiteSpace) =
      lines.map String.toList := by
    apply List.filter_eq_self.mpr
    intro l hl
    rw [(hls l hl).2.2]
    rfl
  unfold parseEvents
  rw [hchars, linesFrom_lines hls, hfilter, List.mapM_map]
  have hread : (fun l => lib.fromStr (String.ofList l)) ∘ String.toList = lib.fromStr := by
    funext l
    show lib.fromStr (String.ofList l.toList) = lib.fromStr l
    rw [String.ofList_toList]
  rw [hread]

/-! ### Events of a harness -/

section Harness

/-- An event of operation 1. -/
def eventOf (seq : UInt64) (event : EventKind) (triggerContext : Option UInt64)
    (numBytes : Option UInt32) : Event Empty where
  seq
  opId := 1
  event
  result := "MOJO_RESULT_OK"
  handle := none
  payloadHex := none
  handles := none
  signals := none
  triggerContext
  signalsState := none
  outputs := none
  numBytes
  size := none
  process := none
  pid := none
  fd := none
  note := none

/-- A `data` event with this `num_bytes`. -/
def dataOf (numBytes : UInt32) : Event Empty := eventOf 1 .data none (some numBytes)

/-- A trap event with its context. -/
def trapOf (seq context : UInt64) : Event Empty := eventOf seq .trap (some context) none

/-- A line of a data event with four bytes. -/
def data4 : String :=
  "\x7b\"seq\":1,\"op_id\":1,\"event\":\"data\",\"result\":\"MOJO_RESULT_OK\",\"num_bytes\":4\x7d"

/-- The same with eight bytes. -/
def data8 : String :=
  "\x7b\"seq\":1,\"op_id\":1,\"event\":\"data\",\"result\":\"MOJO_RESULT_OK\",\"num_bytes\":8\x7d"

/-- The first trap, context 5. -/
def firstTrap5 : String :=
  "\x7b\"seq\":1,\"op_id\":1,\"event\":\"trap\",\"result\":\"MOJO_RESULT_OK\",\"trigger_context\":5\x7d"

/-- The second trap, context 1. -/
def secondTrap1 : String :=
  "\x7b\"seq\":2,\"op_id\":1,\"event\":\"trap\",\"result\":\"MOJO_RESULT_OK\",\"trigger_context\":1\x7d"

/-- The first trap, context 1. -/
def firstTrap1 : String :=
  "\x7b\"seq\":1,\"op_id\":1,\"event\":\"trap\",\"result\":\"MOJO_RESULT_OK\",\"trigger_context\":1\x7d"

/-- The second trap, context 5. -/
def secondTrap5 : String :=
  "\x7b\"seq\":2,\"op_id\":1,\"event\":\"trap\",\"result\":\"MOJO_RESULT_OK\",\"trigger_context\":5\x7d"

/-- The lines of a harness, and the events that they are read as. -/
def harnessLines : List (String × Event Empty) :=
  [(data4, dataOf 4), (data8, dataOf 8), (firstTrap5, trapOf 1 5), (secondTrap1, trapOf 2 1),
    (firstTrap1, trapOf 1 1), (secondTrap5, trapOf 2 5)]

/-- A stream of lines. -/
def streamOf (lines : List String) : String := String.join (lines.map (· ++ "\n"))

/-- The digests of the streams that it compares. -/
def harnessDigests : List (String × Nat) :=
  [(streamOf [data4], 0x4eb850f002ae09ca8ae395fe3391d011c22d8feeefdda25c00595f40cff602bf),
    (streamOf [data8], 0x2a624b3a9f68229e17e2e2b162d1c61cd04f03d4356b3cec35f799a198bd3b26),
    (streamOf [secondTrap1, firstTrap5],
      0xdb29214ff7c1dc4f60a114c41dda52ed535140a6509071f54eb46168c4cc1c22),
    (streamOf [firstTrap1, secondTrap5],
      0x48fa2d50924cae85726e1989c9233c00a667311bff41d853dc65b3017b905af1)]

/-- A JSON library that knows the lines of the harness. -/
def harness : Library Empty where
  fromStr line :=
    match harnessLines.find? fun l => l.1 = line with
    | some l => .ok l.2
    | none => .error "expected value at line 1 column 1"
  toString e :=
    match harnessLines.find? fun l => l.2.seq = e.seq ∧ l.2.event = e.event ∧
        l.2.triggerContext = e.triggerContext ∧ l.2.numBytes = e.numBytes with
    | some l => .ok l.1
    | none => .ok "null"
  sha256 bytes :=
    match harnessDigests.find? fun d => d.1.toUTF8.data = bytes.data with
    | some d => (Lib.toLE 32 d.2).reverse
    | none => []

theorem harness_toString (e : Event Empty) : ∃ line, harness.toString e = .ok line := by
  unfold harness
  show ∃ line, (match harnessLines.find? _ with
    | some l => Except.ok l.1
    | none => Except.ok "null") = Except.ok line
  split
  · exact ⟨_, rfl⟩
  · exact ⟨_, rfl⟩

theorem harnessLines_chars : (harnessLines.map fun l => l.1.toList).Nodup ∧
    ∀ l ∈ harnessLines.map fun l => l.1.toList, IsLine l := by
  show [data4.toList, data8.toList, firstTrap5.toList, secondTrap1.toList, firstTrap1.toList,
    secondTrap5.toList].Nodup ∧ ∀ l ∈ [data4.toList, data8.toList, firstTrap5.toList,
      secondTrap1.toList, firstTrap1.toList, secondTrap5.toList], IsLine l
  unfold data4 data8 firstTrap5 secondTrap1 firstTrap1 secondTrap5
  repeat rw [String.toList_ofList]
  decide

/-- Each line is read as its event. -/
theorem harness_fromStr {l : String × Event Empty} (hl : l ∈ harnessLines) :
    harness.fromStr l.1 = .ok l.2 := by
  have hfind : ∀ ls : List (String × Event Empty), (ls.map fun l => l.1.toList).Nodup → l ∈ ls →
      ls.find? (fun a => a.1 = l.1) = some l := by
    intro ls hnodup hmem
    induction ls with
    | nil => exact absurd hmem List.not_mem_nil
    | cons a ls ih =>
        obtain ⟨ha, hnodup⟩ := List.nodup_cons.mp hnodup
        rcases List.mem_cons.mp hmem with rfl | hmem
        · exact List.find?_cons_of_pos (decide_eq_true rfl)
        · have hne : a.1 ≠ l.1 := fun h =>
            ha (List.mem_map.mpr ⟨l, hmem, congrArg String.toList h.symm⟩)
          rw [List.find?_cons_of_neg (by simpa using hne)]
          exact ih hnodup hmem
  show (match harnessLines.find? fun a => a.1 = l.1 with
    | some l => Except.ok l.2
    | none => Except.error _) = _
  rw [hfind harnessLines harnessLines_chars.1 hl]

/-- A stream of these lines. -/
theorem parseEvents_harness (ls : List (String × Event Empty)) (h : ∀ l ∈ ls, l ∈ harnessLines) :
    parseEvents harness (streamOf (ls.map (·.1))) = .ok (ls.map (·.2)) := by
  unfold streamOf
  rw [parseEvents_lines harness (List.forall_mem_map.mpr fun l hl => ?_), List.mapM_map]
  · induction ls with
    | nil => rfl
    | cons l ls ih =>
        obtain ⟨hl, h⟩ := List.forall_mem_cons.mp h
        rw [List.mapM_cons, ih h, Function.comp_apply, harness_fromStr hl]
        rfl
  · exact harnessLines_chars.2 _ (List.mem_map.mpr ⟨l, h l hl, rfl⟩)

/-- Traps of two contexts pass in either order. -/
theorem twoTraps_verdict :
    (∃ cmp, compare harness "CASE.TEST.001" (streamOf [firstTrap5, secondTrap1])
      (streamOf [firstTrap1, secondTrap5]) ["normalize.trap_order"] = .ok cmp ∧
        cmp.status = "pass") ↔
      Alike Agree [trapOf 1 5, trapOf 2 1] [trapOf 1 1, trapOf 2 5] := by
  have ho : parseEvents harness (streamOf [firstTrap5, secondTrap1]) =
      .ok [trapOf 1 5, trapOf 2 1] :=
    parseEvents_harness [(firstTrap5, trapOf 1 5), (secondTrap1, trapOf 2 1)]
      (by simp [harnessLines])
  have hc : parseEvents harness (streamOf [firstTrap1, secondTrap5]) =
      .ok [trapOf 1 1, trapOf 2 5] :=
    parseEvents_harness [(firstTrap1, trapOf 1 1), (secondTrap5, trapOf 2 5)]
      (by simp [harnessLines])
  apply (verdict_iff harness_toString ho hc).mpr
  intro _
  refine iff_of_true rfl fun k => ?_
  show ([_, _].filter _).map _ = ([_, _].filter _).map _
  by_cases h1 : k = some 1
  · subst h1
    rfl
  · by_cases h5 : k = some 5
    · subst h5
      rfl
    · simp [trapOf, eventOf, eq_comm, h1, h5]

/-- Events that differ in `num_bytes` alone pass. -/
theorem numBytes_masked :
    parseEvents harness (streamOf [data4]) = .ok [dataOf 4] ∧
      parseEvents harness (streamOf [data8]) = .ok [dataOf 8] ∧
      (∃ cmp, compare harness "CASE.TEST.001" (streamOf [data4]) (streamOf [data8])
        ["normalize.trap_order"] = .ok cmp ∧ cmp.status = "pass") ∧
      ¬ Alike Agree [dataOf 4] [dataOf 8] := by
  have ho : parseEvents harness (streamOf [data4]) = .ok [dataOf 4] :=
    parseEvents_harness [(data4, dataOf 4)] (by simp [harnessLines])
  have hc : parseEvents harness (streamOf [data8]) = .ok [dataOf 8] :=
    parseEvents_harness [(data8, dataOf 8)] (by simp [harnessLines])
  obtain ⟨cmp, heq, hstatus⟩ := compare_trapOrder harness_toString ho hc
  refine ⟨ho, hc, ⟨cmp, heq, ?_⟩, fun h => ?_⟩
  · apply hstatus.mpr
    show Forall₂ Similar [dataOf 4] [dataOf 8]
    exact Forall₂.cons (eventEq_iff.mp rfl) Forall₂.nil
  · have hagree : Agree (dataOf 4) (dataOf 8) := h.others 0 _ _ rfl rfl (.inl (by decide))
    exact absurd hagree.numBytes (by decide)

end Harness

end MojoRs.Casefile
