/-
MojoRs/Ipcz/OutboundNumbers.lean

The numbers of outbound parcels (`push_outbound` and `collect_outbound` in
`router.rs`, `put` in `routing.rs`): pushes from the portal, changes of the
outward links and collections of what can be transmitted, in any order.

A push takes the current number of the outbound queue, which advances when a
parcel is transmitted and not before.  A run keeps the parcels that were pushed
and those that were collected; the numbering is right when what was collected
and what still waits are together the parcels pushed, one after the other.

Main result: `outbound_iff` — the numbering is right in every state of a run
just if nothing is pushed while a parcel waits.
-/
import MojoRs.Ipcz.Router
import MojoRs.Lib.Run

namespace MojoRs.Ipcz

open Lib

/-- `u64::MAX`, for a parcel that has no number yet. -/
def unnumbered : Nat := 2 ^ 64 - 1

/-- `push_outbound`. -/
def Router.pushOutbound (r : Router) (p : Parcel) : Option Router :=
  let p :=
    if p.sequenceNumber = unnumbered then { p with sequenceNumber := r.outbound.current } else p
  r.acceptOutbound p

/-! ### Runs -/

/-- A change of the outward links. -/
inductive EdgeOp
  | adopt (link : Link)
  | beginDecay
  | lengthTo (length : Nat)
  | lengthFrom (length : Nat)
  | finishDecay
  | releasePrimary
  | releaseDecaying

/-- The outward edge after a change. -/
def Router.outwardAfter (r : Router) : EdgeOp → Edge
  | .adopt link => r.outward.setPrimaryLink link
  | .beginDecay => r.outward.beginDecay
  | .lengthTo length => r.outward.setLengthToDecayingLink length
  | .lengthFrom length => r.outward.setLengthFromDecayingLink length
  | .finishDecay => (r.outward.maybeFinishDecay r.outboundLength r.inboundLength).2
  | .releasePrimary => r.outward.releasePrimaryLink
  | .releaseDecaying => r.outward.releaseDecayingLink

/-- An operation on the outward side of a router. -/
inductive OutboundOp
  /-- A push from the portal: numbered by the router, or as `put` does it. -/
  | push (p : Parcel) (automatic : Bool)
  | link (op : EdgeOp)
  | collect

/-- A router with its history: the first number, the parcels pushed so far, and
those collected with their links. -/
structure OutboundRun where
  start : Nat
  router : Router
  pushed : List Parcel
  collected : List (Link × Parcel)

namespace OutboundRun

/-- A router whose outbound queue has been reset to `start`. -/
def init (r : Router) (start : UInt64) : OutboundRun :=
  ⟨start.toNat, { r with outbound := .resetSequence start.toNat }, [], []⟩

/-- The parcel as it is handed to `push_outbound`. -/
def numberedFor (s : OutboundRun) (p : Parcel) (automatic : Bool) : Parcel :=
  { p with sequenceNumber := if automatic then unnumbered else s.router.outbound.current }

/-- One step, with what it transmits. -/
def step (s : OutboundRun) : OutboundOp → OutboundRun
  | .push p automatic =>
      { s with
        router := (s.router.pushOutbound (s.numberedFor p automatic)).getD s.router
        pushed := s.pushed ++ [p] }
  | .link op => { s with router := { s.router with outward := s.router.outwardAfter op } }
  | .collect =>
      { s with
        router := s.router.collectOutbound.2
        collected := s.collected ++ s.router.collectOutbound.1 }

/-- Parcels with consecutive numbers. -/
def consecutive (start : Nat) : List Parcel → List Parcel
  | [] => []
  | p :: ps => { p with sequenceNumber := start } :: consecutive (start + 1) ps

/-- Every parcel pushed has the next number, and is either collected, in the
order of the pushes, or still waiting. -/
structure Numbered (s : OutboundRun) : Prop where
  kept : s.collected.map (·.2) ++ s.router.outbound.buffer = consecutive s.start s.pushed
  /-- The counter is a `u64`. -/
  fits : s.start + s.pushed.length < 2 ^ 64

/-- No push is refused, and a collection leaves only what has no link. -/
def Served (s : OutboundRun) : OutboundOp → Prop
  | .push p automatic => (s.router.pushOutbound (s.numberedFor p automatic)).isSome
  | .link _ => True
  | .collect =>
      (s.step .collect).router.outbound.buffer = [] ∨
        s.router.outward.linkFor (s.step .collect).router.outbound.current = none

/-- No parcel waits when another one is pushed, and there is a number left. -/
def Idle (s : OutboundRun) : OutboundOp → Prop
  | .push _ _ => s.router.outbound.buffer = [] ∧ s.router.outbound.current + 1 < 2 ^ 64
  | .link _ | .collect => True

/-! ### One step -/

theorem length_consecutive (start : Nat) (ps : List Parcel) :
    (consecutive start ps).length = ps.length := by
  induction ps generalizing start with
  | nil => rfl
  | cons p ps ih => exact congrArg Nat.succ (ih (start + 1))

theorem consecutive_append (start : Nat) (ps : List Parcel) (p : Parcel) :
    consecutive start (ps ++ [p]) =
      consecutive start ps ++ [{ p with sequenceNumber := start + ps.length }] := by
  induction ps generalizing start with
  | nil => rfl
  | cons q ps ih =>
      show _ :: consecutive (start + 1) (ps ++ [p]) = _ :: (consecutive (start + 1) ps ++ _)
      rw [ih, Nat.add_assoc, Nat.add_comm 1]
      rfl

/-- Both kinds of pushes take the current number. -/
theorem pushOutbound_eq (s : OutboundRun) (p : Parcel) (automatic : Bool) :
    s.router.pushOutbound (s.numberedFor p automatic) =
      some { s.router with outbound := { s.router.outbound with
        buffer := ParcelMap.insert { p with sequenceNumber := s.router.outbound.current }
          s.router.outbound.buffer } } := by
  have hnum : (if (s.numberedFor p automatic).sequenceNumber = unnumbered then
        { s.numberedFor p automatic with sequenceNumber := s.router.outbound.current }
      else s.numberedFor p automatic) =
        { p with sequenceNumber := s.router.outbound.current } := by
    cases automatic with
    | true => exact if_pos rfl
    | false =>
        show (if s.router.outbound.current = unnumbered then _ else _) = _
        split <;> rfl
  show Router.acceptOutbound s.router _ = _
  rw [hnum, Router.acceptOutbound, ParcelQueue.push, if_neg (Nat.lt_irrefl _)]
  rfl

/-- What a collection does where at most one parcel waits. -/
theorem collect_empty (edge : Edge) (q : ParcelQueue) (h : q.buffer = []) :
    q.collect edge = ([], q) := by
  unfold ParcelQueue.collect
  rw [h]
  rfl

theorem collect_single (edge : Edge) {q : ParcelQueue} {p : Parcel} (h : q.buffer = [p])
    (hp : p.sequenceNumber = q.current) :
    q.collect edge =
      match edge.linkFor q.current with
      | some link => ([(link, p)], { q with current := q.current + 1, buffer := [] })
      | none => ([], q) := by
  have hpop : q.pop = some (p, { q with current := q.current + 1, buffer := [] }) := by
    simp [ParcelQueue.pop, h, ParcelMap.get?_cons, hp, ParcelMap.erase]
  unfold ParcelQueue.collect
  rw [h]
  show ParcelQueue.collectLoop edge 1 q = _
  rw [ParcelQueue.collectLoop, hpop]
  cases edge.linkFor q.current <;> rfl

/-- How the queue follows its history as long as no push finds a parcel. -/
structure Tracks (s : OutboundRun) : Prop where
  numbered : s.Numbered
  current : s.router.outbound.current = s.start + s.collected.length
  waiting : s.router.outbound.buffer = [] ∨
    ∃ p, s.router.outbound.buffer = [p] ∧ p.sequenceNumber = s.router.outbound.current

theorem tracks_init (r : Router) (start : UInt64) : (init r start).Tracks where
  numbered := ⟨rfl, start.toNat_lt⟩
  current := rfl
  waiting := .inl rfl

theorem Tracks.push {s : OutboundRun} (h : s.Tracks) {p : Parcel} {automatic : Bool}
    (hidle : s.Idle (.push p automatic)) : (s.step (.push p automatic)).Tracks := by
  obtain ⟨hempty, hfits⟩ := hidle
  have hkept := h.numbered.kept
  rw [hempty, List.append_nil] at hkept
  -- all that was pushed has been collected
  have hall : s.collected.length = s.pushed.length := by
    rw [← length_consecutive s.start s.pushed, ← hkept, List.length_map]
  have hcurrent := h.current
  rw [hall] at hcurrent
  have hrouter : (s.step (.push p automatic)).router = { s.router with
      outbound := { s.router.outbound with
        buffer := [{ p with sequenceNumber := s.router.outbound.current }] } } := by
    show (s.router.pushOutbound (s.numberedFor p automatic)).getD s.router = _
    rw [pushOutbound_eq, hempty]
    rfl
  refine ⟨⟨?_, ?_⟩, ?_, ?_⟩
  · rw [hrouter]
    show s.collected.map _ ++ _ = consecutive s.start (s.pushed ++ [p])
    rw [hkept, consecutive_append, hcurrent]
  · show s.start + (s.pushed ++ [p]).length < _
    rw [List.length_append, List.length_singleton, ← Nat.add_assoc, ← hcurrent]
    exact hfits
  · rw [hrouter]
    exact h.current
  · rw [hrouter]
    exact .inr ⟨_, rfl, rfl⟩

theorem Tracks.collect {s : OutboundRun} (h : s.Tracks) :
    (s.step .collect).Tracks ∧ s.Served .collect := by
  have hkept := h.numbered.kept
  rcases h.waiting with hempty | ⟨p, hp, hnum⟩
  · have hcollect := collect_empty s.router.outward s.router.outbound hempty
    have hstep : s.step .collect = s := by
      show { s with
        router := { s.router with outbound := (s.router.outbound.collect s.router.outward).2 }
        collected := s.collected ++ (s.router.outbound.collect s.router.outward).1 } = s
      rw [hcollect, List.append_nil]
    refine ⟨hstep.symm ▸ h, .inl ?_⟩
    rw [hstep]
    exact hempty
  · have hcollect := collect_single s.router.outward hp hnum
    cases hlink : s.router.outward.linkFor s.router.outbound.current with
    | none =>
        rw [hlink] at hcollect
        have hstep : s.step .collect = s := by
          show { s with
            router := { s.router with outbound := (s.router.outbound.collect s.router.outward).2 }
            collected := s.collected ++ (s.router.outbound.collect s.router.outward).1 } = s
          rw [hcollect, List.append_nil]
        refine ⟨hstep.symm ▸ h, .inr ?_⟩
        rw [hstep]
        exact hlink
    | some link =>
        rw [hlink] at hcollect
        have hstep : s.step .collect = { s with
            router := { s.router with outbound := { s.router.outbound with
              current := s.router.outbound.current + 1
              buffer := [] } }
            collected := s.collected ++ [(link, p)] } := by
          show { s with
            router := { s.router with outbound := (s.router.outbound.collect s.router.outward).2 }
            collected := s.collected ++ (s.router.outbound.collect s.router.outward).1 } = _
          rw [hcollect]
        rw [hp] at hkept
        refine ⟨?_, .inl ?_⟩
        · rw [hstep]
          refine ⟨⟨?_, h.numbered.fits⟩, ?_, .inl rfl⟩
          · show (s.collected ++ [(link, p)]).map _ ++ [] = _
            rw [List.append_nil, List.map_append, ← hkept]
            rfl
          · show s.router.outbound.current + 1 = s.start + (s.collected ++ [(link, p)]).length
            rw [h.current, List.length_append]
            rfl
        · rw [hstep]

theorem Tracks.step {s : OutboundRun} (h : s.Tracks) {op : OutboundOp} (hidle : s.Idle op) :
    (s.step op).Tracks := by
  cases op with
  | push p automatic => exact h.push hidle
  | link op => exact ⟨⟨h.numbered.kept, h.numbered.fits⟩, h.current, h.waiting⟩
  | collect => exact h.collect.1

theorem Tracks.served {s : OutboundRun} (h : s.Tracks) (op : OutboundOp) : s.Served op := by
  cases op with
  | push p automatic =>
      show (s.router.pushOutbound (s.numberedFor p automatic)).isSome
      rw [pushOutbound_eq]
      rfl
  | link op => trivial
  | collect => exact h.collect.2

/-- A push that leaves the numbering right found nothing waiting. -/
theorem Tracks.idle {s : OutboundRun} (h : s.Tracks) {op : OutboundOp}
    (hnext : (s.step op).Numbered) : s.Idle op := by
  cases op with
  | push p automatic =>
      have hlength := congrArg List.length h.numbered.kept
      have hkept := congrArg List.length hnext.kept
      have hbuffer : (s.step (.push p automatic)).router.outbound.buffer =
          ParcelMap.insert { p with sequenceNumber := s.router.outbound.current }
            s.router.outbound.buffer := by
        show ((s.router.pushOutbound (s.numberedFor p automatic)).getD s.router).outbound.buffer = _
        rw [pushOutbound_eq]
        rfl
      rw [List.length_append, List.length_map, length_consecutive] at hlength hkept
      rw [hbuffer] at hkept
      have hcount : (s.step (.push p automatic)).pushed.length = s.pushed.length + 1 :=
        List.length_append
      have hempty : s.router.outbound.buffer = [] := by
        rcases h.waiting with hempty | ⟨q, hq, hnum⟩
        · exact hempty
        · -- the parcel would take the place of the one that waits
          rw [hq, List.length_singleton] at hlength
          have hinsert : ParcelMap.insert { p with sequenceNumber := s.router.outbound.current }
              s.router.outbound.buffer = [{ p with
                sequenceNumber := s.router.outbound.current }] := by
            rw [hq]
            simp [ParcelMap.insert, hnum]
          rw [hinsert, List.length_singleton, hcount] at hkept
          have hsame : (s.step (.push p automatic)).collected.length = s.collected.length := rfl
          omega
      refine ⟨hempty, ?_⟩
      rw [hempty, List.length_nil] at hlength
      have hfits : s.start + (s.step (.push p automatic)).pushed.length < 2 ^ 64 := hnext.fits
      have hcurrent := h.current
      omega
  | link op => trivial
  | collect => trivial

/-! ### Whole runs -/

/-- In a run every parcel pushed has the next consecutive number and is
collected once and in order, as soon as there is a link, just if no parcel is
pushed while another one waits. -/
theorem outbound_iff (r : Router) (start : UInt64) (ops : List OutboundOp) :
    Always step Numbered (init r start) ops ∧ Meets step Served (init r start) ops ↔
      Meets step Idle (init r start) ops := by
  constructor
  · rintro ⟨hnumbered, -⟩
    exact meets_of_always (fun _ _ h hidle => h.step hidle) (fun _ _ h hnext => h.idle hnext)
      (tracks_init r start) hnumbered
  · intro hidle
    exact ⟨(always_of_meets (fun _ _ h hidle => h.step hidle) (tracks_init r start) hidle).imp
        fun _ h => h.numbered,
      hidle.imp (fun _ _ h hidle => h.step hidle) (fun _ op h _ => h.served op)
        (tracks_init r start)⟩

/-- Two parcels pushed before there is a link: only the second one, under the
number of the first, is ever collected. -/
theorem backlog_overwritten :
    let a : Parcel := ⟨0, [1], [], none⟩
    let b : Parcel := ⟨0, [2], [], none⟩
    let link := Link.remote 0 1 .central .a none
    let ops : List OutboundOp :=
      [.push a true, .push b false, .link (.adopt link), .collect]
    (exec step (init .bare 0) ops).collected = [(link, b)] ∧
      (exec step (init .bare 0) ops).router.outbound.buffer = [] ∧
      ¬ Always step Numbered (init .bare 0) ops := by
  refine ⟨rfl, rfl, fun h => ?_⟩
  have hkept := h.last.kept
  exact absurd (congrArg List.length hkept) (by decide)

end OutboundRun

end MojoRs.Ipcz
