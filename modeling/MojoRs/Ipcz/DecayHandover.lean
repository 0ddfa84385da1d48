/-
MojoRs/Ipcz/DecayHandover.lean

How the edges of a router hand over from a decaying link to the next primary
link (`Edge` and the collecting and finishing functions of `router.rs`), for any
sequence of decays, links, lengths, pushes, collections and completions.

The outward edge transmits from the outbound queue, the inward and the bridge
edge transmit from the inbound queue; each receives into the other one.  A run
keeps the numbers transmitted from either queue, and for every edge what it has
transmitted since its decay began or ended, with the edge as it was then.

Main results:
* `collect_spec` — what one collection transmits, and over which links;
* `handover_iff` — numbers are transmitted once and in order, those below the
  outgoing length over the decaying link and the others over the primary link,
  and a decaying link is dropped only when both lengths are reached, just if
  `finish_decays` never finds inbound parcels below the outgoing length of the
  inward edge that have been received but not forwarded.
-/
import MojoRs.Ipcz.SequencedQueue

namespace MojoRs.Ipcz

open Lib
open Function (update)

/-! ### Edges and queues of a router -/

/-- The edges of a router. -/
inductive EdgeSide
  | outward
  | inward
  | bridge
  deriving DecidableEq, Repr

/-- The queues of a router. -/
inductive Flow
  | outbound
  | inbound
  deriving DecidableEq, Repr

/-- The queue that an edge receives into. -/
def Flow.opposite : Flow → Flow
  | .outbound => .inbound
  | .inbound => .outbound

/-- The queue that an edge transmits from. -/
def EdgeSide.flow : EdgeSide → Flow
  | .outward => .outbound
  | .inward | .bridge => .inbound

namespace Router

/-- The edge on a side. -/
def edge? (r : Router) : EdgeSide → Option Edge
  | .outward => some r.outward
  | .inward => r.inward
  | .bridge => r.bridge

/-- Change the edge on a side. -/
def mapEdge (r : Router) (f : Edge → Edge) : EdgeSide → Router
  | .outward => { r with outward := f r.outward }
  | .inward => { r with inward := r.inward.map f }
  | .bridge => { r with bridge := r.bridge.map f }

/-- The queue of a flow. -/
def queue (r : Router) : Flow → ParcelQueue
  | .outbound => r.outbound
  | .inbound => r.inbound

/-- Change the queue of a flow. -/
def setQueue (r : Router) (q : ParcelQueue) : Flow → Router
  | .outbound => { r with outbound := q }
  | .inbound => { r with inbound := q }

/-- `accept_outbound`, `accept_inbound`. -/
def accept (r : Router) (p : Parcel) : Flow → Option Router
  | .outbound => r.acceptOutbound p
  | .inbound => r.acceptInbound p

/-- `collect_outbound`, `collect_inbound`, `collect_bridge`. -/
def collectOn (r : Router) : EdgeSide → List (Link × Parcel) × Router
  | .outward => r.collectOutbound
  | .inward => r.collectInbound
  | .bridge => r.collectBridge

/-- The link of an edge that decays. -/
def decayingLinkOn (r : Router) (side : EdgeSide) : Option Link :=
  (r.edge? side).bind (·.decayingLink)

@[simp] theorem queue_mapEdge (r : Router) (f : Edge → Edge) (side : EdgeSide) (flow : Flow) :
    (r.mapEdge f side).queue flow = r.queue flow := by
  cases side <;> cases flow <;> rfl

theorem edge?_mapEdge (r : Router) (f : Edge → Edge) (side side' : EdgeSide) :
    (r.mapEdge f side).edge? side' =
      if side' = side then (r.edge? side).map f else r.edge? side' := by
  cases side <;> cases side' <;> rfl

@[simp] theorem edge?_setQueue (r : Router) (q : ParcelQueue) (flow : Flow) (side : EdgeSide) :
    (r.setQueue q flow).edge? side = r.edge? side := by
  cases side <;> cases flow <;> rfl

theorem queue_setQueue (r : Router) (q : ParcelQueue) (flow flow' : Flow) :
    (r.setQueue q flow).queue flow' = if flow' = flow then q else r.queue flow' := by
  cases flow <;> cases flow' <;> rfl

theorem accept_eq (r : Router) (p : Parcel) (flow : Flow) :
    r.accept p flow = ((r.queue flow).push p).map fun q => r.setQueue q flow := by
  cases flow <;> rfl

theorem collectOn_some {r : Router} {side : EdgeSide} {e : Edge} (h : r.edge? side = some e) :
    r.collectOn side = (((r.queue side.flow).collect e).1,
      r.setQueue ((r.queue side.flow).collect e).2 side.flow) := by
  obtain ⟨portal, outward, inward, bridge, inbound, outbound, peerClosed, disconnected⟩ := r
  cases side with
  | outward =>
      obtain rfl : outward = e := Option.some.inj h
      rfl
  | inward =>
      obtain rfl : inward = some e := h
      rfl
  | bridge =>
      obtain rfl : bridge = some e := h
      rfl

end Router

/-! ### One collection -/

/-- A collection transmits consecutive numbers, each over the link of its
number, and receives nothing. -/
theorem collect_spec (q : ParcelQueue) (edge : Edge) :
    (q.collect edge).1.map (·.2.sequenceNumber) =
        List.range' q.current (q.collect edge).1.length ∧
      (q.collect edge).2.current = q.current + (q.collect edge).1.length ∧
      (∀ x ∈ (q.collect edge).1, edge.linkFor x.2.sequenceNumber = some x.1) ∧
      (q.collect edge).2.currentSequenceLength ≤ q.currentSequenceLength := by
  have hloop (fuel : Nat) : ∀ q : ParcelQueue,
      (q.collectLoop edge fuel).1.map (·.2.sequenceNumber) =
          List.range' q.current (q.collectLoop edge fuel).1.length ∧
        (q.collectLoop edge fuel).2.current = q.current + (q.collectLoop edge fuel).1.length ∧
        (∀ x ∈ (q.collectLoop edge fuel).1, edge.linkFor x.2.sequenceNumber = some x.1) ∧
        (q.collectLoop edge fuel).2.currentSequenceLength ≤ q.currentSequenceLength := by
    induction fuel with
    | zero => exact fun q => ⟨rfl, rfl, by simp [ParcelQueue.collectLoop], Nat.le_refl _⟩
    | succ fuel ih =>
        intro q
        rw [ParcelQueue.collectLoop]
        split
        · rename_i link p q' hlink hpop
          obtain ⟨hbuf, hq⟩ := ParcelQueue.pop_eq hpop
          have hnum : p.sequenceNumber = q.current := (ParcelMap.mem_of_get? hbuf).2
          have hcurrent : q'.current = q.current + 1 := by rw [hq]
          obtain ⟨hnumbers, hend, hlinks, hlength⟩ := ih q'
          refine ⟨?_, ?_, ?_, ?_⟩
          · show p.sequenceNumber :: _ = List.range' q.current (_ + 1)
            rw [List.range'_succ, hnum, ← hcurrent]
            exact congrArg _ hnumbers
          · show (q'.collectLoop edge fuel).2.current = q.current + (_ + 1)
            rw [hend, hcurrent, Nat.add_assoc, Nat.add_comm 1]
          · intro x hx
            rcases List.mem_cons.mp hx with rfl | hx
            · rw [hnum]
              exact hlink
            · exact hlinks x hx
          · exact hlength.trans (ParcelQueue.currentSequenceLength_pop hpop)
        · exact ⟨rfl, rfl, by simp, Nat.le_refl _⟩
  exact hloop _ q

/-- A collection ends at a number without a link or without a parcel. -/
theorem collect_stops (q : ParcelQueue) (edge : Edge) :
    edge.linkFor (q.collect edge).2.current = none ∨
      (q.collect edge).2.buffer.get? (q.collect edge).2.current = none := by
  have hloop (fuel : Nat) : ∀ q : ParcelQueue, q.buffer.length ≤ fuel →
      edge.linkFor (q.collectLoop edge fuel).2.current = none ∨
        (q.collectLoop edge fuel).2.buffer.get? (q.collectLoop edge fuel).2.current = none := by
    induction fuel with
    | zero =>
        intro q hq
        refine .inr ?_
        show q.buffer.get? q.current = none
        rw [List.length_eq_zero_iff.mp (Nat.le_zero.mp hq)]
        rfl
    | succ fuel ih =>
        intro q hq
        rw [ParcelQueue.collectLoop]
        split
        · rename_i link p q' _ hpop
          exact ih q' (Nat.le_of_succ_le_succ ((ParcelQueue.pop_length hpop).trans hq))
        · rename_i hstop
          by_contra hgo
          rw [not_or] at hgo
          obtain ⟨link, hlink⟩ := Option.ne_none_iff_exists'.mp hgo.1
          obtain ⟨p, hp⟩ := Option.ne_none_iff_exists'.mp hgo.2
          have hpop : q.pop = some (p, { q with
              current := q.current + 1
              buffer := q.buffer.erase q.current }) := by
            unfold ParcelQueue.pop
            rw [show q.buffer.get? q.current = some p from hp]
          exact hstop link p _ hlink hpop
  exact hloop _ q (Nat.le_refl _)

/-- A number goes to the decaying link below the outgoing length, and to the
primary link from there on. -/
theorem linkFor_eq {e : Edge} {n : Nat} {link : Link} (h : e.linkFor n = some link) :
    match e.decaying with
    | none => e.primary = some link
    | some d =>
        if d.link.isSome ∧ ∀ len, d.outgoingLength = some len → n < len then
          e.decayingLink = some link
        else e.primary = some link := by
  unfold Edge.linkFor Edge.shouldTransmitOnDecayingLink at h
  split
  · rename_i hd
    rw [hd] at h
    exact h
  · rename_i d hd
    rw [hd] at h
    cases hlink : d.link with
    | none => simpa [hlink] using h
    | some l =>
        cases hout : d.outgoingLength with
        | none => simpa [hlink, hout] using h
        | some len =>
            simp only [hlink, hout, Option.isSome_some, Option.all_some, Bool.true_and,
              decide_eq_true_eq, true_and, Option.some.injEq, forall_eq'] at h ⊢
            split_ifs at h ⊢
            · exact h
            · exact h

/-! ### Runs -/

/-- A parcel transmitted over an edge, with the edge as it was then. -/
structure Transmission where
  link : Link
  number : Nat
  edge : Edge

/-- The transmission used the link that its number has in a decay with these
lengths, or the primary link where nothing decays. -/
def Transmission.Follows (t : Transmission) : Option DecayingLink → Prop
  | none => t.edge.primary = some t.link
  | some d =>
      match d.outgoingLength with
      | none => t.edge.decayingLink = some t.link
      | some len =>
          (t.number < len → t.edge.decayingLink = some t.link) ∧
            (len ≤ t.number → t.edge.primary = some t.link)

/-- The steps of a router that concern its edges and queues. -/
inductive HandoverOp
  | beginDecay (side : EdgeSide)
  | setPrimary (side : EdgeSide) (link : Link)
  | lengthTo (side : EdgeSide) (length : Nat)
  | lengthFrom (side : EdgeSide) (length : Nat)
  | push (flow : Flow) (p : Parcel)
  | collect (side : EdgeSide)
  | finishDecays
  | finishBridgeDecay

/-- A router with its history: where the queues started, the numbers that they
have transmitted, and what each edge has transmitted since its decay began or
ended. -/
structure HandoverRun where
  router : Router
  start : Flow → Nat
  transmitted : Flow → List Nat
  sent : EdgeSide → List Transmission

namespace HandoverRun

/-- A router at the start, nothing transmitted. -/
def init (r : Router) : HandoverRun :=
  ⟨r, fun flow => (r.queue flow).current, fun _ => [], fun _ => []⟩

/-- Completions: an edge whose decaying link is gone begins anew. -/
def finish (s : HandoverRun) (r : Router) : HandoverRun :=
  { s with
    router := r
    sent := fun side =>
      if (s.router.decayingLinkOn side).isSome ∧ r.decayingLinkOn side = none then []
      else s.sent side }

/-- One step, with what it transmits. -/
def step (s : HandoverRun) : HandoverOp → HandoverRun
  | .beginDecay side =>
      { s with
        router := s.router.mapEdge Edge.beginDecay side
        sent := if (s.router.edge? side).any (·.isStable) then update s.sent side [] else s.sent }
  | .setPrimary side link => { s with router := s.router.mapEdge (·.setPrimaryLink link) side }
  | .lengthTo side len =>
      { s with router := s.router.mapEdge (·.setLengthToDecayingLink len) side }
  | .lengthFrom side len =>
      { s with router := s.router.mapEdge (·.setLengthFromDecayingLink len) side }
  | .push flow p => { s with router := (s.router.accept p flow).getD s.router }
  | .collect side =>
      match s.router.edge? side with
      | none => s
      | some e =>
          let (out, r) := s.router.collectOn side
          { s with
            router := r
            transmitted := update s.transmitted side.flow
              (s.transmitted side.flow ++ out.map (·.2.sequenceNumber))
            sent := update s.sent side
              (s.sent side ++ out.map fun x => ⟨x.1, x.2.sequenceNumber, e⟩) }
  | .finishDecays => s.finish s.router.finishDecays.2.2
  | .finishBridgeDecay => s.finish s.router.finishBridgeDecay

/-- Every number is transmitted once and in order; what an edge has transmitted
since its decay began went to the decaying link below the outgoing length and to
the primary link otherwise. -/
structure HandedOver (s : HandoverRun) : Prop where
  inOrder : ∀ flow,
    s.transmitted flow = List.range' (s.start flow) (s.transmitted flow).length
  follows : ∀ side e, s.router.edge? side = some e → ∀ t ∈ s.sent side, t.Follows e.decaying
  /-- The counters are `u64`. -/
  fits : ∀ flow, (s.router.queue flow).currentSequenceLength < 2 ^ 64

/-- A decaying link is dropped only with both lengths known, every number below
the outgoing one transmitted, and the incoming one received without a gap. -/
def DropsComplete (s : HandoverRun) (op : HandoverOp) : Prop :=
  ∀ side link, s.router.decayingLinkOn side = some link →
    (s.step op).router.decayingLinkOn side ≠ some link →
    ∃ e out inc, s.router.edge? side = some e ∧ e.lengthToDecayingLink = some out ∧
      e.lengthFromDecayingLink = some inc ∧
      (∀ n, s.start side.flow ≤ n → n < out → n ∈ s.transmitted side.flow) ∧
      inc ≤ (s.router.queue side.flow.opposite).currentSequenceLength

/-- The lengths are set as the callers do it: once in a decay, and the outgoing
one not below what has been transmitted. -/
def AsCallers (s : HandoverRun) : HandoverOp → Prop
  | .lengthTo side len => ∀ e, s.router.edge? side = some e →
      e.lengthToDecayingLink = none ∧ (s.router.queue side.flow).current ≤ len
  | .lengthFrom side _ => ∀ e, s.router.edge? side = some e → e.lengthFromDecayingLink = none
  | _ => True

/-- What has been received below the outgoing length of an inward edge that is
about to finish its decay has been forwarded. -/
def InwardCollected (r : Router) : Prop :=
  ∀ e out inc, r.inward = some e → e.decayingLink.isSome → e.lengthToDecayingLink = some out →
    e.lengthFromDecayingLink = some inc → out ≤ r.inboundLength → inc ≤ r.outboundLength →
    out ≤ r.inbound.current

/-- Decays are finished with the inward edge collected, and no queue is filled
up to the last number of 64 bits. -/
def Collected (s : HandoverRun) : HandoverOp → Prop
  | .push flow p => ¬ (s.router.queue flow).FillsUp p.sequenceNumber
  | .finishDecays => InwardCollected s.router
  | _ => True

/-- Routers as their own operations leave them: a decay without a link has no
primary link beside it, and the counters fit. -/
structure Proper (r : Router) : Prop where
  deferred : ∀ side e d, r.edge? side = some e → e.decaying = some d → d.link = none →
    e.primary = none
  fits : ∀ flow, (r.queue flow).currentSequenceLength < 2 ^ 64

/-! ### One edge -/

/-- What an edge of a queue at `current` has transmitted. -/
structure EdgeTracks (current : Nat) (e : Edge) (sent : List Transmission) : Prop where
  deferred : ∀ d, e.decaying = some d → d.link = none → e.primary = none
  follows : ∀ t ∈ sent, t.Follows e.decaying
  below : ∀ t ∈ sent, t.number < current

section Edges

variable {current : Nat} {e : Edge} {sent : List Transmission}

theorem EdgeTracks.mono (h : EdgeTracks current e sent) {current' : Nat}
    (hle : current ≤ current') : EdgeTracks current' e sent :=
  ⟨h.deferred, h.follows, fun t ht => Nat.lt_of_lt_of_le (h.below t ht) hle⟩

theorem EdgeTracks.beginDecay (h : EdgeTracks current e sent) :
    EdgeTracks current e.beginDecay (if e.isStable then [] else sent) := by
  cases hd : e.decaying with
  | none =>
      have hbegin : e.beginDecay = ⟨none, some ⟨e.primary, none, none⟩⟩ := by
        simp [Edge.beginDecay, Edge.beginPrimaryLinkDecay, hd]
      have hstable : e.isStable = true := by simp [Edge.isStable, hd]
      rw [hbegin, if_pos hstable]
      exact ⟨fun _ _ _ => rfl, by simp, by simp⟩
  | some d =>
      have hbegin : e.beginDecay = e := by
        simp [Edge.beginDecay, Edge.beginPrimaryLinkDecay, hd]
      have hstable : ¬ e.isStable = true := by simp [Edge.isStable, hd]
      rw [hbegin, if_neg hstable]
      exact h

theorem EdgeTracks.setPrimaryLink (h : EdgeTracks current e sent) (link : Link) :
    EdgeTracks current (e.setPrimaryLink link) sent := by
  obtain ⟨primary, decaying⟩ := e
  rcases decaying with - | ⟨- | l, out, inc⟩
  all_goals
    exact ⟨by simp [Edge.setPrimaryLink], h.follows, h.below⟩

/-- All that has been transmitted so far is below the new length. -/
theorem EdgeTracks.setLengthTo (h : EdgeTracks current e sent)
    (hnone : e.lengthToDecayingLink = none) {len : Nat} (hle : current ≤ len) :
    EdgeTracks current (e.setLengthToDecayingLink len) sent := by
  obtain ⟨primary, decaying⟩ := e
  rcases decaying with - | ⟨link, out, inc⟩
  · exact h
  · obtain rfl : out = none := hnone
    refine ⟨fun d hd hlink => ?_, fun t ht => ?_, h.below⟩
    · cases hd
      exact h.deferred _ rfl hlink
    · have hlt := Nat.lt_of_lt_of_le (h.below t ht) hle
      exact ⟨fun _ => h.follows t ht, fun hge => absurd hlt (Nat.not_lt.mpr hge)⟩

theorem EdgeTracks.setLengthFrom (h : EdgeTracks current e sent) (len : Nat) :
    EdgeTracks current (e.setLengthFromDecayingLink len) sent := by
  obtain ⟨primary, decaying⟩ := e
  rcases decaying with - | ⟨link, out, inc⟩
  · exact h
  · refine ⟨fun d hd hlink => ?_, fun t ht => h.follows t ht, h.below⟩
    cases hd
    exact h.deferred _ rfl hlink

/-- What a collection transmits follows the lengths that are known. -/
theorem EdgeTracks.collect (h : EdgeTracks current e sent) {q : ParcelQueue}
    (hq : q.current = current) :
    EdgeTracks (q.collect e).2.current e
      (sent ++ (q.collect e).1.map fun x => ⟨x.1, x.2.sequenceNumber, e⟩) := by
  obtain ⟨hnumbers, hend, hlinks, -⟩ := collect_spec q e
  refine ⟨h.deferred, fun t ht => ?_, fun t ht => ?_⟩
  · rcases List.mem_append.mp ht with ht | ht
    · exact h.follows t ht
    · obtain ⟨x, hx, rfl⟩ := List.mem_map.mp ht
      have hlink := linkFor_eq (hlinks x hx)
      unfold Transmission.Follows
      cases hd : e.decaying with
      | none =>
          rw [hd] at hlink
          exact hlink
      | some d =>
          rw [hd] at hlink
          by_cases hl : d.link.isSome
          · cases hout : d.outgoingLength with
            | none => simpa [hl, hout] using hlink
            | some len =>
                simp only [hl, hout, Option.some.injEq, forall_eq', true_and] at hlink ⊢
                refine ⟨fun hlt => ?_, fun hge => ?_⟩
                · rwa [if_pos hlt] at hlink
                · rwa [if_neg (Nat.not_lt.mpr hge)] at hlink
          · -- a deferred decay has no link to transmit on
            have hprimary := h.deferred d hd (by simpa using hl)
            simp [hl, hprimary] at hlink
  · rcases List.mem_append.mp ht with ht | ht
    · exact Nat.lt_of_lt_of_le (h.below t ht) (by omega)
    · obtain ⟨x, hx, rfl⟩ := List.mem_map.mp ht
      have hmem : x.2.sequenceNumber ∈ (q.collect e).1.map (·.2.sequenceNumber) :=
        List.mem_map_of_mem hx
      rw [hnumbers, List.mem_range'_1] at hmem
      show x.2.sequenceNumber < _
      omega

/-- Where a decay is finished, and only there, the decaying link is dropped. -/
theorem maybeFinishDecay_eq (e : Edge) (sent received : Nat) :
    e.maybeFinishDecay sent received = (false, e) ∨
      ∃ link out inc, e.decaying = some ⟨some link, some out, some inc⟩ ∧ out ≤ sent ∧
        inc ≤ received ∧ e.maybeFinishDecay sent received = (true, { e with decaying := none }) := by
  unfold Edge.maybeFinishDecay
  split
  · rename_i link out inc hd
    split
    · exact .inl rfl
    · rename_i hle
      rw [not_or, Nat.not_lt, Nat.not_lt] at hle
      exact .inr ⟨link, out, inc, hd, hle.1, hle.2, rfl⟩
  · exact .inl rfl

theorem maybeFinishDecay_done {e : Edge} {link : Link} {out inc sent received : Nat}
    (hd : e.decaying = some ⟨some link, some out, some inc⟩) (hout : out ≤ sent)
    (hinc : inc ≤ received) :
    e.maybeFinishDecay sent received = (true, { e with decaying := none }) := by
  unfold Edge.maybeFinishDecay
  rw [hd]
  exact if_neg (by omega)

end Edges

/-! ### One step -/

/-- How a router follows its history. -/
structure Tracks (s : HandoverRun) : Prop where
  inOrder : ∀ flow,
    s.transmitted flow = List.range' (s.start flow) (s.transmitted flow).length
  current : ∀ flow, (s.router.queue flow).current = s.start flow + (s.transmitted flow).length
  edges : ∀ side e, s.router.edge? side = some e →
    EdgeTracks (s.router.queue side.flow).current e (s.sent side)
  fits : ∀ flow, (s.router.queue flow).currentSequenceLength < 2 ^ 64

theorem Tracks.handedOver {s : HandoverRun} (h : s.Tracks) : s.HandedOver :=
  ⟨h.inOrder, fun side e he => (h.edges side e he).follows, h.fits⟩

/-- The numbers transmitted are those below the current one. -/
theorem Tracks.mem_transmitted {s : HandoverRun} (h : s.Tracks) {flow : Flow} {n : Nat} :
    n ∈ s.transmitted flow ↔ s.start flow ≤ n ∧ n < (s.router.queue flow).current := by
  rw [h.inOrder, List.mem_range'_1, h.current]

/-- A change of one edge. -/
theorem Tracks.mapEdge {s : HandoverRun} (h : s.Tracks) {f : Edge → Edge} {side : EdgeSide}
    {sent : EdgeSide → List Transmission}
    (hedge : ∀ e, s.router.edge? side = some e →
      EdgeTracks (s.router.queue side.flow).current (f e) (sent side))
    (hother : ∀ side', side' ≠ side → sent side' = s.sent side') :
    Tracks { s with router := s.router.mapEdge f side, sent := sent } := by
  refine ⟨h.inOrder, fun flow => ?_, fun side' e he => ?_, fun flow => ?_⟩
  · show ((s.router.mapEdge f side).queue flow).current = _
    rw [Router.queue_mapEdge]
    exact h.current flow
  · show EdgeTracks ((s.router.mapEdge f side).queue side'.flow).current e (sent side')
    rw [Router.queue_mapEdge]
    have he' : (s.router.mapEdge f side).edge? side' = some e := he
    rw [Router.edge?_mapEdge] at he'
    split at he'
    · rename_i hside
      subst hside
      obtain ⟨e₀, he₀, rfl⟩ := Option.map_eq_some_iff.mp he'
      exact hedge e₀ he₀
    · rename_i hside
      rw [hother side' hside]
      exact h.edges side' e he'
  · show ((s.router.mapEdge f side).queue flow).currentSequenceLength < _
    rw [Router.queue_mapEdge]
    exact h.fits flow

theorem Tracks.beginDecay {s : HandoverRun} (h : s.Tracks) (side : EdgeSide) :
    (s.step (.beginDecay side)).Tracks := by
  apply h.mapEdge
  · intro e he
    have hbegin := (h.edges side e he).beginDecay
    rw [he, Option.any_some]
    split
    · rename_i hstable
      rw [if_pos hstable] at hbegin
      rw [Function.update_self]
      exact hbegin
    · rename_i hstable
      rw [if_neg hstable] at hbegin
      exact hbegin
  · intro side' hne
    split
    · exact Function.update_of_ne hne _ _
    · rfl

/-- A push refused leaves everything, and one accepted fits if it does not fill
the queue up. -/
theorem Tracks.push {s : HandoverRun} (h : s.Tracks) {flow : Flow} {p : Parcel}
    (hfull : ¬ (s.router.queue flow).FillsUp p.sequenceNumber) :
    (s.step (.push flow p)).Tracks := by
  show Tracks { s with router := (s.router.accept p flow).getD s.router }
  rw [Router.accept_eq, ParcelQueue.push]
  split
  · exact h
  · show Tracks { s with router := s.router.setQueue _ flow }
    refine ⟨h.inOrder, fun flow' => ?_, fun side e he => ?_, fun flow' => ?_⟩
    · show ((s.router.setQueue _ flow).queue flow').current = _
      rw [Router.queue_setQueue]
      split
      · rename_i hflow
        subst hflow
        exact h.current flow'
      · exact h.current flow'
    · rw [Router.edge?_setQueue] at he
      have hcurrent : ((s.router.setQueue { s.router.queue flow with
          buffer := ParcelMap.insert p (s.router.queue flow).buffer } flow).queue
            side.flow).current = (s.router.queue side.flow).current := by
        rw [Router.queue_setQueue]
        split
        · rename_i hflow
          rw [hflow]
        · rfl
      show EdgeTracks _ e (s.sent side)
      rw [hcurrent]
      exact h.edges side e he
    · show ((s.router.setQueue _ flow).queue flow').currentSequenceLength < _
      rw [Router.queue_setQueue]
      split
      · exact (ParcelQueue.fits_insert_iff _ _).mpr hfull
      · exact h.fits flow'

theorem Tracks.collect {s : HandoverRun} (h : s.Tracks) (side : EdgeSide) :
    (s.step (.collect side)).Tracks := by
  cases he : s.router.edge? side with
  | none =>
      have hstep : s.step (.collect side) = s := by simp only [step, he]
      rw [hstep]
      exact h
  | some e =>
      obtain ⟨hnumbers, hend, -, hlength⟩ := collect_spec (s.router.queue side.flow) e
      have hedge := (h.edges side e he).collect rfl
      generalize hout : (s.router.queue side.flow).collect e = x at hnumbers hend hlength hedge
      obtain ⟨out, q⟩ := x
      have hstep : s.step (.collect side) = { s with
          router := s.router.setQueue q side.flow
          transmitted := update s.transmitted side.flow
            (s.transmitted side.flow ++ out.map (·.2.sequenceNumber))
          sent := update s.sent side
            (s.sent side ++ out.map fun x => ⟨x.1, x.2.sequenceNumber, e⟩) } := by
        simp only [step, he, Router.collectOn_some he, hout]
      rw [hstep]
      have hcurrent : (s.router.queue side.flow).current ≤ q.current := by
        rw [hend]
        exact Nat.le_add_right _ _
      -- one queue moves on, and what left it is next in its order
      refine ⟨fun flow => ?_, fun flow => ?_, fun side' e' he' => ?_, fun flow => ?_⟩
      · by_cases hflow : flow = side.flow
        · subst hflow
          simp only [Function.update_self, List.length_append, List.length_map]
          rw [hnumbers, h.current, ← List.range'_append_1, ← h.inOrder]
        · simp only [Function.update_of_ne hflow]
          exact h.inOrder flow
      · show ((s.router.setQueue q side.flow).queue flow).current = _
        rw [Router.queue_setQueue]
        split
        · rename_i hflow
          subst hflow
          simp only [Function.update_self, List.length_append, List.length_map]
          rw [hend, h.current, Nat.add_assoc]
        · rename_i hflow
          simp only [Function.update_of_ne hflow]
          exact h.current flow
      -- the edge of this side has got what it was sent, the others may lag behind
      · rw [Router.edge?_setQueue] at he'
        have hle : (s.router.queue side'.flow).current ≤
            ((s.router.setQueue q side.flow).queue side'.flow).current := by
          rw [Router.queue_setQueue]
          split
          · rename_i hflow
            rw [hflow]
            exact hcurrent
          · exact Nat.le_refl _
        by_cases hside : side' = side
        · subst hside
          obtain rfl : e = e' := Option.some.inj (he.symm.trans he')
          have hq : ((s.router.setQueue q side'.flow).queue side'.flow).current = q.current := by
            rw [Router.queue_setQueue, if_pos rfl]
          show EdgeTracks _ e (update s.sent side' _ side')
          rw [Function.update_self, hq]
          exact hedge
        · show EdgeTracks _ e' (update s.sent side _ side')
          rw [Function.update_of_ne hside]
          exact (h.edges side' e' he').mono hle
      · show ((s.router.setQueue q side.flow).queue flow).currentSequenceLength < _
        rw [Router.queue_setQueue]
        split
        · exact Nat.lt_of_le_of_lt hlength (h.fits _)
        · exact h.fits flow

/-! ### Completions -/

/-- An edge is left as it is, or its decaying link is dropped. -/
def DropsOrKeeps (r r' : Router) : Prop :=
  ∀ side, r'.edge? side = r.edge? side ∨
    ∃ e, r.edge? side = some e ∧ e.decayingLink.isSome ∧
      ∀ e', r'.edge? side = some e' → e' = { e with decaying := none }

theorem Tracks.finish {s : HandoverRun} (h : s.Tracks) {r : Router}
    (hqueue : ∀ flow, r.queue flow = s.router.queue flow) (hedges : DropsOrKeeps s.router r) :
    (s.finish r).Tracks := by
  refine ⟨h.inOrder, fun flow => ?_, fun side e he => ?_, fun flow => ?_⟩
  · show (r.queue flow).current = _
    rw [hqueue]
    exact h.current flow
  · have he' : r.edge? side = some e := he
    show EdgeTracks (r.queue side.flow).current e (if _ then [] else s.sent side)
    rw [hqueue]
    rcases hedges side with hkeep | ⟨e₀, he₀, hlink, hdrop⟩
    · have hsame : ¬ ((s.router.decayingLinkOn side).isSome ∧ r.decayingLinkOn side = none) := by
        rintro ⟨hsome, hnone⟩
        rw [Router.decayingLinkOn, hkeep] at hnone
        rw [Router.decayingLinkOn, hnone] at hsome
        cases hsome
      rw [if_neg hsame]
      exact h.edges side e (hkeep ▸ he')
    · obtain rfl := hdrop e he'
      have hgone : (s.router.decayingLinkOn side).isSome ∧ r.decayingLinkOn side = none := by
        rw [Router.decayingLinkOn, Router.decayingLinkOn, he₀, he']
        exact ⟨hlink, rfl⟩
      rw [if_pos hgone]
      exact ⟨by simp, by simp, by simp⟩
  · show (r.queue flow).currentSequenceLength < _
    rw [hqueue]
    exact h.fits flow

/-- What `finish_decays` does to the edges. -/
theorem edge?_finishDecays (r : Router) (side : EdgeSide) :
    r.finishDecays.2.2.edge? side =
      match side with
      | .outward => some (r.outward.maybeFinishDecay r.outboundLength r.inboundLength).2
      | .inward => r.inward.map fun e => (e.maybeFinishDecay r.inboundLength r.outboundLength).2
      | .bridge => r.bridge := by
  obtain ⟨portal, outward, inward, bridge, inbound, outbound, peerClosed, disconnected⟩ := r
  cases side <;> cases inward <;> rfl

theorem queue_finishDecays (r : Router) (flow : Flow) :
    r.finishDecays.2.2.queue flow = r.queue flow := by
  obtain ⟨portal, outward, inward, bridge, inbound, outbound, peerClosed, disconnected⟩ := r
  cases flow <;> cases inward <;> rfl

/-- What `finish_bridge_decay` does to them. -/
theorem edge?_finishBridgeDecay (r : Router) (side : EdgeSide) :
    r.finishBridgeDecay.edge? side =
      match side with
      | .outward => some r.outward
      | .inward => r.inward
      | .bridge => r.bridge.bind fun b =>
          if (b.maybeFinishDecay r.inbound.current r.outbound.current).1 then none
          else some (b.maybeFinishDecay r.inbound.current r.outbound.current).2 := by
  obtain ⟨portal, outward, inward, bridge, inbound, outbound, peerClosed, disconnected⟩ := r
  cases side <;> cases bridge <;> rfl

theorem queue_finishBridgeDecay (r : Router) (flow : Flow) :
    r.finishBridgeDecay.queue flow = r.queue flow := by
  obtain ⟨portal, outward, inward, bridge, inbound, outbound, peerClosed, disconnected⟩ := r
  cases flow <;> cases bridge <;> rfl

/-- The edge `side` is dropped with `sent` reached on the one side and
`received` on the other. -/
def DropsWithin (r r' : Router) (side : EdgeSide) (sent received : Nat) : Prop :=
  r'.edge? side = r.edge? side ∨
    ∃ e link out inc, r.edge? side = some e ∧ e.decaying = some ⟨some link, some out, some inc⟩ ∧
      out ≤ sent ∧ inc ≤ received ∧ ∀ e', r'.edge? side = some e' → e' = { e with decaying := none }

theorem finishDecays_outward (r : Router) :
    DropsWithin r r.finishDecays.2.2 .outward r.outboundLength r.inboundLength := by
  unfold DropsWithin
  rw [edge?_finishDecays]
  rcases maybeFinishDecay_eq r.outward r.outboundLength r.inboundLength with
    heq | ⟨link, out, inc, hd, hout, hinc, heq⟩
  · rw [heq]
    exact .inl rfl
  · rw [heq]
    exact .inr ⟨r.outward, link, out, inc, rfl, hd, hout, hinc, fun e' he' => by cases he'; rfl⟩

theorem finishDecays_inward (r : Router) :
    DropsWithin r r.finishDecays.2.2 .inward r.inboundLength r.outboundLength := by
  unfold DropsWithin
  rw [edge?_finishDecays]
  cases he : r.inward with
  | none => exact .inl he.symm
  | some e =>
      rcases maybeFinishDecay_eq e r.inboundLength r.outboundLength with
        heq | ⟨link, out, inc, hd, hout, hinc, heq⟩
      · rw [Option.map_some, heq]
        exact .inl he.symm
      · rw [Option.map_some, heq]
        exact .inr ⟨e, link, out, inc, he, hd, hout, hinc, fun e' he' => by cases he'; rfl⟩

theorem finishBridgeDecay_bridge (r : Router) :
    DropsWithin r r.finishBridgeDecay .bridge r.inbound.current r.outbound.current := by
  unfold DropsWithin
  rw [edge?_finishBridgeDecay]
  cases he : r.bridge with
  | none => exact .inl he.symm
  | some e =>
      rcases maybeFinishDecay_eq e r.inbound.current r.outbound.current with
        heq | ⟨link, out, inc, hd, hout, hinc, heq⟩
      · rw [Option.bind_some, heq]
        exact .inl he.symm
      · rw [Option.bind_some, heq]
        exact .inr ⟨e, link, out, inc, he, hd, hout, hinc, fun e' he' => by cases he'⟩

theorem DropsWithin.dropsOrKeeps {r r' : Router} {side : EdgeSide} {sent received : Nat}
    (h : DropsWithin r r' side sent received) :
    r'.edge? side = r.edge? side ∨
      ∃ e, r.edge? side = some e ∧ e.decayingLink.isSome ∧
        ∀ e', r'.edge? side = some e' → e' = { e with decaying := none } := by
  refine h.imp_right ?_
  rintro ⟨e, link, out, inc, he, hd, -, -, hdrop⟩
  exact ⟨e, he, by simp [Edge.decayingLink, hd], hdrop⟩

theorem Tracks.finishDecays {s : HandoverRun} (h : s.Tracks) : (s.step .finishDecays).Tracks := by
  refine h.finish (queue_finishDecays _) fun side => ?_
  cases side with
  | outward => exact (finishDecays_outward _).dropsOrKeeps
  | inward => exact (finishDecays_inward _).dropsOrKeeps
  | bridge => exact .inl (edge?_finishDecays _ .bridge)

theorem Tracks.finishBridgeDecay {s : HandoverRun} (h : s.Tracks) :
    (s.step .finishBridgeDecay).Tracks := by
  refine h.finish (queue_finishBridgeDecay _) fun side => ?_
  cases side with
  | outward => exact .inl (edge?_finishBridgeDecay _ .outward)
  | inward => exact .inl (edge?_finishBridgeDecay _ .inward)
  | bridge => exact (finishBridgeDecay_bridge _).dropsOrKeeps

/-- Operations as the callers make them keep track. -/
theorem Tracks.step {s : HandoverRun} (h : s.Tracks) {op : HandoverOp} (hcall : s.AsCallers op)
    (hcollected : s.Collected op) : (s.step op).Tracks := by
  cases op with
  | beginDecay side => exact h.beginDecay side
  | setPrimary side link =>
      exact h.mapEdge (fun e he => (h.edges side e he).setPrimaryLink link) fun _ _ => rfl
  | lengthTo side len =>
      exact h.mapEdge (fun e he => (h.edges side e he).setLengthTo (hcall e he).1 (hcall e he).2)
        fun _ _ => rfl
  | lengthFrom side len =>
      exact h.mapEdge (fun e he => (h.edges side e he).setLengthFrom len) fun _ _ => rfl
  | push flow p => exact h.push hcollected
  | collect side => exact h.collect side
  | finishDecays => exact h.finishDecays
  | finishBridgeDecay => exact h.finishBridgeDecay

/-! ### Dropped links -/

section Drops

variable {s : HandoverRun} {op : HandoverOp}

/-- A change of an edge that keeps a decaying link drops none. -/
theorem dropsComplete_mapEdge {f : Edge → Edge} {side : EdgeSide}
    (hstep : (s.step op).router = s.router.mapEdge f side)
    (hf : ∀ e link, e.decayingLink = some link → (f e).decayingLink = some link) :
    s.DropsComplete op := by
  intro side' link hlink hdropped
  refine absurd ?_ hdropped
  rw [hstep, Router.decayingLinkOn, Router.edge?_mapEdge]
  split
  · rename_i hside
    subst hside
    rw [Router.decayingLinkOn] at hlink
    cases he : s.router.edge? side' with
    | none =>
        rw [he] at hlink
        cases hlink
    | some e =>
        rw [he] at hlink
        exact hf e link hlink
  · exact hlink

theorem dropsComplete_of_edges
    (hstep : ∀ side, (s.step op).router.edge? side = s.router.edge? side) :
    s.DropsComplete op := by
  intro side link hlink hdropped
  refine absurd ?_ hdropped
  rw [Router.decayingLinkOn, hstep]
  exact hlink

/-- A completion with the lengths reached, in the numbers that count. -/
theorem Tracks.drop_complete (h : s.Tracks) {r' : Router} {side : EdgeSide} {link : Link}
    {sent received : Nat} (hdrop : DropsWithin s.router r' side sent received)
    (hlink : s.router.decayingLinkOn side = some link)
    (hdropped : r'.decayingLinkOn side ≠ some link)
    (hsent : ∀ e out inc, s.router.edge? side = some e → e.decayingLink.isSome →
      e.lengthToDecayingLink = some out → e.lengthFromDecayingLink = some inc → out ≤ sent →
      inc ≤ received → out ≤ (s.router.queue side.flow).current)
    (hreceived : received ≤ (s.router.queue side.flow.opposite).currentSequenceLength) :
    ∃ e out inc, s.router.edge? side = some e ∧ e.lengthToDecayingLink = some out ∧
      e.lengthFromDecayingLink = some inc ∧
      (∀ n, s.start side.flow ≤ n → n < out → n ∈ s.transmitted side.flow) ∧
      inc ≤ (s.router.queue side.flow.opposite).currentSequenceLength := by
  rcases hdrop with hkeep | ⟨e, l, out, inc, he, hd, hout, hinc, -⟩
  · refine absurd ?_ hdropped
    rw [Router.decayingLinkOn, hkeep]
    exact hlink
  · have hto : e.lengthToDecayingLink = some out := by simp [Edge.lengthToDecayingLink, hd]
    have hfrom : e.lengthFromDecayingLink = some inc := by simp [Edge.lengthFromDecayingLink, hd]
    have hsome : e.decayingLink.isSome := by simp [Edge.decayingLink, hd]
    have hcurrent := hsent e out inc he hsome hto hfrom hout hinc
    exact ⟨e, out, inc, he, hto, hfrom,
      fun n h₁ h₂ => h.mem_transmitted.mpr ⟨h₁, Nat.lt_of_lt_of_le h₂ hcurrent⟩,
      hinc.trans hreceived⟩

theorem decayingLink_beginDecay (e : Edge) (link : Link) (h : e.decayingLink = some link) :
    e.beginDecay.decayingLink = some link := by
  obtain ⟨primary, decaying⟩ := e
  cases decaying with
  | none => cases h
  | some d => exact h

theorem decayingLink_setPrimaryLink (l : Link) (e : Edge) (link : Link)
    (h : e.decayingLink = some link) : (e.setPrimaryLink l).decayingLink = some link := by
  obtain ⟨primary, decaying⟩ := e
  rcases decaying with - | ⟨- | l', out, inc⟩
  · cases h
  · cases h
  · exact h

theorem decayingLink_setLengthTo (len : Nat) (e : Edge) (link : Link)
    (h : e.decayingLink = some link) :
    (e.setLengthToDecayingLink len).decayingLink = some link := by
  obtain ⟨primary, decaying⟩ := e
  cases decaying with
  | none => cases h
  | some d => exact h

theorem decayingLink_setLengthFrom (len : Nat) (e : Edge) (link : Link)
    (h : e.decayingLink = some link) :
    (e.setLengthFromDecayingLink len).decayingLink = some link := by
  obtain ⟨primary, decaying⟩ := e
  cases decaying with
  | none => cases h
  | some d => exact h

theorem edge?_push (flow : Flow) (p : Parcel) (side : EdgeSide) :
    (s.step (.push flow p)).router.edge? side = s.router.edge? side := by
  show ((s.router.accept p flow).getD s.router).edge? side = _
  rw [Router.accept_eq]
  cases (s.router.queue flow).push p with
  | none => rfl
  | some q => exact Router.edge?_setQueue _ _ _ _

theorem edge?_collect (side side' : EdgeSide) :
    (s.step (.collect side)).router.edge? side' = s.router.edge? side' := by
  cases he : s.router.edge? side with
  | none => simp only [step, he]
  | some e =>
      simp only [step, he, Router.collectOn_some he]
      exact Router.edge?_setQueue _ _ _ _

/-- A collected operation drops only what is complete. -/
theorem Tracks.dropsComplete (h : s.Tracks) (hcollected : s.Collected op) :
    s.DropsComplete op := by
  cases op with
  | beginDecay side => exact dropsComplete_mapEdge rfl decayingLink_beginDecay
  | setPrimary side link => exact dropsComplete_mapEdge rfl (decayingLink_setPrimaryLink link)
  | lengthTo side len => exact dropsComplete_mapEdge rfl (decayingLink_setLengthTo len)
  | lengthFrom side len => exact dropsComplete_mapEdge rfl (decayingLink_setLengthFrom len)
  | push flow p => exact dropsComplete_of_edges (edge?_push flow p)
  | collect side => exact dropsComplete_of_edges (edge?_collect side)
  | finishDecays =>
      intro side link hlink hdropped
      cases side with
      | outward =>
          exact h.drop_complete (finishDecays_outward _) hlink hdropped
            (fun _ _ _ _ _ _ _ hout _ => hout) (Nat.le_refl _)
      | inward =>
          exact h.drop_complete (finishDecays_inward _) hlink hdropped hcollected
            s.router.outbound.currentSequenceLength_spec.1
      | bridge =>
          refine absurd ?_ hdropped
          show (s.router.finishDecays.2.2.edge? .bridge).bind _ = _
          rw [edge?_finishDecays]
          exact hlink
  | finishBridgeDecay =>
      intro side link hlink hdropped
      cases side with
      | bridge =>
          exact h.drop_complete (finishBridgeDecay_bridge _) hlink hdropped
            (fun _ _ _ _ _ _ _ hout _ => hout) s.router.outbound.currentSequenceLength_spec.1
      | outward =>
          refine absurd ?_ hdropped
          show (s.router.finishBridgeDecay.edge? .outward).bind _ = _
          rw [edge?_finishBridgeDecay]
          exact hlink
      | inward =>
          refine absurd ?_ hdropped
          show (s.router.finishBridgeDecay.edge? .inward).bind _ = _
          rw [edge?_finishBridgeDecay]
          exact hlink

/-- Where the drops are complete and the counters fit afterwards, the operation
was collected. -/
theorem Tracks.collected (h : s.Tracks) (hdrops : s.DropsComplete op)
    (hnext : (s.step op).HandedOver) : s.Collected op := by
  cases op with
  | push flow p =>
      intro hfull
      by_cases hlt : p.sequenceNumber < (s.router.queue flow).current
      · -- a stale parcel leaves the queue filled up
        obtain ⟨hle, -, hend⟩ := (s.router.queue flow).currentSequenceLength_spec
        rcases hfull _ hle (h.fits flow) with heq | hsome
        · rw [heq] at hle
          exact absurd hlt (Nat.not_lt.mpr hle)
        · rw [hend] at hsome
          cases hsome
      · have hfits := hnext.fits flow
        have hqueue : (s.step (.push flow p)).router.queue flow =
            { s.router.queue flow with
              buffer := ParcelMap.insert p (s.router.queue flow).buffer } := by
          show ((s.router.accept p flow).getD s.router).queue flow = _
          rw [Router.accept_eq, ParcelQueue.push, if_neg hlt]
          show (s.router.setQueue _ flow).queue flow = _
          rw [Router.queue_setQueue, if_pos rfl]
        rw [hqueue] at hfits
        exact (ParcelQueue.fits_insert_iff _ _).mp hfits hfull
  | finishDecays =>
      intro e out inc he hlink hto hfrom hout hinc
      obtain ⟨primary, decaying⟩ := e
      rcases decaying with - | ⟨- | link, out', inc'⟩
      · cases hlink
      · cases hlink
      · obtain rfl : out' = some out := hto
        obtain rfl : inc' = some inc := hfrom
        have hbefore : s.router.decayingLinkOn .inward = some link := by
          show s.router.inward.bind _ = _
          rw [he]
          rfl
        have hafter : (s.step .finishDecays).router.decayingLinkOn .inward ≠ some link := by
          have hdone := maybeFinishDecay_done (e := ⟨primary, some ⟨some link, some out, some inc⟩⟩)
            rfl hout hinc
          show (s.router.finishDecays.2.2.edge? .inward).bind _ ≠ _
          rw [edge?_finishDecays]
          simp [he, hdone, Edge.decayingLink]
        obtain ⟨e', out', inc', he', hto', -, hsent, -⟩ := hdrops .inward link hbefore hafter
        obtain rfl := Option.some.inj (he.symm.trans he')
        obtain rfl : out = out' := Option.some.inj hto'
        -- the current number has not been transmitted
        by_contra hlt
        have hmem := hsent s.router.inbound.current
          ((h.current .inbound).symm ▸ Nat.le_add_right _ _) (Nat.not_le.mp hlt)
        exact absurd (h.mem_transmitted.mp hmem).2 (Nat.lt_irrefl _)
  | beginDecay side => trivial
  | setPrimary side link => trivial
  | lengthTo side len => trivial
  | lengthFrom side len => trivial
  | collect side => trivial
  | finishBridgeDecay => trivial

end Drops

/-! ### Whole runs -/

theorem Proper.tracks {r : Router} (h : Proper r) : (init r).Tracks where
  inOrder := fun _ => rfl
  current := fun _ => rfl
  edges := fun side e he => ⟨fun d => h.deferred side e d he, by simp [init], by simp [init]⟩
  fits := h.fits

/-- A flush collects the inward edge before it finishes decays. -/
theorem inwardCollected_of_collect (r : Router) : InwardCollected r.collectInbound.2 := by
  intro e out inc he hlink hto _ hlength _
  have hinward : r.edge? .inward = some e := by
    cases hr : r.inward with
    | none =>
        rw [Router.collectInbound, hr] at he
        exact absurd (hr.symm.trans he) (by simp)
    | some e' =>
        rw [Router.collectInbound, hr] at he
        exact (hr.trans he : r.inward = some e)
  have hcollect : r.collectInbound.2 = r.setQueue (r.inbound.collect e).2 .inbound :=
    congrArg Prod.snd (Router.collectOn_some hinward)
  rw [hcollect] at hlength ⊢
  by_contra hlt
  -- there is a link for the next number, and a parcel
  have hcurrent : (r.inbound.collect e).2.current < out := Nat.not_le.mp hlt
  rcases collect_stops r.inbound e with hstop | hstop
  · obtain ⟨d, hd⟩ : ∃ d, e.decaying = some d := by
      cases hd : e.decaying with
      | none => simp [Edge.decayingLink, hd] at hlink
      | some d => exact ⟨d, rfl⟩
    simp only [Edge.decayingLink, Edge.lengthToDecayingLink, hd, Option.bind_some] at hlink hto
    simp only [Edge.linkFor, Edge.shouldTransmitOnDecayingLink, Edge.decayingLink, hd, hlink, hto,
      Option.all_some, Bool.true_and, decide_eq_true hcurrent, Option.bind_some, if_true] at hstop
    rw [hstop] at hlink
    cases hlink
  · have hsome := (r.inbound.collect e).2.currentSequenceLength_spec.2.1 _ (Nat.le_refl _)
      (Nat.lt_of_lt_of_le hcurrent hlength)
    rw [hstop] at hsome
    cases hsome

/-- A run of operations as the callers make them hands over all parcels as it
should, and drops decaying links only when they are done, just if the inward
edge is collected wherever decays are finished. -/
theorem handover_iff {r : Router} (hr : Proper r) {ops : List HandoverOp}
    (hcalls : Meets step AsCallers (init r) ops) :
    Always step HandedOver (init r) ops ∧ Meets step DropsComplete (init r) ops ↔
      Meets step Collected (init r) ops := by
  have hkeep : ∀ (s : HandoverRun) op, s.Tracks → s.AsCallers op ∧ s.Collected op →
      (s.step op).Tracks := fun _ _ h hop => h.step hop.1 hop.2
  constructor
  · rintro ⟨hover, hdrops⟩
    have hboth : Meets step (fun s op => s.AsCallers op ∧ s.Collected op) (init r) ops :=
      meets_of_always_meets hkeep
        (fun _ _ h hop hnext => ⟨hop.1, h.collected hop.2 hnext⟩) hr.tracks hover
        (meets_and.mpr ⟨hcalls, hdrops⟩)
    exact (meets_and.mp hboth).2
  · intro hcollected
    have hboth := meets_and.mpr ⟨hcalls, hcollected⟩
    exact ⟨(always_of_meets hkeep hr.tracks hboth).imp fun _ h => h.handedOver,
      hboth.imp hkeep (fun _ _ h hop => h.dropsComplete hop.2) hr.tracks⟩

/-- The first link of a proxy, and the next one. -/
def oldLink : Link := .remote 0 1 .peripheralInward .a none

/-- The next primary link of the inward edge. -/
def newLink : Link := .remote 0 2 .peripheralInward .a none

/-- A proxy with one inward link. -/
def proxyRouter : Router := { Router.bare with inward := some ⟨some oldLink, none⟩ }

theorem proxyRouter_proper : Proper proxyRouter where
  deferred := by
    intro side e d he hd _
    cases side with
    | outward =>
        cases he
        cases hd
    | inward =>
        cases he
        cases hd
    | bridge => cases he
  fits := by
    intro flow
    cases flow <;> decide

/-- The old link decays, with one parcel to go, which has arrived. -/
def decayOps : List HandoverOp :=
  [.beginDecay .inward, .lengthTo .inward 1, .lengthFrom .inward 0, .setPrimary .inward newLink,
    .push .inbound ⟨0, [], [], none⟩]

theorem decayOps_asCallers (ops : List HandoverOp)
    (h : Meets step AsCallers (exec step (init proxyRouter) decayOps) ops) :
    Meets step AsCallers (init proxyRouter) (decayOps ++ ops) := by
  refine meets_append.mpr ⟨⟨trivial, ?_, ?_, trivial, trivial, trivial⟩, h⟩
  · intro e he
    cases he
    exact ⟨rfl, by decide⟩
  · intro e he
    cases he
    rfl

/-- Collected first, the parcel takes the old link, which is then dropped. -/
theorem handover_collected :
    Always step HandedOver (init proxyRouter) (decayOps ++ [.collect .inward, .finishDecays]) ∧
      Meets step DropsComplete (init proxyRouter)
        (decayOps ++ [.collect .inward, .finishDecays]) := by
  have hcalls := decayOps_asCallers [.collect .inward, .finishDecays] ⟨trivial, trivial, trivial⟩
  refine (handover_iff proxyRouter_proper hcalls).mpr ?_
  refine meets_append.mpr ⟨⟨trivial, trivial, trivial, trivial, ?_, trivial⟩, trivial, ?_, trivial⟩
  · intro hfull
    rcases hfull 1 (by decide) (by decide) with h | h
    · cases h
    · cases h
  · intro e out inc he _ hto _ _ _
    cases he
    cases hto
    decide

/-- Not collected, it is left behind when the old link is dropped, and takes the
new one. -/
theorem handover_lost :
    Meets step AsCallers (init proxyRouter) (decayOps ++ [.finishDecays]) ∧
      (exec step (init proxyRouter) (decayOps ++ [.finishDecays])).transmitted .inbound = [] ∧
      (exec step (init proxyRouter) (decayOps ++ [.finishDecays])).router.inward =
        some ⟨some newLink, none⟩ ∧
      ((exec step (init proxyRouter) (decayOps ++ [.finishDecays, .collect .inward])).sent
        .inward).map (fun t => (t.link, t.number)) = [(newLink, 0)] ∧
      ¬ Meets step DropsComplete (init proxyRouter) (decayOps ++ [.finishDecays]) := by
  refine ⟨decayOps_asCallers _ ⟨trivial, trivial⟩, rfl, rfl, rfl, fun h => ?_⟩
  have hdropped : (step (exec step (init proxyRouter) decayOps) .finishDecays).router.decayingLinkOn
      .inward ≠ some oldLink := by
    intro hlink
    cases hlink
  obtain ⟨e, out, inc, he, hto, -, hsent, -⟩ := (meets_append.mp h).2.1 .inward oldLink rfl hdropped
  cases he
  cases hto
  cases hsent 0 (Nat.le_refl 0) (Nat.zero_lt_one)

end HandoverRun

end MojoRs.Ipcz
