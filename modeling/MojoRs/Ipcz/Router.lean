/-
MojoRs/Ipcz/Router.lean

The router (`router.rs`): the state of one end, proxy or bridge of a route.
A router has an outward edge, perhaps an inward and a bridge edge, and two
sequenced queues of parcels.  An edge has a primary link, and a decaying link
that is given up once both of its sequence lengths are reached.

Router identities, sublinks and sequence numbers are natural numbers.  The
state that the two ends of a local link share is a cell, named by a number.
-/
import MojoRs.Ipcz.LinkMemory

namespace MojoRs.Ipcz

/-! ### Links and edges -/

/-- A link's role along a route. -/
inductive LinkKind
  | central
  | peripheralOutward
  | peripheralInward
  | bridge
  deriving DecidableEq, Repr

/-- `is_outward`. -/
def LinkKind.isOutward : LinkKind → Bool
  | .central | .peripheralOutward => true
  | .peripheralInward | .bridge => false

/-- `is_central`. -/
def LinkKind.isCentral (k : LinkKind) : Bool := k == .central

/-- `is_bridge`. -/
def LinkKind.isBridge (k : LinkKind) : Bool := k == .bridge

/-- The state that the ends of a local link share; the low half only of the
node that may request a bypass. -/
structure LocalLinkState where
  status : LinkStatus
  allowedBypassSource : UInt64
  deriving DecidableEq

/-- A state with both sides stable, or neither. -/
def LocalLinkState.new (initialStable : Bool) : LocalLinkState :=
  ⟨if initialStable then .bothStable else .unstable, 0⟩

/-- A link: a sublink of a node link, or a local link to `localPeer`. -/
structure Link where
  linkId : Nat
  sublink : Nat
  kind : LinkKind
  side : LinkSide
  linkState : Option FragmentDescriptor
  localPeer : Option Nat
  localState : Option Nat
  deriving DecidableEq, Repr

namespace Link

/-- The link has a local peer. -/
def isLocal (l : Link) : Bool := l.localPeer.isSome

/-- A link over a node link. -/
def remote (linkId sublink : Nat) (kind : LinkKind) (side : LinkSide)
    (linkState : Option FragmentDescriptor) : Link :=
  ⟨linkId, sublink, kind, side, linkState, none, none⟩

/-- Both sides of a local link between `ridA` and `ridB`, with the shared
state in `cell`. -/
def localPair (kind : LinkKind) (sideForFirst : LinkSide) (ridA ridB cell : Nat) : Link × Link :=
  (⟨0, 0, kind, sideForFirst, none, some ridB, some cell⟩,
    ⟨0, 0, kind, sideForFirst.opposite, none, some ridA, some cell⟩)

/-- The link is sublink `sublink` of node link `linkId`. -/
def on (l : Link) (linkId sublink : Nat) : Bool := l.linkId == linkId && l.sublink == sublink

end Link

/-- A former primary link; without a link, a decay that begins with the next
primary link. -/
structure DecayingLink where
  link : Option Link
  outgoingLength : Option Nat
  incomingLength : Option Nat
  deriving DecidableEq, Repr

/-- `RouteEdge`: one side of a router. -/
structure Edge where
  primary : Option Link
  decaying : Option DecayingLink
  deriving DecidableEq, Repr

namespace Edge

/-- No links. -/
def empty : Edge := ⟨none, none⟩

/-- No link decays. -/
def isStable (e : Edge) : Bool := e.decaying.isNone

/-- The link that decays. -/
def decayingLink (e : Edge) : Option Link := e.decaying.bind (·.link)

/-- A decay without a link takes the new link. -/
def setPrimaryLink (e : Edge) (link : Link) : Edge :=
  match e.decaying with
  | some ⟨none, out, inc⟩ => { e with decaying := some ⟨some link, out, inc⟩ }
  | _ => { e with primary := some link }

/-- `release_primary_link`. -/
def releasePrimaryLink (e : Edge) : Edge := { e with primary := none }

/-- `release_decaying_link`. -/
def releaseDecayingLink (e : Edge) : Edge := { e with decaying := none }

/-- Fails if a link decays already. -/
def beginPrimaryLinkDecay (e : Edge) : Option Edge :=
  match e.decaying with
  | some _ => none
  | none => some ⟨none, some ⟨e.primary, none, none⟩⟩

/-- `begin_primary_link_decay` where the result is not looked at. -/
def beginDecay (e : Edge) : Edge := e.beginPrimaryLinkDecay.getD e

/-- The decaying link takes parcel `n`. -/
def shouldTransmitOnDecayingLink (e : Edge) (n : Nat) : Bool :=
  match e.decaying with
  | some d => d.link.isSome && d.outgoingLength.all (fun len => decide (n < len))
  | none => false

/-- Drop the decaying link once both lengths are known and reached. -/
def maybeFinishDecay (e : Edge) (lengthSent lengthReceived : Nat) : Bool × Edge :=
  match e.decaying with
  | some ⟨some _, some out, some inc⟩ =>
      if lengthSent < out ∨ lengthReceived < inc then (false, e)
      else (true, { e with decaying := none })
  | _ => (false, e)

/-- `set_length_to_decaying_link`. -/
def setLengthToDecayingLink (e : Edge) (length : Nat) : Edge :=
  { e with decaying := e.decaying.map fun d => { d with outgoingLength := some length } }

/-- `set_length_from_decaying_link`. -/
def setLengthFromDecayingLink (e : Edge) (length : Nat) : Edge :=
  { e with decaying := e.decaying.map fun d => { d with incomingLength := some length } }

/-- `length_to_decaying_link`. -/
def lengthToDecayingLink (e : Edge) : Option Nat := e.decaying.bind (·.outgoingLength)

/-- `length_from_decaying_link`. -/
def lengthFromDecayingLink (e : Edge) : Option Nat := e.decaying.bind (·.incomingLength)

/-- `get_local_peer`. -/
def getLocalPeer (e : Edge) : Option Nat := e.primary.bind (·.localPeer)

/-- `get_decaying_local_peer`. -/
def getDecayingLocalPeer (e : Edge) : Option Nat := e.decayingLink.bind (·.localPeer)

/-- The link for parcel `n`: the decaying one up to its length. -/
def linkFor (e : Edge) (n : Nat) : Option Link :=
  if e.shouldTransmitOnDecayingLink n then e.decayingLink else e.primary

/-- The edge has sublink `sublink` of node link `linkId`, on either link. -/
def on (e : Edge) (linkId sublink : Nat) : Bool :=
  e.primary.any (·.on linkId sublink) || e.decayingLink.any (·.on linkId sublink)

end Edge

/-! ### Parcels -/

/-- An object attached to a parcel: a descriptor, or the router of a portal. -/
inductive Object
  | fd (fd : Nat)
  | router (rid : Nat)
  deriving DecidableEq, Repr

/-- A parcel on a route. -/
structure Parcel where
  sequenceNumber : Nat
  data : List UInt8
  objects : List Object
  fragment : Option FragmentDescriptor
  deriving DecidableEq, Repr

/-- A map from sequence numbers to parcels, in order. -/
abbrev ParcelMap := List Parcel

namespace ParcelMap

/-- The parcel with number `n`. -/
def get? (m : ParcelMap) (n : Nat) : Option Parcel := m.find? (·.sequenceNumber == n)

/-- Insert a parcel, or replace the one with its number. -/
def insert (p : Parcel) : ParcelMap → ParcelMap
  | [] => [p]
  | q :: m =>
      if p.sequenceNumber < q.sequenceNumber then p :: q :: m
      else if p.sequenceNumber = q.sequenceNumber then p :: m
      else q :: insert p m

/-- Remove the parcel with number `n`. -/
def erase (m : ParcelMap) (n : Nat) : ParcelMap := m.filter (·.sequenceNumber != n)

/-- The end of the contiguous span from `n`, of at most `fuel` parcels. -/
def spanEnd (m : ParcelMap) : Nat → Nat → Nat
  | 0, n => n
  | fuel + 1, n => if (m.get? n).isSome then spanEnd m fuel (n + 1) else n

@[simp] theorem get?_nil (n : Nat) : get? [] n = none := rfl

theorem get?_cons (p : Parcel) (m : ParcelMap) (n : Nat) :
    get? (p :: m) n = if p.sequenceNumber = n then some p else get? m n := by
  simp only [get?, List.find?_cons]
  by_cases h : p.sequenceNumber = n
  · simp [h]
  · simp [h, beq_eq_false_iff_ne.mpr h]

theorem get?_insert (p : Parcel) (m : ParcelMap) (n : Nat) :
    (insert p m).get? n = if p.sequenceNumber = n then some p else m.get? n := by
  induction m with
  | nil => exact get?_cons p [] n
  | cons q m ih =>
      rw [insert]
      split_ifs with h₁ h₂
      · rw [get?_cons]
        simp [*]
      all_goals simp only [get?_cons, ih]
      all_goals grind

theorem get?_erase (m : ParcelMap) (k n : Nat) :
    (m.erase k).get? n = if k = n then none else m.get? n := by
  induction m with
  | nil => simp [erase]
  | cons q m ih =>
      simp only [erase, List.filter_cons] at ih ⊢
      split_ifs with h₁ h₂
      all_goals simp only [get?_cons, ih]
      all_goals grind

end ParcelMap

/-- A sequenced queue with an optional final length. -/
structure ParcelQueue where
  current : Nat
  finalLength : Option Nat
  buffer : ParcelMap
  deriving DecidableEq, Repr

namespace ParcelQueue

/-- An empty queue from 0 on. -/
def new : ParcelQueue := ⟨0, none, []⟩

/-- `reset_sequence`, on a queue of any content. -/
def resetSequence (n : Nat) : ParcelQueue := ⟨n, none, []⟩

/-- `get_current_sequence_length`: the parcels received without a gap. -/
def currentSequenceLength (q : ParcelQueue) : Nat := q.buffer.spanEnd q.buffer.length q.current

/-- Refuses a parcel below the current number. -/
def push (q : ParcelQueue) (p : Parcel) : Option ParcelQueue :=
  if p.sequenceNumber < q.current then none
  else some { q with buffer := ParcelMap.insert p q.buffer }

/-- The next parcel in sequence, if it is there. -/
def pop (q : ParcelQueue) : Option (Parcel × ParcelQueue) :=
  match q.buffer.get? q.current with
  | some p => some (p, { q with current := q.current + 1, buffer := q.buffer.erase q.current })
  | none => none

/-- The next parcel is there. -/
def hasNextElement (q : ParcelQueue) : Bool := (q.buffer.get? q.current).isSome

/-- Refuses a length below the current number. -/
def setFinalSequenceLength (q : ParcelQueue) (n : Nat) : Option ParcelQueue :=
  if n < q.current then none else some { q with finalLength := some n }

/-- `is_sequence_fully_consumed`. -/
def isSequenceFullyConsumed (q : ParcelQueue) : Bool :=
  q.finalLength.any fun len => decide (len ≤ q.current)

/-- `expects_more_elements`. -/
def expectsMoreElements (q : ParcelQueue) : Bool :=
  q.finalLength.all fun len => decide (q.current < len)

/-- The loop of `collect_outbound`, `collect_inbound` and `collect_bridge`:
pop what an edge has a link for, in order. -/
def collectLoop (edge : Edge) : Nat → ParcelQueue → List (Link × Parcel) × ParcelQueue
  | 0, q => ([], q)
  | fuel + 1, q =>
      match edge.linkFor q.current, q.pop with
      | some link, some (p, q') =>
          let (out, q'') := collectLoop edge fuel q'
          ((link, p) :: out, q'')
      | _, _ => ([], q)

/-- No more parcels can be popped than the buffer holds. -/
def collect (q : ParcelQueue) (edge : Edge) : List (Link × Parcel) × ParcelQueue :=
  collectLoop edge q.buffer.length q

/-- The loop that delivers to the portal. -/
def drainLoop : Nat → ParcelQueue → List Parcel × ParcelQueue
  | 0, q => ([], q)
  | fuel + 1, q =>
      match q.pop with
      | some (p, q') =>
          let (out, q'') := drainLoop fuel q'
          (p :: out, q'')
      | none => ([], q)

/-- All parcels in sequence, for the portal. -/
def drain (q : ParcelQueue) : List Parcel × ParcelQueue := drainLoop q.buffer.length q

end ParcelQueue

/-! ### Routers -/

/-- The delivered messages of a portal. -/
structure Portal where
  messages : List (List UInt8 × List Object)
  deriving DecidableEq, Repr

/-- A router. -/
structure Router where
  portal : Option Portal
  outward : Edge
  inward : Option Edge
  bridge : Option Edge
  inbound : ParcelQueue
  outbound : ParcelQueue
  peerClosed : Bool
  disconnected : Bool
  deriving DecidableEq, Repr

namespace Router

/-- `Router::bare`. -/
def bare : Router := ⟨some ⟨[]⟩, .empty, none, none, .new, .new, false, false⟩

/-- The messages that were delivered to the portal and not taken. -/
def unread (r : Router) : List (List UInt8 × List Object) := r.portal.elim [] (·.messages)

/-- `Router::new_terminal`. -/
def newTerminal (outward : Link) : Router := { bare with outward := ⟨some outward, none⟩ }

/-- `push_outbound`, for a parcel that has its number. -/
def acceptOutbound (r : Router) (p : Parcel) : Option Router :=
  (r.outbound.push p).map fun q => { r with outbound := q }

/-- `accept_inbound`. -/
def acceptInbound (r : Router) (p : Parcel) : Option Router :=
  (r.inbound.push p).map fun q => { r with inbound := q }

/-- `collect_outbound`. -/
def collectOutbound (r : Router) : List (Link × Parcel) × Router :=
  let (out, q) := r.outbound.collect r.outward
  (out, { r with outbound := q })

/-- `collect_inbound`. -/
def collectInbound (r : Router) : List (Link × Parcel) × Router :=
  match r.inward with
  | none => ([], r)
  | some inward =>
      let (out, q) := r.inbound.collect inward
      (out, { r with inbound := q })

/-- `collect_bridge`. -/
def collectBridge (r : Router) : List (Link × Parcel) × Router :=
  match r.bridge with
  | none => ([], r)
  | some bridge =>
      let (out, q) := r.inbound.collect bridge
      (out, { r with inbound := q })

/-- The bridge edge's link: the primary, else the decaying one. -/
def bridgeLink (r : Router) : Option Link :=
  match r.bridge with
  | some b => b.primary <|> b.decayingLink
  | none => none

/-- The bridge is there, and stable. -/
def bridgeStable (r : Router) : Bool := r.bridge.any (·.isStable)

/-- A decayed bridge edge is reset. -/
def finishBridgeDecay (r : Router) : Router :=
  match r.bridge with
  | some b =>
      let (done, b) := b.maybeFinishDecay r.inbound.current r.outbound.current
      { r with bridge := if done then none else some b }
  | none => r

/-- The outward primary link is central. -/
def onCentralLink (r : Router) : Bool := r.outward.primary.any (·.kind.isCentral)

/-- The number of the next outbound parcel. -/
def outboundLength (r : Router) : Nat := r.outbound.current

/-- The inbound parcels received without a gap. -/
def inboundLength (r : Router) : Nat := r.inbound.currentSequenceLength

/-- The links released from the outward and the inward edge, and whether
their decays finished. -/
def finishDecays (r : Router) : (Option Link × Bool) × (Option Link × Bool) × Router :=
  let outLink := r.outward.decayingLink
  let (out, outward) := r.outward.maybeFinishDecay r.outboundLength r.inboundLength
  let inLink := r.inward.bind (·.decayingLink)
  match r.inward with
  | some inward =>
      let (inc, inward) := inward.maybeFinishDecay r.inboundLength r.outboundLength
      ((if out then outLink else none, out), (if inc then inLink else none, inc),
        { r with outward, inward := some inward })
  | none => ((if out then outLink else none, out), (none, false), { r with outward })

/-- The outward edge decays. -/
def outwardHasDecaying (r : Router) : Bool := r.outward.decaying.isSome

/-- The inward edge decays. -/
def inwardHasDecaying (r : Router) : Bool := r.inward.any (·.decaying.isSome)

/-- Deliver to the portal of a terminal router. -/
def deliver (r : Router) : Router :=
  match r.portal with
  | some portal =>
      let (delivered, q) := r.inbound.drain
      { r with
        inbound := q
        portal := some ⟨portal.messages ++ delivered.map fun p => (p.data, p.objects)⟩ }
  | none => r

end Router

end MojoRs.Ipcz
