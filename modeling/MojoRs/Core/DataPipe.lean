/-
MojoRs/Core/DataPipe.lean

The two endpoints of a data pipe (`data_pipe.rs`), function by function.  The
producer and the consumer each have a ring buffer over the same pages; what
one end does becomes known to the other through a queue of byte counts, which
the other end drains at its next operation (`flushLocked`).

Every operation runs under the lock of the pair.  A call that panics under the
lock (a slice index out of range) is `none`, and leaves the lock poisoned.
Watches are left out: their callbacks run after the lock is released and can
only start further operations; what collecting them does to the state, the
latch of `signalsOf`, is kept.
-/
import MojoRs.Core.Error
import MojoRs.Core.RingBuffer
import MojoRs.Core.Signal

namespace MojoRs.Core

/-- Which endpoint of a pair. -/
inductive DataPipeEnd
  | producer
  | consumer
  deriving DecidableEq, Repr

/-- The other end. -/
def DataPipeEnd.peer : DataPipeEnd → DataPipeEnd
  | .producer => .consumer
  | .consumer => .producer

/-- Flags for one-phase reads. -/
structure ReadFlags where
  allOrNone : Bool
  query : Bool
  discard : Bool
  peek : Bool
  deriving DecidableEq, Repr

/-- The outcome of a one-phase read. -/
structure ReadOutcome where
  numBytes : UInt32
  data : List UInt8
  deriving DecidableEq, Repr

/-- An active two-phase operation. -/
inductive TwoPhase
  | writer (w : DirectWriter)
  | reader (r : DirectReader)
  deriving DecidableEq, Repr

/-- One endpoint's state; `control` holds the peer's unread byte counts. -/
structure EndpointState where
  localClosed : Bool
  peerClosed : Bool
  control : List UInt32
  twoPhase : Option TwoPhase
  hasNewData : Bool
  deriving DecidableEq, Repr

/-- An end that is open, without watches. -/
def EndpointState.new : EndpointState := ⟨false, false, [], none, false⟩

/-- What `create_pair` fixes for both endpoints, with the checks it made. -/
structure DataPipe where
  elementSize : UInt32
  capacity : UInt32
  elementSize_ne : elementSize ≠ 0
  capacity_ne : capacity ≠ 0
  element_le : elementSize ≤ capacity

/-- The capacity in bytes. -/
def DataPipe.cap (p : DataPipe) : Nat := p.capacity.toNat

/-- The state of a pair: the shared pages, the two ring views over them, the
two endpoints, and whether the lock is poisoned. -/
structure PairState (cap : Nat) where
  pages : Pages
  producer : RingBuffer cap
  consumer : RingBuffer cap
  producerEnd : EndpointState
  consumerEnd : EndpointState
  poisoned : Bool

/-- The result of a call; `none` when it panics. -/
abbrev Call (α : Type) := Option (CoreResult α)

/-- `DataPipe::create_pair`; the platform's shared memory is there. -/
def DataPipe.createPair (elementSize capacity : UInt32) : CoreResult DataPipe :=
  if h : capacity = 0 ∨ elementSize = 0 ∨ capacity < elementSize then
    .error .invalidArgument
  else
    .ok ⟨elementSize, capacity, fun he => h (.inr (.inl he)), fun hc => h (.inl hc),
      UInt32.not_lt.mp fun hlt => h (.inr (.inr hlt))⟩

theorem DataPipe.cap_pos (p : DataPipe) : 0 < p.cap :=
  Nat.pos_of_ne_zero fun h => p.capacity_ne (UInt32.toNat_inj.mp h)

theorem DataPipe.cap_lt (p : DataPipe) : p.cap < 2 ^ 32 := p.capacity.toNat_lt

namespace PairState

variable {cap : Nat}

/-- A fresh pair over zeroed pages. -/
def new (p : DataPipe) : PairState p.cap where
  pages := fun _ => 0
  producer := .new p.cap_pos
  consumer := .new p.cap_pos
  producerEnd := .new
  consumerEnd := .new
  poisoned := false

/-- The state of an end. -/
abbrev endpoint (s : PairState cap) : DataPipeEnd → EndpointState
  | .producer => s.producerEnd
  | .consumer => s.consumerEnd

/-- Change the state of an end. -/
def modifyEndpoint (s : PairState cap) (e : DataPipeEnd) (f : EndpointState → EndpointState) :
    PairState cap :=
  match e with
  | .producer => { s with producerEnd := f s.producerEnd }
  | .consumer => { s with consumerEnd := f s.consumerEnd }

/-- A panic under the lock. -/
def poison (s : PairState cap) : PairState cap := { s with poisoned := true }

/-- The accumulation loop of `flush_locked`: it stops at an overflow, after
taking the overflowing count. -/
def drain : List UInt32 → Nat → Nat × List UInt32
  | [], changed => (changed, [])
  | value :: rest, changed =>
      match checkedAdd changed value.toNat with
      | some changed => drain rest changed
      | none => (changed, rest)

/-- Drain the peer's counts: the producer discards what was consumed, the
consumer extends its data by what was produced. -/
def flushLocked (s : PairState cap) (self : DataPipeEnd) : PairState cap :=
  let (changed, rest) := drain (s.endpoint self).control 0
  let s := s.modifyEndpoint self fun ep => { ep with control := rest }
  if changed = 0 then s
  else
    match self with
    | .producer => { s with producer := (s.producer.discardAll changed).getD s.producer }
    | .consumer =>
        { s with
          consumer := (s.consumer.extendDataRange changed).getD s.consumer
          consumerEnd := { s.consumerEnd with hasNewData := true } }

/-- The signal state of an endpoint; a consumer with news latches them. -/
def signalsOf (s : PairState cap) (e : DataPipeEnd) : PairState cap × SignalsState :=
  let ep := s.endpoint e
  let satisfied := if ep.peerClosed then Signals.peerClosed else .none
  let satisfiable :=
    if ep.peerClosed then Signals.peerClosed else Signals.peerClosed ||| Signals.peerRemote
  match e with
  | .consumer =>
      let newData := ep.hasNewData || !ep.control.isEmpty
      let s := if newData then s.modifyEndpoint e fun ep => { ep with hasNewData := true } else s
      let (satisfied, satisfiable) :=
        if newData then
          (satisfied ||| Signals.newDataReadable, satisfiable ||| Signals.newDataReadable)
        else (satisfied, satisfiable)
      let (satisfied, satisfiable) :=
        if newData || s.consumer.dataSize > 0 then
          (satisfied ||| Signals.readable, satisfiable ||| Signals.readable)
        else (satisfied, satisfiable)
      let satisfiable :=
        if ep.peerClosed then satisfiable
        else satisfiable ||| Signals.readable ||| Signals.newDataReadable
      (s, ⟨satisfied, satisfiable⟩)
  | .producer =>
      if ep.peerClosed then (s, ⟨satisfied, satisfiable⟩)
      else
        (s, ⟨if s.producer.availableCapacity > 0 || !ep.control.isEmpty then
            satisfied ||| Signals.writable else satisfied,
          satisfiable ||| Signals.writable⟩)

/-- `collect_watchers` without watches: only the latch of `signalsOf`. -/
def collectWatchers (s : PairState cap) (e : DataPipeEnd) : PairState cap :=
  (s.signalsOf e).1

/-- `push_and_collect`: send the peer a byte count, unless it is zero. -/
def pushAndCollect (s : PairState cap) (peer : DataPipeEnd) (count : UInt32) : PairState cap :=
  if count = 0 then s
  else
    (s.modifyEndpoint peer fun ep => { ep with control := ep.control ++ [count] }).collectWatchers
      peer

end PairState

namespace DataPipe

open PairState

variable (p : DataPipe) (self : DataPipeEnd)

/-- One-phase write. -/
def write (s : PairState p.cap) (elements : List UInt8) (numBytes : UInt32)
    (allOrNone : Bool) : PairState p.cap × Call UInt32 :=
  if numBytes.toNat % p.elementSize.toNat ≠ 0 then (s, some (.error .invalidArgument))
  else if s.poisoned then (s, some (.error .internal))
  else
    let s := s.flushLocked self
    if (s.endpoint self).twoPhase.isSome then (s, some (.error .busy))
    else if (s.endpoint self).peerClosed then (s, some (.error .failedPrecondition))
    -- the slice `elements[..num_bytes]`
    else if elements.length < numBytes.toNat then (s.poison, none)
    else if allOrNone then
      match s.producer.writeAll s.pages (elements.take numBytes.toNat) with
      | none =>
          (s, some (.error (if numBytes = 0 then .shouldWait else .outOfRange)))
      | some (producer, pages) =>
          (({ s with producer, pages }).pushAndCollect self.peer numBytes, some (.ok numBytes))
    else
      let (writeSize, producer, pages) :=
        s.producer.write s.pages (elements.take numBytes.toNat)
      let s := { s with producer, pages }
      if writeSize = 0 ∧ elements ≠ [] then (s, some (.error .shouldWait))
      else
        let written := UInt32.ofNat writeSize
        (s.pushAndCollect self.peer written, some (.ok written))

/-- Begin a two-phase write. -/
def beginWrite (s : PairState p.cap) : PairState p.cap × Call Span :=
  if s.poisoned then (s, some (.error .internal))
  else
    let s := s.flushLocked self
    if (s.endpoint self).twoPhase.isSome then (s, some (.error .busy))
    else if (s.endpoint self).peerClosed then (s, some (.error .failedPrecondition))
    else
      let writer := s.producer.beginWrite
      if writer.span.len = 0 then (s, some (.error .shouldWait))
      else
        (s.modifyEndpoint self fun ep => { ep with twoPhase := some (.writer writer) },
          some (.ok writer.span))

/-- End a two-phase write; it is ended on failure too. -/
def endWrite (s : PairState p.cap) (produced : UInt32) : PairState p.cap × Call Unit :=
  if s.poisoned then (s, some (.error .internal))
  else
    match (s.endpoint self).twoPhase with
    | none => (s, some (.error .failedPrecondition))
    | some two =>
        let s := s.modifyEndpoint self fun ep => { ep with twoPhase := none }
        if produced.toNat % p.elementSize.toNat ≠ 0 then (s, some (.error .invalidArgument))
        else if produced = 0 then (s, some (.ok ()))
        else
          match two with
          | .reader _ => (s, some (.error .invalidArgument))
          | .writer writer =>
              match writer.commit produced.toNat s.producer with
              | none => (s, some (.error .invalidArgument))
              | some producer =>
                  (({ s with producer }).pushAndCollect self.peer produced, some (.ok ()))

/-- The slice `out[..num_bytes]` of a read is out of range; no slice is taken
when the bytes are discarded. -/
def outTooShort (elements : Option (List UInt8)) (numBytes : UInt32) (flags : ReadFlags) :
    Bool :=
  !flags.discard && decide ((elements.getD []).length < numBytes.toNat)

/-- The all-or-none path of a read. -/
def readAllOrNone (s : PairState p.cap) (numBytes : UInt32) (flags : ReadFlags) :
    PairState p.cap × Call ReadOutcome :=
  let result : Option (List UInt8 × RingBuffer p.cap) :=
    if flags.discard then (s.consumer.discardAll numBytes.toNat).map ([], ·)
    else if flags.peek then (s.consumer.peekAll s.pages numBytes.toNat).map (·, s.consumer)
    else s.consumer.readAll s.pages numBytes.toNat
  match result with
  | none =>
      (s, some (.error
        (if (s.endpoint self).peerClosed then .failedPrecondition else .outOfRange)))
  | some (data, consumer) =>
      (if flags.peek then s else ({ s with consumer }).pushAndCollect self.peer numBytes,
        some (.ok ⟨numBytes, data⟩))

/-- The partial path of a read, where there is data. -/
def readPartial (s : PairState p.cap) (numBytes : UInt32) (flags : ReadFlags) :
    PairState p.cap × Call ReadOutcome :=
  if flags.discard then
    let readSize := min numBytes (UInt32.ofNat s.consumer.dataSize)
    let consumer := (s.consumer.discard readSize.toNat).2
    (({ s with consumer }).pushAndCollect self.peer readSize, some (.ok ⟨readSize, []⟩))
  else if flags.peek then
    let data := s.consumer.peek s.pages numBytes.toNat
    (s, some (.ok ⟨UInt32.ofNat data.length, data⟩))
  else
    let (data, consumer) := s.consumer.read s.pages numBytes.toNat
    let readSize := UInt32.ofNat data.length
    (({ s with consumer }).pushAndCollect self.peer readSize, some (.ok ⟨readSize, data⟩))

/-- One-phase read into the buffer `elements`, if one is given. -/
def read (s : PairState p.cap) (elements : Option (List UInt8)) (numBytes : UInt32)
    (flags : ReadFlags) : PairState p.cap × Call ReadOutcome :=
  if (flags.peek && flags.discard) || (flags.query && (flags.peek || flags.discard)) then
    (s, some (.error .invalidArgument))
  else if !(flags.discard || flags.query) && elements.isNone && numBytes > 0 then
    (s, some (.error .invalidArgument))
  else if s.poisoned then (s, some (.error .internal))
  else
    let s := s.flushLocked self
    if (s.endpoint self).twoPhase.isSome then (s, some (.error .busy))
    else if flags.query then
      (s, some (.ok ⟨UInt32.ofNat s.consumer.dataSize, []⟩))
    else if numBytes.toNat % p.elementSize.toNat ≠ 0 then (s, some (.error .invalidArgument))
    else
      -- the latch is cleared, also when the read then fails
      let s := s.modifyEndpoint self fun ep => { ep with hasNewData := false }
      if flags.allOrNone then
        if outTooShort elements numBytes flags then (s.poison, none)
        else p.readAllOrNone self s numBytes flags
      else if s.consumer.dataSize = 0 then
        (s, some (.error
          (if (s.endpoint self).peerClosed then .failedPrecondition else .shouldWait)))
      else if outTooShort elements numBytes flags then (s.poison, none)
      else p.readPartial self s numBytes flags

/-- Begin a two-phase read. -/
def beginRead (s : PairState p.cap) : PairState p.cap × Call Span :=
  if s.poisoned then (s, some (.error .internal))
  else
    let s := s.flushLocked self
    if (s.endpoint self).twoPhase.isSome then (s, some (.error .busy))
    else
      let reader := s.consumer.beginRead
      if reader.span.len = 0 then
        (s, some (.error
          (if (s.endpoint self).peerClosed then .failedPrecondition else .shouldWait)))
      else
        (s.modifyEndpoint self fun ep =>
          { ep with twoPhase := some (.reader reader), hasNewData := false },
          some (.ok reader.span))

/-- End a two-phase read; it is ended on failure too. -/
def endRead (s : PairState p.cap) (consumed : UInt32) : PairState p.cap × Call Unit :=
  if s.poisoned then (s, some (.error .internal))
  else
    match (s.endpoint self).twoPhase with
    | none => (s, some (.error .failedPrecondition))
    | some two =>
        let s := s.modifyEndpoint self fun ep => { ep with twoPhase := none }
        if consumed.toNat % p.elementSize.toNat ≠ 0 then (s, some (.error .invalidArgument))
        else if consumed = 0 then (s, some (.ok ()))
        else
          match two with
          | .writer _ => (s, some (.error .invalidArgument))
          | .reader reader =>
              match reader.consume consumed.toNat s.consumer with
              | none => (s, some (.error .invalidArgument))
              | some consumer =>
                  (({ s with consumer }).pushAndCollect self.peer consumed, some (.ok ()))

/-- Query the signal state. -/
def querySignals (s : PairState p.cap) : PairState p.cap × SignalsState :=
  if s.poisoned then (s, .empty)
  else (s.flushLocked self).signalsOf self

/-- Close this endpoint. -/
def close (s : PairState p.cap) : PairState p.cap :=
  if s.poisoned then s
  else if (s.endpoint self).localClosed then s
  else
    ((s.modifyEndpoint self fun ep => { ep with localClosed := true }).modifyEndpoint
      self.peer fun ep => { ep with peerClosed := true }).collectWatchers self.peer

/-! ### What a write and a read come to -/

section Rules

variable {p : DataPipe} {self : DataPipeEnd} {s : PairState p.cap} {numBytes : UInt32}

/-- A write gets as far as the ring. -/
structure WriteStarts (p : DataPipe) (e : DataPipeEnd) (s : PairState p.cap)
    (elements : List UInt8) (numBytes : UInt32) : Prop where
  whole : numBytes.toNat % p.elementSize.toNat = 0
  idle : ((s.flushLocked e).endpoint e).twoPhase = none
  peerOpen : ((s.flushLocked e).endpoint e).peerClosed = false
  long : numBytes.toNat ≤ elements.length

/-- What holds of every outcome holds of a write. -/
theorem write_rule {motive : PairState p.cap × Call UInt32 → Prop} {elements : List UInt8}
    {allOrNone : Bool} (refused : ∀ e, motive (s, some (.error e)))
    (flushed : ∀ e, motive (s.flushLocked self, some (.error e)))
    (short : elements.length < numBytes.toNat → motive ((s.flushLocked self).poison, none))
    (all : WriteStarts p self s elements numBytes → ∀ producer pages,
      (s.flushLocked self).producer.writeAll (s.flushLocked self).pages
        (elements.take numBytes.toNat) = some (producer, pages) →
      motive (({ s.flushLocked self with producer, pages }).pushAndCollect self.peer numBytes,
        some (.ok numBytes)))
    (nothing : WriteStarts p self s elements numBytes → ∀ producer pages,
      (s.flushLocked self).producer.write (s.flushLocked self).pages
        (elements.take numBytes.toNat) = (0, producer, pages) →
      motive ({ s.flushLocked self with producer, pages }, some (.error .shouldWait)))
    (partly : WriteStarts p self s elements numBytes → ∀ n producer pages,
      (s.flushLocked self).producer.write (s.flushLocked self).pages
        (elements.take numBytes.toNat) = (n, producer, pages) →
      motive (({ s.flushLocked self with producer, pages }).pushAndCollect self.peer
        (UInt32.ofNat n), some (.ok (UInt32.ofNat n)))) :
    motive (p.write self s elements numBytes allOrNone) := by
  unfold write
  refine iteInduction (fun _ => refused _) fun hwhole => ?_
  refine iteInduction (fun _ => refused _) fun _ => ?_
  refine iteInduction (fun _ => flushed _) fun hidle => ?_
  refine iteInduction (fun _ => flushed _) fun hopen => ?_
  refine iteInduction short fun hlong => ?_
  have hstarts : WriteStarts p self s elements numBytes :=
    ⟨Decidable.not_not.mp hwhole, Option.not_isSome_iff_eq_none.mp hidle,
      Bool.eq_false_iff.mpr hopen, Nat.le_of_not_lt hlong⟩
  refine iteInduction (fun _ => ?_) fun _ => ?_
  · cases hw : (s.flushLocked self).producer.writeAll (s.flushLocked self).pages
        (elements.take numBytes.toNat) with
    | none => exact flushed _
    | some w => exact all hstarts w.1 w.2 hw
  · rcases hw : (s.flushLocked self).producer.write (s.flushLocked self).pages
        (elements.take numBytes.toNat) with ⟨n, producer, pages⟩
    refine iteInduction (fun hn => ?_) fun _ => partly hstarts n producer pages hw
    obtain ⟨rfl, -⟩ := hn
    exact nothing hstarts producer pages hw

/-- A read gets as far as the ring. -/
structure ReadStarts (p : DataPipe) (e : DataPipeEnd) (s : PairState p.cap)
    (elements : Option (List UInt8)) (numBytes : UInt32) (flags : ReadFlags) : Prop where
  notBoth : (flags.peek && flags.discard) = false
  noQuery : flags.query = false
  given : (!(flags.discard || flags.query) && elements.isNone && decide (numBytes > 0)) = false
  idle : ((s.flushLocked e).endpoint e).twoPhase = none
  whole : numBytes.toNat % p.elementSize.toNat = 0

/-- The pair when a read gets to the ring. -/
def forgotten (s : PairState p.cap) (self : DataPipeEnd) : PairState p.cap :=
  (s.flushLocked self).modifyEndpoint self fun ep => { ep with hasNewData := false }

/-- What holds of every outcome holds of a read. -/
theorem read_rule {motive : PairState p.cap × Call ReadOutcome → Prop}
    {elements : Option (List UInt8)} {flags : ReadFlags}
    (refused : ∀ e, motive (s, some (.error e)))
    (flushed : ∀ e, motive (s.flushLocked self, some (.error e)))
    (query : flags.query = true → motive (s.flushLocked self,
      some (.ok ⟨UInt32.ofNat (s.flushLocked self).consumer.dataSize, []⟩)))
    (empty : ReadStarts p self s elements numBytes flags → ∀ e,
      motive (forgotten s self, some (.error e)))
    (short : ReadStarts p self s elements numBytes flags →
      outTooShort elements numBytes flags = true → motive ((forgotten s self).poison, none))
    (allOrNone : ReadStarts p self s elements numBytes flags →
      motive (p.readAllOrNone self (forgotten s self) numBytes flags))
    (partly : ReadStarts p self s elements numBytes flags →
      motive (p.readPartial self (forgotten s self) numBytes flags)) :
    motive (p.read self s elements numBytes flags) := by
  unfold read
  refine iteInduction (fun _ => refused _) fun hflags => ?_
  refine iteInduction (fun _ => refused _) fun hgiven => ?_
  refine iteInduction (fun _ => refused _) fun _ => ?_
  refine iteInduction (fun _ => flushed _) fun hidle => ?_
  refine iteInduction query fun hquery => ?_
  refine iteInduction (fun _ => flushed _) fun hwhole => ?_
  rw [Bool.or_eq_true, not_or] at hflags
  have hstarts : ReadStarts p self s elements numBytes flags :=
    ⟨Bool.eq_false_iff.mpr hflags.1, Bool.eq_false_iff.mpr hquery, Bool.eq_false_iff.mpr hgiven,
      Option.not_isSome_iff_eq_none.mp hidle, Decidable.not_not.mp hwhole⟩
  refine iteInduction (fun _ => ?_) fun _ => ?_
  · exact iteInduction (short hstarts) fun _ => allOrNone hstarts
  · refine iteInduction (fun _ => empty hstarts _) fun _ => ?_
    exact iteInduction (short hstarts) fun _ => partly hstarts

end Rules

end DataPipe

end MojoRs.Core
