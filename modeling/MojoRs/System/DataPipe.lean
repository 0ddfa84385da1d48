/-
MojoRs/System/DataPipe.lean

The safe API of a data pipe (`mojo-rs-system/src/data_pipe.rs`).  Two-phase access
is a transaction that borrows its endpoint and ends on commit or when it is
dropped.  `holder` is what the client has of each end, and `permits` what the
borrow checker lets it call there; a transaction may also be forgotten, which
gives the endpoint back without ending the operation.

The pair itself is that of the core, with the bytes accepted and consumed so far
(`StreamState`).
-/
import MojoRs.Core.DataPipeWatches
import MojoRs.Core.DataPipeStream

namespace MojoRs.System

open MojoRs.Core Lib

/-! ### Errors and options -/

/-- Errors surfaced by the system API. -/
inductive SystemError
  | cancelled | unknown | invalidArgument | deadlineExceeded | notFound | alreadyExists
  | permissionDenied | resourceExhausted | failedPrecondition | aborted | outOfRange
  | unimplemented | internal | unavailable | dataLoss | busy | shouldWait
  deriving DecidableEq, Repr

/-- What a call of the API gives. -/
abbrev SystemResult (α : Type) := Except SystemError α

/-- `From<CoreError>`; `ok` is no error. -/
def SystemError.ofCore : CoreError → SystemError
  | .ok => .unknown
  | .cancelled => .cancelled
  | .unknown => .unknown
  | .invalidArgument => .invalidArgument
  | .deadlineExceeded => .deadlineExceeded
  | .notFound => .notFound
  | .alreadyExists => .alreadyExists
  | .permissionDenied => .permissionDenied
  | .resourceExhausted => .resourceExhausted
  | .failedPrecondition => .failedPrecondition
  | .aborted => .aborted
  | .outOfRange => .outOfRange
  | .unimplemented => .unimplemented
  | .internal => .internal
  | .unavailable => .unavailable
  | .dataLoss => .dataLoss
  | .busy => .busy
  | .shouldWait => .shouldWait

/-- What a call of the core comes to; a panic stays one. -/
def ofCall {α : Type} (c : Call α) : Option (SystemResult α) := c.map (·.mapError .ofCore)

/-- `u32::try_from`. -/
def u32TryFrom (n : Nat) : Option UInt32 := if n < 2 ^ 32 then some (UInt32.ofNat n) else none

/-- Options for creating a pair. -/
structure DataPipeOptions where
  elementSize : UInt32
  capacity : UInt32
  deriving DecidableEq, Repr

/-- Single bytes, and the capacity the core selects. -/
def DataPipeOptions.default : DataPipeOptions := ⟨1, 0⟩

/-- `create`: a capacity of zero selects 64 KiB. -/
def create (options : DataPipeOptions) : SystemResult DataPipe :=
  (DataPipe.createPair options.elementSize
    (if options.capacity = 0 then 64 * 1024 else options.capacity)).mapError .ofCore

/-! ### Endpoints and transactions -/

/-- What a client has of an endpoint: the endpoint itself, a transaction that
borrows it, the endpoint behind a forgotten transaction, or nothing any more. -/
inductive Holder
  | owned
  | transaction (span : Span)
  | forgotten
  | dropped
  deriving DecidableEq, Repr

namespace Holder

/-- The endpoint is not borrowed. -/
def usable : Holder → Bool
  | owned | forgotten => true
  | transaction _ | dropped => false

/-- A transaction borrows the endpoint. -/
def isTransaction : Holder → Bool
  | transaction _ => true
  | owned | forgotten | dropped => false

end Holder

/-- A pair in the hands of its clients. -/
structure SafePipe (p : DataPipe) where
  stream : StreamState p
  holder : DataPipeEnd → Holder

namespace SafePipe

variable {p : DataPipe}

/-- A new pair, both endpoints in the hands of their clients. -/
def init (p : DataPipe) : SafePipe p := ⟨.init p, fun _ => .owned⟩

/-- The pair of the core. -/
abbrev pair (s : SafePipe p) : PairState p.cap := s.stream.pair

/-- A call of the core. -/
def core (s : SafePipe p) (op : PipeOp) : SafePipe p := { s with stream := s.stream.step p op }

/-- What the client has of an endpoint from now on. -/
def hold (s : SafePipe p) (e : DataPipeEnd) (h : Holder) : SafePipe p :=
  { s with holder := Function.update s.holder e h }

/-- `DataPipeProducer::write`. -/
def write (s : SafePipe p) (data : List UInt8) (allOrNone : Bool) :
    SafePipe p × Option (SystemResult Nat) :=
  match u32TryFrom data.length with
  | none => (s, some (.error .invalidArgument))
  | some numBytes =>
      (s.core (.write data numBytes allOrNone),
        (ofCall (p.write .producer s.pair data numBytes allOrNone).2).map (·.map UInt32.toNat))

/-- `begin_write`. -/
def beginWrite (s : SafePipe p) : SafePipe p × Option (SystemResult Span) :=
  match (p.beginWrite .producer s.pair).2 with
  | some (.ok span) =>
      ((s.core .beginWrite).hold .producer (.transaction span), some (.ok span))
  | r => (s.core .beginWrite, ofCall r)

/-- `WriteTransaction::drop`: the operation ends with nothing committed. -/
def dropWrite (s : SafePipe p) : SafePipe p := (s.core (.endWrite 0)).hold .producer .owned

/-- `WriteTransaction::commit`; a transaction that is not committed is dropped. -/
def commit (s : SafePipe p) (n : Nat) : SafePipe p × Option (SystemResult Unit) :=
  match u32TryFrom n with
  | none => (s.dropWrite, some (.error .invalidArgument))
  | some produced =>
      match (p.endWrite .producer s.pair produced).2 with
      | some (.ok ()) => ((s.core (.endWrite produced)).hold .producer .owned, some (.ok ()))
      | r => ((s.core (.endWrite produced)).dropWrite, ofCall r)

/-- `DataPipeConsumer::read` into `buffer`. -/
def read (s : SafePipe p) (buffer : List UInt8) (flags : ReadFlags) :
    SafePipe p × Option (SystemResult ReadOutcome) :=
  match u32TryFrom buffer.length with
  | none => (s, some (.error .invalidArgument))
  | some numBytes =>
      let elements := if flags.query || flags.discard then none else some buffer
      (s.core (.read elements numBytes flags),
        ofCall (p.read .consumer s.pair elements numBytes flags).2)

/-- `begin_read`. -/
def beginRead (s : SafePipe p) : SafePipe p × Option (SystemResult Span) :=
  match (p.beginRead .consumer s.pair).2 with
  | some (.ok span) =>
      ((s.core .beginRead).hold .consumer (.transaction span), some (.ok span))
  | r => (s.core .beginRead, ofCall r)

/-- `ReadTransaction::drop`. -/
def dropRead (s : SafePipe p) : SafePipe p := (s.core (.endRead 0)).hold .consumer .owned

/-- `ReadTransaction::consume`. -/
def consume (s : SafePipe p) (n : Nat) : SafePipe p × Option (SystemResult Unit) :=
  match u32TryFrom n with
  | none => (s.dropRead, some (.error .invalidArgument))
  | some consumed =>
      match (p.endRead .consumer s.pair consumed).2 with
      | some (.ok ()) => ((s.core (.endRead consumed)).hold .consumer .owned, some (.ok ()))
      | r => ((s.core (.endRead consumed)).dropRead, ofCall r)

/-- `ReadTransaction::bytes`. -/
def bytes (s : SafePipe p) (span : Span) : List UInt8 := copyOut s.pair.pages span.start span.len

end SafePipe

/-- The calls of the two clients.  `fill` writes through the bytes of a write
transaction; `close` is `close_producer` or `close_consumer`, and `drop` is for
the endpoint. -/
inductive SafeOp
  | write (data : List UInt8) (allOrNone : Bool)
  | beginWrite
  | fill (pos : Nat) (bytes : List UInt8)
  | commit (n : Nat)
  | dropWrite
  | read (buffer : List UInt8) (flags : ReadFlags)
  | beginRead
  | consume (n : Nat)
  | dropRead
  | forget (e : DataPipeEnd)
  | signals (e : DataPipeEnd)
  | close (e : DataPipeEnd)
  | drop (e : DataPipeEnd)
  deriving DecidableEq, Repr

namespace SafePipe

variable {p : DataPipe}

/-- What the borrow checker lets the clients call. -/
def permits (s : SafePipe p) : SafeOp → Bool
  | .write .. | .beginWrite => (s.holder .producer).usable
  | .fill .. | .commit _ | .dropWrite => (s.holder .producer).isTransaction
  | .read .. | .beginRead => (s.holder .consumer).usable
  | .consume _ | .dropRead => (s.holder .consumer).isTransaction
  | .forget e => (s.holder e).isTransaction
  | .signals e | .close e | .drop e => (s.holder e).usable

/-- The pair after a call. -/
def perform (s : SafePipe p) : SafeOp → SafePipe p
  | .write data allOrNone => (s.write data allOrNone).1
  | .beginWrite => s.beginWrite.1
  | .fill pos bytes => s.core (.fill pos bytes)
  | .commit n => (s.commit n).1
  | .dropWrite => s.dropWrite
  | .read buffer flags => (s.read buffer flags).1
  | .beginRead => s.beginRead.1
  | .consume n => (s.consume n).1
  | .dropRead => s.dropRead
  | .forget e => s.hold e .forgotten
  | .signals e => s.core (.querySignals e)
  | .close e => s.core (.close e)
  | .drop e => (s.core (.close e)).hold e .dropped

/-- A call that the borrow checker refuses is not there. -/
def step (s : SafePipe p) (op : SafeOp) : SafePipe p := if s.permits op then s.perform op else s

end SafePipe

end MojoRs.System
