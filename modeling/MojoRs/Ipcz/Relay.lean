/-
MojoRs/Ipcz/Relay.lean

The relay between two node links (`wire-relay.rs`).  Two threads, one for each
direction, read a stream with descriptors from one socket, write it to a capture
file message by message, and send every message on with its descriptors.  Both
sockets stay open until both threads have come to their end.

A turn is one pass through a loop of `run` or of `forward_message`, with at most
one system call; what the kernel answers is up to it.  The nodes at both ends
and the threads take turns in any order.
-/
import MojoRs.Ipcz.ChannelReassembly

namespace MojoRs.Ipcz

open Lib

variable {φ : Type}

/-- Why a direction gave up: a system call failed, or the stream is not one of
frames. -/
inductive RelayError
  | io
  | invalidData (e : WireError)
  deriving DecidableEq, Repr

/-- The receive direction of one socket: the capture, the bytes received and not
forwarded, and the descriptors delivered at offsets of them. -/
structure Forwarder (φ : Type) where
  capture : List UInt8
  buf : List UInt8
  marks : List (FdMark φ)
  deriving DecidableEq, Repr

/-- A message in `forward_message`, `sent` bytes of it written. -/
structure Forwarded (φ : Type) where
  data : List UInt8
  raw : List φ
  sent : Nat
  deriving DecidableEq, Repr

/-- Where a thread is: at the head of the loop that splits off messages, in one of
the two loops of `forward_message`, at `recv_with_fds`, or at its end. -/
inductive RelayPhase (φ : Type)
  | splitting
  /-- `write_all` to the capture, `written` bytes into a message. -/
  | capturing (consumed written : Nat)
  | sending (o : Forwarded φ)
  | reading
  | ended (r : Except RelayError Unit)

/-- What the kernel does at a system call: fail, or move at most `n` bytes (and
at least one). -/
inductive KernelAnswer
  | failed
  | upTo (n : Nat)
  deriving DecidableEq, Repr

namespace Forwarder

/-- Nothing read, sent or captured. -/
def new : Forwarder φ := ⟨[], [], []⟩

/-- `try_split`: how many bytes the message at the front takes up. -/
def trySplit (f : Forwarder φ) : Except RelayError (Option Nat) :=
  if f.buf.length < ipczHeaderSize then .ok none
  else
    match parseChannelMessage f.buf with
    | .ok (_, consumed) => .ok (some consumed)
    | .error .truncatedMessage => .ok none
    | .error e => .error (.invalidData e)

/-- `forward_message` behind its `write_all`: the bytes are to be sent, and the
descriptors marked at the first one go with them. -/
def forwardMessage (f : Forwarder φ) (start stop : Nat) : Forwarder φ × Forwarded φ :=
  let data := (f.buf.take stop).drop start
  let fds := (f.marks.filter (·.offset = start)).flatMap (·.fds)
  ({ f with marks := f.marks.filter (·.offset ≠ start) }, ⟨data, fds, 0⟩)

/-- A message is forwarded: its bytes leave the buffer. -/
def consume (f : Forwarder φ) (consumed : Nat) : Forwarder φ :=
  { f with
    buf := f.buf.drop consumed
    marks := f.marks.map fun m => { m with offset := m.offset - consumed } }

/-- The read sizing of `run`: the bytes that complete the header, or the
message. -/
def needed (f : Forwarder φ) : Nat :=
  if f.buf.length < ipczHeaderSize then ipczHeaderSize - f.buf.length
  else (getU32 f.buf 4).toNat - f.buf.length

/-- What a read returned is appended. -/
def receive (f : Forwarder φ) (taken : List (Cell φ)) : Forwarder φ :=
  let fds := taken.flatMap (·.fds)
  { f with
    buf := f.buf ++ taken.map (·.byte)
    marks := f.marks ++ if fds.isEmpty then [] else [⟨f.buf.length, fds⟩] }

end Forwarder

/-- A thread of the relay. -/
structure RelayThread (φ : Type) where
  forwarder : Forwarder φ
  phase : RelayPhase φ

namespace RelayThread

/-- A turn of `write_all` in `forward_message`.  Where the kernel fails, what it has
written so far stays in the capture. -/
def capture (f : Forwarder φ) (consumed written : Nat) (answer : KernelAnswer) : RelayThread φ :=
  let data := f.buf.take consumed
  if written < data.length then
    match answer with
    | .failed => ⟨f, .ended (.error .io)⟩
    | .upTo n =>
        let chunk := (data.drop written).take (max 1 n)
        ⟨{ f with capture := f.capture ++ chunk }, .capturing consumed (written + chunk.length)⟩
  else
    let (f, o) := f.forwardMessage 0 consumed
    ⟨f, .sending o⟩

/-- A turn of the send loop of `forward_message`, with the cells written.  Where the
peer is `gone`, the message is given up and `run` goes on. -/
def send (f : Forwarder φ) (o : Forwarded φ) (gone : Bool) (answer : KernelAnswer) :
    RelayThread φ × List (Cell φ) :=
  if o.sent < o.data.length then
    match answer with
    | .failed => (⟨f, .ended (.error .io)⟩, [])
    | .upTo n =>
        if gone then (⟨f.consume o.data.length, .splitting⟩, [])
        else
          let chunk := sendChunk o.data o.raw o.sent n
          (⟨f, .sending { o with sent := o.sent + chunk.length }⟩, chunk)
  else (⟨f.consume o.data.length, .splitting⟩, [])

/-- The read of `run`, with the cells it leaves on the socket.  An empty socket
blocks, unless it is at its end. -/
def read (f : Forwarder φ) (socket : List (Cell φ)) (closed : Bool) (answer : KernelAnswer) :
    RelayThread φ × List (Cell φ) :=
  match answer with
  | .failed => (⟨f, .ended (.error .io)⟩, socket)
  | .upTo n =>
      let size := min (max 1 n) f.needed
      let taken := socket.take size
      if taken = [] then
        if closed ∨ f.needed = 0 then (⟨f, .ended (.ok ())⟩, socket)
        else (⟨f, .reading⟩, socket)
      else if (taken.flatMap (·.fds)).length > maxFdsPerRecv then
        (⟨f, .ended (.error .io)⟩, socket)
      else (⟨f.receive taken, .splitting⟩, socket.drop size)

/-- The head of the loop of `run` that forwards every complete message. -/
def split (f : Forwarder φ) : RelayThread φ :=
  match f.trySplit with
  | .error e => ⟨f, .ended (.error e)⟩
  | .ok none => ⟨f, .reading⟩
  | .ok (some consumed) => ⟨f, .capturing consumed 0⟩

end RelayThread

/-! ### Two nodes and a relay -/

/-- A node that sends messages, `sent` bytes into the first. -/
structure RelaySource (φ : Type) where
  outgoing : List (Message φ)
  sent : Nat
  socket : List (Cell φ)
  closed : Bool

/-- The node behind the relay: `gone` if it closed its socket, `exited` if the
relay closed it, and `told` if the node found that out. -/
structure RelaySink (φ : Type) where
  socket : List (Cell φ)
  gone : Bool
  exited : Bool
  channel : Channel φ
  received : List (IncomingMessage φ)
  told : Bool
  error : Option ChannelError

/-- One `sendmsg` of the node. -/
def RelaySource.sendmsg (s : RelaySource φ) (n : Nat) : RelaySource φ :=
  if s.closed then s
  else
    match s.outgoing with
    | [] => s
    | m :: rest =>
        let chunk := sendChunk m.frame m.fds s.sent n
        if s.sent + chunk.length < m.frame.length then
          { s with socket := s.socket ++ chunk, sent := s.sent + chunk.length }
        else { s with socket := s.socket ++ chunk, outgoing := rest, sent := 0 }

/-- One call of `recv_available` by the node. -/
def RelaySink.recvAvailable (s : RelaySink φ) (reads : List KernelRead) : RelaySink φ :=
  if s.gone then s
  else
    match s.channel.recvAvailable s.socket s.exited reads with
    | none => s
    | some (.ok (.message m), channel, socket) =>
        { s with channel, socket, received := s.received ++ [m] }
    | some (.ok .wouldBlock, channel, socket) => { s with channel, socket }
    | some (.ok .peerClosed, channel, socket) => { s with channel, socket, told := true }
    | some (.error e, channel, socket) => { s with channel, socket, error := some e }

/-- A direction of the relay and the nodes at its ends. -/
structure Direction (φ : Type) where
  source : RelaySource φ
  thread : RelayThread φ
  sink : RelaySink φ

namespace Direction

/-- All messages still to come. -/
def init (messages : List (Message φ)) : Direction φ where
  source := ⟨messages, 0, [], false⟩
  thread := ⟨.new, .splitting⟩
  sink := ⟨[], false, false, .adopt, [], false, none⟩

/-- The sender's kernel takes bytes. -/
def sendmsg (c : Direction φ) (n : Nat) : Direction φ := { c with source := c.source.sendmsg n }

/-- A turn of the thread. -/
def turn (c : Direction φ) (answer : KernelAnswer) : Direction φ :=
  match c.thread.phase with
  | .splitting => { c with thread := .split c.thread.forwarder }
  | .capturing consumed written =>
      { c with thread := .capture c.thread.forwarder consumed written answer }
  | .sending o =>
      let (thread, cells) := RelayThread.send c.thread.forwarder o c.sink.gone answer
      { c with thread, sink := { c.sink with socket := c.sink.socket ++ cells } }
  | .reading =>
      let (thread, socket) :=
        RelayThread.read c.thread.forwarder c.source.socket c.source.closed answer
      { c with thread, source := { c.source with socket } }
  | .ended _ => c

/-- The receiver reads what has come. -/
def recvAvailable (c : Direction φ) (reads : List KernelRead) : Direction φ :=
  { c with sink := c.sink.recvAvailable reads }

/-- The thread has come to its end. -/
def Ended (c : Direction φ) : Prop := ∃ r, c.thread.phase = .ended r

instance (c : Direction φ) : Decidable c.Ended :=
  match h : c.thread.phase with
  | .ended r => .isTrue ⟨r, h⟩
  | .splitting => .isFalse fun ⟨_, hr⟩ => by rw [h] at hr; cases hr
  | .capturing _ _ => .isFalse fun ⟨_, hr⟩ => by rw [h] at hr; cases hr
  | .sending _ => .isFalse fun ⟨_, hr⟩ => by rw [h] at hr; cases hr
  | .reading => .isFalse fun ⟨_, hr⟩ => by rw [h] at hr; cases hr

end Direction

/-- The two sockets of the relay. -/
inductive RelayFd
  | a
  | b
  deriving DecidableEq, Repr

/-- The other socket. -/
def RelayFd.other : RelayFd → RelayFd
  | .a => .b
  | .b => .a

@[simp] theorem RelayFd.other_other (x : RelayFd) : x.other.other = x := by cases x <;> rfl

@[simp] theorem RelayFd.other_ne (x : RelayFd) : x.other ≠ x := by
  intro h
  cases x <;> cases h

theorem RelayFd.eq_or_other (x y : RelayFd) : y = x ∨ y = x.other := by
  cases x <;> cases y <;> first | exact .inl rfl | exact .inr rfl

/-- The directions of the relay, by the socket that they read from. -/
abbrev Relay (φ : Type) : Type := RelayFd → Direction φ

/-- A `sendmsg` of the node at socket `x`, a turn of the thread that reads from
it, a call of `recv_available` by the node at its other end, the end of the node
at `x`, or the end of the relay. -/
inductive RelayOp
  | sendmsg (x : RelayFd) (n : Nat)
  | turn (x : RelayFd) (answer : KernelAnswer)
  | recvAvailable (x : RelayFd) (reads : List KernelRead)
  | hangUp (x : RelayFd)
  | exit
  deriving DecidableEq, Repr

namespace Relay

/-- Both directions at their start. -/
def init (messages : RelayFd → List (Message φ)) : Relay φ := fun x => .init (messages x)

/-- Change one direction. -/
def modify (s : Relay φ) (x : RelayFd) (f : Direction φ → Direction φ) : Relay φ :=
  fun y => if y = x then f (s y) else s y

/-- A node closes its socket: nothing more comes from it, and what is sent to it
is refused. -/
def hangUp (s : Relay φ) (x : RelayFd) : Relay φ := fun y =>
  if y = x then { s y with source := { (s y).source with closed := true } }
  else { s y with sink := { (s y).sink with gone := true } }

/-- `main` has joined both threads: the sockets are closed. -/
def exit (s : Relay φ) : Relay φ :=
  if (s .a).Ended ∧ (s .b).Ended then
    fun y => { s y with sink := { (s y).sink with exited := true } }
  else s

/-- One step of a sender, a thread, a receiver, or a hang-up. -/
def step (s : Relay φ) : RelayOp → Relay φ
  | .sendmsg x n => s.modify x (·.sendmsg n)
  | .turn x answer => s.modify x (·.turn answer)
  | .recvAvailable x reads => s.modify x (·.recvAvailable reads)
  | .hangUp x => s.hangUp x
  | .exit => s.exit

@[simp] theorem modify_self (s : Relay φ) (x : RelayFd) (f : Direction φ → Direction φ) :
    s.modify x f x = f (s x) := if_pos rfl

theorem modify_of_ne (s : Relay φ) {x y : RelayFd} (f : Direction φ → Direction φ) (h : y ≠ x) :
    s.modify x f y = s y := if_neg h

end Relay

end MojoRs.Ipcz
