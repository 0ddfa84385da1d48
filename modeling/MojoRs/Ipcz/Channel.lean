/-
MojoRs/Ipcz/Channel.lean

The socket side of a node link (`channel.rs`, and the framing of `wire.rs`).
A message is framed by a 16-byte header and written by one or more `sendmsg`;
its descriptors travel with the first byte of its frame.  The receiver asks
for exactly the bytes that complete the message at the front of its buffer.

The stream socket is a list of cells in flight, a byte with the descriptors
that were attached to it.  How much a `sendmsg` accepts and a `recvmsg`
returns is up to the kernel, as long as it is at least one byte; a receive may
also be interrupted.  A send that fails part way leaves a stream without a next
message; it is taken up in `ChannelSend`.
-/
import MojoRs.Lib.Bytes

namespace MojoRs.Ipcz

open Lib

/-- The size of the channel header. -/
def ipczHeaderSize : Nat := 16

/-- The largest frame that the receiver accepts. -/
def maxFrameSize : Nat := 256 * 1024 * 1024

/-- The number of descriptors accepted by one `recvmsg`. -/
def maxFdsPerRecv : Nat := 32

/-- Parse errors. -/
inductive WireError
  | shortChannelHeader
  | unknownChannelHeaderSize (size : UInt16)
  | badChannelMessageSize (numBytes : UInt32)
  | truncatedMessage
  | shortMessageHeader
  | unknownMessageHeaderSize (size : UInt8)
  | shortParams
  | badParamsSize
  | badArrayOffset
  | badArray
  | badDriverObjects
  deriving DecidableEq, Repr

/-- Errors from channel operation. -/
inductive ChannelError
  | io
  | wire (e : WireError)
  deriving DecidableEq, Repr

variable {φ : Type}

/-- A complete message with its descriptors. -/
structure IncomingMessage (φ : Type) where
  payload : List UInt8
  fds : List φ
  deriving DecidableEq, Repr

/-- The result of a nonblocking receive. -/
inductive RecvResult (φ : Type)
  | message (m : IncomingMessage φ)
  | wouldBlock
  | peerClosed
  deriving DecidableEq, Repr

/-- Descriptors delivered at an offset of the receive buffer. -/
structure FdMark (φ : Type) where
  offset : Nat
  fds : List φ
  deriving DecidableEq, Repr

/-- The receive side of a channel. -/
structure Channel (φ : Type) where
  recvBuf : List UInt8
  fdMarks : List (FdMark φ)
  deriving DecidableEq, Repr

/-- A byte in flight, with the descriptors attached to it. -/
structure Cell (φ : Type) where
  byte : UInt8
  fds : List φ
  deriving DecidableEq, Repr

/-- What the kernel does at a `recvmsg`: fail with `EINTR`, or return at most
`n` bytes (and at least one). -/
inductive KernelRead
  | interrupted
  | upTo (n : Nat)
  deriving DecidableEq, Repr

/-! ### Sending -/

/-- Encode the header that frames a payload. -/
def encodeChannelHeader (payloadLen : Nat) (numHandles : UInt16) : List UInt8 :=
  toLE 2 ipczHeaderSize ++ (toLE 2 numHandles.toNat ++
    (toLE 4 (UInt32.ofNat (ipczHeaderSize + payloadLen)).toNat ++ toLE 8 0))

/-- Encode a complete channel message. -/
def encodeChannelMessage (payload : List UInt8) (numHandles : UInt16) : List UInt8 :=
  encodeChannelHeader payload.length numHandles ++ payload

/-- The cells of one `sendmsg`: descriptors go with the first byte. -/
def attach (fds : List φ) : List UInt8 → List (Cell φ)
  | [] => []
  | b :: bs => ⟨b, fds⟩ :: bs.map (⟨·, []⟩)

/-- One turn of the loop of `Channel::send`, `sent` bytes in: the cells that
reach the socket when the kernel accepts at most `n` bytes. -/
def sendChunk (frame : List UInt8) (fds : List φ) (sent n : Nat) : List (Cell φ) :=
  match fds with
  | [] => attach [] ((frame.drop sent).take (max 1 n))
  | fd :: fds =>
      if sent = 0 then attach (fd :: fds) (frame.take (max 1 n))
      else attach [] ((frame.drop sent).take (max 1 n))

/-! ### Receiving -/

namespace Channel

/-- `Channel::adopt`: nothing received yet. -/
def adopt : Channel φ := ⟨[], []⟩

/-- The `num_bytes` field of the header at the front. -/
def numBytes (recvBuf : List UInt8) : Nat := readLE recvBuf 4 4

/-- Pop the marks at offset 0 and collect their descriptors. -/
def takeMarks : List (FdMark φ) → List φ × List (FdMark φ)
  | [] => ([], [])
  | mark :: marks =>
      if mark.offset = 0 then
        let (fds, rest) := takeMarks marks
        (mark.fds ++ fds, rest)
      else ([], mark :: marks)

/-- `try_assemble`: parse one complete message from the front of the buffer. -/
def tryAssemble (c : Channel φ) :
    Except ChannelError (Option (IncomingMessage φ) × Channel φ) :=
  if c.recvBuf.length < ipczHeaderSize then .ok (none, c)
  else
    let size := UInt16.ofNat (readLE c.recvBuf 0 2)
    if size ≠ UInt16.ofNat ipczHeaderSize then
      .error (.wire (.unknownChannelHeaderSize size))
    else
      let numHandles := readLE c.recvBuf 2 2
      let numBytes := numBytes c.recvBuf
      if numBytes < ipczHeaderSize then
        .error (.wire (.badChannelMessageSize (UInt32.ofNat numBytes)))
      else if numBytes > c.recvBuf.length then
        if numBytes > maxFrameSize then
          .error (.wire (.badChannelMessageSize (UInt32.ofNat numBytes)))
        else .ok (none, c)
      else
        let payload := (c.recvBuf.take numBytes).drop ipczHeaderSize
        let (fds, marks) := takeMarks c.fdMarks
        if fds.length ≠ numHandles then .error (.wire .badDriverObjects)
        else
          .ok (some ⟨payload, fds⟩,
            ⟨c.recvBuf.drop numBytes,
              marks.map fun mark => { mark with offset := mark.offset - numBytes }⟩)

/-- The read sizing of `recv_available`: the bytes that complete the header,
or the message. -/
def neededBytes (recvBuf : List UInt8) : Except ChannelError Nat :=
  if recvBuf.length < ipczHeaderSize then .ok (ipczHeaderSize - recvBuf.length)
  else if numBytes recvBuf < ipczHeaderSize ∨ numBytes recvBuf > maxFrameSize then
    .error (.wire (.badChannelMessageSize (UInt32.ofNat (numBytes recvBuf))))
  else .ok (numBytes recvBuf - recvBuf.length)

/-- How many bytes are asked for and returned. -/
def KernelRead.size (needed : Nat) : Option KernelRead → Nat
  | some (.upTo n) => min (max 1 n) needed
  | _ => needed

/-- The loop of `recv_available`.  `reads` is what the kernel does at the
`recvmsg` calls in turn; after that it returns all it has.  With `closed`, an
empty socket is at its end. -/
def recvLoop : Nat → Channel φ → List (Cell φ) → Bool → List KernelRead →
    Option (Except ChannelError (RecvResult φ) × Channel φ × List (Cell φ))
  | 0, _, _, _, _ => none
  | fuel + 1, c, socket, closed, reads =>
      match c.tryAssemble with
      | .error e => some (.error e, c, socket)
      | .ok (some m, c) => some (.ok (.message m), c, socket)
      | .ok (none, c) =>
          match neededBytes c.recvBuf with
          | .error e => some (.error e, c, socket)
          | .ok needed =>
              match reads.head?, socket with
              | some .interrupted, _ => recvLoop fuel c socket closed reads.tail
              | _, [] =>
                  if closed then
                    if c.recvBuf ≠ [] then
                      some (.error (.wire .truncatedMessage), c, socket)
                    else some (.ok .peerClosed, c, socket)
                  else some (.ok .wouldBlock, c, socket)
              | read, cell :: cells =>
                  let taken := (cell :: cells).take (KernelRead.size needed read)
                  let fds := taken.flatMap (·.fds)
                  if fds.length > maxFdsPerRecv then some (.error .io, c, socket)
                  else
                    let mark : List (FdMark φ) :=
                      if fds.isEmpty then [] else [⟨c.recvBuf.length, fds⟩]
                    recvLoop fuel ⟨c.recvBuf ++ taken.map (·.byte), c.fdMarks ++ mark⟩
                      ((cell :: cells).drop (KernelRead.size needed read)) closed reads.tail

/-- `recv_available`.  Every turn of its loop uses up an interrupt or a byte,
so this is enough fuel. -/
def recvAvailable (c : Channel φ) (socket : List (Cell φ)) (closed : Bool)
    (reads : List KernelRead) :
    Option (Except ChannelError (RecvResult φ) × Channel φ × List (Cell φ)) :=
  recvLoop (reads.length + socket.length + 1) c socket closed reads

end Channel

/-! ### The two ends of a stream -/

/-- A message that may be sent: at most 32 descriptors, a frame of at most
256 MiB. -/
structure Message (φ : Type) where
  payload : List UInt8
  fds : List φ
  fds_le : fds.length ≤ maxFdsPerRecv
  size_le : ipczHeaderSize + payload.length ≤ maxFrameSize

/-- The frame that `send` writes. -/
def Message.frame (m : Message φ) : List UInt8 :=
  encodeChannelMessage m.payload (UInt16.ofNat m.fds.length)

/-- What the other end should make of it. -/
def Message.incoming (m : Message φ) : IncomingMessage φ := ⟨m.payload, m.fds⟩

/-- A sender with messages to send, `sent` bytes into the first, the socket,
and a receiver with the messages it got and the error it reported, if any. -/
structure StreamLink (φ : Type) where
  outgoing : List (Message φ)
  sent : Nat
  socket : List (Cell φ)
  closed : Bool
  channel : Channel φ
  received : List (IncomingMessage φ)
  error : Option ChannelError

/-- One `sendmsg` of the sender, the end of the sender once all is sent, or a
call of `recv_available`. -/
inductive StreamOp
  | sendmsg (n : Nat)
  | close
  | recvAvailable (reads : List KernelRead)
  deriving DecidableEq, Repr

namespace StreamLink

/-- All messages still to be sent. -/
def init (messages : List (Message φ)) : StreamLink φ :=
  ⟨messages, 0, [], false, .adopt, [], none⟩

/-- One call of the kernel or of the channel. -/
def step (s : StreamLink φ) : StreamOp → StreamLink φ
  | .sendmsg n =>
      match s.outgoing with
      | [] => s
      | m :: rest =>
          let chunk := sendChunk m.frame m.fds s.sent n
          let s := { s with socket := s.socket ++ chunk }
          if s.sent + chunk.length < m.frame.length then
            { s with sent := s.sent + chunk.length }
          else { s with outgoing := rest, sent := 0 }
  | .close => if s.outgoing.isEmpty then { s with closed := true } else s
  | .recvAvailable reads =>
      match s.channel.recvAvailable s.socket s.closed reads with
      | none => s
      | some (result, channel, socket) =>
          let s := { s with channel, socket }
          match result with
          | .ok (.message m) => { s with received := s.received ++ [m] }
          | .ok _ => s
          | .error e => { s with error := some e }

end StreamLink

end MojoRs.Ipcz
