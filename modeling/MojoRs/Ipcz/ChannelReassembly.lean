/-
MojoRs/Ipcz/ChannelReassembly.lean

A channel delivers what was sent.  The stream of a list of messages is the
concatenation of their cells, and the receive buffer always holds the first
`k` bytes of the message at the front: read sizing never asks for a byte of
the next message, so descriptors meet the buffer only at offset 0.

`Front` is that relation between the receiver and the cells still to come.
`recvLoop_spec` carries it through a call of `recv_available`, by induction on
the fuel, and `Inv` through a run.  Main result: `reassembly`.
-/
import Mathlib.Data.List.Basic
import MojoRs.Ipcz.StreamParsing
import MojoRs.Lib.Run

namespace MojoRs.Ipcz

open Lib

variable {φ : Type}

/-! ### Frames -/

/-- The cells of a message: its descriptors are attached to the first byte of
its frame. -/
def Message.cells (m : Message φ) : List (Cell φ) := attach m.fds m.frame

/-- The cells of a list of messages. -/
def streamCells (messages : List (Message φ)) : List (Cell φ) := messages.flatMap Message.cells

@[simp] theorem attach_map_byte (fds : List φ) (bs : List UInt8) :
    (attach fds bs).map (·.byte) = bs := by
  cases bs with
  | nil => rfl
  | cons b bs => simp [attach, Function.comp_def]

@[simp] theorem length_attach (fds : List φ) (bs : List UInt8) :
    (attach fds bs).length = bs.length := by
  rw [← List.length_map (f := (·.byte)), attach_map_byte]

theorem Message.length_frame (m : Message φ) :
    m.frame.length = ipczHeaderSize + m.payload.length := length_encodeChannelMessage ..

/-- The frame of a message is well formed. -/
theorem Message.isFrame (m : Message φ) :
    IsFrame m.frame ⟨UInt16.ofNat m.fds.length, m.payload⟩ :=
  isFrame_encode (m := ⟨UInt16.ofNat m.fds.length, m.payload⟩)
    (Nat.lt_of_le_of_lt m.size_le (by decide))

theorem Message.frame_readLE (m : Message φ) :
    readLE m.frame 0 2 = ipczHeaderSize ∧ readLE m.frame 2 2 = m.fds.length ∧
      readLE m.frame 4 4 = m.frame.length := by
  obtain ⟨-, hsize, hhandles, hbytes, -⟩ := m.isFrame
  have hfds : (UInt16.ofNat m.fds.length).toNat = m.fds.length :=
    UInt16.toNat_ofNat_of_lt' (Nat.lt_of_le_of_lt m.fds_le (by decide))
  exact ⟨hsize, hhandles.trans hfds, hbytes⟩

theorem Message.drop_frame (m : Message φ) : m.frame.drop ipczHeaderSize = m.payload :=
  m.isFrame.payload

/-! ### Sending -/

/-- The rest of a message's cells carries no descriptors. -/
theorem drop_attach (fds : List φ) (bs : List UInt8) {k : Nat} (hk : 0 < k) :
    (attach fds bs).drop k = attach [] (bs.drop k) := by
  obtain ⟨k, rfl⟩ := Nat.exists_eq_add_one_of_ne_zero (Nat.ne_of_gt hk)
  cases bs with
  | nil => simp [attach]
  | cons b bs =>
      simp only [attach, List.drop_succ_cons, ← List.map_drop]
      cases bs.drop k <;> rfl

theorem take_attach (fds : List φ) (bs : List UInt8) (k : Nat) :
    (attach fds bs).take k = attach fds (bs.take k) := by
  cases bs with
  | nil => simp [attach]
  | cons b bs =>
      cases k with
      | zero => rfl
      | succ k => simp [attach, List.map_take]

/-- A turn of the send loop puts the next cells of the message on the
socket. -/
theorem sendChunk_eq (m : Message φ) (sent n : Nat) :
    sendChunk m.frame m.fds sent n = (m.cells.drop sent).take (max 1 n) := by
  unfold sendChunk Message.cells
  rcases hfds : m.fds with - | ⟨fd, fds⟩
  · have hdrop : (attach ([] : List φ) m.frame).drop sent = attach [] (m.frame.drop sent) := by
      cases sent with
      | zero => rfl
      | succ sent => exact drop_attach [] m.frame (Nat.succ_pos sent)
    rw [hdrop, take_attach]
  · cases sent with
    | zero =>
        show attach (fd :: fds) (m.frame.take (max 1 n)) = _
        rw [List.drop_zero, take_attach]
    | succ sent =>
        simp only [Nat.add_one_ne_zero, if_false]
        rw [drop_attach _ _ (Nat.succ_pos sent), take_attach]

/-! ### The front of the stream -/

/-- The marks of the message at the front, `k` bytes in. -/
def frontMarks (m : Message φ) (k : Nat) : List (FdMark φ) :=
  if k = 0 ∨ m.fds.isEmpty then [] else [⟨0, m.fds⟩]

/-- `c` has received `k` bytes of message `m`. -/
structure Holds (c : Channel φ) (m : Message φ) (k : Nat) : Prop where
  le : k ≤ m.frame.length
  buf : c.recvBuf = m.frame.take k
  marks : c.fdMarks = frontMarks m k

/-- `c` has received the start of the first of the messages `rest`, and the
cells `stream` are what is missing of them. -/
inductive Front (c : Channel φ) (stream : List (Cell φ)) : List (Message φ) → Prop
  | done (hc : c = .adopt) (hs : stream = []) : Front c stream []
  | next (m : Message φ) (ms : List (Message φ)) (k : Nat) (hc : Holds c m k)
      (hs : stream = m.cells.drop k ++ streamCells ms) : Front c stream (m :: ms)

theorem Holds.length {c : Channel φ} {m : Message φ} {k : Nat} (h : Holds c m k) :
    c.recvBuf.length = k := by
  rw [h.buf, List.length_take, Nat.min_eq_left h.le]

/-- What is read from the start of a frame can be read from a part of it. -/
theorem Holds.read_front {c : Channel φ} {m : Message φ} {k pos w : Nat} (h : Holds c m k)
    (hk : pos + w ≤ k) : readLE c.recvBuf pos w = readLE m.frame pos w := by
  rw [h.buf, readLE_take hk]

/-- Part of a message does not make a message, and the receiver asks for more
of it, but for no more than it. -/
theorem Holds.incomplete {c : Channel φ} {m : Message φ} {k : Nat} (h : Holds c m k)
    (hk : k < m.frame.length) :
    c.tryAssemble = .ok (none, c) ∧
      ∃ needed, Channel.neededBytes c.recvBuf = .ok needed ∧ 0 < needed ∧
        k + needed ≤ m.frame.length := by
  obtain ⟨hsize, -, hbytes⟩ := m.frame_readLE
  have hlen := h.length
  have hframe := m.length_frame
  have hmax := m.size_le
  unfold Channel.tryAssemble Channel.neededBytes
  by_cases hshort : c.recvBuf.length < ipczHeaderSize
  · rw [if_pos hshort, if_pos hshort]
    exact ⟨rfl, _, rfl, by omega, by omega⟩
  · have h16 : 16 ≤ k := by
      simp only [ipczHeaderSize] at hshort
      omega
    have hn : Channel.numBytes c.recvBuf = m.frame.length := by
      rw [Channel.numBytes, h.read_front (by omega), hbytes]
    have hs : readLE c.recvBuf 0 2 = ipczHeaderSize := by rw [h.read_front (by omega), hsize]
    rw [if_neg hshort, if_neg hshort]
    simp only [hn, hs, ne_eq, not_true_eq_false, if_false]
    rw [if_neg (by omega), if_pos (by omega), if_neg (by omega), if_neg (by omega)]
    exact ⟨rfl, _, rfl, by omega, by omega⟩

/-- A whole message is handed out with its descriptors, and nothing of it
stays behind. -/
theorem Holds.complete {c : Channel φ} {m : Message φ} (h : Holds c m m.frame.length) :
    c.tryAssemble = .ok (some m.incoming, .adopt) := by
  obtain ⟨hsize, hfds, hbytes⟩ := m.frame_readLE
  have hframe := m.length_frame
  have hbuf : c.recvBuf = m.frame := by rw [h.buf, List.take_length]
  have hmarks : Channel.takeMarks c.fdMarks = (m.fds, []) := by
    rw [h.marks, frontMarks]
    split
    · rename_i hempty
      have hnil : m.fds = [] := by
        rcases hempty with hzero | hempty
        · simp only [ipczHeaderSize] at hframe
          omega
        · exact List.isEmpty_iff.mp hempty
      rw [hnil]
      rfl
    · simp [Channel.takeMarks]
  unfold Channel.tryAssemble
  simp only [hbuf, Channel.numBytes, hsize, hfds, hbytes, hmarks, ne_eq, not_true_eq_false,
    if_false, Nat.lt_irrefl, List.take_length, m.drop_frame, List.drop_length, List.map_nil]
  rw [if_neg (by omega), if_neg (by omega)]
  rfl

/-! ### A receive -/

theorem attach_nil_fds (bs : List UInt8) : (attach ([] : List φ) bs).flatMap (·.fds) = [] := by
  cases bs <;> simp [attach]

theorem attach_fds (fds : List φ) {bs : List UInt8} (h : bs ≠ []) :
    (attach fds bs).flatMap (·.fds) = fds := by
  cases bs with
  | nil => exact absurd rfl h
  | cons b bs => simp [attach]

/-- The descriptors among the next `j` cells: those of the message, if its
first byte is among them. -/
theorem Message.cells_fds (m : Message φ) {k j : Nat} (hj : 0 < j) (hk : k < m.frame.length) :
    ((m.cells.drop k).take j).flatMap (·.fds) = if k = 0 then m.fds else [] := by
  unfold Message.cells
  split
  · rename_i hzero
    rw [hzero, List.drop_zero, take_attach]
    apply attach_fds
    rw [ne_eq, ← List.length_eq_zero_iff, List.length_take]
    omega
  · rw [drop_attach _ _ (by omega), take_attach, attach_nil_fds]

theorem Message.cells_byte (m : Message φ) (k j : Nat) :
    ((m.cells.drop k).take j).map (·.byte) = (m.frame.drop k).take j := by
  rw [List.map_take, List.map_drop, Message.cells, attach_map_byte]

/-- The next `j` cells arrive. -/
theorem Holds.receive {c : Channel φ} {m : Message φ} {k j : Nat} (h : Holds c m k)
    (hj : 0 < j) (hkj : k + j ≤ m.frame.length) :
    let taken := (m.cells.drop k).take j
    let fds := taken.flatMap (·.fds)
    fds.length ≤ maxFdsPerRecv ∧
      Holds ⟨c.recvBuf ++ taken.map (·.byte),
        c.fdMarks ++ if fds.isEmpty then [] else [⟨c.recvBuf.length, fds⟩]⟩ m (k + j) := by
  simp only [m.cells_fds hj (by omega : k < m.frame.length), m.cells_byte]
  refine ⟨?_, ⟨hkj, ?_, ?_⟩⟩
  · split
    · exact m.fds_le
    · exact Nat.zero_le _
  · simp only [h.buf]
    rw [List.take_add]
  · simp only [h.marks, h.length, frontMarks]
    by_cases hk : k = 0
    · subst hk
      simp [Nat.ne_of_gt hj]
    · simp [hk]

theorem front_fresh (messages : List (Message φ)) :
    Front (.adopt : Channel φ) (streamCells messages) messages := by
  cases messages with
  | nil => exact .done rfl rfl
  | cons m ms =>
      refine .next m ms 0 ⟨Nat.zero_le _, rfl, ?_⟩ ?_
      · simp [frontMarks, Channel.adopt]
      · simp [streamCells]

theorem KernelRead.size_bounds {needed : Nat} (read : Option KernelRead) (h : 0 < needed) :
    0 < Channel.KernelRead.size needed read ∧ Channel.KernelRead.size needed read ≤ needed := by
  unfold Channel.KernelRead.size
  split <;> omega

/-- What a call of `recv_available` may do: hand out the next message, or find
the socket empty with less than a message received, or find the end of the
stream after the last message. -/
inductive Receives (unsent : List (Cell φ)) (rest : List (Message φ)) (closed : Bool) :
    Except ChannelError (RecvResult φ) → Channel φ → List (Cell φ) → Prop
  | message (m : Message φ) (ms : List (Message φ)) (c : Channel φ) (socket : List (Cell φ))
      (hrest : rest = m :: ms) (hfront : Front c (socket ++ unsent) ms) :
      Receives unsent rest closed (.ok (.message m.incoming)) c socket
  | wouldBlock (c : Channel φ) (hfront : Front c unsent rest)
      (hall : unsent = [] → rest = []) : Receives unsent rest closed (.ok .wouldBlock) c []
  | peerClosed (c : Channel φ) (hclosed : closed = true) (hrest : rest = [])
      (hfront : Front c unsent rest) : Receives unsent rest closed (.ok .peerClosed) c []

/-! One turn of the loop, with a message that is not complete. -/

section Turn

variable {c : Channel φ} {socket : List (Cell φ)} {closed : Bool} {reads : List KernelRead}
  {needed fuel : Nat}

theorem recvLoop_interrupted (ht : c.tryAssemble = .ok (none, c))
    (hn : Channel.neededBytes c.recvBuf = .ok needed) :
    Channel.recvLoop (fuel + 1) c socket closed (.interrupted :: reads) =
      Channel.recvLoop fuel c socket closed reads := by
  simp [Channel.recvLoop, ht, hn]

theorem recvLoop_empty (ht : c.tryAssemble = .ok (none, c))
    (hn : Channel.neededBytes c.recvBuf = .ok needed)
    (hr : reads.head? ≠ some .interrupted) :
    Channel.recvLoop (fuel + 1) c [] closed reads =
      if closed then
        if c.recvBuf ≠ [] then some (.error (.wire .truncatedMessage), c, [])
        else some (.ok .peerClosed, c, [])
      else some (.ok .wouldBlock, c, []) := by
  rw [Channel.recvLoop]
  simp only [ht, hn]

theorem recvLoop_read (ht : c.tryAssemble = .ok (none, c))
    (hn : Channel.neededBytes c.recvBuf = .ok needed)
    (hr : reads.head? ≠ some .interrupted) (hs : socket ≠ []) :
    let taken := socket.take (Channel.KernelRead.size needed reads.head?)
    let fds := taken.flatMap (·.fds)
    Channel.recvLoop (fuel + 1) c socket closed reads =
      if fds.length > maxFdsPerRecv then some (.error .io, c, socket)
      else
        Channel.recvLoop fuel
          ⟨c.recvBuf ++ taken.map (·.byte),
            c.fdMarks ++ if fds.isEmpty then [] else [⟨c.recvBuf.length, fds⟩]⟩
          (socket.drop (Channel.KernelRead.size needed reads.head?)) closed reads.tail := by
  intro taken fds
  rw [Channel.recvLoop]
  simp only [ht, hn]
  split
  · rename_i hhead
    exact absurd hhead hr
  · exact absurd rfl hs
  · rfl

end Turn

/-- The kernel's next answer is an interrupt or it is not. -/
theorem head_interrupted (reads : List KernelRead) :
    (∃ reads', reads = .interrupted :: reads') ∨ reads.head? ≠ some .interrupted := by
  rcases reads with - | ⟨- | n, reads⟩
  · exact .inr (by simp)
  · exact .inl ⟨reads, rfl⟩
  · exact .inr (by simp)

/-- The cells that a read takes off the socket are the next cells of the
message at the front. -/
theorem take_socket {socket unsent next after : List (Cell φ)} {size : Nat}
    (hs : socket ++ unsent = next ++ after) (hle : size ≤ next.length) :
    socket.take size = next.take (min size socket.length) ∧
      socket.drop size ++ unsent = next.drop (min size socket.length) ++ after := by
  have hmin : min size socket.length ≤ next.length := by omega
  have htake : socket.take size = socket.take (min size socket.length) := by
    rw [List.take_eq_take_min]
  have hdrop : socket.drop size = socket.drop (min size socket.length) := by
    rw [List.drop_eq_drop_min]
  constructor
  · have hpad := @List.take_append_of_le_length _ socket unsent _ (Nat.min_le_right size _)
    rw [htake, ← hpad, hs, List.take_append_of_le_length hmin]
  · rw [hdrop, ← List.drop_append_of_le_length (Nat.min_le_right _ _), hs,
      List.drop_append_of_le_length hmin]

/-- The call, with what is sent but not yet on the socket in `unsent`. -/
theorem recvLoop_spec (fuel : Nat) {c : Channel φ} {socket unsent : List (Cell φ)}
    {rest : List (Message φ)} {closed : Bool} {reads : List KernelRead}
    (hf : Front c (socket ++ unsent) rest) (hclosed : closed = true → unsent = [])
    (hfuel : reads.length + socket.length < fuel) :
    ∃ r c' socket', Channel.recvLoop fuel c socket closed reads = some (r, c', socket') ∧
      Receives unsent rest closed r c' socket' := by
  induction fuel generalizing c socket reads with
  | zero => omega
  | succ fuel ih =>
      -- an interrupted call changes nothing
      have hintr : ∀ reads', reads = .interrupted :: reads' →
          ∃ r c' socket', Channel.recvLoop fuel c socket closed reads' =
            some (r, c', socket') ∧ Receives unsent rest closed r c' socket' := by
        intro reads' hreads
        refine ih hf ?_
        rw [hreads, List.length_cons] at hfuel
        omega
      cases hf with
      | done hc hs =>
          subst hc
          obtain ⟨rfl, rfl⟩ := List.append_eq_nil_iff.mp hs
          have ht : (.adopt : Channel φ).tryAssemble = .ok (none, .adopt) := rfl
          have hn : Channel.neededBytes (.adopt : Channel φ).recvBuf = .ok ipczHeaderSize := rfl
          rcases head_interrupted reads with ⟨reads', rfl⟩ | hr
          · rw [recvLoop_interrupted ht hn]
            exact hintr reads' rfl
          · rw [recvLoop_empty ht hn hr]
            cases closed with
            | true => exact ⟨_, _, _, rfl, .peerClosed _ rfl rfl (.done rfl rfl)⟩
            | false => exact ⟨_, _, _, rfl, .wouldBlock _ (.done rfl rfl) fun _ => rfl⟩
      | next m ms k hc hs =>
          rcases Nat.eq_or_lt_of_le hc.le with rfl | hk
          · -- the message is complete
            have hlen : m.cells.length = m.frame.length := length_attach _ _
            rw [← hlen, List.drop_length, List.nil_append] at hs
            rw [Channel.recvLoop, hc.complete]
            exact ⟨_, _, _, rfl, .message m ms _ _ rfl (hs ▸ front_fresh ms)⟩
          obtain ⟨ht, needed, hn, hpos, hle⟩ := hc.incomplete hk
          rcases head_interrupted reads with ⟨reads', rfl⟩ | hr
          · rw [recvLoop_interrupted ht hn]
            exact hintr reads' rfl
          have hcells : m.cells.length = m.frame.length := length_attach _ _
          rcases socket with - | ⟨cell, cells⟩
          · -- some of the message is still to be sent
            have hmore : unsent ≠ [] := by
              rintro rfl
              have := congrArg List.length hs
              simp only [List.length_append, List.length_drop, List.length_nil] at this
              omega
            have hopen : closed = false := by
              cases closed with
              | true => exact absurd (hclosed rfl) hmore
              | false => rfl
            subst hopen
            rw [recvLoop_empty ht hn hr]
            exact ⟨_, _, _, rfl, .wouldBlock _ (.next m ms k hc hs)
              fun hnil => absurd hnil hmore⟩
          · -- the kernel returns part of what is asked for
            rw [recvLoop_read ht hn hr (by simp)]
            obtain ⟨hsize, hsize'⟩ := KernelRead.size_bounds reads.head? hpos
            generalize Channel.KernelRead.size needed reads.head? = size at *
            have hnext : size ≤ (m.cells.drop k).length := by
              rw [List.length_drop]
              omega
            obtain ⟨htake, hdrop⟩ := take_socket hs hnext
            have hj : 0 < min size (cell :: cells).length := by
              rw [List.length_cons]
              omega
            obtain ⟨hfds, hrecv⟩ := hc.receive hj (by omega)
            rw [← htake] at hfds hrecv
            rw [List.drop_drop] at hdrop
            rw [if_neg (Nat.not_lt.mpr hfds)]
            refine ih (.next m ms _ hrecv hdrop) ?_
            have htail : reads.tail.length ≤ reads.length := by
              rw [List.length_tail]
              omega
            rw [List.length_drop]
            rw [List.length_cons] at hfuel ⊢
            omega

/-! ### Runs -/

namespace StreamLink

/-- The cells that the sender has not written yet. -/
def unsentCells (s : StreamLink φ) : List (Cell φ) := (streamCells s.outgoing).drop s.sent

/-- What holds of a run that sends `messages`: the messages received are the
first ones, no error was reported, and the rest is on its way. -/
structure Inv (messages : List (Message φ)) (s : StreamLink φ) : Prop where
  rest : ∃ rest, messages.map Message.incoming = s.received ++ rest.map Message.incoming ∧
    Front s.channel (s.socket ++ s.unsentCells) rest
  error : s.error = none
  sent : s.sent = 0 ∨ ∃ m ms, s.outgoing = m :: ms ∧ s.sent < m.frame.length
  closed : s.closed = true → s.outgoing = []

theorem unsentCells_nil {s : StreamLink φ} (h : s.outgoing = []) : s.unsentCells = [] := by
  simp [unsentCells, h, streamCells]

theorem Inv.init (messages : List (Message φ)) : Inv messages (.init messages) := by
  refine ⟨⟨messages, rfl, ?_⟩, rfl, .inl rfl, ?_⟩
  · exact front_fresh messages
  · intro h
    cases h

theorem length_cells (m : Message φ) : m.cells.length = m.frame.length := length_attach _ _

/-- A `sendmsg` moves cells from the sender to the socket. -/
theorem Inv.sendmsg {messages : List (Message φ)} {s : StreamLink φ} (h : Inv messages s)
    (n : Nat) : Inv messages (s.step (.sendmsg n)) := by
  obtain ⟨⟨rest, hmsgs, hfront⟩, herr, hsent, hclosed⟩ := h
  simp only [step]
  split
  · exact ⟨⟨rest, hmsgs, hfront⟩, herr, hsent, hclosed⟩
  rename_i m ms hout
  have hframe := m.length_frame
  have hlt : s.sent < m.frame.length := by
    rcases hsent with hzero | ⟨m', ms', hout', hlt⟩
    · simp only [ipczHeaderSize] at hframe
      omega
    · rw [hout] at hout'
      cases hout'
      exact hlt
  have hcells : s.unsentCells = m.cells.drop s.sent ++ streamCells ms := by
    rw [unsentCells, hout, streamCells, List.flatMap_cons,
      List.drop_append_of_le_length (by rw [length_cells]; omega)]
    rfl
  rw [sendChunk_eq]
  have hlen : ((m.cells.drop s.sent).take (max 1 n)).length =
      min (max 1 n) (m.frame.length - s.sent) := by
    rw [List.length_take, List.length_drop, length_cells]
  split
  · rename_i hmore
    refine ⟨⟨rest, hmsgs, ?_⟩, herr, .inr ⟨m, ms, hout, hmore⟩, hclosed⟩
    rw [hlen] at hmore
    have hunsent : ({ s with
        socket := s.socket ++ (m.cells.drop s.sent).take (max 1 n)
        sent := s.sent + ((m.cells.drop s.sent).take (max 1 n)).length } :
          StreamLink φ).unsentCells = (m.cells.drop s.sent).drop (max 1 n) ++ streamCells ms := by
      have hstream : s.unsentCells.drop (max 1 n) =
          (m.cells.drop s.sent).drop (max 1 n) ++ streamCells ms := by
        rw [hcells, List.drop_append_of_le_length (by
          rw [List.length_drop, length_cells]
          omega)]
      rw [← hstream, unsentCells, unsentCells, List.drop_drop, hlen, Nat.min_eq_left (by omega)]
    rw [hunsent, List.append_assoc, ← List.append_assoc ((m.cells.drop s.sent).take _),
      List.take_append_drop, ← hcells]
    exact hfront
  · -- the last cells of this message
    rename_i hlast
    have hall : (m.cells.drop s.sent).take (max 1 n) = m.cells.drop s.sent := by
      apply List.take_of_length_le
      rw [hlen] at hlast
      rw [List.length_drop, length_cells]
      omega
    refine ⟨⟨rest, hmsgs, ?_⟩, herr, .inl rfl, ?_⟩
    · rw [hall, List.append_assoc]
      show Front s.channel (s.socket ++ (m.cells.drop s.sent ++ streamCells ms)) rest
      rw [← hcells]
      exact hfront
    · intro hc
      rw [hclosed hc] at hout
      cases hout

theorem Inv.close {messages : List (Message φ)} {s : StreamLink φ} (h : Inv messages s) :
    Inv messages (s.step .close) := by
  simp only [step]
  split
  · rename_i hempty
    exact ⟨h.rest, h.error, h.sent, fun _ => List.isEmpty_iff.mp hempty⟩
  · exact h

/-- A call of `recv_available` comes to an end, and its result is one of the
three that `Receives` allows. -/
theorem recvAvailable_spec {s : StreamLink φ} {rest : List (Message φ)}
    (hf : Front s.channel (s.socket ++ s.unsentCells) rest)
    (hclosed : s.closed = true → s.outgoing = []) (reads : List KernelRead) :
    ∃ r c' socket', s.channel.recvAvailable s.socket s.closed reads = some (r, c', socket') ∧
      Receives s.unsentCells rest s.closed r c' socket' := by
  apply recvLoop_spec _ hf _ (by omega)
  exact fun h => unsentCells_nil (hclosed h)

theorem Inv.recvAvailable {messages : List (Message φ)} {s : StreamLink φ}
    (h : Inv messages s) (reads : List KernelRead) :
    Inv messages (s.step (.recvAvailable reads)) := by
  obtain ⟨⟨rest, hmsgs, hfront⟩, herr, hsent, hclosed⟩ := h
  obtain ⟨r, c', socket', hrun, hr⟩ := recvAvailable_spec hfront hclosed reads
  simp only [step, hrun]
  cases hr with
  | message m ms _ _ hrest hfront' =>
      refine ⟨⟨ms, ?_, hfront'⟩, herr, hsent, hclosed⟩
      rw [hmsgs, hrest]
      simp
  | wouldBlock _ hfront' _ => exact ⟨⟨rest, hmsgs, hfront'⟩, herr, hsent, hclosed⟩
  | peerClosed _ _ _ hfront' => exact ⟨⟨rest, hmsgs, hfront'⟩, herr, hsent, hclosed⟩

theorem Inv.step {messages : List (Message φ)} {s : StreamLink φ} (op : StreamOp)
    (h : Inv messages s) : Inv messages (s.step op) := by
  cases op with
  | sendmsg n => exact h.sendmsg n
  | close => exact h.close
  | recvAvailable reads => exact h.recvAvailable reads

/-- Once all is sent, a call hands out a message as long as there is one. -/
theorem Inv.progress {messages : List (Message φ)} {s : StreamLink φ} (h : Inv messages s)
    (hout : s.outgoing = []) (reads : List KernelRead) :
    s.received = messages.map Message.incoming ∨
      (s.step (.recvAvailable reads)).received.length = s.received.length + 1 := by
  obtain ⟨⟨rest, hmsgs, hfront⟩, herr, hsent, hclosed⟩ := h
  obtain ⟨r, c', socket', hrun, hr⟩ := recvAvailable_spec hfront hclosed reads
  simp only [StreamLink.step, hrun]
  cases hr with
  | message m ms _ _ hrest hfront' => exact .inr (by simp)
  | wouldBlock _ _ hall => exact .inl (by simp [hmsgs, hall (unsentCells_nil hout)])
  | peerClosed _ _ hrest _ => exact .inl (by simp [hmsgs, hrest])

theorem step_recv_outgoing (s : StreamLink φ) (reads : List KernelRead) :
    (s.step (.recvAvailable reads)).outgoing = s.outgoing := by
  simp only [StreamLink.step]
  split
  · rfl
  · split <;> rfl

theorem step_recv_received (s : StreamLink φ) (reads : List KernelRead) :
    s.received.length ≤ (s.step (.recvAvailable reads)).received.length := by
  simp only [StreamLink.step]
  split
  · exact Nat.le_refl _
  · split <;> simp

/-- After all is sent, as many calls as there are messages receive them
all. -/
theorem Inv.drain {messages : List (Message φ)} (calls : List (List KernelRead))
    {s : StreamLink φ} (h : Inv messages s) (hout : s.outgoing = [])
    (hcalls : messages.length ≤ s.received.length + calls.length) :
    (exec StreamLink.step s (calls.map .recvAvailable)).received =
      messages.map Message.incoming := by
  induction calls generalizing s with
  | nil =>
      obtain ⟨rest, hmsgs, -⟩ := h.rest
      have hlen := congrArg List.length hmsgs
      simp only [List.length_append, List.length_map] at hlen
      have hrest : rest = [] := by
        rw [List.length_nil] at hcalls
        exact List.length_eq_zero_iff.mp (by omega)
      simp [hmsgs, hrest]
  | cons reads calls ih =>
      rw [List.map_cons, exec_cons]
      refine ih (h.recvAvailable reads) ?_ ?_
      · rw [step_recv_outgoing, hout]
      · rw [List.length_cons] at hcalls
        rcases h.progress hout reads with hall | hmore
        · have hlen := congrArg List.length hall
          rw [List.length_map] at hlen
          have := step_recv_received s reads
          omega
        · omega

/-- A run of a link delivers `messages`: so far no error was reported and the
messages received are the first ones, payload by payload and descriptor by
descriptor; and once all is sent, as many calls of `recv_available` as there
are messages receive them all, whatever the kernel does at their reads. -/
structure Delivers (messages : List (Message φ)) (s : StreamLink φ) : Prop where
  error : s.error = none
  pre : s.received <+: messages.map Message.incoming
  all : s.outgoing = [] → ∀ calls : List (List KernelRead), messages.length ≤ calls.length →
    (exec StreamLink.step s (calls.map .recvAvailable)).received =
      messages.map Message.incoming

theorem Inv.delivers {messages : List (Message φ)} {s : StreamLink φ} (h : Inv messages s) :
    Delivers messages s := by
  refine ⟨h.error, ?_, ?_⟩
  · obtain ⟨rest, hmsgs, -⟩ := h.rest
    exact ⟨_, hmsgs.symm⟩
  · exact fun hout calls hcalls => h.drain calls hout (by omega)

/-- Whatever way the socket splits writes and reads, a channel delivers the
messages sent. -/
theorem reassembly (messages : List (Message φ)) (ops : List StreamOp) :
    Always StreamLink.step (Delivers messages) (init messages) ops :=
  (always_of_step (fun _ op h => Inv.step op h) (.init messages) ops).imp fun _ h => h.delivers

end StreamLink

end MojoRs.Ipcz
