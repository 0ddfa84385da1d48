/-
MojoRs/Ipcz/RelayedDelivery.lean

What two nodes see of each other through the relay.  The buffer of a direction
and its marks stand to the stream from the node in the relation in which the
buffer of a channel does (`Front`): the read sizing is the same.  So a message is
split off as soon as it is complete, with all of its descriptors and no other's,
and goes out as the cells that its sender wrote.

`RelayFlow` says where a direction stands, `Reaches` what the node behind it has.  A
node is never told that the other one is gone: the relay keeps its sockets open
until both directions have ended.

Main result: `relayed`.
-/
import MojoRs.Ipcz.Relay

namespace MojoRs.Ipcz

open Lib

variable {φ : Type}

/-! ### The front of the buffer -/

theorem Message.frame_pos (m : Message φ) : 0 < m.frame.length := by
  rw [m.length_frame]
  exact Nat.lt_of_lt_of_le (by decide) (Nat.le_add_right ipczHeaderSize _)

namespace Forwarder

/-- The buffer of the forwarder, as that of a channel. -/
def channel (f : Forwarder φ) : Channel φ := ⟨f.buf, f.marks⟩

variable {f : Forwarder φ} {m : Message φ} {k : Nat}

theorem readLE_getU32 (f : Forwarder φ) : (getU32 f.buf 4).toNat = Channel.numBytes f.channel.recvBuf :=
  toNat_getU32 f.buf 4

/-- A message that is not complete is left in the buffer, and the next read asks
for more of it, but for no more than it. -/
theorem incomplete (h : Holds f.channel m k) (hk : k < m.frame.length) :
    f.trySplit = .ok none ∧ 0 < f.needed ∧ k + f.needed ≤ m.frame.length := by
  obtain ⟨hsize, -, hbytes⟩ := m.frame_readLE
  have hlen : f.buf.length = k := h.length
  have hframe := m.length_frame
  by_cases hshort : f.buf.length < ipczHeaderSize
  · rw [trySplit, needed, if_pos hshort, if_pos hshort]
    refine ⟨rfl, ?_, ?_⟩
    · omega
    · omega
  · have h16 : 16 ≤ k := by
      simp only [ipczHeaderSize] at hshort
      omega
    have hn : (getU32 f.buf 4).toNat = m.frame.length := by
      rw [readLE_getU32, Channel.numBytes, h.read_front (by omega), hbytes]
    have hs : getU16 f.buf 0 = UInt16.ofNat ipczHeaderSize := by
      show UInt16.ofNat (readLE f.channel.recvBuf 0 2) = _
      rw [h.read_front (by omega), hsize]
    have hparse : parseChannelMessage f.buf = .error .truncatedMessage := by
      rw [parseChannelMessage, if_neg hshort]
      dsimp only
      rw [if_neg (not_not.mpr hs), hn, if_neg (by omega), if_pos (by omega)]
    rw [trySplit, needed, if_neg hshort, if_neg hshort, hparse, hn]
    refine ⟨rfl, ?_, ?_⟩
    · omega
    · omega

/-- A complete message is split off. -/
theorem complete (h : Holds f.channel m m.frame.length) :
    f.trySplit = .ok (some m.frame.length) := by
  have hbuf : f.buf = m.frame := by
    show f.channel.recvBuf = _
    rw [h.buf, List.take_length]
  have hparse := m.isFrame.parse []
  rw [List.append_nil] at hparse
  have hframe := m.length_frame
  rw [trySplit, hbuf, if_neg (by omega), hparse]

theorem trySplit_ne_io (f : Forwarder φ) : f.trySplit ≠ .error .io := by
  intro h
  rw [trySplit] at h
  split_ifs at h
  split at h
  · cases h
  · cases h
  · cases h

/-- All marks are those of the message at the front. -/
theorem marks_front (h : Holds f.channel m m.frame.length) :
    f.marks.filter (·.offset ≠ 0) = [] ∧
      (f.marks.filter (·.offset = 0)).flatMap (·.fds) = m.fds := by
  have hmarks : f.marks = frontMarks m m.frame.length := h.marks
  rw [hmarks, frontMarks]
  by_cases hfds : m.fds = []
  · rw [if_pos (.inr (List.isEmpty_iff.mpr hfds)), hfds]
    exact ⟨rfl, rfl⟩
  · have hempty : ¬(m.frame.length = 0 ∨ m.fds.isEmpty = true) := by
      rintro (hzero | hnil)
      · exact absurd hzero (Nat.ne_of_gt m.frame_pos)
      · exact hfds (List.isEmpty_iff.mp hnil)
    rw [if_neg hempty]
    exact ⟨rfl, List.append_nil _⟩

/-- `forward_message` takes the frame and the descriptors of the message. -/
theorem forwardMessage_front (h : Holds f.channel m m.frame.length) :
    f.forwardMessage 0 m.frame.length =
      (⟨f.capture, m.frame, []⟩, ⟨m.frame, m.fds, 0⟩) := by
  obtain ⟨hnone, hfds⟩ := marks_front h
  have hbuf : f.buf = m.frame := by
    show f.channel.recvBuf = _
    rw [h.buf, List.take_length]
  rw [forwardMessage, hnone, hfds, hbuf, List.take_length, List.drop_zero]

end Forwarder

/-! ### One direction -/

/-- What the sender has not written yet. -/
def RelaySource.unsent (s : RelaySource φ) : List (Cell φ) := (streamCells s.outgoing).drop s.sent

/-- What of the stream from the sender the relay has not read. -/
def RelaySource.stream (s : RelaySource φ) : List (Cell φ) := s.socket ++ s.unsent

/-- The sender is inside of its first message, if at all. -/
def RelaySource.Sending (s : RelaySource φ) : Prop :=
  s.sent = 0 ∨ ∃ m ms, s.outgoing = m :: ms ∧ s.sent < m.frame.length

/-- A `sendmsg` moves cells from the sender to the socket. -/
theorem RelaySource.sendmsg_stream {s : RelaySource φ} (h : s.Sending) (n : Nat) :
    (s.sendmsg n).stream = s.stream ∧ (s.sendmsg n).Sending ∧ (s.sendmsg n).closed = s.closed ∧
      (s.closed = true → s.sendmsg n = s) := by
  rw [sendmsg]
  by_cases hclosed : s.closed = true
  · rw [if_pos hclosed]
    exact ⟨rfl, h, rfl, fun _ => rfl⟩
  rw [if_neg hclosed]
  obtain ⟨outgoing, sent, socket, closed⟩ := s
  rcases outgoing with - | ⟨m, ms⟩
  · exact ⟨rfl, h, rfl, fun _ => rfl⟩
  dsimp only at *
  have hlt : sent < m.frame.length := by
    rcases h with hzero | ⟨m', ms', hout, hlt⟩
    · rw [show sent = 0 from hzero]
      exact m.frame_pos
    · cases hout
      exact hlt
  have hcells : m.cells.length = m.frame.length := length_attach _ _
  have hstream : (streamCells (m :: ms)).drop sent = m.cells.drop sent ++ streamCells ms := by
    rw [streamCells, List.flatMap_cons, List.drop_append_of_le_length (by omega)]
    rfl
  have hlen : ((m.cells.drop sent).take (max 1 n)).length =
      min (max 1 n) (m.frame.length - sent) := by
    rw [List.length_take, List.length_drop, hcells]
  rw [sendChunk_eq]
  split_ifs with hmore
  · refine ⟨?_, .inr ⟨m, ms, rfl, hmore⟩, rfl, fun hc => absurd hc hclosed⟩
    -- the cells sent are the first of those that were not
    show (socket ++ (m.cells.drop sent).take (max 1 n)) ++
      (streamCells (m :: ms)).drop (sent + ((m.cells.drop sent).take (max 1 n)).length) =
        socket ++ (streamCells (m :: ms)).drop sent
    rw [hlen] at hmore ⊢
    have hmin : min (max 1 n) (m.frame.length - sent) = max 1 n := by omega
    rw [hmin, ← List.drop_drop, hstream,
      List.drop_append_of_le_length (by rw [List.length_drop]; omega), List.append_assoc,
      ← List.append_assoc ((m.cells.drop sent).take _), List.take_append_drop]
  · refine ⟨?_, .inl rfl, rfl, fun hc => absurd hc hclosed⟩
    -- these are the last cells of the message
    have hall : (m.cells.drop sent).take (max 1 n) = m.cells.drop sent := by
      apply List.take_of_length_le
      rw [List.length_drop]
      rw [hlen] at hmore
      omega
    show (socket ++ (m.cells.drop sent).take (max 1 n)) ++ streamCells ms =
      socket ++ (streamCells (m :: ms)).drop sent
    rw [hall, hstream, List.append_assoc]

/-- A further message is put at the end of a stream. -/
theorem Front.append {c : Channel φ} {stream : List (Cell φ)} {rest : List (Message φ)}
    (h : Front c stream rest) (m : Message φ) : Front c (stream ++ m.cells) (rest ++ [m]) := by
  cases h with
  | done hc hs =>
      rw [hc, hs]
      have hfresh := front_fresh [m]
      rwa [streamCells, List.flatMap_singleton] at hfresh
  | next m' ms k hc hs =>
      apply Front.next m' (ms ++ [m]) k hc
      have hms : streamCells (ms ++ [m]) = streamCells ms ++ m.cells := by
        rw [streamCells, List.flatMap_append, List.flatMap_singleton, streamCells]
      rw [hs, hms, List.append_assoc]

/-- The direction waits for the rest of the first of the messages `rest`. -/
inductive Waits (f : Forwarder φ) (stream : List (Cell φ)) : List (Message φ) → Prop
  | done (hf : f.channel = .adopt) (hs : stream = []) : Waits f stream []
  | next (m : Message φ) (ms : List (Message φ)) (k : Nat) (hf : Holds f.channel m k)
      (hk : k < m.frame.length) (hs : stream = m.cells.drop k ++ streamCells ms) :
      Waits f stream (m :: ms)

theorem Waits.needed_pos {f : Forwarder φ} {stream : List (Cell φ)} {rest : List (Message φ)}
    (h : Waits f stream rest) : 0 < f.needed := by
  cases h with
  | done hf hs =>
      have hbuf : f.buf = [] := congrArg Channel.recvBuf hf
      rw [Forwarder.needed, hbuf]
      decide
  | next m ms k hf hk hs => exact (Forwarder.incomplete hf hk).2.1

/-- A start of the next frame, which may be nothing. -/
def StartOfNext (rest : List (Message φ)) (torn : List UInt8) : Prop :=
  torn = [] ∨ ∃ m, [m] <+: rest ∧ torn <+: m.frame

/-- Where a thread stands: the messages `captured` are in the capture, `rest` is to
come, the cells `pending` of the last one captured are still to be sent, and the
part `torn` of the next frame is in the capture already. -/
inductive RelayFlow (source : RelaySource φ) (f : Forwarder φ) : RelayPhase φ →
    List (Message φ) → List (Message φ) → List (Cell φ) → List UInt8 → Prop
  | splitting (captured rest : List (Message φ)) (hfront : Front f.channel source.stream rest) :
      RelayFlow source f .splitting captured rest [] []
  | capturing (captured rest : List (Message φ)) (m : Message φ) (written : Nat)
      (hwritten : written ≤ m.frame.length) (hf : Holds f.channel m m.frame.length)
      (hs : source.stream = streamCells rest) :
      RelayFlow source f (.capturing m.frame.length written) captured (m :: rest) []
        (m.frame.take written)
  | sending (captured rest : List (Message φ)) (m : Message φ) (sent : Nat)
      (hsent : sent ≤ m.frame.length) (hbuf : f.buf = m.frame) (hmarks : f.marks = [])
      (hs : source.stream = streamCells rest) :
      RelayFlow source f (.sending ⟨m.frame, m.fds, sent⟩) (captured ++ [m]) rest (m.cells.drop sent) []
  | reading (captured rest : List (Message φ)) (hwaits : Waits f source.stream rest) :
      RelayFlow source f .reading captured rest [] []
  | ended (captured rest : List (Message φ)) (hwaits : Waits f source.unsent rest)
      (hclosed : source.closed = true) : RelayFlow source f (.ended (.ok ())) captured rest [] []
  | failed (captured rest : List (Message φ)) (pending : List (Cell φ)) (torn : List UInt8)
      (htorn : StartOfNext rest torn) :
      RelayFlow source f (.ended (.error .io)) captured rest pending torn

/-- The relay does not see what moves from the sender to the socket. -/
theorem RelayFlow.sendmsg {source : RelaySource φ} {f : Forwarder φ} {phase : RelayPhase φ}
    {captured rest : List (Message φ)} {pending : List (Cell φ)} {torn : List UInt8}
    (h : RelayFlow source f phase captured rest pending torn) (hsending : source.Sending) (n : Nat) :
    RelayFlow (source.sendmsg n) f phase captured rest pending torn := by
  obtain ⟨hstream, -, -, hkeep⟩ := RelaySource.sendmsg_stream hsending n
  cases h with
  | splitting _ _ hfront => exact .splitting _ _ (hstream.symm ▸ hfront)
  | capturing _ _ m written hwritten hf hs =>
      exact .capturing _ _ m written hwritten hf (hstream.trans hs)
  | sending _ _ m sent hsent hbuf hmarks hs =>
      exact .sending _ _ m sent hsent hbuf hmarks (hstream.trans hs)
  | reading _ _ hwaits => exact .reading _ _ (hstream.symm ▸ hwaits)
  | ended _ _ hwaits hclosed => exact (hkeep hclosed).symm ▸ .ended _ _ hwaits hclosed
  | failed _ _ _ _ htorn => exact .failed _ _ _ _ htorn

theorem RelayFlow.close {source : RelaySource φ} {f : Forwarder φ} {phase : RelayPhase φ}
    {captured rest : List (Message φ)} {pending : List (Cell φ)} {torn : List UInt8}
    (h : RelayFlow source f phase captured rest pending torn) :
    RelayFlow { source with closed := true } f phase captured rest pending torn := by
  cases h with
  | splitting _ _ hfront => exact .splitting _ _ hfront
  | capturing _ _ m written hwritten hf hs => exact .capturing _ _ m written hwritten hf hs
  | sending _ _ m sent hsent hbuf hmarks hs => exact .sending _ _ m sent hsent hbuf hmarks hs
  | reading _ _ hwaits => exact .reading _ _ hwaits
  | ended _ _ hwaits _ => exact .ended _ _ hwaits rfl
  | failed _ _ _ _ htorn => exact .failed _ _ _ _ htorn

/-- A frame is in part in the capture only while it is written, or where the
direction has failed. -/
theorem RelayFlow.torn {source : RelaySource φ} {f : Forwarder φ} {phase : RelayPhase φ}
    {captured rest : List (Message φ)} {pending : List (Cell φ)} {torn : List UInt8}
    (h : RelayFlow source f phase captured rest pending torn) (htorn : torn ≠ []) :
    (∃ m, [m] <+: rest ∧ torn <+: m.frame) ∧
      ((∃ consumed written, phase = .capturing consumed written) ∨
        phase = .ended (.error .io)) := by
  cases h with
  | capturing _ ms m written _ _ _ =>
      exact ⟨⟨m, ⟨ms, rfl⟩, List.take_prefix _ _⟩, .inl ⟨_, _, rfl⟩⟩
  | failed _ _ _ _ hstart => exact ⟨hstart.resolve_left htorn, .inr rfl⟩
  | splitting | sending | reading | ended => exact absurd rfl htorn

/-- What the node behind the relay has of the messages `captured`, of which the
cells `pending` are not sent yet. -/
structure Reaches (captured : List (Message φ)) (pending : List (Cell φ)) (s : RelaySink φ) :
    Prop where
  pre : s.received <+: captured.map Message.incoming
  front : s.gone = false → ∃ rest, captured.map Message.incoming =
    s.received ++ rest.map Message.incoming ∧ Front s.channel (s.socket ++ pending) rest

/-- What holds of a direction that is to carry `messages`. -/
structure Direction.Inv (messages : List (Message φ)) (c : Direction φ) : Prop where
  sending : c.source.Sending
  flow : ∃ captured rest pending torn, messages = captured ++ rest ∧
    c.thread.forwarder.capture = captured.flatMap Message.frame ++ torn ∧
    RelayFlow c.source c.thread.forwarder c.thread.phase captured rest pending torn ∧
    Reaches captured pending c.sink

/-! ### Turns of the thread -/

theorem Forwarder.consume_channel {f : Forwarder φ} {m : Message φ} (hbuf : f.buf = m.frame)
    (hmarks : f.marks = []) : (f.consume m.frame.length).channel = .adopt := by
  rw [Forwarder.consume, Forwarder.channel, hbuf, hmarks, List.drop_length]
  rfl

/-- The next message is taken up. -/
theorem Reaches.capture {captured : List (Message φ)} {s : RelaySink φ}
    (h : Reaches captured [] s) (m : Message φ) : Reaches (captured ++ [m]) (m.cells.drop 0) s where
  pre := by
    rw [List.map_append]
    exact h.pre.trans (List.prefix_append _ _)
  front hgone := by
    obtain ⟨rest, hmap, hfront⟩ := h.front hgone
    refine ⟨rest ++ [m], ?_, ?_⟩
    · rw [List.map_append, hmap, List.map_append, List.append_assoc]
    · rw [List.append_nil] at hfront
      rw [List.drop_zero]
      exact hfront.append m

/-- What is pending does not matter to a node that is gone. -/
theorem Reaches.lost {captured : List (Message φ)} {pending : List (Cell φ)} {s : RelaySink φ}
    (h : Reaches captured pending s) (hgone : s.gone = true) (pending' : List (Cell φ)) :
    Reaches captured pending' s where
  pre := h.pre
  front hopen := by
    rw [hgone] at hopen
    cases hopen

/-- Cells that were pending are on the socket. -/
theorem Reaches.write {captured : List (Message φ)} {cells pending : List (Cell φ)}
    {s : RelaySink φ} (h : Reaches captured (cells ++ pending) s) :
    Reaches captured pending { s with socket := s.socket ++ cells } where
  pre := h.pre
  front hgone := by
    obtain ⟨rest, hmap, hfront⟩ := h.front hgone
    refine ⟨rest, hmap, ?_⟩
    rw [← List.append_assoc] at hfront
    exact hfront

theorem Reaches.write_nil {captured : List (Message φ)} {pending : List (Cell φ)}
    {s : RelaySink φ} (h : Reaches captured pending s) :
    Reaches captured pending { s with socket := s.socket ++ [] } := by
  rw [List.append_nil]
  exact h

namespace RelayThread

variable {f : Forwarder φ} {o : Forwarded φ} {gone closed : Bool} {socket : List (Cell φ)}

theorem send_done (h : ¬o.sent < o.data.length) (answer : KernelAnswer) :
    send f o gone answer = (⟨f.consume o.data.length, .splitting⟩, []) := by
  simp [send, h]

theorem send_failed (h : o.sent < o.data.length) :
    send f o gone .failed = (⟨f, .ended (.error .io)⟩, []) := by
  simp [send, h]

theorem send_gone (h : o.sent < o.data.length) (n : Nat) :
    send f o true (.upTo n) = (⟨f.consume o.data.length, .splitting⟩, []) := by
  simp [send, h]

theorem send_chunk (h : o.sent < o.data.length) (n : Nat) :
    send f o false (.upTo n) =
      (⟨f, .sending { o with sent := o.sent + (sendChunk o.data o.raw o.sent n).length }⟩,
        sendChunk o.data o.raw o.sent n) := by
  simp [send, h]

/-- A stream that is not one of frames is no failure of a system call. -/
theorem split_phase (f : Forwarder φ) : (split f).phase ≠ .ended (.error .io) := by
  intro h
  rcases hsplit : f.trySplit with e | - | consumed
  · rw [split, hsplit] at h
    cases h
    exact Forwarder.trySplit_ne_io f hsplit
  · rw [split, hsplit] at h
    cases h
  · rw [split, hsplit] at h
    cases h

theorem capture_phase (f : Forwarder φ) (consumed written n : Nat) :
    (capture f consumed written (.upTo n)).phase ≠ .ended (.error .io) := by
  intro h
  unfold capture at h
  dsimp only at h
  split_ifs at h

theorem send_phase (f : Forwarder φ) (o : Forwarded φ) (gone : Bool) (n : Nat) :
    (send f o gone (.upTo n)).1.phase ≠ .ended (.error .io) := by
  intro h
  by_cases hmore : o.sent < o.data.length
  · cases gone with
    | false =>
        rw [send_chunk hmore] at h
        cases h
    | true =>
        rw [send_gone hmore] at h
        cases h
  · rw [send_done hmore] at h
    cases h

theorem read_failed : read f socket closed .failed = (⟨f, .ended (.error .io)⟩, socket) := by
  simp [read]

/-- An empty socket blocks, or is at its end. -/
theorem read_empty (h : 0 < f.needed) (n : Nat) :
    read f [] closed (.upTo n) =
      if closed then (⟨f, .ended (.ok ())⟩, []) else (⟨f, .reading⟩, []) := by
  simp [read, Nat.ne_of_gt h]

theorem read_some {size n : Nat} (hsize : size = min (max 1 n) f.needed) (h : 0 < f.needed)
    (hs : socket ≠ []) (hfds : ((socket.take size).flatMap (·.fds)).length ≤ maxFdsPerRecv) :
    read f socket closed (.upTo n) =
      (⟨f.receive (socket.take size), .splitting⟩, socket.drop size) := by
  have htaken : ¬socket.take size = [] := by
    rw [List.take_eq_nil_iff]
    rintro (hzero | hnil)
    · omega
    · exact hs hnil
  rw [hsize] at htaken hfds
  rw [hsize]
  simp only [read]
  rw [if_neg htaken, if_neg (Nat.not_lt.mpr hfds)]

end RelayThread

/-- A read that does not fail blocks, finds the end of the stream, or brings a part
of what was asked for. -/
theorem Waits.read {source : RelaySource φ} {f : Forwarder φ} {rest : List (Message φ)}
    (h : Waits f source.stream rest) (n : Nat) :
    (RelayThread.read f source.socket source.closed (.upTo n) = (⟨f, .reading⟩, []) ∧
        Waits f source.unsent rest) ∨
      (RelayThread.read f source.socket source.closed (.upTo n) = (⟨f, .ended (.ok ())⟩, []) ∧
        Waits f source.unsent rest ∧ source.closed = true) ∨
      ∃ f' socket, RelayThread.read f source.socket source.closed (.upTo n) =
          (⟨f', .splitting⟩, socket) ∧ f'.capture = f.capture ∧
        Front f'.channel (socket ++ source.unsent) rest := by
  rw [RelaySource.stream] at h
  rcases hsocket : source.socket with - | ⟨cell, cells⟩
  · rw [hsocket] at h
    rw [RelayThread.read_empty h.needed_pos]
    split_ifs with hclosed
    · exact .inr (.inl ⟨rfl, h, hclosed⟩)
    · exact .inl ⟨rfl, h⟩
  · rw [hsocket] at h
    cases h with
    | done _ hs => cases hs
    | next m ms k hf hk hs =>
        obtain ⟨-, hpos, hle⟩ := Forwarder.incomplete hf hk
        have hcells : m.cells.length = m.frame.length := length_attach _ _
        obtain ⟨size, hsize⟩ : ∃ size, size = min (max 1 n) f.needed := ⟨_, rfl⟩
        have hnext : size ≤ (m.cells.drop k).length := by
          rw [List.length_drop]
          omega
        -- the cells that arrive are the next ones of the message at the front
        obtain ⟨htake, hdrop⟩ := take_socket hs hnext
        have hj : 0 < min size (cell :: cells).length := by
          rw [List.length_cons]
          omega
        obtain ⟨hfds, hrecv⟩ := hf.receive hj (by omega)
        rw [← htake] at hfds hrecv
        rw [List.drop_drop] at hdrop
        rw [RelayThread.read_some hsize hpos (List.cons_ne_nil _ _) hfds]
        exact .inr (.inr ⟨_, _, rfl, rfl, .next m ms _ hrecv hdrop⟩)

namespace Direction.Inv

variable {messages : List (Message φ)} {c : Direction φ}

/-- The loop that splits off messages takes up the next one, or waits for it. -/
theorem split (h : c.Inv messages) (hphase : c.thread.phase = .splitting) :
    Inv messages { c with thread := .split c.thread.forwarder } := by
  obtain ⟨hsending, captured, rest, pending, torn, hmsgs, hcapture, hflow, hsink⟩ := h
  rw [hphase] at hflow
  cases hflow with
  | splitting _ _ hfront =>
    refine ⟨hsending, ?_⟩
    rw [RelayThread.split]
    cases hfront with
    | done hc hs =>
        have hbuf : c.thread.forwarder.buf = [] := congrArg Channel.recvBuf hc
        have hsplit : c.thread.forwarder.trySplit = .ok none := by
          rw [Forwarder.trySplit, hbuf]
          rfl
        rw [hsplit]
        exact ⟨captured, [], [], [], hmsgs, hcapture, .reading _ _ (.done hc hs), hsink⟩
    | next m ms k hc hs =>
        rcases Nat.eq_or_lt_of_le hc.le with rfl | hk
        · -- the message is complete
          rw [Forwarder.complete hc]
          have hcells : m.cells.length = m.frame.length := length_attach _ _
          rw [← hcells, List.drop_length, List.nil_append] at hs
          refine ⟨captured, m :: ms, [], [], hmsgs, hcapture, ?_, hsink⟩
          exact .capturing captured ms m 0 (Nat.zero_le _) hc hs
        · rw [(Forwarder.incomplete hc hk).1]
          exact ⟨captured, m :: ms, [], [], hmsgs, hcapture, .reading _ _ (.next m ms k hc hk hs),
            hsink⟩

/-- A turn of `write_all`. -/
theorem capture (h : c.Inv messages) {consumed written : Nat}
    (hphase : c.thread.phase = .capturing consumed written) (answer : KernelAnswer) :
    Inv messages { c with thread := .capture c.thread.forwarder consumed written answer } := by
  obtain ⟨hsending, captured, rest, pending, torn, hmsgs, hcapture, hflow, hsink⟩ := h
  rw [hphase] at hflow
  cases hflow with
  | capturing _ ms m _ hwritten hf hs =>
    have hdata : c.thread.forwarder.buf.take m.frame.length = m.frame := by
      show c.thread.forwarder.channel.recvBuf.take _ = _
      rw [hf.buf, List.take_length, List.take_length]
    refine ⟨hsending, ?_⟩
    unfold RelayThread.capture
    rw [hdata]
    dsimp only
    by_cases hmore : written < m.frame.length
    · rw [if_pos hmore]
      cases answer with
      | failed =>
          refine ⟨captured, m :: ms, [], _, hmsgs, hcapture, .failed _ _ _ _ ?_, hsink⟩
          exact .inr ⟨m, ⟨ms, rfl⟩, List.take_prefix _ _⟩
      | upTo n =>
          -- the part of the frame in the capture grows by what was written
          have hgrows : m.frame.take written ++ (m.frame.drop written).take (max 1 n) =
              m.frame.take (written + ((m.frame.drop written).take (max 1 n)).length) := by
            rw [List.length_take, List.take_add, ← List.take_eq_take_min]
          refine ⟨captured, m :: ms, [], _, hmsgs, ?_, .capturing captured ms m _ ?_ hf hs, hsink⟩
          · show c.thread.forwarder.capture ++ _ = _
            rw [hcapture, List.append_assoc, hgrows]
          · rw [List.length_take, List.length_drop]
            omega
    · rw [if_neg hmore, Forwarder.forwardMessage_front hf]
      have hall : m.frame.take written = m.frame := List.take_of_length_le (Nat.not_lt.mp hmore)
      refine ⟨captured ++ [m], ms, m.cells.drop 0, [], ?_, ?_, ?_, hsink.capture m⟩
      · rw [hmsgs, List.append_assoc]
        rfl
      · rw [List.flatMap_append, List.flatMap_singleton, List.append_nil, ← hall]
        exact hcapture
      · exact .sending captured ms m 0 (Nat.zero_le _) rfl rfl hs

/-- A turn of the loop of `forward_message`. -/
theorem send (h : c.Inv messages) {o : Forwarded φ} (hphase : c.thread.phase = .sending o)
    (answer : KernelAnswer) :
    Inv messages { c with
      thread := (RelayThread.send c.thread.forwarder o c.sink.gone answer).1
      sink := { c.sink with
        socket := c.sink.socket ++ (RelayThread.send c.thread.forwarder o c.sink.gone answer).2 } } := by
  obtain ⟨hsending, captured, rest, pending, torn, hmsgs, hcapture, hflow, hsink⟩ := h
  rw [hphase] at hflow
  cases hflow with
  | sending before _ m sent hsent hbuf hmarks hs =>
    have hcells : m.cells.length = m.frame.length := length_attach _ _
    -- the end of `forward_message`, however it is reached
    have hconsume : RelayFlow c.source (c.thread.forwarder.consume m.frame.length) .splitting
        (before ++ [m]) rest [] [] := by
      apply RelayFlow.splitting
      rw [Forwarder.consume_channel hbuf hmarks, hs]
      exact front_fresh rest
    refine ⟨hsending, ?_⟩
    by_cases hmore : sent < m.frame.length
    · cases answer with
      | failed =>
          rw [RelayThread.send_failed hmore]
          exact ⟨_, rest, _, _, hmsgs, hcapture, .failed _ _ _ _ (.inl rfl), hsink.write_nil⟩
      | upTo n =>
          rcases hgone : c.sink.gone with - | -
          · rw [RelayThread.send_chunk hmore]
            dsimp only
            rw [sendChunk_eq]
            have hlen : ((m.cells.drop sent).take (max 1 n)).length =
                min (max 1 n) (m.frame.length - sent) := by
              rw [List.length_take, List.length_drop, hcells]
            -- what is written is the first of what was pending
            have hpending : m.cells.drop sent = (m.cells.drop sent).take (max 1 n) ++
                m.cells.drop (sent + ((m.cells.drop sent).take (max 1 n)).length) := by
              rw [← List.drop_drop, List.length_take, ← List.drop_eq_drop_min, List.take_append_drop]
            refine ⟨_, rest, _, _, hmsgs, hcapture,
              .sending before rest m (sent + _) ?_ hbuf hmarks hs, ?_⟩
            · rw [hlen]
              omega
            · rw [hpending] at hsink
              exact hsink.write
          · rw [RelayThread.send_gone hmore]
            exact ⟨_, rest, _, _, hmsgs, hcapture, hconsume, (hsink.lost hgone []).write_nil⟩
    · have hnone : m.cells.drop sent = [] := by
        rw [List.drop_eq_nil_iff, hcells]
        exact Nat.not_lt.mp hmore
      rw [hnone] at hsink
      rw [RelayThread.send_done hmore]
      exact ⟨_, rest, _, _, hmsgs, hcapture, hconsume, hsink.write_nil⟩

/-- The read of `run`. -/
theorem read (h : c.Inv messages) (hphase : c.thread.phase = .reading) (answer : KernelAnswer) :
    Inv messages { c with
      thread := (RelayThread.read c.thread.forwarder c.source.socket c.source.closed answer).1
      source := { c.source with
        socket := (RelayThread.read c.thread.forwarder c.source.socket c.source.closed answer).2 } } := by
  obtain ⟨hsending, captured, rest, pending, torn, hmsgs, hcapture, hflow, hsink⟩ := h
  rw [hphase] at hflow
  cases hflow with
  | reading _ _ hwaits =>
    cases answer with
    | failed =>
        rw [RelayThread.read_failed]
        exact ⟨hsending, captured, rest, [], [], hmsgs, hcapture, .failed _ _ _ _ (.inl rfl), hsink⟩
    | upTo n =>
        rcases hwaits.read n with ⟨hread, hwaits'⟩ | ⟨hread, hwaits', hclosed⟩ |
          ⟨f, socket, hread, hf, hfront⟩
        · rw [hread]
          exact ⟨hsending, captured, rest, [], [], hmsgs, hcapture, .reading _ _ hwaits', hsink⟩
        · rw [hread]
          exact ⟨hsending, captured, rest, [], [], hmsgs, hcapture, .ended _ _ hwaits' hclosed,
            hsink⟩
        · rw [hread]
          exact ⟨hsending, captured, rest, [], [], hmsgs, hf.trans hcapture, .splitting _ _ hfront,
            hsink⟩

/-- A turn of the thread. -/
theorem turn (h : c.Inv messages) (answer : KernelAnswer) : (c.turn answer).Inv messages := by
  rw [Direction.turn]
  rcases hphase : c.thread.phase with - | ⟨consumed, written⟩ | o | - | r
  · exact h.split hphase
  · exact h.capture hphase answer
  · exact h.send hphase answer
  · exact h.read hphase answer
  · exact h

theorem sendmsg (h : c.Inv messages) (n : Nat) : (c.sendmsg n).Inv messages := by
  obtain ⟨hsending, captured, rest, pending, torn, hmsgs, hcapture, hflow, hsink⟩ := h
  exact ⟨(RelaySource.sendmsg_stream hsending n).2.1, captured, rest, pending, torn, hmsgs, hcapture,
    hflow.sendmsg hsending n, hsink⟩

/-- The node at the source closes its socket. -/
theorem close (h : c.Inv messages) :
    Inv messages { c with source := { c.source with closed := true } } := by
  obtain ⟨hsending, captured, rest, pending, torn, hmsgs, hcapture, hflow, hsink⟩ := h
  exact ⟨hsending, captured, rest, pending, torn, hmsgs, hcapture, hflow.close, hsink⟩

/-- How a thread ends. -/
theorem ended (h : c.Inv messages) (hended : c.Ended) :
    (c.thread.phase = .ended (.ok ()) ∧ c.source.closed = true) ∨
      c.thread.phase = .ended (.error .io) := by
  obtain ⟨r, hr⟩ := hended
  obtain ⟨-, captured, rest, pending, torn, -, -, hflow, -⟩ := h
  rw [hr] at hflow
  cases hflow with
  | ended _ _ _ hclosed => exact .inl ⟨hr, hclosed⟩
  | failed _ _ _ _ _ => exact .inr hr

end Direction.Inv

/-! ### The node behind the relay -/

namespace Channel

/-- What the end of the stream makes of a call that finds the socket empty. -/
def atEnd (c : Channel φ) : Except ChannelError (RecvResult φ) → Except ChannelError (RecvResult φ)
  | .ok .wouldBlock => if c.recvBuf ≠ [] then .error (.wire .truncatedMessage) else .ok .peerClosed
  | r => r

/-- The end of the stream matters only when the socket is empty. -/
theorem recvLoop_closed (fuel : Nat) (c : Channel φ) (socket : List (Cell φ))
    (reads : List KernelRead) :
    recvLoop fuel c socket true reads =
      (recvLoop fuel c socket false reads).map fun r => (r.2.1.atEnd r.1, r.2) := by
  induction fuel generalizing c socket reads with
  | zero => rfl
  | succ fuel ih =>
      rw [recvLoop, recvLoop]
      rcases c.tryAssemble with e | ⟨- | m, c⟩
      · rfl
      · dsimp only
        rcases neededBytes c.recvBuf with e | needed
        · rfl
        · have hempty : (if c.recvBuf ≠ [] then
                some (Except.error (ChannelError.wire .truncatedMessage), c, ([] : List (Cell φ)))
              else some (.ok .peerClosed, c, [])) = some (c.atEnd (.ok .wouldBlock), c, []) := by
            rw [atEnd]
            split_ifs <;> rfl
          rcases reads with - | ⟨- | n, reads⟩
          · rcases socket with - | ⟨cell, cells⟩
            · exact hempty
            · dsimp only [List.head?]
              split_ifs
              · rfl
              · exact ih _ _ _
              · exact ih _ _ _
          · exact ih _ _ _
          · rcases socket with - | ⟨cell, cells⟩
            · exact hempty
            · dsimp only [List.head?]
              split_ifs
              · rfl
              · exact ih _ _ _
              · exact ih _ _ _
      · rfl

end Channel

/-- What a call of `recv_available` does for a node that has not closed its
socket: it hands out the next message, it finds that there is nothing yet, or it
finds the end of the stream, behind a message or inside of one. -/
inductive Hears (s : RelaySink φ) (rest : List (Message φ)) (pending : List (Cell φ)) :
    RelaySink φ → Prop
  | message (m : Message φ) (ms : List (Message φ)) (c : Channel φ) (socket : List (Cell φ))
      (hrest : rest = m :: ms) (hfront : Front c (socket ++ pending) ms) :
      Hears s rest pending
        { s with channel := c, socket := socket, received := s.received ++ [m.incoming] }
  | wouldBlock (c : Channel φ) (hfront : Front c pending rest) (hall : pending = [] → rest = []) :
      Hears s rest pending { s with channel := c, socket := [] }
  | told (c : Channel φ) (hfront : Front c pending rest) (hall : pending = [] → rest = [])
      (hexited : s.exited = true) :
      Hears s rest pending { s with channel := c, socket := [], told := true }
  | torn (c : Channel φ) (hfront : Front c pending rest) (hmore : pending ≠ [])
      (hexited : s.exited = true) :
      Hears s rest pending
        { s with channel := c, socket := [], error := some (.wire .truncatedMessage) }

theorem RelaySink.recvAvailable_hears {s : RelaySink φ} {rest : List (Message φ)}
    {pending : List (Cell φ)} (hgone : s.gone = false)
    (hfront : Front s.channel (s.socket ++ pending) rest) (reads : List KernelRead) :
    Hears s rest pending (s.recvAvailable reads) := by
  have hopen : false = true → pending = [] := fun h => absurd h Bool.false_ne_true
  obtain ⟨r, c, socket, hrun, hr⟩ := recvLoop_spec (reads.length + s.socket.length + 1) hfront hopen
    (Nat.lt_succ_self (reads.length + s.socket.length))
  have hcall : s.channel.recvAvailable s.socket s.exited reads =
      some (if s.exited then c.atEnd r else r, c, socket) := by
    rw [Channel.recvAvailable]
    cases s.exited with
    | false => exact hrun
    | true =>
        rw [Channel.recvLoop_closed, hrun]
        rfl
  have hstays : ¬s.gone = true := by
    rw [hgone]
    exact Bool.false_ne_true
  rw [recvAvailable, if_neg hstays, hcall]
  cases hr with
  | message m ms _ _ hrest hfront' =>
      have hmessage : (if s.exited then c.atEnd (.ok (.message m.incoming))
          else .ok (.message m.incoming)) = .ok (.message m.incoming) := by
        split_ifs <;> rfl
      rw [hmessage]
      exact .message m ms c socket hrest hfront'
  | wouldBlock _ hfront' hall =>
      by_cases hexited : s.exited = true
      · rw [if_pos hexited, Channel.atEnd]
        by_cases hbuf : c.recvBuf = []
        · rw [if_neg (not_not.mpr hbuf)]
          exact .told c hfront' hall hexited
        · rw [if_pos hbuf]
          refine .torn c hfront' (fun hnone => hbuf ?_) hexited
          -- nothing is left of a message after the last one
          rw [hnone, hall hnone] at hfront'
          cases hfront' with
          | done hc _ => exact congrArg Channel.recvBuf hc
      · rw [if_neg hexited]
        exact .wouldBlock c hfront' hall
  | peerClosed _ hclosed => exact absurd hclosed Bool.false_ne_true

/-- The messages received are the first ones, whatever the node hears. -/
theorem Reaches.recvAvailable {captured : List (Message φ)} {pending : List (Cell φ)}
    {s : RelaySink φ} (h : Reaches captured pending s) (reads : List KernelRead) :
    Reaches captured pending (s.recvAvailable reads) := by
  rcases hgone : s.gone with - | -
  · obtain ⟨rest, hmap, hfront⟩ := h.front hgone
    have hhears := RelaySink.recvAvailable_hears hgone hfront reads
    generalize s.recvAvailable reads = s' at hhears ⊢
    cases hhears with
    | message m ms c socket hrest hfront' =>
        have hmap' : captured.map Message.incoming =
            (s.received ++ [m.incoming]) ++ ms.map Message.incoming := by
          rw [hmap, hrest, List.append_assoc]
          rfl
        exact ⟨⟨_, hmap'.symm⟩, fun _ => ⟨ms, hmap', hfront'⟩⟩
    | wouldBlock c hfront' _ => exact ⟨h.pre, fun _ => ⟨rest, hmap, hfront'⟩⟩
    | told c hfront' _ _ => exact ⟨h.pre, fun _ => ⟨rest, hmap, hfront'⟩⟩
    | torn c hfront' _ _ => exact ⟨h.pre, fun _ => ⟨rest, hmap, hfront'⟩⟩
  · rw [RelaySink.recvAvailable, if_pos hgone]
    exact h

/-- What a node hears of the end of the stream, it hears from a relay that has
closed its sockets. -/
theorem Reaches.hears_end {captured : List (Message φ)} {pending : List (Cell φ)}
    {s : RelaySink φ} (h : Reaches captured pending s) (reads : List KernelRead) :
    ((s.recvAvailable reads).told = true → s.told = true ∨ s.gone = false ∧ s.exited = true) ∧
      ∀ e, (s.recvAvailable reads).error = some e → s.error = some e ∨
        s.exited = true ∧ pending ≠ [] ∧ e = .wire .truncatedMessage := by
  rcases hgone : s.gone with - | -
  · obtain ⟨rest, -, hfront⟩ := h.front hgone
    have hhears := RelaySink.recvAvailable_hears hgone hfront reads
    generalize s.recvAvailable reads = s' at hhears ⊢
    cases hhears with
    | message m ms c socket _ _ => exact ⟨.inl, fun _ => .inl⟩
    | wouldBlock c _ _ => exact ⟨.inl, fun _ => .inl⟩
    | told c _ _ hexited => exact ⟨fun _ => .inr ⟨rfl, hexited⟩, fun _ => .inl⟩
    | torn c _ hmore hexited =>
        exact ⟨.inl, fun e he => .inr ⟨hexited, hmore, (Option.some.inj he).symm⟩⟩
  · rw [RelaySink.recvAvailable, if_pos hgone]
    exact ⟨.inl, fun _ => .inl⟩

/-- Where nothing is pending, a call hands out a message as long as there is
one. -/
theorem Reaches.progress {captured : List (Message φ)} {s : RelaySink φ}
    (h : Reaches captured [] s) (hgone : s.gone = false) (reads : List KernelRead) :
    (s.recvAvailable reads).gone = false ∧
      s.received.length ≤ (s.recvAvailable reads).received.length ∧
      (s.received = captured.map Message.incoming ∨
        (s.recvAvailable reads).received.length = s.received.length + 1) := by
  obtain ⟨rest, hmap, hfront⟩ := h.front hgone
  have hdone : rest = [] → s.received = captured.map Message.incoming := by
    intro hrest
    rw [hmap, hrest, List.map_nil, List.append_nil]
  have hhears := RelaySink.recvAvailable_hears hgone hfront reads
  generalize s.recvAvailable reads = s' at hhears ⊢
  cases hhears with
  | message m ms c socket hrest _ =>
      have hlen : (s.received ++ [m.incoming]).length = s.received.length + 1 := List.length_append
      exact ⟨hgone, hlen ▸ Nat.le_succ _, .inr hlen⟩
  | wouldBlock c _ hall => exact ⟨hgone, le_rfl, .inl (hdone (hall rfl))⟩
  | told c _ hall _ => exact ⟨hgone, le_rfl, .inl (hdone (hall rfl))⟩
  | torn c _ hmore _ => exact absurd rfl hmore

/-- Where nothing is pending, as many calls as there are messages receive them
all. -/
theorem Reaches.drain {captured : List (Message φ)} (calls : List (List KernelRead))
    {s : RelaySink φ} (h : Reaches captured [] s) (hgone : s.gone = false)
    (hcalls : captured.length ≤ s.received.length + calls.length) :
    (exec RelaySink.recvAvailable s calls).received = captured.map Message.incoming := by
  induction calls generalizing s with
  | nil =>
      apply h.pre.eq_of_length_le
      rw [List.length_map]
      exact hcalls
  | cons reads calls ih =>
      obtain ⟨hgone', hle, hmore⟩ := h.progress hgone reads
      rw [exec_cons]
      apply ih (h.recvAvailable reads) hgone'
      rw [List.length_cons] at hcalls
      rcases hmore with hall | hmore
      · have hlen := congrArg List.length hall
        rw [List.length_map] at hlen
        omega
      · omega

/-! ### Runs -/

namespace Direction.Inv

variable {messages : List (Message φ)} {c : Direction φ}

theorem init (messages : List (Message φ)) : (Direction.init messages).Inv messages where
  sending := .inl rfl
  flow := ⟨[], messages, [], [], rfl, rfl, .splitting _ _ (front_fresh messages),
    ⟨List.nil_prefix, fun _ => ⟨[], rfl, .done rfl rfl⟩⟩⟩

theorem recvAvailable (h : c.Inv messages) (reads : List KernelRead) :
    (c.recvAvailable reads).Inv messages := by
  obtain ⟨hsending, captured, rest, pending, torn, hmsgs, hcapture, hflow, hsink⟩ := h
  exact ⟨hsending, captured, rest, pending, torn, hmsgs, hcapture, hflow, hsink.recvAvailable reads⟩

/-- The node at the sink closes its socket. -/
theorem leave (h : c.Inv messages) : Inv messages { c with sink := { c.sink with gone := true } } := by
  obtain ⟨hsending, captured, rest, pending, torn, hmsgs, hcapture, hflow, hsink⟩ := h
  exact ⟨hsending, captured, rest, pending, torn, hmsgs, hcapture, hflow, hsink.pre, nofun⟩

/-- The relay closes its sockets. -/
theorem exit (h : c.Inv messages) :
    Inv messages { c with sink := { c.sink with exited := true } } := by
  obtain ⟨hsending, captured, rest, pending, torn, hmsgs, hcapture, hflow, hsink⟩ := h
  exact ⟨hsending, captured, rest, pending, torn, hmsgs, hcapture, hflow, hsink.pre, hsink.front⟩

/-- Where a direction ended at the end of a stream that its sender wrote to the
end, all of it is captured and on its way. -/
theorem complete (h : c.Inv messages) (hphase : c.thread.phase = .ended (.ok ()))
    (hall : c.source.outgoing = []) :
    c.thread.forwarder.capture = messages.flatMap Message.frame ∧
      Reaches messages [] c.sink := by
  obtain ⟨-, captured, rest, pending, torn, hmsgs, hcapture, hflow, hsink⟩ := h
  rw [hphase] at hflow
  cases hflow with
  | ended _ _ hwaits _ =>
      have hunsent : c.source.unsent = [] := by
        rw [RelaySource.unsent, hall]
        exact List.drop_nil
      rw [hunsent] at hwaits
      cases hwaits with
      | done _ _ =>
          rw [List.append_nil] at hmsgs
          rw [hmsgs]
          rw [List.append_nil] at hcapture
          exact ⟨hcapture, hsink⟩
      | next m ms k _ hk hs =>
          -- a part of this message would still be unread
          have hlen := congrArg List.length hs
          have hcells : m.cells.length = m.frame.length := length_attach _ _
          rw [List.length_append, List.length_drop, hcells, List.length_nil] at hlen
          omega

end Direction.Inv

namespace Relay

/-- What holds of a relay whose nodes send `messages`. -/
structure Inv (messages : RelayFd → List (Message φ)) (s : Relay φ) : Prop where
  direction : ∀ x, (s x).Inv (messages x)
  exited : ∀ x, (s x).sink.exited = true → ∀ y, (s y).Ended
  gone : ∀ x, (s x.other).sink.gone = (s x).source.closed
  told : ∀ x, (s x).sink.told = true → (s x.other).thread.phase = .ended (.error .io)
  torn : ∀ x e, (s x).sink.error = some e →
    e = .wire .truncatedMessage ∧ (s x).thread.phase = .ended (.error .io)

variable {messages : RelayFd → List (Message φ)} {s : Relay φ}

/-- A step of one direction that keeps what the other one knows of it. -/
structure Keeps (messages : List (Message φ)) (c c' : Direction φ) (failed : Prop) : Prop where
  direction : c'.Inv messages
  exited : c'.sink.exited = c.sink.exited
  gone : c'.sink.gone = c.sink.gone
  closed : c'.source.closed = c.source.closed
  phase : ∀ r, c.thread.phase = .ended r → c'.thread.phase = .ended r
  told : c'.sink.told = true → c.sink.told = true ∨ failed
  torn : ∀ e, c'.sink.error = some e → c.sink.error = some e ∨
    e = .wire .truncatedMessage ∧ c.thread.phase = .ended (.error .io)

theorem Inv.modify (h : s.Inv messages) (x : RelayFd) {f : Direction φ → Direction φ}
    (hf : Keeps (messages x) (s x) (f (s x)) ((s x.other).thread.phase = .ended (.error .io))) :
    (s.modify x f).Inv messages := by
  have hself := s.modify_self x f
  have hother : s.modify x f x.other = s x.other := s.modify_of_ne f x.other_ne
  -- an end stays an end, in this direction and in the other one
  have hended : ∀ y r, (s y).thread.phase = .ended r →
      (s.modify x f y).thread.phase = .ended r := by
    intro y r hr
    rcases x.eq_or_other y with rfl | rfl
    · rw [hself]
      exact hf.phase r hr
    · rw [hother]
      exact hr
  refine ⟨fun y => ?_, fun y hy z => ?_, fun y => ?_, fun y hy => ?_, fun y e he => ?_⟩
  · rcases x.eq_or_other y with rfl | rfl
    · rw [hself]
      exact hf.direction
    · rw [hother]
      exact h.direction x.other
  · have hy' : (s y).sink.exited = true := by
      rcases x.eq_or_other y with rfl | rfl
      · rwa [hself, hf.exited] at hy
      · rwa [hother] at hy
    obtain ⟨r, hr⟩ := h.exited y hy' z
    exact ⟨r, hended z r hr⟩
  · have hgone := h.gone y
    rcases x.eq_or_other y with rfl | rfl
    · rw [hself, hother, hf.closed]
      exact hgone
    · rw [RelayFd.other_other] at hgone ⊢
      rw [hself, hother, hf.gone]
      exact hgone
  · apply hended
    rcases x.eq_or_other y with rfl | rfl
    · rw [hself] at hy
      exact (hf.told hy).elim (h.told y) id
    · rw [hother] at hy
      exact h.told x.other hy
  · rcases x.eq_or_other y with rfl | rfl
    · rw [hself] at he
      rcases hf.torn e he with hold | ⟨rfl, hphase⟩
      · obtain ⟨rfl, hphase⟩ := h.torn y e hold
        exact ⟨rfl, hended y _ hphase⟩
      · exact ⟨rfl, hended y _ hphase⟩
    · rw [hother] at he ⊢
      exact h.torn x.other e he

theorem Inv.sendmsg (h : s.Inv messages) (x : RelayFd) (n : Nat) :
    (s.modify x (·.sendmsg n)).Inv messages := by
  apply h.modify x
  exact {
    direction := (h.direction x).sendmsg n
    exited := rfl
    gone := rfl
    closed := (RelaySource.sendmsg_stream (h.direction x).sending n).2.2.1
    phase := fun _ => id
    told := .inl
    torn := fun _ => .inl }

/-- A turn of a thread does not touch what the node behind it was told. -/
theorem turn_frame (c : Direction φ) (answer : KernelAnswer) :
    (c.turn answer).sink.exited = c.sink.exited ∧ (c.turn answer).sink.gone = c.sink.gone ∧
      (c.turn answer).source.closed = c.source.closed ∧
      (c.turn answer).sink.told = c.sink.told ∧ (c.turn answer).sink.error = c.sink.error ∧
      ∀ r, c.thread.phase = .ended r → (c.turn answer).thread.phase = .ended r := by
  rw [Direction.turn]
  rcases hphase : c.thread.phase with - | ⟨consumed, written⟩ | o | - | r
  · exact ⟨rfl, rfl, rfl, rfl, rfl, nofun⟩
  · exact ⟨rfl, rfl, rfl, rfl, rfl, nofun⟩
  · exact ⟨rfl, rfl, rfl, rfl, rfl, nofun⟩
  · exact ⟨rfl, rfl, rfl, rfl, rfl, nofun⟩
  · refine ⟨rfl, rfl, rfl, rfl, rfl, fun r' hr => ?_⟩
    rw [hphase]
    exact hr

theorem Inv.turn (h : s.Inv messages) (x : RelayFd) (answer : KernelAnswer) :
    (s.modify x (·.turn answer)).Inv messages := by
  obtain ⟨hexited, hgone, hclosed, htold, herror, hphase⟩ := turn_frame (s x) answer
  apply h.modify x
  exact {
    direction := (h.direction x).turn answer
    exited := hexited
    gone := hgone
    closed := hclosed
    phase := hphase
    told := fun ht => .inl (htold ▸ ht)
    torn := fun _ he => .inl (herror ▸ he) }

theorem recvAvailable_frame (s : RelaySink φ) (reads : List KernelRead) :
    (s.recvAvailable reads).exited = s.exited ∧ (s.recvAvailable reads).gone = s.gone := by
  rw [RelaySink.recvAvailable]
  split_ifs
  · exact ⟨rfl, rfl⟩
  · rcases s.channel.recvAvailable s.socket s.exited reads with - | ⟨e | (m | - | -), channel, socket⟩
    · exact ⟨rfl, rfl⟩
    · exact ⟨rfl, rfl⟩
    · exact ⟨rfl, rfl⟩
    · exact ⟨rfl, rfl⟩
    · exact ⟨rfl, rfl⟩

theorem Inv.recvAvailable (h : s.Inv messages) (x : RelayFd) (reads : List KernelRead) :
    (s.modify x (·.recvAvailable reads)).Inv messages := by
  obtain ⟨hexited, hgone⟩ := recvAvailable_frame (s x).sink reads
  have hdirection := h.direction x
  obtain ⟨captured, rest, pending, torn, -, -, hflow, hsink⟩ := hdirection.flow
  obtain ⟨htold, htorn⟩ := hsink.hears_end reads
  apply h.modify x
  refine ⟨hdirection.recvAvailable reads, hexited, hgone, rfl, fun _ => id, fun ht => ?_,
    fun e he => ?_⟩
  · rcases htold ht with hold | ⟨hhere, hend⟩
    · exact .inl hold
    · right
      -- the other direction ended because this node is gone, or because it failed
      rcases (h.direction x.other).ended (h.exited x hend x.other) with ⟨-, hclosed⟩ | hfailed
      · have hleft := h.gone x.other
        rw [RelayFd.other_other, hhere, hclosed] at hleft
        cases hleft
      · exact hfailed
  · rcases htorn e he with hold | ⟨hend, hmore, rfl⟩
    · exact .inl hold
    · refine .inr ⟨rfl, ?_⟩
      rcases hdirection.ended (h.exited x hend x) with ⟨hphase, -⟩ | hfailed
      · rw [hphase] at hflow
        cases hflow with
        | ended => exact absurd rfl hmore
      · exact hfailed

theorem hangUp_self (s : Relay φ) (x : RelayFd) :
    s.hangUp x x = { s x with source := { (s x).source with closed := true } } := if_pos rfl

theorem hangUp_other (s : Relay φ) (x : RelayFd) :
    s.hangUp x x.other = { s x.other with sink := { (s x.other).sink with gone := true } } :=
  if_neg x.other_ne

theorem hangUp_frame (s : Relay φ) (x y : RelayFd) :
    (s.hangUp x y).thread = (s y).thread ∧ (s.hangUp x y).sink.exited = (s y).sink.exited ∧
      (s.hangUp x y).sink.told = (s y).sink.told ∧ (s.hangUp x y).sink.error = (s y).sink.error := by
  rcases x.eq_or_other y with rfl | rfl
  · rw [hangUp_self]
    exact ⟨rfl, rfl, rfl, rfl⟩
  · rw [hangUp_other]
    exact ⟨rfl, rfl, rfl, rfl⟩

theorem Inv.hangUp (h : s.Inv messages) (x : RelayFd) : (s.hangUp x).Inv messages where
  direction y := by
    rcases x.eq_or_other y with rfl | rfl
    · rw [hangUp_self]
      exact (h.direction y).close
    · rw [hangUp_other]
      exact (h.direction x.other).leave
  exited y hy z := by
    rw [(hangUp_frame s x y).2.1] at hy
    obtain ⟨r, hr⟩ := h.exited y hy z
    refine ⟨r, ?_⟩
    rw [(hangUp_frame s x z).1]
    exact hr
  gone y := by
    rcases x.eq_or_other y with rfl | rfl
    · rw [hangUp_self, hangUp_other]
    · have hgone := h.gone x.other
      rw [RelayFd.other_other] at hgone ⊢
      rw [hangUp_self, hangUp_other]
      exact hgone
  told y hy := by
    rw [(hangUp_frame s x y).2.2.1] at hy
    rw [(hangUp_frame s x y.other).1]
    exact h.told y hy
  torn y e he := by
    rw [(hangUp_frame s x y).2.2.2] at he
    rw [(hangUp_frame s x y).1]
    exact h.torn y e he

theorem Inv.exit (h : s.Inv messages) : s.exit.Inv messages := by
  by_cases hended : (s .a).Ended ∧ (s .b).Ended
  · rw [Relay.exit, if_pos hended]
    obtain ⟨ha, hb⟩ := hended
    have hall : ∀ y, (s y).Ended := by
      intro y
      cases y with
      | a => exact ha
      | b => exact hb
    exact ⟨fun y => (h.direction y).exit, fun _ _ => hall, h.gone, h.told, h.torn⟩
  · rw [Relay.exit, if_neg hended]
    exact h

theorem Inv.step (h : s.Inv messages) (op : RelayOp) : (s.step op).Inv messages := by
  cases op with
  | sendmsg x n => exact h.sendmsg x n
  | turn x answer => exact h.turn x answer
  | recvAvailable x reads => exact h.recvAvailable x reads
  | hangUp x => exact h.hangUp x
  | exit => exact h.exit

theorem Inv.init (messages : RelayFd → List (Message φ)) : (Relay.init messages).Inv messages where
  direction x := .init (messages x)
  exited _ := nofun
  gone _ := rfl
  told _ := nofun
  torn _ _ := nofun

/-- A thread fails only where the kernel fails its system call: a message never
has more descriptors than a read takes. -/
theorem Inv.failed_turn (h : s.Inv messages) {x : RelayFd} {answer : KernelAnswer}
    (hfailed : ((s x).turn answer).thread.phase = .ended (.error .io)) :
    (s x).thread.phase = .ended (.error .io) ∨ answer = .failed := by
  cases answer with
  | failed => exact .inr rfl
  | upTo n =>
      left
      rw [Direction.turn] at hfailed
      rcases hphase : (s x).thread.phase with - | ⟨consumed, written⟩ | o | - | r
      · rw [hphase] at hfailed
        exact absurd hfailed (RelayThread.split_phase _)
      · rw [hphase] at hfailed
        exact absurd hfailed (RelayThread.capture_phase _ consumed written n)
      · rw [hphase] at hfailed
        exact absurd hfailed (RelayThread.send_phase _ o _ n)
      · rw [hphase] at hfailed
        obtain ⟨-, captured, rest, pending, torn, -, -, hflow, -⟩ := h.direction x
        rw [hphase] at hflow
        cases hflow with
        | reading _ _ hwaits =>
            dsimp only at hfailed
            rcases hwaits.read n with ⟨hread, -⟩ | ⟨hread, -, -⟩ | ⟨f, socket, hread, -, -⟩
            · rw [hread] at hfailed
              cases hfailed
            · rw [hread] at hfailed
              cases hfailed
            · rw [hread] at hfailed
              cases hfailed
      · rw [hphase] at hfailed
        exact hphase ▸ hfailed

theorem modify_thread {f : Direction φ → Direction φ} (hf : ∀ c, (f c).thread = c.thread)
    (s : Relay φ) (x y : RelayFd) : (s.modify y f x).thread = (s x).thread := by
  rw [Relay.modify]
  split_ifs
  · exact hf (s x)
  · rfl

theorem Inv.failed_step (h : s.Inv messages) {op : RelayOp} {x : RelayFd}
    (hfailed : (s.step op x).thread.phase = .ended (.error .io)) :
    (s x).thread.phase = .ended (.error .io) ∨ op = .turn x .failed := by
  cases op with
  | sendmsg y n =>
      have hthread := modify_thread (fun c => (rfl : (c.sendmsg n).thread = c.thread)) s x y
      rw [← hthread]
      exact .inl hfailed
  | turn y answer =>
      rcases y.eq_or_other x with rfl | rfl
      · rw [Relay.step, modify_self] at hfailed
        exact (h.failed_turn hfailed).imp_right fun ha => congrArg (RelayOp.turn x) ha
      · rw [Relay.step, s.modify_of_ne _ y.other_ne] at hfailed
        exact .inl hfailed
  | recvAvailable y reads =>
      have hthread := modify_thread (fun c => (rfl : (c.recvAvailable reads).thread = c.thread)) s x y
      rw [← hthread]
      exact .inl hfailed
  | hangUp y =>
      rw [← (hangUp_frame s y x).1]
      exact .inl hfailed
  | exit =>
      left
      rw [Relay.step, Relay.exit] at hfailed
      split_ifs at hfailed
      · exact hfailed
      · exact hfailed

theorem Inv.failed_run (h : s.Inv messages) {ops : List RelayOp} {x : RelayFd}
    (hfailed : (exec Relay.step s ops x).thread.phase = .ended (.error .io)) :
    (s x).thread.phase = .ended (.error .io) ∨ .turn x .failed ∈ ops := by
  induction ops generalizing s with
  | nil => exact .inl hfailed
  | cons op ops ih =>
      rcases ih (h.step op) hfailed with hstep | hmem
      · rcases h.failed_step hstep with hold | rfl
        · exact .inl hold
        · exact .inr List.mem_cons_self
      · exact .inr (List.mem_cons_of_mem op hmem)

/-- The frames in the capture, and what is there of the next one: a part of it while
it is being written, or where its direction has failed. -/
def Captures (messages : List (Message φ)) (t : RelayThread φ) (captured : List (Message φ)) :
    Prop :=
  captured <+: messages ∧ ∃ torn, t.forwarder.capture = captured.flatMap Message.frame ++ torn ∧
    (torn ≠ [] → (∃ m, captured ++ [m] <+: messages ∧ torn <+: m.frame) ∧
      ((∃ consumed written, t.phase = .capturing consumed written) ∨
        t.phase = .ended (.error .io)))

/-- What the relay does for two nodes that send `messages`.  The messages of a
node arrive in order and whole, payload by payload and descriptor by descriptor,
and what has arrived is in the capture; a direction that ends at the end of the
stream of a node that has written all of its messages has captured and sent on all
of it.  A node is told that the stream is over
only where the direction that reads from it has failed, and it finds a message cut
off only where the direction to it has failed. -/
structure Faithful (messages : RelayFd → List (Message φ)) (s : Relay φ) : Prop where
  captured : ∀ x, ∃ captured, Captures (messages x) (s x).thread captured ∧
    (s x).sink.received <+: captured.map Message.incoming
  complete : ∀ x, (s x).thread.phase = .ended (.ok ()) → (s x).source.outgoing = [] →
    (s x).thread.forwarder.capture = (messages x).flatMap Message.frame ∧
    ((s x).sink.gone = false → ∀ calls : List (List KernelRead),
      (messages x).length ≤ calls.length →
        (exec RelaySink.recvAvailable (s x).sink calls).received =
          (messages x).map Message.incoming)
  told : ∀ x, (s x).sink.told = true → (s x.other).thread.phase = .ended (.error .io)
  torn : ∀ x e, (s x).sink.error = some e →
    e = .wire .truncatedMessage ∧ (s x).thread.phase = .ended (.error .io)

theorem Inv.faithful (h : s.Inv messages) : s.Faithful messages where
  captured x := by
    obtain ⟨-, captured, rest, pending, torn, hmsgs, hcapture, hflow, hsink⟩ := h.direction x
    refine ⟨captured, ⟨⟨rest, hmsgs.symm⟩, torn, hcapture, fun htorn => ?_⟩, hsink.pre⟩
    obtain ⟨⟨m, hm, hpart⟩, hphase⟩ := hflow.torn htorn
    refine ⟨⟨m, ?_, hpart⟩, hphase⟩
    rw [hmsgs]
    exact (List.prefix_append_right_inj captured).mpr hm
  complete x hphase hall := by
    obtain ⟨hcapture, hsink⟩ := (h.direction x).complete hphase hall
    refine ⟨hcapture, fun hgone calls hcalls => hsink.drain calls hgone ?_⟩
    exact Nat.le_trans hcalls (Nat.le_add_left _ _)
  told := h.told
  torn := h.torn

/-- Whatever order the nodes and the threads take turns in, and whatever the
kernel makes of their reads and writes, the relay is faithful; and a direction
fails only where the kernel fails one of its system calls. -/
theorem relayed (messages : RelayFd → List (Message φ)) (ops : List RelayOp) :
    Always step (Faithful messages) (init messages) ops ∧
      ∀ x, (exec step (init messages) ops x).thread.phase = .ended (.error .io) →
        .turn x .failed ∈ ops := by
  constructor
  · have hinv : Always step (Inv messages) (init messages) ops :=
      always_of_step (fun _ op h => h.step op) (.init messages) ops
    exact hinv.imp fun _ h => h.faithful
  · intro x hfailed
    rcases (Inv.init messages).failed_run hfailed with hstart | hmem
    · cases hstart
    · exact hmem

end Relay

end MojoRs.Ipcz
