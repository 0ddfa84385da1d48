/-
MojoRs/Ipcz/ChannelSend.lean

`Channel::send` on a socket that may fail.  The channel put its socket into
nonblocking mode, and `send` writes a frame with as many `sendmsg` as the kernel
makes of it.  A failure ends the call at once, also when a part of the frame is
out already, and the next call starts a new frame behind it.

The framing of a run of calls survives exactly if behind a call that was cut
no other call gets a byte out.

Main results: `SendCall.written_cases`, `frames_of_pairwise`, `keepsFraming_iff`.
-/
import MojoRs.Ipcz.ChannelReassembly

namespace MojoRs.Ipcz

/-! ### The loop of `send` -/

/-- What the kernel does at a `sendmsg`: fail, as with `WouldBlock`, or take at
most `n` bytes. -/
inductive KernelWrite
  | failed
  | took (n : Nat)
  deriving DecidableEq, Repr

/-- Errors of `send`. -/
inductive SendError
  | io
  | peerClosed
  deriving DecidableEq, Repr

variable {φ : Type}

namespace Channel

/-- The loop of `send`, `sent` bytes into the frame: the cells that reach the
socket.  `writes` is what the kernel does at the `sendmsg` calls in turn; after
that it takes all it gets. -/
def sendLoop (frame : List UInt8) (fds : List φ) :
    Nat → List KernelWrite → List (Cell φ) × Except SendError Unit
  | sent, [] =>
      if sent < frame.length then (sendChunk frame fds sent frame.length, .ok ()) else ([], .ok ())
  | sent, .failed :: _ => if sent < frame.length then ([], .error .io) else ([], .ok ())
  | sent, .took n :: writes =>
      if sent < frame.length then
        if n = 0 then ([], .error .peerClosed)
        else
          let chunk := sendChunk frame fds sent n
          let (cells, result) := sendLoop frame fds (sent + chunk.length) writes
          (chunk ++ cells, result)
      else ([], .ok ())

end Channel

/-- A call of `send`, with what the kernel does to it. -/
structure SendCall (φ : Type) where
  payload : List UInt8
  fds : List φ
  writes : List KernelWrite

namespace SendCall

/-- The bytes of the message. -/
def frame (c : SendCall φ) : List UInt8 :=
  encodeChannelMessage c.payload (UInt16.ofNat c.fds.length)

/-- `Channel::send`. -/
def send (c : SendCall φ) : List (Cell φ) × Except SendError Unit :=
  Channel.sendLoop c.frame c.fds 0 c.writes

/-- The bytes that reach the peer. -/
def written (c : SendCall φ) : List UInt8 := c.send.1.map (·.byte)

/-- What the call returns. -/
def result (c : SendCall φ) : Except SendError Unit := c.send.2

end SendCall

/-! ### Framing -/

/-- The bytes of every part of the run are whole frames of its calls and at most
one incomplete frame, and a call that failed left no part of a frame in front
of what a later call wrote. -/
structure KeepsFraming (calls : List (SendCall φ)) : Prop where
  whole : ∀ k, ∃ (frames : List (List UInt8)) (rest : List UInt8),
    (calls.take k).flatMap SendCall.written = frames.flatten ++ rest ∧
      frames.Sublist (calls.map SendCall.frame) ∧
      (rest = [] ∨ ∃ c ∈ calls, rest <+: c.frame ∧ rest ≠ c.frame)
  untorn : calls.Pairwise fun c c' =>
    c.result ≠ .ok () → c.written ≠ [] → c'.written = []

/-- The answer ends a call. -/
def KernelWrite.Stops : KernelWrite → Prop
  | .failed => True
  | .took n => n = 0

/-- The kernel takes a part of the frame, and then fails. -/
def SendCall.Cut (c : SendCall φ) : Prop :=
  ∃ (ns : List Nat) (stop : KernelWrite) (rest : List KernelWrite),
    c.writes = ns.map .took ++ stop :: rest ∧ ns ≠ [] ∧
    (∀ n ∈ ns, 0 < n) ∧ ns.sum < c.frame.length ∧ stop.Stops

/-- The kernel fails at once. -/
def SendCall.Blocked (c : SendCall φ) : Prop := ∃ stop rest, c.writes = stop :: rest ∧ stop.Stops

/-! ### What a call writes -/

section Loop

variable {frame : List UInt8} {fds : List φ}

theorem sendChunk_byte (frame : List UInt8) (fds : List φ) (sent n : Nat) :
    (sendChunk frame fds sent n).map (·.byte) = (frame.drop sent).take (max 1 n) := by
  unfold sendChunk
  cases fds with
  | nil => exact attach_map_byte _ _
  | cons fd fds =>
      dsimp only
      split_ifs with hsent
      · rw [attach_map_byte, hsent, List.drop_zero]
      · exact attach_map_byte _ _

theorem length_sendChunk (frame : List UInt8) (fds : List φ) {sent n : Nat} (hn : 0 < n) :
    (sendChunk frame fds sent n).length = min n (frame.length - sent) := by
  rw [← List.length_map (f := (·.byte)), sendChunk_byte, List.length_take, List.length_drop,
    max_eq_right hn]

/-- A `sendmsg` that takes something. -/
theorem sendLoop_took {sent n : Nat} (hsent : sent < frame.length) (hn : 0 < n)
    (writes : List KernelWrite) :
    Channel.sendLoop frame fds sent (.took n :: writes) =
      (sendChunk frame fds sent n ++
          (Channel.sendLoop frame fds (sent + min n (frame.length - sent)) writes).1,
        (Channel.sendLoop frame fds (sent + min n (frame.length - sent)) writes).2) := by
  rw [Channel.sendLoop, if_pos hsent, if_neg (Nat.pos_iff_ne_zero.mp hn)]
  dsimp only
  rw [length_sendChunk frame fds hn]

/-- The frame is out. -/
theorem sendLoop_done {sent : Nat} (hsent : frame.length ≤ sent) (writes : List KernelWrite) :
    Channel.sendLoop frame fds sent writes = ([], .ok ()) := by
  rcases writes with - | ⟨- | n, writes⟩
  all_goals exact if_neg (Nat.not_lt.mpr hsent)

/-- The kernel takes parts of the frame, and then fails. -/
theorem sendLoop_cut (fds : List φ) {sent : Nat} {ns : List Nat} {stop : KernelWrite}
    {rest : List KernelWrite} (hpos : ∀ n ∈ ns, 0 < n) (hsum : sent + ns.sum < frame.length)
    (hstop : stop.Stops) :
    (Channel.sendLoop frame fds sent (ns.map .took ++ stop :: rest)).1.map (·.byte) =
        (frame.drop sent).take ns.sum ∧
      (Channel.sendLoop frame fds sent (ns.map .took ++ stop :: rest)).2 ≠ .ok () := by
  induction ns generalizing sent with
  | nil =>
      cases stop with
      | failed => simp [Channel.sendLoop, show sent < frame.length from hsum]
      | took n =>
          obtain rfl : n = 0 := hstop
          simp [Channel.sendLoop, show sent < frame.length from hsum]
  | cons n ns ih =>
      rw [List.sum_cons] at hsum
      have hn := hpos n List.mem_cons_self
      have hmin : min n (frame.length - sent) = n := by omega
      have hsum' : sent + n + ns.sum < frame.length := by omega
      obtain ⟨hbytes, herror⟩ := ih (fun m hm => hpos m (List.mem_cons_of_mem n hm)) hsum'
      rw [List.map_cons, List.cons_append, sendLoop_took (by omega) hn, hmin]
      refine ⟨?_, herror⟩
      rw [List.map_append, hbytes, sendChunk_byte, max_eq_right hn, List.sum_cons,
        List.take_add, List.drop_drop]

/-- The loop writes the rest of the frame, or is stopped on the way. -/
theorem sendLoop_cases (fds : List φ) {sent : Nat} (hsent : sent ≤ frame.length)
    (writes : List KernelWrite) :
    ((Channel.sendLoop frame fds sent writes).1.map (·.byte) = frame.drop sent ∧
        (Channel.sendLoop frame fds sent writes).2 = .ok ()) ∨
      ∃ (ns : List Nat) (stop : KernelWrite) (rest : List KernelWrite),
        writes = ns.map .took ++ stop :: rest ∧ (∀ n ∈ ns, 0 < n) ∧
        sent + ns.sum < frame.length ∧ stop.Stops := by
  rcases Nat.lt_or_eq_of_le hsent with hlt | rfl
  · induction writes generalizing sent with
    -- without answers left the kernel takes the rest at once
    | nil =>
        left
        rw [Channel.sendLoop, if_pos hlt]
        refine ⟨?_, rfl⟩
        rw [sendChunk_byte, List.take_of_length_le]
        rw [List.length_drop]
        omega
    | cons w writes ih =>
        -- an error or no byte taken ends the loop
        by_cases hstop : w.Stops
        · exact .inr ⟨[], w, writes, rfl, nofun, hlt, hstop⟩
        · obtain ⟨n, rfl, hn⟩ : ∃ n, w = .took n ∧ 0 < n := by
            cases w with
            | failed => exact absurd trivial hstop
            | took n => exact ⟨n, rfl, Nat.pos_of_ne_zero hstop⟩
          rw [sendLoop_took hlt hn]
          -- the frame goes on, or this write was its last
          rcases Nat.lt_or_ge (sent + n) frame.length with hmore | hdone
          · have hmin : min n (frame.length - sent) = n := by omega
            rw [hmin]
            rcases ih (Nat.le_of_lt hmore) hmore with ⟨hbytes, hok⟩ |
              ⟨ns, stop, rest, rfl, hpos, hsum, hs⟩
            · left
              refine ⟨?_, hok⟩
              rw [List.map_append, hbytes, sendChunk_byte, max_eq_right hn, ← List.drop_drop,
                List.take_append_drop]
            · right
              refine ⟨n :: ns, stop, rest, rfl, ?_, ?_, hs⟩
              · intro m hm
                rcases List.mem_cons.mp hm with rfl | hm
                · exact hn
                · exact hpos m hm
              · rw [List.sum_cons]
                omega
          · left
            have hmin : frame.length ≤ sent + min n (frame.length - sent) := by omega
            rw [sendLoop_done hmin]
            refine ⟨?_, rfl⟩
            rw [List.append_nil, sendChunk_byte, List.take_of_length_le]
            rw [List.length_drop]
            omega
  · left
    rw [sendLoop_done le_rfl]
    exact ⟨(List.drop_length).symm, rfl⟩

end Loop

namespace SendCall

variable {c : SendCall φ}

theorem frame_ne_nil (c : SendCall φ) : c.frame ≠ [] := by
  intro h
  have hlen := congrArg List.length h
  simp [frame, encodeChannelMessage, encodeChannelHeader, ipczHeaderSize] at hlen

/-- What the kernel stops after `ns`. -/
theorem written_of_stops {ns : List Nat} {stop : KernelWrite} {rest : List KernelWrite}
    (hw : c.writes = ns.map .took ++ stop :: rest) (hpos : ∀ n ∈ ns, 0 < n)
    (hsum : ns.sum < c.frame.length) (hstop : stop.Stops) :
    c.written = c.frame.take ns.sum ∧ c.result ≠ .ok () := by
  have hsum' : 0 + ns.sum < c.frame.length := by omega
  have hcut := @sendLoop_cut _ _ c.fds _ _ _ rest hpos hsum' hstop
  rwa [← hw] at hcut

/-- A call writes its frame or a proper part of it. -/
theorem written_cases (c : SendCall φ) :
    (c.written = c.frame ∧ c.result = .ok ()) ∨
      ∃ (ns : List Nat) (stop : KernelWrite) (rest : List KernelWrite),
        c.writes = ns.map .took ++ stop :: rest ∧ (∀ n ∈ ns, 0 < n) ∧
        ns.sum < c.frame.length ∧ stop.Stops ∧ c.written = c.frame.take ns.sum ∧
          c.result ≠ .ok () := by
  rcases sendLoop_cases c.fds (Nat.zero_le c.frame.length) c.writes with
    h | ⟨ns, stop, rest, hw, hpos, hsum, hstop⟩
  · exact .inl h
  · right
    rw [Nat.zero_add] at hsum
    exact ⟨ns, stop, rest, hw, hpos, hsum, hstop, written_of_stops hw hpos hsum hstop⟩

theorem frame_pos (c : SendCall φ) : 0 < c.frame.length := List.length_pos_of_ne_nil c.frame_ne_nil

theorem take_frame_eq_nil {ns : List Nat} (hpos : ∀ n ∈ ns, 0 < n) :
    c.frame.take ns.sum = [] ↔ ns = [] := by
  rw [List.take_eq_nil_iff, or_iff_left c.frame_ne_nil]
  constructor
  · intro h
    cases ns with
    | nil => rfl
    | cons n ns =>
        have := hpos n List.mem_cons_self
        rw [List.sum_cons] at h
        omega
  · rintro rfl
    rfl

/-- The calls that the kernel cuts fail behind a part of their frame. -/
theorem cut_iff : c.Cut ↔ c.result ≠ .ok () ∧ c.written ≠ [] := by
  constructor
  · rintro ⟨ns, stop, rest, hw, hne, hpos, hsum, hstop⟩
    obtain ⟨hwritten, hresult⟩ := written_of_stops hw hpos hsum hstop
    refine ⟨hresult, ?_⟩
    rw [hwritten]
    exact mt (take_frame_eq_nil hpos).mp hne
  · rintro ⟨hresult, hwritten⟩
    rcases c.written_cases with ⟨-, hok⟩ | ⟨ns, stop, rest, hw, hpos, hsum, hstop, hpart, -⟩
    · exact absurd hok hresult
    · refine ⟨ns, stop, rest, hw, ?_, hpos, hsum, hstop⟩
      rw [hpart] at hwritten
      exact mt (take_frame_eq_nil hpos).mpr hwritten

/-- The calls that the kernel blocks write nothing. -/
theorem blocked_iff : c.Blocked ↔ c.written = [] := by
  constructor
  · rintro ⟨stop, rest, hw, hstop⟩
    have hw' : c.writes = ([] : List Nat).map .took ++ stop :: rest := hw
    exact (written_of_stops hw' nofun c.frame_pos hstop).1
  · intro hwritten
    rcases c.written_cases with ⟨hall, -⟩ | ⟨ns, stop, rest, hw, hpos, -, hstop, hpart, -⟩
    · exact absurd (hall.symm.trans hwritten) c.frame_ne_nil
    · obtain rfl := (take_frame_eq_nil hpos).mp (hpart.symm.trans hwritten)
      exact ⟨stop, rest, hw, hstop⟩

/-- A proper part of the frame. -/
theorem written_prefix (c : SendCall φ) (h : c.result ≠ .ok ()) :
    c.written <+: c.frame ∧ c.written ≠ c.frame := by
  rcases c.written_cases with ⟨-, hok⟩ | ⟨ns, stop, rest, -, -, hsum, -, hpart, -⟩
  · exact absurd hok h
  · rw [hpart]
    refine ⟨List.take_prefix _ _, fun heq => ?_⟩
    have hlen := congrArg List.length heq
    rw [List.length_take] at hlen
    omega

theorem written_of_ok (h : c.result = .ok ()) : c.written = c.frame := by
  rcases c.written_cases with ⟨hall, -⟩ | ⟨_, _, _, _, _, _, _, _, hfail⟩
  · exact hall
  · exact absurd h hfail

end SendCall

/-! ### Runs of calls -/

/-- Where no call writes behind a torn frame, the bytes are whole frames and at
most one incomplete frame. -/
theorem frames_of_pairwise {calls : List (SendCall φ)}
    (h : calls.Pairwise fun c c' => c.result ≠ .ok () → c.written ≠ [] → c'.written = []) :
    ∃ (frames : List (List UInt8)) (rest : List UInt8),
      calls.flatMap SendCall.written = frames.flatten ++ rest ∧
      frames.Sublist (calls.map SendCall.frame) ∧
      (rest = [] ∨ ∃ c ∈ calls, rest <+: c.frame ∧ rest ≠ c.frame) := by
  induction calls with
  | nil => exact ⟨[], [], rfl, List.Sublist.refl _, .inl rfl⟩
  | cons c calls ih =>
      obtain ⟨hc, hcalls⟩ := List.pairwise_cons.mp h
      obtain ⟨frames, rest, hbytes, hframes, hrest⟩ := ih hcalls
      have hrest' : rest = [] ∨ ∃ c' ∈ c :: calls, rest <+: c'.frame ∧ rest ≠ c'.frame :=
        hrest.imp_right fun ⟨c', hc', hpart⟩ => ⟨c', List.mem_cons_of_mem c hc', hpart⟩
      rw [List.flatMap_cons, List.map_cons, hbytes]
      by_cases hok : c.result = .ok ()
      · refine ⟨c.frame :: frames, rest, ?_, hframes.cons_cons _, hrest'⟩
        rw [SendCall.written_of_ok hok, List.flatten_cons, List.append_assoc]
      · by_cases hnone : c.written = []
        · exact ⟨frames, rest, by rw [hnone, List.nil_append], hframes.cons _, hrest'⟩
        · -- the torn frame is the last that the peer gets
          refine ⟨[], c.written, ?_, List.nil_sublist _,
            .inr ⟨c, List.mem_cons_self, c.written_prefix hok⟩⟩
          have hnothing : calls.flatMap SendCall.written = [] :=
            List.flatMap_eq_nil_iff.mpr fun c' hc' => hc c' hc' hok hnone
          rw [← hbytes, hnothing, List.append_nil]
          rfl

/-- The framing survives exactly if behind a call that the kernel cut every
other call is blocked. -/
theorem keepsFraming_iff (calls : List (SendCall φ)) :
    KeepsFraming calls ↔ calls.Pairwise fun c c' => c.Cut → c'.Blocked := by
  have hiff : ∀ c c' : SendCall φ, (c.Cut → c'.Blocked) ↔
      (c.result ≠ .ok () → c.written ≠ [] → c'.written = []) := by
    intro c c'
    rw [SendCall.cut_iff, SendCall.blocked_iff, and_imp]
  simp only [hiff]
  constructor
  · exact fun h => h.untorn
  · intro h
    refine ⟨fun k => ?_, h⟩
    obtain ⟨frames, rest, hbytes, hframes, hrest⟩ :=
      frames_of_pairwise (h.sublist (List.take_sublist k calls))
    refine ⟨frames, rest, hbytes, hframes.trans ((List.take_sublist k calls).map _), ?_⟩
    exact hrest.imp_right fun ⟨c, hc, hpart⟩ => ⟨c, List.mem_of_mem_take hc, hpart⟩

/-- Two calls of one byte each: the first gets three bytes of its frame out. -/
def tornCalls : List (SendCall Nat) :=
  [⟨[1], [], [.took 3, .failed]⟩, ⟨[2], [], []⟩]

/-- The second frame goes behind the torn one. -/
theorem tornCalls_torn : ¬ KeepsFraming tornCalls := fun h => absurd h.untorn (by decide)

end MojoRs.Ipcz
