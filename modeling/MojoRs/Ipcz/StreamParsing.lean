/-
MojoRs/Ipcz/StreamParsing.lean

Parsing a whole stream (`parse_stream` of `wire.rs`).  A frame begins with its
header: the header size, the number of handles, and the size of the frame; the
eight bytes of the creation time are not looked at.

The size that a frame declares is the number of bytes that it takes up, and it
is at least that of the header, so that the loop moves on with every frame and
leaves out nothing: `parseChannelMessage_framing`, from which the rest follows
for all streams of frames.

Main result: `parse_stream_exact`.
-/
import MojoRs.Ipcz.Channel
import MojoRs.Lib.Frames

namespace MojoRs.Ipcz

open Lib

/-- A parsed channel message. -/
structure ChannelMessage where
  numHandles : UInt16
  payload : List UInt8
  deriving DecidableEq, Repr

/-- Parse one channel message from the start of `stream`, with the number of
bytes consumed. -/
def parseChannelMessage (stream : List UInt8) : Except WireError (ChannelMessage × Nat) :=
  if stream.length < ipczHeaderSize then .error .shortChannelHeader
  else
    let size := getU16 stream 0
    if size ≠ UInt16.ofNat ipczHeaderSize then .error (.unknownChannelHeaderSize size)
    else
      let numHandles := getU16 stream 2
      let numBytes := (getU32 stream 4).toNat
      if numBytes < ipczHeaderSize then
        .error (.badChannelMessageSize (UInt32.ofNat numBytes))
      else if stream.length < numBytes then .error .truncatedMessage
      else .ok (⟨numHandles, (stream.take numBytes).drop ipczHeaderSize⟩, numBytes)

/-- Parse all channel messages of a stream.  Every message takes up a byte at
least, so this is enough fuel. -/
def parseStream (stream : List UInt8) : Option (Except WireError (List ChannelMessage)) :=
  parseAll parseChannelMessage (stream.length + 1) stream 0 []

/-! ### Frames -/

/-- A frame and the message in it. -/
structure IsFrame (frame : List UInt8) (m : ChannelMessage) : Prop where
  complete : ipczHeaderSize ≤ frame.length
  headerSize : readLE frame 0 2 = ipczHeaderSize
  numHandles : readLE frame 2 2 = m.numHandles.toNat
  numBytes : readLE frame 4 4 = frame.length
  payload : frame.drop ipczHeaderSize = m.payload

theorem toNat_getU16 (bs : List UInt8) (pos : Nat) : (getU16 bs pos).toNat = readLE bs pos 2 :=
  UInt16.toNat_ofNat_of_lt' (readLE_lt bs pos 2)

theorem toNat_getU32 (bs : List UInt8) (pos : Nat) : (getU32 bs pos).toNat = readLE bs pos 4 :=
  UInt32.toNat_ofNat_of_lt' (readLE_lt bs pos 4)

/-- A number of the header is read from the frame alone. -/
theorem readLE_front {frame : List UInt8} (rest : List UInt8) {pos w : Nat}
    (h : pos + w ≤ frame.length) : readLE (frame ++ rest) pos w = readLE frame pos w := by
  rw [← readLE_take h, List.take_left]

theorem length_encodeChannelMessage (payload : List UInt8) (numHandles : UInt16) :
    (encodeChannelMessage payload numHandles).length = ipczHeaderSize + payload.length := by
  simp only [encodeChannelMessage, encodeChannelHeader, ipczHeaderSize, List.length_append,
    length_toLE]

/-- A frame below `2 ^ 32` bytes is well formed. -/
theorem isFrame_encode {m : ChannelMessage} (h : ipczHeaderSize + m.payload.length < 2 ^ 32) :
    IsFrame (encodeChannelMessage m.payload m.numHandles) m := by
  have hlen := length_encodeChannelMessage m.payload m.numHandles
  have htotal : (UInt32.ofNat (ipczHeaderSize + m.payload.length)).toNat =
      ipczHeaderSize + m.payload.length := UInt32.toNat_ofNat_of_lt' h
  have hframe : encodeChannelMessage m.payload m.numHandles =
      toLE 2 ipczHeaderSize ++ (toLE 2 m.numHandles.toNat ++
        (toLE 4 (ipczHeaderSize + m.payload.length) ++ (toLE 8 0 ++ m.payload))) := by
    simp only [encodeChannelMessage, encodeChannelHeader, htotal, List.append_assoc]
  refine ⟨?_, ?_, ?_, ?_, ?_⟩
  · rw [hlen]
    exact Nat.le_add_right _ _
  · rw [hframe]
    exact readLE_append [] _ (by decide)
  · rw [hframe]
    exact readLE_append (toLE 2 ipczHeaderSize) _ m.numHandles.toNat_lt
  · rw [hlen, hframe, ← List.append_assoc (toLE 2 ipczHeaderSize)]
    exact readLE_append (toLE 2 ipczHeaderSize ++ toLE 2 m.numHandles.toNat) _ h
  · have hheader : (encodeChannelHeader m.payload.length m.numHandles).length =
        ipczHeaderSize := by
      simp [encodeChannelHeader, ipczHeaderSize]
    rw [encodeChannelMessage, List.drop_left' hheader]

theorem parseChannelMessage_sound {stream : List UInt8} {m : ChannelMessage} {consumed : Nat}
    (h : parseChannelMessage stream = .ok (m, consumed)) :
    ∃ frame rest, stream = frame ++ rest ∧ frame.length = consumed ∧ IsFrame frame m := by
  unfold parseChannelMessage at h
  split at h
  · cases h
  dsimp only at h
  split at h
  · cases h
  rename_i hlong hsize
  split at h
  · cases h
  split at h
  · cases h
  rename_i hheader hfits
  obtain ⟨rfl, rfl⟩ := Prod.mk.inj (Except.ok.inj h)
  have hlen : (stream.take (getU32 stream 4).toNat).length = (getU32 stream 4).toNat :=
    List.length_take_of_le (Nat.not_lt.mp hfits)
  have hmin : 16 ≤ (getU32 stream 4).toNat := Nat.not_lt.mp hheader
  refine ⟨stream.take (getU32 stream 4).toNat, stream.drop (getU32 stream 4).toNat,
    (List.take_append_drop _ _).symm, hlen, hlen.symm ▸ hmin, ?_, ?_, ?_, rfl⟩
  · rw [readLE_take (by omega), ← toNat_getU16, not_not.mp hsize]
    rfl
  · rw [readLE_take (by omega), toNat_getU16]
  · rw [readLE_take (by omega), hlen, toNat_getU32]

theorem IsFrame.parse {frame : List UInt8} {m : ChannelMessage} (h : IsFrame frame m)
    (rest : List UInt8) : parseChannelMessage (frame ++ rest) = .ok (m, frame.length) := by
  obtain ⟨hlong, hsize, hhandles, hbytes, hpayload⟩ := h
  have hmin : 16 ≤ frame.length := hlong
  have hgetSize : getU16 (frame ++ rest) 0 = UInt16.ofNat ipczHeaderSize := by
    rw [getU16, readLE_front rest (by omega), hsize]
  have hgetHandles : getU16 (frame ++ rest) 2 = m.numHandles := by
    rw [getU16, readLE_front rest (by omega), hhandles, UInt16.ofNat_toNat]
  have hgetBytes : (getU32 (frame ++ rest) 4).toNat = frame.length := by
    rw [toNat_getU32, readLE_front rest (by omega), hbytes]
  have hlen : (frame ++ rest).length = frame.length + rest.length := List.length_append
  simp only [parseChannelMessage, hgetSize, hgetHandles, hgetBytes]
  rw [if_neg (by omega), if_neg (not_not.mpr rfl), if_neg (Nat.not_lt.mpr hlong),
    if_neg (by omega), List.take_left, hpayload]

/-- The parser takes exactly the frames. -/
theorem parseChannelMessage_framing : Framing parseChannelMessage IsFrame where
  sound := parseChannelMessage_sound
  complete := IsFrame.parse
  ne_nil h := List.length_pos_iff.mp (Nat.lt_of_lt_of_le (by decide) h.complete)

/-- Encoded messages are read back; what is accepted is a concatenation of
frames, to its last byte; and the loop comes to an end on every stream. -/
theorem parse_stream_exact :
    (∀ messages : List ChannelMessage,
      (∀ m ∈ messages, ipczHeaderSize + m.payload.length < 2 ^ 32) →
        parseStream (messages.flatMap fun m => encodeChannelMessage m.payload m.numHandles) =
          some (.ok messages)) ∧
    (∀ stream messages, parseStream stream = some (.ok messages) ↔
      ∃ frames : List (List UInt8), stream = frames.flatten ∧
        List.Forall₂ IsFrame frames messages) ∧
    ∀ stream, ∃ r, ∀ fuel, stream.length < fuel →
      parseAll parseChannelMessage fuel stream 0 [] = some r := by
  have haccept : ∀ stream messages, parseStream stream = some (.ok messages) ↔
      Lib.Framed IsFrame stream messages := fun stream _ =>
    parseChannelMessage_framing.parseAll_ok_iff (Nat.lt_succ_self stream.length)
  refine ⟨fun messages hfit => ?_, haccept, fun stream => ?_⟩
  · exact (haccept _ messages).mpr (framed_flatMap fun m hm => isFrame_encode (hfit m hm))
  · exact parseChannelMessage_framing.parseAll_ends stream 0 []

end MojoRs.Ipcz
