/-
MojoRs/Ipcz/MessageLayout.lean

What the message builder lays down, as the decoder finds it.  A payload is the
header, the parameters and the arrays one after the other, and the decoder
reads an array that stands at the offset it is given.

Main results:
* `decodeMessage_build` — the decoder finds the header and the parameters;
* `readArray_append` — it reads an array where it was put;
* `appendParams_build`, `appendArray_eq` — what the builder puts there.
-/
import MojoRs.Ipcz.Encoders

namespace MojoRs.Ipcz

open Lib

theorem le_align8 (n : Nat) : n ≤ align8 n := by
  unfold align8
  omega

theorem eight_dvd_align8 (n : Nat) : align8 n % 8 = 0 := Nat.mul_mod_left _ _

/-! ### Parameters and arrays -/

/-- The parameters behind their struct header. -/
def paramsBytes (fields : List UInt8) : List UInt8 :=
  leU32 (UInt32.ofNat (align8 (8 + fields.length))) ++ (leU32 0 ++
    (fields ++ padding (align8 (8 + fields.length)) fields.length))

/-- An array behind its header. -/
def arrayBytes (elements : List UInt8) (numElements : UInt32) : List UInt8 :=
  leU32 (UInt32.ofNat (align8 (8 + elements.length))) ++ (leU32 numElements ++
    (elements ++ padding (align8 (8 + elements.length)) elements.length))

@[simp] theorem length_padding (padded len : Nat) :
    (padding padded len).length = padded - 8 - len := List.length_replicate

@[simp] theorem length_paramsBytes (fields : List UInt8) :
    (paramsBytes fields).length = align8 (8 + fields.length) := by
  have hle := le_align8 (8 + fields.length)
  simp only [paramsBytes, List.length_append, length_leU32, length_padding]
  omega

@[simp] theorem length_arrayBytes (elements : List UInt8) (n : UInt32) :
    (arrayBytes elements n).length = align8 (8 + elements.length) := by
  have hle := le_align8 (8 + elements.length)
  simp only [arrayBytes, List.length_append, length_leU32, length_padding]
  omega

theorem toNat_ofNat_of_lt {n : Nat} (h : n < 2 ^ 32) : (UInt32.ofNat n).toNat = n := by
  rw [UInt32.toNat_ofNat']
  exact Nat.mod_eq_of_lt h

/-- An array is read where it was put. -/
theorem readArray_append {pre post elements : List UInt8} {off n : UInt32} {elementSize : Nat}
    (hoff : off.toNat = pre.length) (hpos : 0 < pre.length)
    (hcount : n.toNat * elementSize = elements.length)
    (hfit : align8 (8 + elements.length) < 2 ^ 32) :
    readArray (pre ++ (arrayBytes elements n ++ post)) off elementSize = .ok elements := by
  have hne : off ≠ 0 := fun h => by
    rw [h] at hoff
    exact absurd hoff (Nat.ne_of_lt hpos)
  have hle := le_align8 (8 + elements.length)
  have hlen : (arrayBytes elements n ++ post).length =
      align8 (8 + elements.length) + post.length := by
    rw [List.length_append, length_arrayBytes]
  have hbytes : (getU32 (arrayBytes elements n ++ post) 0).toNat = align8 (8 + elements.length) := by
    rw [arrayBytes, List.append_assoc, getU32_leU32, toNat_ofNat_of_lt hfit]
  have helements : getU32 (arrayBytes elements n ++ post) 4 = n := by
    rw [arrayBytes, List.append_assoc, getU32_skip (Nat.le_of_eq (length_leU32 _)), length_leU32,
      Nat.sub_self, List.append_assoc, getU32_leU32]
  have hdata : ((arrayBytes elements n ++ post).drop 8).take elements.length = elements := by
    have hhead : arrayBytes elements n ++ post =
        (leU32 (UInt32.ofNat (align8 (8 + elements.length))) ++ leU32 n) ++ (elements ++
          (padding (align8 (8 + elements.length)) elements.length ++ post)) := by
      rw [arrayBytes]
      simp only [List.append_assoc]
    rw [hhead, List.drop_left' (by rw [List.length_append, length_leU32, length_leU32]),
      List.take_left]
  rw [readArray, if_neg hne, if_neg (by rw [hoff, List.length_append]; omega), hoff,
    List.drop_left, if_neg (by omega), hbytes, helements, hcount,
    if_neg (by have := eight_dvd_align8 (8 + elements.length); omega), if_neg (by omega), hdata]

/-- Whatever is read at an offset lies behind it. -/
theorem readArray_length {payload data : List UInt8} {off : UInt32} {elementSize : Nat}
    (h : readArray payload off elementSize = .ok data) (hoff : off ≠ 0) :
    off.toNat + 8 + data.length ≤ payload.length := by
  rw [readArray, if_neg hoff] at h
  split at h
  · nomatch h
  rename_i hlt
  dsimp only at h
  split at h
  · nomatch h
  rename_i hshort
  split at h
  · nomatch h
  rename_i hbytes
  split at h
  · nomatch h
  rename_i hwant
  obtain rfl := Except.ok.inj h
  rw [List.length_drop] at hshort hbytes
  rw [List.length_take]
  omega

/-! ### Payloads -/

/-- The header as it is written. -/
def MessageHeader.bytes (hdr : MessageHeader) : List UInt8 :=
  [hdr.size, hdr.version, hdr.messageId, 0, 0, 0, 0, 0] ++
    (leU64 hdr.nodeSequenceNumber ++ (leU32 hdr.driverObjectDataArray ++ leU32 0))

@[simp] theorem length_headerBytes (hdr : MessageHeader) :
    hdr.bytes.length = messageHeaderSize := by
  simp only [MessageHeader.bytes, List.length_append, length_leU64, length_leU32, List.length_cons,
    List.length_nil]
  rfl

theorem build_eq (b : MessageBuilder) : b.build = b.header.bytes ++ b.body := by
  simp only [MessageBuilder.build, MessageHeader.bytes, List.append_assoc]

theorem setMessageSequenceNumber_build (b : MessageBuilder) (seq : UInt64) :
    setMessageSequenceNumber b.build seq =
      { b.header with nodeSequenceNumber := seq }.bytes ++ b.body := by
  have htake : b.build.take 8 = [b.header.size, b.header.version, b.header.messageId, 0, 0, 0, 0, 0] :=
    List.take_left' rfl
  have hdrop : b.build.drop 16 =
      leU32 b.header.driverObjectDataArray ++ (leU32 0 ++ b.body) := by
    rw [MessageBuilder.build, ← List.append_assoc]
    exact List.drop_left' (by rw [List.length_append, length_leU64]; rfl)
  rw [setMessageSequenceNumber, htake, hdrop]
  simp only [MessageHeader.bytes, List.append_assoc]

/-- A header is parsed as it was written. -/
theorem parseMessageHeader_bytes {hdr : MessageHeader} (body : List UInt8)
    (hsize : hdr.size = 24) : parseMessageHeader (hdr.bytes ++ body) = .ok hdr := by
  have hlen : ¬(hdr.bytes ++ body).length < messageHeaderSize := by
    rw [List.length_append, length_headerBytes]
    omega
  have hseq : getU64 (hdr.bytes ++ body) 8 = hdr.nodeSequenceNumber := by
    rw [MessageHeader.bytes, List.append_assoc, getU64_skip (Nat.le_refl 8), List.append_assoc]
    exact getU64_leU64 _ _
  have harr : getU32 (hdr.bytes ++ body) 16 = hdr.driverObjectDataArray := by
    rw [MessageHeader.bytes, List.append_assoc, getU32_skip (Nat.le_add_left 8 8),
      List.append_assoc]
    show getU32 (leU64 _ ++ _) 8 = _
    rw [getU32_skip (Nat.le_of_eq (length_leU64 _)), length_leU64, List.append_assoc]
    exact getU32_leU32 _ _
  have hsize' : ¬(hdr.bytes ++ body).getD 0 0 ≠ UInt8.ofNat messageHeaderSize :=
    fun hne => hne hsize
  rw [parseMessageHeader, if_neg hlen]
  show (if (hdr.bytes ++ body).getD 0 0 ≠ UInt8.ofNat messageHeaderSize then _ else _) = _
  rw [if_neg hsize', hseq, harr]
  rfl

/-- The parameters `p` are the bytes `bs`, up to the size `len`. -/
structure Params.Holds (p : Params) (bs : List UInt8) (len : Nat) : Prop where
  payload : ∃ pre, p.payload = pre ++ bs ∧ pre.length = p.fields
  fieldsEnd : p.fieldsEnd = p.fields + len

namespace Params.Holds

variable {p : Params} {bs : List UInt8} {len off : Nat} (h : p.Holds bs len)
include h

theorem u32 (hoff : off + 4 ≤ len) : p.u32 off = .ok (getU32 bs off) := by
  obtain ⟨⟨pre, hpayload, hpre⟩, hend⟩ := h
  rw [Params.u32, if_neg (by omega), hpayload, getU32_skip (by omega), hpre,
    Nat.add_sub_cancel_left]

theorem u64 (hoff : off + 8 ≤ len) : p.u64 off = .ok (getU64 bs off) := by
  obtain ⟨⟨pre, hpayload, hpre⟩, hend⟩ := h
  rw [Params.u64, if_neg (by omega), hpayload, getU64_skip (by omega), hpre,
    Nat.add_sub_cancel_left]

theorem node (hoff : off + 16 ≤ len) :
    p.node off = .ok ⟨getU64 bs off, getU64 bs (off + 8)⟩ := by
  rw [Params.node, h.u64 (by omega), h.u64 (by omega)]
  rfl

theorem frag (hoff : off + 16 ≤ len) :
    p.frag off = .ok ⟨getU64 bs off, getU32 bs (off + 8), getU32 bs (off + 12)⟩ := by
  rw [Params.frag, h.u64 (by omega), h.u32 (by omega), h.u32 (by omega)]
  rfl

theorem require (hoff : off ≤ len) : p.require off = .ok () := by
  obtain ⟨-, hend⟩ := h
  exact if_neg (by omega)

end Params.Holds

/-- The decoder finds the header and the parameters. -/
theorem decodeMessage_build {hdr : MessageHeader} {fields rest : List UInt8} {numFds : Nat}
    (hsize : hdr.size = 24) (hfit : align8 (8 + fields.length) < 2 ^ 32) :
    ∃ p, p.payload = hdr.bytes ++ (paramsBytes fields ++ rest) ∧
      p.Holds (fields ++ (padding (align8 (8 + fields.length)) fields.length ++ rest))
        (align8 (8 + fields.length) - 8) ∧
      decodeMessage (hdr.bytes ++ (paramsBytes fields ++ rest)) numFds =
        decodeParams hdr p numFds := by
  have hle := le_align8 (8 + fields.length)
  have hpo : hdr.size.toNat = 24 := congrArg UInt8.toNat hsize
  have hdrop : (hdr.bytes ++ (paramsBytes fields ++ rest)).drop 24 = paramsBytes fields ++ rest :=
    List.drop_left' (length_headerBytes hdr)
  have hparams : (getU32 (paramsBytes fields ++ rest) 0).toNat = align8 (8 + fields.length) := by
    rw [paramsBytes, List.append_assoc, getU32_leU32, toNat_ofNat_of_lt hfit]
  have hlen : (paramsBytes fields ++ rest).length = align8 (8 + fields.length) + rest.length := by
    rw [List.length_append, length_paramsBytes]
  refine ⟨⟨hdr.bytes ++ (paramsBytes fields ++ rest), 32, 32 + align8 (8 + fields.length) - 8⟩,
    rfl, ⟨⟨hdr.bytes ++ (leU32 (UInt32.ofNat (align8 (8 + fields.length))) ++ leU32 0), ?_, ?_⟩,
      ?_⟩, ?_⟩
  · simp only [paramsBytes, List.append_assoc]
  · simp only [List.length_append, length_headerBytes, length_leU32]
    rfl
  · show 32 + align8 (8 + fields.length) - 8 = 32 + (align8 (8 + fields.length) - 8)
    omega
  · rw [decodeMessage, parseMessageHeader_bytes _ hsize]
    show (if ((hdr.bytes ++ (paramsBytes fields ++ rest)).drop hdr.size.toNat).length < 8
      then _ else _) = _
    rw [hpo, hdrop, if_neg (by omega), hparams, if_neg (by omega)]

/-! ### The builder -/

theorem appendParams_eq (id : UInt8) (fields : List UInt8) :
    (MessageBuilder.new id).appendParams fields =
      ⟨(MessageBuilder.new id).header, paramsBytes fields⟩ := rfl

theorem appendArray_eq {b : MessageBuilder} {elements : List UInt8} {n : UInt32}
    (h : elements ≠ []) :
    b.appendArray elements n =
      (⟨b.header, b.body ++ arrayBytes elements n⟩, UInt32.ofNat b.payloadLen) := by
  rw [MessageBuilder.appendArray, if_neg (by rwa [List.isEmpty_iff])]
  rfl

end MojoRs.Ipcz
