/-
MojoRs/Ipcz/RouterDescriptors.lean

Router descriptors on the wire.  Routing passes descriptors as values; in between
a descriptor is an array element of 96 bytes (`RouterDescriptor::encode` and
`decode`), of which seven bytes and six bits are reserved.  Every 96 bytes decode,
and to the one descriptor whose encoding is these bytes without the reserved
ones.

Main results: `descriptors_taken`, which descriptors a receiver finds in a
parcel, and `transmitted_returns`: it finds those that were sent.
-/
import MojoRs.Ipcz.ParcelCodec
import MojoRs.Ipcz.RouterFlush

namespace MojoRs.Ipcz

open Lib

/-! ### The codec of a descriptor -/

namespace RouterDescriptor

/-- `RouterDescriptor::SIZE`. -/
def size : Nat := 96

/-- The flags of byte 64. -/
def flags (d : RouterDescriptor) : UInt8 :=
  let flags := if d.peerClosed then 0 ||| 1 else 0
  if d.proxyAlreadyBypassed then flags ||| 2 else flags

/-- `RouterDescriptor::encode`. -/
def encode (d : RouterDescriptor) : List UInt8 :=
  leU64 (.ofNat d.closedPeerSequenceLength) ++ (leU64 (.ofNat d.newSublink) ++
    (d.newLinkStateFragment.bytes ++ (leU64 (.ofNat d.newDecayingSublink) ++
      (leU64 (.ofNat d.nextOutgoingSequenceNumber) ++
        (leU64 (.ofNat d.nextIncomingSequenceNumber) ++
          (leU64 (.ofNat d.decayingIncomingSequenceLength) ++
            ([d.flags, 0, 0, 0, 0, 0, 0, 0] ++
              (d.proxyPeerNodeName.bytes ++ leU64 (.ofNat d.proxyPeerSublink)))))))))

/-- The fields of 96 bytes. -/
def ofBytes (b : List UInt8) : RouterDescriptor where
  closedPeerSequenceLength := (getU64 b 0).toNat
  newSublink := (getU64 b 8).toNat
  newLinkStateFragment := ⟨getU64 b 16, getU32 b 24, getU32 b 28⟩
  newDecayingSublink := (getU64 b 32).toNat
  nextOutgoingSequenceNumber := (getU64 b 40).toNat
  nextIncomingSequenceNumber := (getU64 b 48).toNat
  decayingIncomingSequenceLength := (getU64 b 56).toNat
  peerClosed := b.getD 64 0 &&& 1 != 0
  proxyAlreadyBypassed := b.getD 64 0 &&& 2 != 0
  proxyPeerNodeName := ⟨getU64 b 72, getU64 b 80⟩
  proxyPeerSublink := (getU64 b 88).toNat

/-- `RouterDescriptor::decode`. -/
def decode (b : List UInt8) : Except WireError RouterDescriptor :=
  if b.length ≠ size then .error .badArray else .ok (ofBytes b)

/-- The numbers fit the 64 bits that they have in the program. -/
structure Fits (d : RouterDescriptor) : Prop where
  closedPeerSequenceLength : d.closedPeerSequenceLength < 2 ^ 64
  newSublink : d.newSublink < 2 ^ 64
  newDecayingSublink : d.newDecayingSublink < 2 ^ 64
  nextOutgoingSequenceNumber : d.nextOutgoingSequenceNumber < 2 ^ 64
  nextIncomingSequenceNumber : d.nextIncomingSequenceNumber < 2 ^ 64
  decayingIncomingSequenceLength : d.decayingIncomingSequenceLength < 2 ^ 64
  proxyPeerSublink : d.proxyPeerSublink < 2 ^ 64

/-- Bytes of a descriptor with the reserved ones cleared. -/
def clearReserved (b : List UInt8) : List UInt8 :=
  b.take 64 ++ ([b.getD 64 0 &&& 3, 0, 0, 0, 0, 0, 0, 0] ++ b.drop 72)

theorem fits_ofBytes (b : List UInt8) : (ofBytes b).Fits where
  closedPeerSequenceLength := UInt64.toNat_lt _
  newSublink := UInt64.toNat_lt _
  newDecayingSublink := UInt64.toNat_lt _
  nextOutgoingSequenceNumber := UInt64.toNat_lt _
  nextIncomingSequenceNumber := UInt64.toNat_lt _
  decayingIncomingSequenceLength := UInt64.toNat_lt _
  proxyPeerSublink := UInt64.toNat_lt _

theorem length_encode (d : RouterDescriptor) : d.encode.length = size := by
  simp [encode, size, FragmentDescriptor.bytes, NodeName.bytes]

/-- The two flags come back. -/
theorem flags_bits (d : RouterDescriptor) :
    (d.flags &&& 1 != 0) = d.peerClosed ∧ (d.flags &&& 2 != 0) = d.proxyAlreadyBypassed := by
  unfold flags
  cases d.peerClosed <;> cases d.proxyAlreadyBypassed <;> exact ⟨rfl, rfl⟩

/-- The flags of a byte are its two low bits. -/
theorem flags_ofBytes (b : List UInt8) : (ofBytes b).flags = b.getD 64 0 &&& 3 := by
  show (let flags := if (b.getD 64 0 &&& 1 != 0) = true then (0 : UInt8) ||| 1 else 0
    if (b.getD 64 0 &&& 2 != 0) = true then flags ||| 2 else flags) = _
  generalize b.getD 64 0 = x
  have hall : ∀ n : Fin 256, (let x := UInt8.ofNat n.val
      let flags := if (x &&& 1 != 0) = true then (0 : UInt8) ||| 1 else 0
      if (x &&& 2 != 0) = true then flags ||| 2 else flags) = UInt8.ofNat n.val &&& 3 := by
    decide +kernel
  have hx := hall ⟨x.toNat, x.toNat_lt⟩
  simpa using hx

section RoundTrip

attribute [local simp] getU64_skip getU32_skip FragmentDescriptor.bytes NodeName.bytes

/-- The fields of a descriptor are read where they were written. -/
theorem ofBytes_encode {d : RouterDescriptor} (h : d.Fits) : ofBytes d.encode = d := by
  have hflags : d.encode.getD 64 0 = d.flags := by
    simp [encode]
  have hskip : ∀ bs k, 8 ≤ k →
      getU64 (d.flags :: 0 :: 0 :: 0 :: 0 :: 0 :: 0 :: 0 :: bs) k = getU64 bs (k - 8) :=
    fun bs k hk => @getU64_skip [d.flags, 0, 0, 0, 0, 0, 0, 0] bs k hk
  obtain ⟨hpeerClosed, hbypassed⟩ := d.flags_bits
  obtain ⟨closed, sublink, fragment, decaying, outgoing, incoming, decayingLen, peerClosed,
    bypassed, name, proxy⟩ := d
  rw [ofBytes, hflags, hpeerClosed, hbypassed, RouterDescriptor.mk.injEq]
  refine ⟨?_, ?_, ?_, ?_, ?_, ?_, ?_, rfl, rfl, ?_, ?_⟩
  · simpa [encode] using Nat.mod_eq_of_lt h.closedPeerSequenceLength
  · simpa [encode] using Nat.mod_eq_of_lt h.newSublink
  · simp [encode]
  · simpa [encode] using Nat.mod_eq_of_lt h.newDecayingSublink
  · simpa [encode] using Nat.mod_eq_of_lt h.nextOutgoingSequenceNumber
  · simpa [encode] using Nat.mod_eq_of_lt h.nextIncomingSequenceNumber
  · simpa [encode] using Nat.mod_eq_of_lt h.decayingIncomingSequenceLength
  · simp [encode, hskip]
  · have hlast := getU64_leU64 (.ofNat proxy) []
    rw [List.append_nil] at hlast
    simpa [encode, hskip, hlast] using Nat.mod_eq_of_lt h.proxyPeerSublink

end RoundTrip

/-- Equal bytes come from equal descriptors. -/
theorem encode_inj {d d' : RouterDescriptor} (h : d.Fits) (h' : d'.Fits)
    (heq : d.encode = d'.encode) : d = d' := by
  rw [← ofBytes_encode h, heq, ofBytes_encode h']

/-- What is read is written back, the reserved bits apart. -/
theorem encode_ofBytes {b : List UInt8} (h : b.length = size) :
    (ofBytes b).encode = clearReserved b := by
  have hlen : b.length = 96 := h
  have hword (pos : Nat) (hpos : pos + 8 ≤ 96) :
      leU64 (getU64 b pos) = (b.drop pos).take 8 := leU64_getU64 (by rwa [hlen])
  have hhalf (pos : Nat) (hpos : pos + 4 ≤ 96) :
      leU32 (getU32 b pos) = (b.drop pos).take 4 := leU32_getU32 (by rwa [hlen])
  have hsplit (i m n : Nat) : (b.drop i).take (m + n) = (b.drop i).take m ++
      (b.drop (i + m)).take n := by
    rw [List.take_add, List.drop_drop]
  -- the fields in front of the flags, and those behind the reserved bytes
  have hfront : b.take 64 = (b.drop 0).take 8 ++ ((b.drop 8).take 8 ++ ((b.drop 16).take 8 ++
      ((b.drop 24).take 4 ++ ((b.drop 28).take 4 ++ ((b.drop 32).take 8 ++ ((b.drop 40).take 8 ++
        ((b.drop 48).take 8 ++ (b.drop 56).take 8))))))) := by
    rw [← hsplit 48 8 8, ← hsplit 40 8 16, ← hsplit 32 8 24, ← hsplit 28 4 32, ← hsplit 24 4 36,
      ← hsplit 16 8 40, ← hsplit 8 8 48, ← hsplit 0 8 56]
    rfl
  have hback : b.drop 72 = (b.drop 72).take 8 ++ ((b.drop 80).take 8 ++ (b.drop 88).take 8) := by
    rw [← hsplit 80 8 8, ← hsplit 72 8 16, List.take_of_length_le]
    rw [List.length_drop, hlen]
  rw [encode, clearReserved, flags_ofBytes, hfront, hback]
  simp only [ofBytes, UInt64.ofNat_toNat, FragmentDescriptor.bytes, NodeName.bytes,
    List.append_assoc]
  rw [hword 0 (by decide), hword 8 (by decide), hword 16 (by decide), hword 32 (by decide),
    hword 40 (by decide), hword 48 (by decide), hword 56 (by decide), hword 72 (by decide),
    hword 80 (by decide), hword 88 (by decide), hhalf 24 (by decide), hhalf 28 (by decide)]

/-- Bytes decode to a descriptor if and only if there are 96 of them, and it is the
one whose encoding they are, without the reserved ones. -/
theorem decode_eq_ok_iff (b : List UInt8) (d : RouterDescriptor) :
    decode b = .ok d ↔ b.length = size ∧ d.Fits ∧ d.encode = clearReserved b := by
  rw [decode]
  split_ifs with hlen
  · refine iff_of_false (by simp) ?_
    rintro ⟨hsize, -⟩
    exact hlen hsize
  · have hsize : b.length = size := not_not.mp hlen
    constructor
    · intro h
      rw [← Except.ok.inj h]
      exact ⟨hsize, fits_ofBytes b, encode_ofBytes hsize⟩
    · rintro ⟨-, hfits, hencode⟩
      rw [encode_inj (fits_ofBytes b) hfits ((encode_ofBytes hsize).trans hencode.symm)]

/-- A descriptor comes back. -/
theorem decode_encode {d : RouterDescriptor} (h : d.Fits) : decode d.encode = .ok d := by
  rw [decode, if_neg (not_not.mpr d.length_encode), ofBytes_encode h]

/-- There is nothing to clear in the bytes of a descriptor. -/
theorem clearReserved_encode {d : RouterDescriptor} (h : d.Fits) :
    clearReserved d.encode = d.encode :=
  ((decode_eq_ok_iff d.encode d).mp (decode_encode h)).2.2.symm

end RouterDescriptor

/-! ### The descriptors of a parcel -/

/-- What may be wrong with the descriptors of a parcel. -/
inductive DescriptorError
  | badParcel (m : String)
  | wire (e : WireError)
  deriving DecidableEq, Repr

/-- The descriptors of the chunks, or the first error. -/
def decodeDescriptors : List (List UInt8) → Except DescriptorError (List RouterDescriptor)
  | [] => .ok []
  | b :: bs => do
      let d ← (RouterDescriptor.decode b).mapError .wire
      let ds ← decodeDescriptors bs
      pure (d :: ds)

namespace AcceptParcel

/-- The descriptors that `deserialize_portals` takes out of a parcel. -/
def descriptors (p : AcceptParcel) : Except DescriptorError (List RouterDescriptor) :=
  if p.newRouters.length % RouterDescriptor.size ≠ 0 then
    .error (.badParcel "malformed new_routers array")
  else if p.newRouters.length / RouterDescriptor.size ≠ p.handleTypes.count handleTypePortal then
    .error (.badParcel "portal count mismatch")
  else decodeDescriptors (chunksExact RouterDescriptor.size p.newRouters)

/-- The parcel that routing acts on. -/
def message (p : AcceptParcel) : Except DescriptorError ParcelMessage := do
  let newRouters ← p.descriptors
  pure {
    sublink := p.sublink.toNat
    sequenceNumber := p.sequenceNumber.toNat
    subparcelIndex := p.subparcelIndex.toNat
    numSubparcels := p.numSubparcels.toNat
    parcelFragment := p.parcelFragment
    parcelData := p.parcelData
    handleTypes := p.handleTypes
    newRouters
    driverObjects := p.driverObjects }

end AcceptParcel

/-- Chunks of 96 bytes decode one by one, by induction on the chunks. -/
theorem decodeDescriptors_eq_ok_iff {bs : List (List UInt8)}
    (h : ∀ b ∈ bs, b.length = RouterDescriptor.size) (ds : List RouterDescriptor) :
    decodeDescriptors bs = .ok ds ↔
      ds.map RouterDescriptor.encode = bs.map RouterDescriptor.clearReserved ∧
        ∀ d ∈ ds, d.Fits := by
  induction bs generalizing ds with
  | nil =>
      cases ds with
      | nil => exact iff_of_true rfl ⟨rfl, by simp⟩
      | cons d ds => exact iff_of_false (by simp [decodeDescriptors]) (by simp)
  | cons b bs ih =>
      rw [List.forall_mem_cons] at h
      have hb : RouterDescriptor.decode b = .ok (.ofBytes b) := if_neg (not_not.mpr h.1)
      have hhead (d : RouterDescriptor) :
          RouterDescriptor.ofBytes b = d ↔ d.Fits ∧ d.encode = RouterDescriptor.clearReserved b := by
        have hd := RouterDescriptor.decode_eq_ok_iff b d
        rwa [hb, Except.ok.injEq, and_iff_right h.1] at hd
      have hcons : decodeDescriptors (b :: bs) =
          (decodeDescriptors bs).map (RouterDescriptor.ofBytes b :: ·) := by
        rw [decodeDescriptors, hb]
        cases decodeDescriptors bs <;> rfl
      rw [hcons]
      cases ds with
      | nil =>
          refine iff_of_false ?_ (by simp)
          cases decodeDescriptors bs <;> simp [Except.map]
      | cons d ds =>
          rw [List.map_cons, List.map_cons, List.cons_eq_cons, List.forall_mem_cons]
          have hrest : (decodeDescriptors bs).map (RouterDescriptor.ofBytes b :: ·) =
              .ok (d :: ds) ↔ RouterDescriptor.ofBytes b = d ∧ decodeDescriptors bs = .ok ds := by
            cases decodeDescriptors bs <;> simp [Except.map]
          rw [hrest, hhead, ih h.2]
          tauto

/-- The encodings of the descriptors make up the array, without the reserved bits. -/
theorem AcceptParcel.descriptors_eq_ok_iff (p : AcceptParcel) (ds : List RouterDescriptor) :
    p.descriptors = .ok ds ↔
      p.newRouters.length = RouterDescriptor.size * p.handleTypes.count handleTypePortal ∧
      (∀ d ∈ ds, d.Fits) ∧
      ds.map RouterDescriptor.encode =
        (chunksExact RouterDescriptor.size p.newRouters).map RouterDescriptor.clearReserved := by
  have hchunks := decodeDescriptors_eq_ok_iff
    (fun b hb => @length_of_mem_chunksExact _ _ p.newRouters b hb) ds
  rw [descriptors]
  split_ifs with hwhole hcount
  · refine iff_of_false (by simp) ?_
    rintro ⟨hlen, -⟩
    rw [hlen, Nat.mul_mod_right] at hwhole
    exact hwhole rfl
  · refine iff_of_false (by simp) ?_
    rintro ⟨hlen, -⟩
    rw [hlen, Nat.mul_div_cancel_left _ (by decide)] at hcount
    exact hcount rfl
  · have hdvd : RouterDescriptor.size ∣ p.newRouters.length :=
      Nat.dvd_of_mod_eq_zero (not_not.mp hwhole)
    have hlen : p.newRouters.length =
        RouterDescriptor.size * p.handleTypes.count handleTypePortal := by
      rw [← not_not.mp hcount, Nat.mul_div_cancel' hdvd]
    rw [hchunks, and_iff_right hlen, and_comm]

/-- Descriptors are taken out of a parcel if and only if its array has room for one
for each portal, and then they are the ones that the array spells. -/
theorem AcceptParcel.descriptors_taken (p : AcceptParcel) :
    ((∃ ds, p.descriptors = .ok ds) ↔
      p.newRouters.length = RouterDescriptor.size * p.handleTypes.count handleTypePortal) ∧
    ∀ ds, p.descriptors = .ok ds ↔
      p.newRouters.length = RouterDescriptor.size * p.handleTypes.count handleTypePortal ∧
      (∀ d ∈ ds, d.Fits) ∧
      ds.map RouterDescriptor.encode =
        (chunksExact RouterDescriptor.size p.newRouters).map RouterDescriptor.clearReserved := by
  refine ⟨⟨?_, fun hlen => ?_⟩, p.descriptors_eq_ok_iff⟩
  · rintro ⟨ds, h⟩
    exact ((p.descriptors_eq_ok_iff ds).mp h).1
  · refine ⟨(chunksExact RouterDescriptor.size p.newRouters).map .ofBytes,
      (p.descriptors_eq_ok_iff _).mpr ⟨hlen, ?_, ?_⟩⟩
    · intro d hd
      obtain ⟨b, -, rfl⟩ := List.mem_map.mp hd
      exact RouterDescriptor.fits_ofBytes b
    · rw [List.map_map]
      apply List.map_congr_left
      intro b hb
      exact RouterDescriptor.encode_ofBytes (length_of_mem_chunksExact hb)

/-- A parcel that routing encodes for a link, with a descriptor for each portal, is
the one that the receiver takes apart. -/
theorem parcelMessage_returns (sublink : Nat) (p : Parcel) (handleTypes : List UInt32)
    (newRouters : List RouterDescriptor) (hsublink : sublink < 2 ^ 64)
    (hsequence : p.sequenceNumber < 2 ^ 64) (hfits : ∀ d ∈ newRouters, d.Fits)
    (hportals : newRouters.length = handleTypes.count handleTypePortal)
    (hsmall : (encodeAcceptParcelFull (.ofNat sublink) (.ofNat p.sequenceNumber) p.fragment p.data
      handleTypes (newRouters.map RouterDescriptor.encode) []).length < 2 ^ 32) :
    ∃ q, decodeMessage (encodeAcceptParcelFull (.ofNat sublink) (.ofNat p.sequenceNumber)
        p.fragment p.data handleTypes (newRouters.map RouterDescriptor.encode) []) 0 =
          .ok (.acceptParcel q) ∧
      q.message = .ok (encodeParcel sublink p handleTypes newRouters) := by
  have hlen : ∀ r ∈ newRouters.map RouterDescriptor.encode, r.length = RouterDescriptor.size := by
    intro r hr
    obtain ⟨d, -, rfl⟩ := List.mem_map.mp hr
    exact d.length_encode
  refine ⟨_, (decode_acceptParcel _ _ _ _ _ _ [] hlen (by simpa using hsmall)).mpr
    ⟨by decide, by decide⟩, ?_⟩
  have hdescriptors : (sentParcel (.ofNat sublink) (.ofNat p.sequenceNumber) p.fragment p.data
      handleTypes (newRouters.map RouterDescriptor.encode) []).descriptors = .ok newRouters := by
    rw [AcceptParcel.descriptors_eq_ok_iff]
    refine ⟨?_, hfits, ?_⟩
    · show (newRouters.map RouterDescriptor.encode).flatten.length = _ * handleTypes.count _
      rw [length_flatten_of_forall hlen, List.length_map, hportals, Nat.mul_comm]
    · show _ = (chunksExact _ (newRouters.map RouterDescriptor.encode).flatten).map _
      rw [chunksExact_flatten (by decide) hlen, List.map_map]
      exact List.map_congr_left fun d hd => (RouterDescriptor.clearReserved_encode (hfits d hd)).symm
  rw [AcceptParcel.message, hdescriptors]
  have hsub : (UInt64.ofNat sublink).toNat = sublink := UInt64.toNat_ofNat_of_lt' hsublink
  have hseq : (UInt64.ofNat p.sequenceNumber).toNat = p.sequenceNumber :=
    UInt64.toNat_ofNat_of_lt' hsequence
  show Except.ok (ParcelMessage.mk (UInt64.ofNat sublink).toNat
    (UInt64.ofNat p.sequenceNumber).toNat 0 1 _ _ handleTypes newRouters []) = _
  rw [hsub, hseq]
  rfl

/-! ### What routing sends -/

/-- Routing sends a descriptor for each portal. -/
theorem serializeObjects_portals {info : NodeInfo} {linkId : Nat} {objects : List Object}
    {t t' : RouteTables} {handleTypes : List UInt32} {serialized : List (Nat × RouterDescriptor)}
    (h : (serializeObjects info linkId objects).run t = .ok (handleTypes, serialized) t') :
    serialized.length = handleTypes.count handleTypePortal := by
  induction objects generalizing t handleTypes serialized with
  | nil =>
      cases h
      rfl
  | cons object objects ih =>
      cases object with
      | fd fd => cases h
      | router rid =>
          obtain ⟨d, t₁, -, h⟩ := bind_eq_ok.mp h
          obtain ⟨⟨⟩, t₂, -, h⟩ := bind_eq_ok.mp h
          obtain ⟨⟨types, rest⟩, t₃, hrest, h⟩ := bind_eq_ok.mp h
          cases h
          rw [List.length_cons, List.count_cons_self, ih hrest]

/-- What `transmit_parcel` puts on a link is decoded and taken apart as the parcel
that routing passes on. -/
theorem transmitted_returns (info : NodeInfo) (link : Link) (p : Parcel) (t t' : RouteTables)
    (handleTypes : List UInt32) (serialized : List (Nat × RouterDescriptor))
    (h : (serializeObjects info link.linkId p.objects).run t = .ok (handleTypes, serialized) t')
    (hsublink : link.sublink < 2 ^ 64) (hsequence : p.sequenceNumber < 2 ^ 64)
    (hfits : ∀ d ∈ serialized.map (·.2), d.Fits)
    (hsmall : (encodeAcceptParcelFull (.ofNat link.sublink) (.ofNat p.sequenceNumber) p.fragment
      p.data handleTypes ((serialized.map (·.2)).map RouterDescriptor.encode) []).length < 2 ^ 32) :
    ∃ q, decodeMessage (encodeAcceptParcelFull (.ofNat link.sublink) (.ofNat p.sequenceNumber)
        p.fragment p.data handleTypes ((serialized.map (·.2)).map RouterDescriptor.encode) []) 0 =
          .ok (.acceptParcel q) ∧
      q.message = .ok (encodeParcel link.sublink p handleTypes (serialized.map (·.2))) := by
  have hportals : (serialized.map (·.2)).length = handleTypes.count handleTypePortal := by
    rw [List.length_map, serializeObjects_portals h]
  exact parcelMessage_returns _ _ _ _ hsublink hsequence hfits hportals hsmall

/-- A node with a router that is sent over the link to the broker. -/
def sendingTables : RouteTables :=
  RouteTables.fresh.setRouter 7 (.newTerminal (.remote linkIdBroker 3 .central .a none))

/-- A descriptor for sublink 12. -/
def sentDescriptor : RouterDescriptor := { RouterDescriptor.default with newSublink := 12 }

set_option maxRecDepth 2000 in
theorem length_sentPortal :
    (encodeAcceptParcelFull 1 5 none [8] [handleTypePortal]
      ([(7, sentDescriptor)].map (·.2) |>.map RouterDescriptor.encode) []).length = 232 := rfl

theorem transmitted_returns_portal :
    ∃ q, decodeMessage (encodeAcceptParcelFull 1 5 none [8] [handleTypePortal]
        ([(7, sentDescriptor)].map (·.2) |>.map RouterDescriptor.encode) []) 0 =
          .ok (.acceptParcel q) ∧
      q.message = .ok (encodeParcel 1 ⟨5, [8], [.router 7], none⟩ [handleTypePortal]
        [sentDescriptor]) := by
  have hfits : ∀ d ∈ [(7, sentDescriptor)].map (·.2), d.Fits := by
    intro d hd
    rw [List.mem_singleton.mp hd]
    constructor <;> decide
  refine transmitted_returns (.ofLinks [0]) (.remote linkIdBroker 1 .central .a none)
    ⟨5, [8], [.router 7], none⟩ sendingTables _ [handleTypePortal] [(7, sentDescriptor)] rfl
    (by decide) (by decide) hfits ?_
  show (encodeAcceptParcelFull 1 5 none [8] [handleTypePortal]
    ([(7, sentDescriptor)].map (·.2) |>.map RouterDescriptor.encode) []).length < 2 ^ 32
  rw [length_sentPortal]
  decide

end MojoRs.Ipcz
