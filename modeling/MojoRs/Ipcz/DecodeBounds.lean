/-
MojoRs/Ipcz/DecodeBounds.lean

What the decoder of node messages touches.  Every slice and index of its record
is in range, every sum fits and no difference goes below zero, whatever the
payload is.  And what it returns stands in the payload: a parameter within the
struct that the payload declares behind its header, the elements of an array
within the array that is declared at its offset, a driver object in an entry of
the array that the header names, and its data in an array of its own.

The readers are gone through one by one, each with what it returns (`Meets`);
the messages then only list their parameters and arrays.

Main results: `meets_accessParams`, `decode_in_bounds`.
-/
import MojoRs.Ipcz.DecodeAccesses

namespace MojoRs.Ipcz

open Lib Traced

/-! ### Where a message stands -/

/-- A parameter: its offset behind the struct header, its width and its value. -/
structure Parameter where
  offset : Nat
  width : Nat
  value : Nat
  deriving DecidableEq, Repr

/-- Four bytes at an offset. -/
def u32At (off : Nat) (n : UInt32) : List Parameter := [⟨off, 4, n.toNat⟩]

/-- One byte at an offset. -/
def byteAt (off : Nat) (n : UInt32) : List Parameter := [⟨off, 1, n.toNat⟩]

/-- Eight bytes at an offset. -/
def u64At (off : Nat) (n : UInt64) : List Parameter := [⟨off, 8, n.toNat⟩]

/-- A node name at an offset. -/
def nodeAt (off : Nat) (n : NodeName) : List Parameter := u64At off n.high ++ u64At (off + 8) n.low

/-- A fragment descriptor at an offset. -/
def fragAt (off : Nat) (f : FragmentDescriptor) : List Parameter :=
  u64At off f.bufferId ++ u32At (off + 8) f.offset ++ u32At (off + 12) f.size

namespace DecodedMessage

/-- The parameters of a message. -/
def parameters : DecodedMessage → List Parameter
  | connectFromBrokerToNonBroker brokerName receiverName version portals buffer =>
      nodeAt 0 brokerName ++ nodeAt 16 receiverName ++ u32At 32 version ++ u32At 36 portals ++
        u32At 40 buffer
  | connectFromNonBrokerToBroker version portals => u32At 0 version ++ u32At 4 portals
  | referNonBroker referralId portals transport =>
      u64At 0 referralId ++ u32At 8 portals ++ u32At 12 transport
  | connectToReferredBroker version portals => u32At 0 version ++ u32At 4 portals
  | connectToReferredNonBroker name brokerName referrerName brokerVersion referrerVersion portals
      brokerBuffer transport referrerBuffer _ =>
      nodeAt 0 name ++ nodeAt 16 brokerName ++ nodeAt 32 referrerName ++ u32At 48 brokerVersion ++
        u32At 52 referrerVersion ++ u32At 56 portals ++ u32At 60 brokerBuffer ++
        u32At 64 transport ++ u32At 68 referrerBuffer
  | nonBrokerReferralAccepted referralId version portals name transport buffer _ =>
      u64At 0 referralId ++ u32At 8 version ++ u32At 12 portals ++ nodeAt 16 name ++
        u32At 32 transport ++ u32At 36 buffer
  | nonBrokerReferralRejected referralId => u64At 0 referralId
  | connectFromBrokerToBroker name version portals buffer =>
      nodeAt 0 name ++ u32At 16 version ++ u32At 20 portals ++ u32At 24 buffer
  | requestIntroduction name => nodeAt 0 name
  | acceptIntroduction name linkSide remoteNodeType version transport memory _ =>
      nodeAt 0 name ++ byteAt 16 linkSide ++ byteAt 17 remoteNodeType ++ u32At 20 version ++
        u32At 24 transport ++ u32At 28 memory
  | rejectIntroduction name => nodeAt 0 name
  | requestIndirectIntroduction source target => nodeAt 0 source ++ nodeAt 16 target
  | addBlockBuffer bufferId blockSize buffer =>
      u64At 0 bufferId ++ u32At 8 blockSize ++ u32At 12 buffer
  | acceptParcel p =>
      u64At 0 p.sublink ++ u64At 8 p.sequenceNumber ++ u32At 16 p.subparcelIndex ++
        u32At 20 p.numSubparcels ++ fragAt 24 p.parcelFragment
  | acceptParcelDriverObjects sublink sequenceNumber _ =>
      u64At 0 sublink ++ u64At 8 sequenceNumber
  | routeClosed sublink sequenceLength => u64At 0 sublink ++ u64At 8 sequenceLength
  | routeDisconnected sublink => u64At 0 sublink
  | bypassPeer sublink targetNode targetSublink =>
      u64At 0 sublink ++ nodeAt 16 targetNode ++ u64At 24 targetSublink
  | acceptBypassLink node sublink inbound newSublink fragment =>
      nodeAt 0 node ++ u64At 16 sublink ++ u64At 24 inbound ++ u64At 32 newSublink ++
        fragAt 40 fragment
  | stopProxying sublink inbound outbound =>
      u64At 0 sublink ++ u64At 8 inbound ++ u64At 16 outbound
  | proxyWillStop sublink inbound => u64At 0 sublink ++ u64At 8 inbound
  | bypassPeerWithLink sublink newSublink fragment inbound =>
      u64At 0 sublink ++ u64At 8 newSublink ++ fragAt 16 fragment ++ u64At 32 inbound
  | stopProxyingToLocalPeer sublink outbound => u64At 0 sublink ++ u64At 8 outbound
  | flushRouter sublink => u64At 0 sublink
  | requestMemory size => u32At 0 size
  | provideMemory size => u32At 0 size
  | unknown _ => []

/-- The arrays of a message, each with the offset of the parameter that tells
where it is. -/
def arrays : DecodedMessage → List (Nat × List UInt8)
  | acceptParcel p =>
      [(40, p.parcelData), (44, p.handleTypes.flatMap leU32), (48, p.newRouters)]
  | _ => []

/-- The driver objects that a message comes with. -/
def driverObjects : DecodedMessage → List DriverObjectRef
  | connectToReferredNonBroker _ _ _ _ _ _ _ _ _ refs => refs
  | nonBrokerReferralAccepted _ _ _ _ _ _ refs => refs
  | acceptIntroduction _ _ _ _ _ _ refs => refs
  | acceptParcel p => p.driverObjects
  | acceptParcelDriverObjects _ _ refs => refs
  | _ => []

/-- The messages that are read with driver objects.  One that lacks its object
is returned as unknown. -/
def readsObjects : DecodedMessage → Bool
  | connectFromBrokerToNonBroker .. | referNonBroker .. | connectToReferredNonBroker ..
  | nonBrokerReferralAccepted .. | connectFromBrokerToBroker .. | acceptIntroduction ..
  | addBlockBuffer .. | acceptParcel _ | acceptParcelDriverObjects .. | provideMemory _ => true
  | unknown id => id == msgIdAddBlockBuffer
  | _ => false

/-- The driver objects that were read for a message: those that it comes with, or
the only one, which it is about. -/
def Carries (refs : List DriverObjectRef) : DecodedMessage → Prop
  | connectFromBrokerToNonBroker .. | referNonBroker .. | connectFromBrokerToBroker ..
  | addBlockBuffer .. | provideMemory _ => refs.length = 1
  | unknown _ => True
  | m => m.driverObjects = refs

end DecodedMessage

/-- A parameter is read from the struct that the payload declares. -/
def Params.Reads (p : Params) (q : Parameter) : Prop :=
  p.fields + q.offset + q.width ≤ p.fieldsEnd ∧
    q.value = readLE p.payload (p.fields + q.offset) q.width

/-- The elements of the array that the payload declares at `off`, by its header
of two numbers: its size and the number of its elements. -/
structure InArray (payload : List UInt8) (off : Nat) (elements : List UInt8) : Prop where
  inside : off + (getU32 payload off).toNat ≤ payload.length
  fits : 8 + elements.length ≤ (getU32 payload off).toNat
  bytes : elements = (payload.drop (off + 8)).take elements.length

/-- There is no array at 0. -/
def FromArray (payload : List UInt8) (off : UInt32) (elements : List UInt8) : Prop :=
  (off = 0 ∧ elements = []) ∨ InArray payload off.toNat elements

/-- A driver object is described by an entry; its data is an array of its own. -/
structure OfEntry (payload entry : List UInt8) (r : DriverObjectRef) : Prop where
  firstFd : r.firstFd = (getU16 entry 4).toNat
  numFds : r.numFds = (getU16 entry 6).toNat
  data : FromArray payload (getU32 entry 0) r.data

/-- A driver object stands in an entry of the array at `off`. -/
def FromEntry (payload : List UInt8) (off : UInt32) (r : DriverObjectRef) : Prop :=
  ∃ entries, FromArray payload off entries ∧ ∃ entry ∈ chunksExact 8 entries,
    OfEntry payload entry r

/-! ### Slices and numbers -/

section Numbers

variable {b : List UInt8} {s e : Nat}

theorem meets_accessSlice (h : s ≤ e ∧ e ≤ b.length) :
    Meets Access.Fits (accessSlice b s e) fun _ => True :=
  (meets_record (w := Access.slice b.length s e) h).bind fun _ _ => meets_pure trivial

theorem meets_accessNumber {α : Type} (exact : List UInt8 → Except WireError α)
    (h : s ≤ e ∧ e ≤ b.length) :
    Meets Access.Fits (accessNumber exact b s e) fun _ => True :=
  (meets_accessSlice h).bind fun _ _ => meets_lift fun _ _ => trivial

theorem meets_u16 (h : s + 2 ≤ b.length) :
    Meets Access.Fits (accessNumber exactU16 b s (s + 2)) (· = getU16 b s) := by
  refine ⟨(meets_accessNumber exactU16 ⟨Nat.le_add_right _ _, h⟩).events, fun n hn => ?_⟩
  rw [accessNumber_u16 h] at hn
  exact (Except.ok.inj hn).symm

theorem meets_u32 (h : s + 4 ≤ b.length) :
    Meets Access.Fits (accessNumber exactU32 b s (s + 4)) (· = getU32 b s) := by
  refine ⟨(meets_accessNumber exactU32 ⟨Nat.le_add_right _ _, h⟩).events, fun n hn => ?_⟩
  rw [accessNumber_u32 h] at hn
  exact (Except.ok.inj hn).symm

theorem meets_u64 (h : s + 8 ≤ b.length) :
    Meets Access.Fits (accessNumber exactU64 b s (s + 8)) (· = getU64 b s) := by
  refine ⟨(meets_accessNumber exactU64 ⟨Nat.le_add_right _ _, h⟩).events, fun n hn => ?_⟩
  rw [accessNumber_u64 h] at hn
  exact (Except.ok.inj hn).symm

end Numbers

/-! ### Arrays -/

section Arrays

variable {payload elements : List UInt8} {off : UInt32} {elementSize : Nat}

theorem readLE_drop (bs : List UInt8) (i pos w : Nat) :
    readLE (bs.drop i) pos w = readLE bs (i + pos) w := by
  show ofLE (((bs.drop i).drop pos).take w) = _
  rw [List.drop_drop]
  rfl

/-- What an array has is in it, a whole number of elements. -/
theorem readArray_inside (h : readArray payload off elementSize = .ok elements) :
    FromArray payload off elements ∧ elementSize ∣ elements.length := by
  unfold readArray at h
  dsimp only at h
  split_ifs at h with hoff hlen hshort hbytes hwant
  · obtain rfl := Except.ok.inj h
    exact ⟨.inl ⟨hoff, rfl⟩, Nat.dvd_zero elementSize⟩
  · have hsize : getU32 (payload.drop off.toNat) 0 = getU32 payload off.toNat :=
      congrArg UInt32.ofNat (readLE_drop payload off.toNat 0 4)
    rw [hsize] at hbytes hwant
    rw [List.length_drop] at hbytes hshort
    have hlength : elements.length = (getU32 (payload.drop off.toNat) 4).toNat * elementSize := by
      rw [← Except.ok.inj h, List.length_take, List.length_drop, List.length_drop]
      omega
    refine ⟨.inr ⟨by omega, by omega, ?_⟩, ⟨_, hlength.trans (Nat.mul_comm ..)⟩⟩
    rw [hlength, ← List.drop_drop]
    exact (Except.ok.inj h).symm

theorem meets_accessArray (hsize : elementSize < 2 ^ 32) :
    Meets Access.Fits (accessArray payload off elementSize) fun elements =>
      FromArray payload off elements ∧ elementSize ∣ elements.length := by
  refine ⟨fun a ha => ?_, fun elements h => ?_⟩
  · suffices h : Meets Access.Fits (accessArray payload off elementSize) fun _ => True from
      h.events a ha
    unfold accessArray
    dsimp only
    refine meets_ite (fun _ => meets_pure trivial) fun _ => ?_
    refine meets_ite (fun _ => meets_error) fun _ => ?_
    refine meets_ite (fun _ => meets_error) fun hshort => ?_
    refine (meets_accessNumber exactU32 (by omega)).bind fun numBytes _ => ?_
    refine (meets_accessNumber exactU32 (by omega)).bind fun numElements _ => ?_
    refine meets_ite (fun _ => meets_error) fun hbytes => ?_
    have hlt := numBytes.toNat_lt
    have hdiff : Access.Fits (.difference numBytes.toNat 8) := by
      show 8 ≤ numBytes.toNat
      omega
    refine (meets_record hdiff).bind fun _ _ => ?_
    refine meets_ite (fun _ => meets_error) fun _ => ?_
    refine meets_ite (fun _ => meets_error) fun hwant => ?_
    have hsum : Access.Fits (.sum (8 + numElements.toNat * elementSize)) := by
      show 8 + numElements.toNat * elementSize < 2 ^ 64
      omega
    refine (meets_record hsum).bind fun _ _ => ?_
    exact meets_accessSlice (by omega)
  · rw [accessArray_result payload off hsize] at h
    exact readArray_inside h

end Arrays

/-! ### Driver objects -/

theorem meets_accessObjects (payload : List UInt8) (numFds nextFd : Nat)
    {chunks : List (List UInt8)} (hchunks : ∀ c ∈ chunks, c.length = 8) :
    Meets Access.Fits (accessObjects payload numFds nextFd chunks) fun out =>
      ∀ r ∈ out.1, ∃ entry ∈ chunks, OfEntry payload entry r := by
  induction chunks generalizing nextFd with
  | nil => exact meets_pure fun _ hr => absurd hr List.not_mem_nil
  | cons chunk rest ih =>
      obtain ⟨hlen, hrest⟩ := List.forall_mem_cons.mp hchunks
      refine (meets_u32 (b := chunk) (s := 0) (by omega)).bind fun array harray => ?_
      refine (meets_u16 (b := chunk) (s := 4) (by omega)).bind fun first hfirst => ?_
      refine (meets_u16 (b := chunk) (s := 6) (by omega)).bind fun num hnum => ?_
      subst harray hfirst hnum
      refine meets_ite (fun _ => meets_error) fun _ => ?_
      have hfirst := (getU16 chunk 4).toNat_lt
      have hnum := (getU16 chunk 6).toNat_lt
      have hsum : Access.Fits (.sum ((getU16 chunk 4).toNat + (getU16 chunk 6).toNat)) := by
        show (getU16 chunk 4).toNat + (getU16 chunk 6).toNat < 2 ^ 64
        omega
      refine (meets_record hsum).bind fun _ _ => ?_
      refine meets_ite (fun _ => meets_error) fun _ => ?_
      refine (meets_accessArray (by decide)).bind fun data hdata => ?_
      refine (ih _ hrest).bind fun out hout => ?_
      refine meets_pure (List.forall_mem_cons.mpr ⟨?_, fun r hr => ?_⟩)
      · exact ⟨chunk, List.mem_cons_self, rfl, rfl, hdata.1⟩
      · obtain ⟨entry, hentry, hr⟩ := hout r hr
        exact ⟨entry, List.mem_cons_of_mem _ hentry, hr⟩

theorem meets_accessDriverObjects (payload : List UInt8) (hdr : MessageHeader) (numFds : Nat) :
    Meets Access.Fits (accessDriverObjects payload hdr numFds) fun refs =>
      readDriverObjects payload hdr numFds = .ok refs ∧
        ∀ r ∈ refs, FromEntry payload hdr.driverObjectDataArray r := by
  suffices h : Meets Access.Fits (accessDriverObjects payload hdr numFds) fun refs =>
      ∀ r ∈ refs, FromEntry payload hdr.driverObjectDataArray r from
    ⟨h.events, fun refs hrefs =>
      ⟨accessDriverObjects_result payload hdr numFds ▸ hrefs, h.returns refs hrefs⟩⟩
  unfold accessDriverObjects
  refine meets_ite (fun _ => meets_pure fun _ hr => absurd hr List.not_mem_nil) fun _ => ?_
  refine (meets_accessArray (by decide)).bind fun entries hentries => ?_
  refine meets_ite (fun _ => meets_error) fun _ => ?_
  refine (meets_accessObjects payload numFds 0 fun _ => length_of_mem_chunksExact).bind
    fun out hout => ?_
  refine meets_ite (fun _ => meets_error) fun _ => meets_pure fun r hr => ?_
  obtain ⟨entry, hentry, hof⟩ := hout r hr
  exact ⟨entries, hentries.1, entry, hentry, hof⟩

theorem meets_accessSingleObject (refs : List DriverObjectRef) :
    Meets Access.Fits (accessSingleObject refs) (· = singleObject refs) := by
  refine ⟨fun a ha => ?_, fun b hb => ?_⟩
  · unfold accessSingleObject at ha
    split_ifs at ha with hone
    · exact absurd ha List.not_mem_nil
    · obtain rfl := List.mem_singleton.mp ha
      show 0 < refs.length
      omega
  · rw [accessSingleObject_result] at hb
    exact (Except.ok.inj hb).symm

/-! ### Parameters -/

namespace Params

/-- All of the parameters are read from the struct. -/
def Held (p : Params) (qs : List Parameter) : Prop := ∀ q ∈ qs, p.Reads q

variable {p : Params} {qs qs' : List Parameter} {off : Nat}

@[simp] theorem held_append : p.Held (qs ++ qs') ↔ p.Held qs ∧ p.Held qs' := List.forall_mem_append

theorem held_nil : p.Held [] := fun _ hq => absurd hq List.not_mem_nil

/-- A parameter that tells where something is. -/
theorem Held.u32_eq {n : UInt32} (h : p.Held (u32At off n)) :
    n = getU32 p.payload (p.fields + off) := by
  have hn := (h _ (List.mem_singleton_self _)).2
  rw [getU32, ← hn]
  exact UInt32.ofNat_toNat.symm

theorem meets_checkedOffset (a b : Nat) :
    Meets Access.Fits (lift (checkedOffset a b)) (· = a + b) := by
  refine meets_lift fun c hc => ?_
  unfold checkedOffset at hc
  split_ifs at hc
  exact (Except.ok.inj hc).symm

section Bytes

variable {n : UInt32}

theorem and_255 (m : Nat) : m &&& 255 = m % 256 := Nat.and_two_pow_sub_one_eq_mod m 8

/-- The low byte of a number. -/
theorem Held.low (h : p.Held (u32At off n)) : p.Held (byteAt off (n &&& 0xff)) := by
  obtain ⟨hend, hn⟩ := h _ (List.mem_singleton_self _)
  have hsucc : readLE p.payload (p.fields + off) 4 = _ := readLE_succ p.payload (p.fields + off) 3
  have hlt := readLE_lt p.payload (p.fields + off) 1
  dsimp only at hend hn
  intro q hq
  obtain rfl := List.mem_singleton.mp hq
  constructor
  · show p.fields + off + 1 ≤ p.fieldsEnd
    omega
  · show (n &&& 0xff).toNat = readLE p.payload (p.fields + off) 1
    rw [UInt32.toNat_and]
    show n.toNat &&& 255 = _
    rw [and_255]
    omega

/-- The byte after it. -/
theorem Held.high (h : p.Held (u32At off n)) : p.Held (byteAt (off + 1) ((n >>> 8) &&& 0xff)) := by
  obtain ⟨hend, hn⟩ := h _ (List.mem_singleton_self _)
  have hsucc : readLE p.payload (p.fields + off) 4 = _ := readLE_succ p.payload (p.fields + off) 3
  have hsucc' : readLE p.payload (p.fields + off + 1) 3 = _ :=
    readLE_succ p.payload (p.fields + off + 1) 2
  have hlt := readLE_lt p.payload (p.fields + off) 1
  have hlt' := readLE_lt p.payload (p.fields + off + 1) 1
  dsimp only at hend hn
  intro q hq
  obtain rfl := List.mem_singleton.mp hq
  constructor
  · show p.fields + (off + 1) + 1 ≤ p.fieldsEnd
    omega
  · show ((n >>> 8) &&& 0xff).toNat = readLE p.payload (p.fields + off + 1) 1
    rw [UInt32.toNat_and, UInt32.toNat_shiftRight]
    show n.toNat >>> 8 &&& 255 = _
    rw [and_255, Nat.shiftRight_eq_div_pow]
    omega

/-- `link_side` and `remote_node_type`. -/
theorem Held.sideType (h : p.Held (u32At 16 n)) :
    p.Held (byteAt 16 (n &&& 255)) ∧ p.Held (byteAt 17 ((n >>> 8) &&& 255)) :=
  ⟨h.low, h.high⟩

end Bytes

variable (hp : p.Inside)
include hp

/-- A number within the struct. -/
theorem meets_accessField {α : Type} {exact : List UInt8 → Except WireError α} {w : Nat}
    {V : Nat → α → Prop}
    (hread : ∀ {s}, s + w ≤ p.payload.length →
      Meets Access.Fits (accessNumber exact p.payload s (s + w)) (V s)) :
    Meets Access.Fits (p.accessField exact w off) fun n =>
      p.fields + off + w ≤ p.fieldsEnd ∧ V (p.fields + off) n := by
  refine (meets_checkedOffset p.fields off).bind fun s hs => ?_
  refine (meets_checkedOffset s w).bind fun e he => ?_
  subst hs he
  refine meets_ite (fun _ => meets_error) fun hend => ?_
  have hle := Nat.le_of_not_lt hend
  exact (hread (Nat.le_trans hle hp.fieldsEnd_le)).imp fun n hn => ⟨hle, hn⟩

theorem meets_accessU32 (off : Nat) :
    Meets Access.Fits (p.accessU32 off) fun n => p.Held (u32At off n) := by
  refine (meets_accessField hp meets_u32).imp fun n hn q hq => ?_
  obtain rfl := List.mem_singleton.mp hq
  rw [hn.2]
  exact ⟨hn.1, UInt32.toNat_ofNat_of_lt' (readLE_lt ..)⟩

theorem meets_accessU64 (off : Nat) :
    Meets Access.Fits (p.accessU64 off) fun n => p.Held (u64At off n) := by
  refine (meets_accessField hp meets_u64).imp fun n hn q hq => ?_
  obtain rfl := List.mem_singleton.mp hq
  rw [hn.2]
  exact ⟨hn.1, UInt64.toNat_ofNat_of_lt' (readLE_lt ..)⟩

theorem meets_accessNode (hoff : off < 2 ^ 32) :
    Meets Access.Fits (p.accessNode off) fun n => p.Held (nodeAt off n) := by
  have hsum : Access.Fits (.sum (off + 8)) := by
    show off + 8 < 2 ^ 64
    omega
  refine (meets_accessU64 hp off).bind fun high hhigh => ?_
  refine (meets_record hsum).bind fun _ _ => ?_
  refine (meets_accessU64 hp (off + 8)).bind fun low hlow => ?_
  exact meets_pure (held_append.mpr ⟨hhigh, hlow⟩)

theorem meets_accessFrag (hoff : off < 2 ^ 32) :
    Meets Access.Fits (p.accessFrag off) fun f => p.Held (fragAt off f) := by
  have hsum : ∀ n ≤ 12, Access.Fits (.sum (off + n)) := by
    intro n hn
    show off + n < 2 ^ 64
    omega
  refine (meets_accessU64 hp off).bind fun bufferId hbuffer => ?_
  refine (meets_record (hsum 8 (by omega))).bind fun _ _ => ?_
  refine (meets_accessU32 hp (off + 8)).bind fun offset hoffset => ?_
  refine (meets_record (hsum 12 (by omega))).bind fun _ _ => ?_
  refine (meets_accessU32 hp (off + 12)).bind fun size hsize => ?_
  exact meets_pure (held_append.mpr ⟨held_append.mpr ⟨hbuffer, hoffset⟩, hsize⟩)

theorem meets_accessRequire {n : Nat} (hn : n < 2 ^ 32) :
    Meets Access.Fits (p.accessRequire n) fun _ => p.fields + n ≤ p.fieldsEnd := by
  have hfields := hp.fields_lt
  have hsum : Access.Fits (.sum (p.fields + n)) := by
    show p.fields + n < 2 ^ 64
    omega
  refine (meets_record hsum).bind fun _ _ => meets_lift fun _ h => ?_
  unfold require at h
  split_ifs at h with hshort
  exact Nat.le_of_not_lt hshort

end Params

/-! ### Messages -/

/-- A message is what the payload holds behind its header. -/
structure Decoded (hdr : MessageHeader) (p : Params) (numFds : Nat) (m : DecodedMessage) :
    Prop where
  parameters : p.Held m.parameters
  arrays : ∀ a ∈ m.arrays, FromArray p.payload (getU32 p.payload (p.fields + a.1)) a.2
  objects : m.readsObjects → ∃ refs, m.Carries refs ∧
    readDriverObjects p.payload hdr numFds = .ok refs ∧
      ∀ r ∈ refs, FromEntry p.payload hdr.driverObjectDataArray r

section Messages

variable {hdr : MessageHeader} {p : Params} {numFds : Nat} {m : DecodedMessage}
  {refs : List DriverObjectRef}

theorem decoded_plain (hm : m.readsObjects = false) (harrays : m.arrays = [])
    (h : p.Held m.parameters) : Decoded hdr p numFds m := by
  refine ⟨h, fun a ha => ?_, fun hreads => ?_⟩
  · rw [harrays] at ha
    exact absurd ha List.not_mem_nil
  · rw [hm] at hreads
    nomatch hreads

theorem decoded_objects (hrefs : readDriverObjects p.payload hdr numFds = .ok refs ∧
      ∀ r ∈ refs, FromEntry p.payload hdr.driverObjectDataArray r)
    (hm : m.Carries refs) (harrays : m.arrays = []) (h : p.Held m.parameters) :
    Decoded hdr p numFds m := by
  refine ⟨h, fun a ha => ?_, fun _ => ⟨refs, hm, hrefs⟩⟩
  rw [harrays] at ha
  exact absurd ha List.not_mem_nil

/-- A message that is about one object. -/
theorem decoded_withObjectsCheck (hrefs : readDriverObjects p.payload hdr numFds = .ok refs ∧
      ∀ r ∈ refs, FromEntry p.payload hdr.driverObjectDataArray r)
    (hm : refs.length = 1 → m.Carries refs) (harrays : m.arrays = [])
    (h : p.Held m.parameters) :
    Decoded hdr p numFds (m.withObjectsCheck (refs.length == 1)) := by
  unfold DecodedMessage.withObjectsCheck
  split_ifs with hone
  · exact decoded_objects hrefs (hm (beq_iff_eq.mp hone)) harrays h
  · exact decoded_objects hrefs trivial rfl Params.held_nil

theorem length_of_singleObject {single : Bool} (hsingle : single = singleObject refs)
    (h : ¬(!single) = true) : refs.length = 1 := by
  subst hsingle
  unfold singleObject at h
  simp only [Bool.not_eq_true', Bool.not_eq_false, Bool.and_eq_true, beq_iff_eq] at h
  exact h.1

theorem flatMap_leU32 {l : List UInt8} (h : 4 ∣ l.length) :
    ((chunksExact 4 l).map (getU32 · 0)).flatMap leU32 = l := by
  have hchunk : ∀ c ∈ chunksExact 4 l, leU32 (getU32 c 0) = c := by
    intro c hc
    have hlen := length_of_mem_chunksExact hc
    have hread : readLE c 0 4 = ofLE c := congrArg ofLE (List.take_of_length_le (Nat.le_of_eq hlen))
    have hlt := ofLE_lt c
    rw [hlen] at hlt
    rw [getU32, hread, leU32, UInt32.toNat_ofNat_of_lt' hlt, ← hlen, toLE_ofLE]
  rw [List.flatMap_map, List.flatMap_def, List.map_congr_left hchunk, List.map_id']
  exact flatten_chunksExact h

theorem meets_handleTypes {l : List UInt8} (h : 4 ∣ l.length) :
    Meets Access.Fits (lift ((chunksExact 4 l).mapM exactU32)) (·.flatMap leU32 = l) := by
  refine meets_lift fun types htypes => ?_
  rw [mapM_exactU32] at htypes
  rw [← Except.ok.inj htypes, flatMap_leU32 h]

/-- The arrays of a parcel stand where its parameters tell. -/
theorem fromArray_parcel {q : AcceptParcel} {dataOff typesOff routersOff : UInt32}
    {types : List UInt8} (hdataOff : p.Held (u32At 40 dataOff))
    (htypesOff : p.Held (u32At 44 typesOff)) (hroutersOff : p.Held (u32At 48 routersOff))
    (hdata : FromArray p.payload dataOff q.parcelData) (htypes : FromArray p.payload typesOff types)
    (hrouters : FromArray p.payload routersOff q.newRouters)
    (hq : q.handleTypes.flatMap leU32 = types) :
    ∀ a ∈ (DecodedMessage.acceptParcel q).arrays,
      FromArray p.payload (getU32 p.payload (p.fields + a.1)) a.2 := by
  rw [hdataOff.u32_eq] at hdata
  rw [htypesOff.u32_eq] at htypes
  rw [hroutersOff.u32_eq] at hrouters
  subst hq
  intro a ha
  rcases List.mem_cons.mp ha with rfl | ha
  · exact hdata
  rcases List.mem_cons.mp ha with rfl | ha
  · exact htypes
  · obtain rfl := List.mem_singleton.mp ha
    exact hrouters

theorem meets_accessParams (hdr : MessageHeader) (hp : p.Inside) (numFds : Nat) :
    Meets Access.Fits (accessParams hdr p numFds) (Decoded hdr p numFds) := by
  unfold accessParams
  dsimp only
  -- one branch for each message id, and the last one
  iterate 26
    refine meets_ite (fun _ => ?_) fun _ => ?_
    swap
  -- the readers of a message, one after the other
  all_goals
    repeat first
      | with_reducible refine (Params.meets_accessRequire hp (by decide)).bind fun _ _ => ?_
      | with_reducible refine (Params.meets_accessU32 hp _).bind fun _ _ => ?_
      | with_reducible refine (Params.meets_accessU64 hp _).bind fun _ _ => ?_
      | with_reducible refine (Params.meets_accessNode hp (by decide)).bind fun _ _ => ?_
      | with_reducible refine (Params.meets_accessFrag hp (by decide)).bind fun _ _ => ?_
      | with_reducible refine (meets_accessDriverObjects ..).bind fun _ _ => ?_
      | with_reducible refine (meets_accessSingleObject _).bind fun _ _ => ?_
      | with_reducible refine (meets_accessArray (by decide)).bind fun _ _ => ?_
      | with_reducible refine (meets_handleTypes (And.right ‹_›)).bind fun _ _ => ?_
      | with_reducible refine meets_ite (fun _ => meets_error) fun _ => ?_
  · exact meets_pure (decoded_plain (beq_eq_false_iff_ne.mpr ‹_›) rfl Params.held_nil)
  -- messages without driver objects, about one, about the first, with all of them, and parcels
  all_goals
    first
      | exact meets_pure (decoded_plain rfl rfl (by simp [DecodedMessage.parameters, *]))
      | exact meets_pure (decoded_withObjectsCheck ‹_› id rfl
          (by simp [DecodedMessage.parameters, *]))
      | exact meets_pure (decoded_objects ‹_› (length_of_singleObject ‹_› ‹_›) rfl
          (by simp [DecodedMessage.parameters, *]))
      | exact meets_pure (decoded_objects ‹_› rfl rfl
          (by simp [DecodedMessage.parameters, Params.Held.sideType, *]))
      | refine meets_pure ⟨by simp [DecodedMessage.parameters, *], ?_, fun _ => ⟨_, rfl, ‹_›⟩⟩
        exact fromArray_parcel ‹_› ‹_› ‹_› (And.left ‹_›) (And.left ‹_›) (And.left ‹_›) ‹_›

end Messages

/-! ### The decoder -/

/-- The struct of parameters that a payload declares behind its header. -/
def declaredParams (payload : List UInt8) : Params where
  payload := payload
  fields := messageHeaderSize + 8
  fieldsEnd := messageHeaderSize + (getU32 payload messageHeaderSize).toNat

/-- A message stands in the payload: its parameters in the struct, its arrays
where parameters tell, its driver objects where the header tells. -/
structure DecodedMessage.StandsIn (payload : List UInt8) (m : DecodedMessage) : Prop where
  inside : (declaredParams payload).fieldsEnd ≤ payload.length
  parameters : (declaredParams payload).Held m.parameters
  arrays : ∀ a ∈ m.arrays,
    FromArray payload (getU32 payload ((declaredParams payload).fields + a.1)) a.2
  driverObjects : ∀ r ∈ m.driverObjects, FromEntry payload (getU32 payload 16) r

variable {payload : List UInt8} {numFds : Nat} {m : DecodedMessage}

theorem meets_accessHeader (payload : List UInt8) :
    Meets Access.Fits (accessHeader payload) fun hdr =>
      hdr.size.toNat = messageHeaderSize ∧ hdr.driverObjectDataArray = getU32 payload 16 := by
  refine meets_ite (fun _ => meets_error) fun hlen => ?_
  have hlen : 24 ≤ payload.length := Nat.le_of_not_lt hlen
  have hindex : ∀ i < 24, Access.Fits (.index payload.length i) :=
    fun i hi => Nat.lt_of_lt_of_le hi hlen
  have hslice : ∀ s e, s ≤ e → e ≤ 24 → Meets Access.Fits (accessSlice payload s e)
      (· = (payload.take e).drop s) := fun s e hs he =>
    ⟨(meets_accessSlice ⟨hs, Nat.le_trans he hlen⟩).events, fun _ h => (Except.ok.inj h).symm⟩
  refine (meets_record (hindex 0 (by decide))).bind fun _ _ => ?_
  refine meets_ite (fun _ => meets_error) fun hsize => ?_
  refine (hslice 8 16 (by decide) (by decide)).bind fun seqBytes hseq => ?_
  have hcopy : Access.Fits (.copy 8 seqBytes.length) := by
    rw [hseq]
    exact (length_slice (s := 8) (w := 8) (by omega)).symm
  refine (meets_record hcopy).bind fun _ _ => ?_
  refine (hslice 16 20 (by decide) (by decide)).bind fun dobjBytes hdobj => ?_
  have hcopy : Access.Fits (.copy 4 dobjBytes.length) := by
    rw [hdobj]
    exact (length_slice (s := 16) (w := 4) (by omega)).symm
  refine (meets_record hcopy).bind fun _ _ => ?_
  refine (meets_record (hindex 1 (by decide))).bind fun _ _ => ?_
  refine (meets_record (hindex 2 (by decide))).bind fun _ _ => meets_pure ⟨?_, ?_⟩
  · exact congrArg UInt8.toNat (not_not.mp hsize)
  · rw [hdobj]
    exact congrArg UInt32.ofNat (readLE_slice (s := 16) (w := 4))

/-- What is decoded, and how. -/
theorem meets_accessMessage (payload : List UInt8) (numFds : Nat) :
    Meets Access.Fits (accessMessage payload numFds) fun m =>
      (declaredParams payload).fieldsEnd ≤ payload.length ∧
        ∃ hdr, parseMessageHeader payload = .ok hdr ∧
          hdr.driverObjectDataArray = getU32 payload 16 ∧
            Decoded hdr (declaredParams payload) numFds m := by
  have hheader : Meets Access.Fits (accessHeader payload)
      fun hdr => parseMessageHeader payload = .ok hdr ∧ hdr.size.toNat = messageHeaderSize ∧
        hdr.driverObjectDataArray = getU32 payload 16 :=
    ⟨(meets_accessHeader payload).events, fun hdr h =>
      ⟨accessHeader_result payload ▸ h, (meets_accessHeader payload).returns hdr h⟩⟩
  refine hheader.bind fun hdr ⟨hparse, hsize, harray⟩ => ?_
  rw [hsize]
  refine meets_ite (fun _ => meets_error) fun _ => ?_
  refine meets_ite (fun _ => meets_error) fun hshort => ?_
  have hlen := List.length_drop (i := messageHeaderSize) (l := payload)
  refine (meets_u32 (s := 0) (by omega)).bind fun n hn => ?_
  obtain rfl : n = getU32 payload messageHeaderSize :=
    hn.trans (congrArg UInt32.ofNat (readLE_drop payload messageHeaderSize 0 4))
  refine meets_ite (fun _ => meets_error) fun hfits => ?_
  have hlt := (getU32 payload messageHeaderSize).toNat_lt
  have hheader : messageHeaderSize = 24 := rfl
  have hsum : ∀ n < 2 ^ 32, Access.Fits (.sum (messageHeaderSize + 8 + n)) := by
    intro n hn
    show messageHeaderSize + 8 + n < 2 ^ 64
    omega
  refine (meets_record (hsum 0 (by decide))).bind fun _ _ => ?_
  refine (meets_record (hsum _ hlt)).bind fun _ _ => ?_
  have hdiff : Access.Fits (.difference
      (messageHeaderSize + 8 + (getU32 payload messageHeaderSize).toNat) 8) := by
    show 8 ≤ messageHeaderSize + 8 + (getU32 payload messageHeaderSize).toNat
    omega
  refine (meets_record hdiff).bind fun _ _ => ?_
  have hinside : messageHeaderSize + (getU32 payload messageHeaderSize).toNat ≤ payload.length := by
    omega
  have hparams : (⟨payload, messageHeaderSize + 8,
      messageHeaderSize + 8 + (getU32 payload messageHeaderSize).toNat - 8⟩ : Params) =
        declaredParams payload := by
    rw [Nat.add_right_comm, Nat.add_sub_cancel]
    rfl
  have hheader_lt : messageHeaderSize < 256 := by decide
  have hp := inside_declared hheader_lt hinside
  rw [hparams] at hp
  show Meets _ (accessParams hdr ⟨payload, messageHeaderSize + 8, _⟩ numFds) _
  rw [hparams]
  exact (meets_accessParams hdr hp numFds).imp fun m hm => ⟨hinside, hdr, hparse, harray, hm⟩

/-- The driver objects of a message are those that were read for it. -/
theorem DecodedMessage.Carries.mem {refs : List DriverObjectRef} (h : m.Carries refs)
    {r : DriverObjectRef} (hr : r ∈ m.driverObjects) : r ∈ refs := by
  cases m
  all_goals first | exact absurd hr List.not_mem_nil | exact h ▸ hr

theorem readsObjects_of_mem {r : DriverObjectRef} (hr : r ∈ m.driverObjects) :
    m.readsObjects = true := by
  cases m
  all_goals first | rfl | exact absurd hr List.not_mem_nil

theorem standsIn_of_decode (h : decodeMessage payload numFds = .ok m) : m.StandsIn payload := by
  rw [← accessMessage_result] at h
  obtain ⟨hinside, hdr, -, harray, hm⟩ := (meets_accessMessage payload numFds).returns m h
  refine ⟨hinside, hm.parameters, hm.arrays, fun r hr => ?_⟩
  obtain ⟨refs, hcarries, -, hentries⟩ := hm.objects (readsObjects_of_mem hr)
  rw [← harray]
  exact hentries r (hcarries.mem hr)

/-- For any payload, the decoder returns without a slice or an index out of range
and without a sum or a difference that does not fit, and all that it returns
stands in the payload where the payload says it does. -/
theorem decode_in_bounds (payload : List UInt8) (numFds : Nat) :
    (accessMessage payload numFds).result = decodeMessage payload numFds ∧
      (∀ a ∈ (accessMessage payload numFds).events, a.Fits) ∧
        ∀ m, decodeMessage payload numFds = .ok m → m.StandsIn payload :=
  ⟨accessMessage_result payload numFds, (meets_accessMessage payload numFds).events,
    fun _ => standsIn_of_decode⟩

/-- The driver objects of a parcel: two objects with data, the first with two
descriptors and the second with one. -/
def sharedDescriptors : List UInt8 :=
  [24, 0, 21, 0, 0, 0, 0, 0] ++ (leU64 0 ++ (leU32 48 ++ (leU32 0 ++
    (leU32 24 ++ (leU32 0 ++ (leU64 7 ++ (leU64 1 ++
      (leU32 24 ++ (leU32 2 ++
        (leU32 72 ++ (leU16 0 ++ (leU16 2 ++ (leU32 88 ++ (leU16 2 ++ (leU16 1 ++
          (leU32 16 ++ (leU32 3 ++ ([1, 2, 3, 0, 0, 0, 0, 0] ++
            (leU32 16 ++ (leU32 2 ++ [8, 9, 0, 0, 0, 0, 0, 0]))))))))))))))))))))

theorem sharedDescriptors_in_bounds :
    (DecodedMessage.acceptParcelDriverObjects 7 1
      [⟨[1, 2, 3], 0, 2⟩, ⟨[8, 9], 2, 1⟩]).StandsIn sharedDescriptors :=
  (decode_in_bounds sharedDescriptors 3).2.2 _ rfl

end MojoRs.Ipcz
