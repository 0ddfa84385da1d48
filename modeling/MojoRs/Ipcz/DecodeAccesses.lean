/-
MojoRs/Ipcz/DecodeAccesses.lean

The decoder of node messages with a record of what the language checks while it
runs: the slices that it takes, the elements that it indexes, the copies that
it makes, and the sums and differences that it computes without a check of its
own.  Each `access…` stands next to the function of `Messages.lean` whose record
it keeps, and has the checked arithmetic of the source where that function goes
without.  The results are the same (`accessMessage_result`).

Main result: `accessMessage_result`.
-/
import MojoRs.Ipcz.Messages
import MojoRs.Lib.Traced

namespace MojoRs.Ipcz

open Lib Traced

/-- What the language checks. -/
inductive Access
  /-- A slice from `start` to `stop` of `len` bytes. -/
  | slice (len start stop : Nat)
  /-- The element `i` of `len`. -/
  | index (len i : Nat)
  /-- A copy over all of a slice. -/
  | copy (target source : Nat)
  | sum (n : Nat)
  | difference (a b : Nat)
  deriving DecidableEq, Repr

/-- The language does not stop the program. -/
def Access.Fits : Access → Prop
  | slice len start stop => start ≤ stop ∧ stop ≤ len
  | index len i => i < len
  | copy target source => target = source
  | sum n => n < 2 ^ 64
  | difference a b => b ≤ a

/-- A decoder that records its accesses. -/
abbrev Accessing (α : Type) := Traced Access WireError α

/-! ### Slices and numbers -/

/-- A slice, recorded. -/
def accessSlice (bs : List UInt8) (start stop : Nat) : Accessing (List UInt8) := do
  record (.slice bs.length start stop)
  pure ((bs.take stop).drop start)

/-- `le_u16`. -/
def exactU16 (bs : List UInt8) : Except WireError UInt16 :=
  if bs.length = 2 then .ok (getU16 bs 0) else .error .badArray

/-- `le_u32`. -/
def exactU32 (bs : List UInt8) : Except WireError UInt32 :=
  if bs.length = 4 then .ok (getU32 bs 0) else .error .badArray

/-- `le_u64`. -/
def exactU64 (bs : List UInt8) : Except WireError UInt64 :=
  if bs.length = 8 then .ok (getU64 bs 0) else .error .badArray

/-- A slice of the width of a number, and the number. -/
def accessNumber {α : Type} (exact : List UInt8 → Except WireError α) (bs : List UInt8)
    (start stop : Nat) : Accessing α := do
  let b ← accessSlice bs start stop
  lift (exact b)

/-! ### Arrays and driver objects -/

/-- An array of elements of one size. -/
def accessArray (payload : List UInt8) (off : UInt32) (elementSize : Nat) :
    Accessing (List UInt8) :=
  if off = 0 then pure []
  else if payload.length < off.toNat then lift (.error .badArrayOffset)
  else
    let arr := payload.drop off.toNat
    if arr.length < 8 then lift (.error .badArray)
    else do
      let numBytes := (← accessNumber exactU32 arr 0 4).toNat
      let numElements := (← accessNumber exactU32 arr 4 8).toNat
      if numBytes < 8 ∨ numBytes % 8 ≠ 0 ∨ numBytes > arr.length then lift (.error .badArray)
      else do
        record (.difference numBytes 8)
        let dataLen := numBytes - 8
        let want := numElements * elementSize
        -- `checked_mul`
        if 2 ^ 64 ≤ want then lift (.error .badArray)
        else if want > dataLen then lift (.error .badArray)
        else do
          record (.sum (8 + want))
          accessSlice arr 8 (8 + want)

/-- The driver objects of a message, one chunk each. -/
def accessObjects (payload : List UInt8) (numFds : Nat) :
    Nat → List (List UInt8) → Accessing (List DriverObjectRef × Nat)
  | nextFd, [] => pure ([], nextFd)
  | nextFd, chunk :: rest => do
      let driverDataArray ← accessNumber exactU32 chunk 0 4
      let first := (← accessNumber exactU16 chunk 4 6).toNat
      let num := (← accessNumber exactU16 chunk 6 8).toNat
      if first ≠ nextFd then lift (.error .badDriverObjects)
      else do
        record (.sum (first + num))
        if first + num > numFds then lift (.error .badDriverObjects)
        else do
          let data ← accessArray payload driverDataArray 1
          let (out, nextFd) ← accessObjects payload numFds (first + num) rest
          pure (⟨data, first, num⟩ :: out, nextFd)

/-- The driver objects of a message. -/
def accessDriverObjects (payload : List UInt8) (hdr : MessageHeader) (numFds : Nat) :
    Accessing (List DriverObjectRef) :=
  if hdr.driverObjectDataArray = 0 then pure []
  else do
    let data ← accessArray payload hdr.driverObjectDataArray 8
    if data.length % 8 ≠ 0 then lift (.error .badDriverObjects)
    else do
      let (out, nextFd) ← accessObjects payload numFds 0 (chunksExact 8 data)
      if nextFd ≠ numFds then lift (.error .badDriverObjects) else pure out

/-! ### Parameters -/

/-- `checked_add`. -/
def checkedOffset (a b : Nat) : Except WireError Nat :=
  if a + b < 2 ^ 64 then .ok (a + b) else .error .badParamsSize

namespace Params

/-- A number of `w` bytes at `off`. -/
def accessField {α : Type} (exact : List UInt8 → Except WireError α) (w : Nat) (p : Params)
    (off : Nat) : Accessing α := do
  let s ← lift (checkedOffset p.fields off)
  let e ← lift (checkedOffset s w)
  if e > p.fieldsEnd then lift (.error .shortParams) else accessNumber exact p.payload s e

/-- Four bytes of the parameters. -/
def accessU32 (p : Params) (off : Nat) : Accessing UInt32 := p.accessField exactU32 4 off

/-- Eight bytes of the parameters. -/
def accessU64 (p : Params) (off : Nat) : Accessing UInt64 := p.accessField exactU64 8 off

/-- A node name of the parameters. -/
def accessNode (p : Params) (off : Nat) : Accessing NodeName := do
  let high ← p.accessU64 off
  record (.sum (off + 8))
  let low ← p.accessU64 (off + 8)
  pure ⟨high, low⟩

/-- A fragment descriptor of the parameters. -/
def accessFrag (p : Params) (off : Nat) : Accessing FragmentDescriptor := do
  let bufferId ← p.accessU64 off
  record (.sum (off + 8))
  let offset ← p.accessU32 (off + 8)
  record (.sum (off + 12))
  let size ← p.accessU32 (off + 12)
  pure ⟨bufferId, offset, size⟩

/-- The check that the parameters are long enough. -/
def accessRequire (p : Params) (n : Nat) : Accessing Unit := do
  record (.sum (p.fields + n))
  lift (p.require n)

end Params

/-! ### Decoding -/

/-- The first object is looked at only if it is the only one. -/
def accessSingleObject (objects : List DriverObjectRef) : Accessing Bool :=
  if objects.length ≠ 1 then pure false
  else do
    record (.index objects.length 0)
    pure (objects.all (·.firstFd == 0))

/-- The body of `decode_message`, by message id. -/
def accessParams (hdr : MessageHeader) (p : Params) (numFds : Nat) :
    Accessing DecodedMessage :=
  let id := hdr.messageId
  if id = msgIdConnectFromBrokerToNonBroker then do
    p.accessRequire 48
    let driverObjects ← accessDriverObjects p.payload hdr numFds
    let bufferIndex ← p.accessU32 40
    let single ← accessSingleObject driverObjects
    if !single then lift (.error .badDriverObjects)
    else
      pure (.connectFromBrokerToNonBroker (← p.accessNode 0) (← p.accessNode 16)
        (← p.accessU32 32) (← p.accessU32 36) bufferIndex)
  else if id = msgIdConnectFromNonBrokerToBroker then do
    p.accessRequire 8
    pure (.connectFromNonBrokerToBroker (← p.accessU32 0) (← p.accessU32 4))
  else if id = msgIdReferNonBroker then do
    p.accessRequire 16
    let driverObjects ← accessDriverObjects p.payload hdr numFds
    let m := DecodedMessage.referNonBroker (← p.accessU64 0) (← p.accessU32 8) (← p.accessU32 12)
    pure (m.withObjectsCheck (driverObjects.length == 1))
  else if id = msgIdConnectToReferredBroker then do
    p.accessRequire 8
    pure (.connectToReferredBroker (← p.accessU32 0) (← p.accessU32 4))
  else if id = msgIdConnectToReferredNonBroker then do
    p.accessRequire 72
    let driverObjects ← accessDriverObjects p.payload hdr numFds
    pure (.connectToReferredNonBroker (← p.accessNode 0) (← p.accessNode 16) (← p.accessNode 32)
      (← p.accessU32 48) (← p.accessU32 52) (← p.accessU32 56) (← p.accessU32 60)
      (← p.accessU32 64) (← p.accessU32 68) driverObjects)
  else if id = msgIdNonBrokerReferralAccepted then do
    p.accessRequire 40
    let driverObjects ← accessDriverObjects p.payload hdr numFds
    pure (.nonBrokerReferralAccepted (← p.accessU64 0) (← p.accessU32 8) (← p.accessU32 12)
      (← p.accessNode 16) (← p.accessU32 32) (← p.accessU32 36) driverObjects)
  else if id = msgIdNonBrokerReferralRejected then do
    p.accessRequire 8
    pure (.nonBrokerReferralRejected (← p.accessU64 0))
  else if id = msgIdConnectFromBrokerToBroker then do
    p.accessRequire 32
    let driverObjects ← accessDriverObjects p.payload hdr numFds
    let m := DecodedMessage.connectFromBrokerToBroker (← p.accessNode 0) (← p.accessU32 16)
      (← p.accessU32 20) (← p.accessU32 24)
    pure (m.withObjectsCheck (driverObjects.length == 1))
  else if id = msgIdRequestIntroduction then do
    p.accessRequire 16
    pure (.requestIntroduction (← p.accessNode 0))
  else if id = msgIdAcceptIntroduction then do
    p.accessRequire 32
    let driverObjects ← accessDriverObjects p.payload hdr numFds
    let sideType ← p.accessU32 16
    let linkSide := sideType &&& 0xff
    let remoteNodeType := (sideType >>> 8) &&& 0xff
    pure (.acceptIntroduction (← p.accessNode 0) linkSide remoteNodeType (← p.accessU32 20)
      (← p.accessU32 24) (← p.accessU32 28) driverObjects)
  else if id = msgIdRejectIntroduction then do
    p.accessRequire 16
    pure (.rejectIntroduction (← p.accessNode 0))
  else if id = msgIdRequestIndirectIntroduction then do
    p.accessRequire 32
    pure (.requestIndirectIntroduction (← p.accessNode 0) (← p.accessNode 16))
  else if id = msgIdAddBlockBuffer then do
    p.accessRequire 16
    let driverObjects ← accessDriverObjects p.payload hdr numFds
    let m := DecodedMessage.addBlockBuffer (← p.accessU64 0) (← p.accessU32 8) (← p.accessU32 12)
    pure (m.withObjectsCheck (driverObjects.length == 1))
  else if id = msgIdAcceptParcel then do
    p.accessRequire 64
    let sublink ← p.accessU64 0
    let sequenceNumber ← p.accessU64 8
    let subparcelIndex ← p.accessU32 16
    let numSubparcels ← p.accessU32 20
    let parcelFragment ← p.accessFrag 24
    let parcelDataOff ← p.accessU32 40
    let handleTypesOff ← p.accessU32 44
    let newRoutersOff ← p.accessU32 48
    let driverObjects ← accessDriverObjects p.payload hdr numFds
    let parcelData ← accessArray p.payload parcelDataOff 1
    let handleTypes ← accessArray p.payload handleTypesOff 4
    let newRouters ← accessArray p.payload newRoutersOff 96
    let handleTypes ← lift ((chunksExact 4 handleTypes).mapM exactU32)
    pure (.acceptParcel
      { sublink, sequenceNumber, subparcelIndex, numSubparcels, parcelFragment, parcelData
        handleTypes, newRouters, driverObjects })
  else if id = msgIdAcceptParcelDriverObjects then do
    p.accessRequire 16
    let sublink ← p.accessU64 0
    let sequenceNumber ← p.accessU64 8
    let driverObjects ← accessDriverObjects p.payload hdr numFds
    pure (.acceptParcelDriverObjects sublink sequenceNumber driverObjects)
  else if id = msgIdRouteClosed then do
    p.accessRequire 16
    pure (.routeClosed (← p.accessU64 0) (← p.accessU64 8))
  else if id = msgIdRouteDisconnected then do
    p.accessRequire 8
    pure (.routeDisconnected (← p.accessU64 0))
  else if id = msgIdBypassPeerWithLink then do
    p.accessRequire 40
    pure (.bypassPeerWithLink (← p.accessU64 0) (← p.accessU64 8) (← p.accessFrag 16)
      (← p.accessU64 32))
  else if id = msgIdBypassPeer then do
    p.accessRequire 32
    pure (.bypassPeer (← p.accessU64 0) (← p.accessNode 16) (← p.accessU64 24))
  else if id = msgIdAcceptBypassLink then do
    p.accessRequire 48
    pure (.acceptBypassLink (← p.accessNode 0) (← p.accessU64 16) (← p.accessU64 24)
      (← p.accessU64 32) (← p.accessFrag 40))
  else if id = msgIdStopProxying then do
    p.accessRequire 24
    pure (.stopProxying (← p.accessU64 0) (← p.accessU64 8) (← p.accessU64 16))
  else if id = msgIdProxyWillStop then do
    p.accessRequire 16
    pure (.proxyWillStop (← p.accessU64 0) (← p.accessU64 8))
  else if id = msgIdStopProxyingToLocalPeer then do
    p.accessRequire 16
    pure (.stopProxyingToLocalPeer (← p.accessU64 0) (← p.accessU64 8))
  else if id = msgIdFlushRouter then do
    p.accessRequire 8
    pure (.flushRouter (← p.accessU64 0))
  else if id = msgIdRequestMemory then do
    p.accessRequire 8
    pure (.requestMemory (← p.accessU32 0))
  else if id = msgIdProvideMemory then do
    p.accessRequire 8
    let driverObjects ← accessDriverObjects p.payload hdr numFds
    let buffer ← p.accessU32 4
    if buffer ≠ 0 then lift (.error .badDriverObjects)
    else do
      let single ← accessSingleObject driverObjects
      if !single then lift (.error .badDriverObjects)
      else pure (.provideMemory (← p.accessU32 0))
  else pure (.unknown id)

/-- The header of a message. -/
def accessHeader (payload : List UInt8) : Accessing MessageHeader :=
  if payload.length < messageHeaderSize then lift (.error .shortMessageHeader)
  else do
    record (.index payload.length 0)
    let size := payload.getD 0 0
    if size ≠ UInt8.ofNat messageHeaderSize then lift (.error (.unknownMessageHeaderSize size))
    else do
      let seqBytes ← accessSlice payload 8 16
      record (.copy 8 seqBytes.length)
      let dobjBytes ← accessSlice payload 16 20
      record (.copy 4 dobjBytes.length)
      record (.index payload.length 1)
      record (.index payload.length 2)
      pure
        { size
          version := payload.getD 1 0
          messageId := payload.getD 2 0
          nodeSequenceNumber := getU64 seqBytes 0
          driverObjectDataArray := getU32 dobjBytes 0 }

/-- `decode_message`, with its record. -/
def accessMessage (payload : List UInt8) (numFds : Nat) : Accessing DecodedMessage := do
  let hdr ← accessHeader payload
  let po := hdr.size.toNat
  if payload.length < po then lift (.error .shortParams)
  else
    let params := payload.drop po
    if params.length < 8 then lift (.error .shortParams)
    else do
      let paramsSize := (← accessNumber exactU32 params 0 4).toNat
      if paramsSize < 8 ∨ paramsSize > params.length then lift (.error .badParamsSize)
      else do
        record (.sum (po + 8))
        let fields := po + 8
        record (.sum (fields + paramsSize))
        record (.difference (fields + paramsSize) 8)
        accessParams hdr ⟨payload, fields, fields + paramsSize - 8⟩ numFds

/-! ### Results -/

section Results

variable {b payload : List UInt8} {s w : Nat}

theorem length_slice (h : s + w ≤ b.length) : ((b.take (s + w)).drop s).length = w := by
  rw [List.length_drop, List.length_take, Nat.min_eq_left h]
  omega

theorem readLE_slice : readLE ((b.take (s + w)).drop s) 0 w = readLE b s w := by
  show ofLE ((((b.take (s + w)).drop s).drop 0).take w) = ofLE ((b.drop s).take w)
  rw [List.drop_zero, List.drop_take, Nat.add_sub_cancel_left, List.take_take, Nat.min_self]

theorem accessNumber_u16 (h : s + 2 ≤ b.length) :
    (accessNumber exactU16 b s (s + 2)).result = .ok (getU16 b s) := by
  show exactU16 ((b.take (s + 2)).drop s) = _
  rw [exactU16, if_pos (length_slice h)]
  exact congrArg Except.ok (congrArg UInt16.ofNat readLE_slice)

theorem accessNumber_u32 (h : s + 4 ≤ b.length) :
    (accessNumber exactU32 b s (s + 4)).result = .ok (getU32 b s) := by
  show exactU32 ((b.take (s + 4)).drop s) = _
  rw [exactU32, if_pos (length_slice h)]
  exact congrArg Except.ok (congrArg UInt32.ofNat readLE_slice)

theorem accessNumber_u64 (h : s + 8 ≤ b.length) :
    (accessNumber exactU64 b s (s + 8)).result = .ok (getU64 b s) := by
  show exactU64 ((b.take (s + 8)).drop s) = _
  rw [exactU64, if_pos (length_slice h)]
  exact congrArg Except.ok (congrArg UInt64.ofNat readLE_slice)

@[simp] theorem result_pure {α : Type} (a : α) : (pure a : Accessing α).result = .ok a := rfl

@[simp] theorem ok_bind {α β : Type} (a : α) (f : α → Except WireError β) :
    (Except.ok a >>= f) = f a := rfl

theorem result_ite {α : Type} (c : Prop) [Decidable c] (x y : Accessing α) :
    (if c then x else y).result = if c then x.result else y.result := apply_ite ..

theorem accessArray_result (payload : List UInt8) (off : UInt32) {elementSize : Nat}
    (hsize : elementSize < 2 ^ 32) :
    (accessArray payload off elementSize).result = readArray payload off elementSize := by
  unfold accessArray readArray
  dsimp only
  by_cases hoff : off = 0
  · rw [if_pos hoff, if_pos hoff]
    rfl
  by_cases hlen : payload.length < off.toNat
  · rw [if_neg hoff, if_neg hoff, if_pos hlen, if_pos hlen]
    rfl
  by_cases hshort : (payload.drop off.toNat).length < 8
  · rw [if_neg hoff, if_neg hoff, if_neg hlen, if_neg hlen, if_pos hshort, if_pos hshort]
    rfl
  generalize payload.drop off.toNat = arr at hshort ⊢
  have hroom : 4 + 4 ≤ arr.length := Nat.le_of_not_lt hshort
  have hbytes := accessNumber_u32 (b := arr) (s := 0) (by omega)
  have helements := accessNumber_u32 (s := 4) hroom
  have hmul : ¬2 ^ 64 ≤ (getU32 arr 4).toNat * elementSize := by
    have hlt := Nat.mul_lt_mul'' (getU32 arr 4).toNat_lt hsize
    omega
  rw [if_neg hoff, if_neg hoff, if_neg hlen, if_neg hlen, if_neg hshort, if_neg hshort]
  rw [result_bind, hbytes, ok_bind, result_bind, helements, ok_bind, result_ite]
  refine ite_congr rfl (fun _ => rfl) fun _ => ?_
  rw [result_bind, result_record, ok_bind, if_neg hmul, result_ite]
  refine ite_congr rfl (fun _ => rfl) fun _ => ?_
  show Except.ok _ = _
  rw [List.drop_take, Nat.add_sub_cancel_left]

theorem accessObjects_result (payload : List UInt8) (numFds nextFd : Nat)
    {chunks : List (List UInt8)} (hchunks : ∀ c ∈ chunks, c.length = 8) :
    (accessObjects payload numFds nextFd chunks).result =
      readObjects payload numFds nextFd chunks := by
  induction chunks generalizing nextFd with
  | nil => rfl
  | cons chunk rest ih =>
      obtain ⟨hlen, hrest⟩ := List.forall_mem_cons.mp hchunks
      have harray := accessNumber_u32 (b := chunk) (s := 0) (by omega)
      have hfirst := accessNumber_u16 (b := chunk) (s := 4) (by omega)
      have hnum := accessNumber_u16 (b := chunk) (s := 6) (by omega)
      rw [accessObjects, readObjects, result_bind, harray, ok_bind, result_bind, hfirst, ok_bind,
        result_bind, hnum, ok_bind, result_ite]
      refine ite_congr rfl (fun _ => rfl) fun _ => ?_
      rw [result_bind, result_record, ok_bind, result_ite]
      refine ite_congr rfl (fun _ => rfl) fun _ => ?_
      rw [result_bind, accessArray_result _ _ (by decide)]
      refine bind_congr fun data => ?_
      rw [result_bind, ih _ hrest]
      rfl

theorem accessDriverObjects_result (payload : List UInt8) (hdr : MessageHeader) (numFds : Nat) :
    (accessDriverObjects payload hdr numFds).result = readDriverObjects payload hdr numFds := by
  unfold accessDriverObjects readDriverObjects
  rw [result_ite]
  refine ite_congr rfl (fun _ => rfl) fun _ => ?_
  rw [result_bind, accessArray_result _ _ (by decide)]
  refine bind_congr fun data => ?_
  rw [result_ite]
  refine ite_congr rfl (fun _ => rfl) fun _ => ?_
  rw [result_bind, accessObjects_result _ _ _ fun _ => length_of_mem_chunksExact]
  refine bind_congr fun _ => ?_
  exact result_ite ..

@[simp] theorem accessSingleObject_result (objects : List DriverObjectRef) :
    (accessSingleObject objects).result = .ok (singleObject objects) := by
  unfold accessSingleObject singleObject
  by_cases hone : objects.length = 1
  · rw [if_neg (not_not.mpr hone), hone]
    rfl
  · rw [if_pos hone, beq_eq_false_iff_ne.mpr hone]
    rfl

/-- The types of handles are read from whole chunks. -/
theorem mapM_exactU32 (l : List UInt8) :
    (chunksExact 4 l).mapM exactU32 = .ok ((chunksExact 4 l).map (getU32 · 0)) := by
  have hlen : ∀ c ∈ chunksExact 4 l, c.length = 4 := fun _ => length_of_mem_chunksExact
  generalize chunksExact 4 l = chunks at hlen ⊢
  induction chunks with
  | nil => rfl
  | cons c rest ih =>
      obtain ⟨hc, hrest⟩ := List.forall_mem_cons.mp hlen
      rw [List.mapM_cons, ih hrest, exactU32, if_pos hc]
      rfl

/-- The parameters lie in the payload, below `2 ^ 32`. -/
structure Params.Inside (p : Params) : Prop where
  fields_lt : p.fields < 2 ^ 32
  fieldsEnd_le : p.fieldsEnd ≤ p.payload.length

theorem inside_declared {payload : List UInt8} {po size : Nat} (hpo : po < 256)
    (hsize : po + size ≤ payload.length) :
    Params.Inside ⟨payload, po + 8, po + 8 + size - 8⟩ where
  fields_lt := by
    show po + 8 < 2 ^ 32
    omega
  fieldsEnd_le := by
    show po + 8 + size - 8 ≤ payload.length
    omega

namespace Params

variable {p : Params} {off : Nat} (hp : p.Inside)
include hp

theorem accessU32_result (hoff : off < 2 ^ 32) : (p.accessU32 off).result = p.u32 off := by
  have hfields := hp.fields_lt
  have hend := hp.fieldsEnd_le
  unfold accessU32 accessField u32
  rw [result_bind, checkedOffset, if_pos (by omega), result_lift, ok_bind, result_bind,
    checkedOffset, if_pos (by omega), result_lift, ok_bind, result_ite]
  exact ite_congr rfl (fun _ => rfl) fun h => accessNumber_u32 (by omega)

theorem accessU64_result (hoff : off < 2 ^ 32) : (p.accessU64 off).result = p.u64 off := by
  have hfields := hp.fields_lt
  have hend := hp.fieldsEnd_le
  unfold accessU64 accessField u64
  rw [result_bind, checkedOffset, if_pos (by omega), result_lift, ok_bind, result_bind,
    checkedOffset, if_pos (by omega), result_lift, ok_bind, result_ite]
  exact ite_congr rfl (fun _ => rfl) fun h => accessNumber_u64 (by omega)

theorem accessNode_result (hoff : off + 8 < 2 ^ 32) : (p.accessNode off).result = p.node off := by
  unfold accessNode node
  rw [result_bind, accessU64_result hp (by omega)]
  refine bind_congr fun high => ?_
  rw [result_bind, result_record, ok_bind, result_bind, accessU64_result hp hoff]
  rfl

theorem accessFrag_result (hoff : off + 12 < 2 ^ 32) : (p.accessFrag off).result = p.frag off := by
  unfold accessFrag frag
  rw [result_bind, accessU64_result hp (by omega)]
  refine bind_congr fun bufferId => ?_
  rw [result_bind, result_record, ok_bind, result_bind, accessU32_result hp (by omega)]
  refine bind_congr fun offset => ?_
  rw [result_bind, result_record, ok_bind, result_bind, accessU32_result hp hoff]
  rfl

end Params

@[simp] theorem accessRequire_result (p : Params) (n : Nat) :
    (p.accessRequire n).result = p.require n := rfl

/-- A branch at a time. -/
theorem result_branch {α : Type} {c : Prop} {_ : Decidable c} {x y : Accessing α}
    {x' y' : Except WireError α} (hy : ¬c → y.result = y') (hx : x.result = x') :
    (if c then x else y).result = if c then x' else y' := by
  rw [result_ite]
  exact ite_congr rfl (fun _ => hx) hy

theorem accessParams_result (hdr : MessageHeader) {p : Params} (hp : p.Inside) (numFds : Nat) :
    (accessParams hdr p numFds).result = decodeParams hdr p numFds := by
  unfold accessParams decodeParams
  dsimp only
  -- one branch for each message id, and the last one
  iterate 26 refine result_branch (fun _ => ?_) ?_
  all_goals
    simp (disch := decide) only [result_bind, result_ite, result_pure, result_lift, ok_bind,
      accessRequire_result, accessDriverObjects_result, accessSingleObject_result,
      accessArray_result, mapM_exactU32, Params.accessU32_result hp, Params.accessU64_result hp,
      Params.accessNode_result hp, Params.accessFrag_result hp, ite_or]

theorem accessHeader_result (payload : List UInt8) :
    (accessHeader payload).result = parseMessageHeader payload := by
  unfold accessHeader parseMessageHeader
  refine result_branch (fun _ => ?_) rfl
  rw [result_bind, result_record, ok_bind]
  refine result_branch (fun _ => ?_) rfl
  have hseq : getU64 ((payload.take 16).drop 8) 0 = getU64 payload 8 :=
    congrArg UInt64.ofNat (readLE_slice (s := 8) (w := 8))
  have hdobj : getU32 ((payload.take 20).drop 16) 0 = getU32 payload 16 :=
    congrArg UInt32.ofNat (readLE_slice (s := 16) (w := 4))
  rw [← hseq, ← hdobj]
  rfl

/-- What is recorded is the decoder. -/
theorem accessMessage_result (payload : List UInt8) (numFds : Nat) :
    (accessMessage payload numFds).result = decodeMessage payload numFds := by
  unfold accessMessage decodeMessage
  rw [result_bind, accessHeader_result]
  refine bind_congr fun hdr => ?_
  have hsize := hdr.size.toNat_lt
  dsimp only
  by_cases hshort : (payload.drop hdr.size.toNat).length < 8
  · rw [if_pos hshort, if_pos hshort, result_ite]
    exact ite_self _
  have hlen := List.length_drop (i := hdr.size.toNat) (l := payload)
  rw [if_neg hshort, if_neg (by omega), if_neg hshort, result_bind,
    accessNumber_u32 (s := 0) (by omega), ok_bind]
  refine result_branch (fun hfits => ?_) rfl
  exact accessParams_result hdr (inside_declared hsize (by omega)) numFds

end Results

end MojoRs.Ipcz
