/-
MojoRs/Ipcz/ParcelCodec.lean

The codec of parcels.  The encoder computes the offsets of the data, of the
handle types and of the router descriptors first and lays the arrays down
afterwards, without those that are empty.  The two agree, and everything comes
back; driver objects do as far as `readDriverObjects_iff` says.

Main result: `parcel_codec_iff`.
-/
import MojoRs.Ipcz.MessageCodec

namespace MojoRs.Ipcz

open Lib

/-! ### Arrays that may be left out -/

/-- An array, or nothing if it has no elements. -/
def optArray (elements : List UInt8) (n : UInt32) : List UInt8 :=
  if elements = [] then [] else arrayBytes elements n

theorem length_optArray {elements : List UInt8} (n : UInt32) :
    (optArray elements n).length = if elements = [] then 0 else align8 (8 + elements.length) := by
  rw [optArray]
  split
  · rfl
  · exact length_arrayBytes elements n

theorem appendArray_opt (b : MessageBuilder) {c : Bool} {elements : List UInt8} (n : UInt32)
    (hc : c = true ↔ elements ≠ []) :
    (if c then (b.appendArray elements n).1 else b) =
      ⟨b.header, b.body ++ optArray elements n⟩ := by
  by_cases h : elements = []
  · rw [if_neg fun hc' => hc.mp hc' h, optArray, if_pos h, List.append_nil]
  · rw [if_pos (hc.mpr h), optArray, if_neg h, appendArray_eq h]

/-- The offset that the encoder computes is where the array will stand. -/
theorem nextOffset_eq {off len : Nat} {elements : List UInt8} (n : UInt32)
    (hlen : len = elements.length) :
    nextOffset off len =
      (if elements = [] then 0 else UInt32.ofNat off, off + (optArray elements n).length) := by
  rw [nextOffset, length_optArray, hlen]
  by_cases h : elements = []
  · rw [if_pos h, if_pos h, h]
    rfl
  · rw [if_neg h, if_neg h, if_neg (fun h0 => h (List.length_eq_zero_iff.mp h0))]

/-- Where an array stands behind `pre` bytes. -/
def offsetOf (elements : List UInt8) (pre : Nat) : UInt32 :=
  if elements = [] then 0 else UInt32.ofNat pre

theorem readArray_opt {pre elements : List UInt8} (post : List UInt8) {n : UInt32}
    {elementSize : Nat} (hpos : 0 < pre.length)
    (hfit : (pre ++ optArray elements n).length < 2 ^ 32)
    (hcount : elements ≠ [] → elements.length < 2 ^ 32 → n.toNat * elementSize = elements.length) :
    readArray (pre ++ (optArray elements n ++ post)) (offsetOf elements pre.length) elementSize =
      .ok elements := by
  rw [List.length_append, length_optArray] at hfit
  by_cases h : elements = []
  · rw [offsetOf, if_pos h, h]
    rfl
  · have hle := le_align8 (8 + elements.length)
    rw [if_neg h] at hfit
    rw [offsetOf, if_neg h, optArray, if_neg h]
    exact readArray_append (toNat_ofNat_of_lt (by omega)) hpos (hcount h (by omega)) (by omega)

/-- A message is built with the sequence number 0. -/
theorem setMessageSequenceNumber_objects {b : MessageBuilder} (driverData : List (List UInt8))
    (h : b.header.nodeSequenceNumber = 0) :
    setMessageSequenceNumber (b.appendDriverObjects driverData).build 0 =
      (b.appendDriverObjects driverData).build := by
  rw [setMessageSequenceNumber_build, build_eq, appendDriverObjects_eq, ← h]

/-! ### Handle types and routers -/

theorem length_of_mem_leU32 (handleTypes : List UInt32) :
    ∀ l ∈ handleTypes.map leU32, l.length = 4 := by
  intro l hl
  obtain ⟨n, -, rfl⟩ := List.mem_map.mp hl
  exact length_leU32 n

theorem length_handleTypes (handleTypes : List UInt32) :
    (handleTypes.flatMap leU32).length = handleTypes.length * 4 := by
  rw [List.flatMap_def, length_flatten_of_forall (length_of_mem_leU32 handleTypes),
    List.length_map]

/-- Handle types are read as they were written. -/
theorem chunks_handleTypes (handleTypes : List UInt32) :
    (chunksExact 4 (handleTypes.flatMap leU32)).map (getU32 · 0) = handleTypes := by
  rw [List.flatMap_def, chunksExact_flatten (by decide) (length_of_mem_leU32 handleTypes),
    List.map_map]
  have hread : (getU32 · 0) ∘ leU32 = id := funext fun n => by
    have hn := getU32_leU32 n []
    rwa [List.append_nil] at hn
  rw [hread, List.map_id]

/-- What is inlined: nothing next to a fragment. -/
def inlineData (parcelFragment : Option FragmentDescriptor) (data : List UInt8) : List UInt8 :=
  if parcelFragment.isSome then [] else data

/-! ### Parcels -/

section Parcel

attribute [local simp] getU64_skip getU32_skip FragmentDescriptor.bytes

variable (sublink sequenceNumber : UInt64) (parcelFragment : Option FragmentDescriptor)
  (data : List UInt8) (handleTypes : List UInt32) (newRouters driverData : List (List UInt8))

/-- The arrays behind the parameters. -/
def parcelArrays : List UInt8 :=
  optArray (inlineData parcelFragment data) (UInt32.ofNat data.length) ++
    (optArray (handleTypes.flatMap leU32) (UInt32.ofNat handleTypes.length) ++
      optArray newRouters.flatten (UInt32.ofNat newRouters.length))

/-- The parameters, with the offsets of the arrays. -/
def parcelFields (pdOff htOff nrOff numObjects : UInt32) : List UInt8 :=
  leU64 sublink ++ (leU64 sequenceNumber ++ (leU32 0 ++ (leU32 1 ++
    ((parcelFragment.getD .null).bytes ++ (leU32 pdOff ++ (leU32 htOff ++ (leU32 nrOff ++
      (leU32 0 ++ (leU32 0 ++ leU32 numObjects)))))))))

theorem length_parcelFields (pdOff htOff nrOff numObjects : UInt32) :
    (parcelFields sublink sequenceNumber parcelFragment pdOff htOff nrOff numObjects).length =
      64 := by
  simp [parcelFields, FragmentDescriptor.bytes]

/-- The parcel before its driver objects are appended. -/
def parcelBuilder (numObjects : UInt32) : MessageBuilder :=
  let inline := inlineData parcelFragment data
  let types := handleTypes.flatMap leU32
  let htStart := 96 + (optArray inline (UInt32.ofNat data.length)).length
  let nrStart := htStart + (optArray types (UInt32.ofNat handleTypes.length)).length
  ⟨(MessageBuilder.new msgIdAcceptParcel).header,
    paramsBytes (parcelFields sublink sequenceNumber parcelFragment (offsetOf inline 96)
      (offsetOf types htStart) (offsetOf newRouters.flatten nrStart) numObjects) ++
    parcelArrays parcelFragment data handleTypes newRouters⟩

theorem isEmpty_iff_length {α : Type} {l : List α} {elements : List UInt8} {k : Nat} (hk : 0 < k)
    (hlen : elements.length = l.length * k) : (!l.isEmpty) = true ↔ elements ≠ [] := by
  rw [Bool.not_eq_true', ← Bool.not_eq_true, List.isEmpty_iff]
  apply not_congr
  rw [← List.length_eq_zero_iff, ← @List.length_eq_zero_iff _ elements, hlen, Nat.mul_eq_zero]
  exact ⟨.inl, fun h => h.resolve_right (Nat.ne_of_gt hk)⟩

/-- The data is appended unless it stands in a fragment. -/
theorem appendInline (b : MessageBuilder) (n : UInt32) :
    (if !data.isEmpty && parcelFragment.isNone then (b.appendArray data n).1 else b) =
      ⟨b.header, b.body ++ optArray (inlineData parcelFragment data) n⟩ := by
  cases parcelFragment with
  | none =>
      refine appendArray_opt b n ?_
      rw [Option.isNone_none, Bool.and_true]
      exact isEmpty_iff_length Nat.one_pos (Nat.mul_one _).symm
  | some f =>
      rw [Option.isNone_some, Bool.and_false]
      show b = ⟨b.header, b.body ++ []⟩
      rw [List.append_nil]

theorem parcelBuilder_body (numObjects : UInt32) :
    ∃ params : List UInt8, params.length = 72 ∧
      (parcelBuilder sublink sequenceNumber parcelFragment data handleTypes newRouters
        numObjects).body = params ++ parcelArrays parcelFragment data handleTypes newRouters :=
  ⟨_, by rw [length_paramsBytes, length_parcelFields]; rfl, rfl⟩

/-- Without driver objects there is nothing to append. -/
theorem appendDriverObjects_opt (b : MessageBuilder) :
    (if !driverData.isEmpty then b.appendDriverObjects driverData else b) =
      b.appendDriverObjects driverData := by
  cases driverData with
  | nil => rfl
  | cons => rfl

/-- What the encoder builds. -/
theorem encodeAcceptParcelFull_eq (hrouters : ∀ r ∈ newRouters, r.length = 96) :
    encodeAcceptParcelFull sublink sequenceNumber parcelFragment data handleTypes newRouters
      driverData =
    ((parcelBuilder sublink sequenceNumber parcelFragment data handleTypes newRouters
      (UInt32.ofNat driverData.length)).appendDriverObjects driverData).build := by
  have hstart : align8 (messageHeaderSize + 72) = 96 := rfl
  have hinline : (if parcelFragment.isSome then ((0 : UInt32), 96) else nextOffset 96 data.length) =
      (offsetOf (inlineData parcelFragment data) 96,
        96 + (optArray (inlineData parcelFragment data) (UInt32.ofNat data.length)).length) := by
    cases parcelFragment with
    | none => exact nextOffset_eq _ rfl
    | some f => rfl
  have htypes : ∀ off, nextOffset off (handleTypes.length * 4) =
      (offsetOf (handleTypes.flatMap leU32) off, off + (optArray (handleTypes.flatMap leU32)
        (UInt32.ofNat handleTypes.length)).length) :=
    fun off => nextOffset_eq _ (length_handleTypes handleTypes).symm
  have hnew : ∀ off, nextOffset off (newRouters.map List.length).sum =
      (offsetOf newRouters.flatten off, off + (optArray newRouters.flatten
        (UInt32.ofNat newRouters.length)).length) :=
    fun off => nextOffset_eq _ List.length_flatten.symm
  have htypesIff := isEmpty_iff_length (by decide) (length_handleTypes handleTypes)
  have hnewIff := isEmpty_iff_length (by decide) (length_flatten_of_forall hrouters)
  rw [encodeAcceptParcelFull, encodeAcceptParcelArrays]
  simp only [hstart, hinline, htypes, hnew, appendParams_eq, appendInline,
    appendArray_opt _ _ htypesIff, appendArray_opt _ _ hnewIff, appendDriverObjects_opt]
  rw [parcelBuilder, parcelArrays, parcelFields]
  simp only [List.append_assoc]

/-- The decoder reads the three arrays where they stand. -/
theorem readArray_parcelArrays {pre : List UInt8} (post : List UInt8) (hpre : pre.length = 96)
    (hfit : (pre ++ parcelArrays parcelFragment data handleTypes newRouters).length < 2 ^ 32)
    (hrouters : ∀ r ∈ newRouters, r.length = 96) :
    readArray (pre ++ (parcelArrays parcelFragment data handleTypes newRouters ++ post))
        (offsetOf (inlineData parcelFragment data) 96) 1 = .ok (inlineData parcelFragment data) ∧
      readArray (pre ++ (parcelArrays parcelFragment data handleTypes newRouters ++ post))
        (offsetOf (handleTypes.flatMap leU32) (96 + (optArray (inlineData parcelFragment data)
          (UInt32.ofNat data.length)).length)) 4 = .ok (handleTypes.flatMap leU32) ∧
      readArray (pre ++ (parcelArrays parcelFragment data handleTypes newRouters ++ post))
        (offsetOf newRouters.flatten (96 + (optArray (inlineData parcelFragment data)
          (UInt32.ofNat data.length)).length + (optArray (handleTypes.flatMap leU32)
            (UInt32.ofNat handleTypes.length)).length)) 96 = .ok newRouters.flatten := by
  have hlen := length_handleTypes handleTypes
  have hlen' := length_flatten_of_forall hrouters
  have hinline : inlineData parcelFragment data ≠ [] → inlineData parcelFragment data = data := by
    cases parcelFragment with
    | none => exact fun _ => rfl
    | some f => exact fun h => absurd rfl h
  have hassoc : pre ++ (parcelArrays parcelFragment data handleTypes newRouters ++ post) =
      pre ++ (optArray (inlineData parcelFragment data) (UInt32.ofNat data.length) ++
        (optArray (handleTypes.flatMap leU32) (UInt32.ofNat handleTypes.length) ++
          (optArray newRouters.flatten (UInt32.ofNat newRouters.length) ++ post))) := by
    simp only [parcelArrays, List.append_assoc]
  rw [hassoc]
  rw [parcelArrays] at hfit
  generalize hpd : optArray (inlineData parcelFragment data) (UInt32.ofNat data.length) = pd at *
  generalize hht : optArray (handleTypes.flatMap leU32) (UInt32.ofNat handleTypes.length) = ht at *
  rw [List.length_append, List.length_append, List.length_append] at hfit
  refine ⟨?_, ?_, ?_⟩
  · rw [← hpd, ← hpre]
    refine readArray_opt _ (by omega) (by rw [List.length_append, hpd]; omega) fun hne hlt => ?_
    rw [hinline hne] at hlt ⊢
    rw [toNat_ofNat_of_lt hlt, Nat.mul_one]
  · have hpre' : (pre ++ pd).length = 96 + pd.length := by rw [List.length_append, hpre]
    rw [← List.append_assoc, ← hht, ← hpre']
    refine readArray_opt _ (by omega) (by rw [List.length_append, hht]; omega) fun _ hlt => ?_
    rw [toNat_ofNat_of_lt (by omega), hlen]
  · have hpre' : (pre ++ (pd ++ ht)).length = 96 + pd.length + ht.length := by
      rw [List.length_append, List.length_append, hpre, Nat.add_assoc]
    rw [← List.append_assoc pd, ← List.append_assoc pre, ← hpre']
    refine readArray_opt _ (by omega) (by rw [List.length_append]; omega) fun _ hlt => ?_
    rw [toNat_ofNat_of_lt (by omega), hlen']

/-- The parcel that should arrive. -/
def sentParcel : AcceptParcel where
  sublink := sublink
  sequenceNumber := sequenceNumber
  subparcelIndex := 0
  numSubparcels := 1
  parcelFragment := parcelFragment.getD .null
  parcelData := inlineData parcelFragment data
  handleTypes := handleTypes
  newRouters := newRouters.flatten
  driverObjects := driverRefs 0 driverData

/-- A parcel comes back with its driver objects. -/
theorem decode_acceptParcel (hrouters : ∀ r ∈ newRouters, r.length = 96)
    (hsmall : (encodeAcceptParcelFull sublink sequenceNumber parcelFragment data handleTypes
      newRouters driverData).length + 8 * driverData.length < 2 ^ 32) :
    decodeMessage (encodeAcceptParcelFull sublink sequenceNumber parcelFragment data handleTypes
        newRouters driverData) driverData.length =
      .ok (.acceptParcel (sentParcel sublink sequenceNumber parcelFragment data handleTypes
        newRouters driverData)) ↔
    EmptyLast driverData ∧ driverData.length ≤ 65536 := by
  rw [encodeAcceptParcelFull_eq _ _ _ _ _ _ _ hrouters] at hsmall ⊢
  obtain ⟨⟨size, version, _, sequence, array⟩, p, tail, rfl, hp, hpayload, hiff, hdec⟩ :=
    @decode_objects (parcelBuilder sublink sequenceNumber parcelFragment data handleTypes newRouters
      (UInt32.ofNat driverData.length)) _ _ 64 driverData rfl rfl rfl
      (by rw [length_parcelFields]; rfl) (by decide) hsmall 0
  rw [setMessageSequenceNumber_objects driverData rfl] at hdec
  rw [hdec, ← hiff]
  -- the fixed fields
  rw [parcelFields] at hp
  have hsublink : p.u64 0 = .ok sublink ∧ p.u64 8 = .ok sequenceNumber := by
    constructor
    all_goals
      rw [hp.u64 (by decide)]
      simp
  have hsub : p.u32 16 = .ok 0 ∧ p.u32 20 = .ok 1 := by
    constructor
    all_goals
      rw [hp.u32 (by decide)]
      simp
  have hfrag : p.frag 24 = .ok (parcelFragment.getD .null) := by
    rw [hp.frag (by decide)]
    simp
  have hpd : p.u32 40 = .ok (offsetOf (inlineData parcelFragment data) 96) := by
    rw [hp.u32 (by decide)]
    simp
  have hht : p.u32 44 = .ok (offsetOf (handleTypes.flatMap leU32) (96 + (optArray (inlineData
      parcelFragment data) (UInt32.ofNat data.length)).length)) := by
    rw [hp.u32 (by decide)]
    simp
  have hnr : p.u32 48 = .ok (offsetOf newRouters.flatten (96 + (optArray (inlineData
      parcelFragment data) (UInt32.ofNat data.length)).length + (optArray (handleTypes.flatMap
        leU32) (UInt32.ofNat handleTypes.length)).length)) := by
    rw [hp.u32 (by decide)]
    simp
  -- the arrays
  obtain ⟨params, hparams, hbody⟩ := parcelBuilder_body sublink sequenceNumber parcelFragment data
    handleTypes newRouters (UInt32.ofNat driverData.length)
  rw [build_eq, appendDriverObjects_eq, hbody] at hsmall
  rw [hbody] at hpayload
  generalize hheader : MessageHeader.bytes _ = header at hpayload
  have hlen : header.length = 24 := hheader ▸ length_headerBytes _
  have hpre : (header ++ params).length = 96 := by rw [List.length_append, hlen, hparams]
  have hfit : ((header ++ params) ++ parcelArrays parcelFragment data handleTypes
      newRouters).length < 2 ^ 32 := by
    rw [List.length_append, hpre]
    rw [List.length_append, length_headerBytes, List.length_append, List.length_append,
      hparams] at hsmall
    show 96 + _ < _
    unfold messageHeaderSize at hsmall
    omega
  rw [← List.append_assoc header, List.append_assoc (header ++ params)] at hpayload
  obtain ⟨hdata, htypes, hnew⟩ := readArray_parcelArrays parcelFragment data handleTypes newRouters
    (objectBytes _ driverData) hpre hfit hrouters
  rw [← hpayload] at hdata htypes hnew
  show (do
    p.require 64
    let sublink ← p.u64 0
    let sequenceNumber ← p.u64 8
    let subparcelIndex ← p.u32 16
    let numSubparcels ← p.u32 20
    let parcelFragment ← p.frag 24
    let parcelDataOff ← p.u32 40
    let handleTypesOff ← p.u32 44
    let newRoutersOff ← p.u32 48
    let driverObjects ← readDriverObjects p.payload _ driverData.length
    let parcelData ← readArray p.payload parcelDataOff 1
    let handleTypes ← readArray p.payload handleTypesOff 4
    let newRouters ← readArray p.payload newRoutersOff 96
    Except.ok (DecodedMessage.acceptParcel
      { sublink, sequenceNumber, subparcelIndex, numSubparcels, parcelFragment, parcelData
        handleTypes := (chunksExact 4 handleTypes).map (getU32 · 0)
        newRouters, driverObjects })) = _ ↔ readDriverObjects p.payload _ driverData.length = _
  rw [hp.require (by decide), hsublink.1, hsublink.2, hsub.1, hsub.2, hfrag, hpd, hht, hnr]
  cases readDriverObjects p.payload _ driverData.length with
  | error e => exact ⟨nofun, nofun⟩
  | ok objects =>
      show (do
        let parcelData ← readArray p.payload _ 1
        let types ← readArray p.payload _ 4
        let routers ← readArray p.payload _ 96
        Except.ok (DecodedMessage.acceptParcel ⟨sublink, sequenceNumber, 0, 1,
          parcelFragment.getD .null, parcelData, (chunksExact 4 types).map (getU32 · 0), routers,
          objects⟩)) = _ ↔ _
      rw [hdata, htypes, hnew]
      show Except.ok (DecodedMessage.acceptParcel ⟨sublink, sequenceNumber, 0, 1,
        parcelFragment.getD .null, inlineData parcelFragment data,
        (chunksExact 4 (handleTypes.flatMap leU32)).map (getU32 · 0), newRouters.flatten,
        objects⟩) = _ ↔ _
      rw [chunks_handleTypes]
      constructor
      · intro h
        injection Except.ok.inj h with hparcel
        injection hparcel with _ _ _ _ _ _ _ _ hobjects
        rw [hobjects]
      · intro h
        rw [Except.ok.inj h]
        rfl

/-- And so do the driver objects that are sent on their own. -/
theorem decode_acceptParcelDriverObjects
    (hsmall : (encodeAcceptParcelDriverObjects sublink sequenceNumber driverData).length +
      8 * driverData.length < 2 ^ 32) :
    decodeMessage (encodeAcceptParcelDriverObjects sublink sequenceNumber driverData)
        driverData.length =
      .ok (.acceptParcelDriverObjects sublink sequenceNumber (driverRefs 0 driverData)) ↔
    EmptyLast driverData ∧ driverData.length ≤ 65536 := by
  rw [encodeAcceptParcelDriverObjects, appendDriverObjects_opt] at hsmall ⊢
  obtain ⟨⟨size, version, _, sequence, array⟩, p, tail, rfl, hp, -, hiff, hdec⟩ :=
    @decode_objects _ (leU64 sublink ++ (leU64 sequenceNumber ++ (leU32 0 ++
      leU32 (UInt32.ofNat driverData.length)))) [] 24 driverData (List.append_nil _).symm rfl rfl
      (by simp [align8]) (by decide) hsmall 0
  rw [setMessageSequenceNumber_objects driverData rfl] at hdec
  rw [hdec, ← hiff]
  have hsublink : p.u64 0 = .ok sublink ∧ p.u64 8 = .ok sequenceNumber := by
    constructor
    all_goals
      rw [hp.u64 (by decide)]
      simp
  show (do
    p.require 16
    let sublink ← p.u64 0
    let sequenceNumber ← p.u64 8
    let driverObjects ← readDriverObjects p.payload _ driverData.length
    Except.ok (DecodedMessage.acceptParcelDriverObjects sublink sequenceNumber driverObjects)) =
      _ ↔ readDriverObjects p.payload _ driverData.length = _
  rw [hp.require (by decide), hsublink.1, hsublink.2]
  cases readDriverObjects p.payload _ driverData.length with
  | error e => exact ⟨nofun, nofun⟩
  | ok objects =>
      constructor
      · intro h
        injection Except.ok.inj h with _ _ hobjects
        rw [hobjects]
      · intro h
        rw [Except.ok.inj h]
        rfl

end Parcel

/-- A parcel, and the driver objects of one, come back if and only if the objects
without data come last and the descriptors can be counted in 16 bits. -/
theorem parcel_codec_iff (sublink sequenceNumber : UInt64)
    (parcelFragment : Option FragmentDescriptor) (data : List UInt8) (handleTypes : List UInt32)
    (newRouters driverData : List (List UInt8)) (hrouters : ∀ r ∈ newRouters, r.length = 96) :
    ((encodeAcceptParcelFull sublink sequenceNumber parcelFragment data handleTypes newRouters
        driverData).length + 8 * driverData.length < 2 ^ 32 →
      (decodeMessage (encodeAcceptParcelFull sublink sequenceNumber parcelFragment data
          handleTypes newRouters driverData) driverData.length =
        .ok (.acceptParcel (sentParcel sublink sequenceNumber parcelFragment data handleTypes
          newRouters driverData)) ↔
        EmptyLast driverData ∧ driverData.length ≤ 65536)) ∧
    ((encodeAcceptParcelDriverObjects sublink sequenceNumber driverData).length +
        8 * driverData.length < 2 ^ 32 →
      (decodeMessage (encodeAcceptParcelDriverObjects sublink sequenceNumber driverData)
          driverData.length =
        .ok (.acceptParcelDriverObjects sublink sequenceNumber (driverRefs 0 driverData)) ↔
        EmptyLast driverData ∧ driverData.length ≤ 65536)) :=
  ⟨decode_acceptParcel sublink sequenceNumber parcelFragment data handleTypes newRouters driverData
      hrouters,
    decode_acceptParcelDriverObjects sublink sequenceNumber driverData⟩

/-- A parcel with a portal and two driver objects, of which the last is empty. -/
def mixedObjects : List (List UInt8) := [[7], []]

/-- A router descriptor of 96 bytes. -/
def mixedRouters : List (List UInt8) := [List.replicate 96 9]

set_option maxRecDepth 2000 in
theorem length_mixedParcel :
    (encodeAcceptParcelFull 1 2 none [5] [0, 1, 1] mixedRouters mixedObjects).length = 280 := rfl

theorem parcel_codec_mixed :
    decodeMessage (encodeAcceptParcelFull 1 2 none [5] [0, 1, 1] mixedRouters mixedObjects)
        mixedObjects.length =
      .ok (.acceptParcel (sentParcel 1 2 none [5] [0, 1, 1] mixedRouters mixedObjects)) := by
  have hrouters : ∀ r ∈ mixedRouters, r.length = 96 := by
    intro r hr
    rw [List.mem_singleton.mp hr, List.length_replicate]
  have hsmall : (encodeAcceptParcelFull 1 2 none [5] [0, 1, 1] mixedRouters
      mixedObjects).length + 8 * mixedObjects.length < 2 ^ 32 := by
    rw [length_mixedParcel]
    decide
  exact ((parcel_codec_iff 1 2 none [5] [0, 1, 1] mixedRouters mixedObjects hrouters).1
    hsmall).mpr ⟨by decide, by decide⟩

/-- An empty driver object in front of another. -/
def emptyFirst : List (List UInt8) := [[], [7]]

theorem parcel_codec_fails :
    decodeMessage (encodeAcceptParcelFull 1 2 none [5] [1, 1] [] emptyFirst) emptyFirst.length ≠
      .ok (.acceptParcel ⟨1, 2, 0, 1, .null, [5], [1, 1], [], [⟨[], 0, 1⟩, ⟨[7], 1, 1⟩]⟩) := by
  intro h
  have hlen : (encodeAcceptParcelFull 1 2 none [5] [1, 1] [] emptyFirst).length = 168 := rfl
  have hsmall : (encodeAcceptParcelFull 1 2 none [5] [1, 1] [] emptyFirst).length +
      8 * emptyFirst.length < 2 ^ 32 := by
    rw [hlen]
    decide
  have hlast := ((decode_acceptParcel 1 2 none [5] [1, 1] [] emptyFirst nofun hsmall).mp h).1
  exact absurd hlast (by decide)

end MojoRs.Ipcz
