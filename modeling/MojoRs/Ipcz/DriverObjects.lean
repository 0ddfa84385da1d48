/-
MojoRs/Ipcz/DriverObjects.lean

Driver objects on the wire: an array of entries, and the data of each object in
an array of its own.  The encoder computes where the data will stand before it
writes it, and counts 8 bytes for an empty object that it then does not write.
So the offsets are right as long as no object with data follows an empty one.

Main result: `readDriverObjects_iff`.
-/
import MojoRs.Ipcz.MessageLayout

namespace MojoRs.Ipcz

open Lib

/-- The objects with the given data, each with one descriptor, from descriptor
`fd` on. -/
def driverRefs : Nat → List (List UInt8) → List DriverObjectRef
  | _, [] => []
  | fd, data :: rest => ⟨data, fd, 1⟩ :: driverRefs (fd + 1) rest

/-- Empty objects come last. -/
def EmptyLast (driverData : List (List UInt8)) : Prop :=
  driverData.Pairwise fun a b => a = [] → b = []

instance (driverData : List (List UInt8)) : Decidable (EmptyLast driverData) :=
  inferInstanceAs (Decidable (List.Pairwise _ _))

/-! ### What is appended -/

/-- The data arrays of the objects. -/
def dataBytes : List (List UInt8) → List UInt8
  | [] => []
  | data :: rest =>
      (if data = [] then [] else arrayBytes data (UInt32.ofNat data.length)) ++ dataBytes rest

/-- The sizes that the encoder counts. -/
def dataSize : List (List UInt8) → Nat
  | [] => 0
  | data :: rest => align8 (8 + data.length) + dataSize rest

theorem dataSize_le (driverData : List (List UInt8)) :
    dataSize driverData ≤ (dataBytes driverData).length + 8 * driverData.length := by
  induction driverData with
  | nil => exact Nat.le_refl 0
  | cons data rest ih =>
      rw [dataSize, dataBytes, List.length_append, List.length_cons]
      by_cases hdata : data = []
      · subst hdata
        have hpad : align8 (8 + ([] : List UInt8).length) = 8 := rfl
        rw [hpad, if_pos rfl, List.length_nil]
        omega
      · rw [if_neg hdata, length_arrayBytes]
        omega

theorem appendData_eq (b : MessageBuilder) (driverData : List (List UInt8)) :
    b.appendData driverData = ⟨b.header, b.body ++ dataBytes driverData⟩ := by
  induction driverData generalizing b with
  | nil => rw [MessageBuilder.appendData, dataBytes, List.append_nil]
  | cons data rest ih =>
      rw [MessageBuilder.appendData, dataBytes]
      by_cases hdata : data = []
      · rw [if_pos (List.isEmpty_iff.mpr hdata), if_pos hdata, ih, List.nil_append]
      · rw [if_neg (by rwa [List.isEmpty_iff]), if_neg hdata, appendArray_eq hdata, ih,
          List.append_assoc]

theorem length_dataOffsets (off : Nat) (driverData : List (List UInt8)) :
    (MessageBuilder.dataOffsets off driverData).length = driverData.length := by
  induction driverData generalizing off with
  | nil => rfl
  | cons data rest ih => rw [MessageBuilder.dataOffsets, List.length_cons, ih, List.length_cons]

theorem length_objectEntries (handles : UInt16) (offs : List Nat) :
    (MessageBuilder.objectEntries handles offs).length = offs.length := by
  induction offs generalizing handles with
  | nil => rfl
  | cons off rest ih => rw [MessageBuilder.objectEntries, List.length_cons, ih, List.length_cons]

theorem length_of_mem_objectEntries {handles : UInt16} {offs : List Nat} {entry : List UInt8}
    (h : entry ∈ MessageBuilder.objectEntries handles offs) : entry.length = 8 := by
  induction offs generalizing handles with
  | nil => nomatch h
  | cons off rest ih =>
      rw [MessageBuilder.objectEntries, List.mem_cons] at h
      rcases h with rfl | h
      · simp only [List.length_append, length_leU32, length_leU16]
      · exact ih h

/-- The driver object array. -/
def objectArray (off : Nat) (driverData : List (List UInt8)) : List (List UInt8) :=
  MessageBuilder.objectEntries 0 (MessageBuilder.dataOffsets off driverData)

theorem length_objectArray (off : Nat) (driverData : List (List UInt8)) :
    (objectArray off driverData).length = driverData.length := by
  rw [objectArray, length_objectEntries, length_dataOffsets]

theorem length_of_mem_objectArray (off : Nat) (driverData : List (List UInt8)) :
    ∀ entry ∈ objectArray off driverData, entry.length = 8 :=
  fun _ h => length_of_mem_objectEntries h

theorem length_flatten_objectArray (off : Nat) (driverData : List (List UInt8)) :
    (objectArray off driverData).flatten.length = driverData.length * 8 := by
  rw [length_flatten_of_forall (length_of_mem_objectArray off driverData), length_objectArray]

/-- What is appended to a payload of `start` bytes. -/
def objectBytes (start : Nat) (driverData : List (List UInt8)) : List UInt8 :=
  if driverData = [] then []
  else
    arrayBytes (objectArray (start + align8 (8 + driverData.length * 8)) driverData).flatten
      (UInt32.ofNat driverData.length) ++ dataBytes driverData

theorem appendDriverObjects_eq (b : MessageBuilder) (driverData : List (List UInt8)) :
    b.appendDriverObjects driverData =
      ⟨{ b.header with
          driverObjectDataArray :=
            if driverData = [] then b.header.driverObjectDataArray
            else UInt32.ofNat b.payloadLen },
        b.body ++ objectBytes b.payloadLen driverData⟩ := by
  by_cases h : driverData = []
  · rw [MessageBuilder.appendDriverObjects, if_pos (List.isEmpty_iff.mpr h), objectBytes, if_pos h,
      if_pos h, List.append_nil]
  · have hne : (objectArray (b.payloadLen + align8 (8 + driverData.length * 8))
        driverData).flatten ≠ [] := by
      intro hnil
      have hlen := length_flatten_objectArray
        (b.payloadLen + align8 (8 + driverData.length * 8)) driverData
      have hpos := List.length_pos_iff.mpr h
      rw [hnil, List.length_nil] at hlen
      omega
    have hempty : ¬driverData.isEmpty = true := by rwa [List.isEmpty_iff]
    have harray : b.appendArray (MessageBuilder.objectEntries 0 (MessageBuilder.dataOffsets
        (b.payloadLen + align8 (8 + driverData.length * 8)) driverData)).flatten
        (UInt32.ofNat driverData.length) = _ := appendArray_eq hne
    rw [MessageBuilder.appendDriverObjects, if_neg hempty, objectBytes, if_neg h, if_neg h]
    simp only [harray, appendData_eq, List.append_assoc]
    rfl

/-! ### What is read -/

/-- The data of every object stands where its entry says. -/
def Found (payload : List UInt8) : Nat → List (List UInt8) → Prop
  | _, [] => True
  | off, data :: rest =>
      readArray payload (UInt32.ofNat (if data.isEmpty then 0 else off)) 1 = .ok data ∧
        Found payload (off + align8 (8 + data.length)) rest

theorem dataBytes_of_empty {driverData : List (List UInt8)} (h : ∀ data ∈ driverData, data = []) :
    dataBytes driverData = [] := by
  induction driverData with
  | nil => rfl
  | cons data rest ih =>
      rw [List.forall_mem_cons] at h
      rw [dataBytes, if_pos h.1, List.nil_append, ih h.2]

/-- Empty objects are found anywhere. -/
theorem found_of_empty {payload : List UInt8} {off : Nat} {driverData : List (List UInt8)}
    (h : ∀ data ∈ driverData, data = []) : Found payload off driverData := by
  induction driverData generalizing off with
  | nil => trivial
  | cons data rest ih =>
      rw [List.forall_mem_cons] at h
      obtain ⟨rfl, hrest⟩ := h
      exact ⟨rfl, ih hrest⟩

/-- Objects whose offsets run ahead are found only if they are empty. -/
theorem empty_of_found {k : Nat} (hk : 0 < k) {driverData : List (List UInt8)}
    (pre : List UInt8) (hfit : pre.length + 8 * k + dataSize driverData < 2 ^ 32)
    (h : Found (pre ++ dataBytes driverData) (pre.length + 8 * k) driverData) :
    ∀ data ∈ driverData, data = [] := by
  induction driverData generalizing pre k with
  | nil => exact fun _ hdata => nomatch hdata
  | cons data rest ih =>
      obtain ⟨hread, hrest⟩ := h
      rw [dataSize] at hfit
      rw [dataBytes] at hread hrest
      by_cases hdata : data = []
      · subst hdata
        rw [if_pos rfl, List.nil_append] at hrest
        have hpad : align8 (8 + ([] : List UInt8).length) = 8 := rfl
        exact List.forall_mem_cons.mpr ⟨rfl, ih (Nat.succ_pos k) pre (by omega) hrest⟩
      · rw [if_neg hdata] at hread hrest
        -- the objects behind are empty, so this is the last one with data
        have hlen : (pre ++ arrayBytes data (UInt32.ofNat data.length)).length =
            pre.length + align8 (8 + data.length) := by
          rw [List.length_append, length_arrayBytes]
        have hempty : ∀ d ∈ rest, d = [] := by
          refine ih hk (pre ++ arrayBytes data (UInt32.ofNat data.length)) ?_ ?_
          · rw [hlen]
            omega
          · rw [hlen, List.append_assoc]
            have hoff : pre.length + align8 (8 + data.length) + 8 * k =
                pre.length + 8 * k + align8 (8 + data.length) := by omega
            rwa [hoff]
        rw [if_neg (by rwa [List.isEmpty_iff]), dataBytes_of_empty hempty, List.append_nil] at hread
        have hle := readArray_length hread fun h0 => by
          have h0' := congrArg UInt32.toNat h0
          rw [toNat_ofNat_of_lt (by omega), UInt32.toNat_zero] at h0'
          omega
        rw [toNat_ofNat_of_lt (by omega), hlen] at hle
        unfold align8 at hle
        omega

/-- Objects are found where the encoder expects them if and only if empty ones
come last. -/
theorem found_iff {driverData : List (List UInt8)} (pre : List UInt8) (hpos : 0 < pre.length)
    (hfit : pre.length + dataSize driverData < 2 ^ 32) :
    Found (pre ++ dataBytes driverData) pre.length driverData ↔ EmptyLast driverData := by
  induction driverData generalizing pre with
  | nil => exact ⟨fun _ => List.Pairwise.nil, fun _ => trivial⟩
  | cons data rest ih =>
      rw [dataSize] at hfit
      rw [EmptyLast, List.pairwise_cons, Found, dataBytes]
      by_cases hdata : data = []
      · subst hdata
        have hpad : align8 (8 + ([] : List UInt8).length) = 8 := rfl
        rw [if_pos rfl, List.nil_append]
        constructor
        · rintro ⟨-, hrest⟩
          have hempty := empty_of_found Nat.one_pos pre (by omega) hrest
          refine ⟨fun d hd _ => hempty d hd, List.pairwise_of_forall_mem_list ?_⟩
          exact fun _ _ b hb _ => hempty b hb
        · rintro ⟨hempty, -⟩
          exact ⟨rfl, found_of_empty fun d hd => hempty d hd rfl⟩
      · have hread : readArray (pre ++ (arrayBytes data (UInt32.ofNat data.length) ++
            dataBytes rest)) (UInt32.ofNat pre.length) 1 = .ok data := by
          have hle := le_align8 (8 + data.length)
          refine readArray_append (toNat_ofNat_of_lt (by omega)) hpos ?_ (by omega)
          rw [toNat_ofNat_of_lt (by omega), Nat.mul_one]
        have hlen : (pre ++ arrayBytes data (UInt32.ofNat data.length)).length =
            pre.length + align8 (8 + data.length) := by
          rw [List.length_append, length_arrayBytes]
        have ih' := ih (pre ++ arrayBytes data (UInt32.ofNat data.length)) (by omega) (by omega)
        rw [hlen, List.append_assoc] at ih'
        rw [if_neg hdata, if_neg (by rwa [List.isEmpty_iff]), ih']
        exact ⟨fun h => ⟨fun _ _ h' => absurd h' hdata, h.2⟩, fun h => ⟨hread, h.2⟩⟩

theorem toNat_ofNat_eq_iff {i : Nat} : (UInt16.ofNat i).toNat = i ↔ i < 65536 := by
  rw [UInt16.toNat_ofNat']
  omega

/-- The loop over the entries from descriptor `i` on. -/
theorem readObjects_iff (payload : List UInt8) (off i : Nat) {numFds : Nat}
    {driverData : List (List UInt8)} (hfds : i + driverData.length ≤ numFds) :
    readObjects payload numFds i
        (MessageBuilder.objectEntries (UInt16.ofNat i)
          (MessageBuilder.dataOffsets off driverData)) =
      .ok (driverRefs i driverData, i + driverData.length) ↔
    Found payload off driverData ∧ (driverData = [] ∨ i + driverData.length ≤ 65536) := by
  induction driverData generalizing off i with
  | nil => exact iff_of_true rfl ⟨trivial, .inl rfl⟩
  | cons data rest ih =>
      rw [List.length_cons] at hfds
      have hfirst : ∀ o (n : UInt16), getU16 (leU32 o ++ (leU16 n ++ leU16 1)) 4 = n := by
        intro o n
        rw [getU16_skip (Nat.le_of_eq (length_leU32 o)), length_leU32]
        exact getU16_leU16 n _
      have hnum : ∀ o (n : UInt16), getU16 (leU32 o ++ (leU16 n ++ leU16 1)) 6 = 1 := by
        intro o n
        rw [getU16_skip (by rw [length_leU32]; decide), length_leU32,
          getU16_skip (Nat.le_of_eq (length_leU16 n)), length_leU16]
        exact getU16_leU16 1 []
      have hnext : UInt16.ofNat i + 1 = UInt16.ofNat (i + 1) := by
        rw [UInt16.ofNat_add]
        rfl
      rw [MessageBuilder.dataOffsets, MessageBuilder.objectEntries, readObjects, hfirst, hnum,
        getU32_leU32, hnext]
      show (if (UInt16.ofNat i).toNat ≠ i then _ else _) = _ ↔ _
      -- the entry names its descriptor in 16 bits, which is `i` below 65536 only
      by_cases hi : i < 65536
      · have hone : (1 : UInt16).toNat = 1 := rfl
        rw [toNat_ofNat_eq_iff.mpr hi, if_neg (fun h => h rfl), hone, if_neg (by omega)]
        have ih' := ih (off + align8 (8 + data.length)) (i + 1) (by omega)
        have hcount : i + 1 + rest.length = i + (data :: rest).length := by
          rw [List.length_cons]
          omega
        rw [hcount] at ih'
        -- the data of this object, and then the entries behind it
        cases hread : readArray payload (UInt32.ofNat (if data.isEmpty then 0 else off)) 1 with
        | error e =>
            refine ⟨nofun, fun h => ?_⟩
            have hbad := hread.symm.trans h.1.1
            nomatch hbad
        | ok got =>
            cases hrest : readObjects payload numFds (i + 1) (MessageBuilder.objectEntries
                (UInt16.ofNat (i + 1)) (MessageBuilder.dataOffsets
                  (off + align8 (8 + data.length)) rest)) with
            | error e =>
                rw [hrest] at ih'
                refine ⟨nofun, fun h => ?_⟩
                have hle : rest = [] ∨ i + (data :: rest).length ≤ 65536 :=
                  .inr (h.2.resolve_left (List.cons_ne_nil _ _))
                have hbad := ih'.mpr ⟨h.1.2, hle⟩
                nomatch hbad
            | ok r =>
                rw [hrest] at ih'
                constructor
                · intro h
                  have heq := Prod.mk.inj (Except.ok.inj h)
                  obtain ⟨hhead, htail⟩ := List.cons.inj heq.1
                  obtain rfl := (DriverObjectRef.mk.inj hhead).1
                  have hok := ih'.mp (congrArg Except.ok (Prod.ext htail heq.2))
                  refine ⟨⟨hread, hok.1⟩, .inr ?_⟩
                  rcases hok.2 with rfl | hle
                  · exact hi
                  · exact hle
                · intro h
                  have hle : rest = [] ∨ i + (data :: rest).length ≤ 65536 :=
                    .inr (h.2.resolve_left (List.cons_ne_nil _ _))
                  obtain rfl := Except.ok.inj (hread.symm.trans h.1.1)
                  obtain rfl := Except.ok.inj (ih'.mpr ⟨h.1.2, hle⟩)
                  rfl
      -- from 65536 on the index comes back another one, and the entry is refused
      · rw [if_pos (fun h => hi (toNat_ofNat_eq_iff.mp h))]
        refine ⟨nofun, fun h => ?_⟩
        have hle := h.2.resolve_left (List.cons_ne_nil _ _)
        rw [List.length_cons] at hle
        omega

/-- The array of entries leads to the objects. -/
theorem readDriverObjects_array {pre : List UInt8} {driverData : List (List UInt8)}
    {hdr : MessageHeader} (hdata : driverData ≠ []) (hpos : 0 < pre.length)
    (harray : hdr.driverObjectDataArray = UInt32.ofNat pre.length)
    (hfit : pre.length + align8 (8 + driverData.length * 8) + dataSize driverData < 2 ^ 32) :
    readDriverObjects
        (pre ++ (arrayBytes (objectArray (pre.length + align8 (8 + driverData.length * 8))
          driverData).flatten (UInt32.ofNat driverData.length) ++ dataBytes driverData))
        hdr driverData.length =
      .ok (driverRefs 0 driverData) ↔
    EmptyLast driverData ∧ driverData.length ≤ 65536 := by
  have hle := le_align8 (8 + driverData.length * 8)
  have hflat := length_flatten_objectArray (pre.length + align8 (8 + driverData.length * 8))
    driverData
  generalize hentries : objectArray (pre.length + align8 (8 + driverData.length * 8)) driverData =
    entries at hflat ⊢
  have hne : hdr.driverObjectDataArray ≠ 0 := fun h0 => by
    have h0' := congrArg UInt32.toNat (harray.symm.trans h0)
    rw [toNat_ofNat_of_lt (by omega), UInt32.toNat_zero] at h0'
    omega
  have hread : readArray (pre ++ (arrayBytes entries.flatten (UInt32.ofNat driverData.length) ++
      dataBytes driverData)) hdr.driverObjectDataArray 8 = .ok entries.flatten := by
    refine readArray_append ?_ hpos ?_ (by rw [hflat]; omega)
    · rw [harray, toNat_ofNat_of_lt (by omega)]
    · rw [hflat, toNat_ofNat_of_lt (by omega)]
  have hchunks : chunksExact 8 entries.flatten = entries :=
    chunksExact_flatten (by decide) (hentries ▸ length_of_mem_objectArray _ driverData)
  -- the data begins behind the entries
  have hlen : (pre ++ arrayBytes entries.flatten (UInt32.ofNat driverData.length)).length =
      pre.length + align8 (8 + driverData.length * 8) := by
    rw [List.length_append, length_arrayBytes, hflat]
  have hfound := @found_iff driverData
    (pre ++ arrayBytes entries.flatten (UInt32.ofNat driverData.length)) (by omega) (by omega)
  rw [hlen, List.append_assoc] at hfound
  have hobjects := readObjects_iff (pre ++ (arrayBytes entries.flatten
    (UInt32.ofNat driverData.length) ++ dataBytes driverData))
    (pre.length + align8 (8 + driverData.length * 8)) 0
    (Nat.le_of_eq (Nat.zero_add driverData.length))
  rw [hfound, Nat.zero_add, or_iff_right hdata] at hobjects
  rw [← hobjects, readDriverObjects, if_neg hne, hread]
  show (if entries.flatten.length % 8 ≠ 0 then _ else _) = _ ↔ _
  rw [if_neg (by rw [hflat]; omega), hchunks, ← hentries]
  show (readObjects _ _ 0 (objectArray _ driverData) >>= _) = _ ↔
    readObjects _ _ 0 (objectArray _ driverData) = _
  cases readObjects (pre ++ (arrayBytes (objectArray (pre.length +
      align8 (8 + driverData.length * 8)) driverData).flatten (UInt32.ofNat driverData.length) ++
        dataBytes driverData)) driverData.length 0
      (objectArray (pre.length + align8 (8 + driverData.length * 8)) driverData) with
  | error e => exact ⟨nofun, nofun⟩
  | ok r =>
      obtain ⟨out, nextFd⟩ := r
      show (if nextFd ≠ driverData.length then _ else _) = _ ↔ _
      by_cases hfd : nextFd = driverData.length
      · rw [if_neg (fun h => h hfd), hfd]
        exact ⟨fun h => by rw [Except.ok.inj h], fun h => by rw [(Prod.mk.inj (Except.ok.inj h)).1]⟩
      · rw [if_pos hfd]
        exact ⟨nofun, fun h => absurd (Prod.mk.inj (Except.ok.inj h)).2 hfd⟩

/-- The driver objects behind `pre` come back if and only if empty ones come last
and the descriptors can be counted in 16 bits. -/
theorem readDriverObjects_iff {pre : List UInt8} {driverData : List (List UInt8)}
    {hdr : MessageHeader} (hpos : 0 < pre.length)
    (harray : hdr.driverObjectDataArray =
      if driverData = [] then 0 else UInt32.ofNat pre.length)
    (hfit : (pre ++ objectBytes pre.length driverData).length + 8 * driverData.length < 2 ^ 32) :
    readDriverObjects (pre ++ objectBytes pre.length driverData) hdr driverData.length =
      .ok (driverRefs 0 driverData) ↔
    EmptyLast driverData ∧ driverData.length ≤ 65536 := by
  by_cases hdata : driverData = []
  · rw [if_pos hdata] at harray
    subst hdata
    rw [readDriverObjects, if_pos harray]
    exact iff_of_true rfl ⟨List.Pairwise.nil, Nat.zero_le _⟩
  · have hsize := dataSize_le driverData
    rw [if_neg hdata] at harray
    rw [objectBytes, if_neg hdata] at hfit ⊢
    rw [List.length_append, List.length_append, length_arrayBytes, length_flatten_objectArray]
      at hfit
    exact readDriverObjects_array hdata hpos harray (by omega)

end MojoRs.Ipcz
