/-
MojoRs/Ipcz/DescriptorSpans.lean

Which of the descriptors of a message its driver objects claim.  The objects are
read with spans that follow one another, and at the end the descriptors have to
be used up.  A message without an array of driver objects returns before that,
with whatever descriptors came along.

Main results: `readObjects_tiles`, `descriptors_accounted_iff`.
-/
import MojoRs.Lib.Tiling
import MojoRs.Ipcz.DecodeBounds

namespace MojoRs.Ipcz

open Lib

/-- The descriptors of a driver object. -/
def DriverObjectRef.span (r : DriverObjectRef) : Set Nat :=
  Set.Ico r.firstFd (r.firstFd + r.numFds)

/-- The spans of driver objects are contiguous, disjoint and together all of the
descriptors. -/
structure Accounted (numFds : Nat) (refs : List DriverObjectRef) : Prop where
  contiguous : refs.IsChain fun a b => a.firstFd + a.numFds = b.firstFd
  disjoint : refs.Pairwise fun a b => Disjoint a.span b.span
  all : ∀ fd, (∃ r ∈ refs, fd ∈ r.span) ↔ fd < numFds

/-- The loop goes on where the last object ends. -/
theorem readObjects_tiles {payload : List UInt8} {numFds n m : Nat} {chunks : List (List UInt8)}
    {refs : List DriverObjectRef} (h : readObjects payload numFds n chunks = .ok (refs, m)) :
    Tiles DriverObjectRef.firstFd DriverObjectRef.numFds n refs m := by
  induction chunks generalizing n refs m with
  | nil =>
      obtain ⟨rfl, rfl⟩ := Prod.mk.inj (Except.ok.inj h)
      exact rfl
  | cons chunk chunks ih =>
      rw [readObjects] at h
      split_ifs at h with hfirst hrange
      cases hdata : readArray payload (getU32 chunk 0) 1 with
      | error e => simp [hdata, bind, Except.bind] at h
      | ok data =>
          cases hrest : readObjects payload numFds
              ((getU16 chunk 4).toNat + (getU16 chunk 6).toNat) chunks with
          | error e => simp [hdata, hrest, bind, Except.bind] at h
          | ok rest =>
              obtain ⟨out, next⟩ := rest
              simp only [hdata, hrest, bind, Except.bind, Except.ok.injEq, Prod.mk.injEq] at h
              obtain ⟨rfl, rfl⟩ := h
              rw [not_not.mp hfirst] at hrest ⊢
              exact ⟨rfl, ih hrest⟩

theorem accounted_of_tiles {numFds : Nat} {refs : List DriverObjectRef}
    (h : Tiles DriverObjectRef.firstFd DriverObjectRef.numFds 0 refs numFds) :
    Accounted numFds refs where
  contiguous := h.isChain
  disjoint := h.pairwise_disjoint
  all fd := (h.mem_iff fd).trans (and_iff_right (Nat.zero_le fd))

/-- Without objects, there must not be a descriptor. -/
theorem accounted_nil {numFds : Nat} : Accounted numFds [] ↔ numFds = 0 := by
  constructor
  · intro h
    by_contra hne
    obtain ⟨r, hr, -⟩ := (h.all 0).mpr (Nat.pos_of_ne_zero hne)
    exact absurd hr List.not_mem_nil
  · rintro rfl
    exact accounted_of_tiles rfl

/-- The descriptors are used up if there is an array of objects. -/
theorem readDriverObjects_accounted {payload : List UInt8} {hdr : MessageHeader} {numFds : Nat}
    {refs : List DriverObjectRef} (h : readDriverObjects payload hdr numFds = .ok refs) :
    Accounted numFds refs ↔ hdr.driverObjectDataArray ≠ 0 ∨ numFds = 0 := by
  unfold readDriverObjects at h
  by_cases harray : hdr.driverObjectDataArray = 0
  · rw [if_pos harray] at h
    obtain rfl := Except.ok.inj h
    rw [accounted_nil]
    exact (or_iff_right (not_not.mpr harray)).symm
  rw [if_neg harray] at h
  refine iff_of_true ?_ (.inl harray)
  cases hdata : readArray payload hdr.driverObjectDataArray 8 with
  | error e => simp [hdata, bind, Except.bind] at h
  | ok data =>
      cases hobjects : readObjects payload numFds 0 (chunksExact 8 data) with
      | error e =>
          simp only [hdata, hobjects, bind, Except.bind] at h
          split_ifs at h
      | ok r =>
          obtain ⟨out, next⟩ := r
          simp only [hdata, hobjects, bind, Except.bind] at h
          split_ifs at h with hwhole hnext
          obtain rfl := Except.ok.inj h
          rw [← not_not.mp hnext]
          exact accounted_of_tiles (readObjects_tiles hobjects)

/-- A message of a kind that reads driver objects has them account for all of its
descriptors just if its header names an array of them, or there are none. -/
theorem descriptors_accounted_iff {payload : List UInt8} {numFds : Nat} {m : DecodedMessage}
    (hdecode : decodeMessage payload numFds = .ok m) (hreads : m.readsObjects = true) :
    ∃ hdr refs, parseMessageHeader payload = .ok hdr ∧
      readDriverObjects payload hdr numFds = .ok refs ∧ m.Carries refs ∧
        (Accounted numFds refs ↔ getU32 payload 16 ≠ 0 ∨ numFds = 0) := by
  rw [← accessMessage_result] at hdecode
  obtain ⟨-, hdr, hparse, harray, hm⟩ := (meets_accessMessage payload numFds).returns m hdecode
  obtain ⟨refs, hcarries, hrefs, -⟩ := hm.objects hreads
  refine ⟨hdr, refs, hparse, hrefs, hcarries, ?_⟩
  rw [← harray]
  exact readDriverObjects_accounted hrefs

/-- Two objects share three descriptors. -/
theorem sharedDescriptors_accounted : Accounted 3 [⟨[1, 2, 3], 0, 2⟩, ⟨[8, 9], 2, 1⟩] := by
  obtain ⟨hdr, refs, -, -, hcarries, hiff⟩ := descriptors_accounted_iff
    (m := .acceptParcelDriverObjects 7 1 [⟨[1, 2, 3], 0, 2⟩, ⟨[8, 9], 2, 1⟩])
    (show decodeMessage sharedDescriptors 3 = .ok _ from rfl) rfl
  obtain rfl : [⟨[1, 2, 3], 0, 2⟩, ⟨[8, 9], 2, 1⟩] = refs := hcarries
  exact hiff.mpr (.inl (by decide))

/-- The driver objects of a parcel, without an array of objects. -/
def noObject : List UInt8 :=
  [24, 0, 21, 0, 0, 0, 0, 0] ++ (leU64 0 ++ (leU32 0 ++ (leU32 0 ++
    (leU32 24 ++ (leU32 0 ++ (leU64 7 ++ leU64 1))))))

/-- A descriptor that comes with it is nobody's. -/
theorem noObject_unaccounted :
    decodeMessage noObject 1 = .ok (.acceptParcelDriverObjects 7 1 []) ∧ ¬Accounted 1 [] :=
  ⟨rfl, fun h => absurd (accounted_nil.mp h) (by decide)⟩

end MojoRs.Ipcz
