/-
MojoRs/Wire/FieldLayout.lean

What packing guarantees, and what it does not.  Every list of fields that is
accepted gets a valid layout (`pack_valid`): its fields are aligned and apart,
and the sizes of the struct and of its versions cover them.

The layout is that of the declaration order.  The ordinals of the fields are not
looked at, so that no order of two fields or more is packed like the others
(`packed_by_ordinal_iff`).

Main results: `pack_valid`, `packed_by_ordinal_iff`.
-/
import MojoRs.Wire.PackLayout

namespace MojoRs.Wire

/-! ### Valid layouts -/

/-- Two fields have no byte in common, or are two bits of one. -/
def PackedField.Apart (a b : PackedField) : Prop :=
  a.offset + a.size ≤ b.offset ∨ b.offset + b.size ≤ a.offset ∨
    a.field.kind = .bool ∧ b.field.kind = .bool ∧ a.bit ≠ b.bit

/-- The end of a field, rounded up to a multiple of eight. -/
def PackedField.paddedEnd (pf : PackedField) : Nat := (pf.offset + pf.size + 7) / 8 * 8

/-- What a declared field takes in the payload: a nullable value takes a flag and
its value, any other field itself. -/
def Field.parts (f : Field) : List (Field × Option Nat × Nat) :=
  if f.nullableValueKind then
    [({ f with kind := .bool }, some 0, f.version), (f, some 1, f.version)]
  else [(f, none, f.version)]

/-- Which part of a declared field a packed field is, and its version. -/
def PackedField.part (pf : PackedField) : Field × Option Nat × Nat :=
  (pf.field, pf.subOrdinal, pf.minVersion)

/-- A layout of the declared fields. -/
structure ValidLayout (fields : List Field) (p : PackedStruct) : Prop where
  complete : (p.packedFields.map PackedField.part).Perm (fields.flatMap Field.parts)
  sizes : ∀ pf ∈ p.packedFields, pf.size = pf.field.kind.size ∧ pf.bit < 8
  aligned : ∀ pf ∈ p.packedFields,
    pf.alignment = pf.field.kind.alignment ∧ pf.alignment ∣ pf.offset
  apart : p.packedFields.Pairwise PackedField.Apart
  sorted : p.packedFields.Pairwise (·.offset ≤ ·.offset)
  size_eq : p.size = structHeaderSize + p.packedFields.getLast?.elim 0 PackedField.paddedEnd
  versions : ∀ v, ∃ n, p.numBytesForVersion v = some n ∧
    ∀ pf ∈ p.packedFields, pf.minVersion ≤ v → structHeaderSize + pf.offset + pf.size ≤ n
  monotone : ∀ v w n m, v ≤ w → p.numBytesForVersion v = some n →
    p.numBytesForVersion w = some m → n ≤ m
  full : ∀ v, (∀ pf ∈ p.packedFields, pf.minVersion ≤ v) → p.numBytesForVersion v = some p.size

theorem payloadSizeUpToField_eq (pf : PackedField) : payloadSizeUpToField pf = pf.paddedEnd := by
  simp only [payloadSizeUpToField, PackedField.paddedEnd, pad]
  omega

theorem alignment_of_mem_packed {fields : List Field} {pf : PackedField}
    (h : pf ∈ (packed fields).packedFields) : pf.alignment = pf.field.kind.alignment := by
  have hperm := packed_perm (g := fun q => (q.alignment, q.field)) (fun _ _ => rfl) fields
  obtain ⟨q, hq, heq⟩ := List.mem_map.mp (hperm.subset (List.mem_map_of_mem h))
  rw [sources_eq] at hq
  obtain ⟨src, -, rfl⟩ := List.mem_map.mp hq
  obtain ⟨halign, hfield⟩ := Prod.mk.inj heq
  rw [← halign, ← hfield]
  rfl

/-- A later version demands no less. -/
theorem SizeFor.mono {v w n m : Nat} {pfs : List PackedField} (hn : SizeFor v pfs n)
    (hm : SizeFor w pfs m) (h : v ≤ w) : n ≤ m := by
  rcases hn.attained with rfl | ⟨pf, hpf, hv, rfl⟩
  · rcases hm.attained with rfl | ⟨-, -, -, rfl⟩
    · exact Nat.le_refl _
    · exact Nat.le_add_left _ _
  · exact hm.covers pf hpf (Nat.le_trans hv h)

theorem PackedField.Precedes.apart {a b : PackedField} (h : a.Precedes b) : a.Apart b := by
  rcases h with h | ⟨ha, hb, -, hbit⟩
  · exact .inl h
  · exact .inr (.inr ⟨ha, hb, Nat.ne_of_lt hbit⟩)

theorem parts_expand (ordinal : Nat) (f : Field) :
    (expand ordinal f).map (fun pf => pf.resolve.versioned.part) = f.parts := by
  unfold expand Field.parts
  split
  · rfl
  · rfl

theorem parts_srcFields (ordinal : Nat) (fields : List Field) :
    (srcFields ordinal fields).map (fun pf => pf.resolve.versioned.part) =
      fields.flatMap Field.parts := by
  induction fields generalizing ordinal with
  | nil => rfl
  | cons f fields ih =>
      rw [srcFields_cons, List.map_append, parts_expand, ih, List.flatMap_cons]

/-- Every part of a declared field is packed once, and nothing else is. -/
theorem packed_parts (fields : List Field) :
    ((packed fields).packedFields.map PackedField.part).Perm (fields.flatMap Field.parts) := by
  have hperm := packed_perm (g := PackedField.part) (fun _ _ => rfl) fields
  rw [sources_eq, List.map_map] at hperm
  rwa [← parts_srcFields 0 fields]

/-- What is packed is a valid layout of the declared fields. -/
theorem pack_valid {fields : List Field} {p : PackedStruct}
    (h : PackedStruct.pack fields = .ok p) : ValidLayout fields p := by
  obtain ⟨hpack, rfl⟩ := pack_eq_ok h
  have hlaid := packed_laidOut fields
  refine ⟨packed_parts fields, fun pf hpf => ⟨(hlaid.placed pf hpf).size_eq, (hlaid.placed pf hpf).bit_lt⟩,
    fun pf hpf => ?_, hlaid.pairwise.imp PackedField.Precedes.apart,
    hlaid.pairwise.imp PackedField.Precedes.offset_le, ?_, fun v => ?_, fun v w n m hvw hn hm => ?_,
    fun v hv => numBytesForVersion_eq hpack (sizeFor_sizeOfPacked hlaid hv)⟩
  · have halign := alignment_of_mem_packed hpf
    exact ⟨halign, halign ▸ (hlaid.placed pf hpf).aligned⟩
  · show sizeOfPacked (packed fields).packedFields = _
    unfold sizeOfPacked
    cases (packed fields).packedFields.getLast? with
    | none => rfl
    | some last =>
        show payloadSizeUpToField last + structHeaderSize = structHeaderSize + last.paddedEnd
        rw [payloadSizeUpToField_eq]
        exact Nat.add_comm _ _
  · obtain ⟨n, hn, hsize⟩ := exists_numBytesForVersion hpack v
    refine ⟨n, hn, fun pf hpf hv => Nat.le_trans ?_ (hsize.covers pf hpf hv)⟩
    simp only [payloadSizeUpToField]
    omega
  · obtain ⟨n', hn', hsize⟩ := exists_numBytesForVersion hpack v
    obtain ⟨m', hm', hsize'⟩ := exists_numBytesForVersion hpack w
    obtain rfl := Option.some.inj (hn'.symm.trans hn)
    obtain rfl := Option.some.inj (hm'.symm.trans hm)
    exact hsize.mono hsize' hvw

/-- A flag, a number and a string of version 1. -/
def mixedFields : List Field :=
  [⟨0, 0, none, .bool, false, false⟩, ⟨1, 1, none, .u32, true, false⟩,
    ⟨2, 2, some 1, .string, false, true⟩]

theorem pack_valid_mixed : ∃ p, PackedStruct.pack mixedFields = .ok p ∧ ValidLayout mixedFields p := by
  obtain ⟨p, hp⟩ : ∃ p, PackedStruct.pack mixedFields = .ok p := ⟨_, rfl⟩
  exact ⟨p, hp, pack_valid hp⟩

/-! ### Layouts by ordinal -/

/-- The fields in the order of the ordinals they were given. -/
def byOrdinal (fields : List Field) : List Field := fields.insertionSort (·.ordinal ≤ ·.ordinal)

/-- A packed field by its declaration, with the offset, bit and version it got. -/
def PackedField.assigned (pf : PackedField) : (Field × Option Nat) × Nat × Nat × Nat :=
  ((pf.field, pf.subOrdinal), pf.offset, pf.bit, pf.minVersion)

/-- Every field has the same place and version in both. -/
def PackedAlike (p q : PackedStruct) : Prop :=
  (p.packedFields.map PackedField.assigned).Perm (q.packedFields.map PackedField.assigned)

/-- Whatever the order of the fields, the layout is that of the ordinals. -/
def FollowsOrdinals (fields : List Field) : Prop :=
  ∀ gs, gs.Perm fields → ∀ p, PackedStruct.pack (byOrdinal fields) = .ok p →
    ∃ q, PackedStruct.pack gs = .ok q ∧ PackedAlike q p

theorem byOrdinal_perm (fields : List Field) : (byOrdinal fields).Perm fields :=
  List.perm_insertionSort _ _

theorem PackedStruct.alike_refl (p : PackedStruct) : PackedAlike p p := List.Perm.refl _

/-- No two packed fields are at one place. -/
theorem LaidOut.eq_of_place_eq {pfs : List PackedField} (h : LaidOut pfs) {a b : PackedField}
    (ha : a ∈ pfs) (hb : b ∈ pfs) (hoff : a.offset = b.offset) (hbit : a.bit = b.bit) : a = b := by
  have hne : ∀ {c d : PackedField}, c ∈ pfs → c.Precedes d → c.offset = d.offset →
      c.bit ≠ d.bit := by
    intro c d hc hprec hoff
    rcases hprec with hend | ⟨-, -, -, hlt⟩
    · have hpos : 0 < c.size := (h.placed c hc).size_eq ▸ c.field.kind.size_pos
      omega
    · exact Nat.ne_of_lt hlt
  obtain ⟨i, hi, rfl⟩ := List.mem_iff_getElem.mp ha
  obtain ⟨j, hj, rfl⟩ := List.mem_iff_getElem.mp hb
  rcases Nat.lt_trichotomy i j with hlt | rfl | hlt
  · exact absurd hbit (hne ha (List.pairwise_iff_getElem.mp h.pairwise i j hi hj hlt) hoff)
  · rfl
  · exact absurd hbit.symm
      (hne hb (List.pairwise_iff_getElem.mp h.pairwise j i hj hi hlt) hoff.symm)

/-- The first field placed stays the first one. -/
theorem placeAll_cons (first : PackedField) (rest src : List PackedField) :
    ∃ rest', placeAll (first :: rest) src = first :: rest' := by
  induction src generalizing rest with
  | nil => exact ⟨rest, rfl⟩
  | cons pf src ih => exact ih (insertAfter pf first rest)

/-- The field declared first begins the payload. -/
theorem packed_first (f : Field) (fs : List Field) :
    ∃ pf ∈ (packed (f :: fs)).packedFields,
      pf.field.ordinal = f.ordinal ∧ pf.offset = 0 ∧ pf.bit = 0 := by
  obtain ⟨q, src, hsrc, hq⟩ : ∃ q src, sources (f :: fs) = q :: src ∧
      q.field.ordinal = f.ordinal := by
    rw [sources_eq, srcFields_cons, expand]
    split
    · exact ⟨_, _, rfl, rfl⟩
    · exact ⟨_, _, rfl, rfl⟩
  obtain ⟨rest, hrest⟩ := placeAll_cons (q.placeAt (0, 0)) [] src
  have hpacked : (packed (f :: fs)).packedFields = q.placeAt (0, 0) :: rest := by
    show placeAll [] (sources (f :: fs)) = _
    rw [hsrc]
    exact hrest
  refine ⟨q.placeAt (0, 0), ?_, hq, rfl, rfl⟩
  rw [hpacked]
  exact List.mem_cons_self

/-- Two fields declared in the other order change places. -/
theorem not_alike_swap {a b : Field} (hab : a.ordinal ≠ b.ordinal) (fs : List Field) :
    ¬PackedAlike (packed (b :: a :: fs)) (packed (a :: b :: fs)) := by
  intro halike
  obtain ⟨pa, hpa, hordA, hoffA, hbitA⟩ := packed_first a (b :: fs)
  obtain ⟨pb, hpb, hordB, hoffB, hbitB⟩ := packed_first b (a :: fs)
  obtain ⟨pc, hpc, heq⟩ := List.mem_map.mp (halike.subset (List.mem_map_of_mem hpb))
  simp only [PackedField.assigned, Prod.mk.injEq] at heq
  obtain ⟨⟨hfield, -⟩, hoff, hbit, -⟩ := heq
  have hsame : pa = pc := (packed_laidOut _).eq_of_place_eq hpa hpc
    (by rw [hoffA, hoff, hoffB]) (by rw [hbitA, hbit, hbitB])
  apply hab
  rw [← hordA, ← hordB, hsame, hfield]

/-- Fields in the order of their ordinals are packed as they come. -/
theorem byOrdinal_eq_self {fields gs : List Field} (hnodup : (fields.map (·.ordinal)).Nodup)
    (hperm : gs.Perm fields) (hsort : gs.Pairwise (·.ordinal ≤ ·.ordinal)) :
    gs = byOrdinal fields := by
  have htotal : Std.Total fun f g : Field => f.ordinal ≤ g.ordinal := ⟨fun f g => Nat.le_total _ _⟩
  have htrans : IsTrans Field fun f g : Field => f.ordinal ≤ g.ordinal :=
    ⟨fun _ _ _ => Nat.le_trans⟩
  refine (hperm.trans (byOrdinal_perm fields).symm).eq_of_pairwise ?_ hsort
    (List.pairwise_insertionSort _ _)
  intro f g hf hg hfg hgf
  exact List.inj_on_of_nodup_map hnodup (hperm.subset hf)
    ((byOrdinal_perm fields).subset hg) (Nat.le_antisymm hfg hgf)

/-- The layout follows the ordinals exactly where there is nothing to order.
A list that is already in order is packed like the sorted one. -/
theorem packed_by_ordinal_iff (fields : List Field) (hnodup : (fields.map (·.ordinal)).Nodup) :
    (FollowsOrdinals fields ↔ fields.length ≤ 1 ∨ ¬Packable (byOrdinal fields)) ∧
      ∀ gs, gs.Perm fields → gs.Pairwise (·.ordinal ≤ ·.ordinal) →
        PackedStruct.pack gs = PackedStruct.pack (byOrdinal fields) := by
  refine ⟨⟨fun hfollows => ?_, fun h gs hperm p hp => ?_⟩, fun gs hperm hsort => ?_⟩
  · have hsorted := byOrdinal_perm fields
    cases hcase : byOrdinal fields with
    | nil => exact .inl (by rw [← hsorted.length_eq, hcase]; decide)
    | cons a rest =>
        cases rest with
        | nil => exact .inl (by rw [← hsorted.length_eq, hcase]; rfl)
        | cons b rest =>
            refine .inr fun hpack => ?_
            rw [hcase] at hsorted
            rw [← hcase] at hpack
            -- the two first ordinals, in the other order
            obtain ⟨q, hq, halike⟩ := hfollows (b :: a :: rest)
              ((List.Perm.swap a b rest).trans hsorted) _ (pack_ok hpack)
            obtain ⟨-, rfl⟩ := pack_eq_ok hq
            rw [hcase] at halike
            have hab : a.ordinal ≠ b.ordinal := by
              have hnodup' := (hsorted.map (·.ordinal)).nodup_iff.mpr hnodup
              intro heq
              apply (List.nodup_cons.mp hnodup').1
              show a.ordinal ∈ b.ordinal :: rest.map (·.ordinal)
              rw [heq]
              exact List.mem_cons_self
            exact not_alike_swap hab rest halike
  · rcases h with hlen | hpack
    · have heq : gs = byOrdinal fields := by
        refine byOrdinal_eq_self hnodup hperm ?_
        match gs, hperm.length_eq with
        | [], _ => exact List.Pairwise.nil
        | [_], _ => exact List.pairwise_singleton _ _
        | _ :: _ :: _, h => exact absurd (h ▸ hlen) (by simp)
      exact ⟨p, heq ▸ hp, p.alike_refl⟩
    · exact absurd (pack_eq_ok hp).1 hpack
  · rw [byOrdinal_eq_self hnodup hperm hsort]

/-- Three fields in the order 3, 7, 9 of their ordinals, one of them a nullable
value and one of version 1. -/
def orderedFields : List Field :=
  [⟨1, 3, none, .u32, true, false⟩, ⟨2, 7, none, .u64, false, false⟩,
    ⟨0, 9, some 1, .string, false, true⟩]

/-- Three fields with ordinals of which none is a layout: the string of ordinal 4
has version 1, and the numbers behind it have none. -/
def refusedFields : List Field :=
  [⟨0, 5, none, .u32, true, false⟩, ⟨1, 6, none, .u64, false, false⟩,
    ⟨2, 4, some 1, .string, false, true⟩]

/-- The fields declared in another order are packed otherwise, in the order of
their ordinals alike; where the sorted list has no layout, none is missed. -/
theorem packed_by_ordinal_mixed :
    ¬FollowsOrdinals [orderedFields[2], orderedFields[0], orderedFields[1]] ∧
      PackedStruct.pack orderedFields =
        PackedStruct.pack (byOrdinal [orderedFields[2], orderedFields[0], orderedFields[1]]) ∧
      (∃ p, PackedStruct.pack orderedFields = .ok p) ∧ FollowsOrdinals refusedFields := by
  have hshuffled := packed_by_ordinal_iff
    [orderedFields[2], orderedFields[0], orderedFields[1]] (by decide)
  have hperm : orderedFields.Perm [orderedFields[2], orderedFields[0], orderedFields[1]] := by
    decide
  have hrefused := packed_by_ordinal_iff refusedFields (by decide)
  refine ⟨fun hfollows => ?_, hshuffled.2 _ hperm (by decide), ⟨_, rfl⟩, ?_⟩
  · rcases hshuffled.1.mp hfollows with hlen | hpack
    · exact absurd hlen (by decide)
    · exact hpack (pack_ok_iff.mp ⟨_, rfl⟩)
  · refine hrefused.1.mpr (.inr fun hpack => ?_)
    have hok := pack_ok hpack
    cases hok

/-- Two numbers, the one with the greater ordinal first.  They are packed in the
order of their declaration. -/
def disorderedFields : List Field :=
  [⟨0, 1, none, .u32, false, false⟩, ⟨1, 0, none, .u32, false, false⟩]

theorem declaration_order_kept :
    (disorderedFields.map (·.ordinal)).Nodup ∧ ¬FollowsOrdinals disorderedFields := by
  refine ⟨by decide, fun h => ?_⟩
  obtain ⟨q, hq, halike⟩ :=
    h disorderedFields (List.Perm.refl _) (packed disorderedFields.reverse) rfl
  obtain ⟨-, rfl⟩ := pack_eq_ok hq
  exact not_alike_swap (by decide) [] halike

end MojoRs.Wire
