/-
MojoRs/Wire/PackLayout.lean

What packing guarantees.

* `pack_ok_iff` — when a list of fields is accepted: the versions do not
  decrease and versioned references are nullable.
* `pack_pairwise`, `pack_fits` — the packed fields follow each other without
  overlap, and end within the struct.
* `pack_numBytes` — the size of a version is the padded end of the last field
  that the version knows.
* `pack_append` — packing more fields leaves the earlier ones where they were:
  first-fit placement only inserts.
-/
import MojoRs.Wire.Pack

namespace MojoRs.Wire

/-! ### Padding -/

theorem dvd_add_pad (offset : Nat) {a : Nat} (ha : 0 < a) : a ∣ offset + pad offset a := by
  have hlt : offset % a < a := Nat.mod_lt _ ha
  rcases Nat.eq_zero_or_pos (offset % a) with h0 | hpos
  · rw [pad, h0, Nat.sub_zero, Nat.mod_self, Nat.add_zero]
    exact Nat.dvd_of_mod_eq_zero h0
  · rw [pad, Nat.mod_eq_of_lt (by omega)]
    have hsplit := Nat.div_add_mod offset a
    refine ⟨offset / a + 1, ?_⟩
    rw [Nat.mul_add, Nat.mul_one]
    omega

theorem Kind.size_pos (k : Kind) : 0 < k.size := by cases k <;> decide

theorem Kind.alignment_pos (k : Kind) : 0 < k.alignment := by cases k <;> decide

/-! ### The fields to place -/

/-- The version from which a field is present. -/
def Field.version (f : Field) : Nat := f.minVersion.getD 0

/-- A field with its version, as `propagateMinVersion` leaves it. -/
def PackedField.versioned (pf : PackedField) : PackedField :=
  { pf with minVersion := pf.field.version }

/-- The fields to place, in ordinal order and before the check of versions. -/
def sources (fields : List Field) : List PackedField :=
  ((srcFields 0 fields).map PackedField.resolve).map PackedField.versioned

/-- A list of packed fields that `propagateMinVersion` accepts after version
`next`. -/
structure VersionsOk (next : Nat) (pfs : List PackedField) : Prop where
  lower : ∀ pf ∈ pfs, next ≤ pf.field.version
  sorted : pfs.Pairwise fun a b => a.field.version ≤ b.field.version
  nullable : ∀ pf ∈ pfs, pf.field.version ≠ 0 → pf.field.isNonnullableReference = false

theorem nextMinVersion_eq (next : Nat) (pf : PackedField) :
    next ≤ pf.field.version ∧ nextMinVersion next pf = .ok pf.field.version ∨
      pf.field.version < next ∧ ∃ e, nextMinVersion next pf = .error e := by
  unfold nextMinVersion Field.version
  cases pf.field.minVersion with
  | some mv =>
      rcases Nat.lt_or_ge mv next with h | h
      · exact .inr ⟨h, _, if_pos h⟩
      · exact .inl ⟨h, if_neg (by omega)⟩
  | none =>
      rcases Nat.eq_zero_or_pos next with rfl | h
      · exact .inl ⟨Nat.le_refl _, rfl⟩
      · exact .inr ⟨h, _, if_pos (by omega)⟩

theorem propagate_ok {next : Nat} {pfs : List PackedField} (h : VersionsOk next pfs) :
    propagateMinVersion next pfs = .ok (pfs.map PackedField.versioned) := by
  induction pfs generalizing next with
  | nil => rfl
  | cons pf pfs ih =>
      obtain ⟨hlow, hsort, hnull⟩ := h
      rw [List.forall_mem_cons] at hlow hnull
      rw [List.pairwise_cons] at hsort
      rcases nextMinVersion_eq next pf with ⟨-, hmv⟩ | ⟨hlt, -⟩
      · have hrest := ih ⟨fun q hq => hsort.1 q hq, hsort.2, hnull.2⟩
        have hcheck : ¬(pf.field.version ≠ 0 ∧ pf.field.isNonnullableReference = true) := by
          rintro ⟨h0, href⟩
          rw [hnull.1 h0] at href
          exact Bool.false_ne_true href
        rw [propagateMinVersion, hmv, ok_bind, if_neg hcheck, hrest]
        rfl
      · exact absurd hlow.1 (Nat.not_le.mpr hlt)

theorem propagate_eq_ok {next : Nat} {pfs out : List PackedField}
    (h : propagateMinVersion next pfs = .ok out) : VersionsOk next pfs := by
  induction pfs generalizing next out with
  | nil => exact ⟨List.forall_mem_nil _, List.Pairwise.nil, List.forall_mem_nil _⟩
  | cons pf pfs ih =>
      rw [propagateMinVersion] at h
      obtain ⟨mv, hmv, h⟩ := bind_eq_ok h
      rcases nextMinVersion_eq next pf with ⟨hle, hv⟩ | ⟨-, e, he⟩
      · rw [hv] at hmv
        obtain rfl := Except.ok.inj hmv
        split at h
        · exact nomatch h
        · rename_i hcheck
          obtain ⟨rest, hrest, -⟩ := bind_eq_ok h
          have ⟨hlow, hsort, hnull⟩ := ih hrest
          refine ⟨List.forall_mem_cons.mpr ⟨hle, fun q hq => Nat.le_trans hle (hlow q hq)⟩,
            List.pairwise_cons.mpr ⟨hlow, hsort⟩, List.forall_mem_cons.mpr ⟨?_, hnull⟩⟩
          intro h0
          exact Bool.eq_false_iff.mpr fun href => hcheck ⟨h0, href⟩
      · rw [he] at hmv
        exact nomatch hmv

/-! ### Ordinal order -/

/-- Strictly before in the order of keys. -/
def PackedField.KeyLt (a b : PackedField) : Prop := ¬b.KeyLe a

theorem PackedField.KeyLt.keyLe {a b : PackedField} (h : a.KeyLt b) : a.KeyLe b := by
  unfold PackedField.KeyLt PackedField.KeyLe at *
  omega

instance : Std.Total PackedField.KeyLe where
  total a b := by
    show (_ ∨ _) ∨ (_ ∨ _)
    omega

instance : IsTrans PackedField PackedField.KeyLe where
  trans a b c hab hbc := by
    unfold PackedField.KeyLe at *
    omega

theorem mem_expand {ordinal : Nat} {f : Field} {pf : PackedField} (h : pf ∈ expand ordinal f) :
    pf.ordinal = ordinal ∧ pf.field.index = f.index ∧ pf.field.version = f.version := by
  unfold expand at h
  split at h
  · rw [List.mem_pair] at h
    rcases h with rfl | rfl <;> exact ⟨rfl, rfl, rfl⟩
  · rw [List.mem_singleton] at h
    subst h
    exact ⟨rfl, rfl, rfl⟩

theorem srcFields_cons (o : Nat) (f : Field) (fs : List Field) :
    srcFields o (f :: fs) = expand o f ++ srcFields (o + 1) fs := rfl

theorem mem_srcFields {o : Nat} {fs : List Field} {pf : PackedField}
    (h : pf ∈ srcFields o fs) :
    ∃ i f, fs[i]? = some f ∧ pf.ordinal = o + i ∧ pf ∈ expand (o + i) f := by
  induction fs generalizing o with
  | nil => exact nomatch h
  | cons f fs ih =>
      rw [srcFields_cons, List.mem_append] at h
      rcases h with h | h
      · exact ⟨0, f, rfl, (mem_expand h).1, h⟩
      · obtain ⟨i, g, hg, ho, hmem⟩ := ih h
        rw [Nat.add_assoc, Nat.add_comm 1 i] at ho hmem
        exact ⟨i + 1, g, hg, ho, hmem⟩

theorem mem_srcFields_of_expand {o i : Nat} {fs : List Field} {f : Field} {pf : PackedField}
    (hf : fs[i]? = some f) (h : pf ∈ expand (o + i) f) : pf ∈ srcFields o fs := by
  induction fs generalizing o i with
  | nil => exact nomatch hf
  | cons g fs ih =>
      rw [srcFields_cons, List.mem_append]
      cases i with
      | zero =>
          obtain rfl := Option.some.inj hf
          exact .inl h
      | succ i =>
          rw [show o + (i + 1) = o + 1 + i by omega] at h
          exact .inr (ih hf h)

theorem srcFields_append (o : Nat) (fs gs : List Field) :
    srcFields o (fs ++ gs) = srcFields o fs ++ srcFields (o + fs.length) gs := by
  induction fs generalizing o with
  | nil => rfl
  | cons f fs ih =>
      rw [List.cons_append, srcFields_cons, srcFields_cons, ih, List.append_assoc,
        List.length_cons, Nat.add_assoc, Nat.add_comm 1]

/-- The fields come out in strict key order. -/
theorem srcFields_sorted (o : Nat) (fs : List Field) :
    (srcFields o fs).Pairwise PackedField.KeyLt := by
  induction fs generalizing o with
  | nil => exact List.Pairwise.nil
  | cons f fs ih =>
      rw [srcFields_cons, List.pairwise_append]
      refine ⟨?_, ih (o + 1), ?_⟩
      · unfold expand
        split
        · rw [List.pairwise_pair]
          rintro (h | ⟨-, h⟩)
          · exact Nat.lt_irrefl _ h
          · exact absurd (show 2 ≤ 1 from h) (by decide)
        · exact List.pairwise_singleton _ _
      · intro a ha b hb
        have hao := (mem_expand ha).1
        obtain ⟨i, -, -, hbo, -⟩ := mem_srcFields hb
        show ¬(b.ordinal < a.ordinal ∨ b.ordinal = a.ordinal ∧ _)
        omega

theorem sortByOrdinal_resolve (o : Nat) (fs : List Field) :
    sortByOrdinal ((srcFields o fs).map PackedField.resolve) =
      (srcFields o fs).map PackedField.resolve := by
  apply List.Pairwise.insertionSort_eq
  rw [List.pairwise_map]
  exact (srcFields_sorted o fs).imp fun h => h.keyLe

/-! ### When packing succeeds -/

/-- The field lists that `pack` accepts. -/
def Packable (fields : List Field) : Prop := VersionsOk 0 (srcFields 0 fields)

/-- What `pack` returns for an accepted field list. -/
def packed (fields : List Field) : PackedStruct where
  packedFields := placeAll [] (sources fields)
  packedFieldsInOrdinalOrder := sortByOrdinal (placeAll [] (sources fields))
  size := sizeOfPacked (placeAll [] (sources fields))
  versionInfo := versionInfoFrom 0 0 (sortByOrdinal (placeAll [] (sources fields)))

theorem versionsOk_resolve {next : Nat} {pfs : List PackedField} :
    VersionsOk next (pfs.map PackedField.resolve) ↔ VersionsOk next pfs := by
  constructor
  · rintro ⟨hlow, hsort, hnull⟩
    rw [List.forall_mem_map] at hlow hnull
    rw [List.pairwise_map] at hsort
    exact ⟨hlow, hsort, hnull⟩
  · rintro ⟨hlow, hsort, hnull⟩
    refine ⟨List.forall_mem_map.mpr hlow, ?_, List.forall_mem_map.mpr hnull⟩
    rw [List.pairwise_map]
    exact hsort

theorem pack_ok {fields : List Field} (h : Packable fields) :
    PackedStruct.pack fields = .ok (packed fields) := by
  rw [PackedStruct.pack, sortByOrdinal_resolve, propagate_ok (versionsOk_resolve.mpr h)]
  rfl

theorem pack_eq_ok {fields : List Field} {p : PackedStruct}
    (h : PackedStruct.pack fields = .ok p) : Packable fields ∧ p = packed fields := by
  have hpack : Packable fields := by
    rw [PackedStruct.pack, sortByOrdinal_resolve] at h
    obtain ⟨out, hout, -⟩ := bind_eq_ok h
    exact versionsOk_resolve.mp (propagate_eq_ok hout)
  rw [pack_ok hpack] at h
  exact ⟨hpack, (Except.ok.inj h).symm⟩

/-- Packing succeeds on the accepted field lists and no others. -/
theorem pack_ok_iff {fields : List Field} :
    (∃ p, PackedStruct.pack fields = .ok p) ↔ Packable fields :=
  ⟨fun ⟨_, h⟩ => (pack_eq_ok h).1, fun h => ⟨_, pack_ok h⟩⟩

/-! ### Placement -/

/-- `a` ends before `b` begins, or they are bits of one byte. -/
def PackedField.Precedes (a b : PackedField) : Prop :=
  a.offset + a.size ≤ b.offset ∨
    a.field.kind = .bool ∧ b.field.kind = .bool ∧ a.offset = b.offset ∧ a.bit < b.bit

/-- A field whose place suits its kind. -/
structure PackedField.Placed (pf : PackedField) : Prop where
  size_eq : pf.size = pf.field.kind.size
  aligned : pf.field.kind.alignment ∣ pf.offset
  bit_lt : pf.bit < 8
  bit_eq : pf.field.kind ≠ .bool → pf.bit = 0

/-- Placed fields that follow each other. -/
structure LaidOut (pfs : List PackedField) : Prop where
  placed : ∀ pf ∈ pfs, pf.Placed
  pairwise : pfs.Pairwise PackedField.Precedes

theorem PackedField.Precedes.offset_le {a b : PackedField} (h : a.Precedes b) :
    a.offset ≤ b.offset := by
  rcases h with h | ⟨-, -, h, -⟩ <;> omega

theorem PackedField.Precedes.trans {a b c : PackedField} (ha : a.Placed) (hb : b.Placed)
    (hab : a.Precedes b) (hbc : b.Precedes c) : a.Precedes c := by
  rcases hab with hab | ⟨hka, hkb, hoff, hbit⟩
  · exact .inl (Nat.le_trans hab hbc.offset_le)
  · rcases hbc with hbc | ⟨-, hkc, hoff', hbit'⟩
    · have hsize : a.size = b.size := by rw [ha.size_eq, hb.size_eq, hka, hkb]
      exact .inl (by omega)
    · exact .inr ⟨hka, hkc, hoff.trans hoff', Nat.lt_trans hbit hbit'⟩

/-- The next place after `last` suits the field and follows `last`. -/
theorem placed_after {src : PackedField} (hsrc : src.size = src.field.kind.size)
    (last : PackedField) :
    (src.placeAt (fieldOffset src.field last)).Placed ∧
      last.Precedes (src.placeAt (fieldOffset src.field last)) := by
  by_cases hshare : src.field.kind = .bool ∧ last.field.kind = .bool ∧ last.bit < 7
  · -- the next bit of the same byte
    have ⟨hsk, hlk, hbit⟩ := hshare
    have hplace : fieldOffset src.field last = (last.offset, last.bit + 1) := if_pos hshare
    rw [hplace]
    exact ⟨⟨hsrc, hsk ▸ Nat.one_dvd _, Nat.succ_lt_succ hbit, fun h => absurd hsk h⟩,
      .inr ⟨hlk, hsk, rfl, Nat.lt_succ_self _⟩⟩
  · have hplace : fieldOffset src.field last = (last.offset + last.size +
        pad (last.offset + last.size) src.field.kind.alignment, 0) := if_neg hshare
    rw [hplace]
    exact ⟨⟨hsrc, dvd_add_pad _ src.field.kind.alignment_pos, by show 0 < 8; decide,
      fun _ => rfl⟩, .inl (Nat.le_add_right _ _)⟩

theorem insertAfter_laidOut {src last : PackedField} {rest : List PackedField}
    (hsrc : src.size = src.field.kind.size) (h : LaidOut (last :: rest)) :
    LaidOut (last :: insertAfter src last rest) := by
  induction rest generalizing last with
  | nil =>
      have hlast := h.placed last List.mem_cons_self
      have ⟨hp, hafter⟩ := placed_after hsrc last
      refine ⟨?_, List.pairwise_pair.mpr hafter⟩
      intro pf hpf
      rcases List.mem_pair.mp hpf with rfl | rfl
      · exact hlast
      · exact hp
  | cons next rest ih =>
      obtain ⟨hplaced, hpair⟩ := h
      have hlast := hplaced last List.mem_cons_self
      have hnext := hplaced next (List.mem_cons_of_mem _ List.mem_cons_self)
      have ⟨hfirst, htail⟩ := List.pairwise_cons.mp hpair
      rw [insertAfter]
      split
      · -- the hole between `last` and `next` is large enough
        rename_i hfit
        have ⟨hp, hafter⟩ := placed_after hsrc last
        refine ⟨?_, List.pairwise_cons.mpr ⟨?_, List.pairwise_cons.mpr ⟨?_, htail⟩⟩⟩
        · intro pf hpf
          rw [List.mem_cons, List.mem_cons] at hpf
          rcases hpf with rfl | rfl | hpf
          · exact hlast
          · exact hp
          · exact hplaced pf (List.mem_cons_of_mem _ hpf)
        · exact List.forall_mem_cons.mpr ⟨hafter, hfirst⟩
        · intro pf hpf
          refine .inl (Nat.le_trans hfit ?_)
          rcases List.mem_cons.mp hpf with rfl | hmem
          · exact Nat.le_refl _
          · exact ((List.pairwise_cons.mp htail).1 pf hmem).offset_le
      · -- look further, after `next`
        have ⟨hplaced', hpair'⟩ := ih ⟨fun pf hpf => hplaced pf (List.mem_cons_of_mem _ hpf),
          htail⟩
        have hln := hfirst next List.mem_cons_self
        refine ⟨List.forall_mem_cons.mpr ⟨hlast, hplaced'⟩,
          List.pairwise_cons.mpr ⟨?_, hpair'⟩⟩
        refine List.forall_mem_cons.mpr ⟨hln, fun pf hpf => ?_⟩
        exact hln.trans hlast hnext ((List.pairwise_cons.mp hpair').1 pf hpf)

/-- Placing a field keeps the layout. -/
theorem place_laidOut {src : PackedField} {dst : List PackedField}
    (hsrc : src.size = src.field.kind.size) (h : LaidOut dst) : LaidOut (place dst src) := by
  cases dst with
  | nil =>
      refine ⟨?_, List.pairwise_singleton _ _⟩
      intro pf hpf
      obtain rfl := List.mem_singleton.mp hpf
      exact ⟨hsrc, Nat.dvd_zero _, by show 0 < 8; decide, fun _ => rfl⟩
  | cons first rest => exact insertAfter_laidOut hsrc h

theorem placeAll_laidOut {dst src : List PackedField}
    (hsrc : ∀ pf ∈ src, pf.size = pf.field.kind.size) (h : LaidOut dst) :
    LaidOut (placeAll dst src) := by
  induction src generalizing dst with
  | nil => exact h
  | cons pf src ih =>
      rw [List.forall_mem_cons] at hsrc
      exact ih hsrc.2 (place_laidOut hsrc.1 h)

/-! ### The fields are the given ones -/

theorem insertAfter_perm (src last : PackedField) (rest : List PackedField) :
    ∃ at_, (insertAfter src last rest).Perm (src.placeAt at_ :: rest) := by
  induction rest generalizing last with
  | nil => exact ⟨_, List.Perm.refl _⟩
  | cons next rest ih =>
      rw [insertAfter]
      split
      · exact ⟨_, List.Perm.refl _⟩
      · obtain ⟨at_, hperm⟩ := ih next
        exact ⟨at_, (hperm.cons next).trans (List.Perm.swap _ _ _)⟩

theorem place_perm (dst : List PackedField) (src : PackedField) :
    ∃ at_, (place dst src).Perm (src.placeAt at_ :: dst) := by
  cases dst with
  | nil => exact ⟨_, List.Perm.refl _⟩
  | cons first rest =>
      obtain ⟨at_, hperm⟩ := insertAfter_perm src first rest
      exact ⟨at_, (hperm.cons first).trans (List.Perm.swap _ _ _)⟩

/-- What does not depend on the place is permuted only. -/
theorem placeAll_perm {α : Type} {g : PackedField → α} (hg : ∀ pf at_, g (pf.placeAt at_) = g pf)
    (dst src : List PackedField) :
    ((placeAll dst src).map g).Perm (dst.map g ++ src.map g) := by
  induction src generalizing dst with
  | nil => rw [List.map_nil, List.append_nil]; exact List.Perm.refl _
  | cons pf src ih =>
      obtain ⟨at_, hperm⟩ := place_perm dst pf
      have hmap := hperm.map g
      rw [List.map_cons, hg] at hmap
      refine (ih (place dst pf)).trans ((hmap.append_right _).trans ?_)
      rw [List.map_cons, List.cons_append]
      exact List.perm_middle.symm

theorem sources_eq (fields : List Field) :
    sources fields = (srcFields 0 fields).map fun pf => pf.resolve.versioned := List.map_map ..

theorem size_of_mem_sources {fields : List Field} :
    ∀ pf ∈ sources fields, pf.size = pf.field.kind.size := by
  rw [sources_eq]
  exact List.forall_mem_map.mpr fun _ _ => rfl

/-- The packed fields follow each other without overlap. -/
theorem packed_laidOut (fields : List Field) : LaidOut (packed fields).packedFields :=
  placeAll_laidOut size_of_mem_sources ⟨List.forall_mem_nil _, List.Pairwise.nil⟩

/-- The packed fields, up to place and order. -/
theorem packed_perm {α : Type} {g : PackedField → α}
    (hg : ∀ pf at_, g (pf.placeAt at_) = g pf) (fields : List Field) :
    ((packed fields).packedFields.map g).Perm ((sources fields).map g) := by
  have hperm := placeAll_perm hg [] (sources fields)
  rwa [List.map_nil, List.nil_append] at hperm

/-- A packed field comes from a declared one. -/
theorem mem_packed {fields : List Field} {pf : PackedField}
    (h : pf ∈ (packed fields).packedFields) :
    ∃ (i : Nat) (f : Field), fields[i]? = some f ∧ pf.minVersion = f.version ∧
      (f.nullableValueKind = false ∧ pf.field = f ∨
        f.nullableValueKind = true ∧ (pf.field = { f with kind := .bool } ∨ pf.field = f)) := by
  have hmem := (packed_perm (g := fun q => (q.field, q.minVersion)) (fun _ _ => rfl)
    fields).subset (List.mem_map_of_mem h)
  rw [sources_eq, List.map_map, List.mem_map] at hmem
  obtain ⟨q, hq, heq⟩ := hmem
  obtain ⟨i, f, hf, -, hexp⟩ := mem_srcFields hq
  obtain ⟨hfield, hmv⟩ := Prod.mk.inj heq
  have hver := (mem_expand hexp).2.2
  refine ⟨i, f, hf, hmv.symm.trans hver, ?_⟩
  rw [← hfield]
  unfold expand at hexp
  split at hexp
  · rename_i hnull
    rw [List.mem_pair] at hexp
    refine .inr ⟨hnull, ?_⟩
    rcases hexp with rfl | rfl
    · exact .inl rfl
    · exact .inr rfl
  · rename_i hnull
    obtain rfl := List.mem_singleton.mp hexp
    exact .inl ⟨Bool.eq_false_iff.mpr hnull, rfl⟩

theorem packed_of_mem_expand {fields : List Field} {i : Nat} {f : Field} {q : PackedField}
    (hf : fields[i]? = some f) (h : q ∈ expand i f) :
    ∃ pf ∈ (packed fields).packedFields, pf.field = q.field ∧ pf.minVersion = f.version := by
  have hperm := packed_perm (g := fun q => (q.field, q.minVersion)) (fun _ _ => rfl) fields
  have hsrc : q ∈ srcFields 0 fields := mem_srcFields_of_expand hf ((Nat.zero_add i).symm ▸ h)
  have hmem : (q.field, q.field.version) ∈
      (packed fields).packedFields.map fun pf => (pf.field, pf.minVersion) := by
    refine hperm.symm.subset ?_
    rw [sources_eq, List.map_map]
    exact List.mem_map.mpr ⟨q, hsrc, rfl⟩
  obtain ⟨pf, hpf, heq⟩ := List.mem_map.mp hmem
  obtain ⟨hfield, hmv⟩ := Prod.mk.inj heq
  exact ⟨pf, hpf, hfield, hmv.trans (mem_expand h).2.2⟩

/-- Every declared field that is not a nullable value is packed. -/
theorem packed_plain {fields : List Field} {i : Nat} {f : Field} (hf : fields[i]? = some f)
    (hnull : f.nullableValueKind = false) :
    ∃ pf ∈ (packed fields).packedFields, pf.field = f ∧ pf.minVersion = f.version := by
  refine packed_of_mem_expand (q := .unplaced f i none) hf ?_
  rw [expand, if_neg (Bool.eq_false_iff.mp hnull)]
  exact List.mem_singleton_self _

/-- So is the flag of a nullable value. -/
theorem packed_flag {fields : List Field} {i : Nat} {f : Field} (hf : fields[i]? = some f)
    (hnull : f.nullableValueKind = true) :
    ∃ pf ∈ (packed fields).packedFields, pf.field = { f with kind := .bool } ∧
      pf.minVersion = f.version := by
  refine packed_of_mem_expand (q := .unplaced { f with kind := .bool } i (some 0)) hf ?_
  rw [expand, if_pos hnull]
  exact List.mem_cons_self

/-- And its value. -/
theorem packed_value {fields : List Field} {i : Nat} {f : Field} (hf : fields[i]? = some f)
    (hnull : f.nullableValueKind = true) :
    ∃ pf ∈ (packed fields).packedFields, pf.field = f ∧ pf.minVersion = f.version := by
  refine packed_of_mem_expand (q := .unplaced f i (some 1)) hf ?_
  rw [expand, if_pos hnull]
  exact List.mem_cons_of_mem _ List.mem_cons_self

/-! ### Sizes -/

theorem payloadSizeUpToField_mono {a b : PackedField} (h : a.offset + a.size ≤ b.offset + b.size) :
    payloadSizeUpToField a ≤ payloadSizeUpToField b := by
  simp only [payloadSizeUpToField, pad]
  omega

theorem PackedField.Precedes.end_le {a b : PackedField} (ha : a.Placed) (hb : b.Placed)
    (h : a.Precedes b) : a.offset + a.size ≤ b.offset + b.size := by
  rcases h with h | ⟨hka, hkb, hoff, -⟩
  · omega
  · rw [ha.size_eq, hb.size_eq, hka, hkb, hoff]

/-- `n` is the size of a struct that ends with its fields of version `v`. -/
structure SizeFor (v : Nat) (pfs : List PackedField) (n : Nat) : Prop where
  covers : ∀ pf ∈ pfs, pf.minVersion ≤ v → payloadSizeUpToField pf + structHeaderSize ≤ n
  attained : n = structHeaderSize ∨
    ∃ pf ∈ pfs, pf.minVersion ≤ v ∧ n = payloadSizeUpToField pf + structHeaderSize

theorem SizeFor.unique {v n m : Nat} {pfs : List PackedField} (hn : SizeFor v pfs n)
    (hm : SizeFor v pfs m) : n = m := by
  have hle : ∀ {n m}, SizeFor v pfs n → SizeFor v pfs m → n ≤ m := by
    intro n m hn hm
    rcases hn.attained with rfl | ⟨pf, hpf, hv, rfl⟩
    · rcases hm.attained with rfl | ⟨-, -, -, rfl⟩
      · exact Nat.le_refl _
      · exact Nat.le_add_left _ _
    · exact hm.covers pf hpf hv
  exact Nat.le_antisymm (hle hn hm) (hle hm hn)

/-- In a layout the last field ends last. -/
theorem le_sizeOfPacked {pfs : List PackedField} (h : LaidOut pfs) {pf : PackedField}
    (hpf : pf ∈ pfs) : payloadSizeUpToField pf + structHeaderSize ≤ sizeOfPacked pfs := by
  rcases List.eq_nil_or_concat pfs with rfl | ⟨init, last, rfl⟩
  · exact nomatch hpf
  · rw [List.concat_eq_append] at h hpf ⊢
    rw [sizeOfPacked, List.getLast?_append_of_ne_nil _ (List.cons_ne_nil _ _)]
    refine Nat.add_le_add_right ?_ _
    rcases List.mem_append.mp hpf with hinit | hlast
    · have hmem : last ∈ init ++ [last] := List.mem_append_right _ (List.mem_singleton_self _)
      have hprec := (List.pairwise_append.mp h.pairwise).2.2 pf hinit last
        (List.mem_singleton_self _)
      exact payloadSizeUpToField_mono (hprec.end_le (h.placed pf hpf) (h.placed last hmem))
    · rw [List.mem_singleton.mp hlast]
      exact Nat.le_refl _

theorem sizeFor_sizeOfPacked {pfs : List PackedField} (h : LaidOut pfs) {v : Nat}
    (hv : ∀ pf ∈ pfs, pf.minVersion ≤ v) : SizeFor v pfs (sizeOfPacked pfs) where
  covers pf hpf _ := le_sizeOfPacked h hpf
  attained := by
    rcases List.eq_nil_or_concat pfs with rfl | ⟨init, last, rfl⟩
    · exact .inl rfl
    · rw [List.concat_eq_append] at hv ⊢
      have hmem : last ∈ init ++ [last] := List.mem_append_right _ (List.mem_singleton_self _)
      rw [sizeOfPacked, List.getLast?_append_of_ne_nil _ (List.cons_ne_nil _ _)]
      exact .inr ⟨last, hmem, hv last hmem, rfl⟩

/-- Every packed field ends within the struct. -/
theorem packed_fits {fields : List Field} {pf : PackedField}
    (h : pf ∈ (packed fields).packedFields) :
    structHeaderSize + pf.offset + pf.size ≤ (packed fields).size := by
  have hle := le_sizeOfPacked (packed_laidOut fields) h
  have hsize : (packed fields).size = sizeOfPacked (packed fields).packedFields := rfl
  simp only [payloadSizeUpToField] at hle
  omega

/-! ### Sizes by version -/

/-- The sizes recorded up to version `v`. -/
def sizesUpTo (v : Nat) (info : List (Nat × Nat)) : List Nat :=
  (info.filter (·.1 ≤ v)).map (·.2)

theorem sizesUpTo_cons_of_le {v u n : Nat} (h : u ≤ v) (info : List (Nat × Nat)) :
    sizesUpTo v ((u, n) :: info) = n :: sizesUpTo v info := by
  have hpos : decide ((u, n).1 ≤ v) = true := decide_eq_true h
  rw [sizesUpTo, List.filter_cons, hpos, if_pos rfl, List.map_cons, sizesUpTo]

theorem sizesUpTo_eq_nil {v : Nat} {info : List (Nat × Nat)} (h : ∀ e ∈ info, v < e.1) :
    sizesUpTo v info = [] := by
  rw [sizesUpTo, List.map_eq_nil_iff, List.filter_eq_nil_iff]
  intro e he
  rw [decide_eq_true_eq, Nat.not_le]
  exact h e he

theorem le_of_mem_versionInfoFrom {lv p : Nat} {pfs : List PackedField}
    (hlow : ∀ pf ∈ pfs, lv ≤ pf.minVersion) (hsort : pfs.Pairwise (·.minVersion ≤ ·.minVersion)) :
    ∀ e ∈ versionInfoFrom lv p pfs, lv ≤ e.1 := by
  induction pfs generalizing lv p with
  | nil =>
      intro e he
      rw [List.mem_singleton.mp he]
  | cons pf pfs ih =>
      rw [List.forall_mem_cons] at hlow
      rw [List.pairwise_cons] at hsort
      rw [versionInfoFrom]
      split
      · refine List.forall_mem_cons.mpr ⟨Nat.le_refl _, fun e he => ?_⟩
        exact Nat.le_trans hlow.1 (ih hsort.1 hsort.2 e he)
      · exact ih hlow.2 hsort.2

/-- `n` is the size of a struct of version `v` with the fields `pfs` and
others, whose payload is `p`. -/
structure SizeFrom (v p : Nat) (pfs : List PackedField) (n : Nat) : Prop where
  base : p + structHeaderSize ≤ n
  covers : ∀ pf ∈ pfs, pf.minVersion ≤ v → payloadSizeUpToField pf + structHeaderSize ≤ n
  attained : n = p + structHeaderSize ∨
    ∃ pf ∈ pfs, pf.minVersion ≤ v ∧ n = payloadSizeUpToField pf + structHeaderSize

theorem SizeFrom.cons {v p n : Nat} {pf : PackedField} {pfs : List PackedField}
    (hpf : pf.minVersion ≤ v) (h : SizeFrom v (max p (payloadSizeUpToField pf)) pfs n) :
    SizeFrom v p (pf :: pfs) n where
  base := Nat.le_trans (Nat.add_le_add_right (Nat.le_max_left ..) _) h.base
  covers := by
    refine List.forall_mem_cons.mpr ⟨fun _ => ?_, h.covers⟩
    exact Nat.le_trans (Nat.add_le_add_right (Nat.le_max_right ..) _) h.base
  attained := by
    rcases h.attained with hatt | ⟨q, hq, hqv, hqn⟩
    · rcases Nat.le_total p (payloadSizeUpToField pf) with hle | hle
      · rw [Nat.max_eq_right hle] at hatt
        exact .inr ⟨pf, List.mem_cons_self, hpf, hatt⟩
      · rw [Nat.max_eq_left hle] at hatt
        exact .inl hatt
    · exact .inr ⟨q, List.mem_cons_of_mem _ hq, hqv, hqn⟩

/-- The largest size recorded up to version `v`. -/
theorem max_sizesUpTo {v lv p : Nat} {pfs : List PackedField} (hv : lv ≤ v)
    (hlow : ∀ pf ∈ pfs, lv ≤ pf.minVersion) (hsort : pfs.Pairwise (·.minVersion ≤ ·.minVersion)) :
    ∃ n, (sizesUpTo v (versionInfoFrom lv p pfs)).max? = some n ∧ SizeFrom v p pfs n := by
  induction pfs generalizing lv p with
  | nil =>
      refine ⟨p + structHeaderSize, ?_, Nat.le_refl _, List.forall_mem_nil _, .inl rfl⟩
      rw [versionInfoFrom, sizesUpTo_cons_of_le hv]
      rfl
  | cons pf pfs ih =>
      rw [List.forall_mem_cons] at hlow
      have ⟨hfirst, htail⟩ := List.pairwise_cons.mp hsort
      rw [versionInfoFrom]
      rcases Nat.lt_or_ge v pf.minVersion with hlt | hle
      · -- no later entry belongs to version `v`
        have hnone : sizesUpTo v
            (versionInfoFrom pf.minVersion (max p (payloadSizeUpToField pf)) pfs) = [] :=
          sizesUpTo_eq_nil fun e he =>
            Nat.lt_of_lt_of_le hlt (le_of_mem_versionInfoFrom hfirst htail e he)
        rw [if_pos (by omega), sizesUpTo_cons_of_le hv, hnone]
        refine ⟨p + structHeaderSize, rfl, Nat.le_refl _, ?_, .inl rfl⟩
        refine List.forall_mem_cons.mpr ⟨fun h => absurd h (by omega), fun q hq h => ?_⟩
        exact absurd (Nat.le_trans (hfirst q hq) h) (by omega)
      · split
        · obtain ⟨n, hmax, hn⟩ := ih (p := max p (payloadSizeUpToField pf)) hle hfirst htail
          refine ⟨n, ?_, hn.cons hle⟩
          rw [sizesUpTo_cons_of_le hv, List.max?_cons, hmax]
          exact congrArg some (Nat.max_eq_right (hn.cons hle).base)
        · obtain ⟨n, hmax, hn⟩ := ih (p := max p (payloadSizeUpToField pf)) hv hlow.2 htail
          exact ⟨n, hmax, hn.cons hle⟩

/-- Fields that compare by key compare by version too. -/
theorem minVersion_le_of_keyLe {fields : List Field} (h : Packable fields)
    {a b : PackedField} (ha : a ∈ sources fields) (hb : b ∈ sources fields) (hab : a.KeyLe b) :
    a.minVersion ≤ b.minVersion := by
  have hpair : (sources fields).Pairwise
      fun a b => a.KeyLt b ∧ a.minVersion ≤ b.minVersion := by
    rw [sources_eq, List.pairwise_map]
    exact (srcFields_sorted 0 fields).and h.sorted
  obtain ⟨i, hi, rfl⟩ := List.mem_iff_getElem.mp ha
  obtain ⟨j, hj, rfl⟩ := List.mem_iff_getElem.mp hb
  rcases Nat.lt_trichotomy i j with hlt | rfl | hlt
  · exact (List.pairwise_iff_getElem.mp hpair i j hi hj hlt).2
  · exact Nat.le_refl _
  · exact absurd hab (List.pairwise_iff_getElem.mp hpair j i hj hi hlt).1

/-- The ordinal order is an order by versions. -/
theorem ordinalOrder_sorted {fields : List Field} (h : Packable fields) :
    (packed fields).packedFieldsInOrdinalOrder.Pairwise (·.minVersion ≤ ·.minVersion) := by
  have hkey : (packed fields).packedFieldsInOrdinalOrder.Pairwise PackedField.KeyLe :=
    List.pairwise_insertionSort _ _
  refine hkey.imp_of_mem fun {a b} ha hb hab => ?_
  have hsource : ∀ pf ∈ (packed fields).packedFieldsInOrdinalOrder, ∃ q ∈ sources fields,
      (q.ordinal, q.subKey, q.minVersion) = (pf.ordinal, pf.subKey, pf.minVersion) := by
    intro pf hpf
    have hmem := (packed_perm (g := fun q => (q.ordinal, q.subKey, q.minVersion))
      (fun _ _ => rfl) fields).subset
      (List.mem_map_of_mem ((List.mem_insertionSort _).mp hpf))
    exact List.mem_map.mp hmem
  obtain ⟨a', ha', heqa⟩ := hsource a ha
  obtain ⟨b', hb', heqb⟩ := hsource b hb
  simp only [Prod.mk.injEq] at heqa heqb
  rw [← heqa.2.2, ← heqb.2.2]
  refine minVersion_le_of_keyLe h ha' hb' ?_
  show a'.ordinal < b'.ordinal ∨ a'.ordinal = b'.ordinal ∧ a'.subKey ≤ b'.subKey
  rw [heqa.1, heqa.2.1, heqb.1, heqb.2.1]
  exact hab

/-- Every version demands a size. -/
theorem exists_numBytesForVersion {fields : List Field} (h : Packable fields) (v : Nat) :
    ∃ n, (packed fields).numBytesForVersion v = some n ∧
      SizeFor v (packed fields).packedFields n := by
  obtain ⟨m, hmax, hm⟩ := max_sizesUpTo (p := 0) (Nat.zero_le v)
    (fun pf _ => Nat.zero_le pf.minVersion) (ordinalOrder_sorted h)
  have hmem : ∀ pf, pf ∈ (packed fields).packedFieldsInOrdinalOrder ↔
      pf ∈ (packed fields).packedFields := fun _ => List.mem_insertionSort _
  refine ⟨m, hmax, fun pf hpf => hm.covers pf ((hmem pf).mpr hpf), ?_⟩
  rcases hm.attained with hatt | ⟨pf, hpf, hatt⟩
  · exact .inl (hatt.trans (Nat.zero_add _))
  · exact .inr ⟨pf, (hmem pf).mp hpf, hatt⟩

/-- The size that a version demands. -/
theorem numBytesForVersion_eq {fields : List Field} (h : Packable fields) {v n : Nat}
    (hn : SizeFor v (packed fields).packedFields n) :
    (packed fields).numBytesForVersion v = some n := by
  obtain ⟨m, hsome, hm⟩ := exists_numBytesForVersion h v
  rw [hsome, hn.unique hm]

/-! ### More fields -/

theorem insertAfter_filter {keep : PackedField → Bool} {src : PackedField}
    (hsrc : ∀ at_, keep (src.placeAt at_) = false) (last : PackedField)
    (rest : List PackedField) : (insertAfter src last rest).filter keep = rest.filter keep := by
  induction rest generalizing last with
  | nil => rw [insertAfter, List.filter_cons_of_neg (by rw [hsrc]; decide)]
  | cons next rest ih =>
      rw [insertAfter]
      split
      · rw [List.filter_cons_of_neg (by rw [hsrc]; decide)]
      · rw [List.filter_cons, ih next, List.filter_cons]

/-- Placing further fields leaves the earlier ones where they are. -/
theorem placeAll_filter {keep : PackedField → Bool} {dst src : List PackedField}
    (hsrc : ∀ pf ∈ src, ∀ at_, keep (pf.placeAt at_) = false) :
    (placeAll dst src).filter keep = dst.filter keep := by
  induction src generalizing dst with
  | nil => rfl
  | cons pf src ih =>
      rw [List.forall_mem_cons] at hsrc
      refine (ih hsrc.2).trans ?_
      cases dst with
      | nil => exact List.filter_cons_of_neg (by rw [hsrc.1]; decide)
      | cons first rest =>
          show (first :: insertAfter pf first rest).filter keep = _
          rw [List.filter_cons, insertAfter_filter hsrc.1, List.filter_cons]

/-- More fields leave the packed fields as they are, and in the same order. -/
theorem packed_append {fs gs : List Field} {n : Nat} (hfs : ∀ f ∈ fs, f.index < n)
    (hgs : ∀ g ∈ gs, n ≤ g.index) :
    (packed (fs ++ gs)).packedFields.filter (·.field.index < n) = (packed fs).packedFields := by
  have hsplit : sources (fs ++ gs) = sources fs ++
      (srcFields (0 + fs.length) gs).map fun pf => pf.resolve.versioned := by
    rw [sources_eq, srcFields_append, List.map_append, sources_eq]
  have hindex : ∀ {o} {hs : List Field} (P : Nat → Prop), (∀ f ∈ hs, P f.index) →
      ∀ pf ∈ (srcFields o hs).map fun pf => pf.resolve.versioned, P pf.field.index := by
    intro o hs P hP
    refine List.forall_mem_map.mpr fun pf hpf => ?_
    obtain ⟨i, f, hf, -, hexp⟩ := mem_srcFields hpf
    show P pf.field.index
    rw [(mem_expand hexp).2.1]
    exact hP f (List.mem_of_getElem? hf)
  show (placeAll [] (sources (fs ++ gs))).filter _ = placeAll [] (sources fs)
  rw [hsplit, placeAll, List.foldl_append]
  refine (placeAll_filter ?_).trans ?_
  · intro pf hpf at_
    exact decide_eq_false (Nat.not_lt.mpr (hindex (n ≤ ·) hgs pf hpf))
  · refine List.filter_eq_self.mpr fun pf hpf => ?_
    have hperm := packed_perm (g := fun q => q.field.index) (fun _ _ => rfl) fs
    obtain ⟨q, hq, heq⟩ := List.mem_map.mp (hperm.subset (List.mem_map_of_mem hpf))
    rw [decide_eq_true_eq, ← heq]
    rw [sources_eq] at hq
    exact hindex (· < n) hfs q hq

end MojoRs.Wire
