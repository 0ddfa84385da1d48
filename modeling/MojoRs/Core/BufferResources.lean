/-
MojoRs/Core/BufferResources.lean

What the shared buffers of a process hold of the kernel.  Descriptors are those
of buffers and pages are those of mappings, one owner each; and a mapping is one
that somebody refers to, the table or the holder of a reference, so that nothing
is left over once all is closed and dropped.

A region whose buffers are all read-only, and which no writable mapping shows any
more, keeps its bytes.

Main results: `resources_owned`, `sealed_stays`.
-/
import MojoRs.Core.BufferContents

namespace MojoRs.Core

open Lib SharedMemory

/-- The addresses of a mapping. -/
def Mapping.addresses (m : Mapping) : Set Nat := Set.Ico m.address (m.address + m.len)

/-- The pages of a mapping are those of its addresses. -/
theorem ShowsView.page_mem {pages : PageTable Nat} {size : Nat → Nat} {h : HeldMapping} {v : View}
    (hv : ShowsView pages size h v) {a : Nat} (ha : a ∈ h.owned.mapping.addresses) :
    a / pageSize ∈ h.pages := by
  obtain ⟨hlo, hhi⟩ := ha
  rw [hv.address] at hlo hhi
  rw [hv.len] at hhi
  have hfits := Kernel.le_pagesOf h.owned.mapLen
  have haddress := Nat.div_add_mod v.address pageSize
  rw [hv.skip] at haddress
  rw [HeldMapping.pages, hv.first]
  refine ⟨Nat.div_le_div_right hlo, Nat.div_lt_of_lt_mul ?_⟩
  rw [Nat.mul_add]
  rw [hv.mapLen] at hfits ⊢
  omega

namespace BufferProcess

variable {s : BufferProcess} {t : SharedRegions}

/-- Somebody refers to the mapping, if there is one. -/
def Needed (s : BufferProcess) (m : Nat) : Prop :=
  ∀ h, s.mappings m = some h → h.refs ≠ 0 ∨ s.listed m h = true

/-! ### References -/

/-- The mappings and the table are as they were. -/
def SameMappings (s s' : BufferProcess) : Prop := s'.mappings = s.mappings ∧ s'.table = s.table

theorem needed_of_same {s' : BufferProcess} (hsame : s.SameMappings s') (h : ∀ m, s.Needed m)
    (m : Nat) : s'.Needed m := by
  intro held hheld
  rw [hsame.1] at hheld
  rw [listed, hsame.2]
  exact h m held hheld

theorem same_create (numBytes : Nat) (memfd : Option Nat) (truncated : Bool) :
    s.SameMappings (s.create numBytes memfd truncated).2 := by
  unfold create
  split
  · exact ⟨rfl, rfl⟩
  · exact ⟨rfl, rfl⟩

theorem same_duplicate (b : Nat) (readOnly : Bool) (dup : Option Nat) :
    s.SameMappings (s.duplicate b readOnly dup).2 := by
  unfold duplicate
  cases s.buffers b with
  | none => exact ⟨rfl, rfl⟩
  | some inner =>
      dsimp only
      split
      · exact ⟨rfl, rfl⟩
      · exact ⟨rfl, rfl⟩

theorem same_close (b : Nat) : s.SameMappings (s.close b).2 := by
  unfold close
  split
  · exact ⟨rfl, rfl⟩
  · exact ⟨rfl, rfl⟩

theorem same_read (m offset len : Nat) : s.SameMappings (s.read m offset len).2 := by
  unfold read
  cases s.held m with
  | none => exact ⟨rfl, rfl⟩
  | some held =>
      dsimp only
      split
      · exact ⟨rfl, rfl⟩
      · exact ⟨rfl, rfl⟩

theorem same_write (m offset : Nat) (content : List UInt8) :
    s.SameMappings (s.write m offset content).2 := by
  unfold write
  cases s.held m with
  | none => exact ⟨rfl, rfl⟩
  | some held =>
      dsimp only
      split_ifs
      · exact ⟨rfl, rfl⟩
      · split
        · exact ⟨rfl, rfl⟩
        · exact ⟨rfl, rfl⟩

/-- A mapping that nobody refers to any more is gone. -/
theorem needed_release {m : Nat} (h : ∀ m', m' ≠ m → s.Needed m') (m' : Nat) :
    (s.release m).Needed m' := by
  rw [release]
  cases hheld : s.mappings m with
  | none =>
      intro held hheld'
      refine h m' ?_ held hheld'
      rintro rfl
      cases hheld.symm.trans hheld'
  | some held =>
      dsimp only
      split_ifs with hlast
      · intro held' hheld'
        have hheld'' : Function.update s.mappings m none m' = some held' := hheld'
        rw [Function.update_apply] at hheld''
        split_ifs at hheld'' with hne
        exact h m' hne held' hheld''
      · intro held' hheld'
        by_cases hm : m' = m
        · subst hm
          obtain rfl := Option.some.inj (hheld.symm.trans hheld')
          by_cases hrefs : held.refs = 0
          · refine .inr ?_
            cases hlisted : s.listed m' held with
            | false => exact absurd ⟨hrefs, hlisted⟩ hlast
            | true => rfl
          · exact .inl hrefs
        · exact h m' hm held' hheld'

/-- The references to a mapping do not matter to the others. -/
theorem needed_setRefs {m : Nat} {held : HeldMapping} (h : ∀ m, s.Needed m) {refs : Nat}
    (m' : Nat) (hm : m' ≠ m) : (s.setRefs m held refs).Needed m' := by
  intro held' hheld'
  have hheld'' : Function.update s.mappings m (some { held with refs }) m' = some held' := hheld'
  rw [Function.update_of_ne hm] at hheld''
  exact h m' held' hheld''

/-- A new mapping is one that its maker refers to. -/
theorem needed_map (h : ∀ m, s.Needed m) (b offset numBytes : Nat)
    (first : Option Nat) (m : Nat) : (s.map b offset numBytes first).2.Needed m := by
  unfold map
  cases s.buffers b with
  | none => exact h m
  | some inner =>
      dsimp only
      split
      · exact needed_of_same ⟨rfl, rfl⟩ h m
      · intro held hheld
        have hheld' : Function.update s.mappings s.nextMapping _ m = some held := hheld
        rw [Function.update_apply] at hheld'
        split_ifs at hheld'
        · obtain rfl := Option.some.inj hheld'
          exact .inl Nat.one_ne_zero
        · exact h m held hheld'

/-- Listing a mapping takes no other one from the table. -/
theorem needed_add (hr : s.Related t) (h : ∀ m, s.Needed m) (m m' : Nat) :
    (s.add m).2.Needed m' := by
  unfold add
  rcases hr.held_cases m with ⟨hs, -⟩ | ⟨held, v, hs, -, hheld, -, hrefs, hv⟩
  · rw [hs]
    exact h m'
  · have hadded : ∀ m',
        Needed { s with table := Function.update s.table held.owned.mapping.address (some m) } m' := by
      intro m' held' hheld'
      rcases h m' held' hheld' with hrefs' | hlisted
      · exact .inl hrefs'
      · right
        have hlisted' : s.table held'.owned.mapping.address = some m' :=
          of_decide_eq_true hlisted
        apply decide_eq_true
        show Function.update s.table held.owned.mapping.address (some m) _ = some m'
        by_cases haddress : held'.owned.mapping.address = held.owned.mapping.address
        · rw [haddress] at hlisted' ⊢
          rw [Function.update_self, hr.listed_unique hheld hlisted']
        · rw [Function.update_of_ne haddress]
          exact hlisted'
    rw [hs]
    dsimp only
    cases s.table held.owned.mapping.address with
    | none => exact hadded m'
    | some replaced => exact needed_release (fun m'' _ => hadded m'') m'

theorem needed_remove (h : ∀ m, s.Needed m) (address m : Nat) :
    (s.remove address).2.Needed m := by
  unfold remove
  cases htable : s.table address with
  | none => exact h m
  | some m' =>
      apply needed_release
      intro m hm held hheld
      rcases h m held hheld with hrefs | hlisted
      · exact .inl hrefs
      · right
        have hlisted' : s.table held.owned.mapping.address = some m := of_decide_eq_true hlisted
        apply decide_eq_true
        show Function.update s.table address none _ = some m
        rw [Function.update_of_ne _ _ _]
        · exact hlisted'
        · intro haddress
          rw [haddress, htable] at hlisted'
          exact hm (Option.some.inj hlisted').symm

theorem needed_step (hr : s.Related t) (h : ∀ m, s.Needed m) (op : BufferOp) (m : Nat) :
    (s.step op).2.Needed m := by
  cases op with
  | create numBytes memfd truncated =>
      exact needed_of_same (same_create numBytes memfd truncated) h m
  | duplicate b readOnly dup => exact needed_of_same (same_duplicate b readOnly dup) h m
  | close b => exact needed_of_same (same_close b) h m
  | map b offset numBytes first => exact needed_map h b offset numBytes first m
  | add m' => exact needed_add hr h m' m
  | remove address => exact needed_remove h address m
  | get address =>
      show Needed (s.get address).2 m
      unfold get
      cases s.table address with
      | none => exact h m
      | some m' =>
          dsimp only
          cases hheld : s.mappings m' with
          | none => exact h m
          | some held =>
              by_cases hm : m = m'
              · subst hm
                intro held' hheld'
                have hheld'' : Function.update s.mappings m _ m = some held' := hheld'
                rw [Function.update_self] at hheld''
                obtain rfl := Option.some.inj hheld''
                exact .inl (Nat.succ_ne_zero _)
              · exact needed_setRefs h m hm
  | drop m' =>
      show Needed (s.drop m').2 m
      unfold drop
      cases s.held m' with
      | none => exact h m
      | some held => exact needed_release (fun m'' hm => needed_setRefs h m'' hm) m
  | read m' offset len => exact needed_of_same (same_read m' offset len) h m
  | write m' offset content => exact needed_of_same (same_write m' offset content) h m

/-- Each descriptor and each page in use is that of one buffer or mapping,
mappings do not overlap, and each mapping is one that somebody refers to. -/
structure Exclusive (s : BufferProcess) : Prop where
  descriptors : Owned s.buffers (fun inner => {inner.shm.fd}) (filled s.kernel.files)
  pages : Owned s.mappings HeldMapping.pages (filled s.kernel.memory.pages)
  addresses : ∀ m m' held held', s.mappings m = some held → s.mappings m' = some held' → m ≠ m' →
    Disjoint (held.owned.mapping.addresses) (held'.owned.mapping.addresses)
  needed : ∀ m held, s.mappings m = some held → held.refs ≠ 0 ∨ s.listed m held = true

theorem Related.exclusive (h : s.Related t) (hneeded : ∀ m, s.Needed m) : s.Exclusive where
  descriptors := h.sound.descriptors
  pages := h.sound.pages
  addresses m m' held held' hheld hheld' hne := by
    obtain ⟨v, -, hv⟩ := h.views.some hheld
    obtain ⟨v', -, hv'⟩ := h.views.some hheld'
    rw [Set.disjoint_left]
    intro a ha ha'
    exact hne (h.sound.pages.unique hheld hheld' (hv.page_mem ha) (hv'.page_mem ha'))
  needed := hneeded

/-- In every state of a run, whatever is in use of the kernel is that of exactly
one buffer or mapping that is still there. -/
theorem resources_owned (ops : List BufferOp) :
    Always (fun (s : BufferProcess) op => (s.step op).2) Exclusive .init ops := by
  have hall : Always (fun (s : BufferProcess) op => (s.step op).2)
      (fun s => (∃ t, s.Related t) ∧ ∀ m, s.Needed m) .init ops := by
    refine always_of_step (fun s op => ?_) ⟨⟨.init, related_init⟩, ?_⟩ ops
    · rintro ⟨⟨t, h⟩, hneeded⟩
      obtain ⟨grant, -, hnext⟩ := related_step h op
      exact ⟨⟨_, hnext⟩, needed_step h hneeded op⟩
    · intro m held hheld
      cases hheld
  refine hall.imp fun s => ?_
  rintro ⟨⟨t, h⟩, hneeded⟩
  exact h.exclusive hneeded

end BufferProcess

/-! ### Sealed regions -/

namespace SharedRegions

variable {t : SharedRegions} {region : Nat}

/-- All that stands for the region is read-only. -/
structure Sealed (t : SharedRegions) (region : Nat) : Prop where
  made : t.size region ≠ 0
  buffers : ∀ b mode, t.buffers b = some (region, mode) → mode = .readOnly
  views : ∀ m v, t.views m = some v → v.region = region → v.writable = false

namespace Sealed

/-- A buffer that is added stands for another region, or is read-only. -/
theorem addBuffer (h : t.Sealed region) {r : Nat} {mode : BufferMode}
    (hmode : r = region → mode = .readOnly) : (t.addBuffer r mode).Sealed region := by
  refine { h with buffers := fun b mode' hb => ?_ }
  have hb' : Function.update t.buffers t.nextBuffer (some (r, mode)) b = some (region, mode') := hb
  rw [Function.update_apply] at hb'
  split_ifs at hb'
  · obtain ⟨rfl, rfl⟩ := Prod.mk.inj (Option.some.inj hb')
    exact hmode rfl
  · exact h.buffers b mode' hb'

theorem setView (h : t.Sealed region) {m : Nat} {v : View}
    (hv : v.region = region → v.writable = false) {next : Nat} :
    Sealed { t with views := Function.update t.views m (some v), nextView := next } region := by
  refine { h with views := fun m' v' hv' => ?_ }
  have hv'' : Function.update t.views m (some v) m' = some v' := hv'
  rw [Function.update_apply] at hv''
  split_ifs at hv''
  · obtain rfl := Option.some.inj hv''
    exact hv
  · exact h.views m' v' hv''

theorem setRefs (h : t.Sealed region) {v : View} (hv : v.region = region → v.writable = false)
    (m refs : Nat) : (t.setRefs m v refs).Sealed region := by
  have hset := @setView t region h m { v with refs } hv t.nextView
  exact hset

theorem release (h : t.Sealed region) (m : Nat) : (t.release m).Sealed region := by
  unfold SharedRegions.release
  split
  · exact h
  · split_ifs
    · refine { h with views := fun m' v' hv' => ?_ }
      have hv'' : Function.update t.views m none m' = some v' := hv'
      rw [Function.update_apply] at hv''
      split_ifs at hv''
      exact h.views m' v' hv''
    · exact h

theorem held (h : t.Sealed region) {m : Nat} {v : View} (hheld : t.held m = some v) :
    v.region = region → v.writable = false :=
  h.views m v (Option.filter_eq_some_iff.mp hheld).1

/-- A call keeps a sealed region sealed, and its bytes. -/
theorem step (h : t.Sealed region) (c : BufferOp × Option Nat) :
    (t.step c).2.Sealed region ∧ (t.step c).2.contents region = t.contents region := by
  obtain ⟨op, grant⟩ := c
  cases op with
  | create numBytes memfd truncated =>
      show (t.create numBytes grant).2.Sealed region ∧ (t.create numBytes grant).2.contents region = _
      unfold create
      split
      · exact ⟨h, rfl⟩
      · next r =>
        split_ifs with hgranted
        · exact ⟨h, rfl⟩
        · -- the region of the new buffer is another one
          have hne : region ≠ r := by
            rintro rfl
            exact hgranted (.inr (.inr h.made))
          refine ⟨?_, Function.update_of_ne hne ..⟩
          apply Sealed.addBuffer
          · refine { h with made := ?_ }
            show Function.update t.size r numBytes region ≠ 0
            rw [Function.update_of_ne hne]
            exact h.made
          · exact fun heq => absurd heq.symm hne
  | duplicate b readOnly dup =>
      show (t.duplicate b readOnly grant).2.Sealed region ∧
        (t.duplicate b readOnly grant).2.contents region = _
      unfold duplicate
      split
      · exact ⟨h, rfl⟩
      · next r mode hb =>
        have hmode : r = region → SharedBuffer.modeAfter readOnly mode = .readOnly := by
          rintro rfl
          rw [h.buffers b mode hb]
          rfl
        have hset : Sealed { t with
            buffers := Function.update t.buffers b
              (some (r, SharedBuffer.modeAfter readOnly mode)) } region := by
          refine { h with buffers := fun b' mode' hb' => ?_ }
          have hb'' : Function.update t.buffers b
            (some (r, SharedBuffer.modeAfter readOnly mode)) b' = some (region, mode') := hb'
          rw [Function.update_apply] at hb''
          split_ifs at hb''
          · obtain ⟨hr, rfl⟩ := Prod.mk.inj (Option.some.inj hb'')
            exact hmode hr
          · exact h.buffers b' mode' hb''
        dsimp only
        split_ifs
        · exact ⟨hset, rfl⟩
        · exact ⟨hset, rfl⟩
        · exact ⟨hset.addBuffer hmode, rfl⟩
  | close b =>
      show (t.close b).2.Sealed region ∧ (t.close b).2.contents region = _
      unfold close
      split
      · exact ⟨h, rfl⟩
      · refine ⟨{ h with buffers := fun b' mode hb' => ?_ }, rfl⟩
        have hb'' : Function.update t.buffers b none b' = some (region, mode) := hb'
        rw [Function.update_apply] at hb''
        split_ifs at hb''
        exact h.buffers b' mode hb''
  | map b offset numBytes first =>
      show (t.map b offset numBytes grant).2.Sealed region ∧
        (t.map b offset numBytes grant).2.contents region = _
      unfold map
      split
      · exact ⟨h, rfl⟩
      · exact ⟨h, rfl⟩
      · next r mode address hb =>
        split_ifs
        · exact ⟨h, rfl⟩
        · refine ⟨h.setView ?_, rfl⟩
          rintro rfl
          rw [h.buffers b mode hb]
          rfl
  | add m =>
      show (t.add m).2.Sealed region ∧ (t.add m).2.contents region = _
      unfold add
      split
      · exact ⟨h, rfl⟩
      · exact ⟨{ h with }, rfl⟩
  | remove address =>
      show (t.remove address).2.Sealed region ∧ (t.remove address).2.contents region = _
      unfold remove
      split
      · exact ⟨h, rfl⟩
      · next m _ =>
        have hunlisted : Sealed { t with table := Function.update t.table address none } region :=
          { h with }
        refine ⟨hunlisted.release m, ?_⟩
        unfold SharedRegions.release
        split
        · rfl
        · split_ifs <;> rfl
  | get address =>
      show (t.get address).2.Sealed region ∧ (t.get address).2.contents region = _
      unfold get
      split
      · exact ⟨h, rfl⟩
      · next m _ =>
        split
        · exact ⟨h, rfl⟩
        · next v hv => exact ⟨h.setRefs (h.views m v hv) m _, rfl⟩
  | drop m =>
      show (t.drop m).2.Sealed region ∧ (t.drop m).2.contents region = _
      unfold drop
      split
      · exact ⟨h, rfl⟩
      · next v hv =>
        refine ⟨(h.setRefs (h.held hv) m _).release m, ?_⟩
        unfold SharedRegions.release
        split
        · rfl
        · split_ifs <;> rfl
  | read m offset len =>
      show (t.read m offset len).2.Sealed region ∧ (t.read m offset len).2.contents region = _
      unfold read
      split
      · exact ⟨h, rfl⟩
      · split_ifs
        · exact ⟨h, rfl⟩
        · exact ⟨h, rfl⟩
  | write m offset content =>
      show (t.write m offset content).2.Sealed region ∧
        (t.write m offset content).2.contents region = _
      unfold write
      split
      · exact ⟨h, rfl⟩
      · next v hv =>
        split_ifs with haliased hrange
        · exact ⟨h, rfl⟩
        · exact ⟨h, rfl⟩
        · -- what can be written to is a view of another region
          have hne : v.region ≠ region := by
            intro hregion
            exact hrange (.inl (h.held hv hregion))
          refine ⟨{ h with }, ?_⟩
          funext i
          apply Memory.putBytes_of_not_mem
          exact fun hmem => hne hmem.1.symm

theorem exec (h : t.Sealed region) (cs : List (BufferOp × Option Nat)) :
    (Lib.exec (fun t c => (t.step c).2) t cs).contents region = t.contents region := by
  induction cs generalizing t with
  | nil => rfl
  | cons c cs ih => exact (ih (h.step c).1).trans (h.step c).2

end Sealed

end SharedRegions

namespace BufferProcess

variable {s : BufferProcess} {t : SharedRegions}

/-- All buffers of the object are read-only, and every mapping that shows bytes
of it is, too. -/
structure Sealed (s : BufferProcess) (object : Nat) : Prop where
  made : s.kernel.memory.size object ≠ 0
  buffers : ∀ b inner, s.buffers b = some inner → s.kernel.files inner.shm.fd = some object →
    inner.mode = .readOnly
  mappings : ∀ m held, s.mappings m = some held → ∀ a ∈ held.owned.mapping.addresses, ∀ l,
    s.kernel.memory.pages.place pageSize a = some l → l.object = object →
    held.owned.mapping.access = .readOnly

theorem Related.seal (h : s.Related t) {object : Nat} (hs : s.Sealed object) :
    t.Sealed object where
  made := by
    rw [← h.size]
    exact hs.made
  buffers b mode hb := by
    cases hinner : s.buffers b with
    | none =>
        rw [h.buffers.none hinner] at hb
        cases hb
    | some inner =>
        obtain ⟨r, hr, hstands⟩ := h.buffers.some hinner
        obtain rfl := Option.some.inj (hb.symm.trans hr)
        rw [← hs.buffers b inner hinner hstands.file]
        exact hstands.mode.symm
  views m v hv hregion := by
    cases hheld : s.mappings m with
    | none =>
        rw [h.views.none hheld] at hv
        cases hv
    | some held =>
        obtain ⟨v', hv', hshows⟩ := h.views.some hheld
        obtain rfl := Option.some.inj (hv.symm.trans hv')
        have hplace := hshows.views 0 hshows.pos
        have hmem : v.address + 0 ∈ held.owned.mapping.addresses := by
          rw [Mapping.addresses, hshows.address, hshows.len]
          exact ⟨Nat.le_refl _, Nat.add_lt_add_left hshows.pos _⟩
        have haccess := hs.mappings m held hheld _ hmem _ hplace hregion
        rw [hshows.access] at haccess
        cases hwritable : v.writable with
        | false => rfl
        | true =>
            rw [hwritable] at haccess
            cases haccess

/-- A sealed object keeps its bytes, whatever the process does from there on. -/
theorem sealed_stays (ops ops' : List BufferOp) (object : Nat)
    (h : (exec (fun s op => (step s op).2) .init ops).Sealed object) :
    (exec (fun s op => (step s op).2) .init (ops ++ ops')).kernel.memory.objects object =
      (exec (fun s op => (step s op).2) .init ops).kernel.memory.objects object := by
  obtain ⟨grants, -, -, hr⟩ := refines.answers related_init ops
  obtain ⟨grants', -, -, hr'⟩ := refines.answers hr ops'
  have hsealed := hr.seal h
  rw [exec_append, hr'.contents, hr.contents]
  exact hsealed.exec _

/-- A byte is written to a buffer, its mapping is dropped, and the buffer is
duplicated read-only. -/
def sealing : List BufferOp :=
  [.create 16 (some 3) true, .map 0 0 16 (some 10), .write 0 0 [7], .drop 0,
    .duplicate 0 true (some 4)]

theorem sealing_stays :
    (exec (fun (s : BufferProcess) op => (s.step op).2) .init
        (sealing ++ [.map 1 0 16 (some 10), .write 1 0 [9]])).kernel.memory.objects 0 =
      (exec (fun (s : BufferProcess) op => (s.step op).2) .init sealing).kernel.memory.objects 0 := by
  obtain ⟨grants, -, -, hr⟩ := refines.answers related_init sealing
  refine sealed_stays sealing _ 0 ⟨by decide, ?_, ?_⟩
  · intro b inner hb _
    obtain rfl | rfl | hlt : b = 0 ∨ b = 1 ∨ 2 ≤ b := by omega
    · obtain rfl := Option.some.inj hb
      rfl
    · obtain rfl := Option.some.inj hb
      rfl
    · have hnone := hr.sound.newBuffer b hlt
      cases hnone.symm.trans hb
  · intro m held hheld
    obtain rfl | hlt : m = 0 ∨ 1 ≤ m := by omega
    · cases hheld
    · have hnone := hr.sound.newMapping m hlt
      cases hnone.symm.trans hheld

end BufferProcess

end MojoRs.Core
