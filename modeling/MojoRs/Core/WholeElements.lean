/-
MojoRs/Core/WholeElements.lean

Elements in a data pipe.  A pipe is created with an element size, and the
public contract asks for a capacity that is a multiple of it; `create_pair`
does not check that.  Transfers are cut at the free space, at the data size and
at the physical end of the ring, so their sizes are whole numbers of elements
just where all three are.

Where the capacity is a whole number of elements, every offset and every size
in the pair stays one (`PairState.Aligned`), through every effect of every
operation at either end.  Where it is not, the first `begin_write` on a fresh
pair hands out a torn element.

Main result: `whole_elements_iff`.
-/
import MojoRs.Core.DataPipeEffects

namespace MojoRs.Core

open Lib

/-! ### Rings of whole elements -/

namespace RingBuffer

variable {cap e n : Nat} {r r' : RingBuffer cap}

/-- The data range starts and ends at element boundaries. -/
structure Whole (e : Nat) (r : RingBuffer cap) : Prop where
  offset : e ∣ r.offset
  size : e ∣ r.size

theorem Whole.extend (h : r.Whole e) (hn : e ∣ n) (hr : r.extendDataRange n = some r') :
    r'.Whole e := by
  obtain ⟨-, hoff, hsize⟩ := extendDataRange_eq_some hr
  constructor
  · rw [hoff]
    exact h.offset
  · rw [hsize]
    exact Nat.dvd_add h.size hn

/-- An offset that passes the physical end stays at a boundary. -/
theorem Whole.discard (hcap : e ∣ cap) (h : r.Whole e) (hn : e ∣ n)
    (hr : r.discardAll n = some r') : r'.Whole e := by
  obtain ⟨-, hoff, hsize⟩ := discardAll_eq_some hr
  constructor
  · rw [hoff]
    exact (Nat.dvd_mod_iff hcap).mpr (Nat.dvd_add h.offset hn)
  · rw [hsize]
    exact Nat.dvd_sub h.size hn

theorem Whole.available (hcap : e ∣ cap) (h : r.Whole e) : e ∣ r.availableCapacity :=
  Nat.dvd_sub hcap h.size

theorem dvd_min {a b : Nat} (ha : e ∣ a) (hb : e ∣ b) : e ∣ min a b := by
  rcases min_choice a b with h | h
  · rwa [h]
  · rwa [h]

theorem Whole.beginWrite (hcap : e ∣ cap) (h : r.Whole e) : e ∣ r.beginWrite.span.len := by
  have hend : e ∣ r.rangeEnd := by
    show e ∣ if r.offset + r.size ≥ cap then r.offset + r.size - cap else r.offset + r.size
    have hsum := Nat.dvd_add h.offset h.size
    split
    · exact Nat.dvd_sub hsum hcap
    · exact hsum
  exact dvd_min (h.available hcap) (Nat.dvd_sub hcap hend)

theorem Whole.beginRead (hcap : e ∣ cap) (h : r.Whole e) : e ∣ r.beginRead.span.len :=
  dvd_min h.size (Nat.dvd_sub hcap h.offset)

end RingBuffer

/-- The length of the span that a two-phase operation holds. -/
def TwoPhase.len : TwoPhase → Nat
  | .writer w => w.span.len
  | .reader r => r.span.len

/-! ### Pairs of whole elements -/

/-- The pending counts of an endpoint and the span it holds are whole. -/
structure EndpointState.Whole (e : Nat) (ep : EndpointState) : Prop where
  control : ∀ n ∈ ep.control, e ∣ n.toNat
  span : ∀ two, ep.twoPhase = some two → e ∣ two.len

namespace PairState

variable {cap e : Nat} {s : PairState cap}

/-- Everything in the pair lies at element boundaries. -/
structure Aligned (e : Nat) (s : PairState cap) : Prop where
  producer : s.producer.Whole e
  consumer : s.consumer.Whole e
  ends : ∀ self, (s.endpoint self).Whole e

theorem Aligned.modify (h : s.Aligned e) (self : DataPipeEnd) {f : EndpointState → EndpointState}
    (hf : (s.endpoint self).Whole e → (f (s.endpoint self)).Whole e) :
    (s.modifyEndpoint self f).Aligned e := by
  have hself := hf (h.ends self)
  cases self with
  | producer =>
      refine ⟨h.producer, h.consumer, fun e' => ?_⟩
      cases e' with
      | producer => exact hself
      | consumer => exact h.ends .consumer
  | consumer =>
      refine ⟨h.producer, h.consumer, fun e' => ?_⟩
      cases e' with
      | producer => exact h.ends .producer
      | consumer => exact hself

/-- The latch says nothing about sizes. -/
theorem Aligned.latch (h : s.Aligned e) (self : DataPipeEnd) : (s.signalsOf self).1.Aligned e := by
  cases self with
  | producer =>
      simp only [signalsOf]
      split <;> exact h
  | consumer =>
      simp only [signalsOf]
      split
      · exact h.modify .consumer fun hep => ⟨hep.control, hep.span⟩
      · exact h

theorem Aligned.push (h : s.Aligned e) (self : DataPipeEnd) {n : UInt32} (hn : e ∣ n.toNat) :
    (s.pushAndCollect self n).Aligned e := by
  unfold pushAndCollect
  split
  · exact h
  · refine Aligned.latch ?_ self
    refine h.modify self fun hep => ⟨fun m hm => ?_, hep.span⟩
    rcases List.mem_append.mp hm with hm | hm
    · exact hep.control m hm
    · rwa [List.mem_singleton.mp hm]

/-- The sum of whole counts is whole, and so are the counts left over. -/
theorem dvd_drain {control : List UInt32} (h : ∀ n ∈ control, e ∣ n.toNat) {changed : Nat}
    (hchanged : e ∣ changed) :
    e ∣ (drain control changed).1 ∧ ∀ n ∈ (drain control changed).2, e ∣ n.toNat := by
  induction control generalizing changed with
  | nil => exact ⟨hchanged, h⟩
  | cons value rest ih =>
      rw [List.forall_mem_cons] at h
      simp only [drain]
      split
      · rename_i sum hadd
        unfold checkedAdd at hadd
        split at hadd
        · cases hadd
          exact ih h.2 (Nat.dvd_add hchanged h.1)
        · cases hadd
      · exact ⟨hchanged, h.2⟩

theorem Aligned.flush (hcap : e ∣ cap) (h : s.Aligned e) (self : DataPipeEnd) :
    (s.flushLocked self).Aligned e := by
  obtain ⟨hsum, hrest⟩ := dvd_drain (h.ends self).control (Nat.dvd_zero e)
  unfold flushLocked
  generalize drain (s.endpoint self).control 0 = d at hsum hrest ⊢
  obtain ⟨changed, rest⟩ := d
  have hs : (s.modifyEndpoint self fun ep => { ep with control := rest }).Aligned e :=
    h.modify self fun hep => ⟨hrest, hep.span⟩
  dsimp only
  generalize s.modifyEndpoint self (fun ep => { ep with control := rest }) = s₁ at hs ⊢
  split
  · exact hs
  · cases self with
    | producer =>
        refine ⟨?_, hs.consumer, hs.ends⟩
        show ((s₁.producer.discardAll changed).getD s₁.producer).Whole e
        cases hd : s₁.producer.discardAll changed with
        | none => exact hs.producer
        | some r => exact hs.producer.discard hcap hsum hd
    | consumer =>
        have hcons : ((s₁.consumer.extendDataRange changed).getD s₁.consumer).Whole e := by
          cases hx : s₁.consumer.extendDataRange changed with
          | none => exact hs.consumer
          | some r => exact hs.consumer.extend hsum hx
        have hlatch := hs.modify .consumer (f := fun ep => { ep with hasNewData := true })
          fun hep => ⟨hep.control, hep.span⟩
        exact ⟨hs.producer, hcons, hlatch.ends⟩

theorem Aligned.new (p : DataPipe) : (PairState.new p).Aligned e := by
  have hend : EndpointState.new.Whole e := by
    constructor <;> simp [EndpointState.new]
  refine ⟨⟨Nat.dvd_zero e, Nat.dvd_zero e⟩, ⟨Nat.dvd_zero e, Nat.dvd_zero e⟩, fun self => ?_⟩
  cases self with
  | producer => exact hend
  | consumer => exact hend

end PairState

/-! ### Operations on whole elements -/

namespace DataPipe

open PairState

variable {p : DataPipe} {s s' : PairState p.cap} {self : DataPipeEnd}

theorem Cut.dvd {n rest : Nat} (h : p.Cut n rest) (hrest : p.elementSize.toNat ∣ rest) :
    p.elementSize.toNat ∣ n := by
  rcases h with h | h
  · exact h
  · rwa [h]

/-- Every effect keeps the pair aligned. -/
theorem aligned_effect {op : DataPipeOp} (hcap : p.elementSize.toNat ∣ p.cap)
    (heffect : p.PairEffect op s s') (h : s.Aligned p.elementSize.toNat) :
    s'.Aligned p.elementSize.toNat := by
  cases heffect with
  | flush self => exact h.flush hcap self
  | latch self => exact h.latch self
  | poison => exact ⟨h.producer, h.consumer, h.ends⟩
  | forget self => exact h.modify self fun hep => ⟨hep.control, hep.span⟩
  | beginWrite self =>
      refine h.modify self fun hep => ⟨hep.control, fun two htwo => ?_⟩
      cases htwo
      exact h.producer.beginWrite hcap
  | beginRead self =>
      refine h.modify self fun hep => ⟨hep.control, fun two htwo => ?_⟩
      cases htwo
      exact h.consumer.beginRead hcap
  | endTwoPhase self =>
      refine h.modify self fun hep => ⟨hep.control, fun two htwo => ?_⟩
      cases htwo
  | produce self n producer pages cut extended =>
      have hn := cut.dvd (h.producer.available hcap)
      have hs : ({ s with producer, pages } : PairState p.cap).Aligned p.elementSize.toNat :=
        ⟨h.producer.extend hn extended, h.consumer, h.ends⟩
      exact hs.push self.peer hn
  | take self n consumer cut discarded =>
      have hn := cut.dvd h.consumer.size
      have hs : ({ s with consumer } : PairState p.cap).Aligned p.elementSize.toNat :=
        ⟨h.producer, h.consumer.discard hcap hn discarded, h.ends⟩
      exact hs.push self.peer hn
  | finish self n consumer cut discarded =>
      have hs : ({ s with consumer } : PairState p.cap).Aligned p.elementSize.toNat :=
        ⟨h.producer, h.consumer.discard hcap cut discarded, h.ends⟩
      exact hs.push self.peer cut
  | close self =>
      refine (h.modify self fun hep => ?_).modify self.peer fun hep => ?_
      · exact ⟨hep.control, hep.span⟩
      · exact ⟨hep.control, hep.span⟩

/-- The byte counts in the result of a successful call. -/
def countsOf {α : Type} (counts : α → List Nat) : Call α → List Nat
  | some (.ok a) => counts a
  | _ => []

/-- The byte counts that an operation hands back. -/
def counts (p : DataPipe) (s : PairState p.cap) : DataPipeOp → List Nat
  | .write self elements numBytes allOrNone =>
      countsOf (fun written => [written.toNat]) (p.write self s elements numBytes allOrNone).2
  | .beginWrite self => countsOf (fun span => [span.len]) (p.beginWrite self s).2
  | .read self elements numBytes flags =>
      countsOf (fun out => [out.numBytes.toNat, out.data.length])
        (p.read self s elements numBytes flags).2
  | .beginRead self => countsOf (fun span => [span.len]) (p.beginRead self s).2
  | _ => []

theorem dvd_countsOf_ok {α : Type} {counts : α → List Nat} {e : Nat} {a : α}
    (h : ∀ n ∈ counts a, e ∣ n) : ∀ n ∈ countsOf counts (some (.ok a)), e ∣ n := h

theorem dvd_countsOf_error {α : Type} {counts : α → List Nat} {e : Nat} {err : CoreError} :
    ∀ n ∈ countsOf counts (some (.error err)), e ∣ n := fun _ hn => absurd hn List.not_mem_nil

/-- A number of bytes that fits the capacity survives the cast. -/
theorem toNat_ofNat_le {n : Nat} (h : n ≤ p.cap) : (UInt32.ofNat n).toNat = n := by
  have := p.cap_lt
  exact UInt32.toNat_ofNat_of_lt' (by simp only [UInt32.size]; omega)

theorem dvd_write (hcap : p.elementSize.toNat ∣ p.cap) (h : s.Aligned p.elementSize.toNat)
    (elements : List UInt8) (numBytes : UInt32) (allOrNone : Bool) :
    ∀ n ∈ p.counts s (.write self elements numBytes allOrNone), p.elementSize.toNat ∣ n := by
  have h₁ := h.flush hcap self
  apply write_rule (motive := fun out =>
    ∀ n ∈ countsOf (fun written : UInt32 => [written.toNat]) out.2, p.elementSize.toNat ∣ n)
  · exact fun _ => dvd_countsOf_error
  · exact fun _ => dvd_countsOf_error
  · exact fun _ _ hn => absurd hn List.not_mem_nil
  · intro hstarts producer pages _
    have hwhole := Nat.dvd_of_mod_eq_zero hstarts.whole
    exact dvd_countsOf_ok (List.forall_mem_singleton.mpr hwhole)
  · exact fun _ _ _ _ => dvd_countsOf_error
  · intro hstarts n producer pages hw
    have hwhole := Nat.dvd_of_mod_eq_zero hstarts.whole
    obtain ⟨hn, -⟩ := RingBuffer.extendDataRange_write hw
    rw [List.length_take, Nat.min_eq_left hstarts.long] at hn
    have hdvd : p.elementSize.toNat ∣ (UInt32.ofNat n).toNat := by
      rw [toNat_ofNat_le (hn ▸ Nat.le_trans (Nat.min_le_right _ _) (Nat.sub_le _ _)), hn]
      exact RingBuffer.dvd_min hwhole (h₁.producer.available hcap)
    exact dvd_countsOf_ok (List.forall_mem_singleton.mpr hdvd)

theorem dvd_beginWrite (hcap : p.elementSize.toNat ∣ p.cap) (h : s.Aligned p.elementSize.toNat) :
    ∀ n ∈ p.counts s (.beginWrite self), p.elementSize.toNat ∣ n := by
  simp only [counts, DataPipe.beginWrite]
  split
  · exact dvd_countsOf_error
  have h₁ := h.flush hcap self
  generalize s.flushLocked self = s₁ at h₁ ⊢
  split
  · exact dvd_countsOf_error
  split
  · exact dvd_countsOf_error
  split
  · exact dvd_countsOf_error
  · exact dvd_countsOf_ok (List.forall_mem_singleton.mpr (h₁.producer.beginWrite hcap))

theorem dvd_beginRead (hcap : p.elementSize.toNat ∣ p.cap) (h : s.Aligned p.elementSize.toNat) :
    ∀ n ∈ p.counts s (.beginRead self), p.elementSize.toNat ∣ n := by
  simp only [counts, DataPipe.beginRead]
  split
  · exact dvd_countsOf_error
  have h₁ := h.flush hcap self
  generalize s.flushLocked self = s₁ at h₁ ⊢
  split
  · exact dvd_countsOf_error
  split
  · exact dvd_countsOf_error
  · exact dvd_countsOf_ok (List.forall_mem_singleton.mpr (h₁.consumer.beginRead hcap))

/-- The count of a read, and the length of what it copied. -/
theorem dvd_outcome {e : Nat} {numBytes : UInt32} {data : List UInt8} (hn : e ∣ numBytes.toNat)
    (hdata : e ∣ data.length) : ∀ n ∈ countsOf (fun out : ReadOutcome =>
      [out.numBytes.toNat, out.data.length]) (some (.ok ⟨numBytes, data⟩)), e ∣ n :=
  dvd_countsOf_ok (List.forall_mem_cons.mpr ⟨hn, List.forall_mem_singleton.mpr hdata⟩)

theorem dvd_readAllOrNone {numBytes : UInt32} (flags : ReadFlags)
    (hwhole : p.elementSize.toNat ∣ numBytes.toNat) :
    ∀ n ∈ countsOf (fun out : ReadOutcome => [out.numBytes.toNat, out.data.length])
      (p.readAllOrNone self s numBytes flags).2, p.elementSize.toNat ∣ n := by
  have hcap := p.cap_lt
  unfold DataPipe.readAllOrNone
  dsimp only
  split
  · exact dvd_countsOf_error
  · rename_i data consumer hresult
    refine dvd_outcome hwhole ?_
    cases hd : flags.discard with
    | true =>
        rw [hd] at hresult
        obtain ⟨c, -, heq⟩ := Option.map_eq_some_iff.mp hresult
        cases heq
        exact Nat.dvd_zero _
    | false =>
        rw [hd] at hresult
        cases hp : flags.peek with
        | true =>
            rw [hp] at hresult
            obtain ⟨out, hpeek, heq⟩ := Option.map_eq_some_iff.mp hresult
            cases heq
            unfold RingBuffer.peekAll at hpeek
            split at hpeek
            · cases hpeek
            · rename_i hfit
              cases hpeek
              rw [RingBuffer.length_peek,
                Nat.min_eq_left (Nat.le_of_not_lt hfit : numBytes.toNat ≤ s.consumer.size)]
              exact hwhole
        | false =>
            rw [hp] at hresult
            rw [(RingBuffer.discardAll_readAll (by omega) hresult).1]
            exact hwhole

theorem dvd_readPartial {numBytes : UInt32} (flags : ReadFlags)
    (h : s.Aligned p.elementSize.toNat) (hwhole : p.elementSize.toNat ∣ numBytes.toNat) :
    ∀ n ∈ countsOf (fun out : ReadOutcome => [out.numBytes.toNat, out.data.length])
      (p.readPartial self s numBytes flags).2, p.elementSize.toNat ∣ n := by
  have hmin := RingBuffer.dvd_min hwhole h.consumer.size
  have hpeek : p.elementSize.toNat ∣ (s.consumer.peek s.pages numBytes.toNat).length := by
    rw [RingBuffer.length_peek]
    exact hmin
  have hlen : (s.consumer.peek s.pages numBytes.toNat).length ≤ p.cap := by
    rw [RingBuffer.length_peek]
    exact Nat.le_trans (Nat.min_le_right _ _) s.consumer.size_le
  have hcast : p.elementSize.toNat ∣
      (UInt32.ofNat (s.consumer.peek s.pages numBytes.toNat).length).toNat := by
    rwa [toNat_ofNat_le hlen]
  unfold DataPipe.readPartial
  split
  · refine dvd_outcome ?_ (Nat.dvd_zero _)
    rw [UInt32.toNat_min, RingBuffer.dataSize, toNat_ofNat_le s.consumer.size_le]
    exact hmin
  split
  · exact dvd_outcome hcast hpeek
  · exact dvd_outcome hcast hpeek

theorem dvd_read (hcap : p.elementSize.toNat ∣ p.cap) (h : s.Aligned p.elementSize.toNat)
    (elements : Option (List UInt8)) (numBytes : UInt32) (flags : ReadFlags) :
    ∀ n ∈ p.counts s (.read self elements numBytes flags), p.elementSize.toNat ∣ n := by
  have h₁ := h.flush hcap self
  have h₂ : (forgotten s self).Aligned p.elementSize.toNat :=
    h₁.modify self fun hep => ⟨hep.control, hep.span⟩
  apply read_rule (motive := fun out =>
    ∀ n ∈ countsOf (fun r : ReadOutcome => [r.numBytes.toNat, r.data.length]) out.2,
      p.elementSize.toNat ∣ n)
  · exact fun _ => dvd_countsOf_error
  · exact fun _ => dvd_countsOf_error
  · -- a query reports the data size
    intro _
    refine dvd_outcome ?_ (Nat.dvd_zero _)
    rw [RingBuffer.dataSize, toNat_ofNat_le (s.flushLocked self).consumer.size_le]
    exact h₁.consumer.size
  · exact fun _ _ => dvd_countsOf_error
  · exact fun _ _ _ hn => absurd hn List.not_mem_nil
  · exact fun hstarts => dvd_readAllOrNone flags (Nat.dvd_of_mod_eq_zero hstarts.whole)
  · exact fun hstarts => dvd_readPartial flags h₂ (Nat.dvd_of_mod_eq_zero hstarts.whole)

/-- An aligned pair hands out whole elements only. -/
theorem dvd_counts (hcap : p.elementSize.toNat ∣ p.cap) (h : s.Aligned p.elementSize.toNat)
    (op : DataPipeOp) : ∀ n ∈ p.counts s op, p.elementSize.toNat ∣ n := by
  cases op with
  | write self elements numBytes allOrNone => exact dvd_write hcap h elements numBytes allOrNone
  | beginWrite self => exact dvd_beginWrite hcap h
  | read self elements numBytes flags => exact dvd_read hcap h elements numBytes flags
  | beginRead self => exact dvd_beginRead hcap h
  | _ => exact fun _ hn => absurd hn List.not_mem_nil

/-! ### Runs -/

/-- Along a run, every count handed back, every pending count and every span
that is held is a whole number of elements. -/
def WholeRun (p : DataPipe) (ops : List DataPipeOp) : Prop :=
  Meets p.apply (fun s op => ∀ n ∈ p.counts s op, p.elementSize.toNat ∣ n) (.new p) ops ∧
    Always p.apply (fun s => ∀ self, (s.endpoint self).Whole p.elementSize.toNat) (.new p) ops

/-- The pipes here are those that `create_pair` accepts. -/
theorem createPair_accepts (p : DataPipe) : createPair p.elementSize p.capacity = .ok p := by
  have hcheck : ¬(p.capacity = 0 ∨ p.elementSize = 0 ∨ p.capacity < p.elementSize) := by
    rintro (h | h | h)
    · exact p.capacity_ne h
    · exact p.elementSize_ne h
    · exact absurd p.element_le (UInt32.not_le.mpr h)
  rw [createPair, dif_neg hcheck]

/-- On a fresh pair the span to write is the whole capacity. -/
theorem counts_fresh : p.counts (.new p) (.beginWrite .producer) = [p.cap] := by
  have hlen : (PairState.new p).producer.beginWrite.span.len = p.cap := by
    show min (p.cap - 0) (p.cap - if 0 + 0 ≥ p.cap then 0 + 0 - p.cap else 0 + 0) = p.cap
    have := p.cap_pos
    split <;> omega
  have hflush : (PairState.new p).flushLocked .producer = .new p := rfl
  have hne : (PairState.new p).producer.beginWrite.span.len ≠ 0 := by
    rw [hlen]
    exact Nat.ne_of_gt p.cap_pos
  have hres : (p.beginWrite .producer (.new p)).2 =
      some (.ok (PairState.new p).producer.beginWrite.span) := by
    unfold DataPipe.beginWrite
    rw [hflush]
    show (if (PairState.new p).producer.beginWrite.span.len = 0 then _ else _ :
      PairState p.cap × Call Span).2 = _
    rw [if_neg hne]
  show countsOf _ (p.beginWrite .producer (.new p)).2 = _
  rw [hres]
  exact congrArg (fun n => [n]) hlen

/-- The two ends of a pipe exchange whole elements only just if its capacity
is a whole number of elements. -/
theorem whole_elements_iff (p : DataPipe) :
    (∀ ops, p.WholeRun ops) ↔ p.elementSize.toNat ∣ p.capacity.toNat := by
  constructor
  · intro h
    have hcounts : ∀ n ∈ p.counts (.new p) (.beginWrite .producer), p.elementSize.toNat ∣ n :=
      (h [.beginWrite .producer]).1.1
    rw [counts_fresh] at hcounts
    exact hcounts p.cap (List.mem_singleton_self _)
  · intro hcap ops
    have hkeep : ∀ (s : PairState p.cap) op, s.Aligned p.elementSize.toNat →
        (p.apply s op).Aligned p.elementSize.toNat := fun s op h =>
      keeps_apply op (fun _ _ heffect => aligned_effect hcap heffect) h
    constructor
    · exact Meets.imp (fun s op h _ => hkeep s op h) (fun s op h _ => dvd_counts hcap h op)
        (.new p) (meets_of_forall (C := fun _ _ => True) (fun _ _ => trivial) _ _)
    · exact (always_of_step hkeep (.new p) ops).imp fun _ h => h.ends

/-- Elements of four bytes in ten bytes: a write of three elements stores two
and a half, and a read returns them. -/
theorem torn_element : ∃ p, createPair 4 10 = .ok p ∧ ¬p.WholeRun
    [.write .producer (List.replicate 12 7) 12 false,
      .read .consumer (some (List.replicate 12 0)) 12 ⟨false, false, false, false⟩] := by
  refine ⟨⟨4, 10, by decide, by decide, by decide⟩, rfl, fun h => ?_⟩
  have hcount := h.1.2.1 10 (by decide)
  exact absurd hcount (by decide)

end DataPipe

end MojoRs.Core
