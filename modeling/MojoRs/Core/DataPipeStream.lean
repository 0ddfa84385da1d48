/-
MojoRs/Core/DataPipeStream.lean

The byte stream through a data pipe.  A run is any sequence of operations: the
producer writes, begins and ends two-phase writes and fills the span it holds,
the consumer reads in every flag mode and begins and ends two-phase reads, and
both query signals and close.  Two ghost lists record the bytes accepted from
the producer and the bytes handed to the consumer.

The two ring views agree only up to the counts that are still in the queues.
`PairState.Inv` says how; `Moves s s' entered left` says what an operation did
to the unread bytes, and there is one lemma of this form per operation.

Main result: `stream_integrity`.
-/
import MojoRs.Core.DataPipe
import MojoRs.Lib.Run

namespace MojoRs.Core

open Lib

namespace PairState

variable {cap : Nat} {s s' s'' : PairState cap}

/-- The bytes announced by a queue of counts. -/
def pending (control : List UInt32) : Nat := (control.map UInt32.toNat).sum

/-- The bytes not yet handed to the consumer: its ring contents, then the
bytes announced by pending counts. -/
def unread (s : PairState cap) : List UInt8 :=
  window cap s.pages s.consumer.offset (s.consumer.size + pending s.consumerEnd.control)

/-- How the two ends agree. -/
structure Inv (s : PairState cap) : Prop where
  /-- The producer still counts what the consumer has, what the consumer was
  not told about, and what the producer was not told is gone. -/
  sizes : s.producer.size =
    s.consumer.size + pending s.consumerEnd.control + pending s.producerEnd.control
  aligned : (s.producer.offset + pending s.producerEnd.control) % cap = s.consumer.offset % cap
  /-- A writer's span starts where the producer's data ends, and is free. -/
  writer : ∀ w, s.producerEnd.twoPhase = some (.writer w) →
    w.span.start % cap = (s.producer.offset + s.producer.size) % cap ∧
      w.span.start + w.span.len ≤ cap ∧ s.producer.size + w.span.len ≤ cap
  /-- A reader's span is the front of the consumer's data. -/
  reader : ∀ r, s.consumerEnd.twoPhase = some (.reader r) →
    r.span.start = s.consumer.offset ∧ r.span.start + r.span.len ≤ cap ∧
      r.span.len ≤ s.consumer.size

/-- An operation keeps the invariant; `entered` came in behind the unread
bytes and `left` was taken from their front. -/
structure Moves (s s' : PairState cap) (entered left : List UInt8) : Prop where
  inv : s'.Inv
  bytes : s.unread ++ entered = left ++ s'.unread

theorem Moves.refl (h : s.Inv) : Moves s s [] [] := ⟨h, by simp⟩

/-- An operation that moves no bytes, followed by another one. -/
theorem Moves.trans {entered left : List UInt8} (h : Moves s s' [] [])
    (h' : Moves s' s'' entered left) : Moves s s'' entered left := by
  refine ⟨h'.inv, ?_⟩
  have heq : s.unread = s'.unread := by simpa using h.bytes
  rw [heq, h'.bytes]

/-- The converse order. -/
theorem Moves.trans_right {entered left : List UInt8} (h : Moves s s' entered left)
    (h' : Moves s' s'' [] []) : Moves s s'' entered left := by
  refine ⟨h'.inv, ?_⟩
  have heq : s'.unread = s''.unread := by simpa using h'.bytes
  rw [h.bytes, heq]

/-! ### Flags and queues -/

@[simp] theorem pending_nil : pending [] = 0 := rfl

theorem pending_append (control : List UInt32) (count : UInt32) :
    pending (control ++ [count]) = pending control + count.toNat := by
  simp [pending]

theorem drain_eq (control : List UInt32) (changed : Nat)
    (h : changed + pending control < 2 ^ 64) :
    drain control changed = (changed + pending control, []) := by
  induction control generalizing changed with
  | nil => rfl
  | cons value rest ih =>
      have hp : pending (value :: rest) = value.toNat + pending rest := by simp [pending]
      rw [hp] at h ⊢
      have hadd : checkedAdd changed value.toNat = some (changed + value.toNat) :=
        if_pos (by omega)
      simp only [drain, hadd]
      rw [ih _ (by omega), Nat.add_assoc]

theorem Inv.pending_le (h : s.Inv) :
    s.consumer.size + pending s.consumerEnd.control + pending s.producerEnd.control ≤ cap := by
  have := h.sizes
  have := s.producer.size_le
  omega

/-- Closed and news flags say nothing about bytes. -/
theorem moves_flags (h : s.Inv) (e : DataPipeEnd) (l c n : EndpointState → Bool) :
    Moves s (s.modifyEndpoint e fun ep =>
      { ep with localClosed := l ep, peerClosed := c ep, hasNewData := n ep }) [] [] := by
  cases e with
  | producer => exact ⟨⟨h.sizes, h.aligned, h.writer, h.reader⟩, (List.append_nil _)⟩
  | consumer => exact ⟨⟨h.sizes, h.aligned, h.writer, h.reader⟩, (List.append_nil _)⟩

theorem moves_poison (h : s.Inv) : Moves s s.poison [] [] :=
  ⟨⟨h.sizes, h.aligned, h.writer, h.reader⟩, List.append_nil _⟩

theorem moves_signalsOf (h : s.Inv) (e : DataPipeEnd) : Moves s (s.signalsOf e).1 [] [] := by
  cases e with
  | producer =>
      simp only [signalsOf]
      split <;> exact .refl h
  | consumer =>
      simp only [signalsOf]
      split
      · exact moves_flags h .consumer (·.localClosed) (·.peerClosed) (fun _ => true)
      · exact .refl h

/-! ### Flushing -/

theorem moves_flush_producer (hcap : cap < 2 ^ 32) (h : s.Inv) :
    Moves s (s.flushLocked .producer) [] [] ∧
      (s.flushLocked .producer).producerEnd.control = [] := by
  have hle := h.pending_le
  have hsizes := h.sizes
  have hd : drain s.producerEnd.control 0 = (pending s.producerEnd.control, []) := by
    rw [drain_eq _ _ (by omega), Nat.zero_add]
  simp only [flushLocked, endpoint, hd, modifyEndpoint]
  split
  · rename_i hzero
    refine ⟨⟨⟨?_, ?_, h.writer, h.reader⟩, List.append_nil _⟩, rfl⟩
    · simpa [hzero] using hsizes
    · simpa [hzero] using h.aligned
  · obtain ⟨r, hr⟩ := RingBuffer.discardAll_isSome (r := s.producer)
      (n := pending s.producerEnd.control) (by omega) (by omega)
    obtain ⟨-, hoff, hsize⟩ := RingBuffer.discardAll_eq_some hr
    rw [hr]
    refine ⟨⟨⟨?_, ?_, ?_, h.reader⟩, List.append_nil _⟩, rfl⟩
    · simp only [Option.getD_some, hsize, pending_nil]
      omega
    · simp [hoff, h.aligned]
    · intro w hw
      obtain ⟨hstart, hend, hfree⟩ := h.writer w hw
      refine ⟨?_, hend, ?_⟩
      · -- the end of the producer's data does not move
        simp only [Option.getD_some, hoff, hsize, Nat.mod_add_mod]
        rw [hstart]
        congr 1
        omega
      · simp only [Option.getD_some, hsize]
        omega

theorem moves_flush_consumer (hcap : cap < 2 ^ 32) (h : s.Inv) :
    Moves s (s.flushLocked .consumer) [] [] ∧
      (s.flushLocked .consumer).consumerEnd.control = [] := by
  have hle := h.pending_le
  have hsizes := h.sizes
  have hd : drain s.consumerEnd.control 0 = (pending s.consumerEnd.control, []) := by
    rw [drain_eq _ _ (by omega), Nat.zero_add]
  simp only [flushLocked, endpoint, hd, modifyEndpoint]
  split
  · rename_i hzero
    refine ⟨⟨⟨?_, h.aligned, h.writer, h.reader⟩, ?_⟩, rfl⟩
    · simpa [hzero] using hsizes
    · simp [unread, hzero]
  · obtain ⟨r, hr⟩ := RingBuffer.extendDataRange_isSome (r := s.consumer)
      (n := pending s.consumerEnd.control) (by omega)
    obtain ⟨-, hoff, hsize⟩ := RingBuffer.extendDataRange_eq_some hr
    rw [hr]
    refine ⟨⟨⟨?_, ?_, h.writer, ?_⟩, ?_⟩, rfl⟩
    · simp only [Option.getD_some, hsize, pending_nil]
      omega
    · simp [hoff, h.aligned]
    · intro d hd
      obtain ⟨hstart, hend, hlen⟩ := h.reader d hd
      refine ⟨?_, hend, ?_⟩
      · simp [hoff, hstart]
      · simp only [Option.getD_some, hsize]
        omega
    · simp [unread, hoff, hsize]

/-- Flushing moves no bytes, and afterwards the end knows all the peer did. -/
theorem moves_flush (hcap : cap < 2 ^ 32) (h : s.Inv) (self : DataPipeEnd) :
    Moves s (s.flushLocked self) [] [] ∧ ((s.flushLocked self).endpoint self).control = [] := by
  cases self with
  | producer => exact moves_flush_producer hcap h
  | consumer => exact moves_flush_consumer hcap h

/-! ### Producing and consuming -/

/-- A store behind the producer's data leaves the unread bytes alone. -/
theorem Inv.unread_stores (h : s.Inv) (gap : Nat) {src : List UInt8} {pages : Pages}
    (hst : Stores cap s.pages (s.producer.offset + s.producer.size + gap) src pages)
    (hfit : s.producer.size + gap + src.length ≤ cap) :
    window cap pages s.consumer.offset (s.consumer.size + pending s.consumerEnd.control) =
      s.unread := by
  have hsizes := h.sizes
  have hwhole := hst.window_before hfit
  -- the unread bytes are the rear of what the producer still counts
  have hsplit : ∀ m : Pages, window cap m s.producer.offset s.producer.size =
      window cap m s.producer.offset (pending s.producerEnd.control) ++
        window cap m s.consumer.offset
          (s.consumer.size + pending s.consumerEnd.control) := by
    intro m
    rw [← window_congr _ h.aligned, ← window_add]
    congr 1
    omega
  rw [hsplit, hsplit] at hwhole
  exact (List.append_inj hwhole (by simp)).2

theorem moves_collectWatchers (h : s.Inv) (e : DataPipeEnd) :
    Moves s (s.collectWatchers e) [] [] := moves_signalsOf h e

/-- A count of zero is not sent; it would have said nothing. -/
theorem moves_pushAndCollect {e : DataPipeEnd} {count : UInt32} {entered left : List UInt8}
    (h : Moves s (s'.modifyEndpoint e fun ep => { ep with control := ep.control ++ [count] })
      entered left) : Moves s (s'.pushAndCollect e count) entered left := by
  unfold pushAndCollect
  split
  · rename_i hzero
    subst hzero
    obtain ⟨⟨hsizes, haligned, hwriter, hreader⟩, hbytes⟩ := h
    cases e with
    | producer =>
        refine ⟨⟨?_, ?_, hwriter, hreader⟩, hbytes⟩
        · simpa [modifyEndpoint, pending_append] using hsizes
        · simpa [modifyEndpoint, pending_append] using haligned
    | consumer =>
        refine ⟨⟨?_, haligned, hwriter, hreader⟩, ?_⟩
        · simpa [modifyEndpoint, pending_append] using hsizes
        · simpa [modifyEndpoint, pending_append, unread] using hbytes
  · exact h.trans_right (moves_collectWatchers h.inv e)

/-- The producer extends its data by `n` bytes, which are in place, and tells
the consumer. -/
theorem moves_produce (h : s.Inv) (hnone : s.producerEnd.twoPhase = none) {n : UInt32}
    {producer : RingBuffer cap} {pages : Pages} {src : List UInt8}
    (hoff : producer.offset = s.producer.offset)
    (hsize : producer.size = s.producer.size + n.toNat)
    (hunread : window cap pages s.consumer.offset
      (s.consumer.size + pending s.consumerEnd.control) = s.unread)
    (hsrc : window cap pages (s.producer.offset + s.producer.size) n.toNat = src) :
    Moves s (({ s with producer, pages } : PairState cap).pushAndCollect .consumer n)
      src [] := by
  have hsizes := h.sizes
  apply moves_pushAndCollect
  refine ⟨⟨?_, ?_, ?_, h.reader⟩, ?_⟩
  · simp only [modifyEndpoint, pending_append, hsize]
    omega
  · simpa [modifyEndpoint, hoff] using h.aligned
  · simp [modifyEndpoint, hnone]
  · simp only [PairState.unread, modifyEndpoint, pending_append, List.nil_append] at hunread ⊢
    rw [← hunread, ← Nat.add_assoc, window_add _ (_ + _), ← hsrc]
    congr 1
    apply window_congr
    -- the end of the unread bytes is the end of the producer's data
    have hal := Nat.ModEq.add_right (s.consumer.size + pending s.consumerEnd.control) h.aligned
    refine Eq.trans ?_ hal
    congr 1
    omega

/-- The consumer takes `n` bytes from the front and tells the producer. -/
theorem moves_consume (h : s.Inv) (hnone : s.consumerEnd.twoPhase = none) {n : UInt32}
    {consumer : RingBuffer cap} (hle : n.toNat ≤ s.consumer.size)
    (hoff : consumer.offset = (s.consumer.offset + n.toNat) % cap)
    (hsize : consumer.size = s.consumer.size - n.toNat) :
    Moves s (({ s with consumer } : PairState cap).pushAndCollect .producer n)
      [] (window cap s.pages s.consumer.offset n.toNat) := by
  have hsizes := h.sizes
  apply moves_pushAndCollect
  refine ⟨⟨?_, ?_, h.writer, ?_⟩, ?_⟩
  · simp only [modifyEndpoint, pending_append, hsize]
    omega
  · simp only [modifyEndpoint, pending_append, hoff, Nat.mod_mod]
    rw [← Nat.add_assoc, Nat.add_mod, h.aligned, ← Nat.add_mod]
  · simp [modifyEndpoint, hnone]
  · simp only [PairState.unread, modifyEndpoint, List.append_nil, hoff, hsize, window_mod]
    rw [← window_add]
    congr 1
    omega

/-- The end of a two-phase operation. -/
theorem moves_end_twoPhase (h : s.Inv) (e : DataPipeEnd) :
    Moves s (s.modifyEndpoint e fun ep => { ep with twoPhase := none }) [] [] := by
  cases e with
  | producer =>
      exact ⟨⟨h.sizes, h.aligned, by simp [modifyEndpoint], h.reader⟩, List.append_nil _⟩
  | consumer =>
      exact ⟨⟨h.sizes, h.aligned, h.writer, by simp [modifyEndpoint]⟩, List.append_nil _⟩

/-- A fresh pair: both views are empty and nothing is in flight. -/
theorem Inv.new (p : DataPipe) : (PairState.new p).Inv := by
  refine ⟨rfl, rfl, ?_, ?_⟩ <;> simp [PairState.new, EndpointState.new]

end PairState

/-! ### The operations -/

namespace DataPipe

open PairState

variable (p : DataPipe) {s : PairState p.cap}

/-- The bytes a write accepted. -/
def acceptedByWrite (elements : List UInt8) : Call UInt32 → List UInt8
  | some (.ok n) => elements.take n.toNat
  | _ => []

/-- A write of the producer's ring, with its announcement. -/
theorem moves_ringWrite (h : s.Inv) (hnone : s.producerEnd.twoPhase = none)
    {source : List UInt8} {n : Nat} {producer : RingBuffer p.cap} {pages : Pages}
    (hw : s.producer.write s.pages source = (n, producer, pages)) :
    Moves s (({ s with producer, pages } : PairState p.cap).pushAndCollect .consumer
      (UInt32.ofNat n)) (source.take n) [] := by
  have hcap := p.cap_lt
  obtain ⟨hn, hoff, hsize, hst⟩ := RingBuffer.write_spec source hw
  have hfit := s.producer.size_le
  have hlen : (source.take n).length = n := by
    rw [List.length_take]
    omega
  have hn32 : (UInt32.ofNat n).toNat = n :=
    UInt32.toNat_ofNat_of_lt' (by simp only [UInt32.size]; omega)
  have hself := hst.window_self
  rw [hlen] at hself
  apply moves_produce h hnone hoff
  · rw [hn32, hsize]
  · exact h.unread_stores 0 hst (by omega)
  · rw [hn32, hself]

theorem moves_write (h : s.Inv) (elements : List UInt8) (numBytes : UInt32) (allOrNone : Bool) :
    Moves s (p.write .producer s elements numBytes allOrNone).1
      (acceptedByWrite elements (p.write .producer s elements numBytes allOrNone).2) [] := by
  obtain ⟨hf, -⟩ := moves_flush p.cap_lt h .producer
  have hi := hf.inv
  have htake : WriteStarts p .producer s elements numBytes →
      (elements.take numBytes.toNat).length = numBytes.toNat := by
    intro hstarts
    rw [List.length_take]
    exact Nat.min_eq_left hstarts.long
  apply write_rule (motive := fun out => Moves s out.1 (acceptedByWrite elements out.2) [])
  · exact fun _ => .refl h
  · exact fun _ => hf
  · exact fun _ => hf.trans (moves_poison hi)
  · -- all or none
    intro hstarts producer pages hroom
    unfold RingBuffer.writeAll at hroom
    split at hroom
    · cases hroom
    · rename_i hfits
      simp only [RingBuffer.availableCapacity, htake hstarts] at hfits
      have hwrite : (s.flushLocked .producer).producer.write (s.flushLocked .producer).pages
          (elements.take numBytes.toNat) = (numBytes.toNat, producer, pages) := by
        rcases e : (s.flushLocked .producer).producer.write (s.flushLocked .producer).pages
          (elements.take numBytes.toNat) with ⟨n, ring, m⟩
        obtain ⟨hn, -⟩ := RingBuffer.write_spec _ e
        rw [e] at hroom
        cases hroom
        congr 1
        have := htake hstarts
        omega
      have hm := moves_ringWrite p hi hstarts.idle hwrite
      rw [UInt32.ofNat_toNat, List.take_take, Nat.min_self] at hm
      exact hf.trans hm
  · -- nothing fitted, and nothing is announced
    intro hstarts producer pages hwrite
    have hm := moves_ringWrite p hi hstarts.idle hwrite
    rw [List.take_zero] at hm
    exact hf.trans hm
  · intro hstarts n producer pages hwrite
    obtain ⟨hn, -⟩ := RingBuffer.write_spec _ hwrite
    rw [htake hstarts] at hn
    have hn32 : (UInt32.ofNat n).toNat = n :=
      UInt32.toNat_ofNat_of_lt' (by have := numBytes.toNat_lt; simp only [UInt32.size]; omega)
    have hm := moves_ringWrite p hi hstarts.idle hwrite
    rw [List.take_take, Nat.min_eq_left (by omega)] at hm
    show Moves s _ (elements.take (UInt32.ofNat n).toNat) []
    rw [hn32]
    exact hf.trans hm

theorem moves_beginWrite {s' : PairState p.cap} {r : Call Span} (h : s.Inv)
    (hw : p.beginWrite .producer s = (s', r)) : Moves s s' [] [] := by
  obtain ⟨hf, -⟩ := moves_flush p.cap_lt h .producer
  have hi := hf.inv
  simp only [beginWrite, endpoint] at hw
  generalize s.flushLocked .producer = t at *
  split at hw
  · obtain ⟨rfl, rfl⟩ := Prod.mk.inj hw
    exact .refl h
  split at hw
  · obtain ⟨rfl, rfl⟩ := Prod.mk.inj hw
    exact hf
  split at hw
  · obtain ⟨rfl, rfl⟩ := Prod.mk.inj hw
    exact hf
  split at hw
  · obtain ⟨rfl, rfl⟩ := Prod.mk.inj hw
    exact hf
  · obtain ⟨rfl, rfl⟩ := Prod.mk.inj hw
    refine hf.trans ⟨⟨hi.sizes, hi.aligned, ?_, hi.reader⟩, List.append_nil _⟩
    intro w hw
    obtain rfl : t.producer.beginWrite = w := by simpa [modifyEndpoint] using hw
    have hend := @RingBuffer.rangeEnd_lt _ t.producer
    have hsize := t.producer.size_le
    refine ⟨RingBuffer.rangeEnd_mod, ?_, ?_⟩
    · simp only [RingBuffer.beginWrite]
      omega
    · simp only [RingBuffer.beginWrite, modifyEndpoint]
      omega

/-- The first `n` bytes of the span of the two-phase operation in progress. -/
def spanBytes (s : PairState p.cap) (e : DataPipeEnd) (n : Nat) : List UInt8 :=
  match (s.endpoint e).twoPhase with
  | some (.writer w) => copyOut s.pages w.span.start n
  | some (.reader r) => copyOut s.pages r.span.start n
  | none => []

/-- The bytes that the end of a two-phase operation moves. -/
def movedByEnd (s : PairState p.cap) (e : DataPipeEnd) (n : UInt32) : Call Unit → List UInt8
  | some (.ok ()) => spanBytes p s e n.toNat
  | _ => []

theorem moves_endWrite {s' : PairState p.cap} {r : Call Unit} (h : s.Inv) (produced : UInt32)
    (hw : p.endWrite .producer s produced = (s', r)) :
    Moves s s' (movedByEnd p s .producer produced r) [] := by
  have hend := moves_end_twoPhase h .producer
  simp only [endWrite, endpoint, DataPipeEnd.peer] at hw
  split at hw
  · obtain ⟨rfl, rfl⟩ := Prod.mk.inj hw
    exact .refl h
  -- without a two-phase write there is none to end
  rcases htwo : s.producerEnd.twoPhase with - | two
  case none =>
    rw [htwo] at hw
    obtain ⟨rfl, rfl⟩ := Prod.mk.inj hw
    exact .refl h
  simp only [htwo] at hw
  split at hw
  · obtain ⟨rfl, rfl⟩ := Prod.mk.inj hw
    exact hend
  split at hw
  · rename_i hzero
    obtain ⟨rfl, rfl⟩ := Prod.mk.inj hw
    subst hzero
    have hnil : movedByEnd p s .producer 0 (some (.ok ())) = [] := by
      cases two <;> simp [movedByEnd, spanBytes, endpoint, htwo, copyOut]
    rw [hnil]
    exact hend
  cases two with
  -- the end holds a read, which a producer never does: nothing is committed
  | reader d =>
      obtain ⟨rfl, rfl⟩ := Prod.mk.inj hw
      exact hend
  -- the bytes of the span up to `produced` enter the ring
  | writer w =>
      obtain ⟨hstart, hfits, hfree⟩ := h.writer w htwo
      simp only at hw
      split at hw
      · obtain ⟨rfl, rfl⟩ := Prod.mk.inj hw
        exact hend
      · rename_i producer hcommit
        obtain ⟨rfl, rfl⟩ := Prod.mk.inj hw
        unfold DirectWriter.commit at hcommit
        split at hcommit
        · rename_i hlen
          obtain ⟨-, hoff, hsize⟩ := RingBuffer.extendDataRange_eq_some hcommit
          refine hend.trans (moves_produce hend.inv rfl hoff hsize rfl ?_)
          simp only [movedByEnd, spanBytes, endpoint, htwo]
          have hbound : w.span.start + produced.toNat ≤ p.cap := by omega
          rw [copyOut_eq_window hbound]
          exact window_congr _ hstart.symm
        · cases hcommit

/-- Fill part of the span of an active two-phase write, `pos` bytes in. -/
def fill (s : PairState p.cap) (pos : Nat) (bytes : List UInt8) : PairState p.cap :=
  match s.producerEnd.twoPhase with
  | some (.writer w) =>
      if pos + bytes.length ≤ w.span.len then
        { s with pages := copyIn s.pages (w.span.start + pos) bytes }
      else s
  | _ => s

theorem moves_fill (h : s.Inv) (pos : Nat) (bytes : List UInt8) :
    Moves s (p.fill s pos bytes) [] [] := by
  unfold fill
  split
  · rename_i w hw
    split
    · rename_i hlen
      obtain ⟨hstart, hfits, hfree⟩ := h.writer w hw
      have hbound : w.span.start + pos + bytes.length ≤ p.cap := by omega
      have hst := (stores_copyIn s.pages bytes hbound).congr (Nat.ModEq.add_right pos hstart)
      refine ⟨⟨h.sizes, h.aligned, h.writer, h.reader⟩, ?_⟩
      simpa [unread] using (h.unread_stores pos hst (by omega)).symm
    · exact .refl h
  · exact .refl h

theorem moves_beginRead {s' : PairState p.cap} {r : Call Span} (h : s.Inv)
    (hr : p.beginRead .consumer s = (s', r)) : Moves s s' [] [] := by
  obtain ⟨hf, -⟩ := moves_flush p.cap_lt h .consumer
  have hi := hf.inv
  simp only [beginRead, endpoint] at hr
  generalize s.flushLocked .consumer = t at *
  split at hr
  · obtain ⟨rfl, rfl⟩ := Prod.mk.inj hr
    exact .refl h
  split at hr
  · obtain ⟨rfl, rfl⟩ := Prod.mk.inj hr
    exact hf
  split at hr
  · obtain ⟨rfl, rfl⟩ := Prod.mk.inj hr
    exact hf
  · obtain ⟨rfl, rfl⟩ := Prod.mk.inj hr
    refine hf.trans ⟨⟨hi.sizes, hi.aligned, hi.writer, ?_⟩, List.append_nil _⟩
    intro d hd
    obtain rfl : t.consumer.beginRead = d := by simpa [modifyEndpoint] using hd
    have hoff := t.consumer.offset_lt
    refine ⟨rfl, ?_, ?_⟩
    · simp only [RingBuffer.beginRead]
      omega
    · exact Nat.min_le_left _ _

theorem moves_endRead {s' : PairState p.cap} {r : Call Unit} (h : s.Inv) (consumed : UInt32)
    (hr : p.endRead .consumer s consumed = (s', r)) :
    Moves s s' [] (movedByEnd p s .consumer consumed r) := by
  have hend := moves_end_twoPhase h .consumer
  simp only [endRead, endpoint, DataPipeEnd.peer] at hr
  split at hr
  · obtain ⟨rfl, rfl⟩ := Prod.mk.inj hr
    exact .refl h
  rcases htwo : s.consumerEnd.twoPhase with - | two
  case none =>
    rw [htwo] at hr
    obtain ⟨rfl, rfl⟩ := Prod.mk.inj hr
    exact .refl h
  simp only [htwo] at hr
  split at hr
  · obtain ⟨rfl, rfl⟩ := Prod.mk.inj hr
    exact hend
  split at hr
  · rename_i hzero
    obtain ⟨rfl, rfl⟩ := Prod.mk.inj hr
    subst hzero
    have hnil : movedByEnd p s .consumer 0 (some (.ok ())) = [] := by
      cases two <;> simp [movedByEnd, spanBytes, endpoint, htwo, copyOut]
    rw [hnil]
    exact hend
  cases two with
  | writer w =>
      obtain ⟨rfl, rfl⟩ := Prod.mk.inj hr
      exact hend
  | reader d =>
      obtain ⟨hstart, hfits, hlen⟩ := h.reader d htwo
      simp only at hr
      split at hr
      · obtain ⟨rfl, rfl⟩ := Prod.mk.inj hr
        exact hend
      · rename_i consumer hconsume
        obtain ⟨rfl, rfl⟩ := Prod.mk.inj hr
        unfold DirectReader.consume at hconsume
        split at hconsume
        · rename_i hle
          obtain ⟨hn, hoff, hsize⟩ := RingBuffer.discardAll_eq_some hconsume
          have hm := moves_consume hend.inv rfl hn hoff hsize
          simp only [movedByEnd, spanBytes, endpoint, htwo]
          have hbound : d.span.start + consumed.toNat ≤ p.cap := by omega
          rw [copyOut_eq_window hbound, hstart]
          exact hend.trans hm
        · cases hconsume

/-- The bytes that a read hands over: those it returns, unless it peeks or
queries, or those it discards from the front of the consumer's ring. -/
def handedByRead (s : PairState p.cap) (flags : ReadFlags) : Call ReadOutcome → List UInt8
  | some (.ok out) =>
      if flags.query || flags.peek then []
      else if flags.discard then window p.cap s.pages s.consumer.offset out.numBytes.toNat
      else out.data
  | _ => []

/-- Flushing does not move the front of the consumer's ring. -/
theorem flush_consumer_front (h : s.Inv) :
    (s.flushLocked .consumer).pages = s.pages ∧
      (s.flushLocked .consumer).consumer.offset = s.consumer.offset := by
  have hle := h.pending_le
  have hcap := p.cap_lt
  have hd : drain s.consumerEnd.control 0 = (pending s.consumerEnd.control, []) := by
    rw [drain_eq _ _ (by omega), Nat.zero_add]
  simp only [flushLocked, endpoint, hd, modifyEndpoint]
  split
  · exact ⟨rfl, rfl⟩
  · obtain ⟨r, hr⟩ := RingBuffer.extendDataRange_isSome (r := s.consumer)
      (n := pending s.consumerEnd.control) (by omega)
    rw [hr]
    exact ⟨rfl, (RingBuffer.extendDataRange_eq_some hr).2.1⟩

/-- What the consumer takes off its ring, and what it announces, agree. -/
structure Takes (s : PairState p.cap) (n : UInt32) (consumer : RingBuffer p.cap) : Prop where
  le : n.toNat ≤ s.consumer.size
  offset : consumer.offset = (s.consumer.offset + n.toNat) % p.cap
  size : consumer.size = s.consumer.size - n.toNat

theorem takes_discardAll {n : UInt32} {consumer : RingBuffer p.cap}
    (h : s.consumer.discardAll n.toNat = some consumer) : Takes p s n consumer := by
  obtain ⟨hle, hoff, hsize⟩ := RingBuffer.discardAll_eq_some h
  exact ⟨hle, hoff, hsize⟩

theorem takes_read {len : Nat} {data : List UInt8} {consumer : RingBuffer p.cap}
    (h : s.consumer.read s.pages len = (data, consumer)) :
    Takes p s (UInt32.ofNat data.length) consumer ∧
      data = window p.cap s.pages s.consumer.offset (UInt32.ofNat data.length).toNat := by
  have hcap := p.cap_lt
  have hsize := s.consumer.size_le
  obtain ⟨hdata, hoff, hsz⟩ := RingBuffer.read_spec (by omega) h
  have hlen : data.length = min len s.consumer.size := by rw [hdata, length_window]
  have hn : (UInt32.ofNat data.length).toNat = data.length :=
    UInt32.toNat_ofNat_of_lt' (by simp only [UInt32.size]; omega)
  rw [← hlen] at hdata hoff hsz
  exact ⟨⟨by omega, by rw [hn, hoff], by rw [hn, hsz]⟩, by rw [hn]; exact hdata⟩

theorem moves_takes (h : s.Inv) (hnone : s.consumerEnd.twoPhase = none) {n : UInt32}
    {consumer : RingBuffer p.cap} (ht : Takes p s n consumer) :
    Moves s (({ s with consumer } : PairState p.cap).pushAndCollect .producer n)
      [] (window p.cap s.pages s.consumer.offset n.toNat) :=
  moves_consume h hnone ht.le ht.offset ht.size

/-- A peek may not discard, by the checks made first. -/
theorem moves_readAllOrNone {s' : PairState p.cap} {r : Call ReadOutcome} (h : s.Inv)
    (hnone : s.consumerEnd.twoPhase = none) {numBytes : UInt32} {flags : ReadFlags}
    (hquery : flags.query = false) (hflags : (flags.peek && flags.discard) = false)
    (hr : p.readAllOrNone .consumer s numBytes flags = (s', r)) :
    Moves s s' [] (handedByRead p s flags r) := by
  simp only [readAllOrNone, DataPipeEnd.peer] at hr
  split at hr
  · obtain ⟨rfl, rfl⟩ := Prod.mk.inj hr
    exact .refl h
  rename_i data consumer hresult
  obtain ⟨rfl, rfl⟩ := Prod.mk.inj hr
  cases hd : flags.discard with
  | true =>
      have hpeek : flags.peek = false := by simpa [hd] using hflags
      rw [hd, if_pos rfl] at hresult
      obtain ⟨ring, hring, heq⟩ := Option.map_eq_some_iff.mp hresult
      obtain ⟨rfl, rfl⟩ := Prod.mk.inj heq
      simpa [handedByRead, hquery, hpeek, hd] using
        moves_takes p h hnone (takes_discardAll p hring)
  | false =>
      cases hpeek : flags.peek with
      | true => simpa [handedByRead, hquery, hpeek] using Moves.refl h
      | false =>
          simp only [hd, hpeek, Bool.false_eq_true, if_false, RingBuffer.readAll] at hresult
          split at hresult
          · cases hresult
          · rename_i hsize
            have hread := Option.some.inj hresult
            obtain ⟨hdata', -⟩ := RingBuffer.read_spec (by have := p.cap_lt; omega) hread
            have hlen : data.length = numBytes.toNat := by
              rw [hdata', length_window]
              simp only [RingBuffer.dataSize] at hsize
              omega
            obtain ⟨ht, hdata⟩ := takes_read p hread
            rw [hlen, UInt32.ofNat_toNat] at ht hdata
            have hm := moves_takes p h hnone ht
            rw [← hdata] at hm
            simpa [handedByRead, hquery, hpeek, hd] using hm

/-- The partial path. -/
theorem moves_readPartial {s' : PairState p.cap} {r : Call ReadOutcome} (h : s.Inv)
    (hnone : s.consumerEnd.twoPhase = none) {numBytes : UInt32} {flags : ReadFlags}
    (hquery : flags.query = false) (hflags : (flags.peek && flags.discard) = false)
    (hr : p.readPartial .consumer s numBytes flags = (s', r)) :
    Moves s s' [] (handedByRead p s flags r) := by
  simp only [readPartial, DataPipeEnd.peer] at hr
  split at hr
  · rename_i hd
    have hpeek : flags.peek = false := by simpa [hd] using hflags
    obtain ⟨rfl, rfl⟩ := Prod.mk.inj hr
    have hcap := p.cap_lt
    have hsize := s.consumer.size_le
    have hle : (min numBytes (UInt32.ofNat s.consumer.dataSize)).toNat ≤ s.consumer.size := by
      have hn : (UInt32.ofNat s.consumer.dataSize).toNat = s.consumer.size :=
        UInt32.toNat_ofNat_of_lt' (by simp only [UInt32.size, RingBuffer.dataSize]; omega)
      rw [← hn]
      exact UInt32.le_iff_toNat_le.mp (Std.min_le_right)
    generalize min numBytes (UInt32.ofNat s.consumer.dataSize) = n at *
    obtain ⟨hoff, hsz⟩ := RingBuffer.getD_discardAll (r := s.consumer) (by omega) hle
    have ht : Takes p s n (s.consumer.discard n.toNat).2 := by
      simp only [RingBuffer.discard, RingBuffer.dataSize, Nat.min_eq_left hle]
      exact ⟨hle, hoff, hsz⟩
    simpa [handedByRead, hquery, hpeek, hd] using moves_takes p h hnone ht
  rename_i hd
  split at hr
  · rename_i hpeek
    obtain ⟨rfl, rfl⟩ := Prod.mk.inj hr
    simpa [handedByRead, hquery, hpeek] using Moves.refl h
  · rename_i hpeek
    rcases e : s.consumer.read s.pages numBytes.toNat with ⟨data, consumer⟩
    rw [e] at hr
    obtain ⟨rfl, rfl⟩ := Prod.mk.inj hr
    obtain ⟨ht, hdata⟩ := takes_read p e
    have hm := moves_takes p h hnone ht
    rw [← hdata] at hm
    simpa [handedByRead, hquery, hpeek, hd] using hm

theorem moves_read (h : s.Inv) (elements : Option (List UInt8)) (numBytes : UInt32)
    (flags : ReadFlags) :
    Moves s (p.read .consumer s elements numBytes flags).1 []
      (handedByRead p s flags (p.read .consumer s elements numBytes flags).2) := by
  obtain ⟨hf, -⟩ := moves_flush p.cap_lt h .consumer
  obtain ⟨hpages, hfront⟩ := flush_consumer_front p h
  -- the latch is cleared
  have hl : Moves (s.flushLocked .consumer) (forgotten s .consumer) [] [] :=
    moves_flags hf.inv .consumer (·.localClosed) (·.peerClosed) fun _ => false
  have hl' := hf.trans hl
  have hhanded : handedByRead p (forgotten s .consumer) flags = handedByRead p s flags := by
    funext r
    show handedByRead p (s.flushLocked .consumer) flags r = _
    simp only [handedByRead, hpages, hfront]
  apply read_rule (motive := fun out => Moves s out.1 [] (handedByRead p s flags out.2))
  · exact fun _ => .refl h
  · exact fun _ => hf
  · intro hquery
    simpa [handedByRead, hquery] using hf
  · exact fun _ _ => hl'
  · exact fun _ _ => hl'.trans (moves_poison hl.inv)
  · intro hstarts
    rw [← hhanded]
    exact hl'.trans (moves_readAllOrNone p hl.inv hstarts.idle hstarts.noQuery hstarts.notBoth rfl)
  · intro hstarts
    rw [← hhanded]
    exact hl'.trans (moves_readPartial p hl.inv hstarts.idle hstarts.noQuery hstarts.notBoth rfl)

theorem moves_querySignals (h : s.Inv) (self : DataPipeEnd) :
    Moves s (p.querySignals self s).1 [] [] := by
  unfold querySignals
  split
  · exact .refl h
  · have hf := (moves_flush p.cap_lt h self).1
    exact hf.trans (moves_signalsOf hf.inv self)

theorem moves_close (h : s.Inv) (self : DataPipeEnd) : Moves s (p.close self s) [] [] := by
  unfold close
  split
  · exact .refl h
  split
  · exact .refl h
  have h₁ := moves_flags h self (fun _ => true) (·.peerClosed) (·.hasNewData)
  have h₂ := moves_flags h₁.inv self.peer (·.localClosed) (fun _ => true) (·.hasNewData)
  exact (h₁.trans h₂).trans (moves_collectWatchers h₂.inv self.peer)

end DataPipe

/-! ### Runs -/

/-- A pair with the bytes accepted from the producer and the bytes handed to
the consumer so far. -/
structure StreamState (p : DataPipe) where
  pair : PairState p.cap
  accepted : List UInt8
  consumed : List UInt8

/-- The operations of the two endpoints.  `fill` is the producer's client
writing through the span it holds. -/
inductive PipeOp
  | write (elements : List UInt8) (numBytes : UInt32) (allOrNone : Bool)
  | beginWrite
  | fill (pos : Nat) (bytes : List UInt8)
  | endWrite (produced : UInt32)
  | read (elements : Option (List UInt8)) (numBytes : UInt32) (flags : ReadFlags)
  | beginRead
  | endRead (consumed : UInt32)
  | querySignals (self : DataPipeEnd)
  | close (self : DataPipeEnd)
  deriving DecidableEq, Repr

namespace StreamState

variable (p : DataPipe)

/-- A new pair, nothing accepted and nothing delivered. -/
def init : StreamState p := ⟨.new p, [], []⟩

/-- One call, with what it accepts or delivers. -/
def step (s : StreamState p) : PipeOp → StreamState p
  | .write elements numBytes allOrNone =>
      let (pair, r) := p.write .producer s.pair elements numBytes allOrNone
      { s with pair, accepted := s.accepted ++ DataPipe.acceptedByWrite elements r }
  | .beginWrite => { s with pair := (p.beginWrite .producer s.pair).1 }
  | .fill pos bytes => { s with pair := p.fill s.pair pos bytes }
  | .endWrite produced =>
      let (pair, r) := p.endWrite .producer s.pair produced
      { s with pair, accepted := s.accepted ++ p.movedByEnd s.pair .producer produced r }
  | .read elements numBytes flags =>
      let (pair, r) := p.read .consumer s.pair elements numBytes flags
      { s with pair, consumed := s.consumed ++ p.handedByRead s.pair flags r }
  | .beginRead => { s with pair := (p.beginRead .consumer s.pair).1 }
  | .endRead consumed =>
      let (pair, r) := p.endRead .consumer s.pair consumed
      { s with pair, consumed := s.consumed ++ p.movedByEnd s.pair .consumer consumed r }
  | .querySignals self => { s with pair := (p.querySignals self s.pair).1 }
  | .close self => { s with pair := p.close self s.pair }

/-- The bytes handed over, then the bytes still unread, are the bytes
accepted. -/
def Intact (s : StreamState p) : Prop := s.consumed ++ s.pair.unread = s.accepted

variable {p}

/-- What an operation does to the unread bytes it does to the stream. -/
theorem intact_of_moves {s s' : StreamState p} {entered left : List UInt8}
    (h : s.Intact) (hm : s.pair.Moves s'.pair entered left)
    (ha : s'.accepted = s.accepted ++ entered) (hc : s'.consumed = s.consumed ++ left) :
    s'.Intact := by
  unfold Intact at *
  calc s'.consumed ++ s'.pair.unread
      = s.consumed ++ (left ++ s'.pair.unread) := by rw [hc, List.append_assoc]
    _ = s.consumed ++ s.pair.unread ++ entered := by rw [← hm.bytes, List.append_assoc]
    _ = s'.accepted := by rw [h, ha]

/-- Every operation keeps the invariant, and the stream. -/
theorem step_intact {s : StreamState p} (op : PipeOp) (h : s.pair.Inv ∧ s.Intact) :
    (s.step p op).pair.Inv ∧ (s.step p op).Intact := by
  obtain ⟨hi, hs⟩ := h
  have hnil : ∀ l : List UInt8, l = l ++ [] := fun l => (List.append_nil l).symm
  cases op with
  | write elements numBytes allOrNone =>
      have hm := p.moves_write hi elements numBytes allOrNone
      exact ⟨hm.inv, intact_of_moves hs hm rfl (hnil _)⟩
  | beginWrite =>
      have hm := p.moves_beginWrite hi rfl
      exact ⟨hm.inv, intact_of_moves hs hm (hnil _) (hnil _)⟩
  | fill pos bytes =>
      have hm := p.moves_fill hi pos bytes
      exact ⟨hm.inv, intact_of_moves hs hm (hnil _) (hnil _)⟩
  | endWrite produced =>
      have hm := p.moves_endWrite hi produced rfl
      exact ⟨hm.inv, intact_of_moves hs hm rfl (hnil _)⟩
  | read elements numBytes flags =>
      have hm := p.moves_read hi elements numBytes flags
      exact ⟨hm.inv, intact_of_moves hs hm (hnil _) rfl⟩
  | beginRead =>
      have hm := p.moves_beginRead hi rfl
      exact ⟨hm.inv, intact_of_moves hs hm (hnil _) (hnil _)⟩
  | endRead consumed =>
      have hm := p.moves_endRead hi consumed rfl
      exact ⟨hm.inv, intact_of_moves hs hm (hnil _) rfl⟩
  | querySignals self =>
      have hm := p.moves_querySignals hi self
      exact ⟨hm.inv, intact_of_moves hs hm (hnil _) (hnil _)⟩
  | close self =>
      have hm := p.moves_close hi self
      exact ⟨hm.inv, intact_of_moves hs hm (hnil _) (hnil _)⟩

/-- Whatever the two ends do, no byte is lost, duplicated, reordered or
overwritten before it is consumed. -/
theorem stream_integrity (p : DataPipe) (ops : List PipeOp) :
    Always (step p) (Intact p) (init p) ops := by
  have hinit : (init p).pair.Inv ∧ (init p).Intact := ⟨.new p, rfl⟩
  have hstep : ∀ (s : StreamState p) op, s.pair.Inv ∧ s.Intact →
      (s.step p op).pair.Inv ∧ (s.step p op).Intact := fun _ op h => step_intact op h
  exact (always_of_step hstep hinit ops).imp fun _ h => h.2

end StreamState

end MojoRs.Core
