/-
MojoRs/Lib/Frames.lean

Streams of frames.  A parser takes one item from the front of a list and says
how much of the list it used up.  `parseAll` applies it again and again, until
the list is used up or the parser fails.

`Framing parse Frame` says that the parser takes a frame, whatever follows it,
and takes nothing else; frames are not empty.  Then `parseAll` accepts the
concatenations of frames and no other list (`Framing.parseAll_ok_iff`), and it
comes to an end on every list (`Framing.parseAll_ends`).
-/
import Mathlib.Data.List.Forall2
import Mathlib.Data.List.Basic

namespace MojoRs.Lib

variable {α β ε : Type*}

/-- Parse item after item from `off` on. -/
def parseAll (parse : List α → Except ε (β × Nat)) :
    Nat → List α → Nat → List β → Option (Except ε (List β))
  | 0, _, _, _ => none
  | fuel + 1, stream, off, out =>
      if off < stream.length then
        match parse (stream.drop off) with
        | .error e => some (.error e)
        | .ok (item, consumed) => parseAll parse fuel stream (off + consumed) (out ++ [item])
      else some (.ok out)

/-- `parse` takes a frame from the front, and nothing else. -/
structure Framing (parse : List α → Except ε (β × Nat)) (Frame : List α → β → Prop) : Prop where
  sound : ∀ {stream item consumed}, parse stream = .ok (item, consumed) →
    ∃ frame rest, stream = frame ++ rest ∧ frame.length = consumed ∧ Frame frame item
  complete : ∀ {frame item}, Frame frame item → ∀ rest,
    parse (frame ++ rest) = .ok (item, frame.length)
  ne_nil : ∀ {frame item}, Frame frame item → frame ≠ []

/-- A concatenation of frames, with their items. -/
def Framed (Frame : List α → β → Prop) (stream : List α) (items : List β) : Prop :=
  ∃ frames : List (List α), stream = frames.flatten ∧ List.Forall₂ Frame frames items

variable {parse : List α → Except ε (β × Nat)} {Frame : List α → β → Prop}

theorem Framed.nil : Framed Frame [] [] := ⟨[], rfl, .nil⟩

theorem Framed.cons {frame stream : List α} {item : β} {items : List β} (h : Frame frame item)
    (hrest : Framed Frame stream items) : Framed Frame (frame ++ stream) (item :: items) := by
  obtain ⟨frames, rfl, hall⟩ := hrest
  exact ⟨frame :: frames, rfl, .cons h hall⟩

theorem framed_flatMap {encode : β → List α} {items : List β}
    (h : ∀ item ∈ items, Frame (encode item) item) :
    Framed Frame (items.flatMap encode) items := by
  induction items with
  | nil => exact .nil
  | cons item items ih =>
      rw [List.forall_mem_cons] at h
      exact .cons h.1 (ih h.2)

namespace Framing

/-- A parser that takes frames moves on. -/
theorem progress (h : Framing parse Frame) {stream : List α} {item : β} {consumed : Nat}
    (hparse : parse stream = .ok (item, consumed)) : 0 < consumed := by
  obtain ⟨frame, rest, -, rfl, hframe⟩ := h.sound hparse
  exact List.length_pos_iff.mpr (h.ne_nil hframe)

/-- What is accepted is a concatenation of frames. -/
theorem parseAll_sound (h : Framing parse Frame) {fuel : Nat} {stream : List α} {off : Nat}
    {out items : List β} (hrun : parseAll parse fuel stream off out = some (.ok items)) :
    ∃ more, items = out ++ more ∧ Framed Frame (stream.drop off) more := by
  induction fuel generalizing off out with
  | zero => exact nomatch hrun
  | succ fuel ih =>
      rw [parseAll] at hrun
      split at hrun
      · split at hrun
        · cases hrun
        · rename_i item consumed hparse
          obtain ⟨more, rfl, hmore⟩ := ih hrun
          obtain ⟨frame, rest, hsplit, rfl, hframe⟩ := h.sound hparse
          refine ⟨item :: more, List.append_assoc .., ?_⟩
          rw [← List.drop_drop, hsplit, List.drop_left] at hmore
          rw [hsplit]
          exact .cons hframe hmore
      · rename_i hend
        obtain rfl := Except.ok.inj (Option.some.inj hrun)
        refine ⟨[], (List.append_nil _).symm, ?_⟩
        rw [List.drop_of_length_le (Nat.not_lt.mp hend)]
        exact .nil

/-- A concatenation of frames is accepted. -/
theorem parseAll_complete (h : Framing parse Frame) {stream : List α} {off : Nat}
    {more : List β} (hframed : Framed Frame (stream.drop off) more) {fuel : Nat}
    (hfuel : stream.length - off < fuel) (out : List β) :
    parseAll parse fuel stream off out = some (.ok (out ++ more)) := by
  obtain ⟨frames, hsplit, hall⟩ := hframed
  induction hall generalizing off fuel out with
  | nil =>
      obtain ⟨fuel, rfl⟩ := Nat.exists_eq_add_one_of_ne_zero (Nat.ne_zero_of_lt hfuel)
      have hend : stream.length ≤ off := List.drop_eq_nil_iff.mp hsplit
      rw [parseAll, if_neg (Nat.not_lt.mpr hend), List.append_nil]
  | @cons frame item frames items hframe _ ih =>
      obtain ⟨fuel, rfl⟩ := Nat.exists_eq_add_one_of_ne_zero (Nat.ne_zero_of_lt hfuel)
      have hpos := List.length_pos_iff.mpr (h.ne_nil hframe)
      have hlen := congrArg List.length hsplit
      rw [List.length_drop, List.flatten_cons, List.length_append] at hlen
      have hrest : stream.drop (off + frame.length) = frames.flatten := by
        rw [← List.drop_drop, hsplit, List.flatten_cons, List.drop_left]
      rw [parseAll, if_pos (by omega), hsplit, List.flatten_cons, h.complete hframe]
      show parseAll parse fuel stream (off + frame.length) (out ++ [item]) = _
      rw [ih (by omega) _ hrest, List.append_assoc]
      rfl

/-- The lists that are accepted, and what is read from them. -/
theorem parseAll_ok_iff (h : Framing parse Frame) {stream : List α} {items : List β} {fuel : Nat}
    (hfuel : stream.length < fuel) :
    parseAll parse fuel stream 0 [] = some (.ok items) ↔ Framed Frame stream items := by
  constructor
  · intro hrun
    obtain ⟨more, rfl, hmore⟩ := h.parseAll_sound hrun
    exact hmore
  · intro hframed
    rw [← List.drop_zero (l := stream)] at hframed
    exact h.parseAll_complete hframed hfuel []

/-- Whatever the stream, the loop comes to an end within its length. -/
theorem parseAll_ends (h : Framing parse Frame) (stream : List α) (off : Nat) (out : List β) :
    ∃ r, ∀ fuel, stream.length - off < fuel → parseAll parse fuel stream off out = some r := by
  induction hn : stream.length - off using Nat.strongRecOn generalizing off out with
  | ind n ih =>
      rcases Nat.lt_or_ge off stream.length with hoff | hend
      · cases hparse : parse (stream.drop off) with
        | error e =>
            refine ⟨.error e, fun fuel hfuel => ?_⟩
            obtain ⟨fuel, rfl⟩ := Nat.exists_eq_add_one_of_ne_zero (Nat.ne_zero_of_lt hfuel)
            rw [parseAll, if_pos hoff, hparse]
        | ok res =>
            obtain ⟨item, consumed⟩ := res
            have hpos := h.progress hparse
            obtain ⟨r, hr⟩ := ih (stream.length - (off + consumed)) (by omega) (off + consumed)
              (out ++ [item]) rfl
            refine ⟨r, fun fuel hfuel => ?_⟩
            obtain ⟨fuel, rfl⟩ := Nat.exists_eq_add_one_of_ne_zero (Nat.ne_zero_of_lt hfuel)
            rw [parseAll, if_pos hoff, hparse]
            exact hr fuel (by omega)
      · refine ⟨.ok out, fun fuel hfuel => ?_⟩
        obtain ⟨fuel, rfl⟩ := Nat.exists_eq_add_one_of_ne_zero (Nat.ne_zero_of_lt hfuel)
        rw [parseAll, if_neg (Nat.not_lt.mpr hend)]

end Framing

end MojoRs.Lib
