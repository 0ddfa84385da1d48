/-
MojoRs/Wire/MessageObjects.lean

The objects of a message, as the decoder meets them: a walk over the bytes
that follows a schema.  It visits what the decoder visits, in the same order,
but checks nothing and keeps no frontier; whether it walks where the decoder
does is proved in `ClaimedObjects.lean`.

An object has a home, the range that is claimed for it.  A struct, a union, a
string, an array or a map behind a pointer is its own home; a struct or a union
in place has the home of the object around it.  The extent of an object is what
the decoder reads of it, or takes it to be by its header: of a string, the NUL
behind its characters is a part.
-/
import MojoRs.Wire.Message
import MojoRs.Wire.PackLayout

namespace MojoRs.Wire

open Lib

/-- The bytes from `start` up to `stop`. -/
structure Extent where
  start : Nat
  stop : Nat
  deriving DecidableEq, Repr

/-- `a` lies in `b`. -/
def Extent.Within (a b : Extent) : Prop := b.start ≤ a.start ∧ a.stop ≤ b.stop

instance (a b : Extent) : Decidable (a.Within b) :=
  inferInstanceAs (Decidable (b.start ≤ a.start ∧ a.stop ≤ b.stop))

/-- The kinds of objects of a message. -/
inductive ObjectKind
  | struct | inlineStruct | union | inlineUnion | string | array | map
  deriving DecidableEq, Repr

/-- The objects that are not claimed themselves. -/
def ObjectKind.isInline : ObjectKind → Bool
  | inlineStruct | inlineUnion => true
  | _ => false

/-- An object with its bytes, and the bytes of the object it is in. -/
structure WireObject where
  kind : ObjectKind
  extent : Extent
  home : Extent
  deriving DecidableEq, Repr

/-- The ranges that are claimed, in their order. -/
def claims : List WireObject → List Extent
  | [] => []
  | o :: os => if o.kind.isInline then claims os else o.home :: claims os

/-- The objects at a field: at an offset, in a home. -/
abbrev Walker := Nat → Extent → List WireObject

/-! ### Objects -/

section Objects

variable (bytes : List UInt8)

/-- What a pointer leads to. -/
def followed (object : Nat → List WireObject) : Walker := fun offset _ =>
  match Pointer.decode offset (readLE bytes offset 8) with
  | .null => []
  | .offset target => object target

/-- The objects at a packed field, unless it is a flag or the message has not
got it. -/
def packedFieldObjects (walkers : List Walker) (offset numBytes version : Nat) (home : Extent)
    (pf : PackedField) : List WireObject :=
  let absOffset := structHeaderSize + pf.offset
  if pf.minVersion ≤ version ∧ absOffset + pf.size ≤ numBytes ∧
      ¬ (pf.field.nullableValueKind ∧ pf.field.kind = .bool) then
    match walkers[pf.field.index]? with
    | none => []
    | some walk => walk (offset + absOffset) home
  else []

/-- A struct and what is in it: in the given home, or with a home of its own. -/
def structObjects (fields : List FieldType) (walkers : List Walker) (around : Option Extent)
    (offset : Nat) : List WireObject :=
  let numBytes := readLE bytes offset 4
  let version := readLE bytes (offset + 4) 4
  let extent : Extent := ⟨offset, offset + numBytes⟩
  let home := around.getD extent
  ⟨if around.isNone then .struct else .inlineStruct, extent, home⟩ ::
    (packed (packFields fields)).packedFields.flatMap
      (packedFieldObjects walkers offset numBytes version home)

/-- A union and what is in it. -/
def unionObjects (members : List Walker) (around : Option Extent) (target : Nat) :
    List WireObject :=
  let tag := readLE bytes (target + 4) 4
  let extent : Extent := ⟨target, target + unionDataSize⟩
  let home := around.getD extent
  ⟨if around.isNone then .union else .inlineUnion, extent, home⟩ ::
    match members[tag]? with
    | none => []
    | some walk => walk (target + 8) home

/-- The object of a string. -/
def stringObjects (target : Nat) : List WireObject :=
  let numBytes := readLE bytes target 4
  let numElements := readLE bytes (target + 4) 4
  [⟨.string, ⟨target, target + max numBytes (arrayHeaderSize + numElements + 1)⟩,
    ⟨target, target + numBytes⟩⟩]

/-- The objects at the elements of an array, from an offset on. -/
def itemsObjects (item : Walker) (elemSize : Nat) : Nat → Walker
  | 0, _, _ => []
  | n + 1, itemOff, home =>
      item itemOff home ++ itemsObjects item elemSize n (itemOff + elemSize) home

/-- An element in place, or behind a pointer. -/
def itemObjects (element : Ty) (field : Walker) (object : Nat → List WireObject) : Walker :=
  if element.isPod then field else followed bytes object

/-- An array and what is in it. -/
def arrayObjects (element : Ty) (item : Walker) (target : Nat) : List WireObject :=
  let numBytes := readLE bytes target 4
  let numElements := readLE bytes (target + 4) 4
  let home : Extent := ⟨target, target + numBytes⟩
  ⟨.array, ⟨target, target + max numBytes (arrayHeaderSize + element.elemSize * numElements)⟩,
      home⟩ ::
    itemsObjects item element.elemSize numElements (target + arrayHeaderSize) home

/-- A map, its keys and its values. -/
def mapObjects (keys values : Nat → List WireObject) (target : Nat) : List WireObject :=
  let numBytes := readLE bytes target 4
  let home : Extent := ⟨target, target + numBytes⟩
  ⟨.map, ⟨target, target + max numBytes mapDataSize⟩, home⟩ ::
    (followed bytes keys (target + 8) home ++ followed bytes values (target + 16) home)

end Objects

/-! ### Fields -/

mutual

/-- The objects at a field of a type. -/
def fieldObjects (bytes : List UInt8) : Ty → Bool → Walker
  | .string _, _ => followed bytes (stringObjects bytes)
  | .array element _, _ => followed bytes (arrayObjects bytes element
      (itemObjects bytes element (fieldObjects bytes element false) (elementObjects bytes element)))
  | .map key value _, _ => followed bytes (mapObjects bytes
      (arrayObjects bytes key
        (itemObjects bytes key (fieldObjects bytes key false) (elementObjects bytes key)))
      (arrayObjects bytes value
        (itemObjects bytes value (fieldObjects bytes value false) (elementObjects bytes value))))
  | .struct fields _ nullable, payload =>
      if payload || nullable then
        followed bytes (structObjects bytes fields (fieldWalkers bytes fields) none)
      else fun offset home => structObjects bytes fields (fieldWalkers bytes fields) home offset
  | .union members _ inlined, _ =>
      if inlined then fun offset home =>
        unionObjects bytes (memberWalkers bytes members) home offset
      else followed bytes (unionObjects bytes (memberWalkers bytes members) none)
  | .nullableScalar inner, _ => fieldObjects bytes inner false
  | _, _ => fun _ _ => []

/-- The objects at an array element that is an object of its own. -/
def elementObjects (bytes : List UInt8) : Ty → Nat → List WireObject
  | .struct fields _ _, target =>
      structObjects bytes fields (fieldWalkers bytes fields) none target
  | .string _, target => stringObjects bytes target
  | .map key value _, target => mapObjects bytes
      (arrayObjects bytes key
        (itemObjects bytes key (fieldObjects bytes key false) (elementObjects bytes key)))
      (arrayObjects bytes value
        (itemObjects bytes value (fieldObjects bytes value false) (elementObjects bytes value)))
      target
  | .array inner _, target => arrayObjects bytes inner
      (itemObjects bytes inner (fieldObjects bytes inner false) (elementObjects bytes inner)) target
  | _, _ => []

/-- A walk for each field of a struct. -/
def fieldWalkers (bytes : List UInt8) : List FieldType → List Walker
  | [] => []
  | ⟨ty, _⟩ :: fts => fieldObjects bytes ty false :: fieldWalkers bytes fts

/-- A walk for each member of a union. -/
def memberWalkers (bytes : List UInt8) : List Ty → List Walker
  | [] => []
  | ty :: tys => fieldObjects bytes ty true :: memberWalkers bytes tys

end

/-- The objects of a message with a payload struct at an offset. -/
def messageObjects (bytes : List UInt8) (payloadType : Ty) (payloadOffset : Nat) :
    List WireObject :=
  match payloadType with
  | .struct fields _ _ =>
      structObjects bytes fields (fieldWalkers bytes fields) none payloadOffset
  | _ => []

end MojoRs.Wire
