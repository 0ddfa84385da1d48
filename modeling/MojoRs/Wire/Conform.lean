/-
MojoRs/Wire/Conform.lean

What the wire format expects of a value.  `Suits m n v payload ty` says that
the value `v` can stand where the schema `ty` is expected, in a message with
`n` handles:

* `.exact` — the decoder returns the value as it is;
* `.accepted` — the decoder accepts what the encoder writes, but may return
  another value (a mismatched element becomes an empty string, an interface
  version is raised, a field is beyond the version of the struct);
* `.skipped` — the decoder does not look at it; it only has to keep within its
  slot.

`payload` marks the payload of a union, where a struct stands behind a pointer
for the decoder and in place for the encoder.

`tally` sums over the handles of a value and over the objects that encode it,
and `nesting` is its depth: with `s = 1` as the decoder counts, with `s = 0`
as the encoder does, for which structs and payloads are no levels.
-/
import MojoRs.Wire.Decode
import MojoRs.Wire.PackLayout

namespace MojoRs.Wire

/-- How much is expected of a value. -/
inductive Mode
  | skipped
  | accepted
  | exact
  deriving DecidableEq, Repr

/-! ### Sizes -/

/-- The bytes of a string object. -/
def stringSize (s : String) : Nat :=
  (arrayHeaderSize + s.toUTF8.data.toList.length + 1 + 7) / 8 * 8

/-- The bytes of an array object. -/
def arraySize (element : Ty) (count : Nat) : Nat :=
  (arrayHeaderSize + element.elemSize * count + 7) / 8 * 8

/-- The bytes of a struct object. -/
def structSize (fields : List FieldType) : Nat := (packed (packFields fields)).size

/-- Sizes are written as 32-bit numbers. -/
def sizeFieldLimit : Nat := 2 ^ 32

/-! ### Single values -/

/-- The invalid handle, or one that the message carries. -/
def HandleOk (n : Nat) (index : UInt32) : Prop :=
  index = encodedInvalidHandleValue ∨ index.toNat < n

/-- No byte of the string is zero. -/
def NulFree (s : String) : Prop := 0 ∉ s.toUTF8.data.toList

mutual

/-- Zero bytes are a value of the type, in a message with `n` handles. -/
def ZeroSuits (n : Nat) : Ty → Prop
  | .handle | .interface _ => 0 < n
  | .string nullable | .array _ nullable | .map _ _ nullable | .struct _ _ nullable =>
      nullable = true
  | .union members nullable inlined => if inlined then ZeroMember n members else nullable = true
  | .nullableScalar inner => ZeroSuits n inner
  | _ => True

/-- Zero bytes are a value of the first member of a union. -/
def ZeroMember (n : Nat) : List Ty → Prop
  | [] => False
  | ty :: _ => ty.packKind ≠ .union ∧ ZeroSuits n ty

end

/-- Null in place of a value. -/
def NullSuits (m : Mode) (n : Nat) : Ty → Prop
  | .string nullable | .array _ nullable | .map _ _ nullable | .struct _ _ nullable =>
      nullable = true
  | .union members nullable inlined =>
      nullable = true ∧
        (inlined = true → m = .skipped ∨ m = .accepted ∧ ZeroSuits n (.union members true true))
  | .nullableScalar inner => m = .skipped ∨ m = .accepted ∧ ZeroSuits n inner
  | _ => False

/-- The mode of a field of a struct of version `version`. -/
def Mode.atField (m : Mode) (version : UInt32) (ft : FieldType) : Mode :=
  if ft.minVersion.getD 0 ≤ version.toNat then m else .skipped

/-- A value that is not a nullable scalar in a field of one, or one that is
absent. -/
def AbsentSuits (m : Mode) (n : Nat) (inner : Ty) (v : Value) : Prop :=
  (m = .skipped ∨ inner.packKind = .bool ∨ ZeroSuits n inner) ∧
    (m = .exact → v = .nullableScalar false .null)

/-- A missing value in a field. -/
def MissingSuits (m : Mode) (n : Nat) (ft : FieldType) : Prop :=
  match ft.ty with
  | .nullableScalar inner => AbsentSuits m n inner .null
  | ty => NullSuits m n ty

/-- The header of a struct: fields that can be packed, and a version with the
size of the whole struct. -/
def StructSuits (m : Mode) (fields : List FieldType) (version : UInt32) (count : Nat) : Prop :=
  Packable (packFields fields) ∧
    match m with
    | .skipped => True
    | .accepted =>
        maxVersion fields < version.toNat ∨
          (packed (packFields fields)).numBytesForVersion version.toNat =
            some (structSize fields)
    | .exact =>
        maxVersion fields ≤ version.toNat ∧ count = fields.length ∧
          structSize fields < sizeFieldLimit

/-- A fixed-width value. -/
def ScalarSuits (m : Mode) (v : Value) (ty : Ty) : Prop :=
  (scalarCode v ty).isSome ∧
    (m = .exact → match v with
      | .enum e => e.toUInt64.toUInt32.toUInt64.toInt64 = e
      | _ => True)

/-! ### Values -/

mutual

/-- A value where a field of type `ty` is expected. -/
def Suits : Value → Mode → Nat → Bool → Ty → Prop
  | .bool _, _, _, _, ty =>
      match ty with
      | .bool => True
      | _ => False
  | .handle index, m, n, _, ty =>
      match ty with
      | .handle => m ≠ .skipped → HandleOk n index
      | _ => False
  | .string s, m, _, _, ty =>
      match ty with
      | .string _ => (m ≠ .skipped → NulFree s) ∧ (m = .exact → stringSize s < sizeFieldLimit)
      | _ => False
  | .array items, m, n, _, ty =>
      match ty with
      | .array element _ =>
          (m = .exact → arraySize element items.length < sizeFieldLimit) ∧
            SuitsItems items m n element
      | _ => False
  | .map keys values, m, n, _, ty =>
      match ty with
      | .map key value _ =>
          (m = .exact → arraySize key keys.length < sizeFieldLimit ∧
            arraySize value values.length < sizeFieldLimit) ∧
          keys.length = values.length ∧ SuitsItems keys m n key ∧ SuitsItems values m n value
      | _ => False
  | .struct version values, m, n, payload, ty =>
      match ty with
      | .struct fields _ nullable =>
          (nullable = true ∨ payload = false ∧ fields = []) ∧
            StructSuits m fields version values.length ∧ SuitsFields values m n version fields
      | _ => False
  | .union tag value, m, n, _, ty =>
      match ty with
      | .union members _ _ =>
          match members[tag.toNat]? with
          | some member => member.packKind ≠ .union ∧ Suits value m n true member
          | none => False
      | _ => False
  | .interface index v, m, n, _, ty =>
      match ty with
      | .interface version =>
          (m ≠ .skipped → HandleOk n index) ∧ (m = .exact → version.toNat ≤ v.toNat)
      | _ => False
  | .associatedInterface _ v, m, _, _, ty =>
      match ty with
      | .associatedInterface version => m = .exact → version.toNat ≤ v.toNat
      | _ => False
  | .null, m, n, _, ty => NullSuits m n ty
  | .nullableScalar true value, m, n, _, ty =>
      match ty with
      | .nullableScalar inner => m ≠ .exact ∧ Suits value m n false inner
      | _ => False
  | .nullableScalar false _, m, n, _, ty =>
      match ty with
      | .nullableScalar _ => NullSuits m n ty
      | _ => False
  | v, m, _, _, ty => ScalarSuits m v ty

/-- The values of a struct. -/
def SuitsFields : List Value → Mode → Nat → UInt32 → List FieldType → Prop
  | [], m, n, version, fields => ∀ ft ∈ fields, MissingSuits (m.atField version ft) n ft
  | v :: vs, m, n, version, fields =>
      match fields with
      | [] => True
      | ft :: fts =>
          (match ft.ty with
            | .nullableScalar inner =>
                match v with
                | .nullableScalar true value =>
                    (inner.packKind ≠ .bool → Suits value (m.atField version ft) n false inner) ∧
                      (m.atField version ft = .exact → inner.packKind ≠ .bool)
                | v => AbsentSuits (m.atField version ft) n inner v
            | ty => Suits v (m.atField version ft) n false ty) ∧
          SuitsFields vs m n version fts

/-- The elements of an array. -/
def SuitsItems : List Value → Mode → Nat → Ty → Prop
  | [], _, _, _ => True
  | v :: vs, m, n, element =>
      (if element.isPod then Suits v m n false element
        else match v with
          | .null => m ≠ .skipped → element.isNullable = true
          | _ => SuitsElement v m n element) ∧
      SuitsItems vs m n element

/-- An array element that is an object of its own. -/
def SuitsElement : Value → Mode → Nat → Ty → Prop
  | .struct version values, m, n, element =>
      match element with
      | .struct fields _ _ =>
          StructSuits m fields version values.length ∧ SuitsFields values m n version fields
      | .string _ | .array _ _ => m ≠ .exact
      | _ => False
  | .array items, m, n, element =>
      match element with
      | .array inner _ =>
          (m = .exact → arraySize inner items.length < sizeFieldLimit) ∧
            SuitsItems items m n inner
      | .string _ => m ≠ .exact
      | _ => False
  | .map keys values, m, n, element =>
      match element with
      | .map key value _ =>
          (m = .exact → arraySize key keys.length < sizeFieldLimit ∧
            arraySize value values.length < sizeFieldLimit) ∧
          keys.length = values.length ∧ SuitsItems keys m n key ∧ SuitsItems values m n value
      | .string _ | .array _ _ => m ≠ .exact
      | _ => False
  | .string s, m, _, element =>
      match element with
      | .string _ => (m ≠ .skipped → NulFree s) ∧ (m = .exact → stringSize s < sizeFieldLimit)
      | .array _ _ => m ≠ .exact
      | _ => False
  | _, m, _, element =>
      match element with
      | .string _ | .array _ _ => m ≠ .exact
      | _ => False

end

/-! ### Handles, bytes and depth -/

section Measures

variable (handle : UInt32 → Nat) (object : Nat → Nat)

mutual

/-- The sum over the handles and over the objects that encode a value. -/
def tally : Value → Ty → Nat
  | .handle index, ty =>
      match ty with
      | .handle => handle index
      | _ => 0
  | .interface index _, ty =>
      match ty with
      | .interface _ => handle index
      | _ => 0
  | .string s, ty =>
      match ty with
      | .string _ => object (stringSize s)
      | _ => 0
  | .array items, ty =>
      match ty with
      | .array element _ => object (arraySize element items.length) + tallyItems items element
      | _ => 0
  | .map keys values, ty =>
      match ty with
      | .map key value _ =>
          object mapDataSize +
            (object (arraySize key keys.length) + tallyItems keys key) +
            (object (arraySize value values.length) + tallyItems values value)
      | _ => 0
  | .struct _ values, ty =>
      match ty with
      | .struct fields _ nullable =>
          (if nullable then object (structSize fields) else 0) + tallyFields values fields
      | _ => 0
  | .union tag value, ty =>
      match ty with
      | .union members _ inlined =>
          (if inlined then 0 else object unionDataSize) +
            match members[tag.toNat]? with
            | some member => tally value member
            | none => 0
      | _ => 0
  | .nullableScalar true value, ty =>
      match ty with
      | .nullableScalar inner => tally value inner
      | _ => 0
  | _, _ => 0

/-- The total over the fields of a struct. -/
def tallyFields : List Value → List FieldType → Nat
  | [], _ => 0
  | v :: vs, fields =>
      match fields with
      | [] => 0
      | ft :: fts =>
          (match ft.ty with
            | .nullableScalar inner =>
                match v with
                | .nullableScalar true value =>
                    if inner.packKind = .bool then 0 else tally value inner
                | _ => 0
            | ty => tally v ty) + tallyFields vs fts

/-- The total over the items of an array. -/
def tallyItems : List Value → Ty → Nat
  | [], _ => 0
  | v :: vs, element =>
      (if element.isPod then tally v element
        else match v with
          | .null => 0
          | _ => tallyElement v element) + tallyItems vs element

/-- The total of one item that is an object. -/
def tallyElement : Value → Ty → Nat
  | .struct _ values, element =>
      match element with
      | .struct fields _ _ => object (structSize fields) + tallyFields values fields
      | .string _ => object (stringSize "")
      | .array inner _ => object (arraySize inner 0)
      | _ => 0
  | .array items, element =>
      match element with
      | .array inner _ => object (arraySize inner items.length) + tallyItems items inner
      | .string _ => object (stringSize "")
      | _ => 0
  | .map keys values, element =>
      match element with
      | .map key value _ =>
          object mapDataSize +
            (object (arraySize key keys.length) + tallyItems keys key) +
            (object (arraySize value values.length) + tallyItems values value)
      | .string _ => object (stringSize "")
      | .array inner _ => object (arraySize inner 0)
      | _ => 0
  | .string s, element =>
      match element with
      | .string _ => object (stringSize s)
      | .array inner _ => object (arraySize inner 0)
      | _ => 0
  | _, element =>
      match element with
      | .string _ => object (stringSize "")
      | .array inner _ => object (arraySize inner 0)
      | _ => 0

end

variable (s : Nat)

mutual

/-- The depth of a value. -/
def nesting : Value → Bool → Ty → Nat
  | .array items, payload, ty =>
      match ty with
      | .array element _ => (if payload then s else 1) + nestingItems items element
      | _ => 0
  | .map keys values, _, ty =>
      match ty with
      | .map key value _ => 1 + max (nestingItems keys key) (nestingItems values value)
      | _ => 0
  | .struct _ values, _, ty =>
      match ty with
      | .struct fields _ _ => s + nestingFields values fields
      | _ => 0
  | .union tag value, _, ty =>
      match ty with
      | .union members _ _ =>
          match members[tag.toNat]? with
          | some member => nesting value true member
          | none => 0
      | _ => 0
  | .nullableScalar true value, _, ty =>
      match ty with
      | .nullableScalar inner => nesting value false inner
      | _ => 0
  | _, _, _ => 0

/-- The depth behind the fields of a struct. -/
def nestingFields : List Value → List FieldType → Nat
  | [], _ => 0
  | v :: vs, fields =>
      match fields with
      | [] => 0
      | ft :: fts =>
          max (match ft.ty with
            | .nullableScalar inner =>
                match v with
                | .nullableScalar true value => nesting value false inner
                | _ => 0
            | ty => nesting v false ty) (nestingFields vs fts)

/-- The depth behind the items of an array. -/
def nestingItems : List Value → Ty → Nat
  | [], _ => 0
  | v :: vs, element =>
      max (if element.isPod then nesting v false element else nestingElement v element)
        (nestingItems vs element)

/-- The depth behind one item that is an object. -/
def nestingElement : Value → Ty → Nat
  | .struct _ values, element =>
      match element with
      | .struct fields _ _ => s + nestingFields values fields
      | _ => 0
  | .array items, element =>
      match element with
      | .array inner _ => nestingItems items inner
      | _ => 0
  | .map keys values, element =>
      match element with
      | .map key value _ => 1 + max (nestingItems keys key) (nestingItems values value)
      | _ => 0
  | _, _ => 0

end

end Measures

/-- The number of handles that a value attaches. -/
abbrev handleTotal (v : Value) (ty : Ty) : Nat :=
  tally (fun index => if index = encodedInvalidHandleValue then 0 else 1) (fun _ => 0) v ty

/-- The number of bytes that the objects of a value take. -/
abbrev byteTotal (v : Value) (ty : Ty) : Nat := tally (fun _ => 0) id v ty

end MojoRs.Wire
