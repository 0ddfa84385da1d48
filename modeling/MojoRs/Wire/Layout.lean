/-
MojoRs/Wire/Layout.lean

The errors (`error.rs`), constants (`layout.rs`) and relative pointers
(`pointer.rs`) of the wire format.  Offsets and sizes are natural numbers; the
additions that the source checks are checked here against `2 ^ 64`.
-/
import Mathlib.Algebra.Ring.Nat
namespace MojoRs.Wire

/-- Validation error classes. -/
inductive ValidationError
  | misalignedObject
  | illegalMemoryRange
  | unexpectedStructHeader
  | unexpectedArrayHeader
  | illegalHandle
  | unexpectedInvalidHandle
  | illegalPointer
  | unexpectedNullPointer
  | messageHeaderInvalidFlags
  | messageHeaderMissingRequestId
  | differentSizedArraysInMap
  | unknownUnionTag
  | deserializationFailed
  | maxRecursionDepth
  deriving DecidableEq, Repr

/-- Encode-side failures. -/
inductive EncodeError
  | unexpectedNull
  | messageTooLarge (size limit : Nat)
  | recursionLimitExceeded (depth : Nat)
  | mapKeyCountMismatch (keys values : Nat)
  | embeddedNulInString
  | invalidUnionValue
  | arithmeticOverflow
  | typeMismatch
  | unsupported (detail : String)
  deriving DecidableEq, Repr

/-- A wire failure.  `outOfRange` stands for what Rust does not let pass: an
index beyond the end of a slice (a panic), and an unchecked addition that does
not fit 64 bits (a panic in a debug build; in a release build an index that the
next read refuses). -/
inductive WireError
  | validation (e : ValidationError)
  | encode (e : EncodeError)
  | outOfRange
  deriving DecidableEq, Repr

/-- A result of the wire code. -/
abbrev WireResult (α : Type) := Except WireError α

/-! ### Constants -/

/-- `MESSAGE_ALIGNMENT`. -/
def messageAlignment : Nat := 8
/-- The index of no handle. -/
def encodedInvalidHandleValue : UInt32 := 0xFFFFFFFF
/-- The default depth limit. -/
def defaultMaxRecursionDepth : Nat := 32
/-- The default size limit. -/
def defaultMaxMessageSize : Nat := 128 * 1024 * 1024
/-- The size word and the version of a struct. -/
def structHeaderSize : Nat := 8
/-- The size word and the count of an array. -/
def arrayHeaderSize : Nat := 8
/-- The bytes of a pointer. -/
def pointerSize : Nat := 8
/-- The bytes of a union. -/
def unionDataSize : Nat := 16
/-- The bytes of a map. -/
def mapDataSize : Nat := 24

/-- The header of version 0. -/
def messageHeaderV0Size : Nat := 24
/-- The header of version 1. -/
def messageHeaderV1Size : Nat := 32
/-- The header of version 2. -/
def messageHeaderV2Size : Nat := 48
/-- The header of version 3. -/
def messageHeaderV3Size : Nat := 56
/-- The smallest message. -/
def minMessageSize : Nat := messageHeaderV0Size

/-- Where the interface id is. -/
def headerInterfaceIdOffset : Nat := 8
/-- Where the name is. -/
def headerNameOffset : Nat := 12
/-- Where the flags are. -/
def headerFlagsOffset : Nat := 16
/-- Where the trace nonce is. -/
def headerTraceNonceOffset : Nat := 20
/-- Where the request id is. -/
def headerRequestIdOffset : Nat := 24
/-- Where the payload pointer is. -/
def headerPayloadOffset : Nat := 32
/-- Where the pointer to the interface ids is. -/
def headerPayloadInterfaceIdsOffset : Nat := 40
/-- Where the creation time is. -/
def headerCreationTimeticksOffset : Nat := 48

/-- The sender waits for a response. -/
def messageFlagExpectsResponse : UInt32 := 0x1
/-- The message is a response. -/
def messageFlagIsResponse : UInt32 := 0x2

/-! ### Checked arithmetic -/

/-- The number of values of a `usize`. -/
def usizeLimit : Nat := 2 ^ 64

/-- The largest `usize`, the offset of a field not yet placed. -/
def usizeMax : Nat := usizeLimit - 1

/-- A checked addition of the source. -/
def checkedAdd (a b : Nat) : WireResult Nat :=
  if a + b < usizeLimit then .ok (a + b) else .error (.encode .arithmeticOverflow)

/-- A checked multiplication of the source. -/
def checkedMul (a b : Nat) : WireResult Nat :=
  if a * b < usizeLimit then .ok (a * b) else .error (.encode .arithmeticOverflow)

/-- Round `n` up to a multiple of `messageAlignment`. -/
def alignUp (n : Nat) : WireResult Nat :=
  if n + 7 < usizeLimit then .ok ((n + 7) / 8 * 8) else .error (.encode .arithmeticOverflow)

theorem checkedAdd_ok {a b : Nat} (h : a + b < usizeLimit) : checkedAdd a b = .ok (a + b) :=
  if_pos h

theorem checkedMul_ok {a b : Nat} (h : a * b < usizeLimit) : checkedMul a b = .ok (a * b) :=
  if_pos h

theorem checkedAdd_eq_ok {a b c : Nat} (h : checkedAdd a b = .ok c) :
    c = a + b ∧ a + b < usizeLimit := by
  unfold checkedAdd at h
  split at h
  · exact ⟨(Except.ok.inj h).symm, ‹_›⟩
  · exact nomatch h

theorem checkedMul_eq_ok {a b c : Nat} (h : checkedMul a b = .ok c) :
    c = a * b ∧ a * b < usizeLimit := by
  unfold checkedMul at h
  split at h
  · exact ⟨(Except.ok.inj h).symm, ‹_›⟩
  · exact nomatch h

theorem alignUp_eq_ok {n m : Nat} (h : alignUp n = .ok m) :
    m = (n + 7) / 8 * 8 ∧ n + 7 < usizeLimit := by
  unfold alignUp at h
  split at h
  · exact ⟨(Except.ok.inj h).symm, ‹_›⟩
  · exact nomatch h

theorem alignUp_ok {n : Nat} (h : n + 7 < usizeLimit) : alignUp n = .ok ((n + 7) / 8 * 8) :=
  if_pos h

/-! ### Relative pointers -/

/-- A decoded relative pointer: null, or an offset within the message. -/
inductive Pointer
  | null
  | offset (target : Nat)
  deriving DecidableEq, Repr

/-- `target - ptrAddr`, wrapping. -/
def Pointer.encode (ptrAddr target : Nat) : Nat :=
  (target + (usizeLimit - ptrAddr % usizeLimit)) % usizeLimit

/-- `ptrAddr + raw`, wrapping; zero is null. -/
def Pointer.decode (ptrAddr raw : Nat) : Pointer :=
  if raw = 0 then .null else .offset ((ptrAddr + raw) % usizeLimit)

theorem Pointer.encode_lt (ptrAddr target : Nat) : Pointer.encode ptrAddr target < 256 ^ 8 :=
  Nat.mod_lt _ (by decide)

/-- A pointer leads back to its target, unless it points to itself. -/
theorem Pointer.decode_encode {ptrAddr target : Nat} (ha : ptrAddr < usizeLimit)
    (ht : target < usizeLimit) (hne : ptrAddr ≠ target) :
    Pointer.decode ptrAddr (Pointer.encode ptrAddr target) = .offset target := by
  have hlim : usizeLimit = 18446744073709551616 := by decide
  rw [hlim] at ha ht
  simp only [Pointer.decode, Pointer.encode, hlim]
  rw [Nat.mod_eq_of_lt ha, if_neg (by omega)]
  congr 1
  omega

/-! ### Sequencing -/

variable {α β : Type}

@[simp] theorem ok_bind (a : α) (f : α → WireResult β) : ((.ok a : WireResult α) >>= f) = f a :=
  rfl

/-- A sequence that succeeds has succeeded step by step. -/
theorem bind_eq_ok {x : WireResult α} {f : α → WireResult β} {b : β}
    (h : (x >>= f) = .ok b) : ∃ a, x = .ok a ∧ f a = .ok b := by
  cases x with
  | error e => exact nomatch h
  | ok a => exact ⟨a, rfl, h⟩

end MojoRs.Wire
