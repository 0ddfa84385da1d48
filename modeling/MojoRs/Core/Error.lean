/-
MojoRs/Core/Error.lean

The error codes of the core runtime (`error.rs`), one constructor a variant.
-/
import Mathlib.Algebra.Ring.Nat

namespace MojoRs.Core

universe u

/-- Core runtime errors, in the order of the public result codes. -/
inductive CoreError
  | ok | cancelled | unknown | invalidArgument | deadlineExceeded | notFound
  | alreadyExists | permissionDenied | resourceExhausted | failedPrecondition
  | aborted | outOfRange | unimplemented | internal | unavailable | dataLoss
  | busy | shouldWait
  deriving DecidableEq, Repr

/-- Result of a core operation. -/
abbrev CoreResult (α : Type u) := Except CoreError α

end MojoRs.Core
