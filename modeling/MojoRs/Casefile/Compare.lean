/-
MojoRs/Casefile/Compare.lean

The differential comparison of two event streams (`events.rs`, `normalizers.rs`
and `compare.rs`): the events, the normalizers that a casefile declares, and the
comparison of what is left, position by position.

The crates that read and write JSON and compute digests are parameters
(`Library`), and so is the type of the objects in `outputs`, with the equality
that it comes with.
-/
import MojoRs.Lib.Reorder

namespace MojoRs.Casefile

open Lib (sortByKey)

/-! ### Events -/

/-- The kinds of event lines. -/
inductive EventKind
  | result
  | signals
  | message
  | handle
  | trap
  | data
  | buffer
  | invitation
  | process
  | info
  | error
  | lifecycle
  deriving DecidableEq, Repr

/-- The signals of an event, by their names. -/
structure SignalState where
  satisfied : List String
  satisfiable : List String
  deriving DecidableEq, Repr

/-- One event line of a harness. -/
structure Event (M : Type) where
  seq : UInt64
  opId : UInt64
  event : EventKind
  result : String
  handle : Option String
  payloadHex : Option String
  handles : Option (List String)
  signals : Option SignalState
  triggerContext : Option UInt64
  signalsState : Option SignalState
  outputs : Option M
  numBytes : Option UInt32
  size : Option UInt64
  process : Option String
  pid : Option UInt32
  fd : Option Int32
  note : Option String

/-- What other crates do: `serde_json::from_str` and `to_string`, with the texts
of their errors, and the digest of `sha2`. -/
structure Library (M : Type) where
  fromStr : String → Except String (Event M)
  toString : Event M → Except String String
  sha256 : ByteArray → List UInt8

variable {M : Type}

/-! ### Reading a stream -/

/-- `\n`. -/
def newline : Char := Char.ofNat 10

/-- `\r`. -/
def carriageReturn : Char := Char.ofNat 13

/-- A line that ends in a newline, without a carriage return before it. -/
def stripReturn (line : List Char) : List Char :=
  if line.getLast? = some carriageReturn then line.dropLast else line

/-- `str::lines`, with the characters of the current line. -/
def linesFrom : List Char → List Char → List (List Char)
  | [], [] => []
  | line, [] => [line]
  | line, c :: rest =>
      if c = newline then stripReturn line :: linesFrom [] rest else linesFrom (line ++ [c]) rest

/-- The characters that `str::trim` removes. -/
def isWhiteSpace (c : Char) : Bool :=
  let n := c.toNat
  (9 ≤ n && n ≤ 13) || n == 32 || n == 0x85 || n == 0xA0 || n == 0x1680 ||
    (0x2000 ≤ n && n ≤ 0x200A) || n == 0x2028 || n == 0x2029 || n == 0x202F || n == 0x205F ||
    n == 0x3000

/-- Parse a stream, one event for each line that is not blank. -/
def parseEvents (lib : Library M) (input : String) : Except String (List (Event M)) :=
  ((linesFrom [] input.toList).filter fun l => !l.all isWhiteSpace).mapM fun l =>
    lib.fromStr (String.ofList l)

/-! ### Normalizers -/

/-- Mask the process ids. -/
def normalizePid (events : List (Event M)) : List (Event M) :=
  events.map fun e => { e with pid := none }

/-- Mask the descriptor numbers. -/
def normalizeFd (events : List (Event M)) : List (Event M) :=
  events.map fun e => if e.fd.isSome then { e with fd := some (-1) } else e

/-- Events have no time stamps: nothing is masked. -/
def normalizeTimestamp (events : List (Event M)) : List (Event M) := events

/-- Events have no tokens: nothing is masked. -/
def normalizeToken (events : List (Event M)) : List (Event M) := events

/-- The end of a run of trap events. -/
def flushRun (key : Event M → Nat) (out run : List (Event M)) : List (Event M) :=
  if run.isEmpty then out else out ++ sortByKey key run

/-- The loop of `normalize_trap_order`: the events that are out, and the current
run of trap events. -/
def trapOrderLoop (key : Event M → Nat) :
    List (Event M) → List (Event M) → List (Event M) → List (Event M)
  | out, run, [] => flushRun key out run
  | out, run, e :: events =>
      if e.event = .trap then trapOrderLoop key out (run ++ [e]) events
      else trapOrderLoop key (flushRun key out run ++ [e]) [] events

/-- Trap events are sorted by their context; without one, it is 0. -/
def sortContext (e : Event M) : Nat := (e.triggerContext.getD 0).toNat

/-- Sort each run of trap events by context. -/
def normalizeTrapOrder (events : List (Event M)) : List (Event M) :=
  trapOrderLoop sortContext [] [] events

/-- Apply the normalizers with the given ids. -/
def applyNormalizers (events : List (Event M)) : List String → Except String (List (Event M))
  | [] => .ok events
  | id :: ids =>
      if id = "normalize.pid" then applyNormalizers (normalizePid events) ids
      else if id = "normalize.fd" then applyNormalizers (normalizeFd events) ids
      else if id = "normalize.timestamp" then applyNormalizers (normalizeTimestamp events) ids
      else if id = "normalize.token" then applyNormalizers (normalizeToken events) ids
      else if id = "normalize.trap_order" then applyNormalizers (normalizeTrapOrder events) ids
      else .error ("unknown normalizer: " ++ id)

/-! ### The comparison -/

/-- How the events at one position differ. -/
inductive ResidualKind
  | missing
  | extra
  | mismatch
  | order
  deriving DecidableEq, Repr

/-- A mismatch. -/
structure Residual (M : Type) where
  seq : Nat
  kind : ResidualKind
  oracle : Option (Event M)
  candidate : Option (Event M)
  note : String

/-- The hashes of the two event streams. -/
structure EvidenceRef where
  oracleEventsSha256 : String
  candidateEventsSha256 : String
  deriving DecidableEq, Repr

/-- The verdict of a comparison, with the residuals it rests on. -/
structure Comparison (M : Type) where
  schemaVersion : UInt32
  caseId : String
  status : String
  oracleEvents : Nat
  candidateEvents : Nat
  normalizersApplied : List String
  residuals : List (Residual M)
  evidence : EvidenceRef

/-- Canonical event equality. -/
def eventEq [BEq M] (a b : Event M) : Bool :=
  a.event == b.event && a.result == b.result && a.handle == b.handle &&
    a.payloadHex == b.payloadHex && a.handles == b.handles && a.signals == b.signals &&
    a.triggerContext == b.triggerContext && a.signalsState == b.signalsState &&
    a.outputs == b.outputs && a.process == b.process && a.fd == b.fd && a.note == b.note

/-- The digit of a number below 16. -/
def hexDigit (n : Nat) : Char := if n < 10 then Char.ofNat (48 + n) else Char.ofNat (87 + n)

/-- Two lower-case digits for each byte. -/
def hex (bytes : List UInt8) : String :=
  String.ofList (bytes.flatMap fun b => [hexDigit (b.toNat / 16), hexDigit (b.toNat % 16)])

/-- The digest of the lines of the events. -/
def sha256Events (lib : Library M) (events : List (Event M)) : Except String String := do
  let lines ← events.mapM lib.toString
  .ok (hex (lib.sha256 (String.join (lines.map (· ++ "\n"))).toUTF8))

/-- The residual at position `i`, if there is one. -/
def residualAt [BEq M] (oracle candidate : List (Event M)) (i : Nat) : Option (Residual M) :=
  match oracle[i]?, candidate[i]? with
  | some o, some c =>
      if !eventEq o c then some ⟨i, .mismatch, some o, some c, s!"event {i} differs"⟩ else none
  | some o, none =>
      some ⟨i, .missing, some o, none, s!"oracle event {i} has no candidate counterpart"⟩
  | none, some c =>
      some ⟨i, .extra, none, some c, s!"candidate event {i} has no oracle counterpart"⟩
  | none, none => none

/-- Compare two event streams for a casefile. -/
def compare [BEq M] (lib : Library M) (caseId oracleInput candidateInput : String)
    (normalizerIds : List String) : Except String (Comparison M) := do
  let oracleRaw ← (parseEvents lib oracleInput).mapError ("oracle events: " ++ ·)
  let candidateRaw ← (parseEvents lib candidateInput).mapError ("candidate events: " ++ ·)
  let oracle ← applyNormalizers oracleRaw normalizerIds
  let candidate ← applyNormalizers candidateRaw normalizerIds
  let oracleEventsSha256 ← sha256Events lib oracle
  let candidateEventsSha256 ← sha256Events lib candidate
  let n := max oracle.length candidate.length
  let residuals := (List.range n).filterMap (residualAt oracle candidate)
  .ok
    { schemaVersion := 1
      caseId
      status := if residuals.isEmpty then "pass" else "fail"
      oracleEvents := oracle.length
      candidateEvents := candidate.length
      normalizersApplied := normalizerIds
      residuals
      evidence := ⟨oracleEventsSha256, candidateEventsSha256⟩ }

end MojoRs.Casefile
