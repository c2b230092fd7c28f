import ClarityDelta.Text.Lines
import ClarityDelta.Verification.LineCursor
import ClarityDelta.Verification.Record
import ClarityDelta.Verification.StateLine

/-!
# Counterexamples

The checker prints a counterexample as a marker line, state lines that tell where the run stands,
and a violated property with its title and code. Each violated property makes one failure record
and ends its counterexample: the next record needs a marker of its own. The last state line holds
for all later records until another one comes.
-/

namespace ClarityDelta.Verification

open Text

/-- The line that opens a counterexample. -/
def counterexampleMarker : List Char := "[Counterexample]".toList

/-- The beginning of the line that announces a violated property. -/
def violatedProperty : List Char := "Violated property:".toList

/-- Whether a counterexample is open. -/
inductive Phase where
  | scanning
  | inCounterexample
  deriving DecidableEq, Repr

/-- The name of the phase. -/
def Phase.name : Phase → String
  | scanning => "SCANNING"
  | inCounterexample => "IN_COUNTEREXAMPLE"

/-- What is known while counterexamples are read: the phase, line and function of the last state
line, and the records so far. -/
structure CounterexampleReader where
  phase : Phase
  line : Option Nat
  function : Option String
  records : List FailureRecord
  deriving DecidableEq, Repr

namespace CounterexampleReader

/-- Nothing read yet. -/
def start : CounterexampleReader :=
  ⟨.scanning, none, none, []⟩

/-- The record of a violated property, placeholders standing for what is missing. -/
def failure (reader : CounterexampleReader) (title code : Option (List Char)) : FailureRecord where
  functionName := reader.function.getD "unknown_function"
  lineNumber := (reader.line.map Int.ofNat).getD unknownLine
  title := (title.map String.ofList).getD "unknown-property"
  failingCode := (code.map String.ofList).getD "unknown-failing-code"

/-- The reader after a violated property. -/
def violated (reader : CounterexampleReader) (title code : Option (List Char)) :
    CounterexampleReader :=
  { reader with phase := .scanning, records := reader.records ++ [reader.failure title code] }

/-- The first line with content and the lines after it, none when there is no content. -/
def splitContent (ls : List (List Char)) : Option (List Char) × List (List Char) :=
  match contentLine? ls with
  | none => (none, [])
  | some (line, rest) => (some line, rest)

/-- No line is gained by a split at the first line with content. -/
theorem length_splitContent_le (ls : List (List Char)) :
    (splitContent ls).2.length ≤ ls.length := by
  unfold splitContent
  split
  · exact Nat.zero_le _
  · next h => exact Nat.le_of_lt (length_of_contentLine? h)

/-- The reader after the given lines, and the line number that was too long to read, if one stopped
it. -/
def read (reader : CounterexampleReader) (ls : List (List Char)) :
    CounterexampleReader × Option LongNumeral :=
  match ls with
  | [] => (reader, none)
  | l :: rest =>
    let line := trim l
    if line = counterexampleMarker then read { reader with phase := .inCounterexample } rest
    else if reader.phase = .scanning then read reader rest
    else
      match StateLine.find? line with
      | some state =>
        match numeral state.digits with
        | .error long => (reader, some long)
        | .ok n =>
          read { reader with line := some n, function := some (String.ofList state.function) } rest
      | none =>
        if startsWith violatedProperty line then
          let title := splitContent rest
          let code := splitContent title.2
          read (reader.violated title.1 code.1) code.2
        else read reader rest
termination_by ls.length
decreasing_by
  all_goals simp only [List.length_cons, Nat.lt_succ_iff, Nat.le_refl]
  exact Nat.le_trans (length_splitContent_le _) (length_splitContent_le rest)

/-- The reader after a text. -/
def readText (reader : CounterexampleReader) (text : String) :
    CounterexampleReader × Option LongNumeral :=
  reader.read (lines text.toList)

end CounterexampleReader

/-- The failure records of a text. -/
def counterexamples (text : String) : Except LongNumeral (List FailureRecord) :=
  match CounterexampleReader.start.readText text with
  | (reader, none) => .ok reader.records
  | (_, some long) => .error long

end ClarityDelta.Verification
