import ClarityDelta.Text.Search
import ClarityDelta.Verification.Counterexample

/-!
# Verdicts

What the checker printed decides a job: the mark of success wins over everything else, the mark of
failure comes with counterexamples, and a text without either is an unclear answer.
-/

namespace ClarityDelta.Verification

open Text

/-- What the checker prints on success. -/
def successMarker : String := "VERIFICATION SUCCESSFUL"

/-- What the checker prints on failure. -/
def failureMarker : String := "VERIFICATION FAILED"

/-- The failure that stands for an answer that is neither success nor failure. -/
def unclearAnswer (function : String) : FailureRecord where
  functionName := function
  lineNumber := unknownLine
  title := "unknown-result"
  failingCode := "ESBMC did not produce a clear verification result"

/-- The result that the checker's output gives for a function of a file. -/
def verdict (output file function : String) : Except LongNumeral VerificationResult :=
  if contains output successMarker then .ok ⟨true, [], output, file, function⟩
  else if contains output failureMarker then
    (counterexamples output).map fun failures => ⟨false, failures, output, file, function⟩
  else .ok ⟨false, [unclearAnswer function], output, file, function⟩

end ClarityDelta.Verification
