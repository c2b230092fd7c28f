import ClarityDelta.Files.Path
import ClarityDelta.Report.Rule
import ClarityDelta.Text.Numeral
import ClarityDelta.Verification.Record

/-!
# Summary

The summary of a run as marked-up text: the counts, then each function that is not verified with
its failures. There is none when the line of a failure is too long to be printed.
-/

namespace ClarityDelta.Report.Summary

open Files Text Verification

/-- The name of a file without its directories, which slashes of either kind end. -/
def baseName (file : String) : String :=
  (Path.ofText (String.ofList (file.toList.map fun c => if c = '\\' then '/' else c))).name

/-- The line of a failure as text. -/
def lineText (n : Int) : Except LongNumeral String :=
  if 0 < n then printed n.toNat else .ok "unknown"

/-- The entry of one failure. -/
def entry (failure : FailureRecord) : Except LongNumeral String := do
  let line ← lineText failure.lineNumber
  return s!"- **{failure.title}** (`{(Rule.ofTitle failure.title).id}`) at line {line}\n"
    ++ s!"  `{failure.failingCode}`\n\n"

/-- The section of one function that is not verified. -/
def resultSection (result : VerificationResult) : Except LongNumeral String := do
  let entries ← result.failures.mapM entry
  return s!"### Function: `{result.functionName}` in `{baseName result.file}`\n\n"
    ++ String.join entries

/-- The counts of all, of verified and of failed functions. -/
def header (total failed : Nat) : String :=
  "# Clarity Smart Contract Verification Summary\n\n"
    ++ s!"- Total functions verified: {total}\n"
    ++ s!"- Successfully verified: {total - failed}\n"
    ++ s!"- Verification failed: {failed}\n\n"

/-- The summary of the given results. -/
def text (results : List VerificationResult) : Except LongNumeral String := do
  let failed := results.filter (!·.verified)
  let counts := header results.length failed.length
  if failed.isEmpty then return counts ++ "All functions were successfully verified!\n"
  else
    let sections ← failed.mapM resultSection
    return counts ++ ("## Failed Verifications\n\n" ++ String.join sections)

end ClarityDelta.Report.Summary
