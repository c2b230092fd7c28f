import ClarityDelta.Report.Sarif
import ClarityDelta.Workspace

/-!
# Writing reports

A report is written with the directories above it. A failure of the file system names the path and what
went wrong. A report that cannot be encoded fails otherwise, and leaves an empty file.
-/

namespace ClarityDelta.Report

open Files Text

/-- Writes a report: the path it has then. -/
def write (path : String) (text : CodeText) : Work String := do
  let target := Path.ofText path
  match ← Work.tryFiles (do
      FileWork.makeDirectories target.parent.text
      FileWork.writeCodes target.text text) with
  | .ok none => return target.text
  | .ok (some fault) => throw (.unencodable fault)
  | .error error => if error.isSystem then throw (.report target.text error) else throw (.file error)

end ClarityDelta.Report
