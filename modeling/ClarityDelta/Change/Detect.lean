import ClarityDelta.Change.Compare
import ClarityDelta.Pipeline.Collaborators
import ClarityDelta.Source.Notes

/-!
# Detecting changed functions

File by file, both revisions are asked for and compared.
-/

namespace ClarityDelta.Change

open Logging Pipeline Source

/-- The notes on a revision of a file. -/
def revisionNotes (scanning : Scanning) (file : String) (content : Option String) : List Note :=
  match content with
  | none => []
  | some text => if text.isEmpty then [] else definitionNotes scanning file text

/-- The notes on two revisions of a file. -/
def comparisonNotes (scanning : Scanning) (file : String) (base head : Option String) : List Note :=
  revisionNotes scanning file base ++ revisionNotes scanning file head

/-- The functions of a file that differ between two revisions, which are asked for. -/
def changedInFile (c : Collaborators σ) (scanning : Scanning) (base head file : String) :
    Action σ (List ChangedFunction) := do
  c.note (.debug s!"分析文件变更: {file}")
  let old ← c.content base file
  let new ← c.content head file
  (comparisonNotes scanning file old new).forM c.note
  return compareRevisions scanning file old new

/-- The functions of all files that differ between two revisions, in the order of the files. -/
def changedFunctions (c : Collaborators σ) (scanning : Scanning) (base head : String)
    (files : List String) : Action σ (List ChangedFunction) := do
  c.note (.info "检测变更的 Clarity 函数...")
  let changed := (← files.mapM (changedInFile c scanning base head)).flatten
  c.note (.info s!"共检测到 {changed.length} 个变更函数")
  return changed

end ClarityDelta.Change
