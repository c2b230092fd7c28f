import ClarityDelta.Config.Merge
import ClarityDelta.Config.Settings
import ClarityDelta.Data.Json.Read
import ClarityDelta.Text.Case
import ClarityDelta.Text.Search

/-!
# Settings from the environment

A variable named after a field sets it, whatever the case of its letters. A section may be given as a
whole, in JSON, and its fields also by variables of their own, with two lines before the field's name.
A list in such a variable is written in JSON.
-/

namespace ClarityDelta.Config

open Data Text

/-- What the names of the variables begin with. -/
def variableStem : String := "clarity_verify_"

/-- What stands between the name of a section and that of a field. -/
def nesting : List Char := "__".toList

/-- Variables by their names in lower case; of several with one name the last one counts. -/
def foldCase (environment : List (String × String)) : List (String × String) :=
  environment.foldl (fun all (name, value) =>
    let name := lowered name
    if all.any (·.1 = name) then
      all.map fun entry => if entry.1 = name then (name, value) else entry
    else all ++ [(name, value)]) []

/-- The names of the fields outside sections. -/
def plainFields : List String :=
  ["workspace_root", "base_ref", "head_ref", "fail_on_issue"]

/-- A section as the environment knows it: its name, its fields, and which of them are lists. -/
structure Section where
  name : String
  fields : List String
  lists : List String

/-- The sections, in order. -/
def sections : List Section :=
  let names (checked : Checked Fields) : List String := match checked with
    | .valid fields => fields.map (·.1)
    | .invalid _ => []
  [⟨"scan", names ((ScanSettings.check []).map (·.fields)), ["contracts_dir", "excluded_contracts"]⟩,
    ⟨"checker", names ((CheckerSettings.check []).map (·.fields)), []⟩,
    ⟨"report", names ((ReportSettings.check []).map (·.fields)), []⟩,
    ⟨"logging", names ((LogSettings.check []).map (·.fields)), []⟩]

/-- A text cut at every pair of lines, the piece begun being given. -/
def splitNesting (piece : List Char) : List Char → List String
  | '_' :: '_' :: rest => String.ofList piece :: splitNesting [] rest
  | c :: rest => splitNesting (piece ++ [c]) rest
  | [] => [String.ofList piece]

/-- Fields after one deep within them is set, the way to it leading through objects. What is no
object on the way keeps the field from being set. -/
def setDeep (fields : Fields) : (way : List String) → (last : String) → Value → Fields
  | [], last, value => fields.set last value
  | name :: way, last, value =>
    match fields.get? name with
    | some (.object inner) => fields.set name (.object (setDeep inner way last value))
    | some _ => fields
    | none => fields.set name (.object (setDeep [] way last value))

/-- The value that a variable gives a field: a list is written in JSON. -/
def fieldValue (isList : Bool) (value : String) : Option Value :=
  if isList && !value.isEmpty then Json.read? value else some (.text value)

/-- The fields of a section that variables of their own set, none when a list is not well written. -/
def nestedFields (part : Section) (named : List (String × String)) : Option Fields :=
  let stem := (variableStem ++ part.name).toList ++ nesting
  named.foldlM (fun fields (name, value) =>
    match after? stem name.toList with
    | none => some fields
    | some rest =>
      let names := splitNesting [] rest
      let way := names.dropLast
      let last := names.getLastD ""
      (fieldValue (way.isEmpty && part.lists.contains last) value).map fun v =>
        setDeep fields way last v) []

/-- Fields whose names are those of a section's fields in some case, under the section's names. -/
def properNames (part : Section) (fields : Fields) : Fields :=
  Fields.ofList (fields.map fun (name, value) =>
    ((part.fields.find? (lowered · = lowered name)).getD name, value))

/-- What the environment gives for a section: nothing, or its value. A section or a list that is not
well written gives no answer. -/
def sectionValue (part : Section) (named : List (String × String)) : Option (Option Value) :=
  match named.lookup (variableStem ++ part.name) with
  | none =>
    (nestedFields part named).map fun fields =>
      if fields.isEmpty then none else some (.object (properNames part fields))
  | some text => do
    match ← Json.read? text with
    | .object fields =>
      let nested ← nestedFields part named
      return some (.object (properNames part (overlay fields nested)))
    | .null => return none
    | value => return some value

/-- The settings that the environment gives, or the section that is not well written. -/
def environmentFields (environment : List (String × String)) : Except String Fields := do
  let named := foldCase environment
  let plain : Fields := plainFields.filterMap fun name =>
    (named.lookup (variableStem ++ name)).map fun value => (name, .text value)
  let parts ← sections.mapM fun part =>
    match sectionValue part named with
    | none => .error part.name
    | some value => .ok (value.map fun v => (part.name, v))
  return plain ++ parts.filterMap id

end ClarityDelta.Config
