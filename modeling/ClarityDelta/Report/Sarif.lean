import ClarityDelta.Data.Json.Print
import ClarityDelta.Report.Finding

/-!
# SARIF

The findings of a run as a document of the static analysis interchange format, version 2.1.0: one
run, whose tool lists every rule and whose results are the findings in order.
-/

namespace ClarityDelta.Report.Sarif

open Data

/-- The address of the document's schema. -/
def schema : String :=
  "https://raw.githubusercontent.com/oasis-tcs/sarif-spec/master/Schemata/sarif-schema-2.1.0.json"

/-- A message or description. -/
def message (text : String) : Value :=
  .object [("text", .text text)]

/-- A rule as the tool lists it. -/
def rule (rule : Rule) : Value :=
  .object [("id", .text rule.id), ("shortDescription", message rule.shortDescription),
    ("helpText", message rule.helpText)]

/-- The region of a finding: its line, and its column when there is one. -/
def region (line : Nat) (column : Option Nat) : Value :=
  .object (("startLine", .natural line) :: (column.map fun c => ("startColumn", .natural c)).toList)

/-- A finding as a result. -/
def result (finding : Finding) : Value :=
  .object [("ruleId", .text finding.ruleId), ("level", .text "error"),
    ("message", message finding.message),
    ("locations", .list [.object [("physicalLocation", .object [
      ("artifactLocation", .object [("uri", .text finding.file)]),
      ("region", region finding.line finding.column)])]])]

/-- The document of the given findings, made by the named tool. -/
def document (findings : List Finding) (tool version : String) : Value :=
  .object [("version", .text "2.1.0"), ("$schema", .text schema),
    ("runs", .list [.object [
      ("tool", .object [("driver", .object [("name", .text tool), ("version", .text version),
        ("rules", .list (Rule.all.map rule))])]),
      ("results", .list (findings.map result))]])]

/-- The text of the document, if all its numbers can be printed. -/
def text (findings : List Finding) (tool version : String) : Except Text.LongNumeral String :=
  Json.document (document findings tool version)

end ClarityDelta.Report.Sarif
