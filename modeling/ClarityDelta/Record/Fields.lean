import ClarityDelta.Change.Compare
import ClarityDelta.Data.Checked
import ClarityDelta.Report.Finding

/-!
# The fields of records

Every record is read from named fields, which are checked, and written with all its fields.
-/

namespace ClarityDelta

open Data

namespace Source.FunctionDefinition

/-- The definition with the given fields. -/
def check (fields : Fields) : Checked FunctionDefinition :=
  FunctionDefinition.mk
    <$> fields.required "name" Value.asText
    <*> fields.required "kind" (Value.asWord FunctionKind.ofName?)
    <*> fields.required "file" Value.asText
    <*> fields.required "start_line" (Value.asIntFrom 1)
    <*> fields.required "end_line" (Value.asIntFrom 1)
    <*> fields.required "content" Value.asText

/-- The fields of a definition. -/
def fields (f : FunctionDefinition) : Fields :=
  [("name", .text f.name), ("kind", .text f.kind.name), ("file", .text f.file),
    ("start_line", .natural f.startLine), ("end_line", .natural f.endLine),
    ("content", .text f.content)]

end Source.FunctionDefinition

namespace ChangedFunction

/-- The changed function with the given fields. -/
def check (fields : Fields) : Checked ChangedFunction :=
  ChangedFunction.mk
    <$> Source.FunctionDefinition.check fields
    <*> fields.required "change_type" (Value.asWord ChangeType.ofName?)

/-- The fields of a changed function. -/
def fields (f : ChangedFunction) : Fields :=
  f.toFunctionDefinition.fields ++ [("change_type", .text f.changeType.name)]

end ChangedFunction

namespace Verification

namespace FailureRecord

/-- The failure with the given fields. -/
def check (fields : Fields) : Checked FailureRecord :=
  FailureRecord.mk
    <$> fields.required "function_name" Value.asText
    <*> fields.optional "line_number" Value.asInt unknownLine
    <*> fields.required "title" Value.asText
    <*> fields.required "failing_code" Value.asText

/-- The fields of a failure. -/
def fields (f : FailureRecord) : Fields :=
  [("function_name", .text f.functionName), ("line_number", .integer f.lineNumber),
    ("title", .text f.title), ("failing_code", .text f.failingCode)]

end FailureRecord

namespace VerificationJob

/-- The job with the given fields. -/
def check (fields : Fields) : Checked VerificationJob :=
  VerificationJob.mk
    <$> fields.required "file" Value.asText
    <*> fields.required "function_name" Value.asText
    <*> fields.required "contract_name" Value.asText
    <*> fields.required "artifact" Value.asText
    <*> fields.optional "flags" Value.asText ""

/-- The fields of a job. -/
def fields (job : VerificationJob) : Fields :=
  [("file", .text job.file), ("function_name", .text job.functionName),
    ("contract_name", .text job.contractName), ("artifact", .text job.artifact),
    ("flags", .text job.flags)]

end VerificationJob

namespace VerificationResult

/-- The result with the given fields. -/
def check (fields : Fields) : Checked VerificationResult :=
  VerificationResult.mk
    <$> fields.required "verified" Value.asBool
    <*> fields.optional "failures" (Value.asList (Value.asRecord FailureRecord.check)) []
    <*> fields.optional "raw_output" Value.asText ""
    <*> fields.required "file" Value.asText
    <*> fields.required "function_name" Value.asText

/-- The fields of a result. -/
def fields (result : VerificationResult) : Fields :=
  [("verified", .bool result.verified),
    ("failures", .list (result.failures.map fun f => .object f.fields)),
    ("raw_output", .text result.rawOutput), ("file", .text result.file),
    ("function_name", .text result.functionName)]

end VerificationResult

end Verification

namespace Report.Finding

/-- The finding with the given fields. -/
def check (fields : Fields) : Checked Finding :=
  Finding.mk
    <$> fields.required "rule_id" Value.asText
    <*> fields.required "message" Value.asText
    <*> fields.required "file" Value.asText
    <*> fields.required "line" (Value.asIntFrom 1)
    <*> fields.optional "column" (Value.asOption (Value.asIntFrom 1)) none

/-- The fields of a finding. -/
def fields (finding : Finding) : Fields :=
  [("rule_id", .text finding.ruleId), ("message", .text finding.message),
    ("file", .text finding.file), ("line", .natural finding.line),
    ("column", .option .natural finding.column)]

end Report.Finding

end ClarityDelta
