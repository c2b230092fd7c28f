import ClarityDelta.Config.Settings
import ClarityDelta.Record.Fields

/-!
# Kinds of records

The records by the name of their kind: how one is read and written again, and which fields may be
set later. What passes from stage to stage is frozen: none of its fields may be set.
-/

namespace ClarityDelta.Record

open Data Config Verification

/-- A kind of record. -/
inductive RecordKind where
  | functionDefinition
  | changedFunction
  | failureRecord
  | verificationJob
  | verificationResult
  | finding
  | scanSettings
  | checkerSettings
  | reportSettings
  | logSettings
  deriving DecidableEq, Repr

/-- Why a field may not be set. -/
inductive SetFault where
  | frozen
  | unknownField (record field : String)
  deriving DecidableEq, Repr

namespace RecordKind

/-- All kinds. -/
def all : List RecordKind :=
  [functionDefinition, changedFunction, failureRecord, verificationJob, verificationResult, finding,
    scanSettings, checkerSettings, reportSettings, logSettings]

/-- The name of a kind. -/
def name : RecordKind → String
  | functionDefinition => "FunctionDefinition"
  | changedFunction => "ChangedFunction"
  | failureRecord => "FailureRecord"
  | verificationJob => "VerificationJob"
  | verificationResult => "VerificationResult"
  | finding => "Finding"
  | scanSettings => "ScanConfig"
  | checkerSettings => "CheckerConfig"
  | reportSettings => "ReportConfig"
  | logSettings => "LoggingConfig"

/-- The kind with the given name. -/
def ofName? (s : String) : Option RecordKind :=
  all.find? (·.name == s)

/-- Whether the fields of a record of the kind may not be set. -/
def isFrozen : RecordKind → Bool
  | functionDefinition | changedFunction | verificationJob | finding => true
  | _ => false

/-- All fields of the record with the given fields. -/
def complete (kind : RecordKind) (fields : Fields) : Checked Fields :=
  match kind with
  | functionDefinition => (Source.FunctionDefinition.check fields).map (·.fields)
  | changedFunction => (ChangedFunction.check fields).map (·.fields)
  | failureRecord => (FailureRecord.check fields).map (·.fields)
  | verificationJob => (VerificationJob.check fields).map (·.fields)
  | verificationResult => (VerificationResult.check fields).map (·.fields)
  | finding => (Report.Finding.check fields).map (·.fields)
  | scanSettings => (ScanSettings.check fields).map (·.fields)
  | checkerSettings => (CheckerSettings.check fields).map (·.fields)
  | reportSettings => (ReportSettings.check fields).map (·.fields)
  | logSettings => (LogSettings.check fields).map (·.fields)

/-- The fields of a record after one is set. -/
def assign (kind : RecordKind) (field : String) (value : Value) (fields : Fields) :
    Except SetFault Fields :=
  if kind.isFrozen then .error .frozen
  else if (fields.get? field).isNone then .error (.unknownField kind.name field)
  else .ok (fields.set field value)

end RecordKind

end ClarityDelta.Record
