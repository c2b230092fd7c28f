import ClarityDelta.Config.ItemList
import ClarityDelta.Data.Checked

/-!
# Settings

All that can be set, in sections. Every field has a default, and a list field also takes a text with
its items.
-/

namespace ClarityDelta.Config

open Data

/-- Which contracts are looked at, and how their parentheses are counted. -/
structure ScanSettings where
  contractsDir : List String
  excludedContracts : List String
  commentAwareParens : Bool
  deriving DecidableEq, Repr

/-- How the checker and the generator of syntax trees are called. -/
structure CheckerSettings where
  baselineFlags : String
  flags : String
  containerRepo : String
  astContainerRepo : String
  containerVersion : String
  dockerBin : String
  reuseAst : Bool
  timeoutSeconds : Option Nat
  deriving DecidableEq, Repr

/-- Where reports go, and which tool they name. -/
structure ReportSettings where
  sarifPath : String
  summaryPath : Option String
  toolName : String
  toolVersion : String
  deriving DecidableEq, Repr

/-- What is logged, and where to. -/
structure LogSettings where
  logToConsole : Bool
  level : String
  filePath : String
  maxBytes : Nat
  backupCount : Nat
  logFormat : String
  dateFormat : String
  deriving DecidableEq, Repr

/-- All settings. -/
structure Settings where
  workspaceRoot : String
  baseRef : String
  headRef : String
  failOnIssue : Bool
  scan : ScanSettings
  checker : CheckerSettings
  report : ReportSettings
  logging : LogSettings
  deriving DecidableEq, Repr

/-- The switches that every call of the checker gets before those of the user. -/
def defaultBaselineFlags : String :=
  "--force-malloc-success --k-induction --max-k-step 6 --unwind 200 "
    ++ "--no-bounds-check --array-flattener --no-unlimited-scanf-check "
    ++ "--no-unwinding-assertions --multi-property"

/-- A list of texts, given as a list or as one text. -/
def asItems : Value → Checked (List String)
  | .text s => .valid (itemList s)
  | v => v.asList Value.asText

namespace ScanSettings

/-- The section with the given fields. -/
def check (fields : Fields) : Checked ScanSettings :=
  ScanSettings.mk
    <$> fields.optional "contracts_dir" asItems ["./"]
    <*> fields.optional "excluded_contracts" asItems []
    <*> fields.optional "comment_aware_parens" Value.asBool false

/-- The fields of the section. -/
def fields (scan : ScanSettings) : Fields :=
  [("contracts_dir", .texts scan.contractsDir),
    ("excluded_contracts", .texts scan.excludedContracts),
    ("comment_aware_parens", .bool scan.commentAwareParens)]

end ScanSettings

namespace CheckerSettings

/-- The section with the given fields. -/
def check (fields : Fields) : Checked CheckerSettings :=
  CheckerSettings.mk
    <$> fields.optional "baseline_flags" Value.asText defaultBaselineFlags
    <*> fields.optional "flags" Value.asText "--verbose"
    <*> fields.optional "container_repo" Value.asText "ghcr.io/companyx/clarity-esbmc"
    <*> fields.optional "ast_container_repo" Value.asText "ghcr.io/companyx/clarity-ast-generator"
    <*> fields.optional "container_version" Value.asText "v1.0.0"
    <*> fields.optional "docker_bin" Value.asText "docker"
    <*> fields.optional "reuse_ast" Value.asBool false
    <*> fields.optional "timeout_s" (Value.asOption (Value.asIntFrom 1)) none

/-- The fields of the section. -/
def fields (checker : CheckerSettings) : Fields :=
  [("baseline_flags", .text checker.baselineFlags),
    ("flags", .text checker.flags),
    ("container_repo", .text checker.containerRepo),
    ("ast_container_repo", .text checker.astContainerRepo),
    ("container_version", .text checker.containerVersion),
    ("docker_bin", .text checker.dockerBin),
    ("reuse_ast", .bool checker.reuseAst),
    ("timeout_s", .option .natural checker.timeoutSeconds)]

end CheckerSettings

namespace ReportSettings

/-- The section with the given fields. -/
def check (fields : Fields) : Checked ReportSettings :=
  ReportSettings.mk
    <$> fields.optional "sarif_path" Value.asText "results.sarif"
    <*> fields.optional "summary_path" (Value.asOption Value.asText) none
    <*> fields.optional "tool_name" Value.asText "ESBMC Clarity Formal Verification"
    <*> fields.optional "tool_version" Value.asText "1.0.0"

/-- The fields of the section. -/
def fields (report : ReportSettings) : Fields :=
  [("sarif_path", .text report.sarifPath),
    ("summary_path", .option .text report.summaryPath),
    ("tool_name", .text report.toolName),
    ("tool_version", .text report.toolVersion)]

end ReportSettings

namespace LogSettings

/-- The section with the given fields. -/
def check (fields : Fields) : Checked LogSettings :=
  LogSettings.mk
    <$> fields.optional "log_to_console" Value.asBool true
    <*> fields.optional "level" Value.asText "INFO"
    <*> fields.optional "file_path" Value.asText ".clarity-verify/logs/app.log"
    <*> fields.optional "max_bytes" (Value.asIntFrom 1024) 10485760
    <*> fields.optional "backup_count" (Value.asIntFrom 0) 5
    <*> fields.optional "log_format" Value.asText
      "%(asctime)s - %(name)s - %(levelname)s - %(message)s"
    <*> fields.optional "date_format" Value.asText "%Y-%m-%d %H:%M:%S"

/-- The fields of the section. -/
def fields (logging : LogSettings) : Fields :=
  [("log_to_console", .bool logging.logToConsole),
    ("level", .text logging.level),
    ("file_path", .text logging.filePath),
    ("max_bytes", .natural logging.maxBytes),
    ("backup_count", .natural logging.backupCount),
    ("log_format", .text logging.logFormat),
    ("date_format", .text logging.dateFormat)]

end LogSettings

namespace Settings

/-- A section, which is empty where it is not given. -/
def part (name : String) (check : Fields → Checked α) (fields : Fields) : Checked α :=
  Checked.within (.field name) <| Value.asRecord check ((fields.get? name).getD (.object []))

/-- The settings with the given fields. -/
def check (fields : Fields) : Checked Settings :=
  Settings.mk
    <$> fields.optional "workspace_root" Value.asText "."
    <*> fields.optional "base_ref" Value.asText "main"
    <*> fields.optional "head_ref" Value.asText "HEAD"
    <*> fields.optional "fail_on_issue" Value.asBool true
    <*> part "scan" ScanSettings.check fields
    <*> part "checker" CheckerSettings.check fields
    <*> part "report" ReportSettings.check fields
    <*> part "logging" LogSettings.check fields

/-- The fields of the settings. -/
def fields (settings : Settings) : Fields :=
  [("workspace_root", .text settings.workspaceRoot),
    ("base_ref", .text settings.baseRef),
    ("head_ref", .text settings.headRef),
    ("fail_on_issue", .bool settings.failOnIssue),
    ("scan", .object settings.scan.fields),
    ("checker", .object settings.checker.fields),
    ("report", .object settings.report.fields),
    ("logging", .object settings.logging.fields)]

end Settings

end ClarityDelta.Config
