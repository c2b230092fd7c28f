import ClarityDelta.Change.Detect
import ClarityDelta.Config.Settings
import ClarityDelta.Files.Exclusion
import ClarityDelta.Report.Finding
import ClarityDelta.Report.Summary
import ClarityDelta.Verification.Plan
import ClarityDelta.Verification.Run

/-!
# Verification runs

A run finds the changed functions, plans a job for each, does the jobs and reports what failed. It
ends early when nothing has changed.
-/

namespace ClarityDelta.Pipeline

open Change Config Files Logging Report Source Verification

/-- How a run ends. -/
inductive Status where
  | success
  | failure
  | noChanges
  deriving DecidableEq, Repr

/-- The name of a status. -/
def Status.name : Status → String
  | success => "success"
  | failure => "failure"
  | noChanges => "no_changes"

/-- What a run came to. -/
structure Outcome where
  status : Status
  changed : List ChangedFunction
  jobs : List VerificationJob
  results : List VerificationResult
  findings : List Finding
  summary : String
  deriving DecidableEq, Repr

namespace Outcome

/-- The outcome when nothing has changed. -/
def noChanges : Outcome :=
  ⟨.noChanges, [], [], [], [], ""⟩

/-- The status that results give. -/
def statusOf (results : List VerificationResult) : Status :=
  if results.any (!·.verified) then .failure else .success

/-- The outcome that results give with their summary. -/
def ofResults (changed : List ChangedFunction) (jobs : List VerificationJob)
    (results : List VerificationResult) (summary : String) : Outcome :=
  ⟨statusOf results, changed, jobs, results, Finding.ofResults results, summary⟩

/-- Whether the outcome is a failure where failures count. -/
def shouldFail (outcome : Outcome) (failOnIssue : Bool) : Bool :=
  failOnIssue && outcome.status = .failure

end Outcome

/-- How parentheses are counted according to settings. -/
def scanningOf (scan : ScanSettings) : Scanning :=
  if scan.commentAwareParens then .commentAware else .raw

/-- The contracts that differ, less the excluded ones. -/
def collectFiles (c : Collaborators σ) (settings : Settings) : Action σ (List String) := do
  let modified ← c.modifiedFiles settings.baseRef settings.headRef settings.scan.contractsDir
  let files := withoutExcluded settings.scan.excludedContracts modified
  c.note (.info s!"发现 {files.length} 个变更的 Clarity 文件（排除前 {modified.length} 个）")
  return files

/-- Does the jobs for changed functions and reports. -/
def verifyChanged (c : Collaborators σ) (settings : Settings) (changed : List ChangedFunction) :
    Action σ Outcome := do
  let jobs ← planJobs c settings.checker.baselineFlags settings.checker.flags changed
  let results ← runJobs c jobs
  let findings := Finding.ofResults results
  c.note (.info (s!"验证完成: {results.length} 个函数，状态 {(Outcome.statusOf results).name}，"
    ++ s!"{findings.length} 条发现"))
  let summary ← Action.printing (Summary.text results)
  return Outcome.ofResults changed jobs results summary

/-- A verification run on the given files, or else on those that differ. -/
def run (c : Collaborators σ) (settings : Settings) (files : Option (List String)) :
    Action σ Outcome := do
  c.note (.info s!"开始 Clarity 合约验证: {settings.baseRef} -> {settings.headRef}")
  let targets ← match files with
    | some files => pure files
    | none => collectFiles c settings
  let changed ←
    changedFunctions c (scanningOf settings.scan) settings.baseRef settings.headRef targets
  if changed.isEmpty then
    c.note (.info "未检测到变更的 Clarity 函数")
    return .noChanges
  else verifyChanged c settings changed

end ClarityDelta.Pipeline
