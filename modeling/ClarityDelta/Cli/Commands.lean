import ClarityDelta.Cli.Arguments
import ClarityDelta.Container.Checker
import ClarityDelta.Container.TreeGenerator
import ClarityDelta.Logging.Setup
import ClarityDelta.Pipeline.Run
import ClarityDelta.Report.Write
import ClarityDelta.Revision.Repository

/-!
# Commands

The commands with what they show and their exit codes: 0 for success, 1 for failed verifications that
count, 2 for reports that could not be written and for misuse.
-/

namespace ClarityDelta.Cli

open Change Config Container Files Logging Pipeline Report Revision Source Terminal Text
  Verification

/-- The name of the program's logger. -/
def programLogger : String := "clarity_verify"

/-- The version of the program. -/
def programVersion : String := "0.1.0"

/-- Those who answer the requests of a run: the version control program, and containers that work in
the given directory. -/
def collaborators (settings : Settings) (root : String) : Collaborators Workspace :=
  let repository := Repository.usual root programLogger
  let checker := settings.checker
  let runner : Runner :=
    ⟨checker.dockerBin, root, checker.timeoutSeconds.map Int.ofNat, programLogger⟩
  let generator : TreeGenerator :=
    ⟨runner, ⟨checker.astContainerRepo, checker.containerVersion⟩, checker.reuseAst⟩
  let prover : Checker := ⟨runner, ⟨checker.containerRepo, checker.containerVersion⟩⟩
  { note := say programLogger
    modifiedFiles := repository.modifiedFiles
    content := repository.content
    artifact := generator.artifact
    check := prover.check }

/-- The line of a failure as a table shows it. -/
def lineCell (n : Int) : String :=
  if 0 < n then toString n.toNat else "?"

/-- The row of a failure. -/
def failureRow (failure : FailureRecord) : List Cell :=
  [.markup failure.functionName, .markup (lineCell failure.lineNumber), .markup failure.title,
    .markup (Rule.ofTitle failure.title).id, .plain failure.failingCode]

/-- The table of the failures of results. -/
def failureTable (results : List VerificationResult) : Shown :=
  .table "Verification failures" ["Function", "Line", "Title", "Rule", "Failing code"]
    (results.flatMap fun result => result.failures.map failureRow)

/-- The row of a changed function. -/
def changedRow (f : ChangedFunction) : List Cell :=
  [.markup f.file, .markup f.name, .markup f.kind.name, .markup f.changeType.name,
    .markup s!"{f.startLine}-{f.endLine}"]

/-- The table of changed functions between two revisions. -/
def changedTable (base head : String) (changed : List ChangedFunction) : Shown :=
  .table s!"Changed functions ({base} -> {head})" ["File", "Function", "Kind", "Change", "Lines"]
    (changed.map changedRow)

/-- The colour of a status. -/
def statusColor : Status → String
  | .success => "green"
  | .failure => "red"
  | .noChanges => "yellow"

/-- Shows the functions that differ between two revisions. -/
def detect (range : RangeOptions) : Work Nat := do
  let settings := (← load []).withRange range
  setUp programLogger (.ofSettings settings true)
  let c := collaborators settings settings.workspaceRoot
  let modified ← c.modifiedFiles settings.baseRef settings.headRef settings.scan.contractsDir
  let files := withoutExcluded settings.scan.excludedContracts modified
  let changed ←
    changedFunctions c (scanningOf settings.scan) settings.baseRef settings.headRef files
  if changed.isEmpty then Work.display (.markup "[yellow]未检测到变更的 Clarity 函数。[/yellow]")
  else Work.display (changedTable settings.baseRef settings.headRef changed)
  return 0

/-- Shows a result. -/
def displayResult (result : VerificationResult) (function : String) : Work Unit := do
  if result.verified then Work.display (.markup s!"[green]VERIFIED[/green] {function}")
  else
    Work.display (.markup
      s!"[red]FAILED[/red] {function}: {result.failures.length} failure(s)")
    if !result.failures.isEmpty then Work.display (failureTable [result])

/-- Writes the report of results. -/
def writeSarif (settings : Settings) (findings : List Finding) (path : String) : Work String := do
  let text ← Action.printing
    (Sarif.text findings settings.report.toolName settings.report.toolVersion)
  Report.write path text

/-- Shows the result of a saved output of the checker, and writes a report of it where asked to. -/
def parseOutput (output source function : String) (sarif : Option String) : Work Nat := do
  let files := (← get).files
  match files.reach output with
  | .error error => if error.isSystem then return 2 else throw (.file error)
  | .ok location =>
    match files.file? location with
    | none => return 2
    | some file =>
      let text := String.ofList (normalizeLineEnds (Utf8.decodeLossy file.content.toList))
      match verdict text source function with
      | .error long => throw (.longNumeral long)
      | .ok result =>
        displayResult result function
        match sarif with
        | none => return 0
        | some path =>
          let settings ← load []
          match ← (writeSarif settings (Finding.ofResult result) path).attempt with
          | .ok written =>
            Work.display (.markup s!"SARIF 已写入: {written}")
            return 0
          | .error fault =>
            if !fault.isOwn then throw fault
            Work.display (.markup s!"[red]{fault.message}[/red]")
            return 2

/-- The settings with what the command line says about a run. -/
def withRunOptions (settings : Settings) (options : RunOptions) : Settings :=
  let settings := settings.withRange options.range
  { settings with
    failOnIssue := options.failOnIssue.getD settings.failOnIssue
    checker := { settings.checker with
      flags := options.flags.getD settings.checker.flags }
    report := { settings.report with
      sarifPath := (nonEmpty? options.sarif).getD settings.report.sarifPath
      summaryPath := nonEmpty? options.summary <|> settings.report.summaryPath } }

/-- Writes the reports of an outcome, none when nothing has changed. -/
def writeReports (settings : Settings) (outcome : Outcome) : Work Unit := do
  if outcome.status ≠ .noChanges then
    let written ← writeSarif settings outcome.findings settings.report.sarifPath
    say programLogger (.info s!"SARIF 报告已写入: {written}")
    match nonEmpty? settings.report.summaryPath with
    | some path => discard (Report.write path outcome.summary)
    | none => pure ()

/-- Shows an outcome. -/
def displayOutcome (outcome : Outcome) : Work Unit := do
  if !outcome.summary.isEmpty then Work.display (.plain outcome.summary)
  let failed := outcome.results.filter (!·.verified)
  if !failed.isEmpty then Work.display (failureTable failed)
  let color := statusColor outcome.status
  Work.display (.markup s!"verification_status: [{color}]{outcome.status.name}[/{color}]")

/-- A verification run with its reports. -/
def runReported (settings : Settings) (root : String) (files : List String) : Work Outcome := do
  let outcome ← Pipeline.run (collaborators settings root) settings
    (if files.isEmpty then none else some files)
  writeReports settings outcome
  return outcome

/-- Verifies the functions that differ between two revisions, and reports. -/
def run (options : RunOptions) : Work Nat := do
  let settings := withRunOptions (← load []) options
  setUp programLogger (.ofSettings settings true)
  let root := locationText (locate (← get).files.current settings.workspaceRoot)
  match ← (runReported settings root options.files).attempt with
  | .error fault =>
    if !fault.isOwn then throw fault
    Work.display (.markup s!"[red]验证流程失败: {fault.message}[/red]")
    return 2
  | .ok outcome =>
    displayOutcome outcome
    return if outcome.shouldFail settings.failOnIssue then 1 else 0

/-- Does what a command line asks for: the exit code. -/
def perform : Request → Work Nat
  | .help => return 0
  | .misuse => return 2
  | .command .version => do
    Work.display (.plain programVersion)
    return 0
  | .command (.detect range) => detect range
  | .command (.parseOutput output source function sarif) => parseOutput output source function sarif
  | .command (.run options) => run options

/-- Carries out a command line: the exit code. -/
def carryOut (words : List String) : Work Nat :=
  perform (request false words)

end ClarityDelta.Cli
