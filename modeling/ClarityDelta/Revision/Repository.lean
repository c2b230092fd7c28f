import ClarityDelta.Files.Membership
import ClarityDelta.Logging.Write
import ClarityDelta.Text.Lines
import ClarityDelta.Verification.Plan

/-!
# Revisions in a repository

The version control program is asked for the content of a file in a revision and for the files that
differ between two revisions. When it does not answer, the content counts as absent and no file as
different.
-/

namespace ClarityDelta.Revision

open Files Logging Invocation Terminal Text Verification

/-- A repository: its root, the program that knows it, the time limit of a call in seconds, and the
logger that is told of what goes wrong. -/
structure Repository where
  root : String
  program : String
  limit : Option Int
  logger : String
  deriving DecidableEq, Repr

namespace Repository

/-- A repository that the usual program knows. -/
def usual (root logger : String) : Repository :=
  ⟨(Path.ofText root).text, "git", some 60, logger⟩

/-- Asks the program: its exit code, what it printed and what it complained of. -/
def ask (repository : Repository) (arguments : List String) : Work (Int × String × String) := do
  let call : Call := ⟨repository.program :: arguments, repository.root, repository.limit⟩
  match ← Work.call call with
  | .finished code out err => return (code, out, err)
  | .timedOut => return (1, "", s!"git_run_failed: TimeoutExpired: {call.overdue}")
  | .failed reason => return (1, "", s!"git_run_failed: OSError: {reason}")

/-- The content of a file in a revision, if there is one. -/
def content (repository : Repository) (revision path : String) : Work (Option String) := do
  let (code, out, err) ← repository.ask ["show", s!"{revision}:{path}"]
  if code = 0 then return some out
  say repository.logger
    (.warning s!"获取 {path}@{revision} 内容失败: {Markup.escape (trimmed err)}")
  return none

/-- The contracts of a list of files that lie under one of the directories. -/
def contractsUnder (current : Location) (directories : List String) (out : String) : List String :=
  ((listing out.toList).map fun line => String.ofList (trim line)).filter fun file =>
    endsWith contractSuffix.toList file.toList && directories.any (isUnder current file)

/-- The contracts under some directories that differ between two revisions. -/
def modifiedFiles (repository : Repository) (base head : String) (directories : List String) :
    Work (List String) := do
  let (code, out, err) ← repository.ask ["diff", "--name-only", base, head]
  if code = 0 then return contractsUnder (← get).files.current directories out
  say repository.logger (.error s!"获取变更文件列表失败: {Markup.escape (trimmed err)}")
  return []

end Repository

end ClarityDelta.Revision
