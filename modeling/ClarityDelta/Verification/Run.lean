import ClarityDelta.Pipeline.Collaborators
import ClarityDelta.Verification.Verdict

/-!
# Running jobs

The jobs are done one after another. Whatever keeps the checker from giving its output fails only the
job at hand.
-/

namespace ClarityDelta.Verification

open Logging Pipeline Terminal

/-- The result of a job whose checker failed. -/
def executionError (job : VerificationJob) (fault : Fault) : VerificationResult where
  verified := false
  failures := [
    { functionName := job.functionName
      lineNumber := unknownLine
      title := "execution-error"
      failingCode := s!"ESBMC execution failed: {fault.message}" }]
  rawOutput := s!"Error: {fault.message}"
  file := job.file
  functionName := job.functionName

/-- What is noted about a result. -/
def resultNote (result : VerificationResult) : Note :=
  let status := if result.verified then "通过" else s!"失败（{result.failures.length} 条记录）"
  .info s!"验证{status}: {result.functionName}"

/-- The result that the checker's output gives for a job, or its failure. -/
def judge (c : Collaborators σ) (job : VerificationJob) :
    Except Fault String → Action σ VerificationResult
  | .error fault => do
    c.note (.error s!"ESBMC 执行失败 ({job.functionName}): {Markup.escape fault.message}")
    return executionError job fault
  | .ok output =>
    match verdict output job.file job.functionName with
    | .error long => throw (.longNumeral long)
    | .ok result => do
      c.note (resultNote result)
      return result

/-- Does a job. -/
def runJob (c : Collaborators σ) (job : VerificationJob) : Action σ VerificationResult := do
  c.note (.info s!"运行 ESBMC: 函数 {job.functionName} @ {job.file}")
  let outcome ← (c.check job.file job.artifact job.functionName job.flags).attempt
  judge c job outcome

/-- Does the jobs in order. -/
def runJobs (c : Collaborators σ) (jobs : List VerificationJob) :
    Action σ (List VerificationResult) :=
  jobs.mapM (runJob c)

end ClarityDelta.Verification
