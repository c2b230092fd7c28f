import ClarityDelta.Container.Runner
import ClarityDelta.Text.ShellWords
import ClarityDelta.Verification.Plan
import ClarityDelta.Verification.Verdict

/-!
# The checker in a container

The checker gets the contract, its artifact, the switches and the function to verify. It exits with 1
when it has found a violation, so what it printed counts then, if it says so.
-/

namespace ClarityDelta.Container

open Text Verification

/-- The checker: how it is run, and from which image. -/
structure Checker where
  runner : Runner
  image : Image
  deriving DecidableEq, Repr

namespace Checker

/-- The exit code of a checker that has found a violation. -/
def violationCode : Int := 1

/-- The arguments for a function. -/
def arguments (file artifact function flags : String) : Except Fault (List String) :=
  match ShellWords.split flags with
  | .error fault => .error (.shell fault)
  | .ok words =>
    .ok (["--clar", file, artifact, "--clar_contract", contractName file] ++ words
      ++ ["--function", function])

/-- What the checker printed, if its exit code lets it count. -/
def accept (output : Output) : Except Fault String :=
  if output.code = 0 then .ok output.out
  else if output.code = violationCode && contains output.out failureMarker then .ok output.out
  else
    let reason := if (trimmed output.err).isEmpty then trimmed output.out else trimmed output.err
    .error (.checker ⟨s!"ESBMC exited with code {output.code}: {reason}", some output.code, output.out⟩)

/-- What the checker prints for a function. -/
def check (checker : Checker) (file artifact function flags : String) : Work String := do
  let arguments ← ofExcept (arguments file artifact function flags)
  let output ← checker.runner.run checker.image arguments
  ofExcept (accept output)

end Checker

end ClarityDelta.Container
