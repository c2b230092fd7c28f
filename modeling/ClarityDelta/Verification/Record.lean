/-!
# Jobs, failures and results

A job is one call of the checker for one function. Its result is either a verification or the list
of what failed.
-/

namespace ClarityDelta.Verification

/-- The line number that stands for an unknown line. -/
def unknownLine : Int := -1

/-- A failed property: its title names the kind of property, its code is the failing expression. -/
structure FailureRecord where
  functionName : String
  lineNumber : Int
  title : String
  failingCode : String
  deriving DecidableEq, Repr

/-- One call of the checker: the function of a file, the artifact that holds the file's syntax tree
and the switches, baseline switches first. -/
structure VerificationJob where
  file : String
  functionName : String
  contractName : String
  artifact : String
  flags : String
  deriving DecidableEq, Repr

/-- What a job came to. -/
structure VerificationResult where
  verified : Bool
  failures : List FailureRecord
  rawOutput : String
  file : String
  functionName : String
  deriving DecidableEq, Repr

end ClarityDelta.Verification
