/-!
# Rules

Every failure belongs to one rule, which its title selects. Titles that are not listed belong to the
rule for unknown errors.
-/

namespace ClarityDelta.Report

/-- A kind of failure. -/
inductive Rule where
  | assertion
  | overflow
  | underflow
  | divisionByZero
  | executionError
  | unknownError
  deriving DecidableEq, Repr

namespace Rule

/-- All rules, in the order in which a report lists them. -/
def all : List Rule :=
  [assertion, overflow, underflow, divisionByZero, executionError, unknownError]

/-- The identifier of a rule. -/
def id : Rule → String
  | assertion => "clarity-verify-assertion"
  | overflow => "clarity-verify-overflow"
  | underflow => "clarity-verify-underflow"
  | divisionByZero => "clarity-verify-division-by-zero"
  | executionError => "clarity-verify-execution-error"
  | unknownError => "clarity-verify-unknown-error"

/-- A rule in one phrase. -/
def shortDescription : Rule → String
  | assertion => "Assertion failure in Clarity contract"
  | overflow => "Arithmetic overflow in Clarity contract"
  | underflow => "Arithmetic underflow in Clarity contract"
  | divisionByZero => "Division by zero in Clarity contract"
  | executionError => "Execution error in Clarity contract"
  | unknownError => "Unknown error in Clarity contract"

/-- A rule in one sentence. -/
def helpText : Rule → String
  | assertion => "An assertion in the Clarity contract failed during formal verification."
  | overflow => "An arithmetic operation in the Clarity contract may cause an overflow."
  | underflow => "An arithmetic operation in the Clarity contract may cause an underflow."
  | divisionByZero =>
    "A division operation in the Clarity contract may cause a division by zero."
  | executionError => "An error occurred during the execution of the Clarity contract."
  | unknownError => "An unknown error occurred during the verification of the Clarity contract."

/-- The rule that a failure's title selects. -/
def ofTitle : String → Rule
  | "assertion" => assertion
  | "arithmetic overflow" => overflow
  | "arithmetic underflow" => underflow
  | "division by zero" => divisionByZero
  | "execution-error" => executionError
  | _ => unknownError

/-- Every rule is listed. -/
theorem mem_all (rule : Rule) : rule ∈ all := by
  cases rule <;> decide

end Rule

end ClarityDelta.Report
