import ClarityDelta.Report.Rule
import ClarityDelta.Verification.Record

/-!
# Findings

A finding is a failure as a report shows it: with the rule it belongs to and a place in a file.
-/

namespace ClarityDelta.Report

open Verification

/-- A reported failure. Lines and columns count from 1. -/
structure Finding where
  ruleId : String
  message : String
  file : String
  line : Nat
  column : Option Nat
  deriving DecidableEq, Repr

namespace Finding

/-- The line that a failure is shown at: the first one when its own is unknown. -/
def lineOf (n : Int) : Nat :=
  if 0 < n then n.toNat else 1

/-- The finding that a failure in a file makes. -/
def ofFailure (file : String) (failure : FailureRecord) : Finding where
  ruleId := (Rule.ofTitle failure.title).id
  message := s!"Verification failed in function '{failure.functionName}': {failure.failingCode}"
  file := file
  line := lineOf failure.lineNumber
  column := some 1

/-- The findings of a result: one for each failure, none when the function is verified. -/
def ofResult (result : VerificationResult) : List Finding :=
  if result.verified then [] else result.failures.map (ofFailure result.file)

/-- The findings of all results, in order. -/
def ofResults (results : List VerificationResult) : List Finding :=
  results.flatMap ofResult

end Finding

end ClarityDelta.Report
