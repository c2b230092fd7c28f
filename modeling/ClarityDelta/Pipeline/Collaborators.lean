import ClarityDelta.Fault
import ClarityDelta.Logging.Level

/-!
# Collaborators

What a verification run asks of others: the files that differ between revisions and their contents,
the syntax trees, and the checker's output. They work on a state of their own, and any of them may
fail. A record of the requests can be kept beside the state.
-/

namespace ClarityDelta.Pipeline

open Logging

/-- Those whom a verification run asks, all working on one state. -/
structure Collaborators (σ : Type) where
  /-- Notes a message. -/
  note : Note → Action σ Unit
  /-- The contracts in some directories that differ between two revisions. -/
  modifiedFiles : (base head : String) → (directories : List String) → Action σ (List String)
  /-- The content of a file in a revision, if there is one. -/
  content : (revision path : String) → Action σ (Option String)
  /-- The artifact that holds the syntax tree of a contract, if there is one. -/
  artifact : (file : String) → Action σ (Option String)
  /-- What the checker prints for a function. -/
  check : (file artifact function flags : String) → Action σ String

/-- What may be asked, notes apart. -/
inductive Request where
  | modifiedFiles (base head : String) (directories : List String)
  | content (revision path : String)
  | artifact (file : String)
  | check (file artifact function flags : String)
  deriving DecidableEq, Repr

/-- An action on a state, with a record beside it that the action leaves alone. -/
def beside (action : Action σ α) : Action (σ × ρ) α := fun (state, record) =>
  match action state with
  | (outcome, state) => (outcome, (state, record))

/-- Puts a request on record. -/
def enter (request : Request) : Action (σ × List Request) Unit :=
  modify fun (state, record) => (state, record ++ [request])

/-- The collaborators, each request to whom is put on record before it is answered. -/
def Collaborators.recorded (c : Collaborators σ) : Collaborators (σ × List Request) where
  note message := beside (c.note message)
  modifiedFiles base head directories := do
    enter (.modifiedFiles base head directories)
    beside (c.modifiedFiles base head directories)
  content revision path := do
    enter (.content revision path)
    beside (c.content revision path)
  artifact file := do
    enter (.artifact file)
    beside (c.artifact file)
  check file artifact function flags := do
    enter (.check file artifact function flags)
    beside (c.check file artifact function flags)

end ClarityDelta.Pipeline
