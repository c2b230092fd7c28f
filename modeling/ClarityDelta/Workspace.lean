import ClarityDelta.Fault
import ClarityDelta.Files.Work
import ClarityDelta.Logging.Logger
import ClarityDelta.Invocation.Call
import ClarityDelta.Terminal.Shown

/-!
# The workspace

All that actions work on: the file tree, the environment, the other programs, the loggers and the
terminal. What the other programs answer may depend on all calls so far.
-/

namespace ClarityDelta

open Files Logging Invocation

/-- All that actions work on. -/
structure Workspace where
  files : FileTree
  environment : List (String × String)
  answer : List Call → Call → Answer
  calls : List Call
  loggers : Registry
  console : List String
  shown : List Terminal.Shown

/-- An action on the workspace. -/
abbrev Work := Action Workspace

namespace Work

/-- A file operation on the workspace's file tree. -/
def files (work : FileWork α) : Work α := fun workspace =>
  match work workspace.files with
  | (.ok a, files) => (.ok a, { workspace with files })
  | (.error error, files) => (.error (.file error), { workspace with files })

/-- The outcome of a file operation on the workspace's file tree. -/
def tryFiles (work : FileWork α) : Work (Except FileError α) := fun workspace =>
  match work workspace.files with
  | (outcome, files) => (.ok outcome, { workspace with files })

/-- Calls another program. -/
def call (call : Call) : Work Answer := fun workspace =>
  (.ok (workspace.answer workspace.calls call),
    { workspace with calls := workspace.calls ++ [call] })

/-- Shows something on the terminal. -/
def display (shown : Terminal.Shown) : Work Unit :=
  modify fun workspace => { workspace with shown := workspace.shown ++ [shown] }

/-- Changes one of the loggers. -/
def updateLogger (name : String) (change : Logger → Logger) : Work Unit :=
  modify fun workspace => { workspace with loggers := workspace.loggers.update name change }

end Work

end ClarityDelta
