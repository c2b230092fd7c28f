import ClarityDelta.Text.Quoted

/-!
# Calls of other programs

A call of another program: its command line, the directory it runs in and its time limit. It ends
with an exit code and what was printed, or does not end in time, or cannot be made at all.
-/

namespace ClarityDelta.Invocation

open Text

/-- A call of another program. Its limit is in seconds. -/
structure Call where
  command : List String
  directory : String
  limit : Option Int
  deriving DecidableEq, Repr

/-- What a call comes to. -/
inductive Answer where
  | finished (code : Int) (out err : String)
  | timedOut
  | failed (reason : String)
  deriving DecidableEq, Repr

/-- A time limit as text. -/
def limitText (limit : Option Int) : String :=
  match limit with
  | some n => toString n
  | none => "None"

/-- What is told of a call that did not end in time. -/
def Call.overdue (call : Call) : String :=
  s!"Command '{quotedList call.command}' timed out after {limitText call.limit} seconds"

end ClarityDelta.Invocation
