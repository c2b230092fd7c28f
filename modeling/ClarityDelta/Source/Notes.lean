import ClarityDelta.Logging.Level
import ClarityDelta.Source.Definition

/-!
# Notes on definitions

What is noted while the definitions of a contract are found: a definition left open, and their
number.
-/

namespace ClarityDelta.Source

open Logging

/-- The notes on the definitions of a contract text. -/
def definitionNotes (scanning : Scanning) (file content : String) : List Note :=
  let found := scan scanning content
  ((unclosed? found).map fun span => Note.warning (unclosedNotice file span)).toList
    ++ [Note.debug (countNotice file found.length)]

end ClarityDelta.Source
