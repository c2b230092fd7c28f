import ClarityDelta.Files.Path

/-!
# Membership in directories

Whether a file lies under a directory is decided on the texts of the paths alone, both being seen
from the current directory.
-/

namespace ClarityDelta.Files

open Text

/-- Whether a file lies under a directory: the way from there to the file does not begin with two
points. -/
def isUnder (current : Location) (file directory : String) : Bool :=
  match wayBetween (locate current directory) (locate current file) with
  | [] => true
  | part :: _ => !startsWith ['.', '.'] part.toList

/-- Whether a file lies under a directory, none when no file is named. -/
def isUnder? (current : Location) (file directory : String) : Option Bool :=
  if file.isEmpty then none else some (isUnder current file directory)

end ClarityDelta.Files
