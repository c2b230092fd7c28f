import ClarityDelta.Text.Blank
import ClarityDelta.Text.Lines

/-!
# Lists given as one text

A list option may be written as one text, its items set apart by commas or line ends.
-/

namespace ClarityDelta.Config

open Text

/-- The items of a text: trimmed, and without those that are empty then. -/
def itemList (s : String) : List String :=
  (splitAt ',' (s.toList.map fun c => if c = '\n' then ',' else c)).filterMap fun item =>
    if isBlankText item then none else some (String.ofList (trim item))

end ClarityDelta.Config
