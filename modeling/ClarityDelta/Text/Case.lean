/-!
# Letter case

Names are compared without regard to the case of their letters. Beside the ASCII letters, a few
other characters have one of them as their counterpart in the other case.
-/

namespace ClarityDelta.Text

/-- A text with its ASCII letters, and the Kelvin sign, in lower case. -/
def lowered (s : String) : String :=
  s.map fun c => if c = '\u212A' then 'k' else c.toLower

/-- A text with its ASCII letters, the dotless i and the long s in upper case. -/
def raised (s : String) : String :=
  s.map fun c => if c = '\u0131' then 'I' else if c = '\u017F' then 'S' else c.toUpper

end ClarityDelta.Text
