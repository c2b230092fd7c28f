import ClarityDelta.Text.Numeral
import ClarityDelta.Text.Printable

/-!
# Quoted texts

A text in a message is put between single quotes, or between double quotes when it holds a single
quote and no double one. The quote in use and the backslash are escaped, and what is not printable
is shown by its code.
-/

namespace ClarityDelta.Text

/-- One character between the given quotes. -/
def quotedChar (quote c : Char) : List Char :=
  let n := c.toNat
  if c = quote ∨ c = '\\' then ['\\', c]
  else if c = '\n' then ['\\', 'n']
  else if c = '\r' then ['\\', 'r']
  else if c = '\t' then ['\\', 't']
  else if isPrintable c then [c]
  else if n < 0x100 then '\\' :: 'x' :: hex 2 n
  else if n < 0x10000 then '\\' :: 'u' :: hex 4 n
  else '\\' :: 'U' :: hex 8 n

/-- A text between quotes. -/
def quoted (s : String) : String :=
  let quote := if s.toList.contains '\'' && !s.toList.contains '"' then '"' else '\''
  String.ofList (quote :: (s.toList.flatMap (quotedChar quote) ++ [quote]))

/-- Texts between brackets, each of them quoted. -/
def quotedList (items : List String) : String :=
  "[" ++ ", ".intercalate (items.map quoted) ++ "]"

end ClarityDelta.Text
