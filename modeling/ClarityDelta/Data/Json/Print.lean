import ClarityDelta.Data.Value
import ClarityDelta.Text.Numeral

/-!
# JSON text

The JSON text of a value, either on one line or laid out with one item or field to a line. Only
quotes, backslashes and control characters are escaped. A document is not printed when one of its
numbers has too many digits.
-/

namespace ClarityDelta.Data.Json

open Text

/-- One character inside a JSON string. -/
def escapeChar (c : Char) : List Char :=
  match c with
  | '"' => ['\\', '"']
  | '\\' => ['\\', '\\']
  | '\n' => ['\\', 'n']
  | '\r' => ['\\', 'r']
  | '\t' => ['\\', 't']
  | c =>
    if c.toNat = 8 then ['\\', 'b']
    else if c.toNat = 12 then ['\\', 'f']
    else if c.toNat < 32 then '\\' :: 'u' :: hex 4 c.toNat
    else [c]

/-- A JSON string. -/
def quoted (s : String) : List Char :=
  '"' :: (s.toList.flatMap escapeChar ++ ['"'])

/-- The JSON text of a value that is neither a list nor an object. -/
def scalar : Value → List Char
  | .bool true => "true".toList
  | .bool false => "false".toList
  | .integer n => signedDecimal n
  | .decimal x => signedDecimal x.mantissa ++ 'e' :: signedDecimal x.exponent
  | .text s => quoted s
  | _ => "null".toList

mutual

/-- The JSON text of a value on one line. -/
def compact : Value → List Char
  | .list [] => ['[', ']']
  | .list (item :: items) => '[' :: (compact item ++ (compactItems items ++ [']']))
  | .object [] => ['{', '}']
  | .object ((name, value) :: fields) =>
    '{' :: (quoted name ++ ':' :: (compact value ++ (compactFields fields ++ ['}'])))
  | value => scalar value

/-- The items after the first. -/
def compactItems : List Value → List Char
  | [] => []
  | item :: items => ',' :: (compact item ++ compactItems items)

/-- The fields after the first. -/
def compactFields : List (String × Value) → List Char
  | [] => []
  | (name, value) :: fields =>
    ',' :: (quoted name ++ ':' :: (compact value ++ compactFields fields))

end

/-- A line end and the indentation of the given level, two blanks for each. -/
def newLine (level : Nat) : List Char :=
  '\n' :: List.replicate (2 * level) ' '

mutual

/-- The JSON text of a value laid out from the given level. -/
def pretty (level : Nat) : Value → List Char
  | .list [] => ['[', ']']
  | .list (item :: items) =>
    '[' :: (newLine (level + 1) ++ (pretty (level + 1) item
      ++ (prettyItems (level + 1) items ++ (newLine level ++ [']']))))
  | .object [] => ['{', '}']
  | .object ((name, value) :: fields) =>
    '{' :: (newLine (level + 1) ++ (quoted name ++ ':' :: ' ' :: (pretty (level + 1) value
      ++ (prettyFields (level + 1) fields ++ (newLine level ++ ['}'])))))
  | value => scalar value

/-- The items after the first, each on its own line. -/
def prettyItems (level : Nat) : List Value → List Char
  | [] => []
  | item :: items => ',' :: (newLine level ++ (pretty level item ++ prettyItems level items))

/-- The fields after the first, each on its own line. -/
def prettyFields (level : Nat) : List (String × Value) → List Char
  | [] => []
  | (name, value) :: fields =>
    ',' :: (newLine level ++ (quoted name ++ ':' :: ' ' :: (pretty level value
      ++ prettyFields level fields)))

end

mutual

/-- Fails at the first number of a value that has too many digits to be printed. -/
def checkNumbers : Value → Except LongNumeral Unit
  | .integer n => checkDigits n
  | .list items => checkItems items
  | .object fields => checkFields fields
  | _ => .ok ()

/-- Fails at the first number of the items that has too many digits. -/
def checkItems : List Value → Except LongNumeral Unit
  | [] => .ok ()
  | item :: items => do
    checkNumbers item
    checkItems items

/-- Fails at the first number of the fields that has too many digits. -/
def checkFields : List (String × Value) → Except LongNumeral Unit
  | [] => .ok ()
  | (_, value) :: fields => do
    checkNumbers value
    checkFields fields

end

/-- The laid out JSON text of a document. -/
def document (value : Value) : Except LongNumeral String := do
  checkNumbers value
  return String.ofList (pretty 0 value)

end ClarityDelta.Data.Json
