import ClarityDelta.Data.Value
import ClarityDelta.Text.Numeral
import ClarityDelta.Text.Search

/-!
# Reading JSON

A JSON text is read into a value. Beside the standard's numbers, `NaN`, `Infinity` and `-Infinity`
are read; of two fields with one name the later counts; a control character inside a string is refused,
and so is a whole number with more digits than a limit, which is `Text.maxDigits` unless told otherwise.
-/

namespace ClarityDelta.Data.Json

open Text

/-- What follows the blanks of JSON. -/
def skipBlanks (cs : List Char) : List Char :=
  cs.dropWhile fun c => c == ' ' || c == '\t' || c == '\n' || c == '\r'

/-- The code of four hexadecimal digits. -/
def unit? (a b c d : Char) : Option Nat := do
  return ((← hexDigit? a) * 16 + (← hexDigit? b)) * 256 + ((← hexDigit? c) * 16 + (← hexDigit? d))

/-- The code that a backslash and a letter stand for. -/
def escapedCode? : Char → Option Nat
  | '"' => some 34
  | '\\' => some 92
  | '/' => some 47
  | 'b' => some 8
  | 'f' => some 12
  | 'n' => some 10
  | 'r' => some 13
  | 't' => some 9
  | _ => none

/-- The codes in a string, after its opening quote, and what follows the closing one. -/
def codes? : List Char → Option (List Nat × List Char)
  | [] => none
  | '"' :: cs => some ([], cs)
  | '\\' :: 'u' :: a :: b :: c :: d :: cs => do
    let code ← unit? a b c d
    let (codes, rest) ← codes? cs
    return (code :: codes, rest)
  | '\\' :: e :: cs => do
    let code ← escapedCode? e
    let (codes, rest) ← codes? cs
    return (code :: codes, rest)
  | c :: cs =>
    if c.toNat < 32 then none
    else do
      let (codes, rest) ← codes? cs
      return (c.toNat :: codes, rest)

/-- The characters of a list of codes: a high and a low surrogate are one character, and a surrogate
that stands alone is shown as U+FFFD. -/
def ofCodes : List Nat → List Char
  | [] => []
  | [code] => [if code.isValidChar then Char.ofNat code else Char.ofNat 0xFFFD]
  | high :: low :: codes =>
    if 0xD800 ≤ high ∧ high < 0xDC00 ∧ 0xDC00 ≤ low ∧ low < 0xE000 then
      Char.ofNat (0x10000 + (high - 0xD800) * 0x400 + (low - 0xDC00)) :: ofCodes codes
    else
      (if high.isValidChar then Char.ofNat high else Char.ofNat 0xFFFD) :: ofCodes (low :: codes)

/-- A string, after its opening quote. -/
def string? (cs : List Char) : Option (String × List Char) :=
  (codes? cs).map fun (codes, rest) => (String.ofList (ofCodes codes), rest)

/-- A decimal digit of JSON. -/
def isAsciiDigit (c : Char) : Bool :=
  '0' ≤ c && c ≤ '9'

/-- The run of digits at the beginning of a text and what follows it. -/
def digitRun (cs : List Char) : List Char × List Char :=
  (cs.takeWhile isAsciiDigit, cs.dropWhile isAsciiDigit)

/-- The digits of a whole number, which does not begin with a superfluous zero. -/
def wholeDigits? (cs : List Char) : Option (List Char × List Char) :=
  match cs with
  | '0' :: rest => some (['0'], rest)
  | c :: _ => if isAsciiDigit c then some (digitRun cs) else none
  | [] => none

/-- The digits after a point, if a point and a digit follow. -/
def fraction (cs : List Char) : List Char × List Char :=
  match cs with
  | '.' :: rest =>
    match digitRun rest with
    | ([], _) => ([], cs)
    | found => found
  | _ => ([], cs)

/-- The exponent, if one follows. -/
def exponent? (cs : List Char) : Option Int × List Char :=
  let signed (sign : Int) (rest : List Char) : Option Int × List Char :=
    match digitRun rest with
    | ([], _) => (none, cs)
    | (digits, rest) => (some (sign * natOfDigits digits), rest)
  match cs with
  | 'e' :: '-' :: rest | 'E' :: '-' :: rest => signed (-1) rest
  | 'e' :: '+' :: rest | 'E' :: '+' :: rest => signed 1 rest
  | 'e' :: rest | 'E' :: rest => signed 1 rest
  | _ => (none, cs)

/-- A number without its sign, negated when `negative` is set. -/
def number? (limit : Option Nat) (negative : Bool) (cs : List Char) :
    Option (Value × List Char) := do
  let (whole, rest) ← wholeDigits? cs
  let (places, rest) := fraction rest
  let (exponent, rest) := exponent? rest
  let size : Int := natOfDigits (whole ++ places)
  let mantissa := if negative then -size else size
  match places, exponent with
  | [], none => if limit.all (whole.length ≤ ·) then some (.integer mantissa, rest) else none
  | places, exponent => some (.decimal ⟨mantissa, exponent.getD 0 - places.length⟩, rest)

/-- A word or a number. -/
def word? (limit : Option Nat) (cs : List Char) : Option (Value × List Char) :=
  let words : List (String × Value) :=
    [("null", .null), ("true", .bool true), ("false", .bool false), ("NaN", .other),
     ("Infinity", .other), ("-Infinity", .other)]
  match words.findSome? fun (word, value) => (after? word.toList cs).map fun rest => (value, rest) with
  | some found => some found
  | none =>
    match cs with
    | '-' :: rest => number? limit true rest
    | cs => number? limit false cs

mutual

/-- The value at the beginning of a text and what follows it. The number bounds the nesting and the
number of items; the length of the text is enough. -/
def value? (limit : Option Nat) : Nat → List Char → Option (Value × List Char)
  | 0, _ => none
  | fuel + 1, cs =>
    match cs with
    | '"' :: rest => (string? rest).map fun (s, rest) => (.text s, rest)
    | '[' :: rest =>
      match skipBlanks rest with
      | ']' :: rest => some (.list [], rest)
      | rest => (items? limit fuel rest).map fun (items, rest) => (.list items, rest)
    | '{' :: rest =>
      match skipBlanks rest with
      | '}' :: rest => some (.object [], rest)
      | rest =>
        (fields? limit fuel rest).map fun (fields, rest) => (.object (Fields.ofList fields), rest)
    | cs => word? limit cs

/-- The items of a list up to its closing bracket, at least one. -/
def items? (limit : Option Nat) : Nat → List Char → Option (List Value × List Char)
  | 0, _ => none
  | fuel + 1, cs => do
    let (item, rest) ← value? limit fuel cs
    match skipBlanks rest with
    | ']' :: rest => return ([item], rest)
    | ',' :: rest =>
      let (items, rest) ← items? limit fuel (skipBlanks rest)
      return (item :: items, rest)
    | _ => none

/-- The fields of an object up to its closing brace, at least one. -/
def fields? (limit : Option Nat) : Nat → List Char → Option (List (String × Value) × List Char)
  | 0, _ => none
  | fuel + 1, cs => do
    let '"' :: rest := cs | none
    let (name, rest) ← string? rest
    let ':' :: rest := skipBlanks rest | none
    let (value, rest) ← value? limit fuel (skipBlanks rest)
    match skipBlanks rest with
    | '}' :: rest => return ([(name, value)], rest)
    | ',' :: rest =>
      let (fields, rest) ← fields? limit fuel (skipBlanks rest)
      return ((name, value) :: fields, rest)
    | _ => none

end

/-- The value that a whole text holds, whose whole numbers may have as many digits as the limit says. -/
def readWithin? (limit : Option Nat) (s : String) : Option Value := do
  let cs := skipBlanks s.toList
  let (value, rest) ← value? limit (2 * cs.length + 2) cs
  if (skipBlanks rest).isEmpty then some value else none

/-- The value that a whole text holds. -/
def read? (s : String) : Option Value :=
  readWithin? (some maxDigits) s

end ClarityDelta.Data.Json
