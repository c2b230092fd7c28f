import ClarityDelta.Text.Lines
import ClarityDelta.Text.Numeral

/-!
# Tags of YAML nodes

A tag tells what a node's text or items stand for. A plain scalar gets its tag from the form of its
text: words for truth and null, numbers in several bases, also in minutes and seconds, and dates.
-/

namespace ClarityDelta.Data.Yaml

open Text

/-- What a node stands for. -/
inductive Tag where
  | null
  | bool
  | int
  | float
  | timestamp
  | text
  | binary
  | sequence
  | mapping
  | pairs
  | set
  | merge
  | default
  | unknown
  deriving DecidableEq, Repr

namespace Tag

/-- The beginning of the full names of the known tags. -/
def standard : String := "tag:yaml.org,2002:"

/-- The known tags by what their names end in. -/
def names : List (String × Tag) :=
  [("null", null), ("bool", bool), ("int", int), ("float", float), ("timestamp", timestamp),
    ("str", text), ("binary", binary), ("seq", sequence), ("map", mapping), ("omap", pairs),
    ("pairs", pairs), ("set", set), ("merge", merge), ("value", default)]

/-- The tag with the given full name. -/
def ofName (name : String) : Tag :=
  (names.find? fun (ending, _) => standard ++ ending = name).elim unknown (·.2)

/-- A text without the sign at its beginning. -/
def unsigned : List Char → List Char
  | '+' :: rest => rest
  | '-' :: rest => rest
  | cs => cs

/-- Whether a text is digits and single lines, beginning with a digit. -/
def isDigits (cs : List Char) : Bool :=
  cs.head?.any Char.isDigit && cs.all fun c => c.isDigit || c = '_'

/-- Whether a text is one or two digits below sixty. -/
def isSixtieth : List Char → Bool
  | [a] => a.isDigit
  | [a, b] => '0' ≤ a && a ≤ '5' && b.isDigit
  | _ => false

/-- Whether a text is digits followed by sixtieths behind colons, at least one. -/
def isSexagesimal (cs : List Char) : Bool :=
  match splitAt ':' cs with
  | first :: second :: rest => isDigits first && (second :: rest).all isSixtieth
  | _ => false

/-- Whether a text is a whole number. -/
def isInt (cs : List Char) : Bool :=
  match unsigned cs with
  | '0' :: 'b' :: c :: rest => (c :: rest).all fun c => c = '0' || c = '1' || c = '_'
  | '0' :: 'x' :: c :: rest => (c :: rest).all fun c => (hexDigit? c).isSome || c = '_'
  | '0' :: rest => rest.all fun c => ('0' ≤ c && c ≤ '7') || c = '_'
  | digits => isDigits digits || isSexagesimal digits

/-- Whether a text is an exponent with its sign, or nothing. -/
def isExponent : List Char → Bool
  | [] => true
  | e :: sign :: c :: rest =>
    (e = 'e' || e = 'E') && (sign = '+' || sign = '-') && (c :: rest).all Char.isDigit
  | _ => false

/-- Whether a text is a number with a point. -/
def isFloat (cs : List Char) : Bool :=
  let digits := unsigned cs
  let whole := digits.takeWhile (· ≠ '.')
  match digits.dropWhile (· ≠ '.') with
  | [] => false
  | _ :: after =>
    let fraction := after.takeWhile fun c => c.isDigit || c = '_'
    let rest := after.dropWhile fun c => c.isDigit || c = '_'
    (isDigits whole && isExponent rest)
      || (whole.isEmpty && digits = cs && isDigits fraction && isExponent rest)
      || (isSexagesimal whole && rest.isEmpty)
      || (whole.isEmpty && ["inf", "Inf", "INF"].contains (String.ofList after))
      || (cs.head? = some '.' && ["nan", "NaN", "NAN"].contains (String.ofList after))

/-- One or two digits, and the rest. -/
def shortNumber? : List Char → Option (Nat × List Char)
  | a :: b :: rest =>
    if a.isDigit then
      if b.isDigit then some (natOfDigits [a, b], rest) else some (natOfDigits [a], b :: rest)
    else none
  | [a] => if a.isDigit then some (natOfDigits [a], []) else none
  | [] => none

/-- Two digits, and the rest. -/
def twoDigits? : List Char → Option (Nat × List Char)
  | a :: b :: rest => if a.isDigit && b.isDigit then some (natOfDigits [a, b], rest) else none
  | _ => none

/-- A date with or without a time of day, and an offset in minutes, as the numbers written. -/
structure Stamp where
  year : Nat
  month : Nat
  day : Nat
  time : Option (Nat × Nat × Nat)
  offset : Int

/-- The offset of a time of day in minutes. -/
def offset? (cs : List Char) : Option Int :=
  match cs.dropWhile fun c => c = ' ' || c = '\t' with
  | [] => if cs.isEmpty then some 0 else none
  | ['Z'] => some 0
  | sign :: rest =>
    if sign = '+' || sign = '-' then do
      let (hours, rest) ← shortNumber? rest
      let minutes ← match rest with
        | [] => some 0
        | ':' :: rest => do
          let (minutes, rest) ← twoDigits? rest
          if rest.isEmpty then some minutes else none
        | _ => none
      let total : Int := hours * 60 + minutes
      return if sign = '-' then -total else total
    else none

/-- The time of day, and the offset. -/
def time? (cs : List Char) : Option ((Nat × Nat × Nat) × Int) := do
  let (hour, rest) ← shortNumber? cs
  let (minute, rest) ← match rest with
    | ':' :: rest => twoDigits? rest
    | _ => none
  let (second, rest) ← match rest with
    | ':' :: rest => twoDigits? rest
    | _ => none
  let rest := match rest with
    | '.' :: rest => rest.dropWhile Char.isDigit
    | rest => rest
  return ((hour, minute, second), ← offset? rest)

/-- The date that a text writes. -/
def stamp? (cs : List Char) : Option Stamp := do
  let year := cs.take 4
  if year.length ≠ 4 || !year.all Char.isDigit then none
  let rest ← match cs.drop 4 with
    | '-' :: rest => some rest
    | _ => none
  let (month, rest) ← shortNumber? rest
  let rest ← match rest with
    | '-' :: rest => some rest
    | _ => none
  let (day, rest) ← shortNumber? rest
  match rest with
  | [] => return ⟨natOfDigits year, month, day, none, 0⟩
  | c :: more =>
    let timeText ←
      if c = 'T' || c = 't' then some more
      else if c = ' ' || c = '\t' then some (more.dropWhile fun c => c = ' ' || c = '\t')
      else none
    let (time, offset) ← time? timeText
    return ⟨natOfDigits year, month, day, some time, offset⟩

/-- Whether a plain text is a date: without a time of day, month and day have two digits. -/
def isTimestamp (cs : List Char) : Bool :=
  (stamp? cs).any fun stamp => stamp.time.isSome || cs.length = 10

/-- The tag of a plain scalar. -/
def ofPlain (s : String) : Tag :=
  let cs := s.toList
  if ["yes", "Yes", "YES", "no", "No", "NO", "true", "True", "TRUE", "false", "False", "FALSE",
      "on", "On", "ON", "off", "Off", "OFF"].contains s then bool
  else if isFloat cs then float
  else if isInt cs then int
  else if s = "<<" then merge
  else if ["", "~", "null", "Null", "NULL"].contains s then null
  else if isTimestamp cs then timestamp
  else if s = "=" then default
  else text

end Tag

end ClarityDelta.Data.Yaml
