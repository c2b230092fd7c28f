import ClarityDelta.Data.Value
import ClarityDelta.Data.Yaml.Node
import ClarityDelta.Text.Quoted

/-!
# YAML documents

The value of the one document of a text. Of several pairs with one key the last one counts, and a
merge key takes over the pairs of other mappings where they are not given.
-/

namespace ClarityDelta.Data.Yaml

open Text

/-- Why a scalar does not have the value that its tag asks for. -/
inductive ScalarFault where
  | badInteger (base : Nat) (text : String)
  | badNumber (text : String)
  | emptyNumber
  | badBoolean (word : String)
  | longInteger (numeral : LongNumeral)
  | noDate
  | yearRange (year : Nat)
  | monthRange
  | dayRange
  | hourRange
  | minuteRange
  | secondRange
  | offsetRange (minutes : Int)
  | noCharacter
  deriving DecidableEq, Repr

/-- A length of time in days and seconds, of which those that are zero are left out. -/
def spanText (minutes : Int) : String :=
  let days := minutes.fdiv 1440
  let seconds := minutes.fmod 1440 * 60
  let part (name : String) (n : Int) : List String :=
    if n = 0 then [] else [name ++ "=" ++ String.ofList (signedDecimal n)]
  "datetime.timedelta(" ++ ", ".intercalate (part "days" days ++ part "seconds" seconds) ++ ")"

/-- The fault in words. -/
def ScalarFault.message : ScalarFault → String
  | badInteger base text => s!"invalid literal for int() with base {base}: {quoted text}"
  | badNumber text => s!"could not convert string to float: {quoted text}"
  | emptyNumber => "string index out of range"
  | badBoolean word => quoted word
  | longInteger numeral => numeral.message
  | noDate => "'NoneType' object has no attribute 'groupdict'"
  | yearRange year => s!"year {year} is out of range"
  | monthRange => "month must be in 1..12"
  | dayRange => "day is out of range for month"
  | hourRange => "hour must be in 0..23"
  | minuteRange => "minute must be in 0..59"
  | secondRange => "second must be in 0..59"
  | offsetRange minutes =>
    "offset must be a timedelta strictly between -timedelta(hours=24) and timedelta(hours=24), not "
      ++ spanText minutes ++ "."
  | noCharacter => "chr() arg not in range(0x110000)"

/-- Why a text has no value. -/
inductive Fault where
  | illFormed
  | scalar (fault : ScalarFault)
  deriving DecidableEq, Repr

/-- The fault of a text whose notation is not read. -/
def Fault.ofMalformed : Malformed → Fault
  | .illFormed => .illFormed
  | .noCharacter => .scalar .noCharacter

/-- The number with a sign that digits in a base write. -/
def integerIn (base : Nat) (negative : Bool) (digits : List Char) : Except ScalarFault Value :=
  let values := digits.filterMap fun c => (hexDigit? c).filter (· < base)
  if values.isEmpty || values.length ≠ digits.length then
    .error (.badInteger base (String.ofList digits))
  else
    let n : Int := ofDigits base values
    .ok (.integer (if negative then -n else n))

/-- The decimal number that a text of digits writes. -/
def decimalInteger (digits : List Char) : Except ScalarFault Int :=
  if digits.isEmpty || !digits.all Char.isDigit then
    .error (.badInteger 10 (String.ofList digits))
  else
    match numeral digits with
    | .ok n => .ok n
    | .error long => .error (.longInteger long)

/-- A text without single lines, as its sign and the rest. -/
def signAndRest (s : String) : Bool × List Char :=
  let cs := s.toList.filter (· ≠ '_')
  (cs.head? = some '-', Tag.unsigned cs)

/-- The whole number that a text writes. -/
def integer (s : String) : Except ScalarFault Value := do
  let (negative, digits) := signAndRest s
  let signed (n : Int) : Value := .integer (if negative then -n else n)
  match digits with
  | [] => throw .emptyNumber
  | ['0'] => return .integer 0
  | '0' :: 'b' :: rest => integerIn 2 negative rest
  | '0' :: 'x' :: rest => integerIn 16 negative rest
  | '0' :: rest => integerIn 8 negative ('0' :: rest)
  | digits =>
    let parts ← (splitAt ':' digits).mapM decimalInteger
    return signed (parts.foldl (fun n part => n * 60 + part) 0)

/-- The number that a text with a point or an exponent writes. -/
def decimalNumber? (cs : List Char) : Option Decimal :=
  let whole := cs.takeWhile Char.isDigit
  let rest := cs.dropWhile Char.isDigit
  let (fraction, rest) := match rest with
    | '.' :: more => (more.takeWhile Char.isDigit, more.dropWhile Char.isDigit)
    | _ => ([], rest)
  let exponent? : Option Int := match rest with
    | [] => some 0
    | e :: rest =>
      let digits := Tag.unsigned rest
      if (e = 'e' || e = 'E') && !digits.isEmpty && digits.all Char.isDigit then
        some (if rest.head? = some '-' then -(natOfDigits digits : Int) else natOfDigits digits)
      else none
  if (whole ++ fraction).isEmpty then none
  else exponent?.map fun exponent =>
    ⟨natOfDigits (whole ++ fraction), exponent - fraction.length⟩

/-- The number with a point that a text writes. Infinite ones have no use. -/
def number (s : String) : Except ScalarFault Value := do
  let (negative, digits) := signAndRest s
  let lower := digits.map Char.toLower
  let signed (x : Decimal) : Value :=
    .decimal (if negative then ⟨-x.mantissa, x.exponent⟩ else x)
  if lower.isEmpty then throw .emptyNumber
  if lower = ".inf".toList || lower = ".nan".toList then return .other
  let parts ← (splitAt ':' lower).mapM fun part =>
    match decimalNumber? part with
    | some x => .ok x
    | none => .error (ScalarFault.badNumber (String.ofList part))
  let least := (parts.map (·.exponent)).foldl min 0
  let mantissa (x : Decimal) : Int := x.mantissa * Nat.pow 10 (x.exponent - least).toNat
  match parts with
  | [x] => return signed x
  | parts => return signed ⟨parts.foldl (fun n part => n * 60 + mantissa part) 0, least⟩

/-- The number of days of a month. -/
def daysOfMonth (year month : Nat) : Nat :=
  if month = 2 then
    (if year % 4 = 0 && (year % 100 ≠ 0 || year % 400 = 0) then 29 else 28)
  else if [4, 6, 9, 11].contains month then 30
  else 31

/-- Checks that a date is one of the calendar. Dates have no use beyond that. -/
def date (s : String) : Except ScalarFault Value := do
  match Tag.stamp? s.toList with
  | none => throw .noDate
  | some stamp =>
    if stamp.offset.natAbs ≥ 1440 then throw (.offsetRange stamp.offset)
    if stamp.year = 0 then throw (.yearRange 0)
    if stamp.month = 0 || stamp.month > 12 then throw .monthRange
    if stamp.day = 0 || stamp.day > daysOfMonth stamp.year stamp.month then throw .dayRange
    match stamp.time with
    | none => return .other
    | some (hour, minute, second) =>
      if hour > 23 then throw .hourRange
      if minute > 59 then throw .minuteRange
      if second > 59 then throw .secondRange
      return .other

/-- The truth that a word stands for. -/
def truth (s : String) : Except ScalarFault Value :=
  let word := s.map Char.toLower
  if ["yes", "true", "on"].contains word then .ok (.bool true)
  else if ["no", "false", "off"].contains word then .ok (.bool false)
  else .error (.badBoolean word)

/-- The value of a scalar. -/
def scalarValue (tag : Tag) (s : String) : Except Fault Value :=
  let lift (x : Except ScalarFault Value) : Except Fault Value := x.mapError .scalar
  match tag with
  | .null => .ok .null
  | .bool => lift (truth s)
  | .int => lift (integer s)
  | .float => lift (number s)
  | .timestamp => lift (date s)
  | .text => .ok (.text s)
  | .binary => .ok .other
  | _ => .error .illFormed

/-- The pairs of a mapping with those that its merge keys take over in front. -/
def mergedPairs : Nat → List (Node × Node) → Except Fault (List (Node × Node))
  | 0, _ => .error .illFormed
  | fuel + 1, pairs => do
    let isMerge (pair : Node × Node) : Bool := match pair.1 with
      | .scalar .merge _ => true
      | _ => false
    let taken ← (pairs.filter isMerge).mapM fun pair =>
      match pair.2 with
      | .mapping _ inner => mergedPairs fuel inner
      | .sequence _ items => do
        let parts ← items.mapM fun item =>
          match item with
          | .mapping _ inner => mergedPairs fuel inner
          | _ => .error .illFormed
        return parts.reverse.flatten
      | _ => .error .illFormed
    return taken.flatten ++ pairs.filter (!isMerge ·)

/-- The value of a key: a text, or another one, which names no field. -/
inductive Key where
  | text (s : String)
  | other
  deriving DecidableEq, Repr

/-- The pairs whose keys are texts, as fields. -/
def textFields (pairs : List (Key × Value)) : Fields :=
  Fields.ofList (pairs.filterMap fun (key, value) =>
    match key with
    | .text s => some (s, value)
    | .other => none)

mutual

/-- The value of a node. -/
def value : Nat → Node → Except Fault Value
  | 0, _ => .error .illFormed
  | fuel + 1, node =>
    match node with
    | .scalar tag s => scalarValue tag s
    | .cycle => .ok .other
    | .sequence tag items => do
      let items ← items.mapM (value fuel)
      match tag with
      | .sequence => return .list items
      | .pairs => return .list (items.map fun _ => .other)
      | _ => throw .illFormed
    | .mapping tag pairs => do
      let pairs ← keyedValues fuel pairs
      match tag with
      | .mapping => return .object (textFields pairs)
      | .set => return .other
      | _ => throw .illFormed

/-- The keys and values of a mapping. -/
def keyedValues : Nat → List (Node × Node) → Except Fault (List (Key × Value))
  | 0, _ => .error .illFormed
  | fuel + 1, pairs => do
    (← mergedPairs fuel pairs).mapM fun (keyNode, valueNode) => do
      let key ← match keyNode with
        | .scalar .default s => pure (Key.text s)
        | .scalar tag s =>
          match ← scalarValue tag s with
          | .text s => pure (Key.text s)
          | _ => pure Key.other
        | _ => throw .illFormed
      return (key, ← value fuel valueNode)

end

/-- A document: a mapping with the keys and values of its pairs, or another value. -/
inductive Document where
  | mapping (pairs : List (Key × Value))
  | other (value : Value)
  | empty

/-- The document of a text. -/
def document (s : String) : Except Fault Document := do
  let cs := s.toList
  match ← (node? cs).mapError Fault.ofMalformed with
  | none => return .empty
  | some (.mapping .mapping pairs) => return .mapping (← keyedValues (cs.length + 8) pairs)
  | some node => return .other (← value (cs.length + 8) node)

end ClarityDelta.Data.Yaml
