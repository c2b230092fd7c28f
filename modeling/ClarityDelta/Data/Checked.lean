import ClarityDelta.Data.Value
import ClarityDelta.Text.Case
import ClarityDelta.Text.Numeral

/-!
# Checked values

Values are checked against what a field takes. Numbers and booleans have several spellings, texts
only one. Checks of several fields do not stop at the first complaint: all complaints come out, in
the order of the fields, each with the way from the checked value to what is wrong.
-/

namespace ClarityDelta.Data

open Text

/-- One step of the way to a part of a value. -/
inductive Step where
  | field (name : String)
  | item (index : Nat)
  deriving DecidableEq, Repr

/-- What can be wrong with a value. -/
inductive ComplaintKind where
  | missing
  | stringType
  | intType
  | intParsing
  | intParsingSize
  | intFromFloat
  | greaterThanEqual
  | boolType
  | boolParsing
  | enum
  | listType
  | modelType
  | frozenInstance
  deriving DecidableEq, Repr

/-- The name of a complaint. -/
def ComplaintKind.name : ComplaintKind → String
  | missing => "missing"
  | stringType => "string_type"
  | intType => "int_type"
  | intParsing => "int_parsing"
  | intParsingSize => "int_parsing_size"
  | intFromFloat => "int_from_float"
  | greaterThanEqual => "greater_than_equal"
  | boolType => "bool_type"
  | boolParsing => "bool_parsing"
  | enum => "enum"
  | listType => "list_type"
  | modelType => "model_type"
  | frozenInstance => "frozen_instance"

/-- What is wrong, and where. -/
structure Complaint where
  way : List Step
  kind : ComplaintKind
  deriving DecidableEq, Repr

/-- The outcome of a check: what the value stands for, or the complaints about it. -/
inductive Checked (α : Type u) where
  | valid (a : α)
  | invalid (complaints : List Complaint)

namespace Checked

/-- The outcome of a check, with what the value stands for changed. -/
def map (f : α → β) : Checked α → Checked β
  | valid a => valid (f a)
  | invalid complaints => invalid complaints

/-- Two checks side by side: the complaints of both come out. -/
def both (f : Checked (α → β)) (x : Unit → Checked α) : Checked β :=
  match f, x () with
  | valid f, valid a => valid (f a)
  | valid _, invalid complaints => invalid complaints
  | invalid complaints, valid _ => invalid complaints
  | invalid first, invalid second => invalid (first ++ second)

instance : Applicative Checked where
  pure := valid
  map := map
  seq := both

/-- A check of what a first check has found valid. -/
def andThen (x : Checked α) (f : α → Checked β) : Checked β :=
  match x with
  | valid a => f a
  | invalid complaints => invalid complaints

/-- A complaint about the whole of a value. -/
def refuse (kind : ComplaintKind) : Checked α :=
  invalid [⟨[], kind⟩]

/-- The outcome for a part of a value, seen from the whole. -/
def within (step : Step) : Checked α → Checked α
  | valid a => valid a
  | invalid complaints => invalid (complaints.map fun c => { c with way := step :: c.way })

end Checked

namespace Value

/-- A text field takes texts only. -/
def asText : Value → Checked String
  | .text s => .valid s
  | _ => .refuse .stringType

/-- Whether a character counts as white space around a number. -/
def isSpace (c : Char) : Bool :=
  let n := c.toNat
  (9 ≤ n ∧ n ≤ 13) ∨ n = 32 ∨ n = 0x85 ∨ n = 0xA0 ∨ n = 0x1680 ∨ (0x2000 ≤ n ∧ n ≤ 0x200A)
    ∨ n = 0x2028 ∨ n = 0x2029 ∨ n = 0x202F ∨ n = 0x205F ∨ n = 0x3000

/-- The text of a number without white space around it. -/
def bareNumber (cs : List Char) : List Char :=
  ((cs.dropWhile isSpace).reverse.dropWhile isSpace).reverse

/-- Digits without the zeros in front of them, among which single lines may stand. Of nothing but
zeros the last character stays. -/
def withoutLeadingZeros? : List Char → Option (List Char)
  | '0' :: rest =>
    let last := ('0' :: rest.takeWhile fun c => c = '0' || c = '_').getLast (by simp)
    match rest.dropWhile fun c => c = '0' || c = '_' with
    | [] => some [last]
    | '.' :: more => some (last :: '.' :: more)
    | c :: more => if c.isDigit then some (c :: more) else none
  | c :: rest => if c.isDigit || c = '-' then some (c :: rest) else none
  | [] => none

/-- A number without a fraction of zeros. -/
def withoutZeroFraction (cs : List Char) : List Char :=
  if ((cs.dropWhile (· ≠ '.')).drop 1).all (· = '0') then cs.takeWhile (· ≠ '.') else cs

/-- Digits without the single lines between them. -/
def withoutLines (cs : List Char) : List Char :=
  let doubled := (cs.zip (cs.drop 1)).any fun (a, b) => a = '_' && b = '_'
  if cs.head? = some '_' || cs.getLast? = some '_' || doubled then cs else cs.filter (· ≠ '_')

/-- The whole number that a plain text of digits, with or without a sign, stands for. -/
def signed? : List Char → Option Int
  | '-' :: digits =>
    if !digits.isEmpty && digits.all Char.isDigit then some (-(natOfDigits digits : Int)) else none
  | digits =>
    if !digits.isEmpty && digits.all Char.isDigit then some (natOfDigits digits) else none

/-- The whole number that a text stands for. -/
def wholeOfText (s : String) : Checked Int :=
  let bare := bareNumber s.toList
  let unsigned? := match bare with
    | '+' :: '-' :: _ => none
    | '+' :: rest => some rest
    | cs => some cs
  if maxDigits < bare.length then .refuse .intParsingSize
  else
    match (unsigned?.bind withoutLeadingZeros?).bind
        fun cs => signed? (withoutLines (withoutZeroFraction cs)) with
    | some n => .valid n
    | none => .refuse .intParsing

/-- The size that a whole number must stay below to fit 64 bits with a sign. -/
def wordBound : Nat := 9223372036854775808

/-- The whole number that a decimal one stands for, if it has no fraction and 64 bits can hold
it. -/
def wholeOfDecimal? (x : Decimal) : Option Int :=
  match x.whole? with
  | some (some n) => if n.natAbs < wordBound then some n else none
  | _ => none

/-- A number field takes whole numbers in any spelling, and booleans as 0 and 1. -/
def asInt : Value → Checked Int
  | .integer n => .valid n
  | .bool b => .valid (if b then 1 else 0)
  | .decimal x =>
    match wholeOfDecimal? x with
    | some n => .valid n
    | none => .refuse .intFromFloat
  | .text s => wholeOfText s
  | _ => .refuse .intType

/-- A field for numbers from a bound on. -/
def asIntFrom (least : Nat) (v : Value) : Checked Nat :=
  v.asInt.andThen fun n => if least ≤ n then .valid n.toNat else .refuse .greaterThanEqual

/-- Natural numbers from the bound on are taken. -/
theorem asIntFrom_natural {least n : Nat} (h : least ≤ n) :
    (natural n).asIntFrom least = .valid n := by
  have hle : (least : Int) ≤ (n : Int) := Int.ofNat_le.mpr h
  simp only [natural, asIntFrom, asInt, Checked.andThen]
  rw [if_pos hle, Int.toNat_natCast]

/-- The boolean that a whole number stands for. -/
def boolOfInt (n : Int) : Checked Bool :=
  if n = 0 then .valid false else if n = 1 then .valid true else .refuse .boolParsing

/-- A boolean field takes booleans, 0 and 1, and the usual words in any letter case. -/
def asBool : Value → Checked Bool
  | .bool b => .valid b
  | .integer n => if n.natAbs < wordBound then boolOfInt n else .refuse .boolType
  | .decimal x =>
    match wholeOfDecimal? x with
    | some n => boolOfInt n
    | none => .refuse .boolType
  | .text s =>
    let word := s.map Char.toLower
    if ["0", "off", "f", "false", "n", "no"].contains word then .valid false
    else if ["1", "on", "t", "true", "y", "yes"].contains word then .valid true
    else .refuse .boolParsing
  | _ => .refuse .boolType

/-- A field for one of several words. -/
def asWord (ofName? : String → Option α) : Value → Checked α
  | .text s =>
    match ofName? s with
    | some a => .valid a
    | none => .refuse .enum
  | _ => .refuse .enum

/-- Checks of the items of a list, the first having the given index. -/
def checkItems (check : Value → Checked α) (index : Nat) : List Value → Checked (List α)
  | [] => .valid []
  | v :: rest =>
    List.cons <$> (check v).within (.item index) <*> checkItems check (index + 1) rest

/-- A list field, each of whose items is checked. -/
def asList (check : Value → Checked α) : Value → Checked (List α)
  | .list items => checkItems check 0 items
  | _ => .refuse .listType

/-- A field that may be null. -/
def asOption (check : Value → Checked α) : Value → Checked (Option α)
  | .null => .valid none
  | v => (check v).map some

/-- A field for a record. -/
def asRecord (check : Fields → Checked α) : Value → Checked α
  | .object fields => check fields
  | _ => .refuse .modelType

end Value

namespace Fields

/-- A field that has to be there. -/
def required (name : String) (check : Value → Checked α) (fields : Fields) : Checked α :=
  Checked.within (.field name) <|
    match fields.get? name with
    | some v => check v
    | none => .refuse .missing

/-- A field with a value of its own for when it is missing. -/
def optional (name : String) (check : Value → Checked α) (default : α) (fields : Fields) :
    Checked α :=
  Checked.within (.field name) <|
    match fields.get? name with
    | some v => check v
    | none => .valid default

end Fields

end ClarityDelta.Data
