import ClarityDelta.Text.Numeral
import ClarityDelta.Text.Quoted
import ClarityDelta.Text.Search

/-!
# Templates

A line is laid out by a template, in which `%(name)s` stands for a named field, and two percent signs
for one. Flags, a width and a precision may stand before the last letter, which tells how the field is
shown.
-/

namespace ClarityDelta.Logging

open Text

/-- A field of a template. One without a value is shown as `None`. -/
inductive Field where
  | text (s : String)
  | number (n : Int)
  | absent
  deriving DecidableEq, Repr

namespace Template

/-- How a field is to be shown. -/
structure Spec where
  left : Bool
  zeros : Bool
  plus : Bool
  blank : Bool
  alternate : Bool
  width : Nat
  precision : Option Nat

/-- The field's name in parentheses, the opening one being read, and the rest. Parentheses within
it come in pairs. -/
def name? (depth : Nat) : List Char → Option (List Char × List Char)
  | [] => none
  | c :: rest =>
    if c = ')' && depth = 0 then some ([], rest)
    else
      let depth := if c = '(' then depth + 1 else if c = ')' then depth - 1 else depth
      (name? depth rest).map fun (name, rest) => (c :: name, rest)

/-- Whether a character is one of the flags. -/
def isFlag (c : Char) : Bool :=
  c = '#' || c = '0' || c = '-' || c = ' ' || c = '+'

/-- A run of digits, which may be empty, and the rest. -/
def digits (cs : List Char) : List Char × List Char :=
  (cs.takeWhile Char.isDigit, cs.dropWhile Char.isDigit)

/-- How a field is to be shown, the letter that ends this, and the rest. -/
def spec? (cs : List Char) : Option (Spec × Char × List Char) :=
  let flags := cs.takeWhile isFlag
  let (width, afterWidth) := digits (cs.dropWhile isFlag)
  let (precision, afterPrecision) := match afterWidth with
    | '.' :: more => ((some (digits more).1), (digits more).2)
    | _ => (none, afterWidth)
  let atLetter := match afterPrecision with
    | c :: more => if c = 'h' || c = 'l' || c = 'L' then more else afterPrecision
    | [] => []
  match atLetter with
  | [] => none
  | letter :: rest => some (
      { left := flags.contains '-', zeros := flags.contains '0', plus := flags.contains '+',
        blank := flags.contains ' ', alternate := flags.contains '#', width := natOfDigits width,
        precision := precision.map natOfDigits }, letter, rest)

/-- A text brought to its width with blanks. -/
def padText (spec : Spec) (cs : List Char) : List Char :=
  let gap := List.replicate (spec.width - cs.length) ' '
  if spec.left then cs ++ gap else gap ++ cs

/-- A number with its sign and what stands before its digits, brought to its width. -/
def padNumber (spec : Spec) (negative : Bool) (mark digits : List Char) : List Char :=
  let sign := if negative then ['-'] else if spec.plus then ['+']
    else if spec.blank then [' '] else []
  let head := sign ++ mark
  if spec.zeros && !spec.left then head ++ padDigits (spec.width - head.length) digits
  else padText spec (head ++ digits)

/-- The digits of a number in a base up to sixteen. -/
def digitsIn (base : Nat) (n : Nat) : List Char :=
  if _h : base < 2 ∨ n < base then [hexChar n] else digitsIn base (n / base) ++ [hexChar (n % base)]
termination_by n
decreasing_by
  exact Nat.div_lt_self (by omega) (by omega)

/-- A quoted text in ASCII alone. -/
def asciiQuoted (s : String) : List Char :=
  (quoted s).toList.flatMap fun c =>
    let n := c.toNat
    if n < 0x80 then [c]
    else if n < 0x100 then '\\' :: 'x' :: hex 2 n
    else if n < 0x10000 then '\\' :: 'u' :: hex 4 n
    else '\\' :: 'U' :: hex 8 n

/-- A field as the letter and what comes before it ask, none when the field is not of the kind. -/
def shown? (spec : Spec) (letter : Char) (field : Field) : Option (List Char) :=
  let text (cs : List Char) : Option (List Char) :=
    some (padText spec (match spec.precision with
      | some n => cs.take n
      | none => cs))
  let number (mark : List Char) (n : Int) (digits : List Char) : Option (List Char) :=
    some (padNumber spec (n < 0) (if spec.alternate then mark else [])
      (padDigits (spec.precision.getD 0) digits))
  match letter, field with
  | 's', .text s => text s.toList
  | 's', .number n => text (signedDecimal n)
  | 'r', .text s => text (quoted s).toList
  | 'r', .number n => text (signedDecimal n)
  | 'a', .text s => text (asciiQuoted s)
  | 'a', .number n => text (signedDecimal n)
  | 's', .absent => text "None".toList
  | 'r', .absent => text "None".toList
  | 'a', .absent => text "None".toList
  | 'c', .text s => if s.length = 1 then some (padText spec s.toList) else none
  | 'c', .number n => if 0 ≤ n ∧ n.toNat.isValidChar then some (padText spec [Char.ofNat n.toNat]) else none
  | 'd', .number n => number [] n (decimal n.natAbs)
  | 'i', .number n => number [] n (decimal n.natAbs)
  | 'u', .number n => number [] n (decimal n.natAbs)
  | 'o', .number n => number ['0', 'o'] n (digitsIn 8 n.natAbs)
  | 'x', .number n => number ['0', 'x'] n (digitsIn 16 n.natAbs)
  | 'X', .number n => number ['0', 'X'] n ((digitsIn 16 n.natAbs).map Char.toUpper)
  | 'f', .number n => fixed n
  | 'F', .number n => fixed n
  | _, _ => none
where
  fixed (n : Int) : Option (List Char) :=
    let places := spec.precision.getD 6
    let point := if places = 0 && !spec.alternate then [] else ['.']
    some (padNumber spec (n < 0) [] (decimal n.natAbs ++ point ++ List.replicate places '0'))

/-- The text of a template, none when a field is missing, does not suit its letter, or a directive is
not whole. -/
def format? (field? : String → Option Field) : Nat → List Char → Option (List Char)
  | 0, _ => some []
  | _, [] => some []
  | fuel + 1, '%' :: '(' :: rest => do
    let (name, rest) ← name? 0 rest
    let field ← field? (String.ofList name)
    let (spec, letter, rest) ← spec? rest
    return (← shown? spec letter field) ++ (← format? field? fuel rest)
  | fuel + 1, '%' :: '%' :: rest => (format? field? fuel rest).map ('%' :: ·)
  | _ + 1, '%' :: _ => none
  | fuel + 1, c :: rest => (format? field? fuel rest).map (c :: ·)

/-- The text that a template gives with the given fields. -/
def fill? (template : String) (field? : String → Option Field) : Option String :=
  (format? field? template.length template.toList).map String.ofList

/-- Whether a character may stand in the name of a field that a template has to have. -/
def isNameChar (c : Char) : Bool :=
  c.isAlphanum || c = '_' || (c.toNat ≥ 0xAA && isPrintable c && c ≠ '\u00D7' && c ≠ '\u00F7')

/-- A number or a star, which may be missing, taken from the front. -/
def skipNumber (cs : List Char) : List Char :=
  match cs with
  | '*' :: rest => rest
  | _ => cs.dropWhile isDigit

/-- Whether what follows a percent sign is a field with a letter for it. -/
def isField : List Char → Bool
  | '(' :: rest =>
    let name := rest.takeWhile isNameChar
    match rest.dropWhile isNameChar with
    | ')' :: rest =>
      let afterWidth := skipNumber (rest.dropWhile isFlag)
      let atLetter := match afterWidth with
        | '.' :: '*' :: more => more
        | '.' :: c :: more => if isDigit c then (c :: more).dropWhile isDigit else afterWidth
        | _ => afterWidth
      !name.isEmpty && match atLetter with
        | c :: _ => "diouxefgcrsa%".toList.contains c.toLower || c = '\u017F'
        | [] => false
    | _ => false
  | _ => false

/-- Whether a template has at least one field. -/
def hasField : List Char → Bool
  | [] => false
  | '%' :: rest => isField rest || hasField rest
  | _ :: rest => hasField rest

end Template

end ClarityDelta.Logging
