import ClarityDelta.Text.Utf8

/-!
# Positions in a YAML text

A cursor stands at a place of a text and knows its line and column. Beside it stand the classes of
characters that the notation tells apart.
-/

namespace ClarityDelta.Data.Yaml

/-- Why a text is not read. -/
inductive Malformed where
  /-- The text does not follow the notation, or what it notes has no value. -/
  | illFormed
  /-- An escape names no character. -/
  | noCharacter
  deriving DecidableEq, Repr

/-- The outcome of reading. -/
abbrev Reading := Except Malformed

/-- A place in a text. -/
structure Cursor where
  rest : List Char
  index : Nat
  line : Nat
  column : Nat
  deriving Repr

/-- Whether a character ends a line. -/
def isBreak (c : Char) : Bool :=
  c = '\n' || c = '\r' || c = '\u0085' || c = '\u2028' || c = '\u2029'

/-- Whether a place is the end of a line or of the text. -/
def endsLine : List Char → Bool
  | [] => true
  | c :: _ => isBreak c

/-- Whether a place is a blank or the end of a line or of the text. -/
def endsWord : List Char → Bool
  | [] => true
  | c :: _ => c = ' ' || c = '\t' || isBreak c

/-- Whether a character may stand in the name of an anchor, a directive or a handle. -/
def isWordChar (c : Char) : Bool :=
  c.isAlphanum || c = '-' || c = '_'

/-- Whether a character may stand in a text. -/
def isAllowed (c : Char) : Bool :=
  let n := c.toNat
  n = 9 || n = 10 || n = 13 || (0x20 ≤ n && n ≤ 0x7E) || n = 0x85 || (0xA0 ≤ n && n ≤ 0xD7FF)
    || (0xE000 ≤ n && n ≤ 0xFFFD) || 0x10000 ≤ n

namespace Cursor

/-- The beginning of a text. -/
def start (cs : List Char) : Cursor :=
  ⟨cs, 0, 0, 0⟩

/-- The place after the next character. -/
def next (cursor : Cursor) : Cursor :=
  match cursor.rest with
  | [] => cursor
  | c :: rest =>
    if c = '\n' || c = '\u0085' || c = '\u2028' || c = '\u2029'
        || (c = '\r' && rest.head? ≠ some '\n') then
      ⟨rest, cursor.index + 1, cursor.line + 1, 0⟩
    else
      ⟨rest, cursor.index + 1, cursor.line,
        if c = '\uFEFF' then cursor.column else cursor.column + 1⟩

/-- The place after the given number of characters. -/
def skip (cursor : Cursor) : Nat → Cursor
  | 0 => cursor
  | n + 1 => cursor.next.skip n

/-- The longest run of characters with a property, and the place after it. -/
def run (cursor : Cursor) (p : Char → Bool) : List Char × Cursor :=
  let taken := cursor.rest.takeWhile p
  (taken, cursor.skip taken.length)

/-- The place after a run of spaces. -/
def skipSpaces (cursor : Cursor) : Cursor :=
  (cursor.run (· = ' ')).2

/-- The line break at a place, in its one form, and the place after it. -/
def lineBreak? (cursor : Cursor) : Option (Char × Cursor) :=
  match cursor.rest with
  | '\r' :: '\n' :: _ => some ('\n', cursor.skip 2)
  | c :: _ =>
    if c = '\u2028' || c = '\u2029' then some (c, cursor.next)
    else if isBreak c then some ('\n', cursor.next)
    else none
  | [] => none

/-- Whether a marker between documents stands at a place. -/
def atMarker (cursor : Cursor) : Bool :=
  match cursor.rest with
  | '-' :: '-' :: '-' :: rest => endsWord rest
  | '.' :: '.' :: '.' :: rest => endsWord rest
  | _ => false

/-- The place after the spaces of a line that may end in a comment, at the next line. -/
def lineEnd (cursor : Cursor) : Reading Cursor :=
  let cursor := cursor.skipSpaces
  let cursor :=
    if cursor.rest.head? = some '#' then (cursor.run (!isBreak ·)).2 else cursor
  match cursor.rest, cursor.lineBreak? with
  | [], _ => .ok cursor
  | _, some (_, cursor) => .ok cursor
  | _, none => .error .illFormed

end Cursor

end ClarityDelta.Data.Yaml
