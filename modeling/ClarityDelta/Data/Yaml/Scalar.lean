import ClarityDelta.Data.Yaml.Cursor

/-!
# Scalars of a YAML text

The texts of scalars: quoted ones with their escapes, plain ones that end before what could begin
something else, and blocks of whole lines. Where such a text goes over several lines, a single break
becomes a space and further ones stay.
-/

namespace ClarityDelta.Data.Yaml

open Text

/-- The breaks of empty lines before the next content of a quoted scalar. -/
def quotedBreaks : Nat → Cursor → Reading (List Char × Cursor)
  | 0, cursor => .ok ([], cursor)
  | fuel + 1, cursor =>
    if cursor.atMarker then .error .illFormed
    else
      let cursor := (cursor.run fun c => c = ' ' || c = '\t').2
      match cursor.lineBreak? with
      | none => .ok ([], cursor)
      | some (c, cursor) => do
        let (more, cursor) ← quotedBreaks fuel cursor
        return (c :: more, cursor)

/-- The breaks that stay when a line break is followed by the given ones. -/
def folded (first : Char) (breaks : List Char) : List Char :=
  if first ≠ '\n' then first :: breaks
  else if breaks.isEmpty then [' ']
  else breaks

/-- The character that a letter after a backslash stands for. -/
def escapeLetter? : Char → Option Char
  | '0' => some '\x00'
  | 'a' => some '\x07'
  | 'b' => some '\x08'
  | 't' => some '\t'
  | '\t' => some '\t'
  | 'n' => some '\n'
  | 'v' => some '\x0b'
  | 'f' => some '\x0c'
  | 'r' => some '\r'
  | 'e' => some '\x1b'
  | ' ' => some ' '
  | '"' => some '"'
  | '\\' => some '\\'
  | '/' => some '/'
  | 'N' => some '\u0085'
  | '_' => some '\u00A0'
  | 'L' => some '\u2028'
  | 'P' => some '\u2029'
  | _ => none

/-- The number of hexadecimal digits after a letter. -/
def escapeDigits? : Char → Option Nat
  | 'x' => some 2
  | 'u' => some 4
  | 'U' => some 8
  | _ => none

/-- The character of a number, in whose stead a replacement stands for half a pair. -/
def charOf (n : Nat) : Reading Char :=
  if n < 0x110000 then .ok (if n.isValidChar then Char.ofNat n else '\uFFFD')
  else .error .noCharacter

/-- What a backslash stands for with what follows it, and the place after that. -/
def escaped (fuel : Nat) (cursor : Cursor) : Reading (List Char × Cursor) :=
  match cursor.rest with
  | [] => .error .illFormed
  | c :: more =>
    match escapeLetter? c with
    | some char => .ok ([char], cursor.next)
    | none =>
      match escapeDigits? c with
      | some count => do
        let digits := (more.take count).filterMap hexDigit?
        if digits.length ≠ count then throw .illFormed
        let char ← charOf (ofDigits 16 digits)
        return ([char], cursor.skip (count + 1))
      | none =>
        match cursor.lineBreak? with
        | some (_, cursor) => quotedBreaks fuel cursor
        | none => .error .illFormed

/-- The text of a quoted scalar from a place behind the opening quote on, and the place behind the
closing one. -/
def quotedText (double : Bool) : Nat → Cursor → Reading (List Char × Cursor)
  | 0, _ => .error .illFormed
  | fuel + 1, cursor =>
    let continueWith (text : List Char) (cursor : Cursor) : Reading (List Char × Cursor) := do
      let (more, cursor) ← quotedText double fuel cursor
      return (text ++ more, cursor)
    match cursor.rest with
    | [] => .error .illFormed
    | '\'' :: rest =>
      if double then continueWith ['\''] cursor.next
      else if rest.head? = some '\'' then continueWith ['\''] (cursor.skip 2)
      else .ok ([], cursor.next)
    | '"' :: _ => if double then .ok ([], cursor.next) else continueWith ['"'] cursor.next
    | '\\' :: _ =>
      if double then do
        let (text, cursor) ← escaped fuel cursor.next
        continueWith text cursor
      else continueWith ['\\'] cursor.next
    | c :: _ =>
      if c = ' ' || c = '\t' || isBreak c then
        let (blanks, cursor) := cursor.run fun c => c = ' ' || c = '\t'
        match cursor.lineBreak? with
        | none => if cursor.rest.isEmpty then .error .illFormed else continueWith blanks cursor
        | some (first, cursor) => do
          let (breaks, cursor) ← quotedBreaks fuel cursor
          continueWith (folded first breaks) cursor
      else continueWith [c] cursor.next

/-- Whether a plain scalar ends before the given text. -/
def endsPlain (inFlow : Bool) : List Char → Bool
  | [] => true
  | c :: rest =>
    c = ' ' || c = '\t' || isBreak c
      || (c = ':' && (endsWord rest
        || (inFlow && (rest.head?.any fun d => [',', '[', ']', '{', '}'].contains d))))
      || (inFlow && [',', '?', '[', ']', '{', '}'].contains c)

/-- The characters of a plain scalar that stand together. -/
def plainRun (inFlow : Bool) : List Char → List Char
  | [] => []
  | c :: rest => if endsPlain inFlow (c :: rest) then [] else c :: plainRun inFlow rest

/-- The breaks of empty lines after a line of a plain scalar, none when a marker between documents
comes. -/
def plainBreaks : Nat → Cursor → Option (List Char) × Cursor
  | 0, cursor => (some [], cursor)
  | fuel + 1, cursor =>
    if cursor.rest.head? = some ' ' then plainBreaks fuel cursor.next
    else
      match cursor.lineBreak? with
      | none => (some [], cursor)
      | some (c, cursor) =>
        if cursor.atMarker then (none, cursor)
        else
          let (more, cursor) := plainBreaks fuel cursor
          (more.map (c :: ·), cursor)

/-- What stands between two runs of a plain scalar, the place after it, and whether a line was
ended. Nothing stands there when the scalar ends. -/
def plainGap (fuel : Nat) (cursor : Cursor) : List Char × Cursor × Bool :=
  let (spaces, cursor) := cursor.run (· = ' ')
  match cursor.lineBreak? with
  | none => (spaces, cursor, false)
  | some (first, cursor) =>
    if cursor.atMarker then ([], cursor, true)
    else
      match plainBreaks fuel cursor with
      | (none, cursor) => ([], cursor, true)
      | (some breaks, cursor) => (folded first breaks, cursor, true)

/-- The text of a plain scalar, the place after it, and whether it ended with its line. Its lines
are indented at least as far as given. -/
def plainText (inFlow : Bool) (indent : Int) : Nat → Cursor → List Char × Cursor × Bool
  | 0, cursor => ([], cursor, false)
  | fuel + 1, cursor =>
    let run := plainRun inFlow cursor.rest
    let (gap, after, ended) := plainGap fuel (cursor.skip run.length)
    if gap.isEmpty || after.rest.head? = some '#' || (!inFlow && (after.column : Int) < indent)
        || (plainRun inFlow after.rest).isEmpty then
      (run, after, ended)
    else
      let (more, cursor, ended) := plainText inFlow indent fuel after
      (run ++ gap ++ more, cursor, ended)

/-- What becomes of the breaks at the end of a block: kept, dropped, or all but the first dropped. -/
inductive Chomping where
  | keep
  | strip
  | clip
  deriving DecidableEq, Repr

/-- The chomping that a sign stands for. -/
def chomping? : Char → Option Chomping
  | '+' => some .keep
  | '-' => some .strip
  | _ => none

/-- The chomping and the indentation that the first line of a block gives, in any order. -/
def blockHeader (cursor : Cursor) : Reading (Chomping × Option Nat × Cursor) :=
  let increment (c : Char) : Option Nat := if c.isDigit then some (c.toNat - '0'.toNat) else none
  let result : Chomping × Option Nat × Cursor :=
    match cursor.rest with
    | [] => (.clip, none, cursor)
    | c :: rest =>
      match chomping? c, increment c with
      | some chomping, _ =>
        match rest.head?.bind increment with
        | some n => (chomping, some n, cursor.skip 2)
        | none => (chomping, none, cursor.next)
      | none, some n =>
        match rest.head?.bind chomping? with
        | some chomping => (chomping, some n, cursor.skip 2)
        | none => (.clip, some n, cursor.next)
      | none, none => (.clip, none, cursor)
  let (chomping, indent, after) := result
  if indent = some 0 || !(endsLine after.rest || after.rest.head? = some ' ') then
    .error .illFormed
  else do return (chomping, indent, ← after.lineEnd)

/-- The breaks of the empty lines before a block, the greatest indentation in them, and the place
after them. -/
def leadingBreaks : Nat → Cursor → List Char × Nat × Cursor
  | 0, cursor => ([], 0, cursor)
  | fuel + 1, cursor =>
    if cursor.rest.head? = some ' ' then
      let after := cursor.next
      let (breaks, deepest, cursor) := leadingBreaks fuel after
      (breaks, max after.column deepest, cursor)
    else
      match cursor.lineBreak? with
      | none => ([], 0, cursor)
      | some (c, cursor) =>
        let (breaks, deepest, cursor) := leadingBreaks fuel cursor
        (c :: breaks, deepest, cursor)

/-- The place after at most the given indentation. -/
def skipIndent (indent : Nat) (cursor : Cursor) : Cursor :=
  cursor.skip (min (cursor.rest.takeWhile (· = ' ')).length (indent - cursor.column))

/-- The breaks of empty lines within a block, and the place after them and after the indentation. -/
def blockBreaks (indent : Nat) : Nat → Cursor → List Char × Cursor
  | 0, cursor => ([], cursor)
  | fuel + 1, cursor =>
    let cursor := skipIndent indent cursor
    match cursor.lineBreak? with
    | none => ([], cursor)
    | some (c, cursor) =>
      let (more, cursor) := blockBreaks indent fuel cursor
      (c :: more, cursor)

/-- Whether a place is a blank. -/
def atBlank (cursor : Cursor) : Bool :=
  cursor.rest.head? = some ' ' || cursor.rest.head? = some '\t'

/-- The lines of a block, before which the given breaks stand: their text, the last break, the
breaks after it, and the place after those. -/
def blockLines (fold : Bool) (indent : Nat) :
    Nat → List Char → Cursor → List Char × List Char × List Char × Cursor
  | 0, breaks, cursor => ([], [], breaks, cursor)
  | fuel + 1, breaks, cursor =>
    if cursor.column ≠ indent || cursor.rest.isEmpty then ([], [], breaks, cursor)
    else
      let solid := !atBlank cursor
      let (line, cursor) := cursor.run (!isBreak ·)
      let (ended, cursor) := match cursor.lineBreak? with
        | some (c, cursor) => ([c], cursor)
        | none => ([], cursor)
      let (after, cursor) := blockBreaks indent fuel cursor
      if cursor.column = indent && !cursor.rest.isEmpty then
        let glue :=
          if fold && ended = ['\n'] && solid && !atBlank cursor then
            (if after.isEmpty then [' '] else [])
          else ended
        let (more, last, trailing, cursor) := blockLines fold indent fuel after cursor
        (breaks ++ line ++ glue ++ more, last, trailing, cursor)
      else (breaks ++ line, ended, after, cursor)

/-- The text of a block scalar from a place behind its sign on, and the place after it. The
indentation of what the block belongs to is given. -/
def blockText (fold : Bool) (outer : Int) (cursor : Cursor) : Reading (List Char × Cursor) := do
  let fuel := cursor.rest.length + 1
  let (chomping, increment, cursor) ← blockHeader cursor
  let least := max (outer + 1) 1
  let (breaks, indent, cursor) := match increment with
    | none =>
      let (breaks, deepest, cursor) := leadingBreaks fuel cursor
      (breaks, (max least deepest).toNat, cursor)
    | some n =>
      let indent := (least + n - 1).toNat
      let (breaks, cursor) := blockBreaks indent fuel cursor
      (breaks, indent, cursor)
  let (text, last, trailing, cursor) := blockLines fold indent fuel breaks cursor
  return (match chomping with
    | .keep => text ++ last ++ trailing
    | .clip => text ++ last
    | .strip => text, cursor)

end ClarityDelta.Data.Yaml
