import ClarityDelta.Data.Yaml.Scalar

/-!
# Tokens of a YAML text

A text is cut into tokens. Indentation becomes tokens of its own, which open and close block
collections. What stands before a colon is known as a key only when the colon comes, so the tokens
that mark it are put in then, at the place where the key began.
-/

namespace ClarityDelta.Data.Yaml

open Text

/-- A token. -/
inductive Token where
  | version (major : Nat)
  | handle (name meaning : String)
  | otherDirective
  | documentStart
  | documentEnd
  | streamEnd
  | blockSequenceStart
  | blockMappingStart
  | blockEnd
  | flowSequenceStart
  | flowSequenceEnd
  | flowMappingStart
  | flowMappingEnd
  | blockEntry
  | flowEntry
  | key
  | value
  | alias (name : String)
  | anchor (name : String)
  | tag (handle : Option String) (suffix : String)
  | scalar (text : String) (plain : Bool)
  deriving DecidableEq, Repr

/-- A place at which a key may have begun: the number of tokens before it, and whether only a key
can stand there. -/
structure KeyPlace where
  tokens : Nat
  required : Bool
  index : Nat
  line : Nat
  column : Nat

/-- What is known while tokens are read. The indentation is that of the innermost block collection,
the place of a possible key that of each flow collection around, the innermost one first. -/
structure TokenReader where
  cursor : Cursor
  tokens : Array Token
  indent : Int
  outerIndents : List Int
  keyAllowed : Bool
  keyPlace : Option KeyPlace
  outerKeyPlaces : List (Option KeyPlace)

namespace TokenReader

/-- The reader at the beginning of a text. -/
def start (cs : List Char) : TokenReader :=
  ⟨.start cs, #[], -1, [], true, none, []⟩

/-- Whether a flow collection is open. -/
def inFlow (reader : TokenReader) : Bool :=
  !reader.outerKeyPlaces.isEmpty

/-- The reader with another token. -/
def push (reader : TokenReader) (token : Token) : TokenReader :=
  { reader with tokens := reader.tokens.push token }

/-- The reader at another place. -/
def moved (reader : TokenReader) (cursor : Cursor) : TokenReader :=
  { reader with cursor := cursor }

/-- The reader after the given number of characters. -/
def skip (reader : TokenReader) (n : Nat) : TokenReader :=
  reader.moved (reader.cursor.skip n)

/-- The reader that may or may not take a key next. -/
def allowKey (reader : TokenReader) (allowed : Bool) : TokenReader :=
  { reader with keyAllowed := allowed }

/-- The reader with a token put in where a number of others stand before it. -/
def insert (reader : TokenReader) (index : Nat) (token : Token) : TokenReader :=
  { reader with
    tokens := reader.tokens.extract 0 index ++ #[token]
      ++ reader.tokens.extract index reader.tokens.size }

/-- Forgets the place of a possible key, which must not have been needed. -/
def dropKey (reader : TokenReader) : Reading TokenReader :=
  if reader.keyPlace.any (·.required) then .error .illFormed
  else .ok { reader with keyPlace := none }

/-- Remembers the place as one at which a key may begin. -/
def saveKey (reader : TokenReader) : Reading TokenReader := do
  if !reader.keyAllowed then return reader
  let reader ← reader.dropKey
  let cursor := reader.cursor
  let required := !reader.inFlow && reader.indent = cursor.column
  let place : KeyPlace :=
    ⟨reader.tokens.size, required, cursor.index, cursor.line, cursor.column⟩
  return { reader with keyPlace := some place }

/-- Whether a key can still begin at a place: it ends on its line, and not too far away. -/
def isStale (cursor : Cursor) (place : KeyPlace) : Bool :=
  place.line ≠ cursor.line || cursor.index - place.index > 1024

/-- Forgets the places at which no key can begin any more. -/
def dropStale (reader : TokenReader) : Reading TokenReader := do
  let check (place : Option KeyPlace) : Reading (Option KeyPlace) :=
    match place with
    | none => .ok none
    | some place =>
      if isStale reader.cursor place then
        if place.required then .error .illFormed else .ok none
      else .ok (some place)
  return { reader with
    keyPlace := ← check reader.keyPlace
    outerKeyPlaces := ← reader.outerKeyPlaces.mapM check }

/-- Closes the block collections that are indented further than the given column. -/
def unwind (reader : TokenReader) (column : Int) : TokenReader :=
  if reader.inFlow then reader
  else
    let all := reader.indent :: reader.outerIndents
    let closed := all.takeWhile (column < ·)
    match all.drop closed.length with
    | indent :: outer =>
      { reader with
        tokens := reader.tokens ++ Array.replicate closed.length .blockEnd
        indent := indent
        outerIndents := outer }
    | [] => reader

/-- Opens a block collection at a column if it lies further right, its token being put in where a
number of others stand before it. -/
def openBlock (reader : TokenReader) (column : Nat) (index : Nat) (token : Token) : TokenReader :=
  if reader.indent < column then
    ({ reader with
      indent := column
      outerIndents := reader.indent :: reader.outerIndents }).insert index token
  else reader

/-- Goes over spaces, comments and line ends to the next token. -/
def toToken : Nat → TokenReader → TokenReader
  | 0, reader => reader
  | fuel + 1, reader =>
    let cursor := reader.cursor.skipSpaces
    let cursor :=
      if cursor.rest.head? = some '#' then (cursor.run (!isBreak ·)).2 else cursor
    match cursor.lineBreak? with
    | some (_, cursor) =>
      toToken fuel ((reader.moved cursor).allowKey (reader.keyAllowed || !reader.inFlow))
    | none => reader.moved cursor

/-- A token that begins and ends outside all block collections. -/
def outside (reader : TokenReader) : Reading TokenReader := do
  return (← (reader.unwind (-1)).dropKey).allowKey false

/-- The digits at a place, at least one, and the place after them. -/
def number (cursor : Cursor) : Reading (List Char × Cursor) :=
  let (digits, cursor) := cursor.run Char.isDigit
  if digits.isEmpty then .error .illFormed else .ok (digits, cursor)

/-- The handle of a tag, and the place after it. -/
def handleName (cursor : Cursor) : Reading (String × Cursor) :=
  match cursor.rest with
  | '!' :: ' ' :: _ => .ok ("!", cursor.next)
  | '!' :: rest =>
    let word := rest.takeWhile isWordChar
    match rest.drop word.length with
    | '!' :: _ => .ok (String.ofList ('!' :: (word ++ ['!'])), cursor.skip (word.length + 2))
    | _ => .error .illFormed
  | _ => .error .illFormed

/-- Whether a character may stand in the text of a tag. -/
def isTagChar (c : Char) : Bool :=
  c.isAlphanum || "-;/?:@&=+$,_.!~*'()[]".toList.contains c

/-- The text of a tag, at least one character, with its percent escapes as bytes. -/
def tagBytes : Nat → Cursor → Reading (List UInt8 × Cursor)
  | 0, cursor => .ok ([], cursor)
  | fuel + 1, cursor =>
    match cursor.rest with
    | '%' :: a :: b :: _ => do
      match hexDigit? a, hexDigit? b with
      | some high, some low =>
        let (more, cursor) ← tagBytes fuel (cursor.skip 3)
        return (UInt8.ofNat (high * 16 + low) :: more, cursor)
      | _, _ => throw .illFormed
    | '%' :: _ => .error .illFormed
    | c :: _ =>
      if isTagChar c then do
        let (more, cursor) ← tagBytes fuel cursor.next
        return (UInt8.ofNat c.toNat :: more, cursor)
      else .ok ([], cursor)
    | [] => .ok ([], cursor)

/-- The text of a tag, and the place after it. -/
def tagText (cursor : Cursor) : Reading (String × Cursor) := do
  let (bytes, after) ← tagBytes cursor.rest.length cursor
  if bytes.isEmpty then throw .illFormed
  match Utf8.decodeFrom 0 bytes with
  | .ok cs => return (String.ofList cs, after)
  | .error _ => throw .illFormed

/-- A directive line. -/
def directive (reader : TokenReader) : Reading TokenReader := do
  let reader ← reader.outside
  let (name, cursor) := reader.cursor.next.run isWordChar
  if name.isEmpty || !(endsLine cursor.rest || cursor.rest.head? = some ' ') then throw .illFormed
  if name = "YAML".toList then
    let (major, cursor) ← number cursor.skipSpaces
    if cursor.rest.head? ≠ some '.' then throw .illFormed
    let (_, cursor) ← number cursor.next
    if !(endsLine cursor.rest || cursor.rest.head? = some ' ') then throw .illFormed
    return (reader.push (.version (natOfDigits major))).moved (← cursor.lineEnd)
  else if name = "TAG".toList then
    let (handle, cursor) ← handleName cursor.skipSpaces
    if cursor.rest.head? ≠ some ' ' then throw .illFormed
    let (meaning, cursor) ← tagText cursor.skipSpaces
    if !(endsLine cursor.rest || cursor.rest.head? = some ' ') then throw .illFormed
    return (reader.push (.handle handle meaning)).moved (← cursor.lineEnd)
  else
    let (_, cursor) := cursor.run (!isBreak ·)
    return (reader.push .otherDirective).moved (← cursor.lineEnd)

/-- A marker between documents. -/
def marker (reader : TokenReader) (token : Token) : Reading TokenReader := do
  return ((← reader.outside).push token).skip 3

/-- The beginning of a flow collection. -/
def openFlow (reader : TokenReader) (token : Token) : Reading TokenReader := do
  let reader ← reader.saveKey
  return (({ reader with
    keyPlace := none
    outerKeyPlaces := reader.keyPlace :: reader.outerKeyPlaces }).allowKey true |>.push token).skip 1

/-- The end of a flow collection. -/
def closeFlow (reader : TokenReader) (token : Token) : Reading TokenReader := do
  let reader ← reader.dropKey
  match reader.outerKeyPlaces with
  | [] => throw .illFormed
  | place :: outer =>
    return (({ reader with keyPlace := place, outerKeyPlaces := outer }).allowKey false
      |>.push token).skip 1

/-- The comma between the entries of a flow collection. -/
def flowEntry (reader : TokenReader) : Reading TokenReader := do
  return ((← (reader.allowKey true).dropKey).push .flowEntry).skip 1

/-- The dash before an entry of a block sequence. -/
def blockEntry (reader : TokenReader) : Reading TokenReader := do
  if !reader.inFlow && !reader.keyAllowed then throw .illFormed
  let reader :=
    if reader.inFlow then reader
    else reader.openBlock reader.cursor.column reader.tokens.size .blockSequenceStart
  return ((← (reader.allowKey true).dropKey).push .blockEntry).skip 1

/-- The question mark before a key. -/
def explicitKey (reader : TokenReader) : Reading TokenReader := do
  if !reader.inFlow && !reader.keyAllowed then throw .illFormed
  let reader :=
    if reader.inFlow then reader
    else reader.openBlock reader.cursor.column reader.tokens.size .blockMappingStart
  return ((← (reader.allowKey !reader.inFlow).dropKey).push .key).skip 1

/-- The colon before a value. -/
def valueMark (reader : TokenReader) : Reading TokenReader := do
  match reader.keyPlace with
  | some place =>
    let reader := { reader with keyPlace := none }
    let reader := reader.insert place.tokens .key
    let reader :=
      if reader.inFlow then reader
      else reader.openBlock place.column place.tokens .blockMappingStart
    return ((reader.allowKey false).push .value).skip 1
  | none =>
    if !reader.inFlow && !reader.keyAllowed then throw .illFormed
    let reader :=
      if reader.inFlow then reader
      else reader.openBlock reader.cursor.column reader.tokens.size .blockMappingStart
    return ((← (reader.allowKey !reader.inFlow).dropKey).push .value).skip 1

/-- An anchor or alias. -/
def named (reader : TokenReader) (token : String → Token) : Reading TokenReader := do
  let reader ← reader.saveKey
  let (name, cursor) := reader.cursor.next.run isWordChar
  let ends := endsWord cursor.rest
    || cursor.rest.head?.any fun c => "?:,]\x7d%@".toList.contains c || c.toNat = 0x60
  if name.isEmpty || !ends then throw .illFormed
  return ((reader.allowKey false).push (token (String.ofList name))).moved cursor

/-- A tag. -/
def tagMark (reader : TokenReader) : Reading TokenReader := do
  let reader ← reader.saveKey
  let cursor := reader.cursor
  let (token, cursor) ← (match cursor.rest.drop 1 with
    | '<' :: _ => do
      let (text, after) ← tagText (cursor.skip 2)
      if after.rest.head? ≠ some '>' then throw .illFormed
      return (Token.tag none text, after.next)
    | rest => do
      if endsWord rest then return (Token.tag none "!", cursor.next)
      else
        let word := rest.takeWhile fun c => c ≠ ' ' && !isBreak c
        let (handle, after) ←
          if word.contains '!' then handleName cursor else pure ("!", cursor.next)
        let (suffix, after) ← tagText after
        return (Token.tag (some handle) suffix, after) : Reading (Token × Cursor))
  if !(endsLine cursor.rest || cursor.rest.head? = some ' ') then throw .illFormed
  return ((reader.allowKey false).push token).moved cursor

/-- A block scalar. -/
def block (reader : TokenReader) (fold : Bool) : Reading TokenReader := do
  let reader ← (reader.allowKey true).dropKey
  let (text, cursor) ← blockText fold reader.indent reader.cursor.next
  return (reader.push (.scalar (String.ofList text) false)).moved cursor

/-- A quoted scalar. -/
def quoted (reader : TokenReader) (double : Bool) : Reading TokenReader := do
  let reader ← reader.saveKey
  let (text, cursor) ← quotedText double (reader.cursor.rest.length + 1) reader.cursor.next
  return ((reader.allowKey false).push (.scalar (String.ofList text) false)).moved cursor

/-- A plain scalar. -/
def plain (reader : TokenReader) : Reading TokenReader := do
  let reader ← reader.saveKey
  let (text, cursor, ended) :=
    plainText reader.inFlow (reader.indent + 1) (reader.cursor.rest.length + 1) reader.cursor
  return ((reader.allowKey ended).push (.scalar (String.ofList text) true)).moved cursor

/-- Whether a plain scalar begins at a place. -/
def beginsPlain (reader : TokenReader) : List Char → Bool
  | [] => false
  | c :: rest =>
    !(endsWord [c] || "-?:,[]\x7b\x7d#&*!|>'\"%@".toList.contains c || c.toNat = 0x60)
      || (!endsWord rest && (c = '-' || (!reader.inFlow && (c = '?' || c = ':'))))

/-- The next token, which begins at the place where the reader stands. -/
def token (reader : TokenReader) : Reading TokenReader :=
  let cursor := reader.cursor
  match cursor.rest with
  | [] => .error .illFormed
  | c :: rest =>
    if c = '%' && cursor.column = 0 then reader.directive
    else if c = '-' && cursor.column = 0 && cursor.atMarker then reader.marker .documentStart
    else if c = '.' && cursor.column = 0 && cursor.atMarker then reader.marker .documentEnd
    else if c = '[' then reader.openFlow .flowSequenceStart
    else if c = '\x7b' then reader.openFlow .flowMappingStart
    else if c = ']' then reader.closeFlow .flowSequenceEnd
    else if c = '\x7d' then reader.closeFlow .flowMappingEnd
    else if c = ',' then reader.flowEntry
    else if c = '-' && endsWord rest then reader.blockEntry
    else if c = '?' && (reader.inFlow || endsWord rest) then reader.explicitKey
    else if c = ':' && (reader.inFlow || endsWord rest) then reader.valueMark
    else if c = '*' then reader.named .alias
    else if c = '&' then reader.named .anchor
    else if c = '!' then reader.tagMark
    else if c = '|' && !reader.inFlow then reader.block false
    else if c = '>' && !reader.inFlow then reader.block true
    else if c = '\'' then reader.quoted false
    else if c = '"' then reader.quoted true
    else if reader.beginsPlain cursor.rest then reader.plain
    else .error .illFormed

/-- All tokens from the reader's place on. -/
def all : Nat → TokenReader → Reading (List Token)
  | 0, _ => .error .illFormed
  | fuel + 1, reader => do
    let reader ← (reader.toToken (reader.cursor.rest.length + 1)).dropStale
    let reader := reader.unwind reader.cursor.column
    if reader.cursor.rest.isEmpty then
      return ((← reader.outside).push .streamEnd).tokens.toList
    else all fuel (← reader.token)

end TokenReader

/-- The tokens of a text. A mark of byte order at its beginning is no part of it. -/
def tokens (cs : List Char) : Reading (List Token) :=
  if !cs.all isAllowed then .error .illFormed
  else
    let reader := TokenReader.start cs
    let reader := if cs.head? = some '\uFEFF' then reader.skip 1 else reader
    reader.all (cs.length + 1)

end ClarityDelta.Data.Yaml
