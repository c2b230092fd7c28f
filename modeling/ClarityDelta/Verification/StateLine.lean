import ClarityDelta.Text.Blank
import ClarityDelta.Text.Numeral
import ClarityDelta.Text.Search

/-!
# State lines

In a counterexample a state line tells the source line and the function of a step:
`State 1 file a.clar line 7 function f thread 0`, each gap being any run of blanks.
-/

namespace ClarityDelta.Verification

open Text

/-- The longest nonempty run of characters with a property, and the text after it. -/
def run? (p : Char → Bool) (cs : List Char) : Option (List Char × List Char) :=
  if (cs.takeWhile p).isEmpty then none else some (cs.takeWhile p, cs.dropWhile p)

/-- A word after a run of blanks, and the text after it. -/
def afterWord? (word : String) (cs : List Char) : Option (List Char) := do
  after? word.toList (← afterBlanks? cs)

/-- A numeral after a run of blanks, and the text after it. -/
def digits? (cs : List Char) : Option (List Char × List Char) := do
  run? isDigit (← afterBlanks? cs)

/-- What a state line tells: the digits of the line number, and the function. -/
structure StateLine where
  digits : List Char
  function : List Char
  deriving DecidableEq, Repr

namespace StateLine

/-- What follows the file in a state line. -/
def tail? (cs : List Char) : Option StateLine := do
  let cs ← afterWord? "line" cs
  let (digits, cs) ← digits? cs
  let cs ← afterWord? "function" cs
  let (function, cs) ← run? (!isBlank ·) (← afterBlanks? cs)
  let cs ← afterWord? "thread" cs
  let _ ← digits? cs
  some ⟨digits, function⟩

/-- The first place of a text at which the tail of a state line begins. -/
def firstTail? : List Char → Option StateLine
  | [] => none
  | c :: cs => tail? (c :: cs) <|> firstTail? cs

/-- What follows the word `file`: blanks, a file of at least one character and the tail. The file
is as short as can be; only when no other reading is left it is made of blanks alone. -/
def file? (cs : List Char) : Option StateLine :=
  let blanks := cs.takeWhile isBlank
  let rest := cs.dropWhile isBlank
  if blanks.isEmpty then none
  else firstTail? (rest.drop 1) <|>
    if blanks.length < 3 then none else tail? (' ' :: rest)

/-- A state line that begins with a text. -/
def here? (cs : List Char) : Option StateLine := do
  let cs ← after? "State".toList cs
  let (_, cs) ← digits? cs
  file? (← afterWord? "file" cs)

/-- The leftmost state line in a text. -/
def find? : List Char → Option StateLine
  | [] => none
  | c :: cs => here? (c :: cs) <|> find? cs

end StateLine

end ClarityDelta.Verification
