/-!
# Search expressions

An expression describes texts: most characters stand for themselves, a backslash takes its meaning
from the character behind it, and a point with a star stands for any run of characters of one line.
Nothing else that can be said in an expression is read here.
-/

namespace ClarityDelta.Text.Expression

/-- What an expression is made of. -/
inductive Item where
  | literal (c : Char)
  | gap
  deriving DecidableEq, Repr

/-- A character that means something else than itself. -/
def hasMeaning (c : Char) : Bool :=
  ['.', '\\', '[', '{', '(', ')', '*', '+', '?', '^', '$', '|'].contains c

/-- A character that is written behind a backslash to be taken literally: besides those with a meaning
also the ones that close or join something or stand in comments, and the blanks. -/
def isEscaped (c : Char) : Bool :=
  hasMeaning c || [']', '}', '-', '&', '~', '#', ' ', '\t', '\n', '\r', '\x0b', '\x0c'].contains c

/-- A text as an expression that describes this text only. -/
def escape (cs : List Char) : List Char :=
  cs.flatMap fun c => if isEscaped c then ['\\', c] else [c]

/-- What an expression is made of, none when it says more than is read here. A letter or a digit has
a meaning behind a backslash. -/
def read? : List Char → Option (List Item)
  | [] => some []
  | '\\' :: c :: cs => if c.isAlphanum then none else (read? cs).map (.literal c :: ·)
  | '.' :: '*' :: cs => (read? cs).map (.gap :: ·)
  | c :: cs => if hasMeaning c then none else (read? cs).map (.literal c :: ·)

/-- What may be left of a text behind a run of characters of one line. -/
def behindGap : List Char → List (List Char)
  | [] => [[]]
  | c :: cs => (c :: cs) :: if c = '\n' then [] else behindGap cs

/-- Whether a text begins with what is described. -/
def begins : List Item → List Char → Bool
  | [], _ => true
  | .literal _ :: _, [] => false
  | .literal c :: items, d :: cs => c = d && begins items cs
  | .gap :: items, cs => (behindGap cs).any (begins items)

/-- Whether what is described stands anywhere in a text. -/
def finds (items : List Item) : List Char → Bool
  | [] => begins items []
  | c :: cs => begins items (c :: cs) || finds items cs

end ClarityDelta.Text.Expression
