import ClarityDelta.Text.Blank
import ClarityDelta.Text.Search

/-!
# Definition headers

A function definition begins with an opening parenthesis, `define-public`, `define-private` or
`define-read-only`, blanks, and the opening parenthesis of its signature, which must not be empty.
The name is the first word of the signature as far as the line shows it.
-/

namespace ClarityDelta.Source

open Text

/-- The kinds of function that a contract defines. -/
inductive FunctionKind where
  | publicFunction
  | privateFunction
  | readOnly
  deriving DecidableEq, Repr

namespace FunctionKind

/-- The word for the kind, as it stands after `define-`. -/
def name : FunctionKind → String
  | publicFunction => "public"
  | privateFunction => "private"
  | readOnly => "read-only"

/-- All kinds, in the order in which a header is tried for them. -/
def all : List FunctionKind :=
  [publicFunction, privateFunction, readOnly]

/-- The kind with the given name. -/
def ofName? (s : String) : Option FunctionKind :=
  all.find? (·.name == s)

/-- A kind is found by its name. -/
theorem ofName?_name (kind : FunctionKind) : ofName? kind.name = some kind := by
  cases kind <;> rfl

end FunctionKind

/-- What the first line of a definition tells: the kind and the name, which may be empty. -/
structure Header where
  kind : FunctionKind
  name : String
  deriving DecidableEq, Repr

namespace Header

/-- The signature of a definition: the characters up to a closing parenthesis, at least one. -/
def signature? (cs : List Char) : Option (List Char) :=
  match cs.takeWhile (· ≠ ')') with
  | [] => none
  | c :: inside => some (c :: inside)

/-- The header of the given kind at the beginning of what follows `define-`. -/
def ofKind? (kind : FunctionKind) (cs : List Char) : Option Header := do
  let afterKind ← after? kind.name.toList cs
  let atSignature ← afterBlanks? afterKind
  let inside ← after? ['('] atSignature
  let signature ← signature? inside
  return ⟨kind, String.ofList (firstWord signature)⟩

/-- The header at the very beginning of a text. -/
def here? (cs : List Char) : Option Header := do
  let afterDefine ← after? "(define-".toList cs
  FunctionKind.all.findSome? (ofKind? · afterDefine)

/-- The leftmost header of a line, and what follows the parenthesis that opens it. -/
def find? : List Char → Option (Header × List Char)
  | [] => none
  | c :: cs =>
    match here? (c :: cs) with
    | some header => some (header, cs)
    | none => find? cs

end Header

end ClarityDelta.Source
