/-!
# Parentheses

The parentheses of a line with their columns, and the depth that they lead to. A form is closed
where the depth is zero.
-/

namespace ClarityDelta.Source

/-- The two parentheses. -/
inductive Paren where
  | opening
  | closing
  deriving DecidableEq, Repr

/-- The word for a parenthesis in a listing. -/
def Paren.name : Paren → String
  | .opening => "open"
  | .closing => "close"

/-- The parenthesis that a character is, if it is one. -/
def Paren.ofChar? : Char → Option Paren
  | '(' => some .opening
  | ')' => some .closing
  | _ => none

/-- What a parenthesis adds to the depth. -/
def Paren.weight : Paren → Int
  | .opening => 1
  | .closing => -1

/-- A parenthesis and the column where it stands, the first column being 0. -/
structure ParenToken where
  paren : Paren
  column : Nat
  deriving DecidableEq, Repr

/-- The parentheses of a text whose first character stands in the given column. -/
def parenTokensFrom (column : Nat) : List Char → List ParenToken
  | [] => []
  | c :: cs =>
    match Paren.ofChar? c with
    | some paren => ⟨paren, column⟩ :: parenTokensFrom (column + 1) cs
    | none => parenTokensFrom (column + 1) cs

/-- The parentheses of a line from the column `start` on. -/
def parenTokens (line : List Char) (start : Nat) : List ParenToken :=
  parenTokensFrom start (line.drop start)

/-- The sum of the weights of a text's parentheses. -/
def weight (cs : List Char) : Int :=
  (parenTokensFrom 0 cs).foldr (fun token sum => token.paren.weight + sum) 0

/-- The depth after a line is read from the column `start` on, at the given depth. -/
def depthAfter (depth : Int) (line : List Char) (start : Nat) : Int :=
  depth + weight (line.drop start)

/-- Whether the form that is read is closed. -/
def isClosed (depth : Int) : Bool :=
  depth == 0

/-- What one character adds to the depth. -/
def charWeight (c : Char) : Int :=
  ((Paren.ofChar? c).map Paren.weight).getD 0

/-- The column that the tokens of a text are counted from is no part of their weights. -/
theorem foldr_parenTokensFrom (column : Nat) (cs : List Char) :
    (parenTokensFrom column cs).foldr (fun token sum => token.paren.weight + sum) 0
      = weight cs := by
  have shift (m n : Nat) :
      (parenTokensFrom m cs).foldr (fun token sum => token.paren.weight + sum) 0
        = (parenTokensFrom n cs).foldr (fun token sum => token.paren.weight + sum) 0 := by
    induction cs generalizing m n with
    | nil => rfl
    | cons c cs ih =>
      cases h : Paren.ofChar? c with
      | none => simpa only [parenTokensFrom, h] using ih (m + 1) (n + 1)
      | some paren =>
        simp only [parenTokensFrom, h, List.foldr_cons]
        rw [ih (m + 1) (n + 1)]
  exact shift column 0

/-- An empty text has no weight. -/
theorem weight_nil : weight [] = 0 :=
  rfl

/-- The weight of a text is what its first character adds to the weight of the rest. -/
theorem weight_cons (c : Char) (cs : List Char) : weight (c :: cs) = charWeight c + weight cs := by
  cases h : Paren.ofChar? c with
  | none =>
    rw [weight, parenTokensFrom, charWeight, h, Option.map_none, Option.getD_none, Int.zero_add]
    exact foldr_parenTokensFrom 1 cs
  | some paren =>
    rw [weight, parenTokensFrom, charWeight, h, Option.map_some, Option.getD_some]
    exact congrArg (paren.weight + ·) (foldr_parenTokensFrom 1 cs)

end ClarityDelta.Source
