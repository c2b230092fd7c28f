/-!
# Lines and separators

Cutting a text at a separator and joining the pieces again, and the line ends that a listing of
another program may use.
-/

namespace ClarityDelta.Text

/-- The pieces of a text between the occurrences of a separator: one more than there are
separators. -/
def splitAt (separator : Char) : List Char → List (List Char)
  | [] => [[]]
  | c :: cs =>
    if c = separator then [] :: splitAt separator cs
    else
      match splitAt separator cs with
      | [] => [[c]]
      | piece :: pieces => (c :: piece) :: pieces

/-- Pieces joined by a separator. -/
def joinWith (separator : Char) : List (List Char) → List Char
  | [] => []
  | [piece] => piece
  | piece :: pieces => piece ++ separator :: joinWith separator pieces

/-- Splitting gives one piece at least. -/
theorem splitAt_ne_nil (separator : Char) (cs : List Char) : splitAt separator cs ≠ [] := by
  cases cs with
  | nil => simp [splitAt]
  | cons c cs =>
    simp only [splitAt]
    split
    · simp
    · split <;> simp

/-- Cutting and joining at the same separator gives the text back. -/
theorem joinWith_splitAt (separator : Char) (cs : List Char) :
    joinWith separator (splitAt separator cs) = cs := by
  induction cs with
  | nil => rfl
  | cons c cs ih =>
    obtain ⟨piece, pieces, h⟩ := List.exists_cons_of_ne_nil (splitAt_ne_nil separator cs)
    rw [h] at ih
    by_cases hc : c = separator
    · simp [splitAt, hc, h, joinWith, ih]
    · simp only [splitAt, hc, if_false, h]
      cases pieces with
      | nil => simpa [joinWith] using ih
      | cons _ _ => simpa [joinWith] using ih

/-- The lines of a text, cut at line feeds only. -/
def lines (cs : List Char) : List (List Char) :=
  splitAt '\n' cs

/-- Lines joined by line feeds. -/
def unlines (ls : List (List Char)) : List Char :=
  joinWith '\n' ls

/-- A character that ends a line in a listing. -/
def isLineEnd (c : Char) : Bool :=
  let n := c.toNat
  (10 ≤ n && n ≤ 13) || (28 ≤ n && n ≤ 30) || n == 0x85 || n == 0x2028 || n == 0x2029

/-- The lines of a listing: a line ends at any line end, a carriage return with a line feed being
one, and a last line without text does not count. `line` holds the open line, last character
first. -/
def listingFrom (line : List Char) : List Char → List (List Char)
  | [] => if line.isEmpty then [] else [line.reverse]
  | '\r' :: '\n' :: cs => line.reverse :: listingFrom [] cs
  | c :: cs =>
    if isLineEnd c then line.reverse :: listingFrom [] cs else listingFrom (c :: line) cs

/-- The lines of a listing. -/
def listing (cs : List Char) : List (List Char) :=
  listingFrom [] cs

/-- Carriage returns, alone or before a line feed, as line feeds. -/
def normalizeLineEnds : List Char → List Char
  | [] => []
  | '\r' :: '\n' :: cs => '\n' :: normalizeLineEnds cs
  | c :: cs => (if c = '\r' then '\n' else c) :: normalizeLineEnds cs

end ClarityDelta.Text
