/-!
# Blank characters

The characters that separate words and that trimming removes: Unicode's white space together with
the four separators U+001C to U+001F. Trimming and splitting into words are stated on lists of
characters; `trimmed` is the same for a string.
-/

namespace ClarityDelta.Text

/-- A character that separates words and is trimmed at the ends of a text. -/
def isBlank (c : Char) : Bool :=
  let n := c.toNat
  (9 ≤ n && n ≤ 13) || (28 ≤ n && n ≤ 32) || n == 0x85 || n == 0xA0 || n == 0x1680
    || (0x2000 ≤ n && n ≤ 0x200A) || n == 0x2028 || n == 0x2029 || n == 0x202F
    || n == 0x205F || n == 0x3000

/-- The text without the blanks in front. -/
def trimStart (cs : List Char) : List Char :=
  cs.dropWhile isBlank

/-- What follows at least one blank. -/
def afterBlanks? : List Char → Option (List Char)
  | [] => none
  | c :: cs => if isBlank c then some (trimStart cs) else none

/-- The text without the blanks at its end. -/
def trimEnd (cs : List Char) : List Char :=
  (cs.reverse.dropWhile isBlank).reverse

/-- The text without the blanks at either end. -/
def trim (cs : List Char) : List Char :=
  trimEnd (trimStart cs)

/-- A string without the blanks at either end. -/
def trimmed (s : String) : String :=
  String.ofList (trim s.toList)

/-- A text in which nothing but blanks occurs. -/
def isBlankText (cs : List Char) : Bool :=
  cs.all isBlank

/-- The first word of a text, empty when the text holds no word. -/
def firstWord (cs : List Char) : List Char :=
  (trimStart cs).takeWhile (!isBlank ·)

/-- Trimming the start makes no text longer. -/
theorem length_trimStart_le (cs : List Char) : (trimStart cs).length ≤ cs.length :=
  (List.dropWhile_sublist _).length_le

/-- The words of a text: its longest runs of characters that are not blank, in order. -/
def words (cs : List Char) : List (List Char) :=
  match _h : trimStart cs with
  | [] => []
  | c :: rest =>
    (c :: rest.takeWhile (!isBlank ·)) :: words (rest.dropWhile (!isBlank ·))
termination_by cs.length
decreasing_by
  have h₁ : (c :: rest).length ≤ cs.length := _h ▸ length_trimStart_le cs
  have h₂ : (rest.dropWhile (!isBlank ·)).length ≤ rest.length :=
    (List.dropWhile_sublist _).length_le
  simp only [List.length_cons] at h₁
  omega

end ClarityDelta.Text
