import ClarityDelta.Text.Blank
import ClarityDelta.Text.Lines

/-!
# Lines on a console

A text is laid out on lines of a given number of cells. Lines break between words, and a word that
fits no line is cut. Most characters take one cell, East Asian and pictorial ones two, combining ones
none.
-/

namespace ClarityDelta.Terminal.Layout

open Text

/-- The ranges of characters that take two cells. -/
def wideRanges : List (Nat × Nat) :=
  [(0x1100, 0x115F), (0x231A, 0x231B), (0x2329, 0x232A), (0x23E9, 0x23EC), (0x23F0, 0x23F0),
    (0x23F3, 0x23F3), (0x25FD, 0x25FE), (0x2614, 0x2615), (0x2648, 0x2653), (0x267F, 0x267F),
    (0x2693, 0x2693), (0x26A1, 0x26A1), (0x26AA, 0x26AB), (0x26BD, 0x26BE), (0x26C4, 0x26C5),
    (0x26CE, 0x26CE), (0x26D4, 0x26D4), (0x26EA, 0x26EA), (0x26F2, 0x26F3), (0x26F5, 0x26F5),
    (0x26FA, 0x26FA), (0x26FD, 0x26FD), (0x2705, 0x2705), (0x270A, 0x270B), (0x2728, 0x2728),
    (0x274C, 0x274C), (0x274E, 0x274E), (0x2753, 0x2755), (0x2757, 0x2757), (0x2795, 0x2797),
    (0x27B0, 0x27B0), (0x27BF, 0x27BF), (0x2B1B, 0x2B1C), (0x2B50, 0x2B50), (0x2B55, 0x2B55),
    (0x2E80, 0x303E), (0x3041, 0x3247), (0x3250, 0x4DBF), (0x4E00, 0xA4C6), (0xA960, 0xA97C),
    (0xAC00, 0xD7A3), (0xF900, 0xFAFF), (0xFE10, 0xFE19), (0xFE30, 0xFE6B), (0xFF01, 0xFF60),
    (0xFFE0, 0xFFE6), (0x16FE0, 0x18CD5), (0x1B000, 0x1B2FB), (0x1F004, 0x1F004),
    (0x1F0CF, 0x1F0CF), (0x1F18E, 0x1F18E), (0x1F191, 0x1F19A), (0x1F200, 0x1F320),
    (0x1F32D, 0x1F335), (0x1F337, 0x1F37C), (0x1F37E, 0x1F393), (0x1F3A0, 0x1F3CA),
    (0x1F3CF, 0x1F3D3), (0x1F3E0, 0x1F3F0), (0x1F3F4, 0x1F3F4), (0x1F3F8, 0x1F43E),
    (0x1F440, 0x1F440), (0x1F442, 0x1F4FC), (0x1F4FF, 0x1F53D), (0x1F54B, 0x1F54E),
    (0x1F550, 0x1F567), (0x1F57A, 0x1F57A), (0x1F595, 0x1F596), (0x1F5A4, 0x1F5A4),
    (0x1F5FB, 0x1F64F), (0x1F680, 0x1F6C5), (0x1F6CC, 0x1F6CC), (0x1F6D0, 0x1F6D2),
    (0x1F6D5, 0x1F6D7), (0x1F6EB, 0x1F6EC), (0x1F6F4, 0x1F6FC), (0x1F7E0, 0x1F7EB),
    (0x1F90C, 0x1F93A), (0x1F93C, 0x1F945), (0x1F947, 0x1F9FF), (0x1FA70, 0x1FAF6),
    (0x20000, 0x2FFFD), (0x30000, 0x3FFFD)]

/-- The ranges of characters that take no cell. -/
def emptyRanges : List (Nat × Nat) :=
  [(0, 0x1F), (0x7F, 0x9F), (0x300, 0x36F), (0x483, 0x489), (0x591, 0x5BD), (0x610, 0x61A),
    (0x64B, 0x65F), (0x200B, 0x200F), (0x2028, 0x202E), (0x2060, 0x2063), (0x20D0, 0x20F0),
    (0xFE00, 0xFE0F), (0xFE20, 0xFE2F), (0xE0100, 0xE01EF)]

/-- The cells that a character takes. -/
def cells (c : Char) : Nat :=
  let within (ranges : List (Nat × Nat)) := ranges.any fun (a, b) => a ≤ c.toNat && c.toNat ≤ b
  if c.toNat < 0x300 then (if within emptyRanges then 0 else 1)
  else if within emptyRanges then 0 else if within wideRanges then 2 else 1

/-- The cells that a text takes. -/
def width (cs : List Char) : Nat :=
  cs.foldl (fun n c => n + cells c) 0

/-- A text cut into words, each with the blanks around it; the last line of the text may be nothing
but blanks, which belong to no word. -/
def blankedWords : Nat → List Char → List (List Char)
  | 0, _ => []
  | fuel + 1, cs =>
    let before := cs.takeWhile isBlank
    let rest := cs.dropWhile isBlank
    let word := rest.takeWhile (!isBlank ·)
    let rest := rest.dropWhile (!isBlank ·)
    if word.isEmpty then []
    else (before ++ word ++ rest.takeWhile isBlank) :: blankedWords fuel (rest.dropWhile isBlank)

/-- A word cut into pieces of at most the given number of cells, the piece begun being given. -/
def chop (columns : Nat) (begun : List Char) (used : Nat) : List Char → List (List Char)
  | [] => [begun]
  | c :: rest =>
    if columns < used + cells c then begun :: chop columns [c] (cells c) rest
    else chop columns (begun ++ [c]) (used + cells c) rest

/-- The lines that words make. The line begun, and the cells used on it, are given. -/
def fillLines (columns : Nat) (begun : List Char) (used : Nat) :
    List (List Char) → List (List Char)
  | [] => [begun]
  | word :: rest =>
    let size := width (trimEnd word)
    if size + used ≤ columns then
      fillLines columns (begun ++ word) (used + width word) rest
    else if columns < size then
      let pieces := chop columns [] 0 word
      let last := pieces.getLastD []
      let lines := (if begun.isEmpty then [] else [begun]) ++ pieces.dropLast
      lines ++ fillLines columns last (width last) rest
    else if used = 0 || begun.isEmpty then fillLines columns (begun ++ word) used rest
    else begun :: fillLines columns word (width word) rest

/-- Tabs become blanks up to the next column that is a multiple of eight. -/
def expandTabs (column : Nat) : List Char → List Char
  | [] => []
  | '\t' :: rest =>
    let gap := 8 - column % 8
    List.replicate gap ' ' ++ expandTabs (column + gap) rest
  | c :: rest => c :: expandTabs (column + cells c) rest

/-- Whether a control character is not shown at all. -/
def isDropped (c : Char) : Bool :=
  [7, 8, 11, 12, 13].contains c.toNat

/-- The first characters of a text that fit the given number of cells. -/
def fitting (columns : Nat) : List Char → List Char
  | [] => []
  | c :: rest => if columns < cells c then [] else c :: fitting (columns - cells c) rest

/-- The lines of a text, without blanks at their ends. -/
def lay (columns : Nat) (cs : List Char) : List (List Char) :=
  (lines (cs.filter (!isDropped ·))).flatMap fun line =>
    let line := expandTabs 0 line
    let words := blankedWords line.length line
    let rest := line.drop words.flatten.length
    match (fillLines columns [] 0 words).reverse with
    | [] => [[]]
    | last :: before => (((last ++ rest) :: before).reverse).map fun l => trimEnd (fitting columns l)

end ClarityDelta.Terminal.Layout
