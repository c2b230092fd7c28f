import ClarityDelta.Text.Lines

/-!
# Masked source

A line of source is masked by putting a blank in place of every character inside a string and of
every comment, so that columns stay. A string may run over lines; a comment, from `;;` outside a
string, ends with its line. In a string a backslash hides the next character of the same line.
-/

namespace ClarityDelta.Source

/-- Where the next character stands: in code, in a string, or after a backslash in a string. -/
inductive Region where
  | code
  | string
  | escaped
  deriving DecidableEq, Repr

/-- The region in which the line after this one begins: a backslash hides nothing beyond its own
line. -/
def Region.nextLine : Region → Region
  | .escaped => .string
  | region => region

/-- A line masked from the region in which it begins, and the region in which it ends. -/
def maskLine : Region → List Char → List Char × Region
  | region, [] => ([], region.nextLine)
  | .escaped, _ :: cs =>
    let (masked, last) := maskLine .string cs
    (' ' :: masked, last)
  | .string, c :: cs =>
    if c = '"' then
      let (masked, last) := maskLine .code cs
      (c :: masked, last)
    else
      let (masked, last) := maskLine (if c = '\\' then .escaped else .string) cs
      (' ' :: masked, last)
  | .code, ';' :: ';' :: cs => (' ' :: ' ' :: cs.map fun _ => ' ', .code)
  | .code, c :: cs =>
    let (masked, last) := maskLine (if c = '"' then .string else .code) cs
    (c :: masked, last)

/-- Lines masked in turn, the first from the given region. -/
def maskLinesFrom (region : Region) : List (List Char) → List (List Char)
  | [] => []
  | line :: rest =>
    let (masked, last) := maskLine region line
    masked :: maskLinesFrom last rest

/-- Whether parentheses in comments and strings count. -/
inductive Scanning where
  | raw
  | commentAware
  deriving DecidableEq, Repr

/-- The lines as parentheses are counted in them. -/
def Scanning.view : Scanning → List (List Char) → List (List Char)
  | .raw, ls => ls
  | .commentAware, ls => maskLinesFrom .code ls

/-- Masking keeps the length of a line, hence every column. -/
theorem length_maskLine (region : Region) (line : List Char) :
    (maskLine region line).1.length = line.length := by
  fun_induction maskLine region line <;> simp_all

end ClarityDelta.Source
