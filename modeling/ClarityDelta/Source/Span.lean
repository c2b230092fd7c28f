import ClarityDelta.Source.Header
import ClarityDelta.Source.Paren

/-!
# Spans of definitions

The lines that each top-level definition covers. A definition begins in a line with a header and
ends with the first line at whose end as many parentheses are closed as were opened since the
header's own, or with the text when there is no such line. What stands inside a definition, other
headers included, belongs to it. Only the view of the lines counts, so the same function serves raw
and comment-aware scanning.
-/

namespace ClarityDelta.Source

/-- How many of the lines after a header belong to its definition, and the depth at the end of the
last of them, when the header's line ended at the given depth. -/
def bodyExtent (depth : Int) : List (List Char) → Nat × Int
  | [] => (0, depth)
  | line :: rest =>
    if isClosed depth then (0, depth)
    else
      let (count, last) := bodyExtent (depth + weight line) rest
      (count + 1, last)

/-- A body reaches over no more lines than there are. -/
theorem bodyExtent_le (depth : Int) (ls : List (List Char)) :
    (bodyExtent depth ls).1 ≤ ls.length := by
  fun_induction bodyExtent depth ls <;> simp_all

/-- A definition's header, its first and last line, the first line of a text being 1, and the depth
at its end: 0 when it is closed. -/
structure Span where
  header : Header
  first : Nat
  last : Nat
  depth : Int
  deriving DecidableEq, Repr

/-- Whether as many parentheses are closed as opened. -/
def Span.closed (span : Span) : Bool :=
  isClosed span.depth

/-- The spans in lines that follow `before` other lines. -/
def spansFrom (before : Nat) : List (List Char) → List Span
  | [] => []
  | line :: rest =>
    match Header.find? line with
    | none => spansFrom (before + 1) rest
    | some (header, inside) =>
      let extent := bodyExtent (1 + weight inside) rest
      ⟨header, before + 1, before + 1 + extent.1, extent.2⟩
        :: spansFrom (before + 1 + extent.1) (rest.drop extent.1)
termination_by ls => ls.length
decreasing_by all_goals simp only [List.length_cons, List.length_drop]; omega

/-- The spans of the definitions in a text's lines, in order. -/
def spans (ls : List (List Char)) : List Span :=
  spansFrom 0 ls

end ClarityDelta.Source
