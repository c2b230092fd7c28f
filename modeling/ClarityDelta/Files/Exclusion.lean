import ClarityDelta.Text.Expression

/-!
# Exclusion patterns

A pattern is a literal text in which a star stands for any run of characters of one line. It is
searched for in the names of files as an expression, for which everything in it is escaped first and
the escaped stars are given their meaning after that.
-/

namespace ClarityDelta.Files

open Text

/-- An expression with every star that stands behind a backslash made the sign for a run of
characters, the backslash being taken away. -/
def withGaps : List Char → List Char
  | [] => []
  | '\\' :: '*' :: cs => '.' :: '*' :: withGaps cs
  | c :: cs => c :: withGaps cs

/-- The expression of a pattern. -/
def expression (pattern : String) : List Char :=
  withGaps (Expression.escape pattern.toList)

/-- Whether a pattern matches a name. -/
def patternMatches (pattern name : String) : Bool :=
  (Expression.read? (expression pattern)).any fun items => Expression.finds items name.toList

/-- The files that no pattern matches. -/
def withoutExcluded (patterns files : List String) : List String :=
  files.filter fun file => !patterns.any (patternMatches · file)

end ClarityDelta.Files
