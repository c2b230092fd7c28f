/-!
# What is shown on the terminal

Output is a text or a table. Texts and the cells of a table are marked up, or shown as they are.
-/

namespace ClarityDelta.Terminal

/-- A cell of a table. -/
inductive Cell where
  | markup (s : String)
  | plain (s : String)
  deriving DecidableEq, Repr

/-- Something shown. -/
inductive Shown where
  | markup (s : String)
  | plain (s : String)
  | table (title : String) (columns : List String) (rows : List (List Cell))
  deriving DecidableEq, Repr

end ClarityDelta.Terminal
