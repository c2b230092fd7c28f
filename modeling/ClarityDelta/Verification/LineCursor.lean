import ClarityDelta.Text.Blank

/-!
# Line cursor

A cursor goes through lines from first to last and hands each out trimmed. It can also skip filler,
the lines that hold only blanks.
-/

namespace ClarityDelta.Verification

open Text

/-- The first line with content, trimmed, and the lines after it. -/
def contentLine? : List (List Char) → Option (List Char × List (List Char))
  | [] => none
  | line :: rest => if isBlankText line then contentLine? rest else some (trim line, rest)

/-- The lines after the first one with content are fewer. -/
theorem length_of_contentLine? {ls rest : List (List Char)} {line : List Char}
    (h : contentLine? ls = some (line, rest)) : rest.length < ls.length := by
  induction ls with
  | nil => simp [contentLine?] at h
  | cons l ls ih =>
    rw [contentLine?] at h
    split at h
    · exact Nat.lt_succ_of_lt (ih h)
    · simp only [Option.some.injEq, Prod.mk.injEq] at h
      simp [h.2]

/-- A cursor: the number of lines passed, and those still ahead. -/
structure LineCursor where
  position : Nat
  ahead : List (List Char)
  deriving DecidableEq, Repr

namespace LineCursor

/-- A cursor at the first of the given lines. -/
def start (ls : List (List Char)) : LineCursor :=
  ⟨0, ls⟩

/-- Whether all lines are passed. -/
def atEnd (cursor : LineCursor) : Bool :=
  cursor.ahead.isEmpty

/-- The next line, trimmed, and the cursor after it. -/
def nextLine (cursor : LineCursor) : Option (List Char) × LineCursor :=
  match cursor.ahead with
  | [] => (none, cursor)
  | line :: rest => (some (trim line), ⟨cursor.position + 1, rest⟩)

/-- The next line with content, trimmed, and the cursor after it: at the end when there is none. -/
def nextContentLine (cursor : LineCursor) : Option (List Char) × LineCursor :=
  match contentLine? cursor.ahead with
  | none => (none, ⟨cursor.position + cursor.ahead.length, []⟩)
  | some (line, rest) =>
    (some line, ⟨cursor.position + (cursor.ahead.length - rest.length), rest⟩)

end LineCursor

end ClarityDelta.Verification
