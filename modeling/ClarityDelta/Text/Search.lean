/-!
# Literal search

Finding a literal text at the beginning of another or anywhere in it.
-/

namespace ClarityDelta.Text

/-- What follows a literal at the beginning of a text, if the text begins with it. -/
def after? : List Char → List Char → Option (List Char)
  | [], cs => some cs
  | _ :: _, [] => none
  | p :: ps, c :: cs => if p = c then after? ps cs else none

/-- The text is the literal followed by what `after?` gives. -/
theorem after?_eq_some_iff {literal cs rest : List Char} :
    after? literal cs = some rest ↔ cs = literal ++ rest := by
  induction literal generalizing cs with
  | nil => simp [after?, eq_comm]
  | cons p ps ih =>
    cases cs with
    | nil => simp [after?]
    | cons c cs =>
      by_cases h : p = c
      · simp [after?, h, ih]
      · simp [after?, h, Ne.symm h]

/-- Whether a text begins with a literal. -/
def startsWith (literal cs : List Char) : Bool :=
  (after? literal cs).isSome

/-- A text begins with a literal exactly when the literal is a prefix. -/
theorem startsWith_iff {literal cs : List Char} :
    startsWith literal cs = true ↔ literal <+: cs := by
  rw [startsWith, Option.isSome_iff_exists]
  constructor
  · rintro ⟨rest, h⟩
    exact ⟨rest, (after?_eq_some_iff.1 h).symm⟩
  · rintro ⟨rest, h⟩
    exact ⟨rest, after?_eq_some_iff.2 h.symm⟩

/-- Whether a text ends with a literal. -/
def endsWith (literal cs : List Char) : Bool :=
  startsWith literal.reverse cs.reverse

/-- A text ends with a literal exactly when the literal is a suffix. -/
theorem endsWith_iff {literal cs : List Char} : endsWith literal cs = true ↔ literal <:+ cs := by
  rw [endsWith, startsWith_iff, List.reverse_prefix]

/-- Whether a literal occurs in a text. -/
def occursIn (literal : List Char) : List Char → Bool
  | [] => literal.isEmpty
  | c :: cs => startsWith literal (c :: cs) || occursIn literal cs

/-- A literal occurs in a text exactly when the text is the literal between two texts. -/
theorem occursIn_iff {literal cs : List Char} :
    occursIn literal cs = true ↔ ∃ before behind, cs = before ++ literal ++ behind := by
  induction cs with
  | nil =>
    simp only [occursIn, List.isEmpty_iff]
    constructor
    · rintro rfl
      exact ⟨[], [], rfl⟩
    · rintro ⟨before, behind, h⟩
      have := congrArg List.length h
      simp only [List.length_nil, List.length_append] at this
      exact List.eq_nil_of_length_eq_zero (by omega)
  | cons c cs ih =>
    simp only [occursIn, Bool.or_eq_true, startsWith, Option.isSome_iff_exists, ih]
    constructor
    · rintro (⟨rest, h⟩ | ⟨before, behind, h⟩)
      · exact ⟨[], rest, by simpa using after?_eq_some_iff.1 h⟩
      · exact ⟨c :: before, behind, by simp [h]⟩
    · rintro ⟨before, behind, h⟩
      cases before with
      | nil => exact .inl ⟨behind, after?_eq_some_iff.2 (by simpa using h)⟩
      | cons b before =>
        simp only [List.cons_append, List.cons.injEq] at h
        exact .inr ⟨before, behind, by simpa using h.2⟩

/-- Whether a literal occurs in a string. -/
def contains (text literal : String) : Bool :=
  occursIn literal.toList text.toList

end ClarityDelta.Text
