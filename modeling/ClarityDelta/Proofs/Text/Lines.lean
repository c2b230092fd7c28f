import ClarityDelta.Text.Lines

/-!
# Cutting a text into pieces

A text is cut character by character: a separator ends a piece, and any other character belongs to the
piece at hand. Pieces without separators are therefore got back from the text that they are joined to.
Lines are the pieces between line feeds.
-/

namespace ClarityDelta.Text

variable {separator : Char}

/-! ## Pieces -/

/-- A separator ends an empty piece. -/
theorem splitAt_separator (separator : Char) (cs : List Char) :
    splitAt separator (separator :: cs) = [] :: splitAt separator cs := by
  rw [splitAt, if_pos rfl]

/-- Any other character belongs to the first piece. -/
theorem splitAt_cons {c : Char} (hc : c ≠ separator) {cs piece : List Char}
    {rest : List (List Char)} (h : splitAt separator cs = piece :: rest) :
    splitAt separator (c :: cs) = (c :: piece) :: rest := by
  rw [splitAt, if_neg hc, h]

/-- No piece of a text has the separator in it. -/
theorem not_mem_of_mem_splitAt {cs piece : List Char} (h : piece ∈ splitAt separator cs) :
    separator ∉ piece := by
  induction cs generalizing piece with
  | nil =>
    obtain rfl := List.mem_singleton.1 h
    exact List.not_mem_nil
  | cons c cs ih =>
    by_cases hc : c = separator
    · subst hc
      rw [splitAt_separator] at h
      rcases List.mem_cons.1 h with rfl | h
      · exact List.not_mem_nil
      · exact ih h
    · obtain ⟨first, rest, hpieces⟩ := List.exists_cons_of_ne_nil (splitAt_ne_nil separator cs)
      rw [hpieces] at ih
      rw [splitAt_cons hc hpieces] at h
      rcases List.mem_cons.1 h with rfl | h
      · have hfirst := ih List.mem_cons_self
        simpa [Ne.symm hc] using hfirst
      · exact ih (List.mem_cons_of_mem first h)

/-- The pieces of a text have its characters only. -/
theorem mem_of_mem_splitAt {cs piece : List Char} (h : piece ∈ splitAt separator cs) {c : Char}
    (hc : c ∈ piece) : c ∈ cs := by
  induction cs generalizing piece with
  | nil =>
    obtain rfl := List.mem_singleton.1 h
    exact absurd hc List.not_mem_nil
  | cons d cs ih =>
    by_cases hd : d = separator
    · subst hd
      rw [splitAt_separator] at h
      rcases List.mem_cons.1 h with rfl | h
      · exact absurd hc List.not_mem_nil
      · exact List.mem_cons_of_mem d (ih h hc)
    · obtain ⟨first, rest, hpieces⟩ := List.exists_cons_of_ne_nil (splitAt_ne_nil separator cs)
      rw [hpieces] at ih
      rw [splitAt_cons hd hpieces] at h
      rcases List.mem_cons.1 h with rfl | h
      · rcases List.mem_cons.1 hc with rfl | hc
        · exact List.mem_cons_self
        · exact List.mem_cons_of_mem d (ih List.mem_cons_self hc)
      · exact List.mem_cons_of_mem d (ih (List.mem_cons_of_mem first h) hc)

/-- The first piece of a text goes as far as the first separator. -/
theorem splitAt_append {piece : List Char} (h : separator ∉ piece) (cs : List Char) :
    splitAt separator (piece ++ separator :: cs) = piece :: splitAt separator cs := by
  induction piece with
  | nil => exact splitAt_separator separator cs
  | cons c piece ih =>
    have hc : c ≠ separator := fun heq => h (heq ▸ List.mem_cons_self)
    exact splitAt_cons hc (ih fun hmem => h (List.mem_cons_of_mem c hmem))

/-- Texts with a separator between them have the pieces of both. -/
theorem splitAt_append_separator (separator : Char) (cs ds : List Char) :
    splitAt separator (cs ++ separator :: ds) = splitAt separator cs ++ splitAt separator ds := by
  induction cs with
  | nil => exact splitAt_separator separator ds
  | cons c cs ih =>
    by_cases hc : c = separator
    · subst hc
      rw [List.cons_append, splitAt_separator, splitAt_separator, ih, List.cons_append]
    · obtain ⟨piece, rest, h⟩ := List.exists_cons_of_ne_nil (splitAt_ne_nil separator cs)
      rw [h, List.cons_append] at ih
      rw [List.cons_append, splitAt_cons hc h, splitAt_cons hc ih, List.cons_append]

/-- A text without separators is one piece. -/
theorem splitAt_of_not_mem {piece : List Char} (h : separator ∉ piece) :
    splitAt separator piece = [piece] := by
  induction piece with
  | nil => rfl
  | cons c piece ih =>
    have hc : c ≠ separator := fun heq => h (heq ▸ List.mem_cons_self)
    exact splitAt_cons hc (ih fun hmem => h (List.mem_cons_of_mem c hmem))

/-- What stands behind a text without a separator belongs to the last piece. -/
theorem exists_splitAt_append {behind : List Char} (h : separator ∉ behind) (cs : List Char) :
    ∃ front last, splitAt separator (cs ++ behind) = front ++ [last ++ behind] := by
  induction cs with
  | nil => exact ⟨[], [], splitAt_of_not_mem h⟩
  | cons c cs ih =>
    obtain ⟨front, last, hcut⟩ := ih
    by_cases hc : c = separator
    · subst hc
      exact ⟨[] :: front, last, by rw [List.cons_append, splitAt_separator, hcut]; rfl⟩
    · cases front with
      | nil => exact ⟨[], c :: last, by rw [List.cons_append, splitAt_cons hc hcut]; rfl⟩
      | cons piece front =>
        exact ⟨(c :: piece) :: front, last, by rw [List.cons_append, splitAt_cons hc hcut]; rfl⟩

/-- A text joined of pieces has their characters and the separator. -/
theorem mem_joinWith {separator c : Char} {pieces : List (List Char)}
    (h : c ∈ joinWith separator pieces) : c = separator ∨ ∃ piece ∈ pieces, c ∈ piece := by
  induction pieces with
  | nil => exact absurd h List.not_mem_nil
  | cons piece rest ih =>
    have hrest : c ∈ joinWith separator rest → c = separator ∨ ∃ p ∈ piece :: rest, c ∈ p := by
      intro hmem
      rcases ih hmem with heq | ⟨p, hp, hc⟩
      · exact Or.inl heq
      · exact Or.inr ⟨p, List.mem_cons_of_mem piece hp, hc⟩
    cases rest with
    | nil => exact Or.inr ⟨piece, List.mem_cons_self, h⟩
    | cons next rest =>
      rcases List.mem_append.mp h with hmem | hmem
      · exact Or.inr ⟨piece, List.mem_cons_self, hmem⟩
      · rcases List.mem_cons.mp hmem with heq | hmem
        · exact Or.inl heq
        · exact hrest hmem

/-- Pieces are got back from the text that they are joined to. -/
theorem splitAt_joinWith {pieces : List (List Char)} (hne : pieces ≠ [])
    (h : ∀ piece ∈ pieces, separator ∉ piece) :
    splitAt separator (joinWith separator pieces) = pieces := by
  induction pieces with
  | nil => exact absurd rfl hne
  | cons piece rest ih =>
    have hpiece := h piece List.mem_cons_self
    cases rest with
    | nil => exact splitAt_of_not_mem hpiece
    | cons next rest =>
      have hrest := ih (List.cons_ne_nil next rest) fun l hl => h l (List.mem_cons_of_mem piece hl)
      have hjoin : joinWith separator (piece :: next :: rest) =
          piece ++ separator :: joinWith separator (next :: rest) := rfl
      rw [hjoin, splitAt_append hpiece, hrest]

/-- Pieces joined are the beginning of what they and more pieces are joined to. -/
theorem joinWith_prefix (separator : Char) (front behind : List (List Char)) :
    joinWith separator front <+: joinWith separator (front ++ behind) := by
  induction front with
  | nil => exact List.nil_prefix
  | cons piece rest ih =>
    cases rest with
    | nil =>
      cases behind with
      | nil => exact List.prefix_rfl
      | cons next behind => exact List.prefix_append piece _
    | cons next rest =>
      exact (List.prefix_append_right_inj piece).2 (List.cons_prefix_cons.2 ⟨rfl, ih⟩)

/-! ## Lines -/

/-- Every text has a line. -/
theorem lines_ne_nil (cs : List Char) : lines cs ≠ [] :=
  splitAt_ne_nil '\n' cs

/-- A line feed ends an empty line. -/
theorem lines_newline (cs : List Char) : lines ('\n' :: cs) = [] :: lines cs :=
  rfl

/-- Any other character belongs to the first line. -/
theorem lines_cons {c : Char} (hc : c ≠ '\n') {cs line : List Char} {rest : List (List Char)}
    (h : lines cs = line :: rest) : lines (c :: cs) = (c :: line) :: rest :=
  splitAt_cons hc h

/-- No line of a text has a line feed in it. -/
theorem newline_not_mem_of_mem_lines {cs line : List Char} (h : line ∈ lines cs) : '\n' ∉ line :=
  not_mem_of_mem_splitAt h

/-- Texts with a line feed between them have the lines of both. -/
theorem lines_append_newline (cs ds : List Char) : lines (cs ++ '\n' :: ds) = lines cs ++ lines ds :=
  splitAt_append_separator '\n' cs ds

/-- Lines are got back from the text that they are joined to. -/
theorem lines_unlines {ls : List (List Char)} (hne : ls ≠ []) (hls : ∀ l ∈ ls, '\n' ∉ l) :
    lines (unlines ls) = ls :=
  splitAt_joinWith hne hls

end ClarityDelta.Text
