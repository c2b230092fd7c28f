import Mathlib.Data.List.TakeWhile
import ClarityDelta.Text.Blank

/-!
# Runs of characters

The readers of headers, words and state lines all take the longest run of characters with a property
and go on behind it. `takeWhile_dropWhile_iff` says which cut of a text that is, and
`afterBlanks?_eq_some_iff` says it for the run of blanks that has to stand between two words.
A text that begins and ends without a blank has no run of blanks to be trimmed: `trim_eq_self`. Any
other is what is left when trimmed, between two runs of blanks: `exists_eq_trim`.
-/

namespace ClarityDelta.Text

/-- The longest run with a property is the one whose characters all have it and after which the next
character, if there is one, lacks it. -/
theorem takeWhile_dropWhile_iff {p : Char → Bool} {cs run rest : List Char} :
    (cs.takeWhile p = run ∧ cs.dropWhile p = rest) ↔
      cs = run ++ rest ∧ (∀ c ∈ run, p c = true) ∧ ∀ c ∈ rest.head?, p c = false := by
  constructor
  · rintro ⟨rfl, rfl⟩
    refine ⟨List.takeWhile_append_dropWhile.symm, fun c hc => List.mem_takeWhile_imp hc, ?_⟩
    intro c hc
    have hnot := List.head?_dropWhile_not p cs
    rw [Option.mem_def] at hc
    rw [hc] at hnot
    exact hnot
  · rintro ⟨rfl, hrun, hrest⟩
    rw [List.takeWhile_append_of_pos hrun, List.dropWhile_append_of_pos hrun]
    cases rest with
    | nil => simp
    | cons c rest =>
      have hc : p c = false := hrest c rfl
      simp [hc]

/-- What `afterBlanks?` gives follows a run of blanks that is not empty and that could not be
longer. -/
theorem afterBlanks?_eq_some_iff {cs rest : List Char} :
    afterBlanks? cs = some rest ↔
      ∃ blanks, blanks ≠ [] ∧ cs = blanks ++ rest ∧ (∀ c ∈ blanks, isBlank c = true) ∧
        ∀ c ∈ rest.head?, isBlank c = false := by
  have hrun : afterBlanks? cs = some rest ↔
      cs.takeWhile isBlank ≠ [] ∧ cs.dropWhile isBlank = rest := by
    cases cs with
    | nil => simp [afterBlanks?]
    | cons c cs => cases hc : isBlank c <;> simp [afterBlanks?, trimStart, hc]
  rw [hrun]
  constructor
  · rintro ⟨hne, hrest⟩
    exact ⟨_, hne, takeWhile_dropWhile_iff.1 ⟨rfl, hrest⟩⟩
  · rintro ⟨blanks, hne, hcut⟩
    obtain ⟨rfl, hrest⟩ := takeWhile_dropWhile_iff.2 hcut
    exact ⟨hne, hrest⟩

/-- Nothing is trimmed from a text that begins and ends without a blank. -/
theorem trim_eq_self {cs : List Char} (hhead : ∀ c ∈ cs.head?, isBlank c = false)
    (hlast : ∀ c ∈ cs.getLast?, isBlank c = false) : trim cs = cs := by
  have hstart : cs.dropWhile isBlank = cs :=
    (takeWhile_dropWhile_iff.2 ⟨(List.nil_append cs).symm, nofun, hhead⟩).2
  have hend : cs.reverse.dropWhile isBlank = cs.reverse := by
    refine (takeWhile_dropWhile_iff.2 ⟨(List.nil_append _).symm, nofun, ?_⟩).2
    rwa [List.head?_reverse]
  rw [trim, trimStart, hstart, trimEnd, hend, List.reverse_reverse]

/-- Behind the first blanks a text does not begin with a blank. -/
theorem isBlank_of_mem_head?_dropWhile {cs : List Char} {c : Char}
    (h : c ∈ (cs.dropWhile isBlank).head?) : isBlank c = false :=
  (takeWhile_dropWhile_iff.1 ⟨rfl, rfl⟩).2.2 c h

/-- A trimmed text has nothing that could be trimmed. -/
theorem trim_trim (cs : List Char) : trim (trim cs) = trim cs := by
  apply trim_eq_self
  · intro c hc
    -- what is trimmed at the end leaves the first character as it is
    have hprefix : trim cs <+: trimStart cs := by
      rw [trim, trimEnd, ← List.reverse_suffix, List.reverse_reverse]
      exact List.dropWhile_suffix isBlank
    obtain ⟨rest, hrest⟩ := hprefix
    have hfirst : c ∈ (cs.dropWhile isBlank).head? := by
      rw [← trimStart, ← hrest, List.head?_append, Option.mem_def.1 hc]
      rfl
    exact isBlank_of_mem_head?_dropWhile hfirst
  · intro c hc
    rw [trim, trimEnd, List.getLast?_reverse] at hc
    exact isBlank_of_mem_head?_dropWhile hc

/-- A text that is not blank has something left when it is trimmed. -/
theorem trim_ne_nil {cs : List Char} (h : isBlankText cs = false) : trim cs ≠ [] := by
  intro hnil
  rw [trim, trimEnd, List.reverse_eq_nil_iff, List.dropWhile_eq_nil_iff] at hnil
  have hstart : trimStart cs = [] := by
    cases hcs : trimStart cs with
    | nil => rfl
    | cons c rest =>
      have hblank : isBlank c = true := hnil c (by simp [hcs])
      have hfirst : c ∈ (cs.dropWhile isBlank).head? := by
        rw [← trimStart, hcs]
        rfl
      exact absurd hblank (by simp [isBlank_of_mem_head?_dropWhile hfirst])
  rw [trimStart, List.dropWhile_eq_nil_iff] at hstart
  rw [isBlankText, List.all_eq_true.2 hstart] at h
  cases h

/-- What trimming takes away from the ends of a text. -/
def trimmedOff (cs : List Char) : List Char :=
  cs.takeWhile isBlank ++ ((trimStart cs).reverse.takeWhile isBlank).reverse

/-- A text is its trimmed form between blanks that are trimmed off. -/
theorem exists_eq_trim (cs : List Char) :
    ∃ front back, cs = front ++ (trim cs ++ back) ∧ trimmedOff cs = front ++ back ∧
      (∀ c ∈ front, isBlank c = true) ∧ ∀ c ∈ back, isBlank c = true := by
  refine ⟨_, _, ?_, rfl, fun c hc => List.mem_takeWhile_imp hc,
    fun c hc => List.mem_takeWhile_imp (List.mem_reverse.mp hc)⟩
  have hback : trimStart cs = trim cs ++ ((trimStart cs).reverse.takeWhile isBlank).reverse := by
    rw [trim, trimEnd, ← List.reverse_append, List.takeWhile_append_dropWhile,
      List.reverse_reverse]
  rw [← hback, trimStart, List.takeWhile_append_dropWhile]

end ClarityDelta.Text
