import Mathlib.Data.List.Infix
import ClarityDelta.Files.Exclusion
import ClarityDelta.Text.Search
import ClarityDelta.Proofs.Text.Lines

/-!
# What exclusion patterns match

A pattern says: the pieces between my stars stand in the name one after another. What is run is a
search for an expression that is made of the pattern by writing into its text, twice: everything is
escaped, and what looks like an escaped star is replaced. So two things are shown.

* `read?_expression`: whatever backslashes, stars and other signs a pattern has, its expression is
  read as the pattern itself, a star as a gap and any other character as this character. A star of
  the expression is never taken for one that the backslash of another character escapes, since what
  is escaped does not begin with a star (`head?_escape`).
* `begins_iff`: what an expression of literals and gaps describes begins a text exactly when the
  first piece does and the other pieces stand in order behind it. The gaps of an expression end at
  the end of the line, which a name of one line does not have.
-/

namespace ClarityDelta.Text.Expression

/-! ## Expressions that are escaped -/

/-- Characters are escaped one by one. -/
theorem escape_cons (c : Char) (cs : List Char) :
    escape (c :: cs) = (if isEscaped c then ['\\', c] else [c]) ++ escape cs :=
  List.flatMap_cons

/-- A star is never left without its backslash. -/
theorem head?_escape (cs : List Char) : (escape cs).head? ≠ some '*' := by
  cases cs with
  | nil => nofun
  | cons c cs =>
    rw [escape_cons]
    by_cases hc : isEscaped c
    · rw [if_pos hc]
      nofun
    · rw [if_neg hc]
      intro hstar
      obtain rfl : c = '*' := Option.some.inj hstar
      exact hc rfl

/-- What is escaped is neither a letter nor a digit, so a backslash takes it literally. -/
theorem isAlphanum_of_isEscaped {c : Char} (h : isEscaped c = true) : c.isAlphanum = false := by
  have hall : (['.', '\\', '[', '{', '(', ')', '*', '+', '?', '^', '$', '|'] ++
      [']', '}', '-', '&', '~', '#', ' ', '\t', '\n', '\r', '\x0b', '\x0c']).all
        (!·.isAlphanum) = true := rfl
  rw [isEscaped, hasMeaning, Bool.or_eq_true, List.contains_iff_mem, List.contains_iff_mem,
    ← List.mem_append] at h
  have hc := List.all_eq_true.mp hall c h
  rwa [Bool.not_eq_true'] at hc

/-! ## Reading expressions -/

/-- A character without a meaning is read as itself. -/
theorem read?_cons {c : Char} (h : hasMeaning c = false) (cs : List Char) :
    read? (c :: cs) = (read? cs).map (.literal c :: ·) := by
  have hbackslash : c ≠ '\\' := by
    rintro rfl
    cases h
  have hpoint : c ≠ '.' := by
    rintro rfl
    cases h
  rw [read?.eq_def]
  split
  · next heq => cases heq
  · next heq => exact absurd (List.cons.inj heq).1 hbackslash
  · next heq => exact absurd (List.cons.inj heq).1 hpoint
  · next heq =>
    obtain ⟨rfl, rfl⟩ := List.cons.inj heq
    rw [h]
    rfl

/-- So is a character behind a backslash, unless it is a letter or a digit. -/
theorem read?_backslash {c : Char} (h : c.isAlphanum = false) (cs : List Char) :
    read? ('\\' :: c :: cs) = (read? cs).map (.literal c :: ·) := by
  rw [read?, h]
  rfl

/-! ## Searching -/

/-- Behind a gap is whatever follows some characters that are on one line. -/
theorem mem_behindGap_iff {rest cs : List Char} :
    rest ∈ behindGap cs ↔ ∃ skipped, cs = skipped ++ rest ∧ '\n' ∉ skipped := by
  induction cs with
  | nil =>
    rw [behindGap, List.mem_singleton]
    constructor
    · rintro rfl
      exact ⟨[], rfl, List.not_mem_nil⟩
    · rintro ⟨skipped, h, -⟩
      exact (List.append_eq_nil_iff.mp h.symm).2
  | cons c cs ih =>
    rw [behindGap, List.mem_cons]
    constructor
    · rintro (rfl | h)
      · exact ⟨[], rfl, List.not_mem_nil⟩
      · by_cases hc : c = '\n'
        · rw [if_pos hc] at h
          cases h
        · rw [if_neg hc, ih] at h
          obtain ⟨skipped, rfl, hskipped⟩ := h
          refine ⟨c :: skipped, rfl, ?_⟩
          simp [hskipped, Ne.symm hc]
    · rintro ⟨skipped, h, hskipped⟩
      cases skipped with
      | nil => exact Or.inl h.symm
      | cons d skipped =>
        obtain ⟨rfl, rfl⟩ := List.cons.inj h
        rw [List.mem_cons, not_or] at hskipped
        rw [if_neg (Ne.symm hskipped.1)]
        exact Or.inr (ih.mpr ⟨skipped, rfl, hskipped.2⟩)

/-- A gap skips any characters of a line. -/
theorem begins_gap_iff {items : List Item} {cs : List Char} :
    begins (.gap :: items) cs = true ↔
      ∃ skipped rest, cs = skipped ++ rest ∧ '\n' ∉ skipped ∧ begins items rest = true := by
  rw [begins, List.any_eq_true]
  constructor
  · rintro ⟨rest, hrest, hbegins⟩
    obtain ⟨skipped, hcs, hskipped⟩ := mem_behindGap_iff.mp hrest
    exact ⟨skipped, rest, hcs, hskipped, hbegins⟩
  · rintro ⟨skipped, rest, hcs, hskipped, hbegins⟩
    exact ⟨rest, mem_behindGap_iff.mpr ⟨skipped, hcs, hskipped⟩, hbegins⟩

/-- An expression that begins with a character takes just that one first. -/
theorem begins_literal_iff {c : Char} {items : List Item} {cs : List Char} :
    begins (.literal c :: items) cs = true ↔ ∃ rest, cs = c :: rest ∧ begins items rest = true := by
  cases cs with
  | nil => simp [begins]
  | cons d cs =>
    rw [begins, Bool.and_eq_true, decide_eq_true_eq]
    constructor
    · rintro ⟨rfl, h⟩
      exact ⟨cs, rfl, h⟩
    · rintro ⟨rest, hcs, h⟩
      obtain ⟨rfl, rfl⟩ := List.cons.inj hcs
      exact ⟨rfl, h⟩

/-- A search goes on from any place of the text. -/
theorem finds_iff {items : List Item} {cs : List Char} :
    finds items cs = true ↔ ∃ before rest, cs = before ++ rest ∧ begins items rest = true := by
  induction cs with
  | nil =>
    rw [finds]
    constructor
    · intro h
      exact ⟨[], [], rfl, h⟩
    · rintro ⟨before, rest, hcs, h⟩
      rwa [(List.append_eq_nil_iff.mp hcs.symm).2] at h
  | cons c cs ih =>
    rw [finds, Bool.or_eq_true, ih]
    constructor
    · rintro (h | ⟨before, rest, rfl, h⟩)
      · exact ⟨[], c :: cs, rfl, h⟩
      · exact ⟨c :: before, rest, rfl, h⟩
    · rintro ⟨before, rest, hcs, h⟩
      cases before with
      | nil =>
        rw [List.nil_append] at hcs
        rw [hcs]
        exact Or.inl h
      | cons b before =>
        obtain ⟨-, rfl⟩ := List.cons.inj hcs
        exact Or.inr ⟨before, rest, rfl, h⟩

end ClarityDelta.Text.Expression

namespace ClarityDelta.Files

open Text Text.Expression

/-! ## The meaning of patterns -/

/-- The pieces stand in the text one after another, each of them behind the end of the one before. -/
def InOrder : (pieces : List (List Char)) → List Char → Prop
  | [], _ => True
  | piece :: pieces, cs => ∃ before behind, cs = before ++ piece ++ behind ∧ InOrder pieces behind

/-- Pieces occur in order when the first one occurs and the others do behind it. -/
theorem inOrder_cons_iff {piece : List Char} {pieces : List (List Char)} {cs : List Char} :
    InOrder (piece :: pieces) cs ↔
      ∃ rest ∈ cs.tails, (after? piece rest).elim False (InOrder pieces) := by
  rw [InOrder]
  constructor
  · rintro ⟨before, behind, rfl, h⟩
    refine ⟨piece ++ behind, ?_, ?_⟩
    · rw [List.mem_tails, List.append_assoc]
      exact List.suffix_append before (piece ++ behind)
    · rw [after?_eq_some_iff.mpr rfl]
      exact h
  · rintro ⟨rest, hrest, h⟩
    obtain ⟨before, rfl⟩ := (List.mem_tails _ _).mp hrest
    cases hafter : after? piece rest with
    | none =>
      rw [hafter] at h
      exact h.elim
    | some behind =>
      rw [hafter] at h
      refine ⟨before, behind, ?_, h⟩
      rw [after?_eq_some_iff.mp hafter, List.append_assoc]

instance decidableInOrder : (pieces : List (List Char)) → DecidablePred (InOrder pieces)
  | [], _ => isTrue trivial
  | piece :: pieces, _ =>
    have := decidableInOrder pieces
    have (rest : List Char) : Decidable ((after? piece rest).elim False (InOrder pieces)) :=
      match after? piece rest with
      | none => inferInstanceAs (Decidable False)
      | some behind => inferInstanceAs (Decidable (InOrder pieces behind))
    decidable_of_iff _ inOrder_cons_iff.symm

/-- A pattern excludes a name in which its pieces between the stars stand in order. -/
def Excludes (pattern name : String) : Prop :=
  InOrder (splitAt '*' pattern.toList) name.toList

instance (pattern name : String) : Decidable (Excludes pattern name) :=
  inferInstanceAs (Decidable (InOrder _ _))

/-! ## The expression of a pattern -/

/-- What a character of a pattern stands for. -/
def itemOf (c : Char) : Item :=
  if c = '*' then .gap else .literal c

/-- A character other than the star stands for itself. -/
theorem itemOf_of_ne {c : Char} (h : c ≠ '*') : itemOf c = .literal c :=
  if_neg h

/-- Nothing is replaced where no backslash stands in front of a star. -/
theorem withGaps_cons {c : Char} {cs : List Char} (h : c = '\\' → cs.head? ≠ some '*') :
    withGaps (c :: cs) = c :: withGaps cs := by
  rw [withGaps.eq_def]
  split
  · next heq => cases heq
  · next rest heq =>
    obtain ⟨rfl, rfl⟩ := List.cons.inj heq
    exact absurd rfl (h rfl)
  · next heq =>
    obtain ⟨rfl, rfl⟩ := List.cons.inj heq
    rfl

/-- The expression made of a pattern is read as the items of its characters. -/
theorem read?_withGaps_escape (cs : List Char) :
    read? (withGaps (escape cs)) = some (cs.map itemOf) := by
  induction cs with
  | nil => rfl
  | cons c cs ih =>
    rw [escape_cons, List.map_cons]
    by_cases hstar : c = '*'
    · subst hstar
      have hescaped : isEscaped '*' = true := rfl
      have hgap : withGaps ('\\' :: '*' :: escape cs) = '.' :: '*' :: withGaps (escape cs) := rfl
      rw [if_pos hescaped, List.cons_append, List.cons_append, List.nil_append, hgap, read?, ih]
      rfl
    · rw [itemOf_of_ne hstar]
      -- behind the character nothing is taken for the star of its backslash
      have hrest : withGaps (c :: escape cs) = c :: withGaps (escape cs) :=
        withGaps_cons fun _ => head?_escape cs
      by_cases hescaped : isEscaped c = true
      · have hbackslash : withGaps ('\\' :: c :: escape cs) = '\\' :: withGaps (c :: escape cs) :=
          withGaps_cons fun _ hhead => hstar (Option.some.inj hhead)
        rw [if_pos hescaped, List.cons_append, List.cons_append, List.nil_append, hbackslash, hrest,
          read?_backslash (isAlphanum_of_isEscaped hescaped), ih]
        rfl
      · have hplain : hasMeaning c = false := by
          rw [isEscaped, Bool.or_eq_true, not_or, Bool.not_eq_true] at hescaped
          exact hescaped.1
        rw [if_neg hescaped, List.singleton_append, hrest, read?_cons hplain, ih]
        rfl

/-- An expression is read as its pattern, character by character. -/
theorem read?_expression (pattern : String) :
    read? (expression pattern) = some (pattern.toList.map itemOf) :=
  read?_withGaps_escape pattern.toList

/-! ## Patterns and names of one line -/

/-- What a pattern describes begins a text when its first piece does and the others stand in order
behind it. -/
theorem begins_iff {pattern cs piece : List Char} {pieces : List (List Char)}
    (hpieces : splitAt '*' pattern = piece :: pieces) (hline : '\n' ∉ cs) :
    begins (pattern.map itemOf) cs = true ↔
      ∃ behind, cs = piece ++ behind ∧ InOrder pieces behind := by
  induction pattern generalizing cs piece pieces with
  | nil =>
    obtain ⟨rfl, rfl⟩ := List.cons.inj hpieces
    exact ⟨fun _ => ⟨cs, rfl, trivial⟩, fun _ => rfl⟩
  | cons c pattern ih =>
    obtain ⟨first, others, hcut⟩ := List.exists_cons_of_ne_nil (splitAt_ne_nil '*' pattern)
    rw [List.map_cons]
    by_cases hc : c = '*'
    · -- a star: the first piece is empty, and the gap is what stands before the next one
      subst hc
      rw [splitAt_separator, hcut] at hpieces
      obtain ⟨rfl, rfl⟩ := List.cons.inj hpieces
      have hitem : itemOf '*' = .gap := rfl
      rw [hitem, begins_gap_iff]
      constructor
      · rintro ⟨skipped, rest, rfl, -, hbegins⟩
        rw [List.mem_append, not_or] at hline
        obtain ⟨behind, rfl, horder⟩ := (ih hcut hline.2).mp hbegins
        exact ⟨skipped ++ (first ++ behind), rfl, skipped, behind,
          (List.append_assoc skipped first behind).symm, horder⟩
      · rintro ⟨_, rfl, before, behind, rfl, horder⟩
        rw [List.append_assoc, List.mem_append, not_or] at hline
        exact ⟨before, first ++ behind, List.append_assoc before first behind, hline.1,
          (ih hcut hline.2).mpr ⟨behind, rfl, horder⟩⟩
    · rw [splitAt_cons hc hcut] at hpieces
      obtain ⟨rfl, rfl⟩ := List.cons.inj hpieces
      rw [itemOf_of_ne hc, begins_literal_iff]
      constructor
      · rintro ⟨rest, rfl, hbegins⟩
        rw [List.mem_cons, not_or] at hline
        obtain ⟨behind, rfl, horder⟩ := (ih hcut hline.2).mp hbegins
        exact ⟨behind, rfl, horder⟩
      · rintro ⟨behind, rfl, horder⟩
        rw [List.cons_append, List.mem_cons, not_or] at hline
        exact ⟨first ++ behind, rfl, (ih hcut hline.2).mpr ⟨behind, rfl, horder⟩⟩

/-- A pattern matches a name of one line exactly when it excludes it. -/
theorem patternMatches_iff {pattern name : String} (hline : '\n' ∉ name.toList) :
    patternMatches pattern name = true ↔ Excludes pattern name := by
  obtain ⟨piece, pieces, hpieces⟩ :=
    List.exists_cons_of_ne_nil (splitAt_ne_nil '*' pattern.toList)
  rw [patternMatches, read?_expression, Option.any_some, finds_iff, Excludes, hpieces, InOrder]
  constructor
  · rintro ⟨before, rest, hname, hbegins⟩
    rw [hname, List.mem_append, not_or] at hline
    obtain ⟨behind, rfl, horder⟩ := (begins_iff hpieces hline.2).mp hbegins
    exact ⟨before, behind, by rw [hname, List.append_assoc], horder⟩
  · rintro ⟨before, behind, hname, horder⟩
    rw [hname, List.append_assoc, List.mem_append, not_or] at hline
    refine ⟨before, piece ++ behind, ?_, (begins_iff hpieces hline.2).mpr ⟨behind, rfl, horder⟩⟩
    rw [hname, List.append_assoc]

/-- The files that are left are those of one line that no pattern excludes, in their order. -/
theorem withoutExcluded_eq_filter (patterns : List String) {files : List String}
    (hlines : ∀ file ∈ files, '\n' ∉ file.toList) :
    withoutExcluded patterns files =
      files.filter fun file => ∀ pattern ∈ patterns, ¬ Excludes pattern file := by
  rw [withoutExcluded]
  apply List.filter_congr
  intro file hfile
  rw [Bool.eq_iff_iff, Bool.not_eq_true', List.any_eq_false, decide_eq_true_eq]
  apply forall₂_congr
  intro pattern _
  rw [patternMatches_iff (hlines file hfile)]

/-- Backslashes, signs of expressions and pieces that overlap stand for themselves in patterns. -/
theorem withoutExcluded_eq_filter_signs :
    (∀ file ∈ ["a\\x.clar", "a.clar", "(b)+[c].clar", "(b)[c]+.clar", "abab.clar", "aba.clar"],
      '\n' ∉ file.toList) ∧
    withoutExcluded ["\\*.", "b)+*]", "ab*ab"]
      ["a\\x.clar", "a.clar", "(b)+[c].clar", "(b)[c]+.clar", "abab.clar", "aba.clar"] =
        ["a.clar", "(b)[c]+.clar", "aba.clar"] := by
  have hlines : ∀ file ∈ ["a\\x.clar", "a.clar", "(b)+[c].clar", "(b)[c]+.clar", "abab.clar",
      "aba.clar"], '\n' ∉ file.toList := by
    decide
  refine ⟨hlines, (withoutExcluded_eq_filter _ hlines).trans ?_⟩
  decide +kernel

end ClarityDelta.Files
