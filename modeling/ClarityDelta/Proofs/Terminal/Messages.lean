import ClarityDelta.Files.Tree
import ClarityDelta.Proofs.Terminal.Closing
import ClarityDelta.Terminal.Shown

/-!
# Messages that can be rendered

A message is put together from fixed words and from texts of others. It closes nothing where none of
these texts does: numbers never do, and quoting a text or taking a part of it adds no closing tag. A
styled text is the one kind of message with a closing tag of its own, `renders_styled`.
-/

namespace ClarityDelta.Terminal

open Files Text

namespace Markup

/-! ## Texts that close nothing -/

/-- A text without opening brackets closes nothing. -/
theorem closesNothing_of_not_mem {s : String} (h : '[' ∉ s.toList) : ClosesNothing s :=
  fun hfound => h (hfound.subset List.mem_cons_self)

/-- A part of a text closes nothing where the text does not. -/
theorem ClosesNothing.part {s t : String} (ht : ClosesNothing t) (h : s.toList <:+: t.toList) :
    ClosesNothing s :=
  fun hfound => ht (hfound.trans h)

/-- A natural number closes nothing. -/
theorem closesNothing_nat (n : Nat) : ClosesNothing (toString n) := by
  refine closesNothing_of_not_mem fun hmem => ?_
  have hrepr : toString n = String.ofList (Nat.toDigits 10 n) := rfl
  rw [hrepr, String.toList_ofList] at hmem
  exact absurd (Nat.isDigit_of_mem_toDigits (by decide) (by decide) hmem) (by decide)

/-- An integer closes nothing. -/
theorem closesNothing_int (n : Int) : ClosesNothing (toString n) := by
  cases n with
  | ofNat n => exact closesNothing_nat n
  | negSucc n =>
    exact Finished.append (s := "-") (by decide) (closesNothing_nat (n + 1))

/-- A hexadecimal number has no brackets. -/
theorem not_mem_hex (width n : Nat) : '[' ∉ hex width n := by
  have hdigit : ∀ digit < 16, hexChar digit ≠ '[' := by decide
  induction width generalizing n with
  | zero => exact List.not_mem_nil
  | succ width ih =>
    rw [hex, List.mem_append, List.mem_singleton]
    rintro (hmem | hlast)
    · exact ih (n / 16) hmem
    · exact hdigit (n % 16) (Nat.mod_lt n (by decide)) hlast.symm

/-- A character between quotes is written as it is, alone or behind a backslash, or it is told by
something behind a backslash that holds no bracket. -/
theorem quotedChar_cases (quote c : Char) :
    quotedChar quote c = [c] ∨ quotedChar quote c = ['\\', c] ∨
      ∃ told, quotedChar quote c = '\\' :: told ∧ '[' ∉ told := by
  have hcode (kind : Char) (hkind : '[' ≠ kind) (width : Nat) : '[' ∉ kind :: hex width c.toNat :=
    fun hmem => (List.mem_cons.1 hmem).elim hkind (not_mem_hex width c.toNat)
  rw [quotedChar]
  split_ifs
  · exact Or.inr (Or.inl rfl)
  · exact Or.inr (Or.inr ⟨_, rfl, by decide⟩)
  · exact Or.inr (Or.inr ⟨_, rfl, by decide⟩)
  · exact Or.inr (Or.inr ⟨_, rfl, by decide⟩)
  · exact Or.inl rfl
  · exact Or.inr (Or.inr ⟨_, rfl, hcode 'x' (by decide) 2⟩)
  · exact Or.inr (Or.inr ⟨_, rfl, hcode 'u' (by decide) 4⟩)
  · exact Or.inr (Or.inr ⟨_, rfl, hcode 'U' (by decide) 8⟩)

/-- Quoted characters begin with a slash only if the characters do. -/
theorem head?_of_head?_quotedChars {quote : Char} {cs : List Char}
    (h : (cs.flatMap (quotedChar quote)).head? = some '/') : cs.head? = some '/' := by
  cases cs with
  | nil => exact h
  | cons c cs =>
    rw [List.flatMap_cons] at h
    obtain heq | heq | ⟨told, heq, -⟩ := quotedChar_cases quote c
    · rwa [heq] at h
    · rw [heq] at h
      cases h
    · rw [heq] at h
      cases h

/-- Quoting puts no bracket right before a slash. -/
theorem infix_of_infix_quotedChars {quote : Char} {cs : List Char}
    (h : ['[', '/'] <:+: cs.flatMap (quotedChar quote)) : ['[', '/'] <:+: cs := by
  induction cs with
  | nil => exact h
  | cons c cs ih =>
    have hrest (hfound : ['[', '/'] <:+: cs.flatMap (quotedChar quote)) :
        ['[', '/'] <:+: c :: cs := (ih hfound).trans (List.suffix_cons c cs).isInfix
    have hplain (hfound : ['[', '/'] <:+: c :: cs.flatMap (quotedChar quote)) :
        ['[', '/'] <:+: c :: cs := by
      have hsplit : ['[', '/'] <:+: [c] ++ cs.flatMap (quotedChar quote) := hfound
      rcases infix_append hsplit with hone | hfound | ⟨hbracket, hslash⟩
      · exact absurd hone.length_le (by simp)
      · exact hrest hfound
      · obtain ⟨tail, rfl⟩ := List.head?_eq_some_iff.1 (head?_of_head?_quotedChars hslash)
        obtain rfl : c = '[' := Option.some.inj hbracket
        exact ⟨[], tail, rfl⟩
    rw [List.flatMap_cons] at h
    obtain heq | heq | ⟨told, heq, htold⟩ := quotedChar_cases quote c
    · rw [heq] at h
      exact hplain h
    · rw [heq] at h
      exact hplain (infix_of_infix_cons (by decide) h)
    · rw [heq] at h
      rcases infix_append (infix_of_infix_cons (by decide) h) with hfound | hfound | ⟨hbracket, -⟩
      · exact absurd (hfound.subset List.mem_cons_self) htold
      · exact hrest hfound
      · exact absurd (List.mem_of_getLast? hbracket) htold

/-- Quoting a text that closes nothing adds no closing tag. -/
theorem closesNothing_quoted {s : String} (h : ClosesNothing s) : ClosesNothing (quoted s) := by
  have hquoted (quote : Char) (hquote : quote = '\'' ∨ quote = '"') :
      ¬ ['[', '/'] <:+: quote :: (s.toList.flatMap (quotedChar quote) ++ [quote]) := by
    intro hfound
    have hbracket : quote ≠ '[' := by rintro rfl; simp at hquote
    rcases infix_append (infix_of_infix_cons hbracket hfound) with hfound | hfound | ⟨-, hslash⟩
    · exact h (infix_of_infix_quotedChars hfound)
    · exact absurd hfound.length_le (by simp)
    · obtain rfl : quote = '/' := Option.some.inj hslash
      simp at hquote
  rw [ClosesNothing, quoted, String.toList_ofList]
  refine hquoted _ ?_
  split
  · exact Or.inr rfl
  · exact Or.inl rfl

/-- An error of the file tree tells a path and words of its own. -/
theorem closesNothing_fileError {error : FileError} (h : ClosesNothing error.path) :
    ClosesNothing error.message := by
  have hpath := closesNothing_quoted h
  have hwords (words : String) (hwords : Finished words) :
      ClosesNothing (words ++ quoted error.path) := hwords.append hpath
  rw [FileError.message]
  cases error.kind with
  | noSuchFile => exact hwords _ (by decide)
  | fileExists => exact hwords _ (by decide)
  | notADirectory => exact hwords _ (by decide)
  | isADirectory => exact hwords _ (by decide)
  | nameTooLong => exact hwords _ (by decide)
  | embeddedNul => exact (show ClosesNothing "embedded null byte" by decide)

/-! ## Paths -/

/-- Texts with separators begin with the first ones of them. -/
theorem intercalate_prefix (separator : String) (front behind : List String) :
    (separator.intercalate front).toList <+: (separator.intercalate (front ++ behind)).toList := by
  by_cases hfront : front = []
  · rw [hfront]
    exact List.nil_prefix
  · by_cases hbehind : behind = []
    · rw [hbehind, List.append_nil]
    · rw [String.intercalate_append_of_ne_nil hfront hbehind, String.append_assoc,
        String.toList_append]
      exact List.prefix_append _ _

/-- The path above another one closes nothing where that one does not. -/
theorem closesNothing_parent {path : Path} (h : ClosesNothing path.text) :
    ClosesNothing path.parent.text := by
  have hprefix : ("/".intercalate path.parts.dropLast).toList <+:
      ("/".intercalate path.parts).toList := by
    rcases List.eq_nil_or_concat' path.parts with hnil | ⟨front, last, hparts⟩
    · rw [hnil]
      exact List.prefix_rfl
    · rw [hparts, List.dropLast_concat]
      exact intercalate_prefix "/" front [last]
  rw [Path.text, Path.parent]
  dsimp only
  split
  · decide
  · next hsome =>
    have hpath : ¬ (path.root.isEmpty && path.parts.isEmpty) = true := by
      intro hnone
      rw [Bool.and_eq_true, List.isEmpty_iff] at hnone
      exact hsome (by rw [hnone.1, hnone.2]; rfl)
    rw [Path.text, if_neg hpath] at h
    refine h.part ?_
    rw [String.toList_append, String.toList_append]
    exact ((List.prefix_append_right_inj _).2 hprefix).isInfix

/-! ## Styled texts -/

/-- What stands in brackets at the beginning of a text does so before another bracket, and nothing else
does. -/
theorem inside?_append_bracket (cs rest : List Char) :
    inside? (cs ++ '[' :: rest) =
      (inside? cs).map fun (inside, more) => (inside, more ++ '[' :: rest) := by
  cases hcs : inside? cs with
  | some found =>
    obtain ⟨inside, more⟩ := found
    obtain ⟨rfl, hplain, hopens⟩ := inside?_eq_some_iff.1 hcs
    exact inside?_eq_some_iff.2 ⟨by simp, hplain, hopens⟩
  | none =>
    cases hlonger : inside? (cs ++ '[' :: rest) with
    | none => rfl
    | some found =>
      obtain ⟨inside, more⟩ := found
      obtain ⟨heq, hplain, hopens⟩ := inside?_eq_some_iff.1 hlonger
      obtain ⟨behind, rfl, hbehind⟩ | ⟨behind, rfl, hbehind⟩ := List.append_eq_append_iff.1 heq
      · cases behind with
        | nil => cases (List.cons.inj hbehind).1
        | cons c behind =>
          obtain ⟨rfl, -⟩ := List.cons.inj hbehind
          exact absurd rfl (hplain '[' (List.mem_append_right _ List.mem_cons_self)).1
      · cases behind with
        | nil => cases (List.cons.inj hbehind).1
        | cons c behind =>
          obtain ⟨rfl, -⟩ := List.cons.inj hbehind
          rw [inside?_eq_some_iff.2 ⟨rfl, hplain, hopens⟩] at hcs
          cases hcs

/-- Single characters in front bring no closing tag. -/
theorem closings_chars_append (m : Nat) (c : Char) (parts : List Chunk) :
    closings (List.replicate m (.char '\\') ++ .char c :: parts) = closings parts := by
  have hslashes : closings (List.replicate m (.char '\\')) = [] := by
    rw [closings, List.filterMap_eq_nil_iff]
    intro part hpart
    rw [List.eq_of_mem_replicate hpart]
    rfl
  rw [closings, List.filterMap_append]
  exact congrArg (· ++ _) hslashes

/-- A text that closes nothing is read before a bracket that stands behind it. -/
theorem exists_chunksFrom_append {cs : List Char} (h : ¬ ['[', '/'] <:+: cs) (n : Nat)
    (rest : List Char) : ∃ front k,
      chunksFrom n (cs ++ '[' :: rest) = front ++ chunksFrom k ('[' :: rest) ∧
        closings front = [] := by
  have hbehind {c : Char} {cs more : List Char} (h : ¬ ['[', '/'] <:+: c :: cs)
      (hmore : more <:+ cs) : ¬ ['[', '/'] <:+: more :=
    fun hfound => h (hfound.trans (hmore.trans (List.suffix_cons c cs)).isInfix)
  induction n, cs using chunksFrom.induct with
  | case1 n => exact ⟨[], n, rfl, rfl⟩
  | case2 n cs ih =>
    obtain ⟨front, k, hfront, hnone⟩ := ih (hbehind h List.suffix_rfl)
    exact ⟨front, k, by rw [List.cons_append, chunksFrom_backslash, hfront], hnone⟩
  | case3 n cs inside more hinside ih =>
    obtain ⟨hcs, -⟩ := inside?_eq_some_iff.1 hinside
    obtain ⟨front, k, hfront, hnone⟩ := ih (hbehind h ⟨inside ++ [']'], by rw [hcs]; simp⟩)
    have hlonger : inside? (cs ++ '[' :: rest) = some (inside, more ++ '[' :: rest) := by
      rw [inside?_append_bracket, hinside]
      rfl
    refine ⟨.tag n inside :: front, k, ?_, ?_⟩
    · rw [List.cons_append, chunksFrom_tag hlonger, hfront, List.cons_append]
    · have hopens : (Chunk.tag n inside).closed? = none := by
        rw [Chunk.closed?.eq_def]
        split
        · next heq =>
          obtain ⟨-, rfl⟩ := Chunk.tag.inj heq
          exact absurd ⟨[], _ ++ ']' :: more, by rw [hcs]; rfl⟩ h
        · rfl
      rw [closings, List.filterMap_cons_none hopens]
      exact hnone
  | case4 n cs hinside ih =>
    obtain ⟨front, k, hfront, hnone⟩ := ih (hbehind h List.suffix_rfl)
    have hlonger : inside? (cs ++ '[' :: rest) = none := by
      rw [inside?_append_bracket, hinside]
      rfl
    refine ⟨List.replicate n (.char '\\') ++ .char '[' :: front, k, ?_, ?_⟩
    · rw [List.cons_append, chunksFrom_bracket hlonger, hfront, List.append_assoc, List.cons_append]
    · rw [closings_chars_append, hnone]
  | case5 n c cs hback hopen ih =>
    obtain ⟨front, k, hfront, hnone⟩ := ih (hbehind h List.suffix_rfl)
    refine ⟨List.replicate n (.char '\\') ++ .char c :: front, k, ?_, ?_⟩
    · rw [List.cons_append, chunksFrom_char hback hopen, hfront, List.append_assoc, List.cons_append]
    · rw [closings_chars_append, hnone]

/-- The styles of messages. -/
def messageStyles : List String :=
  ["red", "green"]

/-- A style is read between brackets, and closes what it opens. -/
structure Opens (style : List Char) : Prop where
  plain : ∀ c ∈ style, c ≠ '[' ∧ c ≠ ']'
  begins : ∃ c ∈ style.head?, opensTag c = true
  opened : afterTag 0 style [] = .ok [Style.normalized style]
  named : isBlankText (tagName style) = false
  closes : trim (tagName style) = style

/-- The styles of messages are opening tags. -/
theorem opens_messageStyles {style : String} (h : style ∈ messageStyles) : Opens style.toList := by
  rw [messageStyles, List.mem_cons, List.mem_singleton] at h
  rcases h with rfl | rfl
  · exact ⟨by simp, ⟨'r', rfl, by decide⟩, rfl, by decide, by decide⟩
  · exact ⟨by simp, ⟨'g', rfl, by decide⟩, rfl, by decide, by decide⟩

/-- A styled text is rendered with what stands behind it, where both close nothing. -/
theorem renders_styled {style body behind : String} (hstyle : style ∈ messageStyles)
    (hbody : ClosesNothing body) (hbehind : ClosesNothing behind) :
    Renders ("[" ++ style ++ "]" ++ body ++ "[/" ++ style ++ "]" ++ behind) := by
  obtain ⟨hplain, ⟨c, hc, hopens⟩, hopened, hnamed, hcloses⟩ := opens_messageStyles hstyle
  have hlist : ("[" ++ style ++ "]" ++ body ++ "[/" ++ style ++ "]" ++ behind).toList =
      '[' :: (style.toList ++ ']' :: (body.toList ++
        '[' :: ('/' :: style.toList ++ ']' :: behind.toList))) := by
    simp
  have hopening (more : List Char) :
      inside? (style.toList ++ ']' :: more) = some (style.toList, more) :=
    inside?_eq_some_iff.2 ⟨rfl, hplain, c, hc, hopens⟩
  have hclosing (more : List Char) :
      inside? ('/' :: style.toList ++ ']' :: more) = some ('/' :: style.toList, more) := by
    refine inside?_eq_some_iff.2 ⟨rfl, fun d hd => ?_, '/', rfl, by decide⟩
    rcases List.mem_cons.1 hd with rfl | hd
    · decide
    · exact hplain d hd
  obtain ⟨front, k, hfront, hnone⟩ :=
    exists_chunksFrom_append hbody 0 ('/' :: style.toList ++ ']' :: behind.toList)
  have hlast : closings (chunksFrom 0 behind.toList) = [] := closings_of_guarded hbehind.guarded
  -- the one closing tag fits what the first tag has opened, or is plain text
  have hfits : Fits [Style.normalized style.toList]
      (closings (front ++ .tag k ('/' :: style.toList) :: chunksFrom 0 behind.toList)) := by
    rw [closings, List.filterMap_append, ← closings, hnone, List.nil_append, List.filterMap_cons,
      ← closings, hlast]
    by_cases heven : k % 2 = 0
    · have hclosed : (Chunk.tag k ('/' :: style.toList)).closed? = some (tagName style.toList) :=
        if_pos heven
      rw [hclosed]
      exact ⟨hnamed, by rw [hcloses]; exact List.mem_cons_self⟩
    · have hclosed : (Chunk.tag k ('/' :: style.toList)).closed? = none := if_neg heven
      rw [hclosed]
      trivial
  obtain ⟨cs, hcs⟩ := exists_shown_eq (0 + 0 + style.toList.length + 2) hfits
  refine ⟨cs, ?_⟩
  rw [render, hlist, chunks, chunksFrom_tag (hopening _), hfront, chunksFrom_tag (hclosing _)]
  simp only [shown, hopened]
  exact congrArg (· >>= fun shown => Except.ok (List.replicate (0 / 2) '\\' ++ shown)) hcs

end Markup

/-! ## What is shown -/

/-- A cell of a table that can be shown. -/
def Cell.Renders : Cell → Prop
  | markup s => Markup.Renders s
  | plain _ => True

/-- A text or a table that can be shown. -/
def Shown.Renders : Shown → Prop
  | markup s => Markup.Renders s
  | plain _ => True
  | table title columns rows => Markup.Renders title ∧
      (∀ column ∈ columns, Markup.Renders column) ∧ ∀ row ∈ rows, ∀ cell ∈ row, cell.Renders

end ClarityDelta.Terminal
