import Mathlib.Data.List.Forall2
import ClarityDelta.Proofs.Source.DefinitionSpans

/-!
# Harmless comments and strings

Where no comment and no string holds a parenthesis, it makes no difference whether they are masked:
both ways of scanning find the same definitions. Equal parentheses alone do not show it, because the
search for headers looks at other characters too. What carries the proof is that a parenthesis that
is shown stands in code, and that code is shown as it is up to the next quote or comment marker; the
keyword of a header and the blanks behind it hold neither, and no parenthesis would follow them in a
comment. So a header stands at a column of a masked line exactly when one stands there in the line,
`headerAt_maskLine_iff`. The names may differ, since a signature may hold a comment.
-/

namespace ClarityDelta.Source

open Text

/-- No comment and no string of a text holds a parenthesis: every masked line has the parentheses of
the line. -/
def Harmless (content : String) : Prop :=
  (Scanning.commentAware.view (lines content.toList)).map (parenTokens · 0) =
    (lines content.toList).map (parenTokens · 0)

instance (content : String) : Decidable (Harmless content) :=
  inferInstanceAs (Decidable (_ = _))

/-! ## Texts with the same parentheses -/

/-- The same parentheses stand at the same columns of two texts, and the texts are equally long. -/
def SameParens (cs ds : List Char) : Prop :=
  cs.map Paren.ofChar? = ds.map Paren.ofChar?

/-- Texts with the same parentheses have them in either order. -/
theorem SameParens.symm {cs ds : List Char} (h : SameParens cs ds) : SameParens ds cs :=
  Eq.symm h

/-- With as many characters less, two texts have the same parentheses. -/
theorem SameParens.drop {cs ds : List Char} (h : SameParens cs ds) (n : Nat) :
    SameParens (cs.drop n) (ds.drop n) := by
  rw [SameParens, List.map_drop, List.map_drop, h]

/-- Behind beginnings of one length, two texts have the same parentheses. -/
theorem SameParens.behind {as bs cs ds : List Char} (h : SameParens (as ++ cs) (bs ++ ds))
    (hlength : as.length = bs.length) : SameParens cs ds := by
  rw [SameParens, List.map_append, List.map_append] at h
  exact (List.append_inj h (by rw [List.length_map, List.length_map, hlength])).2

/-- Behind their first characters, two texts have the same parentheses. -/
theorem SameParens.tail {c d : Char} {cs ds : List Char} (h : SameParens (c :: cs) (d :: ds)) :
    SameParens cs ds :=
  (List.cons.inj h).2

/-- Only the parentheses of a text count for its weight. -/
theorem SameParens.weight_eq {cs ds : List Char} (h : SameParens cs ds) :
    weight cs = weight ds := by
  induction cs generalizing ds with
  | nil => rw [List.map_eq_nil_iff.1 h.symm]
  | cons c cs ih =>
    obtain ⟨d, ds, rfl, hd, hds⟩ := List.map_eq_cons_iff.1 h.symm
    rw [weight_cons, weight_cons, charWeight, charWeight, hd, ih hds.symm]

/-- Parentheses are found from the given column on. -/
theorem column_le_of_mem {column : Nat} {cs : List Char} {token : ParenToken}
    (h : token ∈ parenTokensFrom column cs) : column ≤ token.column := by
  induction cs generalizing column with
  | nil => exact absurd h List.not_mem_nil
  | cons c cs ih =>
    rw [parenTokensFrom] at h
    split at h
    · rcases List.mem_cons.1 h with rfl | h
      · exact Nat.le_refl column
      · exact Nat.le_of_succ_le (ih h)
    · exact Nat.le_of_succ_le (ih h)

/-- Texts of one length with the same parenthesis tokens have the same parentheses. -/
theorem sameParens_of_parenTokensFrom_eq {column : Nat} {cs ds : List Char}
    (hlength : cs.length = ds.length)
    (h : parenTokensFrom column cs = parenTokensFrom column ds) : SameParens cs ds := by
  induction cs generalizing column ds with
  | nil => rw [List.eq_nil_of_length_eq_zero hlength.symm, SameParens]
  | cons c cs ih =>
    obtain ⟨d, ds, rfl⟩ := List.exists_cons_of_length_eq_add_one hlength.symm
    have hrest := Nat.succ.inj hlength
    -- a token of this column does not stand further to the right
    have hlater (paren : Paren) (es : List Char) :
        ⟨paren, column⟩ ∉ parenTokensFrom (column + 1) es :=
      fun hmem => Nat.not_succ_le_self column (column_le_of_mem hmem)
    rw [SameParens, List.map_cons, List.map_cons]
    cases hc : Paren.ofChar? c with
    | none =>
      cases hd : Paren.ofChar? d with
      | none =>
        simp only [parenTokensFrom, hc, hd] at h
        exact congrArg (none :: ·) (ih hrest h)
      | some paren =>
        simp only [parenTokensFrom, hc, hd] at h
        exact absurd (h ▸ List.mem_cons_self) (hlater paren cs)
    | some paren =>
      cases hd : Paren.ofChar? d with
      | none =>
        simp only [parenTokensFrom, hc, hd] at h
        exact absurd (h ▸ List.mem_cons_self) (hlater paren ds)
      | some paren' =>
        simp only [parenTokensFrom, hc, hd] at h
        obtain ⟨htoken, hrests⟩ := List.cons.inj h
        rw [(ParenToken.mk.inj htoken).1]
        exact congrArg (some paren' :: ·) (ih hrest hrests)

/-- Just one character is an opening parenthesis. -/
theorem ofChar?_eq_opening_iff {c : Char} : Paren.ofChar? c = some .opening ↔ c = '(' := by
  unfold Paren.ofChar?
  split <;> simp_all

/-- Just one character is a closing parenthesis. -/
theorem ofChar?_eq_closing_iff {c : Char} : Paren.ofChar? c = some .closing ↔ c = ')' := by
  unfold Paren.ofChar?
  split <;> simp_all

/-- What is no closing parenthesis in one text is none in the other. -/
theorem SameParens.exists_cons {c : Char} {cs ds : List Char} (h : SameParens (c :: cs) ds)
    (hc : c ≠ ')') : ∃ d ds', ds = d :: ds' ∧ d ≠ ')' := by
  obtain ⟨d, ds', rfl, hd, -⟩ := List.map_eq_cons_iff.1 h.symm
  refine ⟨d, ds', rfl, fun heq => hc ?_⟩
  rw [← ofChar?_eq_closing_iff, ← hd, ofChar?_eq_closing_iff, heq]

/-- Where one text opens a parenthesis the other one does. -/
theorem SameParens.exists_opening {before rest ds : List Char}
    (h : SameParens (before ++ '(' :: rest) ds) :
    ∃ before' rest', ds = before' ++ '(' :: rest' ∧ before'.length = before.length := by
  rw [SameParens, List.map_append, List.map_cons] at h
  obtain ⟨before', ds', rfl, hbefore, hds⟩ := List.map_eq_append_iff.1 h.symm
  obtain ⟨d, rest', rfl, hd, -⟩ := List.map_eq_cons_iff.1 hds
  obtain rfl := ofChar?_eq_opening_iff.1 (hd.trans rfl)
  refine ⟨before', rest', rfl, ?_⟩
  simpa using congrArg List.length hbefore

/-! ## Headers by their columns -/

/-- A header of the given kind stands at a column of the line. -/
def HeaderAt (column : Nat) (kind : FunctionKind) (line : List Char) : Prop :=
  ∃ m : Header.Match line, m.before.length = column ∧ m.kind = kind

/-- What stands between the two parentheses that a header opens. -/
def keyword (kind : FunctionKind) (blanks : List Char) : List Char :=
  "define-".toList ++ (kind.name.toList ++ blanks)

/-- A header stands where a parenthesis, the keyword, blanks, and the parenthesis of the signature
do, unless the signature is closed at once. -/
theorem headerAt_iff {column : Nat} {kind : FunctionKind} {line : List Char} :
    HeaderAt column kind line ↔ ∃ before blanks c rest, before.length = column ∧ blanks ≠ [] ∧
      (∀ b ∈ blanks, isBlank b = true) ∧ c ≠ ')' ∧
      line = before ++ '(' :: (keyword kind blanks ++ '(' :: c :: rest) := by
  have hopen (blanks rest : List Char) : '(' :: (keyword kind blanks ++ rest) =
      "(define-".toList ++ (kind.name.toList ++ (blanks ++ rest)) := by
    have hdefine : "(define-".toList = '(' :: "define-".toList := by decide +kernel
    unfold keyword
    rw [hdefine, List.append_assoc, List.append_assoc, List.cons_append]
  constructor
  · rintro ⟨m, rfl, rfl⟩
    obtain ⟨c, signature, hsig⟩ := List.exists_cons_of_ne_nil m.signature_ne_nil
    refine ⟨m.before, m.blanks, c, signature ++ m.behind, rfl, m.blanks_ne_nil, m.isBlank_of_mem,
      ?_, ?_⟩
    · intro hc
      exact m.not_mem_signature (hsig ▸ hc ▸ List.mem_cons_self)
    · have hline := m.line_eq
      rwa [hsig, List.cons_append, ← hopen] at hline
  · rintro ⟨before, blanks, c, rest, rfl, hne, hblank, hc, hline⟩
    have hsome : Header.signature? (c :: rest) = some (c :: rest.takeWhile (· ≠ ')')) := by
      simp [Header.signature?, hc]
    obtain ⟨behind, hsig, hrest, hnot, hbehind⟩ := Header.signature?_eq_some_iff.1 hsome
    rw [hopen, hrest] at hline
    exact ⟨⟨before, kind, blanks, _, behind, hline, hne, hblank, hsig, hnot, hbehind⟩, rfl, rfl⟩

/-- Neither a string nor a comment can begin in a keyword or in the blanks behind it. -/
theorem ne_of_mem_keyword {kind : FunctionKind} {blanks : List Char}
    (hblank : ∀ b ∈ blanks, isBlank b = true) {c : Char} (hc : c ∈ keyword kind blanks) :
    c ≠ '"' ∧ c ≠ ';' := by
  have hword : ("define-".toList ++ kind.name.toList).all (fun c => c ≠ '"' && c ≠ ';') = true := by
    cases kind <;> decide +kernel
  unfold keyword at hc
  rw [← List.append_assoc] at hc
  rcases List.mem_append.1 hc with hc | hc
  · simpa only [Bool.and_eq_true, decide_eq_true_eq] using List.all_eq_true.1 hword c hc
  · have hc := hblank c hc
    constructor
    · rintro rfl
      exact absurd hc (by decide)
    · rintro rfl
      exact absurd hc (by decide)

/-! ## Headers of a masked line -/

/-- A parenthesis that is shown stands in code. -/
theorem exists_of_maskLine_eq {region : Region} {line before rest : List Char}
    (h : (maskLine region line).1 = before ++ '(' :: rest) :
    ∃ before' rest', line = before' ++ '(' :: rest' ∧ before'.length = before.length ∧
      rest = (maskLine .code rest').1 := by
  -- a character that is no parenthesis in code is one of those before
  have hcons {c d : Char} {cs ds : List Char}
      (ih : ∀ {before : List Char}, ds = before ++ '(' :: rest → ∃ before' rest',
        cs = before' ++ '(' :: rest' ∧ before'.length = before.length ∧
          rest = (maskLine .code rest').1)
      (hd : d ≠ '(') {before : List Char} (h : d :: ds = before ++ '(' :: rest) :
      ∃ before' rest', c :: cs = before' ++ '(' :: rest' ∧ before'.length = before.length ∧
        rest = (maskLine .code rest').1 := by
    cases before with
    | nil => exact absurd (List.cons.inj h).1 hd
    | cons b before =>
      obtain ⟨before', rest', rfl, hlength, hrest⟩ := ih (List.cons.inj h).2
      exact ⟨c :: before', rest', rfl, congrArg (· + 1) hlength, hrest⟩
  fun_induction maskLine region line generalizing before with
  | case1 region => simp at h
  | case2 c cs masked last heq ih =>
    rw [heq] at ih
    exact hcons ih (by decide) h
  | case3 cs masked last heq ih =>
    rw [heq] at ih
    exact hcons ih (by decide) h
  | case4 c cs hc masked last heq ih =>
    rw [heq] at ih
    exact hcons ih (by decide) h
  | case5 cs =>
    -- nothing is shown of a comment
    have hmem : '(' ∈ before ++ '(' :: rest := List.mem_append_right _ List.mem_cons_self
    rw [← h] at hmem
    simp at hmem
  | case6 c cs hmarker masked last heq ih =>
    rw [heq] at ih
    by_cases hc : c = '('
    · subst hc
      cases before with
      | nil =>
        obtain ⟨-, rfl⟩ := List.cons.inj h
        exact ⟨[], cs, rfl, rfl, (congrArg Prod.fst heq).symm⟩
      | cons b before =>
        obtain ⟨before', rest', rfl, hlength, hrest⟩ := ih (List.cons.inj h).2
        exact ⟨'(' :: before', rest', rfl, congrArg (· + 1) hlength, hrest⟩
    · exact hcons ih hc h

/-- Code is shown as it is up to the next quote or comment marker. -/
theorem maskLine_code_append {shown : List Char} (hshown : ∀ c ∈ shown, c ≠ '"' ∧ c ≠ ';')
    (rest : List Char) :
    (maskLine .code (shown ++ rest)).1 = shown ++ (maskLine .code rest).1 := by
  induction shown with
  | nil => rfl
  | cons c shown ih =>
    obtain ⟨⟨hquote, hmark⟩, hshown⟩ := List.forall_mem_cons.1 hshown
    rw [List.cons_append, maskLine, if_neg hquote]
    · exact congrArg (c :: ·) (ih hshown)
    · exact fun cs heq => absurd heq hmark

/-- The next character of code is shown, or else a comment begins and nothing is shown. -/
theorem maskLine_code_cons (c : Char) (cs : List Char) :
    (maskLine .code (c :: cs)).1 = (c :: cs).map (fun _ => ' ') ∨
      (maskLine .code (c :: cs)).1 = c :: (maskLine (if c = '"' then .string else .code) cs).1 := by
  by_cases hmarker : ∃ rest, c = ';' ∧ cs = ';' :: rest
  · obtain ⟨rest, rfl, rfl⟩ := hmarker
    exact Or.inl rfl
  · rw [maskLine]
    · exact Or.inr rfl
    · exact fun rest hc hcs => hmarker ⟨rest, hc, hcs⟩

/-- What is shown from code on up to a parenthesis, without a quote, is what stands there. -/
theorem exists_of_maskLine_code_eq {shown line rest : List Char}
    (hshown : ∀ c ∈ shown, c ≠ '"') (h : (maskLine .code line).1 = shown ++ '(' :: rest) :
    ∃ rest', line = shown ++ '(' :: rest' ∧ rest = (maskLine .code rest').1 := by
  induction shown generalizing line with
  | nil =>
    rw [List.nil_append, ← List.nil_append ('(' :: rest)] at h
    obtain ⟨before, rest', rfl, hlength, hrest⟩ := exists_of_maskLine_eq h
    rw [List.eq_nil_of_length_eq_zero hlength]
    exact ⟨rest', rfl, hrest⟩
  | cons c shown ih =>
    obtain ⟨hquote, hbehind⟩ := List.forall_mem_cons.1 hshown
    cases line with
    | nil => exact absurd h (List.cons_ne_nil _ _).symm
    | cons d line =>
      rcases maskLine_code_cons d line with hcomment | hcode
      · -- no parenthesis would be shown
        have hmem : '(' ∈ (d :: line).map fun _ => ' ' := by
          rw [← hcomment, h]
          exact List.mem_append_right _ List.mem_cons_self
        simp at hmem
      · obtain ⟨rfl, hline⟩ := List.cons.inj (hcode.symm.trans h)
        rw [if_neg hquote] at hline
        obtain ⟨rest', rfl, hrest⟩ := ih hbehind hline
        exact ⟨rest', rfl, hrest⟩

/-- Where masking keeps the parentheses of a line, it keeps the headers: none appears and none is
lost, at any column. -/
theorem headerAt_maskLine_iff {region : Region} {line : List Char}
    (h : SameParens (maskLine region line).1 line) {column : Nat} {kind : FunctionKind} :
    HeaderAt column kind (maskLine region line).1 ↔ HeaderAt column kind line := by
  rw [headerAt_iff, headerAt_iff]
  constructor
  · rintro ⟨before, blanks, c, rest, rfl, hne, hblank, hc, hmasked⟩
    obtain ⟨before', code, rfl, hlength, hcode⟩ := exists_of_maskLine_eq hmasked
    obtain ⟨inside, rfl, hinside⟩ := exists_of_maskLine_code_eq
      (fun b hb => (ne_of_mem_keyword hblank hb).1) hcode.symm
    -- the two signatures have the same parentheses, so the line's is not closed at once either
    rw [hmasked] at h
    have hsignature : SameParens (c :: rest) inside :=
      ((h.behind hlength.symm).tail.behind rfl).tail
    obtain ⟨d, rest', rfl, hd⟩ := hsignature.exists_cons hc
    exact ⟨before', blanks, d, rest', hlength, hne, hblank, hd, rfl⟩
  · rintro ⟨before, blanks, c, rest, rfl, hne, hblank, hc, rfl⟩
    obtain ⟨shown, behind, hmasked, hlength⟩ := h.symm.exists_opening
    obtain ⟨before', code, hline, hlength', hbehind⟩ := exists_of_maskLine_eq hmasked
    obtain ⟨rfl, hcode⟩ := List.append_inj hline (hlength'.trans hlength).symm
    obtain rfl := (List.cons.inj hcode).2
    have hshown : behind = keyword kind blanks ++ '(' :: (maskLine .code (c :: rest)).1 := by
      rw [hbehind, maskLine_code_append (fun b hb => ne_of_mem_keyword hblank hb)]
      rfl
    subst hshown
    rw [hmasked] at h
    have hsignature : SameParens (c :: rest) (maskLine .code (c :: rest)).1 :=
      ((h.symm.behind hlength.symm).tail.behind rfl).tail
    obtain ⟨d, rest', hd, hd'⟩ := hsignature.exists_cons hc
    rw [hd] at hmasked
    exact ⟨shown, blanks, d, rest', hlength, hne, hblank, hd', hmasked⟩

/-! ## Lines with the same definitions -/

/-- Lines in which the search for definitions finds the same but for names: a header of the same
kind and as many parentheses open behind it, or no header in both. -/
structure Alike (line line' : List Char) : Prop where
  found : Option.Rel (fun found found' => found.1.kind = found'.1.kind ∧
    weight found.2 = weight found'.2) (Header.find? line) (Header.find? line')
  weight_eq : weight line = weight line'

/-- Lines with the same parentheses and with headers at the same columns are alike. -/
theorem Alike.of_headerAt_iff {line line' : List Char} (h : SameParens line line')
    (hiff : ∀ column kind, HeaderAt column kind line ↔ HeaderAt column kind line') :
    Alike line line' := by
  refine ⟨?_, h.weight_eq⟩
  cases hfind : Header.find? line with
  | none =>
    have hempty := Header.find?_eq_none_iff.1 hfind
    have hempty' : IsEmpty (Header.Match line') := by
      refine ⟨fun m => ?_⟩
      obtain ⟨m', -⟩ := (hiff _ _).2 ⟨m, rfl, rfl⟩
      exact hempty.elim m'
    rw [Header.find?_eq_none_iff.2 hempty']
    exact Option.Rel.none
  | some found =>
    obtain ⟨m, hleft, hheader, hinside⟩ := Header.find?_eq_some_iff.1 hfind
    obtain ⟨m', hcolumn, hkind⟩ := (hiff _ _).1 ⟨m, rfl, rfl⟩
    -- a header further to the left would be one of the other line too
    have hleft' : m'.Leftmost := by
      intro other
      obtain ⟨other', hother, -⟩ := (hiff _ _).2 ⟨other, rfl, rfl⟩
      rw [hcolumn, ← hother]
      exact hleft other'
    rw [Header.find?_eq_some_iff.2 ⟨m', hleft', rfl, rfl⟩]
    refine Option.Rel.some ⟨?_, ?_⟩
    · rw [← hheader]
      exact hkind.symm
    · rw [← hinside, Header.Match.inside, Header.Match.inside, hcolumn]
      exact (h.drop _).weight_eq

/-- Bodies whose lines are alike extend equally far. -/
theorem bodyExtent_eq_of_forall₂ {ls ls' : List (List Char)} (h : List.Forall₂ Alike ls ls')
    (depth : Int) : bodyExtent depth ls = bodyExtent depth ls' := by
  induction h generalizing depth with
  | nil => rfl
  | cons hline _ ih => rw [bodyExtent, bodyExtent, hline.weight_eq, ih]

/-- Spans that differ in the name at most. -/
structure Span.SameBut (span span' : Span) : Prop where
  kind_eq : span.header.kind = span'.header.kind
  first_eq : span.first = span'.first
  last_eq : span.last = span'.last

/-- Lines that are alike one by one hold the same spans but for names. -/
theorem forall₂_spansFrom {ls ls' : List (List Char)} (h : List.Forall₂ Alike ls ls')
    (before : Nat) :
    List.Forall₂ Span.SameBut (spansFrom before ls) (spansFrom before ls') := by
  fun_induction spansFrom before ls generalizing ls' with
  | case1 before =>
    rw [List.forall₂_nil_left_iff.1 h, spansFrom]
    exact List.Forall₂.nil
  | case2 before line rest hnone ih =>
    obtain ⟨line', rest', hline, hrest, rfl⟩ := List.forall₂_cons_left_iff.1 h
    have hfound := hline.found
    rw [hnone] at hfound
    cases hnone' : Header.find? line' with
    | none =>
      rw [spansFrom, hnone']
      exact ih hrest
    | some found' =>
      rw [hnone'] at hfound
      cases hfound
  | case3 before line rest header inside hsome extent =>
    rename_i ih
    obtain ⟨line', rest', hline, hrest, rfl⟩ := List.forall₂_cons_left_iff.1 h
    have hfound := hline.found
    rw [hsome] at hfound
    cases hsome' : Header.find? line' with
    | none =>
      rw [hsome'] at hfound
      cases hfound
    | some found' =>
      rw [hsome', Option.rel_some_some] at hfound
      obtain ⟨hkind, hweight⟩ := hfound
      have hextent : bodyExtent (1 + weight found'.2) rest' = extent := by
        rw [← hweight, ← bodyExtent_eq_of_forall₂ hrest]
      simp only [spansFrom, hsome', hextent]
      exact List.Forall₂.cons ⟨hkind, rfl, rfl⟩ (ih (List.forall₂_drop _ hrest))

/-- Masked lines with the parentheses of the lines are like the lines. -/
theorem forall₂_maskLinesFrom {region : Region} {ls : List (List Char)}
    (h : (maskLinesFrom region ls).map (parenTokens · 0) = ls.map (parenTokens · 0)) :
    List.Forall₂ Alike (maskLinesFrom region ls) ls := by
  induction ls generalizing region with
  | nil => exact List.Forall₂.nil
  | cons line rest ih =>
    obtain ⟨hline, hrest⟩ := List.cons.inj h
    have hsame : SameParens (maskLine region line).1 line :=
      sameParens_of_parenTokensFrom_eq (length_maskLine region line) hline
    have halike : Alike (maskLine region line).1 line :=
      .of_headerAt_iff hsame fun _ _ => headerAt_maskLine_iff hsame
    exact List.Forall₂.cons halike (ih hrest)

/-- In a text whose comments and strings are harmless both ways of scanning find as many
definitions, and each of them with the same kind, file, lines and content. -/
theorem definitions_of_harmless (file : String) {content : String} (h : Harmless content) :
    List.Forall₂
      (fun f g => f.kind = g.kind ∧ f.file = g.file ∧ f.startLine = g.startLine ∧
        f.endLine = g.endLine ∧ f.content = g.content)
      (definitions .commentAware file content) (definitions .raw file content) := by
  have hspans : List.Forall₂ Span.SameBut (scan .commentAware content) (scan .raw content) :=
    forall₂_spansFrom (forall₂_maskLinesFrom h) 0
  rw [definitions, definitions, List.forall₂_map_left_iff, List.forall₂_map_right_iff]
  refine hspans.imp fun span span' hsame => ?_
  simp [Span.definition, hsame.kind_eq, hsame.first_eq, hsame.last_eq]

/-- A contract with a comment in a signature and a comment marker and a quote in a string. -/
def commentedSignature : String :=
  "(define-public (f;;doc\n  (x uint))\n  (print \"a;;\\\"b\"))"

/-- In such a contract the two ways of scanning agree, though not on the name. -/
theorem definitions_of_harmless_commentedSignature :
    Harmless commentedSignature ∧
    (definitions .commentAware "a.clar" commentedSignature).map (·.name) = ["f"] ∧
    (definitions .raw "a.clar" commentedSignature).map (·.name) = ["f;;doc"] ∧
    List.Forall₂
      (fun f g => f.kind = g.kind ∧ f.file = g.file ∧ f.startLine = g.startLine ∧
        f.endLine = g.endLine ∧ f.content = g.content)
      (definitions .commentAware "a.clar" commentedSignature)
      (definitions .raw "a.clar" commentedSignature) :=
  ⟨by decide +kernel, by decide +kernel, by decide +kernel,
    definitions_of_harmless "a.clar" (by decide +kernel)⟩

end ClarityDelta.Source
