import ClarityDelta.Proofs.Source.Blocks

/-!
# Texts made of the definitions of another text

The lines of a definition make it again wherever they stand. So when the definitions of a text get
other places, and some of them other lines, what is found in the new text is known definition by
definition. A `Weave` says what stands in the place of each one, and `Weave.Sound.definitions_eq`
what is found there.
-/

namespace ClarityDelta.Source

open Text

/-! ## The lines of a definition -/

/-- The lines that make a definition have one depth at their end. -/
theorem IsForm.depth_eq {header header' : Header} {depth depth' : Int} {body : List (List Char)}
    (h : IsForm header depth body) (h' : IsForm header' depth' body) : depth = depth' := by
  obtain ⟨first, rest, inside, rfl, hfind, hextent⟩ := h
  obtain ⟨first', rest', inside', hbody, hfind', hextent'⟩ := h'
  obtain ⟨rfl, rfl⟩ := List.cons.inj hbody
  obtain ⟨-, rfl⟩ := Prod.mk.inj (Option.some.inj (hfind.symm.trans hfind'))
  exact (Prod.mk.inj (hextent.symm.trans hextent')).2

/-- The lines that `bodyExtent` takes are taken also when no other ones follow. -/
theorem bodyExtent_take {depth last : Int} {ls : List (List Char)} {count : Nat}
    (h : bodyExtent depth ls = (count, last)) :
    bodyExtent depth (ls.take count) = ((ls.take count).length, last) := by
  obtain ⟨hle, hlast, -, hbefore⟩ := bodyExtent_eq_iff.1 h
  have hlength : (ls.take count).length = count := List.length_take_of_le hle
  have hsame {k : Nat} (hk : k ≤ count) :
      depthAfterLines depth (ls.take count) k = depthAfterLines depth ls k := by
    have happend := depthAfterLines_append (hlength.symm ▸ hk) depth (ls.drop count)
    rwa [List.take_append_drop, eq_comm] at happend
  rw [hlength]
  refine bodyExtent_eq_iff.2 ⟨hlength.symm ▸ Nat.le_refl _, ?_, Or.inr hlength.symm, ?_⟩
  · rw [hsame (Nat.le_refl count)]
    exact hlast
  · intro k hk
    rw [hsame (Nat.le_of_lt hk)]
    exact hbefore k hk

/-- The lines of a span make its definition also by themselves. -/
theorem Span.Within.isForm {ls : List (List Char)} {span : Span} {line inside : List Char}
    (h : span.Within ls line inside) :
    IsForm span.header span.depth (sliceLines span.first span.last ls) := by
  have hfirst := h.first_pos
  have hle := h.first_le_last
  have hcount : span.last + 1 - span.first = span.last - span.first + 1 := by omega
  have hdrop : ls.drop (span.first - 1) = line :: ls.drop span.first := by
    obtain ⟨hlt, hline⟩ := List.getElem?_eq_some_iff.1 h.line_eq
    have hnext : span.first - 1 + 1 = span.first := by omega
    rw [List.drop_eq_getElem_cons hlt, hline, hnext]
  rw [sliceLines, hdrop, hcount, List.take_succ_cons]
  exact ⟨line, _, inside, rfl, h.find_eq, bodyExtent_take h.extent_eq⟩

/-- The lines of a definition in its text. -/
def ownLines (content : String) (f : FunctionDefinition) : List (List Char) :=
  sliceLines f.startLine f.endLine (lines content.toList)

/-- The lines of a definition have no line feeds. -/
theorem newline_not_mem_of_mem_ownLines {content : String} {f : FunctionDefinition}
    {l : List Char} (h : l ∈ ownLines content f) : '\n' ∉ l := by
  have hmem : l ∈ lines content.toList := List.mem_of_mem_drop (List.mem_of_mem_take h)
  exact newline_not_mem_of_mem_lines hmem

/-- The content of a definition is made of its lines. -/
theorem content_eq_ownLines {file content : String} {f : FunctionDefinition}
    (hf : f ∈ definitions .raw file content) :
    f.content = String.ofList (unlines (ownLines content f)) := by
  obtain ⟨span, -, rfl, -⟩ := exists_span_of_mem_definitions hf
  rfl

/-- The lines of a definition make it again, and they are closed exactly when it is balanced. -/
theorem exists_isForm_of_mem_definitions {file content : String} {f : FunctionDefinition}
    (hf : f ∈ definitions .raw file content) :
    ∃ depth, IsForm ⟨f.kind, f.name⟩ depth (ownLines content f) ∧
      ∀ o : Opening (lines content.toList) f, o.Balanced ↔ depth = 0 := by
  obtain ⟨span, -, rfl, line, inside, h⟩ := exists_span_of_mem_definitions hf
  exact ⟨span.depth, h.isForm, fun o => o.balanced_iff h⟩

/-- A definition that comes before another one is closed. -/
theorem pairwise_isForm_definitions (file content : String) :
    (definitions .raw file content).Pairwise fun f _ =>
      IsForm ⟨f.kind, f.name⟩ 0 (ownLines content f) := by
  refine List.pairwise_map.2 ((pairwise_spansFrom 0 _).imp_of_mem ?_)
  intro span later hspan hlater hlt
  obtain ⟨line, inside, h⟩ := within_of_mem_spansFrom List.drop_zero hspan
  obtain ⟨line', inside', h'⟩ := within_of_mem_spansFrom List.drop_zero hlater
  -- an open definition would go on to the end of the text, where the other one begins
  have hzero : span.depth = 0 := by
    by_contra hopen
    have hend := h.last_eq_length hopen
    have hfirst := h'.first_le_length
    omega
  have hform := h.isForm
  rw [hzero] at hform
  exact hform

/-- Whether no header stands in a line. -/
def lacksHeader (l : List Char) : Bool :=
  (Header.find? l).isNone

/-- Lines of a text before the next header are plain. -/
theorem plain_of_mem_takeWhile {content : String} {ls : List (List Char)} {l : List Char}
    (hls : ls ⊆ lines content.toList) (h : l ∈ ls.takeWhile lacksHeader) : Plain l := by
  have hlacks : lacksHeader l = true := List.mem_takeWhile_imp h
  have hmem : l ∈ lines content.toList := hls ((List.takeWhile_sublist _).subset h)
  rw [lacksHeader, Option.isNone_iff_eq_none] at hlacks
  exact ⟨Header.find?_eq_none_iff.1 hlacks, newline_not_mem_of_mem_lines hmem⟩

/-- A text has nothing but its definitions and, in front of the first one and behind each, the lines
up to the next header. -/
theorem eq_append_flatMap_spansFrom {all ls : List (List Char)} {before : Nat}
    (hls : all.drop before = ls) :
    ls = ls.takeWhile lacksHeader ++ (spansFrom before ls).flatMap fun span =>
      sliceLines span.first span.last all ++ (all.drop span.last).takeWhile lacksHeader := by
  fun_induction spansFrom before ls with
  | case1 before => rfl
  | case2 before line rest hnone ih =>
    have hlacks : lacksHeader line = true := Option.isNone_iff_eq_none.2 hnone
    have hrest : all.drop (before + 1) = rest := by
      rw [← List.drop_drop, hls]
      rfl
    rw [List.takeWhile_cons_of_pos hlacks, List.cons_append, ← ih hrest]
  | case3 before line rest header inside hsome extent ih =>
    have hlacks : lacksHeader line ≠ true := by
      rw [lacksHeader, hsome]
      exact Bool.false_ne_true
    have hrest : all.drop (before + 1 + extent.1) = rest.drop extent.1 := by
      rw [← List.drop_drop, ← List.drop_drop, hls]
      rfl
    have hcount : before + 1 + extent.1 + 1 - (before + 1) = extent.1 + 1 := by omega
    have hslice : sliceLines (before + 1) (before + 1 + extent.1) all =
        line :: rest.take extent.1 := by
      rw [sliceLines, hcount, Nat.add_sub_cancel, hls, List.take_succ_cons]
    rw [List.takeWhile_cons_of_neg hlacks, List.nil_append, List.flatMap_cons, hslice, hrest,
      List.append_assoc, ← ih hrest, List.cons_append, List.take_append_drop]

/-! ## Texts made of definitions -/

/-- What stands in the place of each definition of a text: a definition's header and its lines, and
the lines that come behind it. -/
structure Weave where
  header : FunctionDefinition → Header
  body : FunctionDefinition → List (List Char)
  behind : FunctionDefinition → List (List Char)

namespace Weave

/-- The lines that stand in the places of definitions. -/
def lines (weave : Weave) (fs : List FunctionDefinition) : List (List Char) :=
  fs.flatMap fun f => weave.body f ++ weave.behind f

/-- The definitions that stand in the places of others, behind a number of other lines. -/
def definitions (weave : Weave) (file : String) (before : Nat) :
    List FunctionDefinition → List FunctionDefinition
  | [] => []
  | f :: fs => formDefinition file (weave.header f) before (weave.body f) ::
      weave.definitions file (before + (weave.body f).length + (weave.behind f).length) fs

/-- Something else in the place of one definition. -/
def replace (weave : Weave) (old : FunctionDefinition) (header : Header)
    (body : List (List Char)) : Weave where
  header f := if f = old then header else weave.header f
  body f := if f = old then body else weave.body f
  behind := weave.behind

/-- In the place of the old definition stands the new one, and elsewhere what stood there before. -/
theorem replace_cases (weave : Weave) (old : FunctionDefinition) (header : Header)
    (body : List (List Char)) (f : FunctionDefinition) :
    (f = old ∧ (weave.replace old header body).header f = header ∧
        (weave.replace old header body).body f = body) ∨
      (weave.replace old header body).header f = weave.header f ∧
        (weave.replace old header body).body f = weave.body f := by
  by_cases heq : f = old
  · exact Or.inl ⟨heq, if_pos heq, if_pos heq⟩
  · exact Or.inr ⟨if_neg heq, if_neg heq⟩

/-- Each body makes a definition with the name of the one whose place it takes, and the lines behind
it are plain. A body that is not closed is the last one, and nothing comes behind it. -/
structure Sound (weave : Weave) (fs : List FunctionDefinition) : Prop where
  isForm : ∀ f ∈ fs, ∃ depth, IsForm (weave.header f) depth (weave.body f) ∧
    (depth = 0 ∨ weave.behind f = [])
  closed : fs.Pairwise fun f _ => IsForm (weave.header f) 0 (weave.body f)
  name_eq : ∀ f ∈ fs, (weave.header f).name = f.name
  no_newline : ∀ f ∈ fs, ∀ l ∈ weave.body f, '\n' ∉ l
  plain : ∀ f ∈ fs, ∀ l ∈ weave.behind f, Plain l

namespace Sound

/-- Without its first definition a sound weave is sound. -/
theorem tail {weave : Weave} {f : FunctionDefinition} {fs : List FunctionDefinition}
    (h : weave.Sound (f :: fs)) : weave.Sound fs where
  isForm g hg := h.isForm g (List.mem_cons_of_mem f hg)
  closed := (List.pairwise_cons.1 h.closed).2
  name_eq g hg := h.name_eq g (List.mem_cons_of_mem f hg)
  no_newline g hg := h.no_newline g (List.mem_cons_of_mem f hg)
  plain g hg := h.plain g (List.mem_cons_of_mem f hg)

/-- A closed body may take the place of any other one with its name. -/
theorem replace {weave : Weave} {fs : List FunctionDefinition} (h : weave.Sound fs)
    {old : FunctionDefinition} {header : Header} {body : List (List Char)}
    (hform : IsForm header 0 body) (hname : header.name = old.name)
    (hbody : ∀ l ∈ body, '\n' ∉ l) : (weave.replace old header body).Sound fs where
  isForm f hf := by
    obtain ⟨-, hheader, hlines⟩ | ⟨hheader, hlines⟩ := weave.replace_cases old header body f
    · rw [hheader, hlines]
      exact ⟨0, hform, Or.inl rfl⟩
    · rw [hheader, hlines]
      exact h.isForm f hf
  closed := by
    refine h.closed.imp ?_
    intro f _ hclosed
    obtain ⟨-, hheader, hlines⟩ | ⟨hheader, hlines⟩ := weave.replace_cases old header body f
    · rwa [hheader, hlines]
    · rwa [hheader, hlines]
  name_eq f hf := by
    obtain ⟨rfl, hheader, -⟩ | ⟨hheader, -⟩ := weave.replace_cases old header body f
    · rw [hheader, hname]
    · rw [hheader, h.name_eq f hf]
  no_newline f hf := by
    obtain ⟨-, -, hlines⟩ | ⟨-, hlines⟩ := weave.replace_cases old header body f
    · rwa [hlines]
    · rw [hlines]
      exact h.no_newline f hf
  plain := h.plain

/-- The lines of a sound weave have no line feeds. -/
theorem newline_not_mem_of_mem_lines {weave : Weave} {fs : List FunctionDefinition}
    (h : weave.Sound fs) {l : List Char} (hl : l ∈ weave.lines fs) : '\n' ∉ l := by
  obtain ⟨f, hf, hl⟩ := List.mem_flatMap.1 hl
  rcases List.mem_append.1 hl with hl | hl
  · exact h.no_newline f hf l hl
  · exact (h.plain f hf l hl).no_newline

/-- Each body is found as a definition, at its place. -/
theorem map_spansFrom {weave : Weave} {fs : List FunctionDefinition} (h : weave.Sound fs)
    {all : List (List Char)} {before : Nat} (hall : all.drop before = weave.lines fs)
    (file : String) :
    (spansFrom before (weave.lines fs)).map (Span.definition file all) =
      weave.definitions file before fs := by
  induction fs generalizing before with
  | nil =>
    rw [lines, List.flatMap_nil, spansFrom]
    rfl
  | cons f fs ih =>
    obtain ⟨depth, hform, hdepth⟩ := h.isForm f List.mem_cons_self
    have hlines : weave.lines (f :: fs) = weave.body f ++ (weave.behind f ++ weave.lines fs) := by
      rw [lines, List.flatMap_cons, List.append_assoc]
      rfl
    -- a body that is left open is the last one, so nothing follows it
    have hclosed : depth = 0 ∨ weave.behind f ++ weave.lines fs = [] := by
      cases fs with
      | nil =>
        rw [lines, List.flatMap_nil, List.append_nil]
        exact hdepth
      | cons g fs =>
        have hzero := (List.pairwise_cons.1 h.closed).1 g List.mem_cons_self
        exact Or.inl (hform.depth_eq hzero)
    have hbehind : ∀ l ∈ weave.behind f, Header.find? l = none := fun l hl =>
      (h.plain f List.mem_cons_self l hl).find?_eq_none
    rw [hlines] at hall ⊢
    have hrest : all.drop (before + (weave.body f).length + (weave.behind f).length) =
        weave.lines fs := by
      rw [← List.drop_drop, ← List.drop_drop, hall, List.drop_left, List.drop_left]
    rw [spansFrom_append_of_isForm hform hclosed, List.map_cons, definition_of_drop_eq hall,
      spansFrom_append_of_find?_eq_none hbehind, ih h.tail hrest]
    rfl

/-- The definitions found in a weave behind plain lines are those of its bodies, each at the lines where
it stands. -/
theorem definitions_eq {weave : Weave} {fs : List FunctionDefinition} (h : weave.Sound fs)
    {front : List (List Char)} (hfront : ∀ l ∈ front, Plain l) (file : String) :
    Source.definitions .raw file (String.ofList (unlines (front ++ weave.lines fs))) =
      weave.definitions file front.length fs := by
  have hlines : ∀ l ∈ front ++ weave.lines fs, '\n' ∉ l := by
    intro l hl
    rcases List.mem_append.1 hl with hl | hl
    · exact (hfront l hl).no_newline
    · exact h.newline_not_mem_of_mem_lines hl
  have hspans : spans (front ++ weave.lines fs) = spansFrom front.length (weave.lines fs) := by
    have hgap : ∀ l ∈ front, Header.find? l = none := fun l hl => (hfront l hl).find?_eq_none
    rw [spans, spansFrom_append_of_find?_eq_none hgap, Nat.zero_add]
  have hall : (front ++ weave.lines fs).drop front.length = weave.lines fs := List.drop_left
  rw [definitions_unlines hlines, hspans, h.map_spansFrom hall]

end Sound

end Weave

end ClarityDelta.Source
