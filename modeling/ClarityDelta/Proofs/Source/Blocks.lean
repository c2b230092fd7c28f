import Mathlib.Data.List.Infix
import ClarityDelta.Proofs.Source.DefinitionSpans
import ClarityDelta.Proofs.Text.Lines

/-!
# Well-formed files

Whether some lines are taken for a definition does not depend on where they stand: `IsForm` says it
of lines alone, and lines with that property make one span behind any other lines and before any
lines that follow, as soon as they are closed (`spansFrom_append_of_isForm`).

A `Block` is a definition as it is usually written. Behind the parenthesis that opens its header the
depth stays positive until the last closing parenthesis, which stands in the last line. A file that
is made of blocks, and of lines without a header between them, is read back exactly:
`definitions_layout`. What a block holds beside its own header, further headers included, does not
matter.
-/

namespace ClarityDelta.Source

open Logging Text

/-! ## Lines that make one definition -/

/-- Lines that are taken for one definition wherever they stand: the first one has the header, all
others belong to its body, and the depth is the one at the end of the last line. -/
def IsForm (header : Header) (depth : Int) (body : List (List Char)) : Prop :=
  ∃ first rest inside, body = first :: rest ∧ Header.find? first = some (header, inside) ∧
    bodyExtent (1 + weight inside) rest = (rest.length, depth)

/-- The definition that lines with a header make behind a number of other lines. -/
def formDefinition (file : String) (header : Header) (before : Nat) (body : List (List Char)) :
    FunctionDefinition where
  name := header.name
  kind := header.kind
  file := file
  startLine := before + 1
  endLine := before + body.length
  content := String.ofList (unlines body)

/-- Lines that follow do not change the depth at the end of a line before them. -/
theorem depthAfterLines_append {count : Nat} {ls : List (List Char)} (hcount : count ≤ ls.length)
    (depth : Int) (more : List (List Char)) :
    depthAfterLines depth (ls ++ more) count = depthAfterLines depth ls count := by
  rw [depthAfterLines, depthAfterLines, List.take_append_of_le_length hcount]

/-- A body that closes its definition is taken whatever follows it. -/
theorem bodyExtent_append {depth last : Int} {ls more : List (List Char)}
    (h : bodyExtent depth ls = (ls.length, last)) (hclosed : last = 0 ∨ more = []) :
    bodyExtent depth (ls ++ more) = (ls.length, last) := by
  rcases hclosed with hzero | rfl
  · obtain ⟨hle, hlast, -, hbefore⟩ := bodyExtent_eq_iff.1 h
    have hlength : ls.length ≤ (ls ++ more).length := by simp
    have hend := depthAfterLines_append hle depth more
    refine bodyExtent_eq_iff.2 ⟨hlength, hlast.trans hend.symm, Or.inl hzero, ?_⟩
    intro k hk
    rw [depthAfterLines_append (Nat.le_of_lt hk)]
    exact hbefore k hk
  · rwa [List.append_nil]

/-- Behind any other lines, lines that make a definition make one span. What follows them is searched
on its own if they are closed. -/
theorem spansFrom_append_of_isForm {header : Header} {depth : Int} {body more : List (List Char)}
    (h : IsForm header depth body) (hclosed : depth = 0 ∨ more = []) (before : Nat) :
    spansFrom before (body ++ more) =
      ⟨header, before + 1, before + body.length, depth⟩ ::
        spansFrom (before + body.length) more := by
  obtain ⟨first, rest, inside, rfl, hfind, hextent⟩ := h
  have htaken := bodyExtent_append hextent hclosed
  have hlast : before + 1 + rest.length = before + (first :: rest).length := by
    rw [List.length_cons]
    omega
  rw [List.cons_append, spansFrom]
  simp only [hfind, htaken, List.drop_left, hlast]

/-- Lines without a header are passed over. -/
theorem spansFrom_append_of_find?_eq_none {gap : List (List Char)}
    (hgap : ∀ l ∈ gap, Header.find? l = none) (before : Nat) (more : List (List Char)) :
    spansFrom before (gap ++ more) = spansFrom (before + gap.length) more := by
  induction gap generalizing before with
  | nil => rfl
  | cons line gap ih =>
    have hline := hgap line List.mem_cons_self
    have hrest := ih (fun l hl => hgap l (List.mem_cons_of_mem line hl)) (before + 1)
    have hlength : before + 1 + gap.length = before + (line :: gap).length := by
      rw [List.length_cons]
      omega
    rw [List.cons_append, spansFrom]
    simp only [hline]
    rw [hrest, hlength]

/-- The lines from one place to another are those that stand in the text behind the lines before the
first place. -/
theorem sliceLines_of_drop_eq {all body more : List (List Char)} {before : Nat}
    (h : all.drop before = body ++ more) :
    sliceLines (before + 1) (before + body.length) all = body := by
  have hcount : before + body.length + 1 - (before + 1) = body.length := by omega
  rw [sliceLines, hcount, Nat.add_sub_cancel, h, List.take_left]

/-- The span of lines that make a definition holds this definition. -/
theorem definition_of_drop_eq {all body more : List (List Char)} {before : Nat}
    (h : all.drop before = body ++ more) (file : String) (header : Header) (depth : Int) :
    Span.definition file all ⟨header, before + 1, before + body.length, depth⟩ =
      formDefinition file header before body := by
  simp only [Span.definition, formDefinition, sliceLines_of_drop_eq h]

/-- The spans of joined lines are those of the lines. The text of no lines has one, which is empty. -/
theorem scan_unlines {ls : List (List Char)} (hls : ∀ l ∈ ls, '\n' ∉ l) :
    scan .raw (String.ofList (unlines ls)) = spans ls := by
  rw [scan, String.toList_ofList]
  by_cases hne : ls = []
  · subst hne
    decide +kernel
  · rw [lines_unlines hne hls]
    rfl

/-- The definitions of joined lines are those of the spans of the lines. -/
theorem definitions_unlines {ls : List (List Char)} (hls : ∀ l ∈ ls, '\n' ∉ l) (file : String) :
    definitions .raw file (String.ofList (unlines ls)) =
      (spans ls).map (Span.definition file ls) := by
  rw [definitions, scan_unlines hls, String.toList_ofList]
  by_cases hne : ls = []
  · subst hne
    have hnone : spans [] = [] := by rw [spans, spansFrom]
    rw [hnone, List.map_nil, List.map_nil]
  · rw [lines_unlines hne hls]

/-! ## Blocks -/

/-- The depth behind some of the characters that follow the parenthesis which opens a header. -/
def depthBehind (cs : List Char) : Int :=
  1 + (cs.count '(' : Int) - (cs.count ')' : Int)

/-- Behind a header the depth is one more than what follows weighs. -/
theorem depthBehind_eq (cs : List Char) : depthBehind cs = 1 + weight cs := by
  rw [depthBehind, weight_eq_count]
  omega

/-- A definition in lines of its own. Its header is the leftmost one of the first line. Behind the
parenthesis that opens it the depth stays at least 1 up to a closing parenthesis in the last line,
which makes it 0, and no parenthesis follows. The last line, or what is behind the parenthesis when
there is no other line, is cut at that place into `upTo` and `behind`, and `above` are the lines
before it. -/
structure Block where
  first : List Char
  rest : List (List Char)
  place : Header.Match first
  leftmost : place.Leftmost
  above : List (List Char)
  upTo : List Char
  behind : List Char
  lines_eq : place.inside :: rest = above ++ [upTo ++ ')' :: behind]
  one_le_depth : ∀ part, part <+: above.flatten ++ upTo → 1 ≤ depthBehind part
  depth_eq_zero : depthBehind (above.flatten ++ upTo ++ [')']) = 0
  no_paren_behind : '(' ∉ behind ∧ ')' ∉ behind
  no_newline : ∀ l ∈ first :: rest, '\n' ∉ l

namespace Block

/-- The lines of a block. -/
def lines (block : Block) : List (List Char) :=
  block.first :: block.rest

/-- The definition that a block makes behind a number of other lines. -/
def definition (file : String) (before : Nat) (block : Block) : FunctionDefinition :=
  formDefinition file block.place.header before block.lines

/-- A block has as many lines before its last one as behind its first one. -/
theorem length_above (block : Block) : block.above.length = block.rest.length := by
  have hlength := congrArg List.length block.lines_eq
  simpa using hlength.symm

/-- The depth at the end of a line of a block that is not its last one is positive. -/
theorem one_le_depthAfterLines (block : Block) {k : Nat} (hk : k < block.rest.length) :
    1 ≤ depthAfterLines (1 + weight block.place.inside) block.rest k := by
  have habove : k + 1 ≤ block.above.length := block.length_above ▸ hk
  have hpart : (block.above.take (k + 1)).flatten <+: block.above.flatten ++ block.upTo := by
    refine ⟨(block.above.drop (k + 1)).flatten ++ block.upTo, ?_⟩
    rw [← List.append_assoc, ← List.flatten_append, List.take_append_drop]
  have hdepth := block.one_le_depth _ hpart
  rw [← depthAfterLines_succ, block.lines_eq, depthAfterLines_append habove, depthAfterLines,
    ← depthBehind_eq]
  exact hdepth

/-- The depth at the end of the last line of a block is 0. -/
theorem depthAfterLines_length (block : Block) :
    depthAfterLines (1 + weight block.place.inside) block.rest block.rest.length = 0 := by
  have hbehind : weight block.behind = 0 := by
    rw [weight_eq_count, List.count_eq_zero_of_not_mem block.no_paren_behind.1,
      List.count_eq_zero_of_not_mem block.no_paren_behind.2]
    rfl
  have hzero := block.depth_eq_zero
  rw [depthBehind_eq] at hzero
  have hall : (block.above ++ [block.upTo ++ ')' :: block.behind]).flatten =
      (block.above.flatten ++ block.upTo ++ [')']) ++ block.behind := by
    simp
  rw [← depthAfterLines_succ, ← List.length_cons, block.lines_eq, depthAfterLines,
    List.take_length, hall, weight_append, hbehind]
  omega

/-- A block is taken for one definition, and it is closed. -/
theorem isForm (block : Block) : IsForm block.place.header 0 block.lines := by
  have hfind : Header.find? block.first = some (block.place.header, block.place.inside) :=
    Header.find?_eq_some_iff.2 ⟨block.place, block.leftmost, rfl, rfl⟩
  refine ⟨block.first, block.rest, block.place.inside, rfl, hfind, ?_⟩
  refine bodyExtent_eq_iff.2 ⟨Nat.le_refl _, block.depthAfterLines_length.symm, Or.inl rfl, ?_⟩
  intro k hk
  have hpos := block.one_le_depthAfterLines hk
  omega

end Block

/-! ## Files made of blocks -/

/-- A line that may stand between definitions: no header stands in it. -/
structure Plain (l : List Char) : Prop where
  no_header : IsEmpty (Header.Match l)
  no_newline : '\n' ∉ l

/-- A plain line has no header. -/
theorem Plain.find?_eq_none {l : List Char} (h : Plain l) : Header.find? l = none :=
  Header.find?_eq_none_iff.2 h.no_header

/-- A part of a file: a plain line, or a block. -/
inductive Part where
  | gap (line : List Char) (plain : Plain line)
  | block (block : Block)

namespace Part

/-- The lines of a part. -/
def lines : Part → List (List Char)
  | .gap line _ => [line]
  | .block b => b.lines

/-- The lines of a part have no line feeds. -/
theorem no_newline_of_mem_lines {part : Part} {l : List Char} (h : l ∈ part.lines) :
    '\n' ∉ l := by
  cases part with
  | gap line plain =>
    obtain rfl := List.mem_singleton.1 h
    exact plain.no_newline
  | block b => exact b.no_newline l h

end Part

/-- The text of a file that is made of parts. -/
def layoutText (parts : List Part) : String :=
  String.ofList (unlines (parts.flatMap Part.lines))

/-- The definitions of a file that is made of parts, which follow a number of other lines: one for
each block, at its place. -/
def layoutDefinitions (file : String) (before : Nat) : List Part → List FunctionDefinition
  | [] => []
  | .gap _ _ :: parts => layoutDefinitions file (before + 1) parts
  | .block b :: parts =>
    b.definition file before :: layoutDefinitions file (before + b.lines.length) parts

/-- Part after part, the spans that are found hold the definitions of the blocks, and are closed. -/
theorem spansFrom_layout {all : List (List Char)} {parts : List Part} {before : Nat}
    (hall : all.drop before = parts.flatMap Part.lines) (file : String) :
    (spansFrom before (parts.flatMap Part.lines)).map (Span.definition file all) =
        layoutDefinitions file before parts ∧
      ∀ span ∈ spansFrom before (parts.flatMap Part.lines), span.depth = 0 := by
  induction parts generalizing before with
  | nil => simp [spansFrom, layoutDefinitions]
  | cons part parts ih =>
    rw [List.flatMap_cons] at hall ⊢
    have hrest : all.drop (before + part.lines.length) = parts.flatMap Part.lines := by
      rw [← List.drop_drop, hall, List.drop_left]
    obtain ⟨hmap, hclosed⟩ := ih hrest
    cases part with
    | gap line plain =>
      have hline : ∀ l ∈ (Part.gap line plain).lines, Header.find? l = none := by
        intro l hl
        obtain rfl := List.mem_singleton.1 hl
        exact plain.find?_eq_none
      rw [spansFrom_append_of_find?_eq_none hline]
      exact ⟨hmap, hclosed⟩
    | block b =>
      have hform : IsForm b.place.header 0 (Part.block b).lines := b.isForm
      have hdefinition := definition_of_drop_eq hall file b.place.header 0
      rw [spansFrom_append_of_isForm hform (Or.inl rfl), List.map_cons, hdefinition, hmap]
      refine ⟨rfl, ?_⟩
      intro span hspan
      rcases List.mem_cons.1 hspan with rfl | hspan
      · rfl
      · exact hclosed span hspan

/-- A file that is made of blocks and of lines without a header is read back: each block gives one
definition, in order, with its header's kind and name, its place and its lines. Their number is all
that is noted, so there is no warning. -/
theorem definitions_layout (file : String) (parts : List Part) :
    definitions .raw file (layoutText parts) = layoutDefinitions file 0 parts ∧
      definitionNotes .raw file (layoutText parts) =
        [.debug (countNotice file (layoutDefinitions file 0 parts).length)] := by
  have hlines : ∀ l ∈ parts.flatMap Part.lines, '\n' ∉ l := by
    intro l hl
    obtain ⟨part, -, hl⟩ := List.mem_flatMap.1 hl
    exact Part.no_newline_of_mem_lines hl
  have hall : (parts.flatMap Part.lines).drop 0 = parts.flatMap Part.lines := List.drop_zero
  obtain ⟨hmap, hclosed⟩ := spansFrom_layout hall file
  have hscan : scan .raw (layoutText parts) = spans (parts.flatMap Part.lines) := scan_unlines hlines
  refine ⟨(definitions_unlines hlines file).trans hmap, ?_⟩
  have hquiet : unclosed? (spans (parts.flatMap Part.lines)) = none := by
    rw [Option.eq_none_iff_forall_ne_some]
    intro span hnoted
    obtain ⟨hmem, hopen⟩ := unclosed?_spans_eq_some_iff.1 hnoted
    exact hopen (hclosed span hmem)
  have hcount : (spans (parts.flatMap Part.lines)).length =
      (layoutDefinitions file 0 parts).length := by
    rw [← hmap, List.length_map]
    rfl
  simp only [definitionNotes, hscan, hquiet, hcount, Option.map_none, Option.toList_none,
    List.nil_append]

/-! ## Two blocks -/

/-- A function over several lines, with what looks like another header inside. -/
def nested : Block where
  first := "(define-public (f (n uint))".toList
  rest := ["(define-private (g) u1)".toList, "(ok n))".toList]
  place :=
    { before := []
      kind := .publicFunction
      blanks := [' ']
      signature := "f (n uint".toList
      behind := "))".toList
      line_eq := rfl
      blanks_ne_nil := List.cons_ne_nil ' ' []
      isBlank_of_mem := by simp [isBlank]
      signature_ne_nil := by simp
      not_mem_signature := by decide
      eq_of_mem_head? := by simp }
  leftmost := fun _ => Nat.zero_le _
  above := ["define-public (f (n uint))".toList, "(define-private (g) u1)".toList]
  upTo := "(ok n)".toList
  behind := []
  lines_eq := rfl
  one_le_depth := by
    simp only [← List.mem_inits]
    decide +kernel
  depth_eq_zero := by decide +kernel
  no_paren_behind := by simp
  no_newline := by decide

/-- A function in a single line, with a comment behind it. -/
def single : Block where
  first := "(define-read-only (h) u0) ;;".toList
  rest := []
  place :=
    { before := []
      kind := .readOnly
      blanks := [' ']
      signature := "h".toList
      behind := ") u0) ;;".toList
      line_eq := rfl
      blanks_ne_nil := List.cons_ne_nil ' ' []
      isBlank_of_mem := by simp [isBlank]
      signature_ne_nil := by simp
      not_mem_signature := by decide
      eq_of_mem_head? := by simp }
  leftmost := fun _ => Nat.zero_le _
  above := []
  upTo := "define-read-only (h) u0".toList
  behind := " ;;".toList
  lines_eq := rfl
  one_le_depth := by
    simp only [← List.mem_inits]
    decide +kernel
  depth_eq_zero := by decide +kernel
  no_paren_behind := by decide
  no_newline := by decide

/-- A file with both, a comment before the first and an empty line between them. -/
def twoBlocks : List Part :=
  [.gap ";;".toList ⟨Header.find?_eq_none_iff.1 (by decide), by decide⟩, .block nested,
    .gap [] ⟨Header.find?_eq_none_iff.1 rfl, by decide⟩, .block single]

/-- Two blocks with lines around them are found at their lines. -/
theorem definitions_layout_twoBlocks :
    definitions .raw "m.clar" (layoutText twoBlocks) =
        [⟨"f", .publicFunction, "m.clar", 2, 4, String.ofList (unlines nested.lines)⟩,
          ⟨"h", .readOnly, "m.clar", 6, 6, String.ofList single.first⟩] ∧
      definitionNotes .raw "m.clar" (layoutText twoBlocks) = [.debug (countNotice "m.clar" 2)] := by
  obtain ⟨hfound, hnotes⟩ := definitions_layout "m.clar" twoBlocks
  exact ⟨hfound.trans (by decide +kernel), hnotes⟩

end ClarityDelta.Source
