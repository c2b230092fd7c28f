import ClarityDelta.Proofs.Source.Extent
import ClarityDelta.Proofs.Source.HeaderMatch
import ClarityDelta.Record.Fields
import ClarityDelta.Source.Notes

/-!
# The spans of the definitions found in a text

What `definitions` finds is compared with the text itself: `FoundIn` says of any list of
definitions and any list of notes what they have to do with the lines of a text, raw and as
parentheses are counted in them, and `definitions_foundIn` says it of what is found and noted.
Parentheses are counted here by their occurrences and headers by `Header.Match`, so that nothing of
the search comes in.
-/

namespace ClarityDelta.Source

open Data Logging Text

/-- Masking keeps the number of lines. -/
theorem length_maskLinesFrom (region : Region) (ls : List (List Char)) :
    (maskLinesFrom region ls).length = ls.length := by
  induction ls generalizing region with
  | nil => rfl
  | cons line rest ih => exact congrArg (· + 1) (ih _)

/-- The view of a text has as many lines as the text. -/
theorem Scanning.length_view (scanning : Scanning) (ls : List (List Char)) :
    (scanning.view ls).length = ls.length := by
  cases scanning with
  | raw => rfl
  | commentAware => exact length_maskLinesFrom .code ls

/-- How a definition opens in the view of a text: its first line, and the leftmost header there,
which gives the kind and the name. -/
structure Opening (view : List (List Char)) (f : FunctionDefinition) where
  line : List Char
  line_eq : view[f.startLine - 1]? = some line
  place : Header.Match line
  leftmost : place.Leftmost
  kind_eq : f.kind = place.kind
  name_eq : f.name = String.ofList (firstWord place.signature)

namespace Opening

variable {view : List (List Char)} {f : FunctionDefinition}

/-- What the view shows of the definition from the parenthesis on that opens its header. -/
def text (o : Opening view f) : List Char :=
  o.place.text ++ (view.extract f.startLine f.endLine).flatten

/-- The definition closes as many parentheses as it opens. -/
def Balanced (o : Opening view f) : Prop :=
  o.text.count '(' = o.text.count ')'

/-- By how many parentheses the definition has more opening than closing ones. -/
def excess (o : Opening view f) : Int :=
  (o.text.count '(' : Int) - (o.text.count ')' : Int)

/-- All openings of a definition have the same text behind their parenthesis, the one that the
search for headers gives. -/
theorem inside_eq {line inside : List Char} {header : Header} (o : Opening view f)
    (hline : view[f.startLine - 1]? = some line)
    (hfind : Header.find? line = some (header, inside)) : o.place.inside = inside := by
  have heq : o.line = line := Option.some.inj (o.line_eq.symm.trans hline)
  have hfound := Header.find?_eq_some_iff.2 ⟨o.place, o.leftmost, rfl, rfl⟩
  have hsame := hfound.symm.trans ((congrArg Header.find? heq).trans hfind)
  exact (Prod.mk.inj (Option.some.inj hsame)).2

/-- The excess of a span's definition is the depth at the end of the span. -/
theorem excess_eq_depth {file : String} {ls : List (List Char)} {span : Span}
    {line inside : List Char} (h : span.Within view line inside)
    (o : Opening view (span.definition file ls)) : o.excess = span.depth := by
  rw [excess, ← weight_eq_count, text, o.place.text_eq, o.inside_eq h.line_eq h.find_eq]
  exact h.depth_eq_weight.symm

/-- A span's definition closes what it opens exactly when the span is closed. -/
theorem balanced_iff {file : String} {ls : List (List Char)} {span : Span}
    {line inside : List Char} (h : span.Within view line inside)
    (o : Opening view (span.definition file ls)) : o.Balanced ↔ span.depth = 0 := by
  rw [← o.excess_eq_depth h, Balanced, excess]
  omega

end Opening

/-- The definition of a span opens with the header that the span has. -/
theorem Span.Within.nonempty_opening {view ls : List (List Char)} {span : Span}
    {line inside : List Char} (h : span.Within view line inside) (file : String) :
    Nonempty (Opening view (span.definition file ls)) := by
  obtain ⟨place, hleft, hheader, -⟩ := Header.find?_eq_some_iff.1 h.find_eq
  exact ⟨⟨line, h.line_eq, place, hleft, (congrArg Header.kind hheader).symm,
    (congrArg Header.name hheader).symm⟩⟩

/-- Every definition that is found belongs to a span of the view. -/
theorem exists_span_of_mem_definitions {scanning : Scanning} {file content : String}
    {f : FunctionDefinition} (hf : f ∈ definitions scanning file content) :
    ∃ span ∈ scan scanning content, span.definition file (lines content.toList) = f ∧
      ∃ line inside, span.Within (scanning.view (lines content.toList)) line inside := by
  obtain ⟨span, hmem, rfl⟩ := List.mem_map.1 hf
  exact ⟨span, hmem, rfl, within_of_mem_spansFrom List.drop_zero hmem⟩

/-- Every definition has a line that opens it. -/
theorem nonempty_opening_of_mem_definitions {scanning : Scanning} {file content : String}
    {f : FunctionDefinition} (hf : f ∈ definitions scanning file content) :
    Nonempty (Opening (scanning.view (lines content.toList)) f) := by
  obtain ⟨span, -, rfl, line, inside, h⟩ := exists_span_of_mem_definitions hf
  exact h.nonempty_opening file

/-- A definition whose lines count from 1 passes the check of its fields. -/
theorem FunctionDefinition.check_fields {f : FunctionDefinition} (hstart : 1 ≤ f.startLine)
    (hend : 1 ≤ f.endLine) : check f.fields = .valid f := by
  simp [check, fields, Fields.required, Fields.get?, List.lookup_cons, Value.asText, Value.asWord,
    FunctionKind.ofName?_name, Value.asIntFrom_natural hstart, Value.asIntFrom_natural hend,
    Checked.within, Functor.map, Seq.seq, Checked.map, Checked.both]

/-- What a list of definitions and a list of notes have to do with a text. Lines count from 1; the
view holds the lines as parentheses are counted in them. -/
structure FoundIn (scanning : Scanning) (file content : String) (found : List FunctionDefinition)
    (notes : List Note) : Prop where
  /-- Every definition passes the check of its record. -/
  valid : ∀ f ∈ found, FunctionDefinition.check f.fields = .valid f
  file_eq : ∀ f ∈ found, f.file = file
  /-- Every definition has at least one line, and all its lines are lines of the text. -/
  lines_le : ∀ f ∈ found, 1 ≤ f.startLine ∧ f.startLine ≤ f.endLine ∧
    f.endLine ≤ (lines content.toList).length
  /-- A definition ends before the next one starts. -/
  apart : found.Pairwise fun f g => f.endLine < g.startLine
  /-- The content is made of the raw lines. -/
  content_eq : ∀ f ∈ found, f.content =
    String.ofList (unlines ((lines content.toList).extract (f.startLine - 1) f.endLine))
  /-- No line with a header is outside of the definitions. -/
  covers : ∀ i line, (scanning.view (lines content.toList))[i]? = some line →
    Nonempty (Header.Match line) → ∃ f ∈ found, f.startLine ≤ i + 1 ∧ i + 1 ≤ f.endLine
  /-- The first line of a definition has a header, and the leftmost one gives its kind and name. -/
  opens : ∀ f ∈ found, Nonempty (Opening (scanning.view (lines content.toList)) f)
  /-- Only the last definition may be left open, and then it goes on to the end of the text. -/
  closes : ∀ f ∈ found, ∀ o : Opening (scanning.view (lines content.toList)) f,
    o.Balanced ∨ found.getLast? = some f ∧ f.endLine = (lines content.toList).length
  /-- There is no warning when all definitions are closed. -/
  quiet : (∀ f ∈ found, ∀ o : Opening (scanning.view (lines content.toList)) f, o.Balanced) →
    notes.filter (·.severity = .warning) = []
  /-- A definition that is left open makes one warning, which tells of it. -/
  warns : ∀ f ∈ found, ∀ o : Opening (scanning.view (lines content.toList)) f, ¬o.Balanced →
    notes.filter (·.severity = .warning) =
      [.warning (unclosedNotice file ⟨⟨f.kind, f.name⟩, f.startLine, f.endLine, o.excess⟩)]

/-- A span is noted exactly when it is left open. -/
theorem unclosed?_spans_eq_some_iff {ls : List (List Char)} {span : Span} :
    unclosed? (spans ls) = some span ↔ span ∈ spans ls ∧ span.depth ≠ 0 := by
  rw [unclosed?, Option.filter_eq_some_iff]
  constructor
  · rintro ⟨hlast, hopen⟩
    exact ⟨List.mem_of_getLast? hlast, by simpa [Span.closed, isClosed] using hopen⟩
  · rintro ⟨hmem, hopen⟩
    exact ⟨getLast?_spans hmem hopen, by simpa [Span.closed, isClosed] using hopen⟩

/-- The only note that may be a warning is the one on a definition left open. -/
theorem filter_definitionNotes (scanning : Scanning) (file content : String) :
    (definitionNotes scanning file content).filter (·.severity = .warning) =
      ((unclosed? (scan scanning content)).map fun span =>
        Note.warning (unclosedNotice file span)).toList := by
  rw [definitionNotes, List.filter_append]
  cases unclosed? (scan scanning content) with
  | none => rfl
  | some span => rfl

/-- The definitions found in a text and the notes on them are as the text has them. -/
theorem definitions_foundIn (scanning : Scanning) (file content : String) :
    FoundIn scanning file content (definitions scanning file content)
      (definitionNotes scanning file content) := by
  let ls := lines content.toList
  have hlength : (scanning.view ls).length = ls.length := scanning.length_view ls
  refine ⟨?valid, ?file_eq, ?lines_le, ?apart, ?content_eq, ?covers, ?opens, ?closes, ?quiet,
    ?warns⟩
  case valid =>
    intro f hf
    obtain ⟨span, -, rfl, line, inside, h⟩ := exists_span_of_mem_definitions hf
    exact FunctionDefinition.check_fields h.first_pos (Nat.le_trans h.first_pos h.first_le_last)
  case file_eq =>
    intro f hf
    obtain ⟨span, -, rfl, -⟩ := exists_span_of_mem_definitions hf
    rfl
  case lines_le =>
    intro f hf
    obtain ⟨span, -, rfl, line, inside, h⟩ := exists_span_of_mem_definitions hf
    exact ⟨h.first_pos, h.first_le_last, hlength ▸ h.last_le_length⟩
  case apart =>
    exact List.pairwise_map.2 (pairwise_spansFrom 0 _)
  case content_eq =>
    intro f hf
    obtain ⟨span, -, rfl, line, inside, h⟩ := exists_span_of_mem_definitions hf
    have hcount : span.last + 1 - span.first = span.last - (span.first - 1) := by
      have hpos := h.first_pos
      omega
    simp only [Span.definition, sliceLines, List.extract_eq_take_drop, hcount]
  case covers =>
    intro i line hline hheader
    have hfind : Header.find? line ≠ none := by
      rw [ne_eq, Header.find?_eq_none_iff, not_isEmpty_iff]
      exact hheader
    obtain ⟨span, hmem, hfirst, hend⟩ := exists_span_of_header 0 hline hfind
    rw [Nat.zero_add] at hfirst hend
    exact ⟨span.definition file ls, List.mem_map_of_mem hmem, hfirst, hend⟩
  case opens =>
    exact fun f hf => nonempty_opening_of_mem_definitions hf
  case closes =>
    intro f hf o
    obtain ⟨span, hmem, rfl, line, inside, h⟩ := exists_span_of_mem_definitions hf
    rw [o.balanced_iff h]
    by_cases hopen : span.depth = 0
    · exact Or.inl hopen
    · refine Or.inr ⟨?_, hlength ▸ h.last_eq_length hopen⟩
      rw [definitions, List.getLast?_map, scan, getLast?_spans hmem hopen]
      rfl
  case quiet =>
    intro hall
    rw [filter_definitionNotes]
    cases hnoted : unclosed? (scan scanning content) with
    | none => rfl
    | some span =>
      -- a span that is noted has a definition, which is not closed
      obtain ⟨hmem, hopen⟩ := unclosed?_spans_eq_some_iff.1 hnoted
      obtain ⟨line, inside, h⟩ := within_of_mem_spansFrom List.drop_zero hmem
      obtain ⟨o⟩ : Nonempty (Opening _ (span.definition file ls)) := h.nonempty_opening file
      have hbalanced : o.Balanced := hall _ (List.mem_map_of_mem hmem) o
      exact absurd ((o.balanced_iff h).1 hbalanced) hopen
  case warns =>
    intro f hf o hunbalanced
    obtain ⟨span, hmem, rfl, line, inside, h⟩ := exists_span_of_mem_definitions hf
    have hopen : span.depth ≠ 0 := fun hzero => hunbalanced ((o.balanced_iff h).2 hzero)
    rw [filter_definitionNotes, scan, unclosed?_spans_eq_some_iff.2 ⟨hmem, hopen⟩,
      o.excess_eq_depth h]
    rfl

end ClarityDelta.Source
