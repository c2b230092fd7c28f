import Mathlib.Data.List.Nodup
import ClarityDelta.Proofs.Change.SameText
import ClarityDelta.Proofs.Source.Weave

/-!
# Edits of a text

An edit puts other lines before, between and behind the definitions of a text, and may give one of
them another body. What is found in the new text is known definition by definition, however far each
one has moved.

When no name is defined twice, the comparison of the old text with the new one therefore looks at each
definition and its own new lines only. `compareRevisions_edit` says that nothing is reported when the
bodies have stayed, and that a new body is reported as one modification, at its place in the new text.
-/

namespace ClarityDelta.Change

open Source Text

/-! ## Comparing definitions with what stands in their places -/

section

variable {weave : Weave} {fs : List FunctionDefinition}

/-- The number of lines before the body of a definition, behind a number of other lines. -/
def placeOf (weave : Weave) (before : Nat) (f : FunctionDefinition)
    (fs : List FunctionDefinition) : Nat :=
  before + (weave.lines (fs.takeWhile (· ≠ f))).length

/-- What stands in the place of a definition is found by the definition's name. -/
theorem lookup_definitions (hnames : (fs.map (·.name)).Nodup)
    (hheader : ∀ f ∈ fs, (weave.header f).name = f.name) (file : String) (before : Nat)
    {f : FunctionDefinition} (hf : f ∈ fs) :
    lookup f.name (weave.definitions file before fs) =
      some (formDefinition file (weave.header f) (placeOf weave before f fs) (weave.body f)) := by
  induction fs generalizing before with
  | nil => exact absurd hf List.not_mem_nil
  | cons g fs ih =>
    have hname := hheader g List.mem_cons_self
    rw [List.map_cons, List.nodup_cons] at hnames
    rcases List.mem_cons.1 hf with rfl | hrest
    · have hplace : placeOf weave before f (f :: fs) = before := by
        simp [placeOf, Weave.lines]
      rw [Weave.definitions, lookup, hplace]
      exact List.find?_cons_of_pos (by simpa [formDefinition] using hname)
    · have hne : g.name ≠ f.name := by
        intro heq
        exact hnames.1 (heq ▸ List.mem_map_of_mem hrest)
      have hgf : g ≠ f := fun heq => hne (congrArg FunctionDefinition.name heq)
      have hplace : placeOf weave before f (g :: fs) =
          placeOf weave (before + (weave.body g).length + (weave.behind g).length) f fs := by
        simp only [placeOf, Weave.lines, List.takeWhile_cons, hgf, ne_eq, not_false_eq_true,
          decide_true, if_true, List.flatMap_cons, List.length_append]
        omega
      have hskip : (formDefinition file (weave.header g) before (weave.body g)).name ≠ f.name := by
        intro heq
        exact hne (hname.symm.trans heq)
      rw [Weave.definitions, lookup, hplace]
      refine (List.find?_cons_of_neg (by simpa using hskip)).trans ?_
      exact ih hnames.2 (fun f hf => hheader f (List.mem_cons_of_mem g hf)) _ hrest

/-- What stands in the places of definitions has their names. -/
theorem exists_name_eq_of_mem_definitions (hheader : ∀ f ∈ fs, (weave.header f).name = f.name)
    {file : String} {before : Nat} {g : FunctionDefinition}
    (hg : g ∈ weave.definitions file before fs) : ∃ f ∈ fs, f.name = g.name := by
  induction fs generalizing before with
  | nil => exact absurd hg List.not_mem_nil
  | cons f fs ih =>
    rw [Weave.definitions] at hg
    rcases List.mem_cons.1 hg with rfl | hg
    · exact ⟨f, List.mem_cons_self, (hheader f List.mem_cons_self).symm⟩
    · obtain ⟨f', hf', hname⟩ := ih (fun f' hf' => hheader f' (List.mem_cons_of_mem f hf')) hg
      exact ⟨f', List.mem_cons_of_mem f hf', hname⟩

/-- Definitions with distinct names are compared one by one with what stands in their places. -/
theorem compare_definitions (hnames : (fs.map (·.name)).Nodup)
    (hheader : ∀ f ∈ fs, (weave.header f).name = f.name) (file : String) (before : Nat) :
    compare fs (weave.definitions file before fs) = fs.filterMap fun f =>
      if f.content = String.ofList (unlines (weave.body f)) then none
      else some ⟨formDefinition file (weave.header f) (placeOf weave before f fs) (weave.body f),
        .modified⟩ := by
  have hnew : (weave.definitions file before fs).filterMap (ofHead? fs) = [] := by
    rw [List.filterMap_eq_nil_iff]
    intro g hg
    rw [Option.eq_none_iff_forall_ne_some]
    intro r hr
    obtain ⟨f, hf, hname⟩ := exists_name_eq_of_mem_definitions hheader hg
    have hnone := (ofHead?_eq_some_iff.1 hr).1
    exact lookup_ne_none hf (hname ▸ hnone)
  rw [compare, hnew, List.append_nil]
  refine List.filterMap_congr ?_
  intro f hf
  rw [ofBase?, lookup_definitions hnames hheader file before hf]
  rfl

end

/-! ## Edits -/

/-- Other lines around the definitions of a text: some in front of the first one, and some behind
each. Nothing comes behind a definition that is not balanced, which goes on to the end of its text. -/
structure Edit (file content : String) where
  front : List (List Char)
  behind : FunctionDefinition → List (List Char)
  front_plain : ∀ l ∈ front, Plain l
  behind_plain : ∀ f ∈ definitions .raw file content, ∀ l ∈ behind f, Plain l
  behind_open : ∀ f ∈ definitions .raw file content,
    ∀ o : Opening (lines content.toList) f, ¬o.Balanced → behind f = []

namespace Edit

variable {file content : String}

/-- Each definition stands in its own place, with its own lines. -/
def weave (edit : Edit file content) : Weave where
  header f := ⟨f.kind, f.name⟩
  body := ownLines content
  behind := edit.behind

/-- The text with the other lines. -/
def text (edit : Edit file content) : String :=
  String.ofList (unlines (edit.front ++ edit.weave.lines (definitions .raw file content)))

/-- An edited text is woven of the definitions of the old one as a text has to be. -/
theorem sound (edit : Edit file content) :
    edit.weave.Sound (definitions .raw file content) where
  isForm f hf := by
    obtain ⟨depth, hform, hbalanced⟩ := exists_isForm_of_mem_definitions hf
    refine ⟨depth, hform, ?_⟩
    by_cases hzero : depth = 0
    · exact Or.inl hzero
    · obtain ⟨o⟩ := nonempty_opening_of_mem_definitions hf
      have hopen : ¬o.Balanced := fun h => hzero ((hbalanced o).1 h)
      exact Or.inr (edit.behind_open f hf o hopen)
  closed := pairwise_isForm_definitions file content
  name_eq f hf := rfl
  no_newline f hf l hl := newline_not_mem_of_mem_ownLines hl
  plain := edit.behind_plain

/-- The edit that leaves every line. -/
def own (file content : String) : Edit file content where
  front := (lines content.toList).takeWhile lacksHeader
  behind f := ((lines content.toList).drop f.endLine).takeWhile lacksHeader
  front_plain _ hl := plain_of_mem_takeWhile (List.Subset.refl _) hl
  behind_plain f _ _ hl := plain_of_mem_takeWhile (List.drop_subset f.endLine _) hl
  behind_open f hf o hopen := by
    obtain ⟨span, -, rfl, line, inside, h⟩ := exists_span_of_mem_definitions hf
    have hlast : span.last = (lines content.toList).length :=
      h.last_eq_length fun hzero => hopen ((o.balanced_iff h).2 hzero)
    have hnone : (lines content.toList).drop span.last = [] := by
      rw [hlast, List.drop_length]
    show ((lines content.toList).drop span.last).takeWhile lacksHeader = []
    rw [hnone, List.takeWhile_nil]

/-- A text is made of its definitions and of its own lines around them. -/
theorem text_own (file content : String) : (own file content).text = content := by
  have hlines : lines content.toList =
      (own file content).front ++ (own file content).weave.lines (definitions .raw file content) := by
    rw [Weave.lines, definitions, List.flatMap_map]
    exact eq_append_flatMap_spansFrom List.drop_zero
  have hjoin : unlines (lines content.toList) = content.toList := joinWith_splitAt '\n' _
  rw [text, ← hlines, hjoin, String.ofList_toList]

end Edit

/-- An item of a list comes behind those before its first occurrence. -/
theorem exists_eq_takeWhile_append {α : Type} [DecidableEq α] {l : List α} {a : α} (h : a ∈ l) :
    ∃ rest, l = l.takeWhile (· ≠ a) ++ a :: rest := by
  have hne : l.dropWhile (· ≠ a) ≠ [] := by
    rw [ne_eq, List.dropWhile_eq_nil_iff]
    intro hall
    simpa using hall a h
  obtain ⟨b, rest, hdrop⟩ := List.exists_cons_of_ne_nil hne
  have hnot := List.head?_dropWhile_not (· ≠ a) l
  rw [hdrop] at hnot
  have heq : b = a := by simpa using hnot
  refine ⟨rest, ?_⟩
  rw [← heq, ← hdrop, heq, List.takeWhile_append_dropWhile]

/-- A new body for one of the definitions: a block with its name and with other text. -/
structure Replacement {file content : String} (edit : Edit file content) where
  old : FunctionDefinition
  mem : old ∈ definitions .raw file content
  block : Block
  name_eq : block.place.header.name = old.name
  content_ne : String.ofList (unlines block.lines) ≠ old.content

namespace Replacement

variable {file content : String} {edit : Edit file content}

/-- The block stands in the place of the definition, and all others in their own. -/
def weave (r : Replacement edit) : Weave :=
  edit.weave.replace r.old r.block.place.header r.block.lines

/-- The text with the other lines and the new body. -/
def text (r : Replacement edit) : String :=
  String.ofList (unlines (edit.front ++ r.weave.lines (definitions .raw file content)))

/-- The lines of the new text before the new body. -/
def linesBefore (r : Replacement edit) : List (List Char) :=
  edit.front ++ r.weave.lines ((definitions .raw file content).takeWhile (· ≠ r.old))

/-- A text in which one definition is replaced is woven soundly as well. -/
theorem sound (r : Replacement edit) : r.weave.Sound (definitions .raw file content) :=
  edit.sound.replace r.block.isForm r.name_eq r.block.no_newline

/-- The replaced definition has the header of the new block. -/
theorem weave_header_old (r : Replacement edit) :
    r.weave.header r.old = r.block.place.header :=
  if_pos rfl

/-- The replaced definition has the lines of the new block. -/
theorem weave_body_old (r : Replacement edit) : r.weave.body r.old = r.block.lines :=
  if_pos rfl

/-- All other definitions keep their lines. -/
theorem weave_body_of_ne (r : Replacement edit) {f : FunctionDefinition} (h : f ≠ r.old) :
    r.weave.body f = edit.weave.body f :=
  if_neg h

/-- In the new text the block stands behind the lines before it. -/
theorem exists_lines_text_eq (r : Replacement edit) :
    ∃ after, lines r.text.toList = r.linesBefore ++ r.block.lines ++ after := by
  obtain ⟨rest, hsplit⟩ := exists_eq_takeWhile_append r.mem
  have hall : edit.front ++ r.weave.lines (definitions .raw file content) =
      r.linesBefore ++ r.block.lines ++ (r.weave.behind r.old ++ r.weave.lines rest) := by
    rw [linesBefore, ← r.weave_body_old]
    conv_lhs => rw [hsplit]
    simp only [Weave.lines, List.flatMap_append, List.flatMap_cons, List.append_assoc]
  have hne : edit.front ++ r.weave.lines (definitions .raw file content) ≠ [] := by
    have hblock : r.block.lines ≠ [] := List.cons_ne_nil _ _
    simp [hall, hblock]
  refine ⟨_, Eq.trans ?_ hall⟩
  rw [text, String.toList_ofList]
  refine lines_unlines hne ?_
  intro l hl
  rcases List.mem_append.1 hl with hl | hl
  · exact (edit.front_plain l hl).no_newline
  · exact r.sound.newline_not_mem_of_mem_lines hl

end Replacement

/-- A partial function that has a value on one item of a list only makes the list of this value. -/
theorem filterMap_eq_singleton {α β : Type} {p : α → Option β} {l : List α} {a : α} {b : β}
    (hl : l.Nodup) (ha : a ∈ l) (hsome : p a = some b) (hnone : ∀ a' ∈ l, a' ≠ a → p a' = none) :
    l.filterMap p = [b] := by
  obtain ⟨front, behind, rfl⟩ := List.append_of_mem ha
  have hnodup := (List.nodup_middle.1 hl)
  rw [List.nodup_cons, List.mem_append, not_or] at hnodup
  have hfront : front.filterMap p = [] := by
    rw [List.filterMap_eq_nil_iff]
    intro a' ha'
    exact hnone a' (List.mem_append_left _ ha') fun heq => hnodup.1.1 (heq ▸ ha')
  have hbehind : behind.filterMap p = [] := by
    rw [List.filterMap_eq_nil_iff]
    intro a' ha'
    exact hnone a' (List.mem_append_right _ (List.mem_cons_of_mem a ha')) fun heq =>
      hnodup.1.2 (heq ▸ ha')
  rw [List.filterMap_append, List.filterMap_cons_some hsome, hfront, hbehind, List.nil_append]

/-- When no name is defined twice, edits are reported locally. Other lines around the definitions
change nothing, and a new body is reported as the one modification, with its text and its place in
the new text. -/
theorem compareRevisions_edit {file content : String}
    (hnames : ((definitions .raw file content).map (·.name)).Nodup) (edit : Edit file content) :
    compareRevisions .raw file (some content) (some edit.text) = [] ∧
      ∀ r : Replacement edit,
        (∃ after, lines r.text.toList = r.linesBefore ++ r.block.lines ++ after) ∧
          compareRevisions .raw file (some content) (some r.text) =
            [⟨r.block.definition file r.linesBefore.length, .modified⟩] := by
  have hsame : ∀ f ∈ definitions .raw file content,
      f.content = String.ofList (unlines (edit.weave.body f)) := fun f hf => content_eq_ownLines hf
  constructor
  · rw [compareRevisions, revisionDefinitions_some, revisionDefinitions_some, Edit.text,
      edit.sound.definitions_eq edit.front_plain, compare_definitions hnames edit.sound.name_eq,
      List.filterMap_eq_nil_iff]
    intro f hf
    exact if_pos (hsame f hf)
  · intro r
    refine ⟨r.exists_lines_text_eq, ?_⟩
    rw [compareRevisions, revisionDefinitions_some, revisionDefinitions_some, Replacement.text,
      r.sound.definitions_eq edit.front_plain, compare_definitions hnames r.sound.name_eq]
    refine filterMap_eq_singleton (hnames.of_map _) r.mem ?_ ?_
    · have hplace : placeOf r.weave edit.front.length r.old (definitions .raw file content) =
          r.linesBefore.length := List.length_append.symm
      rw [r.weave_header_old, r.weave_body_old, hplace]
      exact if_neg r.content_ne.symm
    · intro f hf hne
      rw [r.weave_body_of_ne hne]
      exact if_pos (hsame f hf)

/-! ## An edit -/

/-- A contract with two functions. -/
def twoFunctions : String := "(define-public (f) (ok u0))\n\n(define-read-only (h) u1)"

/-- A comment in front of both, and other lines behind each. -/
def moved : Edit "m.clar" twoFunctions where
  front := [";; (f)".toList]
  behind _ := ["(define-constant k u1".toList, ")".toList]
  front_plain := by
    intro l hl
    obtain rfl := List.mem_singleton.1 hl
    exact ⟨Header.find?_eq_none_iff.1 (by decide), by decide⟩
  behind_plain := by
    intro f hf l hl
    have hboth : ∀ l ∈ ["(define-constant k u1".toList, ")".toList],
        Header.find? l = none ∧ '\n' ∉ l := by decide
    exact ⟨Header.find?_eq_none_iff.1 (hboth l hl).1, (hboth l hl).2⟩
  behind_open := by
    intro f hf o hopen
    obtain ⟨span, hspan, rfl, line, inside, h⟩ := exists_span_of_mem_definitions hf
    have hclosed : ∀ span ∈ scan .raw twoFunctions, span.depth = 0 := by decide +kernel
    exact absurd ((o.balanced_iff h).2 (hclosed span hspan)) hopen

/-- A new body for the first function, over several lines. -/
def rewritten : Replacement moved where
  old := ⟨"f", .publicFunction, "m.clar", 1, 1, "(define-public (f) (ok u0))"⟩
  mem := by decide +kernel
  block := nested
  name_eq := by decide +kernel
  content_ne := by decide +kernel

/-- A text whose definitions are only moved shows no change, and one where `f` is rewritten shows just
that, at its new lines. -/
theorem compareRevisions_edit_moved :
    compareRevisions .raw "m.clar" (some twoFunctions) (some moved.text) = [] ∧
      compareRevisions .raw "m.clar" (some twoFunctions) (some rewritten.text) =
        [⟨⟨"f", .publicFunction, "m.clar", 2, 4, String.ofList (unlines nested.lines)⟩,
          .modified⟩] := by
  obtain ⟨hsame, hnew⟩ := compareRevisions_edit (by decide +kernel) moved
  exact ⟨hsame, (hnew rewritten).2.trans (by decide +kernel)⟩

end ClarityDelta.Change
