import ClarityDelta.Proofs.Change.Patch

/-!
# A text compared with itself

Two revisions with the same text have the same definitions, and yet changes may be reported: in the
head revision the first definition stands for a name, while every definition of the base revision is
compared with it. `compareRevisions_self` says what is reported: each definition whose content is
not that of the first definition of its name shows this first one as modified. So nothing is
reported exactly when all definitions of one name have the same content.
-/

namespace ClarityDelta.Change

open Source

/-- A definition redefines its name when the first definition of the name, which stands for it, has
another content. -/
def redefines (functions : List FunctionDefinition) (f : FunctionDefinition) : Bool :=
  (lookup f.name functions).any (·.content ≠ f.content)

/-- A function redefines a name when the first function of that name has another content. -/
theorem redefines_iff {functions : List FunctionDefinition} {f : FunctionDefinition} :
    redefines functions f = true ↔ ∃ g, lookup f.name functions = some g ∧ g.content ≠ f.content := by
  simp [redefines, Option.any_eq_true]

/-- A definition that redefines its name shows the first definition of the name as modified. -/
theorem ofBase?_of_redefines {functions : List FunctionDefinition} {f : FunctionDefinition}
    (h : redefines functions f = true) :
    ∃ r, ofBase? functions f = some r ∧
      ∃ g, lookup f.name functions = some g ∧ r = ⟨g, .modified⟩ := by
  obtain ⟨g, hg, hcontent⟩ := redefines_iff.1 h
  exact ⟨_, ofBase?_eq_some_iff.2 (Or.inr ⟨g, hg, hcontent.symm, rfl⟩), g, hg, rfl⟩

/-- Any other definition of the list is not reported. -/
theorem ofBase?_of_not_redefines {functions : List FunctionDefinition} {f : FunctionDefinition}
    (hf : f ∈ functions) (h : redefines functions f = false) : ofBase? functions f = none := by
  rw [Option.eq_none_iff_forall_ne_some]
  intro r hr
  obtain ⟨hnone, -⟩ | ⟨g, hg, hcontent, -⟩ := ofBase?_eq_some_iff.1 hr
  · exact lookup_ne_none hf hnone
  · rw [redefines_iff.2 ⟨g, hg, hcontent.symm⟩] at h
    exact Bool.noConfusion h

/-- Nothing is added to a list by itself. -/
theorem filterMap_ofHead?_self (functions : List FunctionDefinition) :
    functions.filterMap (ofHead? functions) = [] := by
  rw [List.filterMap_eq_nil_iff]
  intro g hg
  rw [Option.eq_none_iff_forall_ne_some]
  intro r hr
  exact lookup_ne_none hg (ofHead?_eq_some_iff.1 hr).1

/-- A partial function that has values on some items of a list only makes one result of each of
these. -/
theorem forall₂_filter_filterMap {α β : Type} {p : α → Option β} {keeps : α → Bool}
    {R : α → β → Prop} {l : List α} (hsome : ∀ a ∈ l, keeps a = true → ∃ b, p a = some b ∧ R a b)
    (hnone : ∀ a ∈ l, keeps a = false → p a = none) :
    List.Forall₂ R (l.filter keeps) (l.filterMap p) := by
  induction l with
  | nil => exact List.Forall₂.nil
  | cons a l ih =>
    have hrest := ih (fun a' ha' => hsome a' (List.mem_cons_of_mem a ha'))
      fun a' ha' => hnone a' (List.mem_cons_of_mem a ha')
    cases hkeeps : keeps a with
    | false =>
      rwa [List.filter_cons_of_neg (Bool.eq_false_iff.1 hkeeps),
        List.filterMap_cons_none (hnone a List.mem_cons_self hkeeps)]
    | true =>
      obtain ⟨b, hb, hrel⟩ := hsome a List.mem_cons_self hkeeps
      rw [List.filter_cons_of_pos hkeeps, List.filterMap_cons_some hb]
      exact List.Forall₂.cons hrel hrest

/-- Compared with itself, a list of definitions gives one report for each definition that redefines
its name: the first definition of the name, as modified. -/
theorem forall₂_compare_self (functions : List FunctionDefinition) :
    List.Forall₂ (fun f r => ∃ g, lookup f.name functions = some g ∧ r = ⟨g, .modified⟩)
      (functions.filter (redefines functions)) (compare functions functions) := by
  rw [compare, filterMap_ofHead?_self, List.append_nil]
  exact forall₂_filter_filterMap (fun f _ => ofBase?_of_redefines)
    fun f hf => ofBase?_of_not_redefines hf

/-- No definition redefines its name exactly when all definitions of one name have one content. -/
theorem filter_redefines_eq_nil_iff {functions : List FunctionDefinition} :
    functions.filter (redefines functions) = [] ↔
      ∀ f ∈ functions, ∀ g ∈ functions, f.name = g.name → f.content = g.content := by
  rw [List.filter_eq_nil_iff]
  constructor
  · -- both contents are that of the first definition of the name
    intro h
    have hfirst : ∀ f ∈ functions, ∀ g, lookup f.name functions = some g →
        g.content = f.content := by
      intro f hf g hg
      by_contra hcontent
      exact h f hf (redefines_iff.2 ⟨g, hg, hcontent⟩)
    intro f hf g hg hname
    obtain ⟨first, hlookup⟩ := Option.ne_none_iff_exists'.1 (lookup_ne_none hf)
    exact (hfirst f hf first hlookup).symm.trans (hfirst g hg first (hname ▸ hlookup))
  · intro h f hf hredefines
    obtain ⟨g, hg, hcontent⟩ := redefines_iff.1 hredefines
    exact hcontent (h g (mem_of_lookup hg) f hf (name_eq_of_lookup hg))

/-- An empty text has no definitions. -/
theorem definitions_empty (scanning : Scanning) (file : String) :
    definitions scanning file "" = [] := by
  have hview : scanning.view (Text.lines "".toList) = [[]] := by cases scanning <;> rfl
  rw [definitions, scan, hview]
  simp [spans, spansFrom, Header.find?]

/-- The definitions of a revision with a text are those of the text, also when it is empty. -/
theorem revisionDefinitions_some (scanning : Scanning) (file text : String) :
    revisionDefinitions scanning file (some text) = definitions scanning file text := by
  rw [revisionDefinitions]
  split
  · next hempty => rw [String.isEmpty_iff.1 hempty, definitions_empty]
  · rfl

/-- A text compared with itself gives one report for each definition that redefines its name: the
first definition of the name, as modified. So there is no report exactly when all definitions of one
name have the same content. -/
theorem compareRevisions_self (scanning : Scanning) (file text : String) :
    List.Forall₂
        (fun f r => ∃ g, lookup f.name (definitions scanning file text) = some g ∧
          r = ⟨g, .modified⟩)
        ((definitions scanning file text).filter (redefines (definitions scanning file text)))
        (compareRevisions scanning file (some text) (some text)) ∧
      (compareRevisions scanning file (some text) (some text) = [] ↔
        ∀ f ∈ definitions scanning file text, ∀ g ∈ definitions scanning file text,
          f.name = g.name → f.content = g.content) := by
  rw [compareRevisions, revisionDefinitions_some]
  have hreports := forall₂_compare_self (definitions scanning file text)
  refine ⟨hreports, ?_⟩
  rw [← filter_redefines_eq_nil_iff, ← List.length_eq_zero_iff, ← hreports.length_eq,
    List.length_eq_zero_iff]

/-- A contract that defines a function twice, with different bodies. -/
def definedTwice : String := "(define-private (f) (ok u1))\n(define-private (f) (ok u2))"

/-- A text with two different definitions of one name is reported as changed against itself: the
first definition is shown as modified. -/
theorem compareRevisions_self_definedTwice :
    compareRevisions .raw "m.clar" (some definedTwice) (some definedTwice) =
      [⟨⟨"f", .privateFunction, "m.clar", 1, 1, "(define-private (f) (ok u1))"⟩, .modified⟩] := by
  decide +kernel

end ClarityDelta.Change
