import Mathlib.Data.List.Nodup
import ClarityDelta.Proofs.Change.Patch

/-!
# Changes over several revisions

In revisions that define no name twice a name stands for one content or for none, and the comparison
reports exactly the names whose content differs, `mem_names_compare_iff`. So it does not matter for the
names in which direction two revisions are compared, but for what is deleted being what is added in the
other direction, and no name that differs between the ends of a history goes unreported on the way,
`compare_composes`.
-/

namespace ClarityDelta.Change

open Source

variable {base head : List FunctionDefinition} {name : String}

/-- The content that a name has in a revision, if it is defined there. -/
def contentOf (functions : List FunctionDefinition) (name : String) : Option String :=
  (lookup name functions).map (·.content)

/-- The names reported with one type of change, in order. -/
def namesOf (type : ChangeType) (changes : List ChangedFunction) : List String :=
  (changes.filter (·.changeType = type)).map (·.name)

/-- The names with a type of change are those of the changes of that type. -/
theorem mem_namesOf_iff {type : ChangeType} {changes : List ChangedFunction} :
    name ∈ namesOf type changes ↔ ∃ r ∈ changes, r.changeType = type ∧ r.name = name := by
  simp [namesOf, and_assoc]

/-- Just the names that are not found have no content. -/
theorem contentOf_eq_none_iff {functions : List FunctionDefinition} :
    contentOf functions name = none ↔ lookup name functions = none :=
  Option.map_eq_none_iff

/-! ## Names in order -/

/-- The names of two lists of changes are put together as the lists are. -/
theorem namesOf_append (type : ChangeType) (changes more : List ChangedFunction) :
    namesOf type (changes ++ more) = namesOf type changes ++ namesOf type more := by
  rw [namesOf, List.filter_append, List.map_append]
  rfl

/-- Of reports that definitions make one by one, those of a type are made one by one too. -/
theorem namesOf_filterMap (type : ChangeType) (report : FunctionDefinition → Option ChangedFunction)
    (functions : List FunctionDefinition) :
    namesOf type (functions.filterMap report) =
      functions.filterMap fun f => ((report f).filter (·.changeType = type)).map (·.name) := by
  rw [namesOf, List.filter_filterMap, List.map_filterMap]

/-- Only definitions of the base revision are reported deleted. -/
theorem namesOf_deleted_compare (base head : List FunctionDefinition) :
    namesOf .deleted (compare base head) =
      base.filterMap fun f => if lookup f.name head = none then some f.name else none := by
  have hnew : namesOf .deleted (head.filterMap (ofHead? base)) = [] := by
    rw [namesOf_filterMap, List.filterMap_eq_nil_iff]
    intro g _
    rw [ofHead?]
    cases lookup g.name base <;> simp
  rw [compare, namesOf_append, hnew, List.append_nil, namesOf_filterMap]
  refine List.filterMap_congr fun f _ => ?_
  rw [ofBase?]
  cases lookup f.name head with
  | none => simp
  | some g => by_cases h : f.content = g.content <;> simp [h]

/-- Only definitions of the head revision are reported added. -/
theorem namesOf_added_compare (base head : List FunctionDefinition) :
    namesOf .added (compare base head) =
      head.filterMap fun g => if lookup g.name base = none then some g.name else none := by
  have hold : namesOf .added (base.filterMap (ofBase? head)) = [] := by
    rw [namesOf_filterMap, List.filterMap_eq_nil_iff]
    intro f _
    rw [ofBase?]
    cases lookup f.name head with
    | none => simp
    | some g => by_cases h : f.content = g.content <;> simp [h]
  rw [compare, namesOf_append, hold, List.nil_append, namesOf_filterMap]
  refine List.filterMap_congr fun g _ => ?_
  rw [ofHead?]
  cases lookup g.name base <;> simp

/-! ## Names and contents -/

/-- A definition of a revision that defines no name twice is what its name stands for. -/
theorem lookup_of_mem (hnames : (base.map (·.name)).Nodup) {f : FunctionDefinition} (h : f ∈ base) :
    lookup f.name base = some f := by
  obtain ⟨g, hg⟩ := Option.ne_none_iff_exists'.1 (lookup_ne_none h)
  rw [hg, List.inj_on_of_nodup_map hnames (mem_of_lookup hg) h (name_eq_of_lookup hg)]

/-- A name is reported exactly when its content differs. -/
theorem mem_names_compare_iff (hnames : (base.map (·.name)).Nodup) :
    name ∈ (compare base head).map (·.name) ↔ contentOf base name ≠ contentOf head name := by
  constructor
  · intro hmem
    obtain ⟨r, hr, rfl⟩ := List.mem_map.1 hmem
    obtain ⟨f, hf, hmade⟩ | ⟨g, hg, hmade⟩ := mem_compare_iff.1 hr
    · have hbase : contentOf base f.name = some f.content := by
        rw [contentOf, lookup_of_mem hnames hf]
        rfl
      rw [name_eq_of_ofBase? hmade, hbase, contentOf]
      obtain ⟨hnone, -⟩ | ⟨g, hsome, hdiffer, -⟩ := ofBase?_eq_some_iff.1 hmade
      · simp [hnone]
      · simpa [hsome] using hdiffer
    · obtain ⟨hnone, rfl⟩ := ofHead?_eq_some_iff.1 hmade
      rw [contentOf_eq_none_iff.2 hnone, ne_comm, Ne, contentOf_eq_none_iff]
      exact lookup_ne_none hg
  · intro hdiffer
    by_contra hmem
    refine hdiffer (content_eq_of_not_reported fun r hr hname => hmem ?_)
    exact List.mem_map.2 ⟨r, hr, hname⟩

/-- A name is reported modified exactly when it has two different contents. -/
theorem mem_namesOf_modified_iff (hnames : (base.map (·.name)).Nodup) :
    name ∈ namesOf .modified (compare base head) ↔
      contentOf base name ≠ none ∧ contentOf head name ≠ none ∧
        contentOf base name ≠ contentOf head name := by
  rw [← mem_names_compare_iff hnames, mem_namesOf_iff, List.mem_map, Ne, Ne, contentOf_eq_none_iff,
    contentOf_eq_none_iff]
  -- the type of a report is decided by which of the revisions have the name
  constructor
  · rintro ⟨r, hr, htype, rfl⟩
    rw [changeType_eq hr] at htype
    split_ifs at htype with hhead hbase
    exact ⟨hbase, hhead, r, hr, rfl⟩
  · rintro ⟨hbase, hhead, r, hr, rfl⟩
    refine ⟨r, hr, ?_, rfl⟩
    rw [changeType_eq hr, if_neg hhead, if_neg hbase]

/-! ## The law -/

/-- What is deleted is what is added in the other direction, in the same order, and the same names are
modified in both. A name that differs between the first and the last of three revisions differs in one
of the steps between them. -/
theorem compare_composes {a b c : List FunctionDefinition} (ha : (a.map (·.name)).Nodup)
    (hb : (b.map (·.name)).Nodup) :
    namesOf .deleted (compare a b) = namesOf .added (compare b a) ∧
      (∀ name, name ∈ namesOf .modified (compare a b) ↔ name ∈ namesOf .modified (compare b a)) ∧
        ∀ name ∈ (compare a c).map (·.name),
          name ∈ (compare a b).map (·.name) ∨ name ∈ (compare b c).map (·.name) := by
  refine ⟨?deleted, ?modified, ?reported⟩
  case deleted => rw [namesOf_deleted_compare, namesOf_added_compare]
  case modified =>
    intro name
    rw [mem_namesOf_modified_iff ha, mem_namesOf_modified_iff hb, ne_comm (a := contentOf b name)]
    tauto
  case reported =>
    intro name
    rw [mem_names_compare_iff ha, mem_names_compare_iff ha, mem_names_compare_iff hb]
    intro hdiffer
    by_contra hsame
    rw [not_or, not_not, not_not] at hsame
    exact hdiffer (hsame.1.trans hsame.2)

/-- A definition of one line. -/
def oneLiner (name content : String) (line : Nat) : FunctionDefinition :=
  ⟨name, .privateFunction, "m.clar", line, line, content⟩

/-- Three revisions: a function is renamed and its place changes, then it gets its old name back with
another text, and one that was changed is as it was. -/
theorem compare_composes_renamed :
    let a := [oneLiner "f" "(ok u1)" 1, oneLiner "g" "(ok u2)" 2]
    let b := [oneLiner "g" "(ok u3)" 1, oneLiner "h" "(ok u1)" 2]
    let c := [oneLiner "f" "(ok u4)" 1, oneLiner "g" "(ok u2)" 2]
    (a.map (·.name)).Nodup ∧ (b.map (·.name)).Nodup ∧
      namesOf .deleted (compare a b) = namesOf .added (compare b a) ∧
      (∀ name, name ∈ namesOf .modified (compare a b) ↔ name ∈ namesOf .modified (compare b a)) ∧
      (∀ name ∈ (compare a c).map (·.name),
        name ∈ (compare a b).map (·.name) ∨ name ∈ (compare b c).map (·.name)) ∧
      (compare a c).map (·.name) = ["f"] ∧ (compare a b).map (·.name) = ["f", "g", "h"] := by
  intro a b c
  have ha : (a.map (·.name)).Nodup := by decide
  have hb : (b.map (·.name)).Nodup := by decide
  obtain ⟨hdeleted, hmodified, hreported⟩ := compare_composes (c := c) ha hb
  exact ⟨ha, hb, hdeleted, hmodified, hreported, by decide, by decide⟩

end ClarityDelta.Change
