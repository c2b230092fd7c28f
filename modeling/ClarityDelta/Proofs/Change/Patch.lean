import Mathlib.Data.List.Find
import Mathlib.Data.List.Forall2
import ClarityDelta.Change.Compare

/-!
# Changes as a patch

The changes between two revisions turn the first into the second as far as names and contents go: a
name that is reported has the content of its first report, or none when it is reported deleted, and
any other name keeps its content. `compare_patches` says this of `compare`, and in which order and
with which fields the reports come. Only the first definition of a name counts in a revision, but a
name that a revision has several times may be reported several times.
-/

namespace ClarityDelta.Change

open Source

/-! ## Looking a name up -/

/-- A name is not found when no definition has it. -/
theorem lookup_eq_none_iff {name : String} {functions : List FunctionDefinition} :
    lookup name functions = none ↔ ∀ f ∈ functions, f.name ≠ name := by
  simp [lookup, List.find?_eq_none]

/-- A function that is found by its name has that name. -/
theorem name_eq_of_lookup {name : String} {functions : List FunctionDefinition}
    {f : FunctionDefinition} (h : lookup name functions = some f) : f.name = name := by
  simpa using List.find?_some h

/-- A function that is found is one of those that were searched. -/
theorem mem_of_lookup {name : String} {functions : List FunctionDefinition}
    {f : FunctionDefinition} (h : lookup name functions = some f) : f ∈ functions :=
  List.mem_of_find?_eq_some h

/-- The name of a definition in the list is found. -/
theorem lookup_ne_none {functions : List FunctionDefinition} {f : FunctionDefinition}
    (h : f ∈ functions) : lookup f.name functions ≠ none :=
  fun hnone => lookup_eq_none_iff.1 hnone f h rfl

/-! ## Single reports -/

/-- A function of the base is reported as deleted when its name is missing in the head, and as modified,
in the new form, when the first one of its name there has another content. -/
theorem ofBase?_eq_some_iff {head : List FunctionDefinition} {f : FunctionDefinition}
    {r : ChangedFunction} :
    ofBase? head f = some r ↔
      lookup f.name head = none ∧ r = ⟨f, .deleted⟩ ∨
        ∃ g, lookup f.name head = some g ∧ f.content ≠ g.content ∧ r = ⟨g, .modified⟩ := by
  rw [ofBase?]
  cases lookup f.name head with
  | none => simp [eq_comm]
  | some g =>
    by_cases h : f.content = g.content
    · simp [h]
    · simp [h, eq_comm]

/-- A function of the head is reported as added just when its name is missing in the base. -/
theorem ofHead?_eq_some_iff {base : List FunctionDefinition} {g : FunctionDefinition}
    {r : ChangedFunction} :
    ofHead? base g = some r ↔ lookup g.name base = none ∧ r = ⟨g, .added⟩ := by
  rw [ofHead?]
  cases lookup g.name base with
  | none => simp [eq_comm]
  | some f => simp

/-- A report comes from a definition of the base revision or from an addition. -/
theorem mem_compare_iff {base head : List FunctionDefinition} {r : ChangedFunction} :
    r ∈ compare base head ↔
      (∃ f ∈ base, ofBase? head f = some r) ∨ ∃ g ∈ head, ofHead? base g = some r := by
  rw [compare, List.mem_append, List.mem_filterMap, List.mem_filterMap]

/-- What a definition of the base revision makes has its name. -/
theorem name_eq_of_ofBase? {head : List FunctionDefinition} {f : FunctionDefinition}
    {r : ChangedFunction} (h : ofBase? head f = some r) : r.name = f.name := by
  obtain ⟨-, rfl⟩ | ⟨g, hg, -, rfl⟩ := ofBase?_eq_some_iff.1 h
  · rfl
  · exact name_eq_of_lookup hg

/-- Which revisions have the name decides what kind of report it gets. -/
theorem changeType_eq {base head : List FunctionDefinition} {r : ChangedFunction}
    (h : r ∈ compare base head) :
    r.changeType =
      if lookup r.name head = none then .deleted
      else if lookup r.name base = none then .added else .modified := by
  obtain ⟨f, hf, h⟩ | ⟨g, hg, h⟩ := mem_compare_iff.1 h
  · have hbase := lookup_ne_none hf
    obtain ⟨hnone, rfl⟩ | ⟨g, hsome, -, rfl⟩ := ofBase?_eq_some_iff.1 h
    · rw [if_pos hnone]
    · have hname : g.name = f.name := name_eq_of_lookup hsome
      rw [← hname] at hsome hbase
      rw [if_neg (by rw [hsome]; exact Option.some_ne_none g), if_neg hbase]
  · obtain ⟨hnone, rfl⟩ := ofHead?_eq_some_iff.1 h
    rw [if_neg (lookup_ne_none hg), if_pos hnone]

/-- A name that is reported deleted is not in the head revision. -/
theorem lookup_eq_none_of_deleted {base head : List FunctionDefinition} {r : ChangedFunction}
    (h : r ∈ compare base head) (hgone : r.changeType = .deleted) : lookup r.name head = none := by
  by_contra hsome
  rw [changeType_eq h, if_neg hsome] at hgone
  split at hgone <;> simp at hgone

/-- All reports of a name are of one type. -/
theorem changeType_eq_of_name_eq {base head : List FunctionDefinition} {r r' : ChangedFunction}
    (h : r ∈ compare base head) (h' : r' ∈ compare base head) (hname : r.name = r'.name) :
    r.changeType = r'.changeType := by
  rw [changeType_eq h, changeType_eq h', hname]

/-- The first report that does not delete a name is the first report of the name. -/
theorem find?_name_of_find?_kept {base head : List FunctionDefinition} {name : String}
    {r : ChangedFunction}
    (h : (compare base head).find? (fun r => r.name == name && r.changeType != .deleted) = some r) :
    (compare base head).find? (·.name == name) = some r ∧ r.changeType ≠ .deleted := by
  have hmem := List.mem_of_find?_eq_some h
  obtain ⟨hname, hkept⟩ : r.name = name ∧ r.changeType ≠ .deleted := by
    simpa using List.find?_some h
  -- all reports of the name are of the type of this one, so the type need not be asked
  have hall : ∀ r' ∈ compare base head,
      (r'.name == name && r'.changeType != .deleted) = (r'.name == name) := by
    intro r' hr'
    by_cases hname' : r'.name = name
    · have hkept' : r'.changeType ≠ .deleted :=
        changeType_eq_of_name_eq hmem hr' (hname.trans hname'.symm) ▸ hkept
      simp [hname', hkept']
    · simp [hname']
  rw [List.find?_congr hall] at h
  exact ⟨h, hkept⟩

/-- A name that the base revision lacks is first reported with its first definition of the head
revision. -/
theorem find?_filterMap_ofHead? {base : List FunctionDefinition} {name : String}
    (hbase : lookup name base = none) (head : List FunctionDefinition) :
    (head.filterMap (ofHead? base)).find? (·.name == name) =
      (lookup name head).map (⟨·, .added⟩) := by
  induction head with
  | nil => rfl
  | cons g head ih =>
    by_cases hname : g.name = name
    · have hnew : ofHead? base g = some ⟨g, .added⟩ :=
        ofHead?_eq_some_iff.2 ⟨hname ▸ hbase, rfl⟩
      rw [List.filterMap_cons_some hnew, List.find?_cons_of_pos (by simpa using hname), lookup,
        List.find?_cons_of_pos (by simpa using hname)]
      rfl
    · have hlookup : lookup name (g :: head) = lookup name head :=
        List.find?_cons_of_neg (by simpa using hname)
      rw [hlookup, ← ih]
      cases hnew : ofHead? base g with
      | none => rw [List.filterMap_cons_none hnew]
      | some r =>
        obtain ⟨-, rfl⟩ := ofHead?_eq_some_iff.1 hnew
        rw [List.filterMap_cons_some hnew, List.find?_cons_of_neg (by simpa using hname)]

/-- The first report of a name that is not gone has the content of the name's first definition in
the head revision. -/
theorem content_of_find?_compare {base head : List FunctionDefinition} {name : String}
    {r : ChangedFunction} (h : (compare base head).find? (·.name == name) = some r)
    (hkept : r.changeType ≠ .deleted) :
    (lookup name head).map (·.content) = some r.content := by
  rw [compare, List.find?_append] at h
  cases hold : (base.filterMap (ofBase? head)).find? (·.name == name) with
  | some r' =>
    -- a modification, which is shown as the first definition of the head revision
    rw [hold, Option.some_or, Option.some.injEq] at h
    subst h
    obtain ⟨f, hf, hmade⟩ := List.mem_filterMap.1 (List.mem_of_find?_eq_some hold)
    have hname : r'.name = name := by simpa using List.find?_some hold
    obtain ⟨-, rfl⟩ | ⟨g, hg, -, rfl⟩ := ofBase?_eq_some_iff.1 hmade
    · exact absurd rfl hkept
    · have hfirst : g.name = name := hname
      rw [← name_eq_of_lookup hg, hfirst] at hg
      rw [hg]
      rfl
  | none =>
    -- an addition, and the first one of its name comes from the name's first definition
    rw [hold, Option.none_or] at h
    obtain ⟨g, hg, hmade⟩ := List.mem_filterMap.1 (List.mem_of_find?_eq_some h)
    obtain ⟨hnone, rfl⟩ := ofHead?_eq_some_iff.1 hmade
    have hname : g.name = name := by simpa using List.find?_some h
    rw [find?_filterMap_ofHead? (hname ▸ hnone)] at h
    cases hlookup : lookup name head with
    | none =>
      rw [hlookup] at h
      exact absurd h (Option.some_ne_none _).symm
    | some g' =>
      rw [hlookup, Option.map_some, Option.some.injEq] at h
      rw [← h]
      rfl

/-- A name that is not reported has the same content in both revisions, or is in neither. -/
theorem content_eq_of_not_reported {base head : List FunctionDefinition} {name : String}
    (h : ∀ r ∈ compare base head, r.name ≠ name) :
    (lookup name base).map (·.content) = (lookup name head).map (·.content) := by
  cases hbase : lookup name base with
  | none =>
    cases hhead : lookup name head with
    | none => rfl
    | some g =>
      have hname := name_eq_of_lookup hhead
      have hnew : ofHead? base g = some ⟨g, .added⟩ := ofHead?_eq_some_iff.2 ⟨hname ▸ hbase, rfl⟩
      exact absurd hname (h _ (mem_compare_iff.2 (Or.inr ⟨g, mem_of_lookup hhead, hnew⟩)))
  | some f =>
    have hname := name_eq_of_lookup hbase
    have hquiet : ofBase? head f = none := by
      rw [Option.eq_none_iff_forall_ne_some]
      intro r hmade
      refine h r (mem_compare_iff.2 (Or.inl ⟨f, mem_of_lookup hbase, hmade⟩)) ?_
      rw [name_eq_of_ofBase? hmade, hname]
    rw [ofBase?, hname] at hquiet
    cases hhead : lookup name head with
    | none => simp [hhead] at hquiet
    | some g =>
      have hcontent : f.content = g.content := by simpa [hhead] using hquiet
      rw [Option.map_some, Option.map_some, hcontent]

/-! ## The law -/

/-- The content that a name has after changes to a revision: that of its first report, none when it
is reported deleted, and what it had when it is not reported. -/
def patched (base : List FunctionDefinition) (changes : List ChangedFunction) (name : String) :
    Option String :=
  match changes.find? (·.name == name) with
  | some r => if r.changeType = .deleted then none else some r.content
  | none => (lookup name base).map (·.content)

/-- What a list of changes has to do with the revisions that it leads from and to. -/
structure Patches (base head : List FunctionDefinition) (changes : List ChangedFunction) :
    Prop where
  /-- A name that is reported deleted is not in the head revision. -/
  deleted : ∀ r ∈ changes, r.changeType = .deleted → ∀ g ∈ head, g.name ≠ r.name
  /-- The first report that does not delete a name has the content of its first definition in the
  head revision. -/
  content : ∀ name r,
    changes.find? (fun r => r.name == name && r.changeType != .deleted) = some r →
    (lookup name head).map (·.content) = some r.content
  /-- A name that is not reported is in neither revision or has the same content in both. -/
  unreported : ∀ name, (∀ r ∈ changes, r.name ≠ name) →
    (lookup name base).map (·.content) = (lookup name head).map (·.content)
  /-- Patching the base revision gives the head revision. -/
  patched_eq : ∀ name, patched base changes name = (lookup name head).map (·.content)
  /-- All reports of a name are of one type. -/
  changeType_eq : ∀ r ∈ changes, ∀ r' ∈ changes, r.name = r'.name → r.changeType = r'.changeType
  /-- Deleted and modified names come first and in the order of the base revision, added ones after
  them and in the order of the head revision. A deleted definition is shown as in the base revision,
  any other as in the head revision. -/
  order : ∃ old new, changes = old ++ new ∧
    (∃ kept, kept.Sublist base ∧ List.Forall₂ (fun f r =>
      r = ⟨f, .deleted⟩ ∨ ∃ g ∈ head, g.name = f.name ∧ r = ⟨g, .modified⟩) kept old) ∧
    ∃ kept, kept.Sublist head ∧ List.Forall₂ (fun g r => r = ⟨g, .added⟩) kept new

/-- What a partial function keeps of a list comes from a part of the list, in order. -/
theorem exists_sublist_forall₂_filterMap {α β : Type} (p : α → Option β) (l : List α) :
    ∃ kept, kept.Sublist l ∧ List.Forall₂ (fun a b => p a = some b) kept (l.filterMap p) := by
  induction l with
  | nil => exact ⟨[], List.Sublist.refl [], List.Forall₂.nil⟩
  | cons a l ih =>
    obtain ⟨kept, hsub, hall⟩ := ih
    cases ha : p a with
    | none =>
      rw [List.filterMap_cons_none ha]
      exact ⟨kept, hsub.cons a, hall⟩
    | some b =>
      rw [List.filterMap_cons_some ha]
      exact ⟨a :: kept, hsub.cons_cons a, List.Forall₂.cons ha hall⟩

/-- The changes found between two revisions patch the first into the second. -/
theorem compare_patches (base head : List FunctionDefinition) :
    Patches base head (compare base head) := by
  refine ⟨?deleted, ?content, fun name => content_eq_of_not_reported, ?patched_eq,
    fun r hr r' hr' => changeType_eq_of_name_eq hr hr', ?order⟩
  case deleted =>
    exact fun r hr hgone => lookup_eq_none_iff.1 (lookup_eq_none_of_deleted hr hgone)
  case content =>
    intro name r hfind
    obtain ⟨hfirst, hkept⟩ := find?_name_of_find?_kept hfind
    exact content_of_find?_compare hfirst hkept
  case patched_eq =>
    intro name
    rw [patched]
    split
    · next r hfind =>
      have hname : r.name = name := by simpa using List.find?_some hfind
      split
      · next hgone =>
        rw [← hname, lookup_eq_none_of_deleted (List.mem_of_find?_eq_some hfind) hgone]
        rfl
      · next hkept => exact (content_of_find?_compare hfind hkept).symm
    · next hnone =>
      exact content_eq_of_not_reported (by simpa using List.find?_eq_none.1 hnone)
  case order =>
    obtain ⟨kept, hsub, hall⟩ := exists_sublist_forall₂_filterMap (ofBase? head) base
    obtain ⟨kept', hsub', hall'⟩ := exists_sublist_forall₂_filterMap (ofHead? base) head
    refine ⟨_, _, rfl, ⟨kept, hsub, hall.imp fun f r hmade => ?_⟩,
      ⟨kept', hsub', hall'.imp fun g r hmade => (ofHead?_eq_some_iff.1 hmade).2⟩⟩
    obtain ⟨-, rfl⟩ | ⟨g, hg, -, rfl⟩ := ofBase?_eq_some_iff.1 hmade
    · exact Or.inl rfl
    · exact Or.inr ⟨g, mem_of_lookup hg, name_eq_of_lookup hg, rfl⟩

end ClarityDelta.Change
