import Mathlib.Data.List.Induction
import Mathlib.Data.List.Nodup
import ClarityDelta.Data.Value

/-!
# Fields by their names

Fields are looked at name by name: what is set last under a name counts, and setting a field changes no
other one. Fields that were set one after another have distinct names.
-/

namespace ClarityDelta.Data.Fields

variable {fields lower upper : Fields} {name other : String} {value : Value}

/-- The names of fields. -/
def names (fields : Fields) : List String :=
  fields.map Prod.fst

/-- A name is found in the first field, or among the others. -/
theorem get?_cons (entry : String × Value) (fields : Fields) (name : String) :
    get? (entry :: fields) name = if name = entry.1 then some entry.2 else get? fields name := by
  rw [get?, get?, List.lookup_cons]
  by_cases h : name = entry.1
  · simp [h]
  · rw [if_neg h, beq_false_of_ne h]

/-- Just the names that are not given have no value. -/
theorem get?_eq_none_iff : fields.get? name = none ↔ name ∉ names fields := by
  induction fields with
  | nil => exact iff_of_true rfl List.not_mem_nil
  | cons entry fields ih =>
    rw [get?_cons, names, List.map_cons, List.mem_cons, not_or, ← names, ← ih]
    by_cases h : name = entry.1
    · simp [h]
    · simp [h]

/-- In two lists of fields, the first one is searched first. -/
theorem get?_append (front back : Fields) (name : String) :
    get? (front ++ back) name = (get? front name).or (get? back name) :=
  List.lookup_append

/-- The name that is set has the new value, and all others keep theirs. -/
theorem get?_set (name other : String) (value : Value) (fields : Fields) :
    (set name value fields).get? other = if other = name then some value else fields.get? other := by
  induction fields with
  | nil => rw [set, get?_cons]
  | cons entry fields ih =>
    obtain ⟨key, old⟩ := entry
    rw [set]
    by_cases hkey : key = name
    · rw [if_pos hkey, get?_cons, get?_cons, hkey]
      by_cases hother : other = name
      · simp [hother]
      · simp [hother]
    · rw [if_neg hkey, get?_cons, ih, get?_cons]
      by_cases hother : other = key
      · simp [hother, hkey]
      · simp [hother]

/-- Setting a new name puts it behind the others. -/
theorem names_set (name : String) (value : Value) (fields : Fields) :
    names (set name value fields) =
      if name ∈ names fields then names fields else names fields ++ [name] := by
  induction fields with
  | nil => rfl
  | cons entry fields ih =>
    obtain ⟨key, old⟩ := entry
    rw [set]
    by_cases hkey : key = name
    · simp [hkey, names]
    · rw [if_neg hkey, names, List.map_cons, ← names, ih]
      by_cases hmem : name ∈ names fields
      · simp only [names, List.map_cons, List.mem_cons] at hmem ⊢
        simp [hmem]
      · simp only [names, List.map_cons, List.mem_cons] at hmem ⊢
        simp [hmem, Ne.symm hkey]

/-- Setting a name gives no name twice. -/
theorem nodup_set (h : fields.names.Nodup) (name : String) (value : Value) :
    (set name value fields).names.Nodup := by
  rw [names_set]
  split
  · exact h
  · next hmem =>
    exact List.nodup_append.mpr ⟨h, List.nodup_singleton name, fun a ha b hb heq =>
      hmem (List.mem_singleton.mp hb ▸ heq ▸ ha)⟩

/-- The last of some entries is set last. -/
theorem ofList_append_singleton (entries : Fields) (entry : String × Value) :
    ofList (entries ++ [entry]) = set entry.1 entry.2 (ofList entries) := by
  rw [ofList, List.foldl_append]
  rfl

/-- Fields made of entries have different names. -/
theorem nodup_ofList (entries : Fields) : (ofList entries).names.Nodup := by
  induction entries using List.reverseRecOn with
  | nil => exact List.nodup_nil
  | append_singleton entries entry ih =>
    rw [ofList_append_singleton]
    exact nodup_set ih _ _

/-- Of entries with one name the last one counts. -/
theorem get?_ofList (entries : Fields) (name : String) :
    (ofList entries).get? name = get? entries.reverse name := by
  induction entries using List.reverseRecOn with
  | nil => rfl
  | append_singleton entries entry ih =>
    rw [ofList_append_singleton, get?_set, ih, List.reverse_append, List.reverse_singleton,
      List.singleton_append, get?_cons]

/-! ## Fields that may be given -/

section Given

variable {ι : Type} {given : ι → Option Value} {is : List ι} {i : ι}

/-- Fields that are given for some keys have these keys for names, in their order. -/
theorem names_filterMap_sublist (key : ι → String) (given : ι → Option Value) (is : List ι) :
    (names (is.filterMap fun i => (given i).map fun value => (key i, value))).Sublist (is.map key) := by
  induction is with
  | nil => exact List.Sublist.slnil
  | cons i is ih =>
    rw [List.filterMap_cons, List.map_cons]
    cases given i with
    | none => exact ih.cons _
    | some value => exact ih.cons_cons _

/-- Fields whose names are distinct are there where they are given. -/
theorem get?_filterMap (key : ι → String) (hnodup : (is.map key).Nodup) (hi : i ∈ is) :
    get? (is.filterMap fun i => (given i).map fun value => (key i, value)) (key i) = given i := by
  induction is with
  | nil => cases hi
  | cons first is ih =>
    obtain ⟨hfirst, hrest⟩ := List.nodup_cons.mp hnodup
    rw [List.filterMap_cons]
    rcases List.mem_cons.mp hi with rfl | hmem
    · cases hgiven : given i with
      | none =>
        exact get?_eq_none_iff.mpr fun hname => hfirst ((names_filterMap_sublist key given is).mem hname)
      | some value => exact (get?_cons _ _ _).trans (if_pos rfl)
    · have hne : key i ≠ key first := fun heq => hfirst (heq ▸ List.mem_map_of_mem hmem)
      cases given first with
      | none => exact ih hrest hmem
      | some value => exact (get?_cons _ _ _).trans ((if_neg hne).trans (ih hrest hmem))

end Given

end ClarityDelta.Data.Fields
