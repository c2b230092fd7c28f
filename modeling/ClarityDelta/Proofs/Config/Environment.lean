import ClarityDelta.Proofs.Config.Variables
import ClarityDelta.Proofs.Outcome

/-!
# What the environment says of an option

An option outside sections has a variable of its own. In a section the fields of the section's variable
are read first, and what the option's own variable says takes the place of the field of its name. Names
are compared without case after that, so of the fields whose names differ in case only the last one
counts: `environmentValue`. The settings that the environment gives have just these values,
`environmentFields_spec`.
-/

namespace ClarityDelta.Config

open Data Fields Text

variable {fields lower upper nested : Fields} {name key : String} {value : Value} {part : Section}
  {named : List (String × String)}

/-! ## Names in any case -/

/-- The fields whose names are the given one in lower case. -/
def spelled (name : String) (fields : Fields) : Fields :=
  fields.filter fun entry => lowered entry.1 = name

/-- An entry in front is among those that spell a name exactly if its key does. -/
theorem spelled_cons (name : String) (entry : String × Value) (fields : Fields) :
    spelled name (entry :: fields) =
      if lowered entry.1 = name then entry :: spelled name fields else spelled name fields := by
  rw [spelled, List.filter_cons]
  simp only [decide_eq_true_eq]
  rfl

/-- An entry under a lowered name spells it. -/
theorem spelled_cons_self (hname : IsLowered name) (value : Value) (fields : Fields) :
    spelled name ((name, value) :: fields) = (name, value) :: spelled name fields := by
  have hself : lowered name = name := hname
  rw [spelled_cons, if_pos hself]

/-- Setting a key that does not spell the name leaves its entries alone. -/
theorem spelled_set_of_ne (h : lowered key ≠ name) (value : Value) (fields : Fields) :
    spelled name (fields.set key value) = spelled name fields := by
  induction fields with
  | nil => rw [Fields.set, spelled_cons, if_neg h]
  | cons entry fields ih =>
    obtain ⟨other, old⟩ := entry
    rw [Fields.set]
    by_cases hkey : other = key
    · rw [if_pos hkey, spelled_cons, spelled_cons, if_neg (hkey ▸ h), if_neg (hkey ▸ h)]
    · rw [if_neg hkey, spelled_cons, spelled_cons, ih]

/-- Setting a lowered name sets it among the entries that spell it. -/
theorem spelled_set (hname : IsLowered name) (value : Value) (fields : Fields) :
    spelled name (fields.set name value) = (spelled name fields).set name value := by
  induction fields with
  | nil => exact spelled_cons_self hname value []
  | cons entry fields ih =>
    obtain ⟨other, old⟩ := entry
    rw [Fields.set]
    by_cases heq : other = name
    · subst heq
      rw [if_pos rfl, spelled_cons_self hname, spelled_cons_self hname, Fields.set, if_pos rfl]
    · rw [if_neg heq, spelled_cons, spelled_cons, ih]
      split
      · rw [Fields.set, if_neg heq]
      · rfl

/-- Of tidy fields at most one is spelled like a name, the one of that name. -/
theorem spelled_of_tidy (hfields : Tidy fields) (hname : IsLowered name) :
    spelled name fields =
      match fields.get? name with
      | some value => [(name, value)]
      | none => [] := by
  induction fields with
  | nil => rfl
  | cons entry fields ih =>
    obtain ⟨key, value⟩ := entry
    obtain ⟨hkey, hnodup⟩ := List.nodup_cons.mp hfields.nodup
    have hrest := ih ⟨hnodup, fun other hother => hfields.lowered other (List.mem_cons_of_mem _ hother)⟩
    rw [get?_cons]
    by_cases heq : name = key
    · subst heq
      rw [if_pos rfl, spelled_cons_self hname, hrest, get?_eq_none_iff.mpr hkey]
    · have hne : lowered key ≠ name := fun h =>
        heq (h.symm.trans (hfields.lowered key List.mem_cons_self))
      rw [if_neg heq, spelled_cons, if_neg hne, hrest]

/-- Of fields laid over others, those spelled like a name are the lower ones, with the upper field of
that name set among them. -/
theorem spelled_overlay (hupper : Tidy upper) (hname : IsLowered name) (lower : Fields)
    (hleaf : ∀ value, upper.get? name = some value → IsLeaf value) :
    spelled name (overlay lower upper) =
      match upper.get? name with
      | some value => (spelled name lower).set name value
      | none => spelled name lower := by
  induction upper generalizing lower with
  | nil => rfl
  | cons entry upper ih =>
    obtain ⟨key, value⟩ := entry
    obtain ⟨hkey, hnodup⟩ := List.nodup_cons.mp hupper.nodup
    have hrest : Tidy upper :=
      ⟨hnodup, fun other hother => hupper.lowered other (List.mem_cons_of_mem _ hother)⟩
    rw [get?_cons] at hleaf ⊢
    rw [overlay]
    by_cases heq : name = key
    · subst heq
      have hnone : Fields.get? upper name = none := get?_eq_none_iff.mpr hkey
      rw [if_pos rfl] at hleaf ⊢
      have hfree : ∀ value, Fields.get? upper name = some value → IsLeaf value := fun value hvalue => by
        rw [hnone] at hvalue
        cases hvalue
      rw [ih hrest _ hfree, hnone, overlayValue_of_isLeaf (hleaf value rfl)]
      exact spelled_set hname value lower
    · rw [if_neg heq] at hleaf ⊢
      have hne : lowered key ≠ name := fun h =>
        heq (h.symm.trans (hupper.lowered key List.mem_cons_self))
      rw [ih hrest _ hleaf, spelled_set_of_ne hne]

/-- From renamed fields in reverse order, a name gives the last value of those that take it. -/
theorem get?_reverse_map (rename : String × Value → String × Value) {p : String × Value → Bool}
    (hname : ∀ entry, (rename entry).1 = name ↔ p entry = true)
    (hvalue : ∀ entry, (rename entry).2 = entry.2) (fields : Fields) :
    get? (fields.map rename).reverse name = ((fields.filter p).getLast?).map Prod.snd := by
  induction fields using List.reverseRecOn with
  | nil => rfl
  | append_singleton fields entry ih =>
    rw [List.map_append, List.map_singleton, List.reverse_append, List.reverse_singleton,
      List.singleton_append, get?_cons, ih, List.filter_append, List.getLast?_append, hvalue]
    by_cases h : p entry = true
    · rw [if_pos ((hname entry).mpr h).symm, List.filter_cons_of_pos h]
      rfl
    · rw [if_neg fun heq => h ((hname entry).mp heq.symm), List.filter_cons_of_neg h]
      rfl

/-- Under the names of a section's fields, the last field that is spelled like one is that one. -/
theorem get?_properNames (hlowered : ∀ other ∈ part.fields, IsLowered other) (hname : name ∈ part.fields)
    (fields : Fields) :
    (properNames part fields).get? name = ((spelled name fields).getLast?).map Prod.snd := by
  rw [properNames, get?_ofList]
  refine get?_reverse_map
    (fun entry => ((part.fields.find? (lowered · = lowered entry.1)).getD entry.1, entry.2))
    (fun entry => ?_) (fun _ => rfl) fields
  rw [decide_eq_true_eq]
  cases hfound : part.fields.find? fun other => lowered other = lowered entry.1 with
  | none =>
    rw [List.find?_eq_none] at hfound
    have hnot := hfound name hname
    rw [decide_eq_true_eq, hlowered name hname] at hnot
    exact ⟨fun heq => absurd ((congrArg lowered heq).trans (hlowered name hname)).symm hnot,
      fun heq => absurd heq.symm hnot⟩
  | some other =>
    have hspelled := List.find?_some hfound
    rw [decide_eq_true_eq, hlowered other (List.mem_of_find?_eq_some hfound)] at hspelled
    rw [Option.getD_some, ← hspelled]

/-! ## What the variables say -/

/-- Whether an option is a list in a section. -/
def takesList (place : Place) : Bool :=
  sections.any fun part => place.part = some part.name && part.lists.contains place.name

/-- What the variable of an option says. -/
def ownValue (named : List (String × String)) (place : Place) : Option Value :=
  (named.lookup (variableOf place)).bind (fieldValue (takesList place))

/-- The fields of a section's variable. -/
def wholeFields (named : List (String × String)) (part : String) : Fields :=
  match (named.lookup (variableStem ++ part)).bind Json.read? with
  | some (.object fields) => fields
  | _ => []

/-- What the environment says of an option. In a section it is the last of the fields of the section's
variable that are spelled like the option, what the option's own variable says being in the place of the
one that has its very name, or behind them. -/
def environmentValue (named : List (String × String)) (place : Place) : Option Value :=
  match place.part with
  | none => ownValue named place
  | some part =>
    let written := spelled place.name (wholeFields named part)
    let all := match ownValue named place with
      | some value => written.set place.name value
      | none => written
    all.getLast?.map Prod.snd

/-- The variable of an option comes before the field of its name in the section's variable. -/
theorem environmentValue_of_ownValue {part : String}
    (hown : ownValue named ⟨some part, name⟩ = some value)
    (hnodup : (names (wholeFields named part)).Nodup)
    (hsame : ∀ entry ∈ spelled name (wholeFields named part), entry.1 = name) :
    environmentValue named ⟨some part, name⟩ = some value := by
  have hspelled : (names (spelled name (wholeFields named part))).Nodup :=
    hnodup.sublist (List.filter_sublist.map Prod.fst)
  simp only [environmentValue, hown]
  cases hwritten : spelled name (wholeFields named part) with
  | nil => rfl
  | cons first rest =>
    rw [hwritten] at hspelled hsame
    cases rest with
    | nil => rw [Fields.set, if_pos (hsame first List.mem_cons_self)]; rfl
    | cons second rest =>
      -- two fields would have the one name
      refine absurd ?_ (List.nodup_cons.mp hspelled).1
      rw [hsame first List.mem_cons_self]
      exact List.mem_cons.mpr
        (Or.inl (hsame second (List.mem_cons_of_mem _ List.mem_cons_self)).symm)

/-- The environment gives sections as objects and lists as lists. A variable that reaches below an option
stands beside the option's own. -/
structure WellWritten (named : List (String × String)) : Prop where
  whole : ∀ part ∈ sections, ∀ text ∈ named.lookup (variableStem ++ part.name),
    ∃ value ∈ Json.read? text, ∃ fields, value = .object fields
  lists : ∀ part ∈ sections, ∀ name ∈ part.lists,
    ∀ text ∈ named.lookup (variableOf ⟨some part.name, name⟩),
      ∃ value ∈ fieldValue true text, (asItems value).IsValid
  below : ∀ part ∈ sections, ∀ name ∈ part.fields, ∀ entry ∈ named,
    ReachesBelow ⟨some part.name, name⟩ entry →
      (named.lookup (variableOf ⟨some part.name, name⟩)).isSome

instance (named : List (String × String)) : Decidable (WellWritten named) :=
  decidable_of_iff (_ ∧ _ ∧ _) ⟨fun h => ⟨h.1, h.2.1, h.2.2⟩, fun h => ⟨h.whole, h.lists, h.below⟩⟩

/-- No two sections have one name. -/
theorem nodup_sections : (sections.map (·.name)).Nodup := by
  decide

/-- The fields of all sections have lowered names. -/
theorem field_isLowered : ∀ part ∈ sections, ∀ name ∈ part.fields, IsLowered name := by
  decide +kernel

/-- No field of a section ends in the separator of nested names. -/
theorem field_notNested :
    ∀ part ∈ sections, ∀ name ∈ part.fields, ¬ nesting <:+: name.toList := by
  decide +kernel

/-- A leaf of a section takes a list just when the section says so. -/
theorem takesList_eq (hpart : part ∈ sections) (name : String) :
    takesList ⟨some part.name, name⟩ = part.lists.contains name := by
  rw [Bool.eq_iff_iff, takesList, List.any_eq_true]
  constructor
  · rintro ⟨other, hother, h⟩
    rw [Bool.and_eq_true, decide_eq_true_eq] at h
    obtain rfl := List.inj_on_of_nodup_map nodup_sections hpart hother (Option.some.inj h.1)
    exact h.2
  · intro h
    exact ⟨part, hpart, by rw [h, decide_eq_true rfl]; rfl⟩

/-- A leaf outside the sections has the text of its own variable. -/
theorem ownValue_plain (named : List (String × String)) (name : String) :
    ownValue named ⟨none, name⟩ = (named.lookup (variableStem ++ name)).map .text := by
  have htakes : takesList ⟨none, name⟩ = false := by simp [takesList]
  rw [ownValue, htakes, variableOf]
  cases named.lookup (variableStem ++ name) with
  | none => rfl
  | some text => rfl

/-- What is taken for a list of items is no object. -/
theorem isLeaf_of_asItems (h : (asItems value).IsValid) : IsLeaf value := by
  rintro inner rfl
  obtain ⟨items, hitems⟩ := h
  cases hitems

/-- The variable of an option in a section says something, and no object. -/
theorem WellWritten.own (h : WellWritten named) (hpart : part ∈ sections) {text : String}
    (hlookup : named.lookup (variableOf ⟨some part.name, name⟩) = some text) :
    ∃ value, fieldValue (part.lists.contains name) text = some value ∧ IsLeaf value := by
  cases hlist : part.lists.contains name with
  | false => exact ⟨.text text, rfl, fun _ heq => by cases heq⟩
  | true =>
    obtain ⟨value, hvalue, hitems⟩ :=
      h.lists part hpart name (List.contains_iff_mem.mp hlist) text hlookup
    exact ⟨value, hvalue, isLeaf_of_asItems hitems⟩

/-- The own variable of a leaf does not give an object where the environment is well written. -/
theorem WellWritten.isLeaf_ownValue (h : WellWritten named) (hpart : part ∈ sections)
    (hvalue : ownValue named ⟨some part.name, name⟩ = some value) : IsLeaf value := by
  obtain ⟨text, hlookup, hfield⟩ := Option.bind_eq_some_iff.mp hvalue
  obtain ⟨own, hown, hleaf⟩ := h.own hpart hlookup
  rw [takesList_eq hpart, hown] at hfield
  exact Option.some.inj hfield ▸ hleaf

/-- The variables of a section's fields say for each what its own variable says. -/
theorem nestedFields_spec (h : WellWritten named) (hnodup : (named.map Prod.fst).Nodup)
    (hlowered : ∀ name ∈ named.map Prod.fst, IsLowered name) (hpart : part ∈ sections) :
    ∃ nested, nestedFields part named = some nested ∧ Tidy nested ∧
      ∀ name ∈ part.fields, nested.get? name = ownValue named ⟨some part.name, name⟩ := by
  have hlists : ∀ entry ∈ named, ∀ name ∈ part.lists, entry.1 = variableOf ⟨some part.name, name⟩ →
      ∃ value, fieldValue true entry.2 = some value := by
    rintro ⟨_, text⟩ hentry name hname rfl
    obtain ⟨value, hvalue, -⟩ := h.lists part hpart name hname text (lookup_of_mem hnodup hentry)
    exact ⟨value, hvalue⟩
  obtain ⟨nested, hnested⟩ := exists_foldlM_eq_some part hlists []
  have hempty : Tidy [] := ⟨List.nodup_nil, fun _ hname => absurd hname List.not_mem_nil⟩
  refine ⟨nested, hnested, hempty.foldlM (fun entry hentry =>
    hlowered entry.1 (List.mem_map_of_mem hentry)) hnested, fun name hname => ?_⟩
  rw [ownValue]
  cases hlookup : named.lookup (variableOf ⟨some part.name, name⟩) with
  | some text =>
    obtain ⟨value, hvalue, hleaf⟩ := h.own hpart hlookup
    rw [Option.bind_some, takesList_eq hpart, hvalue]
    exact get?_foldlM_of_mem hnested hnodup (field_notNested part hpart name hname)
      (mem_of_lookup hlookup) hvalue hleaf
  | none =>
    -- without its own variable the field is not set, since none reaches below it either
    refine get?_foldlM hnested (fun entry hentry heq => ?_) (Or.inr fun entry hentry hreaches => ?_)
    · have hfound := lookup_of_mem hnodup hentry
      rw [heq, hlookup] at hfound
      cases hfound
    · have hown := h.below part hpart name hname entry hentry hreaches
      rw [hlookup] at hown
      cases hown

/-- What the environment gives for a section has for each field what is said of it. -/
theorem sectionValue_spec (h : WellWritten named) (hnodup : (named.map Prod.fst).Nodup)
    (hlowered : ∀ name ∈ named.map Prod.fst, IsLowered name) (hpart : part ∈ sections) :
    ∃ given : Option Fields, sectionValue part named = some (given.map .object) ∧
      (∀ inner ∈ given, (names inner).Nodup) ∧ ∀ name ∈ part.fields,
        given.bind (fun inner => inner.get? name) = environmentValue named ⟨some part.name, name⟩ := by
  obtain ⟨nested, hnested, htidy, hown⟩ := nestedFields_spec h hnodup hlowered hpart
  cases hlookup : named.lookup (variableStem ++ part.name) with
  | none =>
    have hwhole : wholeFields named part.name = [] := by rw [wholeFields, hlookup]; rfl
    refine ⟨if nested.isEmpty then none else some (properNames part nested), ?_, ?_,
      fun name hname => ?_⟩
    · rw [sectionValue, hlookup]
      dsimp only
      rw [hnested, Option.map_some]
      split
      · rfl
      · rfl
    · intro inner hinner
      split at hinner
      · cases hinner
      · exact Option.some.inj hinner ▸ nodup_ofList _
    · have hspelled := spelled_of_tidy htidy (field_isLowered part hpart name hname)
      simp only [environmentValue, hwhole, ← hown name hname]
      cases nested with
      | nil => rfl
      | cons entry nested =>
        refine (get?_properNames (field_isLowered part hpart) hname _).trans ?_
        rw [hspelled]
        rfl
  | some text =>
    obtain ⟨_, hread, whole, rfl⟩ := h.whole part hpart text hlookup
    have hwhole : wholeFields named part.name = whole := by
      rw [wholeFields, hlookup, Option.bind_some, hread]
    refine ⟨some (properNames part (overlay whole nested)), ?_, ?_, fun name hname => ?_⟩
    · rw [sectionValue, hlookup]
      dsimp only
      rw [hread, hnested]
      rfl
    · intro inner hinner
      exact Option.some.inj hinner ▸ nodup_ofList _
    · have hspelled := spelled_overlay htidy (field_isLowered part hpart name hname) whole
        fun value hvalue => h.isLeaf_ownValue hpart ((hown name hname).symm.trans hvalue)
      simp only [environmentValue, hwhole, ← hown name hname]
      refine (get?_properNames (field_isLowered part hpart) hname _).trans ?_
      rw [hspelled]

/-! ## All that the environment gives -/

/-- An option stands outside sections, or it is a field of one. -/
theorem place_cases : ∀ option ∈ options, (option.part = none ∧ option.leaf.name ∈ plainFields) ∨
    ∃ part ∈ sections, option.part = some part.name ∧ option.leaf.name ∈ part.fields := by
  decide +kernel

/-- What is given outside sections, and the sections that are given. -/
def environmentOf (plain : String → Option String) (given : Section → Option Fields) : Fields :=
  (plainFields.filterMap fun name => ((plain name).map Value.text).map fun value => (name, value))
    ++ sections.filterMap fun part => ((given part).map Value.object).map fun value => (part.name, value)

section environmentOf

variable {plain : String → Option String} {given : Section → Option Fields}

/-- The environment gives no other names than those of the settings, in their order. -/
theorem names_environmentOf :
    (names (environmentOf plain given)).Sublist (plainFields ++ sections.map (·.name)) := by
  rw [environmentOf, names, List.map_append]
  have hplain := names_filterMap_sublist id (fun name => (plain name).map Value.text) plainFields
  rw [List.map_id] at hplain
  exact hplain.append
    (names_filterMap_sublist Section.name (fun part => (given part).map .object) sections)

/-- No two settings at the top have one name. -/
theorem nodup_names : (plainFields ++ sections.map (·.name)).Nodup := by
  decide

/-- A leaf outside the sections has the text that is given for it. -/
theorem get?_environmentOf_plain (hname : name ∈ plainFields) :
    (environmentOf plain given).get? name = (plain name).map .text := by
  obtain ⟨hplain, -, hdisjoint⟩ := List.nodup_append.mp nodup_names
  have hown : get? (plainFields.filterMap fun name =>
      ((plain name).map Value.text).map fun value => (name, value)) name = (plain name).map .text :=
    get?_filterMap id (by rwa [List.map_id]) hname
  have hother : get? (sections.filterMap fun part =>
      ((given part).map Value.object).map fun value => (part.name, value)) name = none :=
    get?_eq_none_iff.mpr fun hmem =>
      hdisjoint name hname name ((names_filterMap_sublist Section.name _ sections).mem hmem) rfl
  rw [environmentOf, get?_append, hown, hother, Option.or_none]

/-- A section has the fields that are given for it. -/
theorem get?_environmentOf_part (hpart : part ∈ sections) :
    (environmentOf plain given).get? part.name = (given part).map .object := by
  obtain ⟨-, hparts, hdisjoint⟩ := List.nodup_append.mp nodup_names
  have hother : get? (plainFields.filterMap fun name =>
      ((plain name).map Value.text).map fun value => (name, value)) part.name = none :=
    get?_eq_none_iff.mpr fun hmem => by
      have hname :=
        (names_filterMap_sublist id (fun name => (plain name).map Value.text) plainFields).mem hmem
      rw [List.map_id] at hname
      exact hdisjoint _ hname _ (List.mem_map_of_mem hpart) rfl
  rw [environmentOf, get?_append, hother, Option.none_or, get?_filterMap Section.name hparts hpart]

/-- Whatever the environment gives for a section is an object. -/
theorem sectioned_environmentOf : Sectioned (environmentOf plain given) := by
  intro part hpart value hvalue
  rw [get?_environmentOf_part hpart] at hvalue
  obtain ⟨inner, -, rfl⟩ := Option.map_eq_some_iff.mp hvalue
  exact ⟨inner, rfl⟩

/-- The environment gives no name twice, if none is given twice in a section. -/
theorem distinct_environmentOf
    (hgiven : ∀ part ∈ sections, ∀ inner ∈ given part, (names inner).Nodup) :
    Distinct (environmentOf plain given) where
  names := names_environmentOf.nodup nodup_names
  inner name inner hinner := by
    have hmem : name ∈ names (environmentOf plain given) := by
      by_contra hnot
      rw [get?_eq_none_iff.mpr hnot] at hinner
      cases hinner
    rcases List.mem_append.mp (names_environmentOf.mem hmem) with hplain | hname
    · rw [get?_environmentOf_plain hplain] at hinner
      obtain ⟨_, -, heq⟩ := Option.map_eq_some_iff.mp hinner
      cases heq
    · obtain ⟨part, hpart, rfl⟩ := List.mem_map.mp hname
      rw [get?_environmentOf_part hpart] at hinner
      obtain ⟨_, hsome, heq⟩ := Option.map_eq_some_iff.mp hinner
      exact hgiven part hpart inner (hsome.trans (congrArg some (Value.object.inj heq)))

end environmentOf

/-- The settings that the environment gives have for each option what it says of it. -/
theorem environmentFields_spec {environment : List (String × String)}
    (h : WellWritten (foldCase environment)) :
    ∃ fields, environmentFields environment = .ok fields ∧ Sectioned fields ∧ Distinct fields ∧
      ∀ option ∈ options,
        valueAt fields option.place = environmentValue (foldCase environment) option.place := by
  obtain ⟨hnodup, -⟩ := foldCase_names environment
  choose! given hvalue hinner hfields using fun part (hpart : part ∈ sections) =>
    sectionValue_spec h hnodup (fun _ hname => isLowered_of_mem_foldCase hname) hpart
  refine ⟨environmentOf (fun name => (foldCase environment).lookup (variableStem ++ name)) given, ?_,
    sectioned_environmentOf, distinct_environmentOf hinner, fun option hoption => ?_⟩
  · rw [environmentFields, mapM_eq_ok (g := fun part =>
      ((given part).map Value.object).map fun value => (part.name, value))
      fun part hpart => by rw [hvalue part hpart]]
    change Except.ok (_ ++ (sections.map _).filterMap id) = _
    rw [List.filterMap_map, environmentOf]
    simp only [Option.map_map]
    rfl
  · obtain ⟨hpart, hname⟩ | ⟨part, hpart, hoption, hname⟩ := place_cases option hoption
    · simp only [Setting.place, hpart, valueAt, environmentValue]
      rw [get?_environmentOf_plain hname, ownValue_plain]
    · simp only [Setting.place, hoption, valueAt]
      rw [get?_environmentOf_part hpart, ← hfields part hpart _ hname]
      cases given part with
      | none => rfl
      | some inner => rfl

end ClarityDelta.Config
