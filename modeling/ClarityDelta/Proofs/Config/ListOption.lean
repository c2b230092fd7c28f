import ClarityDelta.Proofs.Config.Layers

/-!
# List options given as one text

A list option takes one text for its items, which stand between commas and line ends. It means the same
where the option is given directly, in the configuration file or on the command line. The variable of the
option is the exception: a list is read as JSON there, so a text that is no JSON keeps the settings from
being loaded.
-/

namespace ClarityDelta.Config

open Data Fields

variable {given file : Fields} {w : Workspace} {part : Section} {name s : String}
  {named : List (String × String)}

/-- An option that is a list: its name in its section, its items in the settings, and what the command
line says when its switch is given. -/
structure ListOption where
  name : String
  items : ScanSettings → List String
  switch : String → RangeOptions

namespace ListOption

/-- The directories of contracts. -/
def directories : ListOption :=
  ⟨"contracts_dir", ScanSettings.contractsDir, fun s => ⟨none, none, some s, none⟩⟩

/-- The patterns of contracts that are left out. -/
def excluded : ListOption :=
  ⟨"excluded_contracts", ScanSettings.excludedContracts, fun s => ⟨none, none, none, some s⟩⟩

/-- Where the option stands. -/
def place (option : ListOption) : Place :=
  ⟨some "scan", option.name⟩

end ListOption

/-- The list options. -/
def listOptions : List ListOption :=
  [.directories, .excluded]

/-- The directories of contracts are a list option. -/
theorem directories_mem : ListOption.directories ∈ listOptions :=
  List.mem_cons_self

variable {option : ListOption}

/-! ## A text where it is taken as it is -/

/-- No two options stand at one place. -/
theorem nodup_places : (options.map Setting.place).Nodup := by
  decide +kernel

/-- A list option takes a text, and has its items then. -/
theorem exists_setting : ∀ option ∈ listOptions, ∃ setting ∈ options, setting.place = option.place ∧
    ∀ s, (setting.leaf.ofValue (some (.text s))).IsValid ∧ ∀ settings,
      setting.leaf.ofValue (some (.text s)) = .valid (setting.leaf.get settings) →
        option.items settings.scan = itemList s := by
  have hmem : ∀ leaf ∈ ScanSettings.leaves, ⟨some "scan", leaf.within Settings.scan⟩ ∈ options := by
    intro leaf hleaf
    simp only [options, List.mem_append]
    exact Or.inl (Or.inl (Or.inl (Or.inr (List.mem_map_of_mem hleaf))))
  simp only [listOptions, List.forall_mem_cons, List.not_mem_nil, IsEmpty.forall_iff, implies_true,
    and_true]
  exact ⟨⟨_, hmem _ List.mem_cons_self, rfl,
      fun s => ⟨⟨_, rfl⟩, fun _ hitems => (Checked.valid.inj hitems).symm⟩⟩,
    ⟨_, hmem _ (List.mem_cons_of_mem _ List.mem_cons_self), rfl,
      fun s => ⟨⟨_, rfl⟩, fun _ hitems => (Checked.valid.inj hitems).symm⟩⟩⟩

/-- The other options are valid. -/
def OthersValid (option : ListOption) (given file : Fields) (named : List (String × String)) : Prop :=
  ∀ other ∈ options, other.place ≠ option.place →
    (other.leaf.ofValue (firstValue given file named other.place)).IsValid

instance (option : ListOption) (given file : Fields) (named : List (String × String)) :
    Decidable (OthersValid option given file named) :=
  inferInstanceAs (Decidable (∀ other ∈ options, other.place ≠ option.place →
    (other.leaf.ofValue (firstValue given file named other.place)).IsValid))

/-- Where a text is what is said first of a list option, the option has the items of the text. -/
theorem load_items (hoption : option ∈ listOptions) (h : Sources given w file)
    (hfirst : firstValue given file (foldCase w.environment) option.place = some (.text s))
    (hothers : OthersValid option given file (foldCase w.environment)) :
    ∃ settings, load given w = (.ok settings, w) ∧ option.items settings.scan = itemList s := by
  obtain ⟨setting, hsetting, hplace, htakes⟩ := exists_setting option hoption
  have hvalid : ∀ other ∈ options, (other.leaf.ofValue
      (firstValue given file (foldCase w.environment) other.place)).IsValid := by
    intro other hother
    by_cases heq : other.place = option.place
    · obtain rfl := List.inj_on_of_nodup_map nodup_places hother hsetting (heq.trans hplace.symm)
      rw [heq, hfirst]
      exact (htakes s).1
    · exact hothers other hother heq
  obtain ⟨settings, hload, hall⟩ := load_eq h.sectionsGiven h.namesGiven h.environment
    (gives_of_mappingOf h.mapping) h.sectionsInFile hvalid
  have hitems := hall setting hsetting
  rw [hplace, hfirst] at hitems
  exact ⟨settings, hload, (htakes s).2 settings hitems⟩

/-- On the command line a list option has the items of its text, if there are any. -/
theorem items_withRange (hoption : option ∈ listOptions) (hitems : itemList s ≠ [])
    (settings : Settings) : option.items (settings.withRange (option.switch s)).scan = itemList s := by
  have hsome : (itemList s).isEmpty = false := List.isEmpty_eq_false_iff.mpr hitems
  revert option
  simp only [listOptions, List.forall_mem_cons, List.not_mem_nil, IsEmpty.forall_iff, implies_true,
    and_true]
  refine ⟨?_, rfl⟩
  simp only [ListOption.directories, Settings.withRange, Option.map_some, Option.getD_some, hsome,
    Bool.false_eq_true, if_false]

/-! ## A text where it is read as JSON -/

/-- The fields of a section are not found where the variable of a list is not well written. -/
theorem nestedFields_eq_none (hname : ¬ nesting <:+: name.toList)
    (hlist : part.lists.contains name = true)
    (hmem : (variableOf ⟨some part.name, name⟩, s) ∈ named) (hvalue : fieldValue true s = none) :
    nestedFields part named = none := by
  -- the reading stops at this variable, if not at one before it
  obtain ⟨front, back, rfl⟩ := List.append_of_mem hmem
  rw [nestedFields_eq, List.foldlM_append]
  cases front.foldlM (setByVariable part) [] with
  | none => rfl
  | some fields =>
    rw [Option.bind_eq_bind, Option.bind_some, List.foldlM_cons, setByVariable_own hname, hlist, hvalue]
    rfl

/-- A section with such a variable gives no answer, if it is given as a whole, then as an object. -/
theorem sectionValue_eq_none (hnested : nestedFields part named = none)
    (hwhole : ∀ text ∈ named.lookup (variableStem ++ part.name),
      ∀ value ∈ Json.read? text, ∃ fields, value = .object fields) :
    sectionValue part named = none := by
  rw [sectionValue]
  cases hlookup : named.lookup (variableStem ++ part.name) with
  | none => rw [hnested]; rfl
  | some text =>
    dsimp only
    cases hread : Json.read? text with
    | none => rfl
    | some value =>
      obtain ⟨fields, rfl⟩ := hwhole text hlookup value hread
      rw [hnested]
      rfl

/-- The variable of a list option keeps the settings from being loaded when it is no JSON. -/
theorem load_of_listVariable (hoption : option ∈ listOptions) (hitems : itemList s ≠ [])
    (hjson : Json.read? s = none)
    (hlookup : (foldCase w.environment).lookup (variableOf option.place) = some s)
    (hwhole : ∀ text ∈ (foldCase w.environment).lookup (variableStem ++ "scan"),
      ∀ value ∈ Json.read? text, ∃ fields, value = .object fields) (given : Fields) :
    load given w = (.error (.setting "scan"), w) := by
  have hvalue : fieldValue true s = none := by
    have hsome : s.isEmpty = false := by
      rw [Bool.eq_false_iff]
      intro hempty
      rw [String.isEmpty_iff.mp hempty] at hitems
      exact hitems rfl
    rw [fieldValue, hsome]
    exact hjson
  obtain ⟨part, rest, hsections, hpart, hlist⟩ : ∃ part rest, sections = part :: rest ∧
      part.name = "scan" ∧ ∀ option ∈ listOptions, part.lists.contains option.name = true :=
    ⟨_, _, rfl, rfl, by decide⟩
  have hnested : ∀ option ∈ listOptions, ¬ nesting <:+: option.name.toList := by decide +kernel
  have hmem : (variableOf ⟨some part.name, option.name⟩, s) ∈ foldCase w.environment :=
    hpart ▸ mem_of_lookup hlookup
  have hfields : nestedFields part (foldCase w.environment) = none :=
    nestedFields_eq_none (hnested option hoption) (hlist option hoption) hmem hvalue
  have hnone : sectionValue part (foldCase w.environment) = none :=
    sectionValue_eq_none hfields (hpart ▸ hwhole)
  refine load_of_error ?_ given
  rw [environmentFields, hsections, List.mapM_cons, hnone, hpart]
  rfl

/-- A text with items that is no JSON means its items where a list option is given directly, in the
configuration file or on the command line. In the option's variable it keeps the settings from being
loaded. -/
theorem items_of_text (hoption : option ∈ listOptions) (hitems : itemList s ≠ [])
    (hjson : Json.read? s = none) :
    (∀ given w file, Sources given w file → valueAt given option.place = some (.text s) →
      OthersValid option given file (foldCase w.environment) →
        ∃ settings, load given w = (.ok settings, w) ∧ option.items settings.scan = itemList s) ∧
    (∀ given w file, Sources given w file → valueAt given option.place = none →
      environmentValue (foldCase w.environment) option.place = none →
      valueAt file option.place = some (.text s) →
      OthersValid option given file (foldCase w.environment) →
        ∃ settings, load given w = (.ok settings, w) ∧ option.items settings.scan = itemList s) ∧
    (∀ settings : Settings,
      option.items (settings.withRange (option.switch s)).scan = itemList s) ∧
    ∀ given w, (foldCase w.environment).lookup (variableOf option.place) = some s →
      (∀ text ∈ (foldCase w.environment).lookup (variableStem ++ "scan"),
        ∀ value ∈ Json.read? text, ∃ fields, value = .object fields) →
        load given w = (.error (.setting "scan"), w) := by
  refine ⟨fun given w file h hgiven hothers => ?_, fun given w file h hgiven hnamed hfile hothers => ?_,
    items_withRange hoption hitems, fun given w hlookup hwhole =>
      load_of_listVariable hoption hitems hjson hlookup hwhole given⟩
  · refine load_items hoption h ?_ hothers
    rw [firstValue, hgiven]
    rfl
  · refine load_items hoption h ?_ hothers
    rw [firstValue, hgiven, hnamed, hfile]
    rfl

/-- One text for the directories is read as two items where it is given, in the file and on the command
line, and refused in the environment. -/
theorem items_of_text_twoDirectories :
    itemList "c,d" = ["c", "d"] ∧
    (∃ settings, load [("scan", .object [("contracts_dir", .text "c,d")])] (configured [] none) =
      (.ok settings, configured [] none) ∧ settings.scan.contractsDir = itemList "c,d") ∧
    (∃ settings, load [] { threeSources with environment := [] } =
      (.ok settings, { threeSources with environment := [] }) ∧
        settings.scan.contractsDir = itemList "c,d") ∧
    (∀ settings : Settings, (settings.withRange ⟨none, none, some "c,d", none⟩).scan.contractsDir =
      itemList "c,d") ∧
    load [] (configured [("CLARITY_VERIFY_SCAN__CONTRACTS_DIR", "c,d")] none) =
      (.error (.setting "scan"), configured [("CLARITY_VERIFY_SCAN__CONTRACTS_DIR", "c,d")] none) := by
  have hjson : Json.read? "c,d" = none := by rfl
  obtain ⟨hdirect, hfile, hswitch, hvariable⟩ := items_of_text directories_mem (by decide) hjson
  have hnamed : WellWritten (foldCase []) := by decide +kernel
  refine ⟨by decide +kernel, hdirect _ _ [] ?_ rfl (by decide +kernel),
    hfile _ _ threeSourcesFile ?_ rfl rfl rfl (by decide +kernel), hswitch, hvariable _ _ ?_ ?_⟩
  · exact ⟨by decide, distinct_single (by decide), hnamed,
      mappingOf_of_none (by decide +kernel), by decide⟩
  · exact ⟨by decide, distinct_nil, hnamed, mappingOf_threeSources, by decide⟩
  · decide +kernel
  · decide +kernel

/-- The variable of an option that is a list, with a text that is none in JSON. -/
def delimitedVariable : Workspace :=
  configured [("CLARITY_VERIFY_SCAN__CONTRACTS_DIR", "a,b")] none

/-- With the variable `a,b` the settings are not loaded, although the text has two items. -/
theorem load_delimitedVariable : Json.read? "a,b" = none ∧ itemList "a,b" = ["a", "b"] ∧
    load [] delimitedVariable = (.error (.setting "scan"), delimitedVariable) :=
  have hjson : Json.read? "a,b" = none := by rfl
  ⟨hjson, by decide +kernel, load_of_listVariable directories_mem (by decide) hjson (by decide +kernel)
    (by decide +kernel) []⟩

end ClarityDelta.Config
