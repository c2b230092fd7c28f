import ClarityDelta.Proofs.Config.Environment
import ClarityDelta.Proofs.Config.File

/-!
# Sources of settings, option by option

Each option is what the first of the sources says that says anything of it: what is given directly, the
environment, and the configuration file. What these say of other options makes no difference:
`load_eq`.
-/

namespace ClarityDelta.Config

open Data Files Fields

variable {given file : Fields} {w after : Workspace}

/-! ## Values that options take -/

/-- No object is a value of the field. -/
def Leaf.TakesNoObject {σ : Type} (leaf : Leaf σ) : Prop :=
  ∀ inner, ∃ complaints, leaf.check (.object inner) = .invalid complaints

/-- No option takes an object for its value. -/
theorem takesNoObject : ∀ option ∈ options, option.leaf.TakesNoObject := by
  simp only [options, plainLeaves, ScanSettings.leaves, CheckerSettings.leaves, ReportSettings.leaves,
    LogSettings.leaves, List.forall_mem_append, List.forall_mem_map, List.forall_mem_cons,
    List.not_mem_nil, IsEmpty.forall_iff, implies_true, and_true]
  and_intros
  all_goals exact fun inner => ⟨_, rfl⟩

/-- What an option takes is no object. -/
theorem isLeaf_of_ofValue {option : Setting} (hoption : option ∈ options) {value? : Option Value}
    (h : (option.leaf.ofValue value?).IsValid) : ∀ value, value? = some value → IsLeaf value := by
  rintro _ rfl inner rfl
  obtain ⟨a, ha⟩ := h
  obtain ⟨complaints, hcomplaints⟩ := takesNoObject option hoption inner
  cases ha.symm.trans hcomplaints

/-- The options stand at the top or in one of the sections. -/
theorem part_mem_sections : ∀ option ∈ options, ∀ part ∈ option.place.part,
    part ∈ sections.map (·.name) := by
  intro option hoption name hname
  obtain ⟨hpart, -⟩ | ⟨part, hmem, hpart, -⟩ := place_cases option hoption
  · cases hpart.symm.trans hname
  · obtain rfl := Option.some.inj (hpart.symm.trans hname)
    exact List.mem_map_of_mem hmem

/-! ## Sources -/

/-- What the first source says that says anything of an option. -/
def firstValue (given file : Fields) (named : List (String × String)) (place : Place) : Option Value :=
  ((valueAt given place).or (environmentValue named place)).or (valueAt file place)

/-- Sources that name their fields by texts are checked one over the other. -/
theorem build_of_texts {pairs : List (Yaml.Key × Value)} (h : ∀ pair ∈ pairs, pair.1 ≠ .other)
    (fields given : Fields) : build pairs fields given =
      Action.valid (Settings.check (overlay (Yaml.textFields pairs) (overlay fields given))) := by
  have hany : pairs.any (·.1 = .other) = false := by simpa using h
  rw [build, hany]
  rfl

/-- A configuration file that names a field by something else is refused. -/
theorem build_of_other {pairs : List (Yaml.Key × Value)} (h : ∃ pair ∈ pairs, pair.1 = .other)
    (fields given : Fields) (w : Workspace) : build pairs fields given w = (.error .fieldName, w) := by
  have hany : pairs.any (·.1 = .other) = true := by simpa using h
  rw [build, hany]
  rfl

/-- Settings are loaded from the file once the environment is read. -/
theorem load_of_ok {fields : Fields} (h : environmentFields w.environment = .ok fields)
    (given : Fields) :
    load given w = (fileFields >>= fun pairs => build pairs fields given : Work Settings) w := by
  rw [load, Action.get_bind_apply, h]

/-- A section that the environment spells wrongly is what loading fails for. -/
theorem load_of_error {name : String} (h : environmentFields w.environment = .error name)
    (given : Fields) : load given w = (.error (.setting name), w) := by
  rw [load, Action.get_bind_apply, h]
  rfl

/-- Settings are loaded where what is said first of each option is valid, and each option is that. -/
theorem load_eq (hgiven : Sectioned given) (hdistinct : Distinct given)
    (henvironment : WellWritten (foldCase w.environment)) (hfile : Gives w file after)
    (hsections : Sectioned file)
    (hvalid : ∀ option ∈ options,
      (option.leaf.ofValue (firstValue given file (foldCase w.environment) option.place)).IsValid) :
    ∃ settings, load given w = (.ok settings, after) ∧ ∀ option ∈ options,
      option.leaf.ofValue (firstValue given file (foldCase w.environment) option.place) =
        .valid (option.leaf.get settings) := by
  obtain ⟨fields, hfields, hsectioned, hnames, hvalues⟩ := environmentFields_spec henvironment
  -- what is given directly lies over the environment, and both of them over the file
  have habove : ∀ option ∈ options, valueAt (overlay fields given) option.place =
      (valueAt given option.place).or (environmentValue (foldCase w.environment) option.place) := by
    intro option hoption
    rw [← hvalues option hoption]
    refine valueAt_overlay hsectioned hgiven hdistinct (part_mem_sections option hoption)
      fun value hvalue => isLeaf_of_ofValue hoption (hvalid option hoption) value ?_
    rw [firstValue, hvalue]
    rfl
  have hplaces : ∀ option ∈ options, valueAt (overlay file (overlay fields given)) option.place =
      firstValue given file (foldCase w.environment) option.place := by
    intro option hoption
    rw [firstValue, ← habove option hoption]
    refine valueAt_overlay hsections (sectioned_overlay hsectioned hgiven hdistinct.names)
      (distinct_overlay hnames hdistinct) (part_mem_sections option hoption)
      fun value hvalue => isLeaf_of_ofValue hoption (hvalid option hoption) value ?_
    rw [habove option hoption] at hvalue
    rw [firstValue, hvalue]
    rfl
  have hsectionedAll : Sectioned (overlay file (overlay fields given)) :=
    sectioned_overlay hsections (sectioned_overlay hsectioned hgiven hdistinct.names)
      (distinct_overlay hnames hdistinct).names
  obtain ⟨settings, hcheck, hall⟩ := check_of_options hsectionedAll fun option hoption => by
    rw [hplaces option hoption]
    exact hvalid option hoption
  refine ⟨settings, ?_, fun option hoption => hplaces option hoption ▸ hall option hoption⟩
  obtain ⟨pairs, hgives, hkeys, rfl⟩ := hfile
  rw [load_of_ok hfields, Action.bind_apply, hgives]
  dsimp only
  rw [build_of_texts hkeys, hcheck]
  rfl

/-- Sources in which sections are objects and names distinct. The variables are well written, and the
configuration file is a mapping if there is one. -/
structure Sources (given : Fields) (w : Workspace) (file : Fields) : Prop where
  sectionsGiven : Sectioned given
  namesGiven : Distinct given
  environment : WellWritten (foldCase w.environment)
  mapping : mappingOf w.files = some file
  sectionsInFile : Sectioned file

/-- Settings are layered option by option: each option is what the first source says that says anything
of it, or its default. -/
theorem load_layers (h : Sources given w file) (hvalid : ∀ option ∈ options,
      (option.leaf.ofValue (firstValue given file (foldCase w.environment) option.place)).IsValid) :
    ∃ settings, load given w = (.ok settings, w) ∧ ∀ option ∈ options,
      option.leaf.ofValue (firstValue given file (foldCase w.environment) option.place) =
        .valid (option.leaf.get settings) :=
  load_eq h.sectionsGiven h.namesGiven h.environment (gives_of_mappingOf h.mapping) h.sectionsInFile
    hvalid

/-- A workspace with an environment, and with a configuration file if its content is given. -/
def configured (environment : List (String × String)) (content? : Option ByteArray) : Workspace where
  files := { FileTree.empty ["w"] with
    entries := (["w"], .directory 0) :: (content?.map fun content =>
      (["w", "clarity-verify.yaml"], .file ⟨0, content, 0⟩)).toList }
  environment := environment
  answer _ _ := .timedOut
  calls := []
  loggers := []
  console := []
  shown := []

/-- Variables and a file that say something of the same options and of others. -/
def threeSources : Workspace :=
  configured
    [("CLARITY_VERIFY_SCAN", "\x7b\"contracts_dir\": \"a,b\"\x7d"),
      ("clarity_verify_scan__excluded_contracts", "[\"t\"]")]
    (some "fail_on_issue: no\nscan:\n  contracts_dir: c,d\n  comment_aware_parens: yes\n".toUTF8)

/-- What the file of `threeSources` says. -/
def threeSourcesFile : Fields :=
  [("fail_on_issue", .bool false),
    ("scan", .object [("contracts_dir", .text "c,d"), ("comment_aware_parens", .bool true)])]

/-- Whether a file says that. -/
def isThreeSourcesFile : Option Fields → Bool
  | some [("fail_on_issue", .bool false),
      ("scan", .object [("contracts_dir", .text "c,d"), ("comment_aware_parens", .bool true)])] => true
  | _ => false

/-- The configuration file of the three sources is read as their mapping. -/
theorem mappingOf_threeSources : mappingOf threeSources.files = some threeSourcesFile := by
  have hfile : isThreeSourcesFile (mappingOf threeSources.files) = true := by decide +kernel
  unfold isThreeSourcesFile at hfile
  split at hfile
  · assumption
  · cases hfile

/-- The example takes one option from each source: the given values, the environment, the file and the
defaults. -/
theorem load_layers_threeSources :
    ∃ settings, load [("checker", .object [("flags", .text "--x")])] threeSources =
        (.ok settings, threeSources) ∧
      settings.headRef = "HEAD" ∧ settings.failOnIssue = false ∧
      settings.scan.contractsDir = ["a", "b"] ∧ settings.scan.excludedContracts = ["t"] ∧
      settings.scan.commentAwareParens = true ∧ settings.checker.flags = "--x" := by
  have hnamed : foldCase threeSources.environment =
      [("clarity_verify_scan", "\x7b\"contracts_dir\": \"a,b\"\x7d"),
        ("clarity_verify_scan__excluded_contracts", "[\"t\"]")] := by decide +kernel
  have hsources : Sources [("checker", .object [("flags", .text "--x")])] threeSources
      threeSourcesFile := {
    sectionsGiven := by decide
    namesGiven := distinct_single (by decide)
    environment := by
      rw [hnamed]
      decide +kernel
    mapping := mappingOf_threeSources
    sectionsInFile := by decide }
  obtain ⟨settings, hload, hall⟩ := load_layers hsources (by rw [hnamed]; decide +kernel)
  simp only [hnamed, options, plainLeaves, ScanSettings.leaves, CheckerSettings.leaves, Leaf.within,
    List.forall_mem_append, List.forall_mem_map, List.forall_mem_cons] at hall
  obtain ⟨⟨⟨⟨⟨-, -, hhead, hfail, -⟩, hdirs, hexcluded, hparens, -⟩, -, hflags, -⟩, -⟩, -⟩ := hall
  exact ⟨settings, hload, Checked.eq_of_valid hhead (by decide +kernel),
    Checked.eq_of_valid hfail (by decide +kernel), Checked.eq_of_valid hdirs (by decide +kernel),
    Checked.eq_of_valid hexcluded (by decide +kernel), Checked.eq_of_valid hparens (by decide +kernel),
    Checked.eq_of_valid hflags (by decide +kernel)⟩

/-- A section in whose variable one option stands twice, the second time in capitals, beside the option's
own variable. -/
def flagsTwice : Workspace :=
  configured [("CLARITY_VERIFY_CHECKER", "\x7b\"flags\": \"a\", \"FLAGS\": \"c\"\x7d"),
    ("CLARITY_VERIFY_CHECKER__FLAGS", "b")] none

/-- With the option twice in the variable of its section, the value there is loaded instead of the one
in the option's own variable. -/
theorem load_flagsTwice :
    (foldCase flagsTwice.environment).lookup (variableOf ⟨some "checker", "flags"⟩) = some "b" ∧
      ∃ settings, load [] flagsTwice = (.ok settings, flagsTwice) ∧ settings.checker.flags = "c" := by
  have hnamed : foldCase flagsTwice.environment =
      [("clarity_verify_checker", "\x7b\"flags\": \"a\", \"FLAGS\": \"c\"\x7d"),
        ("clarity_verify_checker__flags", "b")] := by decide +kernel
  have henvironment : WellWritten (foldCase flagsTwice.environment) := by
    rw [hnamed]
    decide +kernel
  have hsections : Sectioned [] := by decide
  have hfile : configPaths.find? flagsTwice.files.isFile = none := by decide +kernel
  obtain ⟨settings, hload, hall⟩ := load_eq hsections distinct_nil henvironment
    (gives_nothing (fileFields_of_none hfile)) hsections (by rw [hnamed]; decide +kernel)
  simp only [hnamed, options, CheckerSettings.leaves, Leaf.within, List.forall_mem_append,
    List.forall_mem_map, List.forall_mem_cons] at hall
  obtain ⟨⟨⟨-, -, hflags, -⟩, -⟩, -⟩ := hall
  exact ⟨by rw [hnamed]; decide +kernel, settings, hload, Checked.eq_of_valid hflags (by decide +kernel)⟩

end ClarityDelta.Config
