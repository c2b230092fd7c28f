import ClarityDelta.Proofs.Config.Overlay

/-!
# The options one by one

Each option is known by its place, what it takes, its default and its value in the settings. `options`
has them all, in the order in which settings are written. Settings are valid when each option is, and then
each option has the value that was found at its place: `check_of_options`.
-/

namespace ClarityDelta

open Data

namespace Data.Checked

variable {α β : Type}

/-- A function of a valid value is valid. -/
@[simp] theorem map_valid (f : α → β) (a : α) : f <$> (valid a : Checked α) = valid (f a) := rfl

/-- A valid function of a valid value is valid. -/
@[simp] theorem seq_valid (f : α → β) (a : α) :
    (valid f : Checked (α → β)) <*> (valid a : Checked α) = valid (f a) := rfl

deriving instance DecidableEq for Checked

/-- A check finds one value at most. -/
theorem eq_of_valid {x : Checked α} {a b : α} (ha : x = valid a) (hb : x = valid b) : a = b :=
  valid.inj (ha.symm.trans hb)

/-- There is nothing to complain about. -/
def IsValid (x : Checked α) : Prop :=
  ∃ a, x = valid a

instance (x : Checked α) : Decidable x.IsValid :=
  match x with
  | valid a => isTrue ⟨a, rfl⟩
  | invalid _ => isFalse fun ⟨_, heq⟩ => nomatch heq

end Data.Checked

namespace Config

/-! ## Fields of a record -/

/-- A field of a record: its name, what it takes, what it is when nothing is given, and its value in the
record. -/
structure Leaf (σ : Type) where
  name : String
  {α : Type}
  check : Value → Checked α
  default : α
  get : σ → α

namespace Leaf

variable {σ τ : Type}

/-- What the field is for the value that is given, if any. -/
def ofValue (leaf : Leaf σ) : Option Value → Checked leaf.α
  | some value => leaf.check value
  | none => .valid leaf.default

/-- An optional field is checked as its leaf is, its default where it is missing. -/
theorem optional_of_ofValue {name : String} {α : Type} {check : Value → Checked α} {default a : α}
    {get : σ → α} {fields : Fields}
    (h : (⟨name, check, default, get⟩ : Leaf σ).ofValue (fields.get? name) = .valid a) :
    fields.optional name check default = .valid a := by
  rw [Fields.optional]
  cases hvalue : fields.get? name with
  | none =>
    rw [hvalue] at h
    exact congrArg (Checked.within _) h
  | some value =>
    rw [hvalue] at h
    exact congrArg (Checked.within _) h

/-- A field of a record that is part of another one. -/
def within (part : τ → σ) (leaf : Leaf σ) : Leaf τ :=
  ⟨leaf.name, leaf.check, leaf.default, leaf.get ∘ part⟩

end Leaf

/-- A record with the given fields is found where each of them is valid, and it has what was found for
each. -/
def Checks {σ : Type} (leaves : List (Leaf σ)) (check : Fields → Checked σ) : Prop :=
  ∀ fields, (∀ leaf ∈ leaves, (leaf.ofValue (fields.get? leaf.name)).IsValid) →
    ∃ s, check fields = .valid s ∧
      ∀ leaf ∈ leaves, leaf.ofValue (fields.get? leaf.name) = .valid (leaf.get s)

namespace ScanSettings

/-- The options of the section. -/
def leaves : List (Leaf ScanSettings) :=
  [⟨"contracts_dir", asItems, ["./"], contractsDir⟩,
    ⟨"excluded_contracts", asItems, [], excludedContracts⟩,
    ⟨"comment_aware_parens", Value.asBool, false, commentAwareParens⟩]

/-- The settings for scanning are checked leaf by leaf. -/
theorem checks : Checks leaves check := by
  intro fields h
  simp only [leaves, List.forall_mem_cons] at h ⊢
  obtain ⟨⟨a, ha⟩, ⟨b, hb⟩, ⟨c, hc⟩, -⟩ := h
  refine ⟨⟨a, b, c⟩, ?_, ha, hb, hc, List.forall_mem_nil _⟩
  simp only [check, Leaf.optional_of_ofValue ha, Leaf.optional_of_ofValue hb,
    Leaf.optional_of_ofValue hc, Checked.map_valid, Checked.seq_valid]

end ScanSettings

namespace CheckerSettings

/-- The options of the section. -/
def leaves : List (Leaf CheckerSettings) :=
  [⟨"baseline_flags", Value.asText, defaultBaselineFlags, baselineFlags⟩,
    ⟨"flags", Value.asText, "--verbose", flags⟩,
    ⟨"container_repo", Value.asText, "ghcr.io/companyx/clarity-esbmc", containerRepo⟩,
    ⟨"ast_container_repo", Value.asText, "ghcr.io/companyx/clarity-ast-generator", astContainerRepo⟩,
    ⟨"container_version", Value.asText, "v1.0.0", containerVersion⟩,
    ⟨"docker_bin", Value.asText, "docker", dockerBin⟩,
    ⟨"reuse_ast", Value.asBool, false, reuseAst⟩,
    ⟨"timeout_s", Value.asOption (Value.asIntFrom 1), none, timeoutSeconds⟩]

/-- The settings of the checker are checked leaf by leaf. -/
theorem checks : Checks leaves check := by
  intro fields h
  simp only [leaves, List.forall_mem_cons] at h ⊢
  obtain ⟨⟨a, ha⟩, ⟨b, hb⟩, ⟨c, hc⟩, ⟨d, hd⟩, ⟨e, he⟩, ⟨f, hf⟩, ⟨g, hg⟩, ⟨i, hi⟩, -⟩ := h
  refine ⟨⟨a, b, c, d, e, f, g, i⟩, ?_, ha, hb, hc, hd, he, hf, hg, hi, List.forall_mem_nil _⟩
  simp only [check, Leaf.optional_of_ofValue ha, Leaf.optional_of_ofValue hb,
    Leaf.optional_of_ofValue hc, Leaf.optional_of_ofValue hd, Leaf.optional_of_ofValue he,
    Leaf.optional_of_ofValue hf, Leaf.optional_of_ofValue hg, Leaf.optional_of_ofValue hi,
    Checked.map_valid, Checked.seq_valid]

end CheckerSettings

namespace ReportSettings

/-- The options of the section. -/
def leaves : List (Leaf ReportSettings) :=
  [⟨"sarif_path", Value.asText, "results.sarif", sarifPath⟩,
    ⟨"summary_path", Value.asOption Value.asText, none, summaryPath⟩,
    ⟨"tool_name", Value.asText, "ESBMC Clarity Formal Verification", toolName⟩,
    ⟨"tool_version", Value.asText, "1.0.0", toolVersion⟩]

/-- The settings for reports are checked leaf by leaf. -/
theorem checks : Checks leaves check := by
  intro fields h
  simp only [leaves, List.forall_mem_cons] at h ⊢
  obtain ⟨⟨a, ha⟩, ⟨b, hb⟩, ⟨c, hc⟩, ⟨d, hd⟩, -⟩ := h
  refine ⟨⟨a, b, c, d⟩, ?_, ha, hb, hc, hd, List.forall_mem_nil _⟩
  simp only [check, Leaf.optional_of_ofValue ha, Leaf.optional_of_ofValue hb,
    Leaf.optional_of_ofValue hc, Leaf.optional_of_ofValue hd, Checked.map_valid, Checked.seq_valid]

end ReportSettings

namespace LogSettings

/-- The options of the section. -/
def leaves : List (Leaf LogSettings) :=
  [⟨"log_to_console", Value.asBool, true, logToConsole⟩,
    ⟨"level", Value.asText, "INFO", level⟩,
    ⟨"file_path", Value.asText, ".clarity-verify/logs/app.log", filePath⟩,
    ⟨"max_bytes", Value.asIntFrom 1024, 10485760, maxBytes⟩,
    ⟨"backup_count", Value.asIntFrom 0, 5, backupCount⟩,
    ⟨"log_format", Value.asText, "%(asctime)s - %(name)s - %(levelname)s - %(message)s", logFormat⟩,
    ⟨"date_format", Value.asText, "%Y-%m-%d %H:%M:%S", dateFormat⟩]

/-- The settings of the log are checked leaf by leaf. -/
theorem checks : Checks leaves check := by
  intro fields h
  simp only [leaves, List.forall_mem_cons] at h ⊢
  obtain ⟨⟨a, ha⟩, ⟨b, hb⟩, ⟨c, hc⟩, ⟨d, hd⟩, ⟨e, he⟩, ⟨f, hf⟩, ⟨g, hg⟩, -⟩ := h
  refine ⟨⟨a, b, c, d, e, f, g⟩, ?_, ha, hb, hc, hd, he, hf, hg, List.forall_mem_nil _⟩
  simp only [check, Leaf.optional_of_ofValue ha, Leaf.optional_of_ofValue hb,
    Leaf.optional_of_ofValue hc, Leaf.optional_of_ofValue hd, Leaf.optional_of_ofValue he,
    Leaf.optional_of_ofValue hf, Leaf.optional_of_ofValue hg, Checked.map_valid, Checked.seq_valid]

end LogSettings

/-! ## All options -/

/-- An option of the settings: the section it is in, if any, and the field. -/
structure Setting where
  part : Option String
  leaf : Leaf Settings

/-- Where an option stands. -/
def Setting.place (setting : Setting) : Place :=
  ⟨setting.part, setting.leaf.name⟩

/-- The options outside sections. -/
def plainLeaves : List (Leaf Settings) :=
  [⟨"workspace_root", Value.asText, ".", Settings.workspaceRoot⟩,
    ⟨"base_ref", Value.asText, "main", Settings.baseRef⟩,
    ⟨"head_ref", Value.asText, "HEAD", Settings.headRef⟩,
    ⟨"fail_on_issue", Value.asBool, true, Settings.failOnIssue⟩]

/-- All options. -/
def options : List Setting :=
  plainLeaves.map (fun leaf => ⟨none, leaf⟩)
    ++ ScanSettings.leaves.map (fun leaf => ⟨some "scan", leaf.within Settings.scan⟩)
    ++ CheckerSettings.leaves.map (fun leaf => ⟨some "checker", leaf.within Settings.checker⟩)
    ++ ReportSettings.leaves.map (fun leaf => ⟨some "report", leaf.within Settings.report⟩)
    ++ LogSettings.leaves.map (fun leaf => ⟨some "logging", leaf.within Settings.logging⟩)

/-- The places of the fields of settings, those of a section in its place. -/
def placesOf (fields : Fields) : List Place :=
  fields.flatMap fun (name, value) =>
    match value with
    | .object inner => inner.map fun entry => ⟨some name, entry.1⟩
    | _ => [⟨none, name⟩]

/-- The options are all that settings have. -/
theorem places_options (settings : Settings) :
    options.map Setting.place = placesOf settings.fields := rfl

/-- A section of settings whose options are valid is found. -/
theorem part_of_checks {σ : Type} {leaves : List (Leaf σ)} {check : Fields → Checked σ}
    (hchecks : Checks leaves check) {name : String} (hname : name ∈ sections.map (·.name))
    {fields : Fields} (hfields : Sectioned fields)
    (h : ∀ leaf ∈ leaves, (leaf.ofValue (valueAt fields ⟨some name, leaf.name⟩)).IsValid) :
    ∃ s, Settings.part name check fields = .valid s ∧
      ∀ leaf ∈ leaves, leaf.ofValue (valueAt fields ⟨some name, leaf.name⟩) = .valid (leaf.get s) := by
  obtain ⟨part, hpart, rfl⟩ := List.mem_map.mp hname
  simp only [valueAt] at h ⊢
  rw [Settings.part]
  cases hvalue : fields.get? part.name with
  | none =>
    simp only [hvalue] at h
    obtain ⟨s, hcheck, hleaves⟩ := hchecks [] h
    exact ⟨s, congrArg (Checked.within _) hcheck, hleaves⟩
  | some value =>
    obtain ⟨inner, rfl⟩ := hfields part hpart value hvalue
    simp only [hvalue] at h
    obtain ⟨s, hcheck, hleaves⟩ := hchecks inner h
    exact ⟨s, congrArg (Checked.within _) hcheck, hleaves⟩

/-- With all sections valid, the settings are checked leaf by leaf at the top. -/
theorem plain_checks {fields : Fields}
    (h : ∀ leaf ∈ plainLeaves, (leaf.ofValue (fields.get? leaf.name)).IsValid)
    {scan : ScanSettings} {checker : CheckerSettings} {report : ReportSettings} {logging : LogSettings}
    (hscan : Settings.part "scan" ScanSettings.check fields = .valid scan)
    (hchecker : Settings.part "checker" CheckerSettings.check fields = .valid checker)
    (hreport : Settings.part "report" ReportSettings.check fields = .valid report)
    (hlogging : Settings.part "logging" LogSettings.check fields = .valid logging) :
    ∃ settings, Settings.check fields = .valid settings ∧
      (∀ leaf ∈ plainLeaves, leaf.ofValue (fields.get? leaf.name) = .valid (leaf.get settings)) ∧
      settings.scan = scan ∧ settings.checker = checker ∧ settings.report = report ∧
        settings.logging = logging := by
  simp only [plainLeaves, List.forall_mem_cons] at h ⊢
  obtain ⟨⟨a, ha⟩, ⟨b, hb⟩, ⟨c, hc⟩, ⟨d, hd⟩, -⟩ := h
  refine ⟨⟨a, b, c, d, scan, checker, report, logging⟩, ?_, ⟨ha, hb, hc, hd, List.forall_mem_nil _⟩,
    rfl, rfl, rfl, rfl⟩
  simp only [Settings.check, Leaf.optional_of_ofValue ha, Leaf.optional_of_ofValue hb,
    Leaf.optional_of_ofValue hc, Leaf.optional_of_ofValue hd, hscan, hchecker, hreport, hlogging,
    Checked.map_valid, Checked.seq_valid]

/-- Settings with valid options are found, and each option has what was found at its place. -/
theorem check_of_options {fields : Fields} (hfields : Sectioned fields)
    (h : ∀ option ∈ options, (option.leaf.ofValue (valueAt fields option.place)).IsValid) :
    ∃ settings, Settings.check fields = .valid settings ∧ ∀ option ∈ options,
      option.leaf.ofValue (valueAt fields option.place) = .valid (option.leaf.get settings) := by
  simp only [options, List.forall_mem_append, List.forall_mem_map] at h ⊢
  obtain ⟨⟨⟨⟨hplain, hscan⟩, hchecker⟩, hreport⟩, hlogging⟩ := h
  obtain ⟨scan, hscan, hscans⟩ := part_of_checks ScanSettings.checks (by decide) hfields hscan
  obtain ⟨checker, hchecker, hcheckers⟩ :=
    part_of_checks CheckerSettings.checks (by decide) hfields hchecker
  obtain ⟨report, hreport, hreports⟩ := part_of_checks ReportSettings.checks (by decide) hfields hreport
  obtain ⟨logging, hlogging, hloggings⟩ := part_of_checks LogSettings.checks (by decide) hfields hlogging
  obtain ⟨settings, hcheck, hplains, rfl, rfl, rfl, rfl⟩ :=
    plain_checks hplain hscan hchecker hreport hlogging
  exact ⟨settings, hcheck, ⟨⟨⟨hplains, hscans⟩, hcheckers⟩, hreports⟩, hloggings⟩

end Config

end ClarityDelta
