import ClarityDelta.Proofs.Cli.Collaborators
import ClarityDelta.Proofs.Report.Writing

/-!
# The command that verifies and reports

The exit code tells what a run came to: 2 when a report could not be written, 1 when something is not
verified and that counts, 0 otherwise. With 0 and 1 the reports stand where they were to be written. The
one that is written first is there although its writing is noted behind it: the note goes to the log,
and may lead to log files being set aside, so its place must not be among theirs.
-/

namespace ClarityDelta

open Config Files FileTree FileWork Logging Pipeline Report

namespace Cli

/-- Writing the reports fails: the first one cannot be written, or else the other one, if there is to
be one, once the first is written and that is noted. -/
def ReportsFail (settings : Settings) (outcome : Outcome) (w : Workspace) : Prop :=
  outcome.status ≠ .noChanges ∧
    ((∃ target cause, (writeSarif settings outcome.findings settings.report.sarifPath w).1 =
        .error (.report target cause)) ∨
      ∃ written w₁ w₂ path target cause,
        writeSarif settings outcome.findings settings.report.sarifPath w = (.ok written, w₁) ∧
        say programLogger (.info s!"SARIF 报告已写入: {written}") w₁ = (.ok (), w₂) ∧
        nonEmpty? settings.report.summaryPath = some path ∧
        (Report.write path outcome.summary w₂).1 = .error (.report target cause))

/-- A file with a text stands at a location. -/
def Holds (tree : FileTree) (location : Location) (text : String) : Prop :=
  ∃ file, tree.file? location = some file ∧ file.content = text.toUTF8

variable {current : Location} {zone : Location → Prop} {settings : Settings} {outcome : Outcome}
  {w : Workspace}

/-- The first report is printed, and written then. -/
theorem writeSarif_apply (settings : Settings) (findings : List Finding) (path : String)
    (w : Workspace) :
    writeSarif settings findings path w =
      match Sarif.text findings settings.report.toolName settings.report.toolVersion with
      | .ok text => Report.write path text w
      | .error long => (.error (.unprintable long), w) := by
  rw [writeSarif, Action.bind_apply]
  cases Sarif.text findings settings.report.toolName settings.report.toolVersion with
  | ok text => rfl
  | error long => rfl

/-- Where a text was written, it stands. -/
theorem holds_of_wrote {tree after : FileTree} {location : Location} {text : String}
    (h : Wrote location text.toUTF8 tree after) : Holds after location text := by
  obtain ⟨file, hfile, hcontent, -⟩ := h.look_eq
  exact ⟨file, file?_eq_some_iff.mpr hfile, hcontent⟩

/-- A text goes on standing at a location that looks the same. -/
theorem Holds.of_look_eq {tree after : FileTree} {location : Location} {text : String}
    (h : Holds tree location text) (hlook : after.look location = tree.look location) :
    Holds after location text := by
  obtain ⟨file, hfile, hcontent⟩ := h
  rw [file?_eq_some_iff, ← hlook, ← file?_eq_some_iff] at hfile
  exact ⟨file, hfile, hcontent⟩

/-- A text goes on standing when directories are made. -/
theorem Holds.of_grew {tree after : FileTree} {location : Location} {text : String}
    (h : Holds tree location text) (hgrew : tree.Grew after) : Holds after location text := by
  obtain ⟨file, hfile, hcontent⟩ := h
  exact ⟨file, file?_eq_some_iff.mpr (hgrew.look_file.mpr (file?_eq_some_iff.mp hfile)), hcontent⟩

/-- With the first report written and noted, the reports fail exactly if the other one does. -/
theorem reportsFail_iff {written : String} {w₁ w₂ : Workspace}
    (hchanges : outcome.status ≠ .noChanges)
    (hwrite : writeSarif settings outcome.findings settings.report.sarifPath w = (.ok written, w₁))
    (hsay : say programLogger (.info s!"SARIF 报告已写入: {written}") w₁ = (.ok (), w₂)) :
    ReportsFail settings outcome w ↔ ∃ path target cause,
      nonEmpty? settings.report.summaryPath = some path ∧
        (Report.write path outcome.summary w₂).1 = .error (.report target cause) := by
  constructor
  · rintro ⟨-, ⟨target, cause, herror⟩ | ⟨other, w₁', w₂', path, target, cause, hwrite', hsay', hrest⟩⟩
    · rw [hwrite] at herror
      cases herror
    · obtain ⟨hother, rfl⟩ := Prod.mk.inj (hwrite.symm.trans hwrite')
      obtain rfl := Except.ok.inj hother
      obtain ⟨-, rfl⟩ := Prod.mk.inj (hsay.symm.trans hsay')
      exact ⟨path, target, cause, hrest⟩
  · rintro ⟨path, target, cause, hrest⟩
    exact ⟨hchanges, Or.inr ⟨written, w₁, w₂, path, target, cause, hwrite, hsay, hrest⟩⟩

/-- The other report is written where it is asked for. -/
def writeSummary (settings : Settings) (outcome : Outcome) : Work Unit :=
  match nonEmpty? settings.report.summaryPath with
  | some path => discard (Report.write path outcome.summary)
  | none => pure ()

/-- Where something has changed, the first report is written and noted, and then the other one. -/
theorem writeReports_eq (hchanges : outcome.status ≠ .noChanges) :
    writeReports settings outcome = (do
      let written ← writeSarif settings outcome.findings settings.report.sarifPath
      say programLogger (.info s!"SARIF 报告已写入: {written}")
      writeSummary settings outcome) := by
  rw [writeReports, if_pos hchanges]
  rfl

/-- Behind the first report, which stays, the other one is written, unless a fault keeps it from
that. -/
theorem writeSummary_cases (outcome : Outcome) {location : Location} {text : String}
    (hcurrent : w.files.current = current) (hheld : Holds w.files location text)
    (hapart : ∀ path, nonEmpty? settings.report.summaryPath = some path →
      location ≠ locate current path) :
    (∃ fault last, writeSummary settings outcome w = (.error fault, last) ∧
      (fault.isOwn = true → ∃ path target cause,
        nonEmpty? settings.report.summaryPath = some path ∧
          (Report.write path outcome.summary w).1 = .error (.report target cause))) ∨
      ∃ last, writeSummary settings outcome w = (.ok (), last) ∧
        (¬ ∃ path target cause, nonEmpty? settings.report.summaryPath = some path ∧
          (Report.write path outcome.summary w).1 = .error (.report target cause)) ∧
        Holds last.files location text ∧
        ∀ path, nonEmpty? settings.report.summaryPath = some path →
          Holds last.files (locate current path) outcome.summary := by
  rw [writeSummary]
  rcases hpath : nonEmpty? settings.report.summaryPath with _ | path
  · refine Or.inr ⟨w, rfl, ?_, hheld, fun path hpath => by cases hpath⟩
    rintro ⟨path, target, cause, hno, -⟩
    cases hno
  · dsimp only
    rw [Action.discard_apply]
    obtain ⟨fault, files, hwrite, -, hown, -⟩ | ⟨middle, files, hgrew, -, hwrote, hwrite⟩ :=
      Report.write_ofString_cases path outcome.summary w
    · rw [hwrite]
      refine Or.inl ⟨fault, _, rfl, fun hisOwn => ?_⟩
      obtain ⟨cause, rfl⟩ := hown hisOwn
      exact ⟨path, _, cause, rfl, by rw [hwrite]⟩
    · rw [hwrite]
      rw [hcurrent] at hwrote
      refine Or.inr ⟨_, rfl, ?_, ?_, fun other hother => ?_⟩
      · rintro ⟨other, target, cause, hother, herror⟩
        obtain rfl := Option.some.inj hother
        rw [hwrite] at herror
        cases herror
      · exact (hheld.of_grew hgrew).of_look_eq (hwrote.look_of_ne _ (hapart path hpath))
      · obtain rfl := Option.some.inj hother
        exact holds_of_wrote hwrote

/-- The reports are written where something has changed, unless a fault keeps them from it. -/
theorem writeReports_cases (outcome : Outcome) (h : LogsConfined current zone w)
    (hsarif : ¬ zone (locate current settings.report.sarifPath))
    (hsummary : ∀ path, nonEmpty? settings.report.summaryPath = some path →
      locate current settings.report.sarifPath ≠ locate current path) :
    (∃ fault last, writeReports settings outcome w = (.error fault, last) ∧
      (fault.isOwn = true → ReportsFail settings outcome w)) ∨
      ∃ last, writeReports settings outcome w = (.ok (), last) ∧ ¬ ReportsFail settings outcome w ∧
        (outcome.status = .noChanges → last = w) ∧
        (outcome.status ≠ .noChanges →
          (∃ text, Sarif.text outcome.findings settings.report.toolName settings.report.toolVersion =
              .ok text ∧
            Holds last.files (locate current settings.report.sarifPath) text) ∧
          ∀ path, nonEmpty? settings.report.summaryPath = some path →
            Holds last.files (locate current path) outcome.summary) := by
  by_cases hchanges : outcome.status = .noChanges
  · rw [writeReports, if_neg (not_not_intro hchanges)]
    exact Or.inr ⟨w, rfl, fun hfail => hfail.1 hchanges, fun _ => rfl, fun hne => absurd hchanges hne⟩
  rw [writeReports_eq hchanges, Action.bind_apply]
  rcases hprinted : Sarif.text outcome.findings settings.report.toolName settings.report.toolVersion
    with long | text
  · rw [writeSarif_apply, hprinted]
    exact Or.inl ⟨_, w, rfl, fun hown => (by cases hown)⟩
  have hsame : writeSarif settings outcome.findings settings.report.sarifPath w =
      Report.write settings.report.sarifPath text w := by
    rw [writeSarif_apply, hprinted]
  obtain ⟨fault, files, hwrite, -, hown, -⟩ | ⟨middle, files, hgrew, -, hwrote, hwrite⟩ :=
    Report.write_ofString_cases settings.report.sarifPath text w
  · rw [hsame, hwrite]
    refine Or.inl ⟨fault, _, rfl, fun hisOwn => ⟨hchanges, Or.inl ?_⟩⟩
    obtain ⟨cause, rfl⟩ := hown hisOwn
    exact ⟨_, cause, by rw [hsame, hwrite]⟩
  · have hfirst : writeSarif settings outcome.findings settings.report.sarifPath w =
        (.ok (Path.ofText settings.report.sarifPath).text, { w with files := files }) :=
      hsame.trans hwrite
    rw [hfirst]
    dsimp only
    rw [Action.bind_apply]
    have hwritten : Confined current zone (SameOutside zone files) { w with files := files } :=
      (h.of_stays (hgrew.stays.trans hwrote.stays) trivial).mono fun _ => SameOutside.refl zone files
    have hnote : ∀ message, Upholds (Confined current zone (SameOutside zone files)) Foreign
        (say programLogger message) := say_upholds (Lasting.sameOutside zone files) programLogger
    -- noting comes between the two reports, and may set log files aside
    rcases hsay : say programLogger _ { w with files := files } with ⟨fault | ⟨⟩, noted⟩
    · have hforeign := ((hnote _).of_error hwritten hsay).2
      refine Or.inl ⟨fault, noted, rfl, fun hown => ?_⟩
      rw [hforeign] at hown
      cases hown
    · have hnoted := (hnote _).of_ok hwritten hsay
      rw [h.current_eq] at hwrote
      rw [reportsFail_iff hchanges hfirst hsay]
      have hheld := (holds_of_wrote hwrote).of_look_eq (hnoted.kept.look_eq _ hsarif)
      dsimp only
      obtain hfault | ⟨last, hlast, hwell, hkept, hother⟩ :=
        writeSummary_cases outcome hnoted.current_eq hheld hsummary
      · exact Or.inl hfault
      · exact Or.inr ⟨last, hlast, hwell, fun hno => absurd hno hchanges,
          fun _ => ⟨⟨text, rfl, hkept⟩, hother⟩⟩

/-! ## The command -/

/-- Showing an outcome changes no file and cannot fail. -/
theorem displayOutcome_upholds (tree : FileTree) (outcome : Outcome) :
    Upholds (fun w => w.files = tree) (fun _ => False) (displayOutcome outcome) := by
  have hdisplay : ∀ shown, Upholds (fun w => w.files = tree) (fun _ => False) (Work.display shown) :=
    fun _ => Upholds.modify fun _ h => h
  rw [displayOutcome]
  dsimp only
  split
  · refine Upholds.bind (hdisplay _) fun _ => ?_
    split
    · exact Upholds.bind (hdisplay _) fun _ => hdisplay _
    · exact hdisplay _
  · split
    · exact Upholds.bind (hdisplay _) fun _ => hdisplay _
    · exact hdisplay _

/-- A command that comes to its end has set up its logger and either reported a run, or shown that
this failed. -/
theorem run_cases {options : RunOptions} {loaded settings : Settings} {code : Nat}
    (hload : (load [] w).1 = .ok loaded) (hsettings : settings = withRunOptions loaded options)
    (hcode : (run options w).1 = .ok code) :
    ∃ before root, setUp programLogger (.ofSettings settings true) (load [] w).2 = (.ok (), before) ∧
      root = locationText (locate before.files.current settings.workspaceRoot) ∧
      ((∃ fault last, runReported settings root options.files before = (.error fault, last) ∧
          fault.isOwn = true ∧ code = 2 ∧ (run options w).2.files = last.files) ∨
        ∃ outcome last, runReported settings root options.files before = (.ok outcome, last) ∧
          code = (if outcome.shouldFail settings.failOnIssue then 1 else 0) ∧
          (run options w).2.files = last.files) := by
  rw [run] at hcode ⊢
  obtain ⟨other, w₁, hload₁, hrun⟩ := Action.of_bind_ok hcode
  rw [hload₁] at hload ⊢
  obtain rfl : other = loaded := Except.ok.inj hload
  rw [hrun, ← hsettings] at hcode ⊢
  obtain ⟨⟨⟩, before, hsetUp, hrun⟩ := Action.of_bind_ok hcode
  rw [hrun, Action.get_bind_apply] at hcode ⊢
  generalize hroot : locationText (locate before.files.current settings.workspaceRoot) = root
    at hcode ⊢
  rw [attempt_bind_apply] at hcode ⊢
  refine ⟨before, root, hsetUp, hroot.symm, ?_⟩
  rcases hreported : runReported settings root options.files before with ⟨fault | outcome, last⟩
  · rw [hreported] at hcode
    dsimp only at hcode ⊢
    by_cases hown : fault.isOwn = true
    · have hforeign : ¬ (!fault.isOwn) = true := by rw [hown]; decide
      rw [if_neg hforeign] at hcode ⊢
      exact Or.inl ⟨fault, last, rfl, hown, (Except.ok.inj hcode).symm, rfl⟩
    · have hforeign : (!fault.isOwn) = true := by simpa using hown
      rw [if_pos hforeign] at hcode
      cases hcode
  · rw [hreported] at hcode
    dsimp only at hcode ⊢
    have hdisplay := displayOutcome_upholds last.files outcome
    obtain ⟨⟨⟩, shown, hshown, hrun⟩ := Action.of_bind_ok hcode
    rw [hrun] at hcode ⊢
    exact Or.inr ⟨outcome, last, rfl, (Except.ok.inj hcode).symm, hdisplay.of_ok rfl hshown⟩

/-- Where the log that settings ask for is written and set aside, if they ask for one. -/
def logPlaces (current : Location) (settings : Settings) (location : Location) : Prop :=
  let options := LoggerOptions.ofSettings settings true
  options.filePath ≠ "" ∧ LogZone current options.filePath options.backupCount location

/-- A run of the pipeline is reported: what the exit code says of it, and what the reports hold. -/
structure Reported (current : Location) (settings : Settings) (failOnIssue : Bool)
    (outcome : Outcome) (after : Workspace) (code : Nat) (files : FileTree) : Prop where
  code_cases : code = 0 ∨ code = 1 ∨ code = 2
  code_two_iff : code = 2 ↔ ReportsFail settings outcome after
  code_one_iff : code ≠ 2 →
    (code = 1 ↔ failOnIssue = true ∧ ∃ result ∈ outcome.results, result.verified = false)
  files_eq : outcome.status = .noChanges → files = after.files
  sarif : outcome.status ≠ .noChanges → code ≠ 2 →
    ∃ text, Sarif.text (Finding.ofResults outcome.results) settings.report.toolName
        settings.report.toolVersion = .ok text ∧
      Holds files (locate current settings.report.sarifPath) text
  summary : outcome.status ≠ .noChanges → code ≠ 2 →
    ∀ path, nonEmpty? settings.report.summaryPath = some path →
      ∃ text, Summary.text outcome.results = .ok text ∧ Holds files (locate current path) text

/-- A run is to fail exactly when failing on issues was asked for and some function is not verified. -/
theorem shouldFail_iff {c : Collaborators Workspace} {files : Option (List String)}
    {failOnIssue : Bool} (h : (Pipeline.run c settings files w).1 = .ok outcome) :
    outcome.shouldFail failOnIssue = true ↔
      failOnIssue = true ∧ ∃ result ∈ outcome.results, result.verified = false := by
  rcases outcome_cases h with rfl | ⟨changed, jobs, results, summary, rfl⟩
  · simp [Outcome.shouldFail, Outcome.noChanges]
  · have hany : results.any (!·.verified) = true ↔ ∃ result ∈ results, result.verified = false := by
      simp
    rw [Outcome.shouldFail, Bool.and_eq_true, decide_eq_true_eq]
    refine and_congr_right fun _ => ?_
    show Outcome.statusOf results = .failure ↔ ∃ result ∈ results, result.verified = false
    rw [← hany, Outcome.statusOf]
    split
    · next h => exact ⟨fun _ => h, fun _ => rfl⟩
    · next h => exact ⟨fun hno => (by cases hno), fun hno => absurd hno h⟩

/-- A run with changes reports the findings of its results and the summary of them. -/
theorem reports_of_changes {c : Collaborators Workspace} {files : Option (List String)}
    (h : (Pipeline.run c settings files w).1 = .ok outcome) (hchanges : outcome.status ≠ .noChanges) :
    outcome.findings = Finding.ofResults outcome.results ∧
      Summary.text outcome.results = .ok outcome.summary := by
  obtain ⟨course, rfl, -⟩ := exists_course h
  rw [Checking.outcome] at hchanges ⊢
  split
  · next hempty =>
    rw [if_pos hempty] at hchanges
    exact absurd rfl hchanges
  · exact ⟨rfl, course.checking.summary_eq⟩

/-- Where a report cannot be written, the exit code is 2. -/
theorem reported_of_fail {after : Workspace} {failOnIssue : Bool} {files : FileTree}
    (h : ReportsFail settings outcome after) :
    Reported current settings failOnIssue outcome after 2 files where
  code_cases := Or.inr (Or.inr rfl)
  code_two_iff := ⟨fun _ => h, fun _ => rfl⟩
  code_one_iff hne := absurd rfl hne
  files_eq hno := absurd hno h.1
  sarif _ hne := absurd rfl hne
  summary _ hne := absurd rfl hne

/-- Where all reports are written, the exit code says whether a failure counts, and the reports hold
what the run came to. -/
theorem reported_of_written {c : Collaborators Workspace} {targets : Option (List String)}
    {after last : Workspace} {failOnIssue : Bool}
    (hrun : (Pipeline.run c settings targets w).1 = .ok outcome)
    (hwell : ¬ ReportsFail settings outcome after)
    (hsame : outcome.status = .noChanges → last = after)
    (hheld : outcome.status ≠ .noChanges →
      (∃ text, Sarif.text outcome.findings settings.report.toolName settings.report.toolVersion =
          .ok text ∧
        Holds last.files (locate current settings.report.sarifPath) text) ∧
      ∀ path, nonEmpty? settings.report.summaryPath = some path →
        Holds last.files (locate current path) outcome.summary) :
    Reported current settings failOnIssue outcome after
      (if outcome.shouldFail failOnIssue then 1 else 0) last.files where
  code_cases := by split <;> simp
  code_two_iff := by
    refine ⟨fun htwo => ?_, fun hfails => absurd hfails hwell⟩
    split at htwo <;> cases htwo
  code_one_iff _ := by
    rw [← shouldFail_iff hrun]
    split
    · next h => exact ⟨fun _ => h, fun _ => rfl⟩
    · next h => exact ⟨fun hno => (by cases hno), fun hno => absurd hno h⟩
  files_eq hno := congrArg Workspace.files (hsame hno)
  sarif hchanges _ := (reports_of_changes hrun hchanges).1 ▸ (hheld hchanges).1
  summary hchanges _ path hpath :=
    ⟨_, (reports_of_changes hrun hchanges).2, (hheld hchanges).2 path hpath⟩

/-- The run comes first, and its reports are written then. -/
theorem runReported_apply (settings : Settings) (root : String) (files : List String)
    (w : Workspace) :
    runReported settings root files w =
      match Pipeline.run (collaborators settings root) settings
        (if files.isEmpty then none else some files) w with
      | (.ok outcome, after) => match writeReports settings outcome after with
        | (.ok _, last) => (.ok outcome, last)
        | (.error fault, last) => (.error fault, last)
      | (.error fault, last) => (.error fault, last) := by
  rw [runReported, Action.bind_apply]
  rcases Pipeline.run _ _ _ w with ⟨fault | outcome, after⟩
  · rfl
  · dsimp only
    rw [Action.bind_apply]
    rcases writeReports settings outcome after with ⟨fault | ⟨⟩, last⟩
    · rfl
    · rfl

/-- The command that verifies tells by its exit code what it came to, and leaves its reports in their
places, unless the first one is where the log is written or set aside. -/
theorem run_reported {words : List String} {options : RunOptions} {loaded settings : Settings}
    {code : Nat} (hwords : request false words = .command (.run options))
    (hsound : w.files.Sound) (hfresh : ∀ logger ∈ w.loggers, logger.handlers = [])
    (hload : (load [] w).1 = .ok loaded) (hsettings : settings = withRunOptions loaded options)
    (hcode : (carryOut words w).1 = .ok code)
    (hsummary : ∀ path, nonEmpty? settings.report.summaryPath = some path →
      locate w.files.current settings.report.sarifPath ≠ locate w.files.current path)
    (hlog : ¬ logPlaces w.files.current settings
      (locate w.files.current settings.report.sarifPath)) :
    ∃ before outcome after,
      setUp programLogger (.ofSettings settings true) (load [] w).2 = (.ok (), before) ∧
      Pipeline.run
        (collaborators settings (locationText (locate w.files.current settings.workspaceRoot)))
        settings (if options.files.isEmpty then none else some options.files) before =
          (.ok outcome, after) ∧
      Reported w.files.current settings (options.failOnIssue.getD loaded.failOnIssue) outcome after
        code (carryOut words w).2.files := by
  have hrun : carryOut words w = run options w := by
    rw [carryOut, hwords]
    rfl
  rw [hrun] at hcode ⊢
  have hstart : LogsConfined w.files.current (logPlaces w.files.current settings) w := by
    refine ⟨hsound, rfl, fun logger hlogger sink hsink => ?_, trivial⟩
    rw [hfresh logger hlogger] at hsink
    cases hsink
  -- loading, setting up and the run all keep the log in its places
  have hloaded := (load_confined []).after hstart
  obtain ⟨before, root, hsetUp, hroot, hcases⟩ := run_cases hload hsettings hcode
  have hbefore : LogsConfined w.files.current (logPlaces w.files.current settings) before :=
    (setUp_upholds fun hne l hl => ⟨hne, hl⟩).of_ok hloaded hsetUp
  have hconfined : Upholds (LogsConfined w.files.current (logPlaces w.files.current settings)) Foreign
      (Pipeline.run (collaborators settings root) settings
        (if options.files.isEmpty then none else some options.files)) :=
    run_confined settings root _
  rw [runReported_apply] at hcases
  rw [hbefore.current_eq] at hroot
  rw [← hroot]
  rcases hpipeline : Pipeline.run (collaborators settings root) settings
    (if options.files.isEmpty then none else some options.files) before with ⟨fault | outcome, after⟩
  · -- a run fails with foreign faults only, and the command does not end with an exit code then
    rw [hpipeline] at hcases
    have hforeign : Foreign fault := (hconfined.of_error hbefore hpipeline).2
    rcases hcases with ⟨_, _, heq, hown, -⟩ | ⟨_, _, heq, -⟩
    · obtain rfl := Except.error.inj (Prod.mk.inj heq).1
      rw [hforeign] at hown
      cases hown
    · cases (Prod.mk.inj heq).1
  · rw [hpipeline] at hcases
    dsimp only at hcases
    have hafter := hconfined.of_ok hbefore hpipeline
    refine ⟨before, outcome, after, hsetUp, hpipeline, ?_⟩
    obtain ⟨fault, last, hreports, hfail⟩ | ⟨last, hreports, hwell, hsame, hheld⟩ :=
      writeReports_cases outcome hafter hlog hsummary
    · rw [hreports] at hcases
      rcases hcases with ⟨_, _, heq, hown, rfl, -⟩ | ⟨_, _, heq, -⟩
      · obtain rfl := Except.error.inj (Prod.mk.inj heq).1
        exact reported_of_fail (hfail hown)
      · cases (Prod.mk.inj heq).1
    · rw [hreports] at hcases
      rcases hcases with ⟨_, _, heq, -⟩ | ⟨_, _, heq, rfl, hfiles⟩
      · cases (Prod.mk.inj heq).1
      · obtain ⟨hok, rfl⟩ := Prod.mk.inj heq
        obtain rfl := Except.ok.inj hok
        have hfailOnIssue : settings.failOnIssue = options.failOnIssue.getD loaded.failOnIssue := by
          rw [hsettings]
          rfl
        rw [hfiles, hfailOnIssue]
        exact reported_of_written (congrArg Prod.fst hpipeline) hwell hsame hheld

/-! ## A log that is almost full -/

/-- A workspace where a function is new in `a.clar`, of which there is no syntax tree, and where the
next to last line of a run still fits into the log. -/
def fullLog : Workspace where
  files := (writeText "app.log" (String.ofList (List.replicate 994 'x')) (.empty ["w"])).2
  environment :=
    [("CLARITY_VERIFY_LOGGING__LOG_TO_CONSOLE", "0"),
      ("CLARITY_VERIFY_LOGGING__FILE_PATH", "app.log"),
      ("CLARITY_VERIFY_LOGGING__MAX_BYTES", "1024"),
      ("CLARITY_VERIFY_LOGGING__LOG_FORMAT", "%(levelno)s")]
  answer _ call :=
    if call.command.getLast? = some "HEAD:a.clar" then
      .finished 0 "(define-public (f) (ok u1))" ""
    else .finished 128 "" "fatal: no such thing"
  calls := []
  loggers := []
  console := []
  shown := []

/-- What is set in that workspace. -/
def fullLogSettings : Settings where
  workspaceRoot := "."
  baseRef := "main"
  headRef := "HEAD"
  failOnIssue := true
  scan := ⟨["./"], [], false⟩
  checker := ⟨defaultBaselineFlags, "--verbose", "ghcr.io/companyx/clarity-esbmc",
    "ghcr.io/companyx/clarity-ast-generator", "v1.0.0", "docker", false, none⟩
  report := ⟨"results.sarif", none, "ESBMC Clarity Formal Verification", "1.0.0"⟩
  logging := ⟨false, "INFO", "app.log", 1024, 5, "%(levelno)s", "%Y-%m-%d %H:%M:%S"⟩

/-- A command line for a run of one file with reports in the given places. -/
def reportsTo (sarif : String) (summary : Option String) : RunOptions where
  range := ⟨none, none, none, none⟩
  failOnIssue := none
  flags := none
  sarif := some sarif
  summary := summary
  files := ["a.clar"]

/-- The settings are read there from the environment and the defaults. -/
theorem load_fullLog : (load [] fullLog).1 = .ok fullLogSettings := by
  decide +kernel

/-- The files of that workspace are a sound tree. -/
theorem sound_fullLog : fullLog.files.Sound :=
  write_sound "app.log" _ (sound_empty (by decide))

/-- The working directory there is `/w`. -/
theorem current_fullLog : fullLog.files.current = ["w"] := by
  decide +kernel

/-- Reports elsewhere than by the log stay in their places, although the log is set aside. -/
theorem run_reported_fullLog :
    let words := ["run", "a.clar", "--sarif", "out/r.sarif", "--summary", "out/s.md"]
    let settings := withRunOptions fullLogSettings (reportsTo "out/r.sarif" (some "out/s.md"))
    ∃ before outcome after,
      setUp programLogger (.ofSettings settings true) (load [] fullLog).2 = (.ok (), before) ∧
      Pipeline.run (collaborators settings (locationText (locate fullLog.files.current "."))) settings
        (some ["a.clar"]) before = (.ok outcome, after) ∧
      Reported fullLog.files.current settings true outcome after 0
        (carryOut words fullLog).2.files := by
  intro words settings
  have hwords : request false words =
      .command (.run (reportsTo "out/r.sarif" (some "out/s.md"))) := by
    decide +kernel
  have hcode : (carryOut words fullLog).1 = .ok 0 := by
    decide +kernel
  have hsarif : locate ["w"] settings.report.sarifPath = ["w", "out", "r.sarif"] := by
    decide +kernel
  refine run_reported hwords sound_fullLog (fun _ h => by cases h) load_fullLog rfl hcode ?_ ?_
  · intro path hpath
    obtain rfl : "out/s.md" = path := Option.some.inj (Eq.trans (by decide +kernel) hpath)
    rw [current_fullLog]
    decide +kernel
  · rw [current_fullLog, hsarif]
    rintro ⟨-, hlog | ⟨n, -, -, hbackup⟩⟩
    · revert hlog
      decide +kernel
    · have hplace : locate ["w"] (LoggerOptions.ofSettings settings true).filePath =
          ["w"] ++ ["app.log"] := by
        decide +kernel
      rw [backupPlace_eq (by decide) hplace] at hbackup
      have hname : "app.log" ++ "." ++ String.ofList (Text.decimal n) = "out" := by
        simpa using hbackup
      have hhead := congrArg (fun name => name.toList.head?) hname
      simp at hhead

/-- A report below a name under which the log is set aside does not stay in its place, although the run
is a success. -/
theorem not_holds_fullLog :
    let words := ["run", "a.clar", "--sarif", "app.log.1/r.sarif"]
    let settings := withRunOptions fullLogSettings (reportsTo "app.log.1/r.sarif" none)
    locate fullLog.files.current settings.report.sarifPath ≠
        locate fullLog.files.current (LoggerOptions.ofSettings settings true).filePath ∧
      (carryOut words fullLog).1 = .ok 0 ∧
      (∃ outcome, (Pipeline.run (collaborators settings "/w") settings (some ["a.clar"])
          (setUp programLogger (.ofSettings settings true) (load [] fullLog).2).2).1 = .ok outcome ∧
        outcome.status = .success) ∧
      ∀ text, ¬ Holds (carryOut words fullLog).2.files
        (locate fullLog.files.current settings.report.sarifPath) text := by
  intro words settings
  rw [current_fullLog]
  obtain ⟨hapart, hcode, hstatus, hnone⟩ :
      locate ["w"] settings.report.sarifPath ≠
        locate ["w"] (LoggerOptions.ofSettings settings true).filePath ∧
      (carryOut words fullLog).1 = .ok 0 ∧
      ((Pipeline.run (collaborators settings "/w") settings (some ["a.clar"])
        (setUp programLogger (.ofSettings settings true) (load [] fullLog).2).2).1.toOption.map
          (·.status)) = some .success ∧
      ((carryOut words fullLog).2.files.file? (locate ["w"] settings.report.sarifPath)).isNone =
        true := by
    decide +kernel
  refine ⟨hapart, hcode, ?_, ?_⟩
  · rcases hrun : Pipeline.run (collaborators settings "/w") settings (some ["a.clar"])
      (setUp programLogger (.ofSettings settings true) (load [] fullLog).2).2 with
      ⟨fault | outcome, after⟩
    · rw [hrun] at hstatus
      cases hstatus
    · rw [hrun] at hstatus
      exact ⟨outcome, rfl, Option.some.inj hstatus⟩
  · rintro text ⟨file, hfile, -⟩
    rw [hfile] at hnone
    cases hnone

end Cli

end ClarityDelta
