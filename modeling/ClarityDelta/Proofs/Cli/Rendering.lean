import ClarityDelta.Proofs.Cli.Detection
import ClarityDelta.Proofs.Pipeline.Plain

/-!
# Texts of others on the console

The commands show and note texts that others have made: names of files and functions, answers of other
programs, and what the checker tells of a failure. Some of them are escaped and some are not. Where names
and places close nothing, and that is asked of names and places only, everything that is noted or shown
can be rendered, `carryOut_renders`. A file whose name holds a closing tag is enough to make a command
fail, `markup_of_bracketed`.
-/

namespace ClarityDelta

open Change Config Container Files Invocation Logging Pipeline Report Revision Source Terminal
  Terminal.Markup Text Verification

/-! ## Answers of other programs -/

/-- A list of files in which all names of contracts close nothing. -/
def PlainListing (out : String) : Prop :=
  ∀ line ∈ listing out.toList, endsWith contractSuffix.toList (trim line) = true →
    ClosesNothing (String.ofList (trim line))

instance (out : String) : Decidable (PlainListing out) :=
  inferInstanceAs (Decidable (∀ line ∈ _, _ → _))

/-- Programs that list, show and tell names that close nothing. Whatever else they say, and what the
generator of syntax trees says, is left to them. -/
structure PlainAnswers (w : Workspace) : Prop where
  listed : ∀ calls base head directory limit code out err,
    w.answer calls ⟨["git", "diff", "--name-only", base, head], directory, limit⟩ =
      .finished code out err → PlainListing out
  shown : ∀ calls object directory limit code out err,
    w.answer calls ⟨["git", "show", object], directory, limit⟩ = .finished code out err →
      PlainText out
  told : ∀ calls call code out err, "--clar" ∈ call.command →
    w.answer calls call = .finished code out err → PlainOutput out

/-- A workspace where all that is shown can be rendered, with programs that answer with plain names. -/
structure Rendering (w : Workspace) : Prop where
  answers : PlainAnswers w
  shown : ∀ thing ∈ w.shown, thing.Renders

/-- Files, loggers and calls do not show in what can be rendered. -/
theorem Rendering.steady : Steady Rendering where
  files _ _ _ h := ⟨⟨h.answers.listed, h.answers.shown, h.answers.told⟩, h.shown⟩
  loggers _ _ h := ⟨⟨h.answers.listed, h.answers.shown, h.answers.told⟩, h.shown⟩
  console _ _ h := ⟨⟨h.answers.listed, h.answers.shown, h.answers.told⟩, h.shown⟩
  calls _ _ h := ⟨⟨h.answers.listed, h.answers.shown, h.answers.told⟩, h.shown⟩

/-- What can be rendered may be shown. -/
theorem display_rendering {thing : Shown} (h : thing.Renders) (allowed : Fault → Prop) :
    Upholds Rendering allowed (Work.display thing) := by
  refine Upholds.modify fun w hw => ⟨⟨hw.answers.listed, hw.answers.shown, hw.answers.told⟩, ?_⟩
  refine List.forall_mem_append.2 ⟨hw.shown, fun other hother => ?_⟩
  rw [List.mem_singleton.1 hother]
  exact h

/-- A fault that is neither a fault of the markup nor reported as a failure of the program's own work. -/
def Quiet (fault : Fault) : Prop :=
  Foreign fault ∧ Unmarked fault

namespace Revision.Repository

/-- Asking the program keeps messages renderable, and its output is as all outputs that it answers the
call with successfully are. -/
theorem ask_rendering (repository : Repository) (arguments : List String) {given : String → Prop}
    (hgiven : ∀ w, Rendering w → ∀ code out err,
      w.answer w.calls ⟨repository.program :: arguments, repository.root, repository.limit⟩ =
        .finished code out err → given out) :
    Yields Rendering Quiet (fun reply => reply.1 = 0 → given reply.2.1)
      (repository.ask arguments) := by
  have hcall : Yields Rendering Quiet
      (fun answer => ∀ code out err, answer = .finished code out err → given out)
      (Work.call ⟨repository.program :: arguments, repository.root, repository.limit⟩) :=
    ⟨fun w hw => ⟨Rendering.steady.calls w _ hw, hgiven w hw⟩⟩
  refine Yields.bind hcall fun answer hanswer => ?_
  cases answer with
  | finished code out err => exact Yields.pure fun _ => hanswer code out err rfl
  | timedOut => exact Yields.pure fun hcode => absurd hcode (show (1 : Int) ≠ 0 by decide)
  | failed reason => exact Yields.pure fun hcode => absurd hcode (show (1 : Int) ≠ 0 by decide)

/-- A content that the program shows for plain names has plain headers. -/
theorem content_rendering (root logger : String) {revision path : String}
    (hrevision : ClosesNothing revision) (hpath : ClosesNothing path) :
    Yields Rendering Quiet (fun content => ∀ text ∈ content, PlainText text)
      ((Repository.usual root logger).content revision path) := by
  refine Yields.bind (ask_rendering _ _ fun w hw => hw.answers.shown _ _ _ _) fun reply hreply => ?_
  obtain ⟨code, out, err⟩ := reply
  dsimp only at hreply ⊢
  split
  · next hcode => exact Yields.pure fun text htext => Option.some.inj htext ▸ hreply hcode
  · refine Yields.after (Rendering.steady.say_of_renders Quiet ?_) fun _ => Yields.pure ?_
    · exact ((Finished.around (by decide) hpath (show Finishes "@" by decide)).around hrevision
        (show Finishes " 内容失败: " by decide)).renders_escape _
    · exact fun text htext => by cases htext

/-- The files that the program lists have plain names. -/
theorem modifiedFiles_rendering (root logger : String) (base head : String)
    (directories : List String) :
    Yields Rendering Quiet (fun files => ∀ file ∈ files, ClosesNothing file)
      ((Repository.usual root logger).modifiedFiles base head directories) := by
  refine Yields.bind (ask_rendering _ _ fun w hw => hw.answers.listed _ _ _ _ _) fun reply hreply => ?_
  obtain ⟨code, out, err⟩ := reply
  dsimp only at hreply ⊢
  split
  · next hcode =>
    refine Yields.get_bind fun w _ => Yields.pure fun file hfile => ?_
    obtain ⟨hmem, hkept⟩ := List.mem_filter.1 hfile
    obtain ⟨line, hline, rfl⟩ := List.mem_map.1 hmem
    rw [Bool.and_eq_true, String.toList_ofList] at hkept
    exact hreply hcode line hline hkept.1
  · refine Yields.after (Rendering.steady.say_of_renders Quiet ?_) fun _ => Yields.pure ?_
    · exact Finished.renders_escape (by decide) _
    · exact fun file hfile => by cases hfile

end Revision.Repository

namespace Container.Checker

/-- The arguments of the checker hold the switch `--clar`. -/
theorem clar_mem_of_arguments {file artifact function flags : String} {words : List String}
    (h : arguments file artifact function flags = .ok words) : "--clar" ∈ words := by
  rw [arguments] at h
  split at h
  · cases h
  · obtain rfl := Except.ok.inj h
    simp

end Container.Checker

/-! ## Settings and places -/

namespace Logging

/-- The warning about a log directory that cannot be made closes nothing when the path of the log does
not. -/
theorem closesNothing_noDirectoryText {path : String} (h : ClosesNothing path) {error : FileError}
    (herror : FileWork.FailsWithin (logDirectory path) error) :
    ClosesNothing (noDirectoryText error) := by
  have hdirectory : ClosesNothing (logDirectory path) := by
    rw [logDirectory]
    split
    · decide
    · exact h.part (directoryText_part path)
  exact Finished.append (by decide) (closesNothing_fileError (hdirectory.part herror.1.isInfix))

end Logging

namespace Report

/-- A fault that is none of the markup, and can be shown where the program reports it as its own. -/
def Mild (fault : Fault) : Prop :=
  Unmarked fault ∧ (fault.isOwn = true → ClosesNothing fault.message)

/-- A fault that is neither the program's own nor one of the markup is mild. -/
theorem Mild.of_quiet {fault : Fault} (h : Quiet fault) : Mild fault :=
  ⟨h.2, fun hown => by rw [h.1] at hown; cases hown⟩

/-- The path of a report that is written closes nothing, nor does the fault when it is not. -/
theorem write_rendering {path : String} (h : ClosesNothing (Path.ofText path).text)
    (text : Text.CodeText) : Yields Rendering Mild ClosesNothing (Report.write path text) := by
  have hparent := closesNothing_parent h
  have hfiles : Yields Rendering Mild
      (fun outcome => ∀ error, outcome = .error error → ClosesNothing error.path)
      (Work.tryFiles (FileWork.makeDirectories (Path.ofText path).parent.text >>= fun _ =>
        FileWork.writeCodes (Path.ofText path).text text)) := by
    have hblames : Upholds (fun _ => True) (fun error : FileError => ClosesNothing error.path)
        (FileWork.makeDirectories (Path.ofText path).parent.text >>= fun _ =>
          FileWork.writeCodes (Path.ofText path).text text) := by
      refine Upholds.bind ((makeDirectories_blames _).weaken ?_) fun _ =>
        (writeCodes_blames _ text).weaken ?_
      · exact fun error heq => heq ▸ hparent
      · exact fun error heq => heq ▸ h
    exact Rendering.steady.tryFiles_yields Mild
      (.andThen (makeDirectories_stationary _) fun _ => writeCodes_stationary _ text)
      fun _ _ herror => hblames.allowed_of_error trivial herror
  refine Yields.bind hfiles fun outcome houtcome => ?_
  rcases outcome with error | _ | fault
  · have hpath := houtcome error rfl
    dsimp only
    split
    · refine Yields.throw ⟨fun _ heq => (by cases heq), fun _ => ?_⟩
      exact (Finished.around (show Finished "Failed to write report " by decide) h
        (show Finishes ": " by decide)).append (closesNothing_fileError hpath)
    · exact Yields.throw (Mild.of_quiet ⟨rfl, fun _ heq => by cases heq⟩)
  · exact Yields.pure h
  · exact Yields.throw (Mild.of_quiet ⟨rfl, fun _ heq => by cases heq⟩)

end Report

/-- Settings whose revisions and log file have names that close nothing. -/
structure Config.Settings.PlainRange (settings : Settings) : Prop where
  baseRef : ClosesNothing settings.baseRef
  headRef : ClosesNothing settings.headRef
  logFile : ClosesNothing (LoggerOptions.ofSettings settings true).filePath

/-- Settings that name places for reports that close nothing as well. -/
structure Config.Settings.PlainRun (settings : Settings) : Prop extends settings.PlainRange where
  sarifPath : ClosesNothing (Path.ofText settings.report.sarifPath).text
  summaryPath : ∀ path, nonEmpty? settings.report.summaryPath = some path →
    ClosesNothing (Path.ofText path).text

namespace Cli

/-- The program's own collaborators answer with plain names. -/
theorem collaborators_plain (settings : Settings) (root : String) :
    (collaborators settings root).Plain Rendering Quiet where
  note message hmessage := Rendering.steady.say_of_renders Quiet hmessage
  modifiedFiles base head directories :=
    Repository.modifiedFiles_rendering root programLogger base head directories
  content _ _ hrevision hpath := Repository.content_rendering root programLogger hrevision hpath
  artifact _ hfile := TreeGenerator.artifact_steady Rendering.steady
    (fun _ hforeign hunmarked => ⟨hforeign, hunmarked⟩) (Or.inr hfile) _
  check file artifact function flags := by
    refine Checker.check_yields Rendering.steady _ _ _ _ _ fun w hw words hwords code out err => ?_
    exact hw.answers.told _ _ _ _ _ (List.mem_append_right _ (Checker.clar_mem_of_arguments hwords))

/-- Setting up a logger with a plain log path does not end with a fault of the markup. -/
theorem setUp_rendering {settings : Settings} (h : settings.PlainRange) :
    Upholds Rendering Unmarked (setUp programLogger (.ofSettings settings true)) := by
  refine Rendering.steady.setUp_upholds (fun _ hunmarked => hunmarked) ?_
  rintro error herror _ ⟨cause, hcause, rfl⟩
  obtain ⟨cs, hcs⟩ := (closesNothing_noDirectoryText h.logFile herror).renders
  rw [hcs] at hcause
  cases hcause

/-! ## What the commands show -/

/-- A line in a table closes nothing. -/
theorem closesNothing_lineCell (n : Int) : ClosesNothing (lineCell n) := by
  rw [lineCell]
  split
  · exact closesNothing_nat _
  · decide

/-- The identifier of a rule closes nothing. -/
theorem closesNothing_ruleId (rule : Rule) : ClosesNothing rule.id := by
  cases rule <;> decide

/-- A table renders if its title, its columns and all markup in its rows close nothing. -/
theorem table_renders {title : String} {columns : List String} {rows : List (List Cell)}
    (htitle : ClosesNothing title) (hcolumns : ∀ column ∈ columns, ClosesNothing column)
    (hrows : ∀ row ∈ rows, ∀ s, .markup s ∈ row → ClosesNothing s) :
    (Shown.table title columns rows).Renders := by
  refine ⟨htitle.renders, fun column hcolumn => (hcolumns column hcolumn).renders, ?_⟩
  intro row hrow cell hcell
  cases cell with
  | markup s => exact (hrows row hrow s hcell).renders
  | plain s => trivial

/-- The table of the failures of plain results can be rendered. -/
theorem failureTable_renders {results : List VerificationResult}
    (h : ∀ result ∈ results, result.Plain) : (failureTable results).Renders := by
  refine table_renders (by decide) (by decide) fun row hrow s hs => ?_
  obtain ⟨result, hresult, hrow⟩ := List.mem_flatMap.1 hrow
  obtain ⟨failure, hfailure, rfl⟩ := List.mem_map.1 hrow
  obtain ⟨hfunction, htitle⟩ := (h result hresult).failures failure hfailure
  obtain rfl | rfl | rfl | rfl : s = failure.functionName ∨ s = lineCell failure.lineNumber ∨
      s = failure.title ∨ s = (Rule.ofTitle failure.title).id := by simpa [failureRow] using hs
  · exact hfunction
  · exact closesNothing_lineCell _
  · exact htitle
  · exact closesNothing_ruleId _

/-- The table of plain changed functions between plain revisions can be rendered. -/
theorem changedTable_renders {base head : String} {changed : List ChangedFunction}
    (hbase : ClosesNothing base) (hhead : ClosesNothing head) (h : ∀ f ∈ changed, f.Plain) :
    (changedTable base head changed).Renders := by
  refine table_renders ?_ (by decide) fun row hrow s hs => ?_
  · exact ((Finished.around (by decide) hbase (show Finishes " -> " by decide)).around hhead
      (show Finishes ")" by decide)).closesNothing
  · obtain ⟨f, hf, rfl⟩ := List.mem_map.1 hrow
    obtain rfl | rfl | rfl | rfl | rfl : s = f.file ∨ s = f.name ∨ s = f.kind.name ∨
        s = f.changeType.name ∨ s = s!"{f.startLine}-{f.endLine}" := by simpa [changedRow] using hs
    · exact (h f hf).file
    · exact (h f hf).name
    · cases f.kind <;> decide
    · cases f.changeType <;> decide
    · exact (Finished.append (ClosesNothing.finish (closesNothing_nat _)
        (show Finishes "-" by decide)) (closesNothing_nat _))

/-- Displaying a result renders, if its texts and the name of the function close nothing. -/
theorem displayResult_rendering {result : VerificationResult} {function : String}
    (hresult : result.Plain) (hfunction : ClosesNothing function) (allowed : Fault → Prop) :
    Upholds Rendering allowed (displayResult result function) := by
  have hverified : (Shown.markup s!"[green]VERIFIED[/green] {function}").Renders := by
    have hsplit : s!"[green]VERIFIED[/green] {function}" =
        "[" ++ "green" ++ "]" ++ "VERIFIED" ++ "[/" ++ "green" ++ "]" ++ s!" {function}" :=
      String.toList_inj.1 (by simp; rfl)
    rw [Shown.Renders, hsplit]
    exact renders_styled (by decide) (by decide) (Finished.append (by decide) hfunction)
  have hfailed : (Shown.markup
      s!"[red]FAILED[/red] {function}: {result.failures.length} failure(s)").Renders := by
    have hsplit : s!"[red]FAILED[/red] {function}: {result.failures.length} failure(s)" =
        "[" ++ "red" ++ "]" ++ "FAILED" ++ "[/" ++ "red" ++ "]" ++
          s!" {function}: {result.failures.length} failure(s)" :=
      String.toList_inj.1 (by simp; rfl)
    rw [Shown.Renders, hsplit]
    refine renders_styled (by decide) (by decide) (Finished.closesNothing ?_)
    exact (Finished.around (by decide) hfunction (show Finishes ": " by decide)).around
      (closesNothing_nat result.failures.length) (show Finishes " failure(s)" by decide)
  rw [displayResult]
  split
  · exact display_rendering hverified allowed
  · refine Upholds.bind (display_rendering hfailed allowed) fun _ => ?_
    split
    · refine display_rendering (failureTable_renders fun other hother => ?_) allowed
      rw [List.mem_singleton.1 hother]
      exact hresult
    · exact Upholds.pure _

/-- A plain outcome can be shown. -/
theorem displayOutcome_rendering {outcome : Outcome} (h : outcome.Plain) (allowed : Fault → Prop) :
    Upholds Rendering allowed (displayOutcome outcome) := by
  have hstatus : (Shown.markup s!"verification_status: [{statusColor outcome.status}]{
      outcome.status.name}[/{statusColor outcome.status}]").Renders := by
    rw [Shown.Renders]
    cases outcome.status <;> decide +kernel
  have hsummary : (Shown.plain outcome.summary).Renders := trivial
  have hfailed : (failureTable (outcome.results.filter (!·.verified))).Renders :=
    failureTable_renders fun result hresult => h.results result (List.mem_of_mem_filter hresult)
  rw [displayOutcome]
  dsimp only
  split
  · refine Upholds.bind (display_rendering hsummary allowed) fun _ => ?_
    split
    · exact Upholds.bind (display_rendering hfailed allowed) fun _ => display_rendering hstatus allowed
    · exact display_rendering hstatus allowed
  · split
    · exact Upholds.bind (display_rendering hfailed allowed) fun _ => display_rendering hstatus allowed
    · exact display_rendering hstatus allowed

/-- The message of a fault in red behind finished words renders, if the message closes nothing. -/
theorem red_renders {opening : String} {fault : Fault} (words : String)
    (hopening : opening = "[" ++ "red" ++ "]" ++ words) (hwords : Finished words)
    (hfault : ClosesNothing fault.message) :
    (Shown.markup (opening ++ fault.message ++ "[/red]")).Renders := by
  have hsplit : opening ++ fault.message ++ "[/red]" =
      "[" ++ "red" ++ "]" ++ (words ++ fault.message) ++ "[/" ++ "red" ++ "]" ++ "" :=
    String.toList_inj.1 (by rw [hopening]; simp)
  rw [Shown.Renders, hsplit]
  exact renders_styled (by decide) (hwords.append hfault) (by decide)

/-! ## Commands -/

/-- What follows the loading of settings keeps messages renderable and fails with no fault of the
markup, if it does so for all settings that are loaded. -/
theorem load_then {α : Type} {w : Workspace} {next : Settings → Work α} (hstart : Rendering w)
    (hnext : ∀ loaded, (load [] w).1 = .ok loaded → Upholds Rendering Unmarked (next loaded)) :
    Ensures (· = w) (load [] >>= next) (fun _ => Rendering)
      fun fault s => Rendering s ∧ Unmarked fault := by
  have hload : Ensures (· = w) (load []) (fun loaded s => (load [] w).1 = .ok loaded ∧ Rendering s)
      fun fault s => Rendering s ∧ Unmarked fault := by
    refine ⟨fun s hs => ?_⟩
    rw [hs]
    have hdone := (load_upholds Rendering.steady []).run w hstart
    rcases hend : load [] w with ⟨fault | loaded, after⟩
    · rw [hend] at hdone
      exact hdone
    · rw [hend] at hdone
      exact ⟨rfl, hdone⟩
  refine Ensures.bind hload fun loaded => ⟨fun s hs => (hnext loaded hs.1).run s hs.2⟩

/-- The command that lists does not end with a fault of the markup in a plain range. -/
theorem listChanges_rendering {settings : Settings} (h : settings.PlainRange) :
    Upholds Rendering Unmarked (listChanges settings) := by
  have hplain : (collaborators settings settings.workspaceRoot).Plain Rendering Quiet :=
    collaborators_plain settings settings.workspaceRoot
  have hquiet : ∀ fault, Quiet fault → Unmarked fault := fun _ hfault => hfault.2
  have hunchanged : unchangedShown.Renders := by
    rw [unchangedShown, Shown.Renders]
    decide +kernel
  refine Upholds.bind (setUp_rendering h) fun _ => ?_
  refine ((hplain.modifiedFiles _ _ _).weaken hquiet).then_upholds fun modified hmodified => ?_
  refine ((changedFunctions_plain hplain h.baseRef h.headRef
    (fun file hfile => hmodified file (List.mem_of_mem_filter hfile)) _).weaken hquiet).then_upholds
      fun changed hchanged => ?_
  split
  · exact Upholds.bind (display_rendering hunchanged _) fun _ => Upholds.pure _
  · exact Upholds.bind (display_rendering (changedTable_renders h.baseRef h.headRef hchanged) _)
      fun _ => Upholds.pure _

/-- Findings are reported in words that can be shown. -/
theorem writeSarif_rendering {path : String} (h : ClosesNothing (Path.ofText path).text)
    (settings : Settings) (findings : List Finding) :
    Yields Rendering Mild ClosesNothing (writeSarif settings findings path) := by
  refine Yields.after (Upholds.ofExcept fun fault hfault => ?_) fun text => write_rendering h text
  obtain ⟨long, rfl⟩ : ∃ long, fault = .unprintable long := by
    cases hprinted : Sarif.text findings settings.report.toolName settings.report.toolVersion with
    | error long => exact ⟨long, by rw [hprinted] at hfault; exact (Except.error.inj hfault).symm⟩
    | ok text => rw [hprinted] at hfault; cases hfault
  exact Mild.of_quiet ⟨rfl, fun _ heq => by cases heq⟩

/-- Writing the reports of a run keeps messages renderable, and fails mildly if at all. -/
theorem writeReports_rendering {settings : Settings} (h : settings.PlainRun) (outcome : Outcome) :
    Upholds Rendering Mild (writeReports settings outcome) := by
  rw [writeReports]
  split
  · refine (writeSarif_rendering h.sarifPath _ _).then_upholds fun written hwritten => ?_
    refine Upholds.bind (Rendering.steady.say_of_renders _ ?_) fun _ => ?_
    · exact (Finished.append (by decide) hwritten).renders
    · split
      · next path hpath =>
        exact Upholds.bind (write_rendering (h.summaryPath path hpath) _).upholds fun _ => Upholds.pure _
      · exact Upholds.pure _
  · exact Upholds.pure _

/-- A run in a plain range is reported, or fails mildly, and its outcome is plain. -/
theorem runReported_rendering {settings : Settings} (h : settings.PlainRun) (root : String)
    {files : List String} (hfiles : ∀ file ∈ files, ClosesNothing file) :
    Yields Rendering Mild (fun outcome => outcome.Plain) (runReported settings root files) := by
  have hrun : Yields Rendering Quiet (fun outcome => outcome.Plain)
      (Pipeline.run (collaborators settings root) settings
        (if files.isEmpty then none else some files)) := by
    refine run_plain (collaborators_plain settings root) (fun _ => ⟨rfl, fun _ heq => by cases heq⟩)
      h.baseRef h.headRef fun given hgiven => ?_
    split at hgiven
    · cases hgiven
    · obtain rfl := Option.some.inj hgiven
      exact hfiles
  refine Yields.bind (hrun.weaken fun _ => Mild.of_quiet) fun outcome houtcome => ?_
  exact Yields.after (writeReports_rendering h outcome) fun _ => Yields.pure houtcome

/-- A run with its reports, once settings are loaded. -/
def reportRun (settings : Settings) (files : List String) : Work Nat := do
  setUp programLogger (.ofSettings settings true)
  let root := locationText (locate (← get).files.current settings.workspaceRoot)
  match ← (runReported settings root files).attempt with
  | .error fault =>
    if !fault.isOwn then throw fault
    Work.display (.markup s!"[red]验证流程失败: {fault.message}[/red]")
    return 2
  | .ok outcome =>
    displayOutcome outcome
    return if outcome.shouldFail settings.failOnIssue then 1 else 0

/-- The command that verifies loads the settings first. -/
theorem run_eq (options : RunOptions) :
    run options = (do reportRun (withRunOptions (← load []) options) options.files) := rfl

/-- The command that verifies does not end with a fault of the markup where all names are plain. -/
theorem reportRun_rendering {settings : Settings} (h : settings.PlainRun) {files : List String}
    (hfiles : ∀ file ∈ files, ClosesNothing file) :
    Upholds Rendering Unmarked (reportRun settings files) := by
  refine Upholds.bind (setUp_rendering h.toPlainRange) fun _ => ?_
  refine Upholds.bind Upholds.get fun w => ?_
  refine (runReported_rendering h _ hfiles).attempt.then_upholds fun attempted hattempted => ?_
  cases attempted with
  | ok outcome =>
    have hplain : outcome.Plain := hattempted.2 outcome rfl
    exact Upholds.bind (displayOutcome_rendering hplain _) fun _ => Upholds.pure _
  | error fault =>
    have hmild : Mild fault := hattempted.1 fault rfl
    dsimp only
    split
    · exact Upholds.throw hmild.1
    · next hown =>
      have hmessage := hmild.2 (by simpa using hown)
      refine Upholds.bind (display_rendering ?_ _) fun _ => Upholds.pure _
      exact red_renders "验证流程失败: " rfl (by decide) hmessage

/-- The text of a saved output of the checker. -/
def savedText (file : RegularFile) : String :=
  String.ofList (normalizeLineEnds (Utf8.decodeLossy file.content.toList))

/-- The command for saved outputs does not end with a fault of the markup where all names are plain. -/
theorem parseOutput_rendering {w : Workspace} (hstart : Rendering w) {output function : String}
    {sarif : Option String} (source : String)
    (hsaved : ∀ file, w.files.fileAt? output = some file → PlainOutput (savedText file))
    (hfunction : ClosesNothing function)
    (hsarif : ∀ path ∈ sarif, ClosesNothing (Path.ofText path).text) :
    Ensures (· = w) (parseOutput output source function sarif) (fun _ => Rendering)
      fun fault s => Rendering s ∧ Unmarked fault := by
  refine Ensures.get_bind fun s hs => ?_
  rw [hs]
  refine Ensures.mono (?_ : Upholds Rendering Unmarked _) (fun _ hs => hs ▸ hstart) (fun _ _ hs => hs)
    fun _ _ hs => hs
  dsimp only
  cases hreach : w.files.reach output with
  | error error =>
    dsimp only
    split
    · exact Upholds.pure _
    · exact Upholds.throw fun _ heq => by cases heq
  | ok location =>
    dsimp only
    cases hfile : w.files.file? location with
    | none => exact Upholds.pure _
    | some file =>
      have hplain : PlainOutput (savedText file) := by
        refine hsaved file ?_
        rw [FileTree.fileAt?, FileTree.at?, hreach]
        exact hfile
      dsimp only
      rw [← savedText]
      cases hverdict : verdict (savedText file) source function with
      | error long => exact Upholds.throw fun _ heq => by cases heq
      | ok result =>
        have hresult : result.Plain := plain_of_verdict hplain hfunction hverdict
        refine Upholds.bind (displayResult_rendering hresult hfunction _) fun _ => ?_
        cases sarif with
        | none => exact Upholds.pure _
        | some path =>
          refine Upholds.bind (load_upholds Rendering.steady []) fun settings => ?_
          refine (writeSarif_rendering (hsarif path rfl) settings _).attempt.then_upholds
            fun attempted hattempted => ?_
          cases attempted with
          | ok written =>
            refine Upholds.bind (display_rendering ?_ _) fun _ => Upholds.pure _
            exact (Finished.append (by decide) (hattempted.2 written rfl)).renders
          | error fault =>
            have hmild : Mild fault := hattempted.1 fault rfl
            dsimp only
            split
            · exact Upholds.throw hmild.1
            · next hown =>
              have hmessage := hmild.2 (by simpa using hown)
              refine Upholds.bind (display_rendering ?_ _) fun _ => Upholds.pure _
              exact red_renders "" rfl (by decide) hmessage

/-- What a command line asks for has plain names: revisions, files and functions that it or the settings
name, places for the log and for reports, and what a saved output tells. -/
def PlainRequest (w : Workspace) : Request → Prop
  | .command (.detect range) =>
    ∀ loaded, (load [] w).1 = .ok loaded → (loaded.withRange range).PlainRange
  | .command (.parseOutput output _ function sarif) =>
    (∀ file, w.files.fileAt? output = some file → PlainOutput (savedText file)) ∧
      ClosesNothing function ∧ ∀ path ∈ sarif, ClosesNothing (Path.ofText path).text
  | .command (.run options) =>
    (∀ loaded, (load [] w).1 = .ok loaded → (withRunOptions loaded options).PlainRun) ∧
      ∀ file ∈ options.files, ClosesNothing file
  | _ => True

/-- Where the names in the request and in the answers of other programs close nothing, no command ends
with a fault of the markup, and all that is shown can be rendered. -/
theorem carryOut_renders {words : List String} {w : Workspace}
    (hrequest : PlainRequest w (request false words)) (hanswers : PlainAnswers w)
    (hshown : ∀ thing ∈ w.shown, thing.Renders) :
    (∀ fault, (carryOut words w).1 = .error fault → Unmarked fault) ∧
      ∀ thing ∈ (carryOut words w).2.shown, thing.Renders := by
  have hstart : Rendering w := ⟨hanswers, hshown⟩
  have hperform : Ensures (· = w) (perform (request false words)) (fun _ => Rendering)
      fun fault s => Rendering s ∧ Unmarked fault := by
    have hquiet {work : Work Nat} (h : Upholds Rendering Unmarked work) :
        Ensures (· = w) work (fun _ => Rendering) fun fault s => Rendering s ∧ Unmarked fault :=
      Ensures.mono h (fun _ hs => hs ▸ hstart) (fun _ _ hs => hs) fun _ _ hs => hs
    revert hrequest
    cases request false words with
    | help => exact fun _ => hquiet (Upholds.pure 0)
    | misuse => exact fun _ => hquiet (Upholds.pure 2)
    | command command =>
      cases command with
      | version =>
        have hversion : (Shown.plain programVersion).Renders := trivial
        exact fun _ => hquiet (Upholds.bind (display_rendering hversion _) fun _ => Upholds.pure 0)
      | detect range =>
        exact fun hrequest => load_then hstart fun loaded hload =>
          listChanges_rendering (hrequest loaded hload)
      | parseOutput output source function sarif =>
        rintro ⟨hsaved, hfunction, hsarif⟩
        exact parseOutput_rendering hstart source hsaved hfunction hsarif
      | run options =>
        rintro ⟨hsettings, hfiles⟩
        rw [perform, run_eq]
        exact load_then hstart fun loaded hload => reportRun_rendering (hsettings loaded hload) hfiles
  have hdone := hperform.run w rfl
  show (∀ fault, (perform (request false words) w).1 = .error fault → Unmarked fault) ∧
    ∀ thing ∈ (perform (request false words) w).2.shown, thing.Renders
  rcases hend : perform (request false words) w with ⟨fault | code, after⟩
  · rw [hend] at hdone
    exact ⟨fun _ heq => Except.error.inj heq ▸ hdone.2, hdone.1.shown⟩
  · rw [hend] at hdone
    exact ⟨fun _ heq => (by cases heq), hdone.shown⟩

/-! ## Brackets elsewhere, and in a name -/

/-- A workspace with a new contract, where every program complains with a closing tag. -/
def complaining : Workspace where
  files := .empty ["w"]
  environment := fullLog.environment.tail
  answer _ call :=
    if call.command = ["git", "diff", "--name-only", "main", "HEAD"] then
      .finished 0 "a.clar\n" "[/b]"
    else if call.command = ["git", "show", "HEAD:a.clar"] then
      .finished 0 "(define-public (f) (ok u1)) ;; [/b]" "[/b]"
    else .finished 128 "[/b]" "[/b]"
  calls := []
  loggers := []
  console := []
  shown := []

/-- What is set in that workspace. -/
def complainingSettings : Settings :=
  { fullLogSettings with logging := { fullLogSettings.logging with logToConsole := true } }

/-- The programs complain with a closing tag there, but all names in their answers are plain. -/
theorem plainAnswers_complaining : PlainAnswers complaining := by
  have hplain : ∀ calls call code out err, complaining.answer calls call = .finished code out err →
      PlainListing out ∧ PlainText out ∧ PlainOutput out := by
    intro calls call code out err h
    have hout : out = "a.clar\n" ∨ out = "(define-public (f) (ok u1)) ;; [/b]" ∨ out = "[/b]" := by
      rw [complaining] at h
      dsimp only at h
      split at h
      · exact Or.inl (Answer.finished.inj h).2.1.symm
      · split at h
        · exact Or.inr (Or.inl (Answer.finished.inj h).2.1.symm)
        · exact Or.inr (Or.inr (Answer.finished.inj h).2.1.symm)
    rcases hout with rfl | rfl | rfl
    · decide +kernel
    · decide +kernel
    · decide +kernel
  exact ⟨fun _ _ _ _ _ _ _ _ h => (hplain _ _ _ _ _ h).1,
    fun _ _ _ _ _ _ _ h => (hplain _ _ _ _ _ h).2.1,
    fun _ _ _ _ _ _ h => (hplain _ _ _ _ _ h).2.2⟩

/-- Complaints with a closing tag are shown as they are. -/
theorem carryOut_renders_complaining :
    (∀ fault, (carryOut ["run"] complaining).1 = .error fault → Unmarked fault) ∧
      ∀ thing ∈ (carryOut ["run"] complaining).2.shown, thing.Renders := by
  have hload : (load [] complaining).1 = .ok complainingSettings := by decide +kernel
  have hwords : request false ["run"] = .command (.run noOptions) := by decide +kernel
  have hrequest : PlainRequest complaining (request false ["run"]) := by
    rw [hwords]
    refine ⟨fun loaded hloaded => ?_, by decide⟩
    rw [hload] at hloaded
    obtain rfl := Except.ok.inj hloaded
    refine ⟨⟨by decide, by decide, by decide +kernel⟩, by decide +kernel, fun path hpath => ?_⟩
    cases hpath
  exact carryOut_renders hrequest plainAnswers_complaining fun _ h => by cases h

/-- A workspace where a contract is new whose name holds a closing tag. -/
def bracketed : Workspace where
  files := .empty ["w"]
  environment := []
  answer _ call :=
    if call.command = ["git", "diff", "--name-only", "main", "HEAD"] then
      .finished 0 "a[/b].clar\n" ""
    else if call.command = ["git", "show", "HEAD:a[/b].clar"] then .finished 0 ";; nothing yet\n" ""
    else .finished 128 "" "fatal: no such thing"
  calls := []
  loggers := []
  console := []
  shown := []

/-- The name of a file is enough to make listing changed functions fail. -/
theorem markup_of_bracketed :
    (carryOut ["detect"] bracketed).1 = .error (.markup (.notOpen "[/b]" 4)) := by
  decide +kernel

end Cli

end ClarityDelta
