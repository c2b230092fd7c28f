import ClarityDelta.Proofs.Cli.RunCommand
import ClarityDelta.Proofs.Container.Steady

/-!
# The command that lists and the command that verifies

Listing the changed functions and verifying them are two commands, each of which asks for files and
contents on its own. Where the version control program answers by its command line alone, what either
of them finds is a function of these answers and of the settings, `detected`. The two commands read the
same of the settings, so the one shows what the other verifies: `detect_tells`. Between them
stands `Collaborators.Read`: collaborators that give the answers whatever was done before.
-/

namespace ClarityDelta

open Change Config Files Logging Pipeline Report Revision Source Terminal

/-! ## Found by answers alone -/

namespace Pipeline

variable {σ : Type} {invariant : σ → Prop} {allowed : Fault → Prop} {c : Collaborators σ}
  {differing : String → String → List String → List String} {texts : String → String → Option String}

/-- Collaborators that keep an invariant, and where it holds list the given files and show the given
contents. -/
structure Collaborators.Read (c : Collaborators σ) (invariant : σ → Prop) (allowed : Fault → Prop)
    (differing : String → String → List String → List String)
    (texts : String → String → Option String) : Prop extends c.Uphold invariant allowed where
  modifiedFiles_eq : ∀ base head directories,
    Yields invariant allowed (· = differing base head directories)
      (c.modifiedFiles base head directories)
  content_eq : ∀ revision path,
    Yields invariant allowed (· = texts revision path) (c.content revision path)

/-- The changed functions of files, by the contents of both revisions. -/
def changedIn (texts : String → String → Option String) (settings : Settings)
    (files : List String) : List ChangedFunction :=
  files.flatMap fun file => compareRevisions (scanningOf settings.scan) file
    (texts settings.baseRef file) (texts settings.headRef file)

/-- The changed functions that settings ask for, by the files that differ and the contents of both
revisions. -/
def detected (differing : String → String → List String → List String)
    (texts : String → String → Option String) (settings : Settings) : List ChangedFunction :=
  changedIn texts settings (withoutExcluded settings.scan.excludedContracts
    (differing settings.baseRef settings.headRef settings.scan.contractsDir))

/-- The changed functions of a file are those between the contents that are answered. -/
theorem changedInFile_yields (h : c.Read invariant allowed differing texts) (scanning : Scanning)
    (base head file : String) :
    Yields invariant allowed
      (· = compareRevisions scanning file (texts base file) (texts head file))
      (changedInFile c scanning base head file) := by
  refine Yields.after (h.note _) fun _ => ?_
  refine Yields.bind (h.content_eq base file) fun old hold => ?_
  refine Yields.bind (h.content_eq head file) fun new hnew => ?_
  refine Yields.after (Upholds.forM fun message _ => h.note message) fun _ => ?_
  exact Yields.pure (by rw [hold, hnew])

/-- The changed functions of some files are a function of the contents that are answered. -/
theorem changedFunctions_yields (h : c.Read invariant allowed differing texts) (settings : Settings)
    (files : List String) :
    Yields invariant allowed (· = changedIn texts settings files)
      (changedFunctions c (scanningOf settings.scan) settings.baseRef settings.headRef files) := by
  refine Yields.after (h.note _) fun _ => ?_
  refine Yields.bind (Yields.mapM_eq fun file _ => changedInFile_yields h _ _ _ file)
    fun changed hchanged => ?_
  refine Yields.after (h.note _) fun _ => Yields.pure ?_
  rw [hchanged, changedIn, List.flatMap]

/-- Any action ends somehow. -/
theorem ensures_something {α : Type} (action : Action σ α) :
    Ensures (fun _ => True) action (fun _ _ => True) fun _ _ => True := by
  refine ⟨fun s _ => ?_⟩
  split <;> trivial

/-- An outcome with results does not say that nothing has changed. -/
theorem ofResults_status_ne (changed : List ChangedFunction)
    (jobs : List Verification.VerificationJob) (results : List Verification.VerificationResult)
    (summary : String) :
    (Outcome.ofResults changed jobs results summary).status ≠ .noChanges := by
  show Outcome.statusOf results ≠ .noChanges
  rw [Outcome.statusOf]
  split
  · decide
  · decide

/-- What is verified is what has changed, however verifying it goes on. -/
theorem verifyChanged_ensures (c : Collaborators σ) (settings : Settings)
    (changed : List ChangedFunction) :
    Ensures (fun _ => True) (verifyChanged c settings changed)
      (fun outcome _ => outcome.changed = changed ∧ outcome.status ≠ .noChanges)
      fun _ _ => True := by
  refine Ensures.bind (ensures_something _) fun jobs => ?_
  refine Ensures.bind (ensures_something _) fun results => ?_
  refine Ensures.bind (ensures_something _) fun _ => ?_
  refine Ensures.bind (ensures_something _) fun summary => ?_
  exact Ensures.pure fun _ _ => ⟨rfl, ofResults_status_ne changed jobs results summary⟩

/-- A run on the files that differ comes to the changed functions that are detected, and there is
nothing to verify exactly when there are none. -/
theorem run_detects (h : c.Read invariant allowed differing texts) (settings : Settings) :
    Ensures invariant (Pipeline.run c settings none)
      (fun outcome _ => outcome.changed = detected differing texts settings ∧
        (outcome.status = .noChanges ↔ detected differing texts settings = []))
      fun _ _ => True := by
  have hcollect : Yields invariant allowed
      (· = withoutExcluded settings.scan.excludedContracts
        (differing settings.baseRef settings.headRef settings.scan.contractsDir))
      (collectFiles c settings) := by
    refine Yields.bind (h.modifiedFiles_eq _ _ _) fun modified hmodified => ?_
    refine Yields.after (h.note _) fun _ => Yields.pure ?_
    rw [hmodified]
  rw [Pipeline.run]
  refine (h.note _).yields.ensures_bind (fun _ _ _ _ => trivial) fun _ _ => ?_
  refine hcollect.ensures_bind (fun _ _ _ _ => trivial) fun targets htargets => ?_
  refine (changedFunctions_yields h settings targets).ensures_bind (fun _ _ _ _ => trivial)
    fun changed hchanged => ?_
  have hdetected : changed = detected differing texts settings := by
    rw [hchanged, htargets, detected]
  rw [← hdetected]
  split
  · next hempty =>
    have hnil : changed = [] := List.isEmpty_iff.mp hempty
    refine (h.note _).yields.ensures_bind (fun _ _ _ _ => trivial) fun _ _ => ?_
    exact Ensures.pure fun _ _ => ⟨hnil.symm, fun _ => hnil, fun _ => rfl⟩
  · next hsome =>
    have hne : changed ≠ [] := fun hnil => hsome (List.isEmpty_iff.mpr hnil)
    refine (verifyChanged_ensures c settings changed).mono (fun _ _ => trivial) ?_ fun _ _ h => h
    exact fun outcome _ h => ⟨h.1, fun hno => absurd hno h.2, fun hnil => absurd hnil hne⟩

end Pipeline

/-! ## The version control program -/

namespace Revision

/-- The version control program answers by its command line alone. -/
def AnswersGit (git : List String → Invocation.Answer) (w : Workspace) : Prop :=
  ∀ calls arguments directory limit,
    w.answer calls ⟨"git" :: arguments, directory, limit⟩ = git arguments

/-- The contracts in some directories that the program lists as different. -/
def listedBy (git : List String → Invocation.Answer) (current : Location) (base head : String)
    (directories : List String) : List String :=
  match git ["diff", "--name-only", base, head] with
  | .finished code out _ => if code = 0 then Repository.contractsUnder current directories out else []
  | _ => []

/-- The content of a file in a revision that the program shows. -/
def shownBy (git : List String → Invocation.Answer) (revision path : String) : Option String :=
  match git ["show", s!"{revision}:{path}"] with
  | .finished code out _ => if code = 0 then some out else none
  | _ => none

/-- A working directory where the program gives fixed answers, with what is shown so far. -/
structure Settled (git : List String → Invocation.Answer) (current : Location) (shown : List Shown)
    (w : Workspace) : Prop where
  answers : AnswersGit git w
  current_eq : w.files.current = current
  shown_eq : w.shown = shown

variable {git : List String → Invocation.Answer} {current : Location} {shown : List Shown}

/-- Files, loggers and calls do not show in what is settled. -/
theorem Settled.steady : Steady (Settled git current shown) where
  files _ _ hcurrent h := ⟨h.answers, hcurrent.trans h.current_eq, h.shown_eq⟩
  loggers _ _ h := ⟨h.answers, h.current_eq, h.shown_eq⟩
  console _ _ h := ⟨h.answers, h.current_eq, h.shown_eq⟩
  calls _ _ h := ⟨h.answers, h.current_eq, h.shown_eq⟩

/-- Noting leaves settled what is. -/
theorem say_settled (name : String) (message : Note) :
    Upholds (Settled git current shown) Foreign (say name message) :=
  Settled.steady.say_of_fitting (Or.inl fun _ => rfl)

namespace Repository

/-- What the program replies: its exit code and what it printed, or that it failed. -/
def Replies (git : List String → Invocation.Answer) (arguments : List String)
    (reply : Int × String × String) : Prop :=
  match git arguments with
  | .finished code out err => reply = (code, out, err)
  | _ => reply.1 = 1

/-- Asking the program gives what it answers to the command line. -/
theorem ask_yields (root logger : String) (arguments : List String) :
    Yields (Settled git current shown) Foreign (Replies git arguments)
      ((Repository.usual root logger).ask arguments) := by
  have hcall (call : Invocation.Call) (hcommand : call.command = "git" :: arguments) :
      Yields (Settled git current shown) Foreign (· = git arguments) (Work.call call) := by
    obtain ⟨command, directory, limit⟩ := call
    obtain rfl : command = "git" :: arguments := hcommand
    exact ⟨fun w hw => ⟨Settled.steady.calls w _ hw, hw.answers _ _ _ _⟩⟩
  refine Yields.bind (hcall _ rfl) fun answer hanswer => ?_
  cases answer with
  | finished code out err => exact Yields.pure (by rw [Replies, ← hanswer])
  | timedOut => exact Yields.pure (by rw [Replies, ← hanswer])
  | failed reason => exact Yields.pure (by rw [Replies, ← hanswer])

/-- A reply with an exit code other than 0 is as good as none. -/
theorem Replies.match_eq {α : Type} {arguments : List String} {code : Int} {out err : String}
    (h : Replies git arguments (code, out, err)) (some : String → α) (none : α) :
    (match git arguments with
      | .finished code out _ => if code = 0 then some out else none
      | _ => none) = if code = 0 then some out else none := by
  rw [Replies] at h
  cases hgit : git arguments with
  | finished code' out' err' =>
    rw [hgit] at h
    obtain ⟨rfl, rfl, -⟩ : code = code' ∧ out = out' ∧ err = err' := by simpa using h
    rfl
  | timedOut =>
    rw [hgit] at h
    obtain rfl : code = 1 := h
    rfl
  | failed reason =>
    rw [hgit] at h
    obtain rfl : code = 1 := h
    rfl

/-- The content that is asked for is the one that the program shows. -/
theorem content_yields (root logger : String) (revision path : String) :
    Yields (Settled git current shown) Foreign (· = shownBy git revision path)
      ((Repository.usual root logger).content revision path) := by
  refine Yields.bind (ask_yields root logger _) fun (code, out, err) hreplies => ?_
  rw [shownBy, hreplies.match_eq]
  dsimp only
  split
  · exact Yields.pure rfl
  · exact Yields.after (say_settled _ _) fun _ => Yields.pure rfl

/-- The files that are asked for are those that the program lists. -/
theorem modifiedFiles_yields (root logger : String) (base head : String)
    (directories : List String) :
    Yields (Settled git current shown) Foreign
      (· = listedBy git current base head directories)
      ((Repository.usual root logger).modifiedFiles base head directories) := by
  refine Yields.bind (ask_yields root logger _) fun (code, out, err) hreplies => ?_
  rw [listedBy, hreplies.match_eq]
  dsimp only
  split
  · refine Yields.get_bind fun w hw => Yields.pure ?_
    rw [hw.current_eq]
  · exact Yields.after (say_settled _ _) fun _ => Yields.pure rfl

end Repository

end Revision

/-! ## The commands -/

namespace Cli

variable {git : List String → Invocation.Answer} {current : Location} {shown : List Shown}

/-- The program's own collaborators read what the version control program answers. -/
theorem collaborators_read (settings : Settings) (root : String) :
    (collaborators settings root).Read (Settled git current shown) Foreign (listedBy git current)
      (shownBy git) where
  note message := say_settled programLogger message
  modifiedFiles base head directories :=
    (Repository.modifiedFiles_yields root programLogger base head directories).upholds
  content revision path := (Repository.content_yields root programLogger revision path).upholds
  artifact _ := Container.TreeGenerator.artifact_steady Settled.steady (fun _ hforeign _ => hforeign)
    (Or.inl fun _ => rfl) _
  check file artifact function flags :=
    Container.Checker.check_upholds Settled.steady _ file artifact function flags
  modifiedFiles_eq base head directories :=
    Repository.modifiedFiles_yields root programLogger base head directories
  content_eq revision path := Repository.content_yields root programLogger revision path

/-- Setting up the logger leaves settled what is. -/
theorem setUp_settled (settings : Settings) :
    Upholds (Settled git current shown) (fun _ => True)
      (setUp programLogger (.ofSettings settings true)) :=
  Settled.steady.setUp_upholds (fun _ _ => trivial) fun _ _ _ _ => trivial

/-- What is shown when nothing has changed. -/
def unchangedShown : Shown :=
  .markup "[yellow]未检测到变更的 Clarity 函数。[/yellow]"

/-- What is shown of changed functions. -/
def changesShown (settings : Settings) (changed : List ChangedFunction) : Shown :=
  if changed.isEmpty then unchangedShown
  else changedTable settings.baseRef settings.headRef changed

/-- Listing the changed functions, once settings are loaded. -/
def listChanges (settings : Settings) : Work Nat := do
  setUp programLogger (.ofSettings settings true)
  let c := collaborators settings settings.workspaceRoot
  let modified ← c.modifiedFiles settings.baseRef settings.headRef settings.scan.contractsDir
  let files := withoutExcluded settings.scan.excludedContracts modified
  let changed ←
    changedFunctions c (scanningOf settings.scan) settings.baseRef settings.headRef files
  if changed.isEmpty then Work.display unchangedShown
  else Work.display (changedTable settings.baseRef settings.headRef changed)
  return 0

/-- The command that lists loads the settings first. -/
theorem detect_eq (range : RangeOptions) :
    detect range = (do listChanges ((← load []).withRange range)) := rfl

/-- Behind what was shown, the changed functions are shown that are detected. -/
theorem listChanges_ensures (settings : Settings) :
    Ensures (Settled git current shown) (listChanges settings)
      (fun _ w => w.shown = shown ++ [changesShown settings
        (detected (listedBy git current) (shownBy git) settings)]) fun _ _ => True := by
  have hread : (collaborators settings settings.workspaceRoot).Read (Settled git current shown) Foreign
      (listedBy git current) (shownBy git) := collaborators_read settings settings.workspaceRoot
  have hdisplay (thing : Shown) :
      Ensures (Settled git current shown) (do Work.display thing; return 0 : Work Nat)
        (fun _ w => w.shown = shown ++ [thing]) fun _ _ => True :=
    ⟨fun _ hw => congrArg (· ++ [thing]) hw.shown_eq⟩
  refine (setUp_settled settings).yields.ensures_bind (fun _ _ _ _ => trivial) fun _ _ => ?_
  refine (hread.modifiedFiles_eq _ _ _).ensures_bind (fun _ _ _ _ => trivial)
    fun modified hmodified => ?_
  refine (changedFunctions_yields hread settings _).ensures_bind (fun _ _ _ _ => trivial)
    fun changed hchanged => ?_
  have hdetected : changed = detected (listedBy git current) (shownBy git) settings := by
    rw [hchanged, hmodified, detected]
  rw [← hdetected, changesShown]
  split
  · exact hdisplay unchangedShown
  · exact hdisplay (changedTable settings.baseRef settings.headRef changed)

/-- The command that lists shows one thing more than was shown: what is detected with the loaded
settings. -/
theorem detect_shows {w : Workspace} {range : RangeOptions} {loaded : Settings} {code : Nat}
    (hstart : Settled git current shown w) (hload : (load [] w).1 = .ok loaded)
    (hcode : (detect range w).1 = .ok code) :
    (detect range w).2.shown = shown ++ [changesShown (loaded.withRange range)
      (detected (listedBy git current) (shownBy git) (loaded.withRange range))] := by
  rw [detect_eq] at hcode ⊢
  obtain ⟨other, w₁, hload₁, hrun⟩ := Action.of_bind_ok hcode
  rw [hload₁] at hload
  obtain rfl : other = loaded := Except.ok.inj hload
  rw [hrun] at hcode ⊢
  have hlist := (listChanges_ensures (other.withRange range)).run w₁
    ((load_upholds Settled.steady []).of_ok hstart hload₁)
  rcases hend : listChanges (other.withRange range) w₁ with ⟨fault | code, after⟩
  · rw [hend] at hcode
    cases hcode
  · rwa [hend] at hlist

/-- When the verifying command ends with an exit code, its run of the pipeline came to an outcome. -/
theorem run_outcome {w : Workspace} {options : RunOptions} {loaded : Settings} {code : Nat}
    (hstart : Settled git current shown w) (hload : (load [] w).1 = .ok loaded)
    (hcode : (run options w).1 = .ok code) :
    let settings := withRunOptions loaded options
    ∃ before outcome after,
      setUp programLogger (.ofSettings settings true) (load [] w).2 = (.ok (), before) ∧
      Settled git current shown before ∧
      Pipeline.run (collaborators settings (locationText (locate current settings.workspaceRoot)))
        settings (if options.files.isEmpty then none else some options.files) before =
          (.ok outcome, after) := by
  intro settings
  obtain ⟨before, root, hsetUp, hroot, hcases⟩ := run_cases hload rfl hcode
  have hbefore : Settled git current shown before :=
    (setUp_settled settings).of_ok ((load_upholds Settled.steady []).after hstart) hsetUp
  have hread : (collaborators settings root).Read (Settled git current shown) Foreign
      (listedBy git current) (shownBy git) := collaborators_read settings root
  rw [hbefore.current_eq] at hroot
  rw [← hroot]
  rw [runReported_apply] at hcases
  rcases hrun : Pipeline.run (collaborators settings root) settings
    (if options.files.isEmpty then none else some options.files) before with ⟨fault | outcome, after⟩
  · -- a run fails with foreign faults only, and the command does not end with an exit code then
    have hforeign : Foreign fault :=
      ((run_yields hread.toUphold (fun _ => rfl) settings _).upholds.of_error hbefore hrun).2
    rw [hrun] at hcases
    rcases hcases with ⟨_, _, heq, hown, -⟩ | ⟨_, _, heq, -⟩
    · obtain rfl := Except.error.inj (Prod.mk.inj heq).1
      rw [hforeign] at hown
      cases hown
    · cases (Prod.mk.inj heq).1
  · exact ⟨before, outcome, after, hsetUp, hbefore, hrun⟩

/-- What the command that lists has shown says of an outcome: that nothing has changed exactly where the
outcome says so, and otherwise the changed functions of the outcome in their order, each in a row with its
file, its name, what kind of function it is, how it changed, and its first and last line. -/
structure Tells (settings : Settings) (outcome : Outcome) (thing : Shown) : Prop where
  unchanged_iff : thing = unchangedShown ↔ outcome.status = .noChanges
  changed_eq : outcome.status ≠ .noChanges →
    thing = .table s!"Changed functions ({settings.baseRef} -> {settings.headRef})"
      ["File", "Function", "Kind", "Change", "Lines"]
      (outcome.changed.map fun f => [.markup f.file, .markup f.name, .markup f.kind.name,
        .markup f.changeType.name, .markup s!"{f.startLine}-{f.endLine}"])
  no_change : outcome.status = .noChanges → outcome.changed = []

/-- What is shown of an outcome's changed functions tells of the outcome, if it is without change just
when there are none. -/
theorem tells_of_changed {settings : Settings} {outcome : Outcome}
    (h : outcome.status = .noChanges ↔ outcome.changed = []) :
    Tells settings outcome (changesShown settings outcome.changed) := by
  have hshown : changesShown settings outcome.changed = unchangedShown ↔ outcome.changed = [] := by
    rw [changesShown, ← List.isEmpty_iff]
    split
    · next hempty => exact ⟨fun _ => hempty, fun _ => rfl⟩
    · next hsome => exact ⟨fun heq => Shown.noConfusion heq, fun hempty => absurd hempty hsome⟩
  refine ⟨hshown.trans h.symm, fun hchanges => ?_, h.1⟩
  have hsome : ¬ outcome.changed.isEmpty = true :=
    fun hempty => hchanges (h.2 (List.isEmpty_iff.1 hempty))
  rw [changesShown, if_neg hsome, changedTable]
  rfl

/-- Listing the changed functions shows what verifying them is about: with the same range on both command
lines, the same settings and the same answers of the version control program, the command that lists
shows the changed functions of the outcome that a run comes to. -/
theorem detect_tells {detectWords runWords : List String} {range : RangeOptions} {options : RunOptions}
    {w w' : Workspace} {code code' : Nat}
    (hdetect : request false detectWords = .command (.detect range))
    (hrun : request false runWords = .command (.run options))
    (hrange : options.range = range) (hfiles : options.files = [])
    (hload : (load [] w).1 = (load [] w').1) (hcurrent : w.files.current = w'.files.current)
    (hanswers : AnswersGit git w) (hanswers' : AnswersGit git w')
    (hcode : (carryOut detectWords w).1 = .ok code)
    (hcode' : (carryOut runWords w').1 = .ok code') :
    ∃ loaded before outcome after thing,
      (load [] w').1 = .ok loaded ∧
      setUp programLogger (.ofSettings (withRunOptions loaded options) true) (load [] w').2 =
        (.ok (), before) ∧
      Pipeline.run (collaborators (withRunOptions loaded options)
          (locationText (locate w'.files.current loaded.workspaceRoot)))
        (withRunOptions loaded options) none before = (.ok outcome, after) ∧
      (carryOut detectWords w).2.shown = w.shown ++ [thing] ∧
      Tells (withRunOptions loaded options) outcome thing := by
  have hd : carryOut detectWords w = detect range w := by
    rw [carryOut, hdetect]
    rfl
  have hr : carryOut runWords w' = run options w' := by
    rw [carryOut, hrun]
    rfl
  rw [hd] at hcode ⊢
  rw [hr] at hcode'
  subst hrange
  obtain ⟨loaded, loadedState, hloaded, -⟩ :=
    Action.of_bind_ok (show ((load [] >>= fun loaded => listChanges (loaded.withRange options.range))
      w).1 = .ok code from hcode)
  have hload₁ : (load [] w).1 = .ok loaded := by rw [hloaded]
  have hload₂ : (load [] w').1 = .ok loaded := hload.symm.trans hload₁
  -- both commands detect with the same settings, as far as detecting reads them
  have hshown := detect_shows ⟨hanswers, hcurrent, rfl⟩ hload₁ hcode
  obtain ⟨before, outcome, after, hsetUp, hbefore, hpipeline⟩ :=
    run_outcome ⟨hanswers', rfl, rfl⟩ hload₂ hcode'
  rw [hfiles] at hpipeline
  obtain ⟨hchanged, hstatus⟩ :=
    (run_detects (collaborators_read _ _) _).of_ok hbefore hpipeline
  rw [← hchanged] at hstatus
  refine ⟨loaded, before, outcome, after, _, hload₂, hsetUp, hpipeline, hshown, ?_⟩
  have htells : Tells (withRunOptions loaded options) outcome
      (changesShown (withRunOptions loaded options) outcome.changed) := tells_of_changed hstatus
  rwa [hchanged] at htells

/-! ## A new function -/

/-- The answers of a version control program that knows one contract, which is new. -/
def newContract : List String → Invocation.Answer
  | ["diff", "--name-only", "main", "HEAD"] => .finished 0 "a.clar\n" ""
  | ["show", "HEAD:a.clar"] => .finished 0 "(define-public (f) (ok u1))" ""
  | _ => .finished 128 "" "fatal: no such thing"

/-- A workspace with that contract, of which there is no syntax tree. -/
def newContractWorkspace : Workspace where
  files := .empty ["w"]
  environment :=
    [("CLARITY_VERIFY_LOGGING__LOG_TO_CONSOLE", "0"), ("CLARITY_VERIFY_LOGGING__LEVEL", "ERROR"),
      ("CLARITY_VERIFY_LOGGING__FILE_PATH", "app.log")]
  answer _ call := match call.command with
    | "git" :: arguments => newContract arguments
    | _ => .failed "no containers"
  calls := []
  loggers := []
  console := []
  shown := []

/-- A command line for a run without options. -/
def noOptions : RunOptions where
  range := ⟨none, none, none, none⟩
  failOnIssue := none
  flags := none
  sarif := none
  summary := none
  files := []

/-- A new function is shown in its row by the one command and verified by the other. -/
theorem detect_tells_newContract :
    ∃ loaded before outcome after thing,
      (load [] newContractWorkspace).1 = .ok loaded ∧
      setUp programLogger (.ofSettings (withRunOptions loaded noOptions) true)
        (load [] newContractWorkspace).2 = (.ok (), before) ∧
      Pipeline.run (collaborators (withRunOptions loaded noOptions)
          (locationText (locate newContractWorkspace.files.current loaded.workspaceRoot)))
        (withRunOptions loaded noOptions) none before = (.ok outcome, after) ∧
      (carryOut ["detect"] newContractWorkspace).2.shown = [thing] ∧
      Tells (withRunOptions loaded noOptions) outcome thing ∧
      thing = .table "Changed functions (main -> HEAD)" ["File", "Function", "Kind", "Change", "Lines"]
        [[.markup "a.clar", .markup "f", .markup "public", .markup "added", .markup "1-1"]] := by
  have hdetectWords : request false ["detect"] = .command (.detect noOptions.range) := by
    decide +kernel
  have hrunWords : request false ["run"] = .command (.run noOptions) := by decide +kernel
  have hdetect : (carryOut ["detect"] newContractWorkspace).1 = .ok 0 := by decide +kernel
  have hrun : (carryOut ["run"] newContractWorkspace).1 = .ok 0 := by decide +kernel
  obtain ⟨loaded, before, outcome, after, thing, hload, hsetUp, hpipeline, hshown, htells⟩ :=
    detect_tells hdetectWords hrunWords rfl rfl rfl rfl (fun _ _ _ _ => rfl) (fun _ _ _ _ => rfl)
      hdetect hrun
  refine ⟨loaded, before, outcome, after, thing, hload, hsetUp, hpipeline, hshown, htells, ?_⟩
  have htable : (carryOut ["detect"] newContractWorkspace).2.shown =
      [.table "Changed functions (main -> HEAD)" ["File", "Function", "Kind", "Change", "Lines"]
        [[.markup "a.clar", .markup "f", .markup "public", .markup "added", .markup "1-1"]]] := by
    decide +kernel
  exact List.singleton_inj.mp (hshown.symm.trans htable)

end Cli

end ClarityDelta
