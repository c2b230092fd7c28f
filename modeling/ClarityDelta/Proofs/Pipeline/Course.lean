import ClarityDelta.Proofs.Pipeline.Transcript
import ClarityDelta.Proofs.Verification.LineNumbers

/-!
# The course of a run

A run that comes to its end has compared files, planned jobs for those with changes and done the
jobs. Each of these is kept as a record that tells what was asked, what was answered and what came
of it. Every step has a lemma that yields its record, and `run_conducts` puts them together: what a
run gives and all that it asks can be read off its course.
-/

namespace ClarityDelta

open Change Config Files Logging Pipeline Report Source Verification

namespace Pipeline

variable {σ : Type}

/-! ## Comparing files -/

/-- A file with its contents in both revisions. -/
structure Comparison where
  file : String
  old : Option String
  new : Option String
  deriving DecidableEq

namespace Comparison

/-- The functions that differ. -/
def changes (scanning : Scanning) (comparison : Comparison) : List ChangedFunction :=
  compareRevisions scanning comparison.file comparison.old comparison.new

/-- What is asked for a comparison: the content in one revision and then in the other. -/
def exchanges (base head : String) (comparison : Comparison) : List Exchange :=
  [.content base comparison.file (.ok comparison.old),
    .content head comparison.file (.ok comparison.new)]

end Comparison

/-- The changes of a file come from a comparison, which asks for both of its contents. -/
theorem changedInFile_conducts (c : Collaborators σ) (scanning : Scanning)
    (base head file : String) :
    Conducts (changedInFile c.transcribed scanning base head file)
      (changedInFile c scanning base head file) fun changes added =>
        ∃ comparison : Comparison, comparison.file = file ∧
          changes = comparison.changes scanning ∧ added = comparison.exchanges base head := by
  refine ((Conducts.beside _).bind fun _ => (Conducts.transcribe _ _).bind fun old =>
    (Conducts.transcribe _ _).bind fun new => (Conducts.notes c _).bind fun _ =>
      Conducts.pure (compareRevisions scanning file old new)).mono ?_
  rintro _ _ ⟨_, _, _, rfl, rfl, old, _, _, rfl, rfl, new, _, _, rfl, rfl, _, _, _, rfl, rfl, rfl,
    rfl⟩
  exact ⟨⟨file, old, new⟩, rfl, rfl, rfl⟩

/-- The changed functions come from one comparison for each file, in order. -/
theorem changedFunctions_conducts (c : Collaborators σ) (scanning : Scanning)
    (base head : String) (files : List String) :
    Conducts (changedFunctions c.transcribed scanning base head files)
      (changedFunctions c scanning base head files) fun changed added =>
        ∃ comparisons : List Comparison, comparisons.map (·.file) = files ∧
          changed = comparisons.flatMap (·.changes scanning) ∧
          added = comparisons.flatMap (·.exchanges base head) := by
  refine ((Conducts.beside _).bind fun _ =>
    (Conducts.mapM (changedInFile_conducts c scanning base head) files).bind fun parts =>
      (Conducts.beside _).bind fun _ => Conducts.pure parts.flatten).mono ?_
  rintro _ _ ⟨_, _, _, rfl, rfl, _, _, _, rfl, ⟨comparisons, hfiles, rfl, rfl⟩, _, _, _, rfl, rfl,
    rfl, rfl⟩
  refine ⟨comparisons, hfiles, ?_, ?_⟩
  · rw [List.flatMap_def]
  · rw [List.nil_append, List.append_nil, List.append_nil]

/-! ## Planning jobs -/

/-- A file with functions to be checked, and the artifact that it was found to have. -/
structure PlannedFile where
  file : String
  functions : List String
  answer : Option String
  deriving DecidableEq

namespace PlannedFile

/-- The job for one function of a file: it has the file with the name of its contract, the function, the
artifact that was found and the switches. -/
def job (flags artifact : String) (plan : PlannedFile) (function : String) : VerificationJob where
  file := plan.file
  functionName := function
  contractName := contractName plan.file
  artifact := artifact
  flags := flags

/-- The jobs of a file: one for each of its functions in order when the answer names an artifact, none when
no artifact or an empty one was found. -/
def jobs (flags : String) (plan : PlannedFile) : List VerificationJob :=
  match plan.answer with
  | some artifact => if artifact = "" then [] else plan.functions.map (plan.job flags artifact)
  | none => []

/-- These are the jobs that planning makes of the answer. -/
theorem jobs_eq (flags : String) (plan : PlannedFile) :
    plan.jobs flags = match plan.answer.filter (!·.isEmpty) with
      | some artifact => fileJobs plan.file artifact flags plan.functions
      | none => [] := by
  unfold jobs
  cases plan.answer with
  | none => rfl
  | some artifact =>
    by_cases hempty : artifact = ""
    · subst hempty
      rfl
    · have hkept : (some artifact).filter (!·.isEmpty) = some artifact := by
        simp [Option.filter, hempty]
      rw [hkept]
      exact if_neg hempty

/-- What is asked for a file: its artifact. -/
def exchange (plan : PlannedFile) : Exchange :=
  .artifact plan.file (.ok plan.answer)

end PlannedFile

/-- The jobs of a file come from a plan, which asks for its artifact. -/
theorem planFile_conducts (c : Collaborators σ) (flags : String)
    (group : String × List String) :
    Conducts (planFile c.transcribed flags group.1 group.2) (planFile c flags group.1 group.2)
      fun jobs added => ∃ plan : PlannedFile, (plan.file, plan.functions) = group ∧
        jobs = plan.jobs flags ∧ added = [plan.exchange] := by
  obtain ⟨file, functions⟩ := group
  refine ((Conducts.transcribe _ _).bind fun answer => (?_ : Conducts _ _ fun jobs added =>
    jobs = (PlannedFile.mk file functions answer).jobs flags ∧ added = [])).mono ?_
  · rw [PlannedFile.jobs_eq]
    cases answer.filter (!·.isEmpty) with
    | some artifact => exact Conducts.pure _
    | none =>
      refine ((Conducts.beside _).bind fun _ => Conducts.pure []).mono ?_
      rintro _ _ ⟨_, _, _, rfl, rfl, rfl, rfl⟩
      exact ⟨rfl, rfl⟩
  · rintro _ _ ⟨answer, _, _, rfl, rfl, rfl, rfl⟩
    exact ⟨⟨file, functions, answer⟩, rfl, rfl, rfl⟩

/-- The jobs come from one plan for each group of changed functions, in order. -/
theorem planJobs_conducts (c : Collaborators σ) (baseline overrides : String)
    (changed : List ChangedFunction) :
    Conducts (planJobs c.transcribed baseline overrides changed)
      (planJobs c baseline overrides changed) fun jobs added =>
        ∃ plans : List PlannedFile,
          plans.map (fun plan => (plan.file, plan.functions)) = groupByFile changed ∧
          jobs = plans.flatMap (·.jobs (resolveFlags baseline overrides)) ∧
          added = plans.map (·.exchange) := by
  refine ((Conducts.mapM (planFile_conducts c (resolveFlags baseline overrides))
    (groupByFile changed)).bind fun parts => (Conducts.beside _).bind fun _ =>
      Conducts.pure parts.flatten).mono ?_
  rintro _ _ ⟨_, _, _, rfl, ⟨plans, hgroups, rfl, rfl⟩, _, _, _, rfl, rfl, rfl, rfl⟩
  refine ⟨plans, hgroups, ?_, ?_⟩
  · rw [List.flatMap_def]
  · rw [List.nil_append, List.append_nil, List.map_eq_flatMap]

/-! ## Doing jobs -/

/-- What the checker's outcome makes of a job. -/
def judgement (job : VerificationJob) : Except Fault String → Except Fault VerificationResult
  | .error fault => .ok (executionError job fault)
  | .ok output => (verdict output job.file job.functionName).mapError .longNumeral

/-- Only a text with the mark of success verifies a job. -/
theorem verified_iff_of_judgement {job : VerificationJob} {answer : Except Fault String}
    {result : VerificationResult} (h : judgement job answer = .ok result) :
    result.verified = true ↔
      ∃ output, answer = .ok output ∧ Text.contains output successMarker = true := by
  rcases answer with fault | output
  · obtain rfl := Except.ok.inj h
    simp [executionError]
  · rw [judgement, verdict] at h
    split at h
    · rename_i hmark
      obtain rfl := Except.ok.inj h
      simp [hmark]
    · rename_i hmark
      have hno : result.verified = false := by
        split at h
        · cases hread : counterexamples output with
          | error long => rw [hread] at h; cases h
          | ok failures =>
            rw [hread] at h
            obtain rfl := Except.ok.inj h
            rfl
        · obtain rfl := Except.ok.inj h
          rfl
      simp [hno, hmark]

/-- The line numbers in a job's result have few enough digits to be printed. -/
theorem linesFit_of_judgement {job : VerificationJob} {answer : Except Fault String}
    {result : VerificationResult} (h : judgement job answer = .ok result) : result.LinesFit := by
  rcases answer with fault | output
  · obtain rfl := Except.ok.inj h
    intro failure hfailure
    obtain rfl := List.mem_singleton.mp hfailure
    exact lineFits_of_unknownLine rfl
  · rw [judgement] at h
    cases hverdict : verdict output job.file job.functionName with
    | error long =>
      rw [hverdict] at h
      cases h
    | ok found =>
      rw [hverdict] at h
      obtain rfl := Except.ok.inj h
      exact linesFit_of_verdict hverdict

/-- A job with the checker's outcome and the result that it gave. -/
structure DoneJob where
  job : VerificationJob
  answer : Except Fault String
  result : VerificationResult
  judged : judgement job answer = .ok result

namespace DoneJob

/-- What is asked for a job: the checker's output. -/
def exchange (done : DoneJob) : Exchange :=
  .check done.job.file done.job.artifact done.job.functionName done.job.flags done.answer

end DoneJob

/-- Judging an answer gives its judgement and asks for nothing. -/
theorem judge_conducts (c : Collaborators σ) (job : VerificationJob)
    (answer : Except Fault String) :
    Conducts (judge c.transcribed job answer) (judge c job answer) fun result added =>
      judgement job answer = .ok result ∧ added = [] := by
  rcases answer with fault | output
  · refine ((Conducts.beside _).bind fun _ => Conducts.pure (executionError job fault)).mono ?_
    rintro _ _ ⟨_, _, _, rfl, rfl, rfl, rfl⟩
    exact ⟨rfl, rfl⟩
  · simp only [judge, judgement]
    cases verdict output job.file job.functionName with
    | error long => exact Conducts.throw _
    | ok result =>
      refine ((Conducts.beside _).bind fun _ => Conducts.pure result).mono ?_
      rintro _ _ ⟨_, _, _, rfl, rfl, rfl, rfl⟩
      exact ⟨rfl, rfl⟩

/-- A job that is done asks for the checker's output. -/
theorem runJob_conducts (c : Collaborators σ) (job : VerificationJob) :
    Conducts (runJob c.transcribed job) (runJob c job) fun result added =>
      ∃ done : DoneJob, done.job = job ∧ result = done.result ∧ added = [done.exchange] := by
  refine ((Conducts.beside _).bind fun _ => (Conducts.attempt _ _).bind fun answer =>
    judge_conducts c job answer).mono ?_
  rintro result _ ⟨_, _, _, rfl, rfl, answer, _, _, rfl, rfl, hjudged, rfl⟩
  exact ⟨⟨job, answer, result, hjudged⟩, rfl, rfl, rfl⟩

/-- The jobs are done one after the other, each with a question of its own. -/
theorem runJobs_conducts (c : Collaborators σ) (jobs : List VerificationJob) :
    Conducts (runJobs c.transcribed jobs) (runJobs c jobs) fun results added =>
      ∃ done : List DoneJob, done.map (·.job) = jobs ∧ results = done.map (·.result) ∧
        added = done.map (·.exchange) := by
  refine (Conducts.mapM (runJob_conducts c) jobs).mono ?_
  rintro _ _ ⟨done, hjobs, rfl, rfl⟩
  exact ⟨done, hjobs, rfl, by rw [List.map_eq_flatMap]⟩

/-! ## Verifying changed functions -/

/-- The record of how changed functions are verified, with the summary of their results. -/
structure Checking (settings : Settings) (changed : List ChangedFunction) where
  plans : List PlannedFile
  done : List DoneJob
  plans_eq : plans.map (fun plan => (plan.file, plan.functions)) = groupByFile changed
  jobs_eq : done.map (·.job) =
    plans.flatMap (·.jobs (resolveFlags settings.checker.baselineFlags settings.checker.flags))
  summary : String
  summary_eq : Summary.text (done.map (·.result)) = .ok summary

namespace Checking

variable {settings : Settings} {changed : List ChangedFunction}

/-- All that is asked, the artifacts first. -/
def exchanges (checking : Checking settings changed) : List Exchange :=
  checking.plans.map (·.exchange) ++ checking.done.map (·.exchange)

/-- What the run comes to. -/
def outcome (checking : Checking settings changed) : Outcome :=
  if changed.isEmpty then .noChanges
  else .ofResults changed (checking.done.map (·.job)) (checking.done.map (·.result)) checking.summary

/-- Nothing is asked when nothing has changed. -/
def nothing (settings : Settings) : Checking settings [] :=
  ⟨[], [], rfl, rfl, _, rfl⟩

end Checking

/-- Changed functions are verified by a checking, which tells what is asked and what it comes to. -/
theorem verifyChanged_conducts (c : Collaborators σ) (settings : Settings)
    {changed : List ChangedFunction} (hchanged : changed ≠ []) :
    Conducts (verifyChanged c.transcribed settings changed) (verifyChanged c settings changed)
      fun outcome added => ∃ checking : Checking settings changed,
        outcome = checking.outcome ∧ added = checking.exchanges := by
  refine ((planJobs_conducts c _ _ changed).bind fun jobs => (runJobs_conducts c jobs).bind
    fun results => (Conducts.beside _).bind fun _ => (Conducts.printing _).bind fun summary =>
      Conducts.pure (Outcome.ofResults changed jobs results summary)).mono ?_
  rintro _ _ ⟨jobs, _, _, rfl, ⟨plans, hplans, hjobs, rfl⟩, _, _, _, rfl, ⟨done, rfl, rfl, rfl⟩,
    _, _, _, rfl, rfl, summary, _, _, rfl, ⟨hsummary, rfl⟩, rfl, rfl⟩
  refine ⟨⟨plans, done, hplans, hjobs, summary, hsummary⟩, ?_, ?_⟩
  · rw [Checking.outcome, if_neg fun h => hchanged (List.isEmpty_iff.mp h)]
  · rw [Checking.exchanges, List.append_nil, List.append_nil, List.append_nil]

/-! ## The run -/

/-- The files that are compared: the given ones, or else what is answered when the files that differ
are asked for, less the excluded ones. -/
def targets (settings : Settings) : Option (List String) → List String → List String
  | some files, _ => files
  | none, modified => withoutExcluded settings.scan.excludedContracts modified

/-- The question for the files that differ, which is asked if none are given. -/
def listing (settings : Settings) : Option (List String) → List String → List Exchange
  | some _, _ => []
  | none, modified =>
    [.modifiedFiles settings.baseRef settings.headRef settings.scan.contractsDir (.ok modified)]

/-- The record of a run that comes to its end. -/
structure Course (settings : Settings) (files : Option (List String)) where
  /-- The answer to the question for the files that differ, if it is asked. -/
  modified : List String
  comparisons : List Comparison
  targets_eq : comparisons.map (·.file) = targets settings files modified
  checking : Checking settings (comparisons.flatMap (·.changes (scanningOf settings.scan)))

/-- All that is asked, in order. -/
def Course.exchanges {settings : Settings} {files : Option (List String)}
    (course : Course settings files) : List Exchange :=
  listing settings files course.modified ++
    (course.comparisons.flatMap (·.exchanges settings.baseRef settings.headRef) ++
      course.checking.exchanges)

/-- The given files, or else those that are asked for. -/
def chosenFiles (c : Collaborators σ) (settings : Settings) :
    Option (List String) → Action σ (List String)
  | some files => pure files
  | none => collectFiles c settings

/-- What a run does with the files that it compares. -/
def verifyFiles (c : Collaborators σ) (settings : Settings) (files : List String) :
    Action σ Outcome := do
  let changed ←
    changedFunctions c (scanningOf settings.scan) settings.baseRef settings.headRef files
  if changed.isEmpty then
    c.note (.info "未检测到变更的 Clarity 函数")
    return .noChanges
  else verifyChanged c settings changed

/-- A run notes its range, chooses its files and verifies them. -/
theorem run_eq (c : Collaborators σ) (settings : Settings) (files : Option (List String)) :
    run c settings files = (do
      c.note (.info s!"开始 Clarity 合约验证: {settings.baseRef} -> {settings.headRef}")
      let chosen ← chosenFiles c settings files
      verifyFiles c settings chosen) := by
  cases files with
  | none => rfl
  | some files => rfl

/-- The files to compare are the targets, which are asked for if they are not given. -/
theorem chosenFiles_conducts (c : Collaborators σ) (settings : Settings)
    (files : Option (List String)) :
    Conducts (chosenFiles c.transcribed settings files) (chosenFiles c settings files)
      fun chosen added => ∃ modified, chosen = targets settings files modified ∧
        added = listing settings files modified := by
  rcases files with _ | files
  · refine ((Conducts.transcribe _ _).bind fun modified => (Conducts.beside _).bind fun _ =>
      Conducts.pure (withoutExcluded settings.scan.excludedContracts modified)).mono ?_
    rintro _ _ ⟨modified, _, _, rfl, rfl, _, _, _, rfl, rfl, rfl, rfl⟩
    exact ⟨modified, rfl, rfl⟩
  · refine (Conducts.pure files).mono ?_
    rintro _ _ ⟨rfl, rfl⟩
    exact ⟨[], rfl, rfl⟩

/-- Files are compared first, and their changed functions are checked then. -/
theorem verifyFiles_conducts (c : Collaborators σ) (settings : Settings) (files : List String) :
    Conducts (verifyFiles c.transcribed settings files) (verifyFiles c settings files)
      fun outcome added => ∃ (comparisons : List Comparison)
        (checking : Checking settings (comparisons.flatMap (·.changes (scanningOf settings.scan)))),
        comparisons.map (·.file) = files ∧ outcome = checking.outcome ∧
          added = comparisons.flatMap (·.exchanges settings.baseRef settings.headRef) ++
            checking.exchanges := by
  refine ((changedFunctions_conducts c _ _ _ files).bind fun changed =>
    (?_ : Conducts _ _ fun outcome added => ∃ checking : Checking settings changed,
      outcome = checking.outcome ∧ added = checking.exchanges)).mono ?_
  · -- without a change the run ends here, having asked for nothing but contents
    by_cases hchanged : changed = []
    · subst hchanged
      refine ((Conducts.beside _).bind fun _ => Conducts.pure Outcome.noChanges).mono ?_
      rintro _ _ ⟨_, _, _, rfl, rfl, rfl, rfl⟩
      exact ⟨Checking.nothing settings, rfl, rfl⟩
    · rw [if_neg fun h => hchanged (List.isEmpty_iff.mp h),
        if_neg fun h => hchanged (List.isEmpty_iff.mp h)]
      exact verifyChanged_conducts c settings hchanged
  · rintro _ _ ⟨_, _, _, rfl, ⟨comparisons, hfiles, rfl, rfl⟩, checking, rfl, rfl⟩
    exact ⟨comparisons, checking, hfiles, rfl, rfl⟩

/-- A run that comes to its end has a course, which tells what it gives and what it asks. -/
theorem run_conducts (c : Collaborators σ) (settings : Settings) (files : Option (List String)) :
    Conducts (run c.transcribed settings files) (run c settings files) fun outcome added =>
      ∃ course : Course settings files, outcome = course.checking.outcome ∧
        added = course.exchanges := by
  rw [run_eq, run_eq]
  refine ((Conducts.beside _).bind fun _ => (chosenFiles_conducts c settings files).bind
    fun chosen => verifyFiles_conducts c settings chosen).mono ?_
  rintro _ _ ⟨_, _, _, rfl, rfl, _, _, _, rfl, ⟨modified, rfl, rfl⟩, comparisons, checking,
    htargets, rfl, rfl⟩
  exact ⟨⟨modified, comparisons, htargets, checking⟩, rfl, rfl⟩

/-- A transcribed run does what a plain one does. -/
theorem run_transcribed (c : Collaborators σ) (settings : Settings) (files : Option (List String))
    (s : σ) :
    run c.transcribed settings files (s, []) =
      ((run c settings files s).1,
        ((run c settings files s).2, transcript c settings files s)) := by
  obtain ⟨added, heq, -⟩ := run_conducts c settings files s []
  rw [transcript, heq]

/-- A run that comes to its end has a course, which its outcome and its transcript are read off. -/
theorem exists_course {c : Collaborators σ} {settings : Settings} {files : Option (List String)}
    {s : σ} {outcome : Outcome} (h : (run c settings files s).1 = .ok outcome) :
    ∃ course : Course settings files, outcome = course.checking.outcome ∧
      transcript c settings files s = course.exchanges := by
  obtain ⟨added, heq, hrel⟩ := run_conducts c settings files s []
  obtain ⟨course, rfl, rfl⟩ := hrel outcome h
  refine ⟨course, rfl, ?_⟩
  rw [transcript, heq]
  rfl

/-- A run that comes to its end has found nothing changed, or has results. -/
theorem outcome_cases {c : Collaborators σ} {settings : Settings} {files : Option (List String)}
    {s : σ} {outcome : Outcome} (h : (run c settings files s).1 = .ok outcome) :
    outcome = .noChanges ∨
      ∃ changed jobs results summary, outcome = .ofResults changed jobs results summary := by
  obtain ⟨course, rfl, -⟩ := exists_course h
  rw [Checking.outcome]
  split
  · exact Or.inl rfl
  · exact Or.inr ⟨_, _, _, _, rfl⟩

/-! ## Topics -/

/-- Listing files asks for those that differ. -/
theorem topic_of_mem_listing {settings : Settings} {files : Option (List String)}
    {modified : List String} {exchange : Exchange}
    (h : exchange ∈ listing settings files modified) :
    exchange.topic = .modifiedFiles := by
  rcases files with _ | files
  · obtain rfl := List.mem_singleton.mp h
    rfl
  · exact absurd h List.not_mem_nil

/-- Comparisons ask for contents. -/
theorem topic_of_mem_comparisons {base head : String} {comparisons : List Comparison}
    {exchange : Exchange} (h : exchange ∈ comparisons.flatMap (·.exchanges base head)) :
    exchange.topic = .content := by
  obtain ⟨comparison, -, h⟩ := List.mem_flatMap.mp h
  rcases List.mem_cons.mp h with rfl | h
  · rfl
  · obtain rfl := List.mem_singleton.mp h
    rfl

/-- Plans ask for artifacts. -/
theorem topic_of_mem_plans {plans : List PlannedFile} {exchange : Exchange}
    (h : exchange ∈ plans.map (·.exchange)) : exchange.topic = .artifact := by
  obtain ⟨plan, -, rfl⟩ := List.mem_map.mp h
  rfl

/-- Jobs ask for outputs of the checker. -/
theorem topic_of_mem_done {done : List DoneJob} {exchange : Exchange}
    (h : exchange ∈ done.map (·.exchange)) : exchange.topic = .check := by
  obtain ⟨job, -, rfl⟩ := List.mem_map.mp h
  rfl

/-- Exchanges on one topic are kept or left out together. -/
theorem filter_topic {exchanges : List Exchange} {common : Topic}
    (h : ∀ exchange ∈ exchanges, exchange.topic = common) (topic : Topic) :
    exchanges.filter (·.topic = topic) = if common = topic then exchanges else [] := by
  split
  · rename_i heq
    exact List.filter_eq_self.mpr fun exchange hmem =>
      decide_eq_true ((h exchange hmem).trans heq)
  · rename_i hne
    refine List.filter_eq_nil_iff.mpr fun exchange hmem htopic => hne ?_
    exact (h exchange hmem).symm.trans (of_decide_eq_true htopic)

/-- The exchanges of a run on one topic: the listing, the definitions of each file in both revisions,
the plans of the changed files, or the checks of the jobs, in order. -/
theorem Course.filter_topic_exchanges {settings : Settings} {files : Option (List String)}
    (course : Course settings files) (topic : Topic) :
    course.exchanges.filter (·.topic = topic) = match topic with
      | .modifiedFiles => listing settings files course.modified
      | .content => course.comparisons.flatMap (·.exchanges settings.baseRef settings.headRef)
      | .artifact => course.checking.plans.map (·.exchange)
      | .check => course.checking.done.map (·.exchange) := by
  rw [exchanges, Checking.exchanges, List.filter_append, List.filter_append, List.filter_append,
    filter_topic fun _ => topic_of_mem_listing, filter_topic fun _ => topic_of_mem_comparisons,
    filter_topic fun _ => topic_of_mem_plans, filter_topic fun _ => topic_of_mem_done]
  cases topic <;> simp

end Pipeline

end ClarityDelta
