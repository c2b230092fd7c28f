import ClarityDelta.Proofs.Pipeline.RunVerdict
import ClarityDelta.Proofs.Verification.Planning

/-!
# The trace of a run

What a run asks until it comes to its end is one sequence of exchanges in four parts: the files that
differ, unless files are given; both contents of every file; the artifact of every file that has
changes; the check of every job. Nothing else is asked, and what the run gives belongs to the same
exchanges.
-/

namespace ClarityDelta.Pipeline

open Change Config Report Source Verification

variable {σ : Type} {settings : Settings} {changed : List ChangedFunction}

/-- What is asked for the files with changes and then for the jobs. -/
def verification (plans : List PlannedFile) (jobs : List VerificationJob)
    (answers : List (Except Fault String)) : List Exchange :=
  plans.map (·.exchange) ++ List.zipWith checkOf jobs answers

/-- What a run gives belongs to the artifacts and checks that it asked for: one artifact for every file
with changes, in the order of the first changes; a job for every changed function of a file whose
artifact was found; a check and a result for every job; and the reports of these results. Without a
change there is nothing of all this. -/
structure Outcome.Accounts (settings : Settings) (plans : List PlannedFile)
    (answers : List (Except Fault String)) (outcome : Outcome) : Prop where
  files_eq : plans.map (·.file) = (outcome.changed.map (·.file)).eraseDups
  functions_eq : ∀ plan ∈ plans, plan.functions = namesIn outcome.changed plan.file
  jobs_eq : outcome.jobs = plans.flatMap
    (·.jobs (resolveFlags settings.checker.baselineFlags settings.checker.flags))
  length_answers : answers.length = outcome.jobs.length
  results_of_jobs : List.Forall₂
    (fun job result => result.file = job.file ∧ result.functionName = job.functionName)
    outcome.jobs outcome.results
  findings_eq : outcome.findings = Finding.ofResults outcome.results
  summary_eq : outcome.changed ≠ [] → Summary.text outcome.results = .ok outcome.summary
  nothing_of_unchanged : outcome.changed = [] →
    plans = [] ∧ outcome.jobs = [] ∧ outcome.results = [] ∧ outcome.findings = []

namespace Checking

/-- There is one plan for each file with changes, in order of their first occurrence. -/
theorem files_plans (checking : Checking settings changed) :
    checking.plans.map (·.file) = (changed.map (·.file)).eraseDups :=
  PlannedFile.files_eq checking.plans_eq

/-- A plan has the changed functions of its file, in order. -/
theorem functions_plan (checking : Checking settings changed) {plan : PlannedFile}
    (h : plan ∈ checking.plans) : plan.functions = namesIn changed plan.file :=
  PlannedFile.functions_eq checking.plans_eq h

/-- A checking asks for the artifacts of its plans and then for the outputs of its jobs. -/
theorem exchanges_eq (checking : Checking settings changed) :
    checking.exchanges = verification checking.plans (checking.done.map (·.job))
      (checking.done.map (·.answer)) := by
  rw [exchanges, verification, List.zipWith_map, List.zipWith_self]
  rfl

/-- Without a change no job is done, so the outcome without changes has the same parts. -/
theorem parts_outcome (checking : Checking settings changed) :
    checking.outcome.changed = changed ∧ checking.outcome.jobs = checking.done.map (·.job) ∧
      checking.outcome.results = checking.done.map (·.result) := by
  by_cases h : changed = []
  · subst h
    rw [checking.done_eq_nil]
    exact ⟨rfl, rfl, rfl⟩
  · rw [outcome, if_neg fun hempty => h (List.isEmpty_iff.mp hempty)]
    exact ⟨rfl, rfl, rfl⟩

/-- The outcome has the changed functions. -/
theorem changed_outcome (checking : Checking settings changed) :
    checking.outcome.changed = changed :=
  checking.parts_outcome.1

/-- The outcome has the jobs that were done. -/
theorem jobs_outcome (checking : Checking settings changed) :
    checking.outcome.jobs = checking.done.map (·.job) :=
  checking.parts_outcome.2.1

/-- The outcome has the results of the jobs. -/
theorem results_outcome (checking : Checking settings changed) :
    checking.outcome.results = checking.done.map (·.result) :=
  checking.parts_outcome.2.2

/-- The outcome has the findings of its results. -/
theorem findings_outcome (checking : Checking settings changed) :
    checking.outcome.findings = Finding.ofResults checking.outcome.results := by
  rw [outcome]
  split
  · rfl
  · rfl

/-- The outcome of a checking accounts for its plans and answers. -/
theorem accounts (checking : Checking settings changed) :
    checking.outcome.Accounts settings checking.plans (checking.done.map (·.answer)) where
  files_eq := by rw [checking.changed_outcome, checking.files_plans]
  functions_eq plan hplan := by rw [checking.changed_outcome, checking.functions_plan hplan]
  jobs_eq := by rw [checking.jobs_outcome, checking.jobs_eq]
  length_answers := by rw [checking.jobs_outcome, List.length_map, List.length_map]
  results_of_jobs := by
    rw [checking.jobs_outcome, checking.results_outcome, List.forall₂_map_left_iff,
      List.forall₂_map_right_iff, List.forall₂_same]
    exact fun done _ => ⟨done.fits.file_eq, done.fits.functionName_eq⟩
  findings_eq := checking.findings_outcome
  summary_eq hchanged := by
    rw [checking.changed_outcome] at hchanged
    rw [outcome, if_neg fun hempty => hchanged (List.isEmpty_iff.mp hempty)]
    exact checking.summary_eq
  nothing_of_unchanged hunchanged := by
    rw [checking.changed_outcome] at hunchanged
    subst hunchanged
    exact ⟨List.map_eq_nil_iff.mp checking.plans_eq, rfl, rfl, rfl⟩

end Checking

/-- A run that comes to its end asks for the files that differ exactly if none are given, then for both
contents of every target in order, then for the artifact of every file with changes and at last for the
check of every job. That is all it asks, and it gives an account of it. -/
theorem run_trace {c : Collaborators σ} {settings : Settings} {files : Option (List String)} {s : σ}
    {outcome : Outcome} (h : (run c settings files s).1 = .ok outcome) :
    ∃ (modified : List String) (comparisons : List Comparison) (plans : List PlannedFile)
      (answers : List (Except Fault String)),
      transcript c settings files s = listing settings files modified ++
        (comparisons.flatMap (·.exchanges settings.baseRef settings.headRef) ++
          verification plans outcome.jobs answers) ∧
      comparisons.map (·.file) = targets settings files modified ∧
      outcome.changed = comparisons.flatMap (·.changes (scanningOf settings.scan)) ∧
      outcome.Accounts settings plans answers := by
  obtain ⟨course, rfl, htranscript⟩ := exists_course h
  refine ⟨course.modified, course.comparisons, course.checking.plans,
    course.checking.done.map (·.answer), ?_, course.targets_eq, course.checking.changed_outcome,
    course.checking.accounts⟩
  rw [htranscript, Course.exchanges, course.checking.exchanges_eq, course.checking.jobs_outcome]

/-- One of the two contracts is given twice, so its contents are asked for twice and each of its
functions has two jobs; its artifact is asked for once. -/
theorem run_trace_repeatedFile :
    ∃ outcome,
      (run twoContracts plainSettings (some ["a.clar", "b.clar", "a.clar"]) 0).1 = .ok outcome ∧
      outcome.jobs.map (·.functionName) = ["f", "g", "f", "g"] ∧
      ∃ (comparisons : List Comparison) (plans : List PlannedFile)
        (answers : List (Except Fault String)),
        transcript twoContracts plainSettings (some ["a.clar", "b.clar", "a.clar"]) 0 =
          comparisons.flatMap (·.exchanges "main" "HEAD") ++
            verification plans outcome.jobs answers ∧
        comparisons.map (·.file) = ["a.clar", "b.clar", "a.clar"] ∧
        plans.map (·.file) = ["a.clar", "b.clar"] ∧
        outcome.Accounts plainSettings plans answers := by
  have hresult : (run twoContracts plainSettings (some ["a.clar", "b.clar", "a.clar"]) 0).1.toOption.map
      (fun outcome => (outcome.jobs.map (·.functionName), outcome.changed.map (·.file))) =
        some (["f", "g", "f", "g"], ["a.clar", "a.clar", "b.clar", "a.clar", "a.clar"]) := by
    decide +kernel
  rcases hrun : (run twoContracts plainSettings (some ["a.clar", "b.clar", "a.clar"]) 0).1 with
    fault | outcome
  · rw [hrun] at hresult
    cases hresult
  · rw [hrun] at hresult
    obtain ⟨hjobs, hfiles⟩ := Prod.mk.inj (Option.some.inj hresult)
    obtain ⟨_, comparisons, plans, answers, htrace, htargets, -, haccounts⟩ := run_trace hrun
    refine ⟨outcome, rfl, hjobs, comparisons, plans, answers, htrace, htargets, ?_, haccounts⟩
    rw [haccounts.files_eq, hfiles]
    decide +kernel

end ClarityDelta.Pipeline
