import ClarityDelta.Proofs.Pipeline.Course
import ClarityDelta.Proofs.Verification.Grouping

/-!
# The verdict of a run

Whatever the collaborators answer, the status of a run that comes to its end can be read off the
transcript: there is nothing to verify when no compared file has a changed function, the run fails
when some check did, and when it succeeds no changed function went unchecked but for want of an
artifact.
-/

namespace ClarityDelta.Pipeline

open Change Config Source Text Verification

variable {σ : Type}

namespace Exchange

/-- Whether the checker failed or printed a text without the mark of success. -/
def isFailedCheck : Exchange → Bool
  | check _ _ _ _ (.error _) => true
  | check _ _ _ _ (.ok output) => !contains output successMarker
  | _ => false

/-- A failed check is an exchange with the checker. -/
theorem topic_of_isFailedCheck {exchange : Exchange} (h : exchange.isFailedCheck = true) :
    exchange.topic = .check := by
  cases exchange with
  | check => rfl
  | _ => cases h

end Exchange

/-- No artifact was found for a function's file, or the checker verified the function. -/
def Settled (exchanges : List Exchange) (f : ChangedFunction) : Prop :=
  (∃ answer, .artifact f.file (.ok answer) ∈ exchanges ∧ (answer = none ∨ answer = some "")) ∨
    ∃ artifact flags output, .check f.file artifact f.name flags (.ok output) ∈ exchanges ∧
      contains output successMarker = true

/-- What a status says of the functions that differ and of what was answered. -/
structure Status.Judges (status : Status) (changed : List ChangedFunction)
    (exchanges : List Exchange) : Prop where
  noChanges_iff : status = .noChanges ↔ changed = []
  settled_of_success : status = .success → ∀ f ∈ changed, Settled exchanges f
  failure_iff : status = .failure ↔ ∃ exchange ∈ exchanges, exchange.isFailedCheck = true

/-! ## Files and jobs -/

/-- A plan without an artifact was answered with none, or with an empty path. -/
theorem PlannedFile.answer_of_filter_eq_none {plan : PlannedFile}
    (h : plan.answer.filter (!·.isEmpty) = none) : plan.answer = none ∨ plan.answer = some "" := by
  rcases hanswer : plan.answer with _ | artifact
  · exact Or.inl rfl
  · rw [hanswer, Option.filter_eq_none_iff] at h
    have hempty : artifact.isEmpty = true := by simpa using h artifact rfl
    exact Or.inr (congrArg some (String.isEmpty_iff.mp hempty))

/-- A check fails just when the result of its job is not verified. -/
theorem DoneJob.isFailedCheck_exchange (done : DoneJob) :
    done.exchange.isFailedCheck = !done.result.verified := by
  have hverified := verified_iff_of_judgement done.judged
  rcases hanswer : done.answer with fault | output
  · have hno : done.result.verified = false := by
      rw [← Bool.not_eq_true, hverified, hanswer]
      rintro ⟨_, ⟨⟩, _⟩
    rw [DoneJob.exchange, hanswer, hno]
    rfl
  · have hmark : done.result.verified = contains output successMarker := by
      rw [Bool.eq_iff_iff, hverified, hanswer]
      simp
    rw [DoneJob.exchange, hanswer, hmark]
    rfl

/-! ## Verifying changed functions -/

namespace Checking

variable {settings : Settings} {changed : List ChangedFunction}

/-- Without changes no job is done. -/
theorem done_eq_nil (checking : Checking settings []) : checking.done = [] := by
  have hplans : checking.plans = [] := List.map_eq_nil_iff.mp checking.plans_eq
  have hjobs := checking.jobs_eq
  rw [hplans] at hjobs
  exact List.map_eq_nil_iff.mp hjobs

/-- Without changes the outcome says so. -/
theorem outcome_nil (checking : Checking settings []) : checking.outcome = .noChanges :=
  rfl

/-- With changes the status is that of the results. -/
theorem status_outcome (checking : Checking settings changed) (h : changed ≠ []) :
    checking.outcome.status = Outcome.statusOf (checking.done.map (·.result)) := by
  rw [outcome, if_neg fun hempty => h (List.isEmpty_iff.mp hempty)]
  rfl

/-- A check has failed just when a job has a result that is not verified. -/
theorem exists_isFailedCheck_iff (checking : Checking settings changed) :
    (∃ exchange ∈ checking.exchanges, exchange.isFailedCheck = true) ↔
      ∃ done ∈ checking.done, done.result.verified = false := by
  constructor
  · rintro ⟨exchange, hmem, hfailed⟩
    rcases List.mem_append.mp hmem with hmem | hmem
    · obtain ⟨plan, _, rfl⟩ := List.mem_map.mp hmem
      cases hfailed
    · obtain ⟨done, hdone, rfl⟩ := List.mem_map.mp hmem
      rw [DoneJob.isFailedCheck_exchange, Bool.not_eq_true'] at hfailed
      exact ⟨done, hdone, hfailed⟩
  · rintro ⟨done, hdone, hno⟩
    refine ⟨done.exchange, List.mem_append_right _ (List.mem_map_of_mem hdone), ?_⟩
    rw [DoneJob.isFailedCheck_exchange, hno]
    rfl

/-- A checking is a failure just when a check has failed. -/
theorem failure_iff (checking : Checking settings changed) :
    checking.outcome.status = .failure ↔
      ∃ exchange ∈ checking.exchanges, exchange.isFailedCheck = true := by
  rw [exists_isFailedCheck_iff]
  by_cases h : changed = []
  · subst h
    rw [done_eq_nil, outcome_nil]
    simp [Outcome.noChanges]
  · rw [status_outcome checking h, Outcome.statusOf]
    split
    · rename_i hany
      simpa using hany
    · rename_i hany
      simpa using hany

/-- A function whose file has an artifact is checked. -/
theorem settled_of_verified (checking : Checking settings changed)
    (hverified : ∀ done ∈ checking.done, done.result.verified = true) {f : ChangedFunction}
    (hf : f ∈ changed) : Settled checking.exchanges f := by
  obtain ⟨names, hgroup, hname⟩ := exists_group_of_mem hf
  rw [← checking.plans_eq] at hgroup
  obtain ⟨plan, hplan, hfile, rfl⟩ : ∃ plan ∈ checking.plans,
      plan.file = f.file ∧ plan.functions = names := by simpa using hgroup
  have hasked : plan.exchange ∈ checking.exchanges :=
    List.mem_append_left _ (List.mem_map_of_mem hplan)
  rw [PlannedFile.exchange, hfile] at hasked
  rcases hartifact : plan.answer.filter (!·.isEmpty) with _ | artifact
  · exact Or.inl ⟨plan.answer, hasked, PlannedFile.answer_of_filter_eq_none hartifact⟩
  · refine Or.inr ?_
    -- the function's job is among those that are done, and its check verified it
    have hjob : VerificationJob.mk f.file f.name (contractName f.file) artifact
        (resolveFlags settings.checker.baselineFlags settings.checker.flags) ∈
          checking.done.map (·.job) := by
      rw [checking.jobs_eq, List.mem_flatMap]
      refine ⟨plan, hplan, ?_⟩
      rw [PlannedFile.jobs_eq, hartifact, ← hfile]
      exact List.mem_map_of_mem hname
    obtain ⟨done, hdone, hjob⟩ := List.mem_map.mp hjob
    obtain ⟨output, hanswer, hmark⟩ :=
      (verified_iff_of_judgement done.judged).mp (hverified done hdone)
    have hcheck : done.exchange ∈ checking.exchanges :=
      List.mem_append_right _ (List.mem_map_of_mem hdone)
    rw [DoneJob.exchange, hjob, hanswer] at hcheck
    exact ⟨artifact, _, output, hcheck, hmark⟩

/-- The status of a checking judges what was asked in it. -/
theorem judges (checking : Checking settings changed) :
    checking.outcome.status.Judges changed checking.exchanges := by
  refine ⟨?_, ?_, checking.failure_iff⟩
  · by_cases h : changed = []
    · subst h
      simp [outcome_nil, Outcome.noChanges]
    · rw [status_outcome checking h, Outcome.statusOf]
      split <;> simp [h]
  · intro hsuccess f hf
    refine checking.settled_of_verified (fun done hdone => ?_) hf
    by_contra hno
    have hfailure : checking.outcome.status = .failure :=
      checking.failure_iff.mpr (checking.exists_isFailedCheck_iff.mpr
        ⟨done, hdone, Bool.eq_false_iff.mpr hno⟩)
    rw [hsuccess] at hfailure
    cases hfailure

end Checking

/-! ## The whole run -/

/-- A function that is settled stays so with more exchanges before. -/
theorem Settled.append_left {exchanges : List Exchange} {f : ChangedFunction}
    (before : List Exchange) (h : Settled exchanges f) : Settled (before ++ exchanges) f := by
  rcases h with ⟨answer, hmem, hempty⟩ | ⟨artifact, flags, output, hmem, hmark⟩
  · exact Or.inl ⟨answer, List.mem_append_right before hmem, hempty⟩
  · exact Or.inr ⟨artifact, flags, output, List.mem_append_right before hmem, hmark⟩

/-- What is asked before the checks does not change the verdict. -/
theorem Status.Judges.append_left {status : Status} {changed : List ChangedFunction}
    {before exchanges : List Exchange} (h : status.Judges changed exchanges)
    (hbefore : ∀ exchange ∈ before, exchange.topic ≠ .check) :
    status.Judges changed (before ++ exchanges) := by
  refine ⟨h.noChanges_iff, fun hs f hf => (h.settled_of_success hs f hf).append_left before, ?_⟩
  rw [h.failure_iff]
  constructor
  · rintro ⟨exchange, hmem, hfailed⟩
    exact ⟨exchange, List.mem_append_right before hmem, hfailed⟩
  · rintro ⟨exchange, hmem, hfailed⟩
    rcases List.mem_append.mp hmem with hmem | hmem
    · exact absurd (Exchange.topic_of_isFailedCheck hfailed) (hbefore exchange hmem)
    · exact ⟨exchange, hmem, hfailed⟩

/-- The status of a run judges what was asked in it. -/
theorem Course.judges {settings : Settings} {files : Option (List String)}
    (course : Course settings files) :
    course.checking.outcome.status.Judges
      (course.comparisons.flatMap (·.changes (scanningOf settings.scan))) course.exchanges := by
  refine (course.checking.judges.append_left fun exchange hmem => ?_).append_left
    fun exchange hmem => ?_
  · rw [topic_of_mem_comparisons hmem]
    nofun
  · rw [topic_of_mem_listing hmem]
    nofun

/-- A run that comes to its end has asked for both contents of every target, and its status judges
the functions in which they differ by what was answered. -/
theorem run_judges {c : Collaborators σ} {settings : Settings} {files : Option (List String)}
    {s : σ} {outcome : Outcome} (h : (run c settings files s).1 = .ok outcome) :
    ∃ (modified : List String) (comparisons : List Comparison),
      (transcript c settings files s).filter (·.topic = .modifiedFiles) =
        listing settings files modified ∧
      comparisons.map (·.file) = targets settings files modified ∧
      (transcript c settings files s).filter (·.topic = .content) =
        comparisons.flatMap (·.exchanges settings.baseRef settings.headRef) ∧
      outcome.status.Judges (comparisons.flatMap (·.changes (scanningOf settings.scan)))
        (transcript c settings files s) := by
  obtain ⟨course, rfl, heq⟩ := exists_course h
  rw [heq]
  exact ⟨course.modified, course.comparisons, course.filter_topic_exchanges .modifiedFiles,
    course.targets_eq, course.filter_topic_exchanges .content, course.judges⟩

/-- Settings that exclude no contract. -/
def plainSettings : Settings where
  workspaceRoot := "."
  baseRef := "main"
  headRef := "HEAD"
  failOnIssue := true
  scan := ⟨["./"], [], false⟩
  checker := ⟨defaultBaselineFlags, "--verbose", "esbmc", "ast", "v1.0.0", "docker", false, none⟩
  report := ⟨"results.sarif", none, "ESBMC", "1.0.0"⟩
  logging := ⟨false, "INFO", "app.log", 1024, 0, "%(message)s", "%Y"⟩

/-- Two new contracts, one of them without an artifact, and a checker that counts its calls. -/
def twoContracts : Collaborators Nat where
  note _ := pure ()
  modifiedFiles _ _ _ := pure ["a.clar", "b.clar"]
  content revision path := pure <|
    if revision = "main" then none
    else if path = "a.clar" then some "(define-public (f) 1)\n(define-private (g) 2)"
    else some "(define-read-only (h) 3)"
  artifact file := pure (if file = "a.clar" then some "a.ast" else none)
  check _ _ function _ := do
    modify (· + 1)
    return s!"{function} in call {← get}: VERIFICATION SUCCESSFUL"

/-- The run on `twoContracts` succeeds: `f` and `g` are verified, and no artifact was found for
`h`. -/
theorem run_judges_twoContracts :
    ∃ outcome, (run twoContracts plainSettings none 0).1 = .ok outcome ∧
      outcome.status = .success ∧ outcome.changed.map (·.name) = ["f", "g", "h"] ∧
      ∃ (modified : List String) (comparisons : List Comparison),
        (transcript twoContracts plainSettings none 0).filter (·.topic = .modifiedFiles) =
          listing plainSettings none modified ∧
        comparisons.map (·.file) = targets plainSettings none modified ∧
        (transcript twoContracts plainSettings none 0).filter (·.topic = .content) =
          comparisons.flatMap (·.exchanges "main" "HEAD") ∧
        outcome.status.Judges (comparisons.flatMap (·.changes .raw))
          (transcript twoContracts plainSettings none 0) := by
  have hresult : (run twoContracts plainSettings none 0).1.toOption.map
      (fun outcome => (outcome.status, outcome.changed.map (·.name))) =
        some (.success, ["f", "g", "h"]) := by decide +kernel
  rcases hrun : (run twoContracts plainSettings none 0).1 with fault | outcome
  · rw [hrun] at hresult
    cases hresult
  · rw [hrun] at hresult
    obtain ⟨hstatus, hchanged⟩ := Prod.mk.inj (Option.some.inj hresult)
    exact ⟨outcome, rfl, hstatus, hchanged, run_judges hrun⟩

end ClarityDelta.Pipeline
