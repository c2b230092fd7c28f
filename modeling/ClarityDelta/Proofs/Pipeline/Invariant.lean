import ClarityDelta.Proofs.Pipeline.Course
import ClarityDelta.Proofs.Report.Agreement

/-!
# Invariants of runs

What all collaborators keep, whole runs keep. A run fails only in the ways in which it notes messages,
lists files, asks for contents and artifacts and reads numbers: `run_yields`. How the checker fails does
not matter, since its failures become results; and as line numbers that are read have few enough digits,
the summary can always be printed.
-/

namespace ClarityDelta

open Change Config Files Logging Pipeline Report Source Verification

namespace Pipeline

variable {σ : Type} {invariant : σ → Prop} {allowed : Fault → Prop} {c : Collaborators σ}

/-- The collaborators keep an invariant and fail with allowed faults only, the checker with any. -/
structure Collaborators.Uphold (c : Collaborators σ) (invariant : σ → Prop) (allowed : Fault → Prop) :
    Prop where
  note : ∀ message, Upholds invariant allowed (c.note message)
  modifiedFiles : ∀ base head directories,
    Upholds invariant allowed (c.modifiedFiles base head directories)
  content : ∀ revision path, Upholds invariant allowed (c.content revision path)
  artifact : ∀ file, Upholds invariant allowed (c.artifact file)
  check : ∀ file artifact function flags,
    Upholds invariant (fun _ => True) (c.check file artifact function flags)

/-- Comparing a file keeps what the collaborators keep. -/
theorem changedInFile_upholds (h : c.Uphold invariant allowed) (scanning : Scanning)
    (base head file : String) :
    Upholds invariant allowed (changedInFile c scanning base head file) := by
  refine Upholds.bind (h.note _) fun _ => ?_
  refine Upholds.bind (h.content base file) fun old => ?_
  refine Upholds.bind (h.content head file) fun new => ?_
  exact Upholds.bind (Upholds.forM fun message _ => h.note message) fun _ => Upholds.pure _

/-- Comparing files keeps what the collaborators keep. -/
theorem changedFunctions_upholds (h : c.Uphold invariant allowed) (scanning : Scanning)
    (base head : String) (files : List String) :
    Upholds invariant allowed (changedFunctions c scanning base head files) := by
  refine Upholds.bind (h.note _) fun _ => ?_
  refine Upholds.bind (Upholds.mapM fun file _ => changedInFile_upholds h scanning base head file)
    fun _ => ?_
  exact Upholds.bind (h.note _) fun _ => Upholds.pure _

/-- Planning the jobs of a file keeps what the collaborators keep. -/
theorem planFile_upholds (h : c.Uphold invariant allowed) (flags file : String)
    (functions : List String) : Upholds invariant allowed (planFile c flags file functions) := by
  refine Upholds.bind (h.artifact file) fun artifact => ?_
  split
  · exact Upholds.pure _
  · exact Upholds.bind (h.note _) fun _ => Upholds.pure _

/-- Planning keeps what the collaborators keep. -/
theorem planJobs_upholds (h : c.Uphold invariant allowed) (baseline overrides : String)
    (changed : List ChangedFunction) :
    Upholds invariant allowed (planJobs c baseline overrides changed) := by
  refine Upholds.bind (Upholds.mapM fun group _ => planFile_upholds h _ group.1 group.2) fun _ => ?_
  exact Upholds.bind (h.note _) fun _ => Upholds.pure _

/-- A job is judged without failing when its output can be read. -/
theorem judge_yields (h : c.Uphold invariant allowed) (hlong : ∀ long, allowed (.longNumeral long))
    (job : VerificationJob) (outcome : Except Fault String) :
    Yields invariant allowed (fun result => judgement job outcome = .ok result) (judge c job outcome) := by
  cases outcome with
  | error fault => exact Yields.after (h.note _) fun _ => Yields.pure rfl
  | ok output =>
    rw [judge, judgement]
    split
    · exact Yields.throw (hlong _)
    · next result hresult =>
      exact Yields.after (h.note _) fun _ => Yields.pure (by rw [hresult]; rfl)

/-- The line numbers in all results have few enough digits to be printed. -/
theorem runJobs_yields (h : c.Uphold invariant allowed)
    (hlong : ∀ long, allowed (.longNumeral long)) (jobs : List VerificationJob) :
    Yields invariant allowed (fun results => ∀ result ∈ results, result.LinesFit) (runJobs c jobs) := by
  refine Yields.mapM_all fun job _ => ?_
  refine Yields.after (h.note _) fun _ => ?_
  refine Yields.after (h.check job.file job.artifact job.functionName job.flags).attempt
    fun outcome => ?_
  exact (judge_yields h hlong job outcome).mono fun _ => linesFit_of_judgement

/-- Choosing the files keeps what the collaborators keep. -/
theorem chosenFiles_upholds (h : c.Uphold invariant allowed) (settings : Settings)
    (files : Option (List String)) : Upholds invariant allowed (chosenFiles c settings files) := by
  cases files with
  | some files => exact Upholds.pure files
  | none =>
    refine Upholds.bind (h.modifiedFiles _ _ _) fun _ => ?_
    exact Upholds.bind (h.note _) fun _ => Upholds.pure _

/-- What comes of given files can be printed. -/
theorem verifyFiles_yields (h : c.Uphold invariant allowed)
    (hlong : ∀ long, allowed (.longNumeral long)) (settings : Settings) (files : List String) :
    Yields invariant allowed (fun outcome => ∀ result ∈ outcome.results, result.LinesFit)
      (verifyFiles c settings files) := by
  refine Yields.after (changedFunctions_upholds h _ _ _ files) fun changed => ?_
  split
  · exact Yields.after (h.note _) fun _ =>
      Yields.pure fun result hresult => absurd hresult List.not_mem_nil
  · refine Yields.after (planJobs_upholds h _ _ changed) fun jobs => ?_
    refine Yields.bind (runJobs_yields h hlong jobs) fun results hresults => ?_
    refine Yields.after (h.note _) fun _ => ?_
    exact Yields.after (Upholds.printing (Summary.exists_text hresults)) fun _ => Yields.pure hresults

/-- A run keeps what its collaborators keep, and all line numbers in its results can be printed. -/
theorem run_yields (h : c.Uphold invariant allowed) (hlong : ∀ long, allowed (.longNumeral long))
    (settings : Settings) (files : Option (List String)) :
    Yields invariant allowed (fun outcome => ∀ result ∈ outcome.results, result.LinesFit)
      (run c settings files) := by
  rw [run_eq]
  refine Yields.after (h.note _) fun _ => ?_
  exact Yields.after (chosenFiles_upholds h settings files) fun chosen =>
    verifyFiles_yields h hlong settings chosen

end Pipeline

end ClarityDelta
