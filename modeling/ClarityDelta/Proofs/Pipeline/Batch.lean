import ClarityDelta.Proofs.Pipeline.Course
import ClarityDelta.Proofs.Verification.Printout

/-!
# Jobs one after the other

When notes do not fail, the checker is asked once for each job, in order, and each job gets a result
of its own, also when the checker fails. Only one thing stops the jobs: an output that reports a
failure and in which, within a counterexample, a state line has a number with more digits than are
read. Then the jobs that follow are not done, and the results so far are lost.
`runJobs_done_or_stopped` says that it is always one or the other.
-/

namespace ClarityDelta

open Logging Pipeline Text Verification

namespace Text

/-- Only the number of digits decides whether a numeral is read. -/
theorem numeral_eq_error_iff {cs : List Char} {long : LongNumeral} :
    numeral cs = .error long ↔ maxDigits < cs.length ∧ long = ⟨cs.length⟩ := by
  rw [numeral]
  split
  · next hle => simp [Nat.not_lt.2 hle]
  · next hlt => simp [Nat.not_le.1 hlt, eq_comm]

end Text

namespace Verification

/-! ## Outputs that cannot be judged -/

/-- An output that is not judged: it reports a failure and no success, and the reader comes to a state
line, while a counterexample is open, whose number has more digits than are read. -/
structure Overlong (output : String) (long : LongNumeral) : Prop where
  not_successful : contains output successMarker = false
  failed : contains output failureMarker = true
  stops : ∃ before l behind after, lines output.toList = before ++ l :: behind ∧
    CounterexampleReader.start.read before = (after, none) ∧ after.phase ≠ .scanning ∧
      ¬IsMarker l ∧ ∃ state, StateLine.find? (trim l) = some state ∧
        maxDigits < state.digits.length ∧ long = ⟨state.digits.length⟩

/-- Counterexamples are read unless the reader is stopped. -/
theorem counterexamples_eq_error_iff {text : String} {long : LongNumeral} :
    counterexamples text = .error long ↔
      (CounterexampleReader.start.read (lines text.toList)).2 = some long := by
  rw [counterexamples, CounterexampleReader.readText]
  rcases CounterexampleReader.start.read (lines text.toList) with ⟨reader, _ | found⟩
  · simp
  · simp

/-- A verdict fails only where it needs the counterexamples, and they cannot be read. -/
theorem verdict_eq_error_iff {output file function : String} {long : LongNumeral} :
    verdict output file function = .error long ↔
      contains output successMarker = false ∧ contains output failureMarker = true ∧
        counterexamples output = .error long := by
  rw [verdict]
  cases contains output successMarker with
  | true => simp
  | false =>
    cases contains output failureMarker with
    | false => simp
    | true => cases counterexamples output <;> simp [Except.map]

/-- There is no verdict on an output exactly if a state line in it has a number that is too long. -/
theorem verdict_eq_error_iff_overlong {output file function : String} {long : LongNumeral} :
    verdict output file function = .error long ↔ Overlong output long := by
  have hstops := @counterexamples_eq_error_iff output long
  rw [CounterexampleReader.read_snd_eq_some_iff] at hstops
  simp only [numeral_eq_error_iff] at hstops
  rw [verdict_eq_error_iff, hstops]
  exact ⟨fun ⟨hsuccess, hfailure, h⟩ => ⟨hsuccess, hfailure, h⟩,
    fun ⟨hsuccess, hfailure, h⟩ => ⟨hsuccess, hfailure, h⟩⟩

/-- The result that a verdict gives is one for the file and the function. -/
theorem file_and_function_of_verdict {output file function : String} {result : VerificationResult}
    (h : verdict output file function = .ok result) :
    result.file = file ∧ result.functionName = function := by
  rw [verdict] at h
  split at h
  · obtain rfl := Except.ok.inj h
    exact ⟨rfl, rfl⟩
  · split at h
    · cases hread : counterexamples output with
      | error long =>
        rw [hread] at h
        cases h
      | ok failures =>
        rw [hread] at h
        obtain rfl := Except.ok.inj h
        exact ⟨rfl, rfl⟩
    · obtain rfl := Except.ok.inj h
      exact ⟨rfl, rfl⟩

end Verification

namespace Pipeline

variable {σ : Type}

/-! ## One job -/

/-- An output is judged unless it is overlong. -/
theorem judgement_eq_error_iff {job : VerificationJob} {output : String} {fault : Fault} :
    judgement job (.ok output) = .error fault ↔
      ∃ long, fault = .longNumeral long ∧ Overlong output long := by
  simp only [judgement, ← @verdict_eq_error_iff_overlong output job.file job.functionName]
  cases verdict output job.file job.functionName with
  | error long => simp [Except.mapError, eq_comm]
  | ok result => simp [Except.mapError]

/-- What holds of a job with its result: the result is one for the job, and a checker that fails makes
it a failure by itself. -/
structure DoneJob.Fits (done : DoneJob) : Prop where
  file_eq : done.result.file = done.job.file
  functionName_eq : done.result.functionName = done.job.functionName
  not_overlong : ∀ output long, done.answer = .ok output → ¬Overlong output long
  failed : ∀ fault, done.answer = .error fault →
    done.result.verified = false ∧ done.result.failures.map (·.title) = ["execution-error"]

/-- A job that is done has an answer without such a number. -/
theorem DoneJob.fits (done : DoneJob) : done.Fits := by
  obtain ⟨job, answer, result, judged⟩ := done
  rcases answer with fault | output
  · obtain rfl := Except.ok.inj judged
    refine ⟨rfl, rfl, ?_, fun _ _ => ⟨rfl, rfl⟩⟩
    intro _ _ h
    cases h
  · have hnot : ∀ long, ¬Overlong output long := by
      intro long hoverlong
      rw [judgement_eq_error_iff.2 ⟨long, rfl, hoverlong⟩] at judged
      cases judged
    cases hverdict : verdict output job.file job.functionName with
    | error long => exact absurd (verdict_eq_error_iff_overlong.1 hverdict) (hnot long)
    | ok found =>
      rw [judgement, hverdict] at judged
      obtain rfl : found = result := Except.ok.inj judged
      obtain ⟨hfile, hfunction⟩ := file_and_function_of_verdict hverdict
      refine ⟨hfile, hfunction, ?_, ?_⟩
      · intro _ long h
        obtain rfl := Except.ok.inj h
        exact hnot long
      · intro _ h
        cases h

/-- Notes that never fail. -/
def Collaborators.Quiet (c : Collaborators σ) : Prop :=
  ∀ message s, (c.note message s).1 = .ok ()

/-- The checker's part of a transcript for a job. -/
def checkOf (job : VerificationJob) (answer : Except Fault String) : Exchange :=
  .check job.file job.artifact job.functionName job.flags answer

/-- A note only changes the state, beside which the transcript stays. -/
theorem Collaborators.Quiet.transcribed_note {c : Collaborators σ} (hquiet : c.Quiet)
    (message : Note) (s : σ) (before : List Exchange) :
    c.transcribed.note message (s, before) = (.ok (), ((c.note message s).2, before)) := by
  have h : c.transcribed.note message (s, before) =
      ((c.note message s).1, ((c.note message s).2, before)) := rfl
  rw [h, hquiet message s]

/-- Judging an answer gives its judgement where notes do not fail, and asks for nothing. -/
theorem judge_transcribed {c : Collaborators σ} (hquiet : c.Quiet) (job : VerificationJob)
    (answer : Except Fault String) (s : σ) (before : List Exchange) :
    ∃ s', judge c.transcribed job answer (s, before) = (judgement job answer, (s', before)) := by
  rcases answer with fault | output
  · rw [judge, Action.bind_apply, hquiet.transcribed_note]
    exact ⟨_, rfl⟩
  · rw [judge, judgement]
    cases verdict output job.file job.functionName with
    | error long => exact ⟨s, rfl⟩
    | ok result =>
      simp only
      rw [Action.bind_apply, hquiet.transcribed_note]
      exact ⟨_, rfl⟩

/-- A job asks the checker once, and what it comes to is what the answer makes of it. -/
theorem runJob_transcribed {c : Collaborators σ} (hquiet : c.Quiet) (job : VerificationJob) (s : σ)
    (before : List Exchange) :
    ∃ asked s', runJob c.transcribed job (s, before) =
      let answer := (c.check job.file job.artifact job.functionName job.flags asked).1
      (judgement job answer, (s', before ++ [checkOf job answer])) := by
  rw [runJob, Action.bind_apply, hquiet.transcribed_note]
  simp only
  rw [Action.bind_apply]
  obtain ⟨s', h⟩ := judge_transcribed hquiet job _ _ _
  exact ⟨_, s', h⟩

/-! ## All jobs -/

/-- What is asked and answered while jobs are done. -/
def jobsTranscript (c : Collaborators σ) (jobs : List VerificationJob) (s : σ) : List Exchange :=
  (runJobs c.transcribed jobs (s, [])).2.2

/-- What jobs come to does not depend on a transcript. -/
theorem runJobs_eq_transcribed (c : Collaborators σ) (jobs : List VerificationJob) (s : σ) :
    (runJobs c jobs s).1 = (runJobs c.transcribed jobs (s, [])).1 := by
  obtain ⟨added, heq, -⟩ := runJobs_conducts c jobs s []
  rw [heq]

/-- Jobs are done up to the end of the list, or up to one that is answered by an overlong output. -/
theorem runJobs_transcribed {c : Collaborators σ} (hquiet : c.Quiet) (jobs : List VerificationJob)
    (s : σ) (before : List Exchange) :
    ∃ (done : List DoneJob) (s' : σ),
      (done.map (·.job) = jobs ∧ runJobs c.transcribed jobs (s, before) =
        (.ok (done.map (·.result)), (s', before ++ done.map (·.exchange)))) ∨
      ∃ job behind output long, jobs = done.map (·.job) ++ job :: behind ∧
        Overlong output long ∧ runJobs c.transcribed jobs (s, before) =
          (.error (.longNumeral long),
            (s', before ++ (done.map (·.exchange) ++ [checkOf job (.ok output)]))) := by
  induction jobs generalizing s before with
  | nil =>
    refine ⟨[], s, Or.inl ⟨rfl, ?_⟩⟩
    rw [List.map_nil, List.map_nil, List.append_nil]
    rfl
  | cons job jobs ih =>
    obtain ⟨asked, s₁, hjob⟩ := runJob_transcribed hquiet job s before
    simp only at hjob
    have hrun : runJobs c.transcribed (job :: jobs) (s, before) =
        (runJob c.transcribed job >>= fun result => runJobs c.transcribed jobs >>= fun results =>
          pure (result :: results)) (s, before) := by
      rw [runJobs, List.mapM_cons]
      rfl
    rw [hrun, Action.bind_apply, hjob]
    generalize (c.check job.file job.artifact job.functionName job.flags asked).1 = answer
    cases hjudged : judgement job answer with
    | error fault =>
      -- only an output can be overlong, so the checker did not fail
      rcases answer with cause | output
      · cases hjudged
      · obtain ⟨long, rfl, hoverlong⟩ := judgement_eq_error_iff.1 hjudged
        exact ⟨[], s₁, Or.inr ⟨job, jobs, output, long, rfl, hoverlong, rfl⟩⟩
    | ok result =>
      let first : DoneJob := ⟨job, answer, result, hjudged⟩
      obtain ⟨done, s₂, ⟨rfl, hrest⟩ | ⟨job', behind, output, long, rfl, hoverlong, hrest⟩⟩ :=
        ih s₁ (before ++ [checkOf job answer])
      · refine ⟨first :: done, s₂, Or.inl ⟨rfl, ?_⟩⟩
        simp only
        rw [Action.bind_apply, hrest, List.append_assoc]
        rfl
      · refine ⟨first :: done, s₂, Or.inr ⟨job', behind, output, long, rfl, hoverlong, ?_⟩⟩
        simp only
        rw [Action.bind_apply, hrest, List.append_assoc]
        rfl

/-- When notes do not fail, every job of a list gets a result that fits it, the checker being asked
once for each job, in order; or else the jobs are done like this up to one that is answered by an
overlong output, and nothing is given and nothing more is asked. -/
theorem runJobs_done_or_stopped {c : Collaborators σ} (hquiet : c.Quiet)
    (jobs : List VerificationJob) (s : σ) :
    ∃ done : List DoneJob, (∀ d ∈ done, d.Fits) ∧
      ((done.map (·.job) = jobs ∧ (runJobs c jobs s).1 = .ok (done.map (·.result)) ∧
          jobsTranscript c jobs s = done.map (·.exchange)) ∨
        ∃ job behind output long, jobs = done.map (·.job) ++ job :: behind ∧
          Overlong output long ∧ (runJobs c jobs s).1 = .error (.longNumeral long) ∧
          jobsTranscript c jobs s =
            done.map (·.exchange) ++ [checkOf job (.ok output)]) := by
  obtain ⟨done, s', h⟩ := runJobs_transcribed hquiet jobs s []
  refine ⟨done, fun d _ => d.fits, ?_⟩
  rw [runJobs_eq_transcribed, jobsTranscript]
  obtain ⟨hjobs, hrun⟩ | ⟨job, behind, output, long, hjobs, hoverlong, hrun⟩ := h
  · rw [hrun]
    exact Or.inl ⟨hjobs, rfl, rfl⟩
  · rw [hrun]
    exact Or.inr ⟨job, behind, output, long, hjobs, hoverlong, rfl, rfl⟩

/-! ## Two jobs -/

/-- A checker that answers by the name of the function alone, and nothing else. -/
def answering (answer : String → Except Fault String) : Collaborators Unit where
  note _ := pure ()
  modifiedFiles _ _ _ := pure []
  content _ _ := pure none
  artifact _ := pure none
  check _ _ function _ := fun s => (answer function, s)

/-- Collaborators that only answer are quiet. -/
theorem quiet_answering (answer : String → Except Fault String) : (answering answer).Quiet :=
  fun _ _ => rfl

/-- A job for a function of one file. -/
def jobFor (function : String) : VerificationJob where
  file := "a.clar"
  functionName := function
  contractName := "a"
  artifact := "a.ast"
  flags := "--verbose"

/-- Only `g` can be checked. -/
def failingFirst (function : String) : Except Fault String :=
  if function = "f" then .error (.foreign "RuntimeError" "no daemon")
  else .ok "VERIFICATION SUCCESSFUL"

/-- The checker fails on the first of two jobs, and both are done. -/
theorem runJobs_done_or_stopped_failingFirst :
    (runJobs (answering failingFirst) [jobFor "f", jobFor "g"] ()).1 =
        .ok [executionError (jobFor "f") (.foreign "RuntimeError" "no daemon"),
          ⟨true, [], "VERIFICATION SUCCESSFUL", "a.clar", "g"⟩] ∧
      (answering failingFirst).Quiet ∧
      ∃ done : List DoneJob, (∀ d ∈ done, d.Fits) ∧
        done.map (·.job) = [jobFor "f", jobFor "g"] ∧
        (runJobs (answering failingFirst) [jobFor "f", jobFor "g"] ()).1 =
          .ok (done.map (·.result)) ∧
        jobsTranscript (answering failingFirst) [jobFor "f", jobFor "g"] () =
          done.map (·.exchange) := by
  have hresults : (runJobs (answering failingFirst) [jobFor "f", jobFor "g"] ()).1 =
      .ok [executionError (jobFor "f") (.foreign "RuntimeError" "no daemon"),
        ⟨true, [], "VERIFICATION SUCCESSFUL", "a.clar", "g"⟩] := by decide +kernel
  refine ⟨hresults, quiet_answering failingFirst, ?_⟩
  obtain ⟨done, hfits, hdone | ⟨_, _, _, _, -, -, hstopped, -⟩⟩ :=
    runJobs_done_or_stopped (quiet_answering failingFirst) [jobFor "f", jobFor "g"] ()
  · exact ⟨done, hfits, hdone⟩
  · rw [hresults] at hstopped
    cases hstopped

/-- Jobs are stopped at the first one when it is answered by an overlong output. -/
theorem runJobs_answering_overlong {answer : String → Except Fault String} {job : VerificationJob}
    {output : String} {long : LongNumeral} (hanswer : answer job.functionName = .ok output)
    (jobs : List VerificationJob) (h : Overlong output long) :
    (runJobs (answering answer) (job :: jobs) ()).1 = .error (.longNumeral long) ∧
      jobsTranscript (answering answer) (job :: jobs) () = [checkOf job (.ok output)] := by
  have hjudged : judgement job (.ok output) = .error (.longNumeral long) :=
    judgement_eq_error_iff.2 ⟨long, rfl, h⟩
  obtain ⟨asked, s', hjob⟩ := runJob_transcribed (quiet_answering answer) job () []
  have hrun : runJobs (answering answer).transcribed (job :: jobs) ((), []) =
      (.error (.longNumeral long), (s', [checkOf job (.ok output)])) := by
    rw [runJobs, List.mapM_cons, Action.bind_apply, hjob]
    simp only [answering, hanswer, hjudged, List.nil_append]
  rw [runJobs_eq_transcribed, jobsTranscript, hrun]
  exact ⟨rfl, rfl⟩

/-- Nines are a run of digits. -/
theorem isRun_nines (n : Nat) : IsRun Char.isDigit (List.replicate (n + 1) '9') := by
  refine ⟨List.cons_ne_nil _ _, fun c hc => ?_⟩
  rw [List.eq_of_mem_replicate hc]
  rfl

/-- A state line whose number has nothing but nines, one at least. -/
def ninesState (n : Nat) : PrintedState where
  step := "1".toList
  file := "a.clar".toList
  line := List.replicate (n + 1) '9'
  function := "f".toList
  thread := "0".toList
  step_digits := by simp [IsRun]
  file_word := by simp [IsWord, IsRun, isBlank]
  line_digits := isRun_nines n
  function_word := by simp [IsWord, IsRun, isBlank]
  thread_digits := by simp [IsRun]

/-- An output that comes to such a state line. -/
def ninesOutput (n : Nat) : String :=
  String.ofList (unlines ["VERIFICATION FAILED".toList, counterexampleMarker, (ninesState n).text])

/-- The state line with nines has no blanks around it. -/
theorem trim_text_ninesState (n : Nat) : trim (ninesState n).text = (ninesState n).text := by
  have hhead : (ninesState n).text.head? = some 'S' := by
    simp [PrintedState.text, joinWith]
  have hlast : (ninesState n).text.getLast? = some '0' := by
    simp [PrintedState.text, joinWith, ninesState, List.getLast?_cons]
  refine trim_eq_self ?_ ?_
  · simp [hhead, isBlank]
  · simp [hlast, isBlank]

/-- However many nines the line has, its characters are those of the line with a single one. -/
theorem not_mem_text_ninesState (n : Nat) {c : Char} (hc : c ∉ (ninesState 0).text) :
    c ∉ (ninesState n).text := by
  simp only [PrintedState.text, joinWith, ninesState, List.mem_append, List.mem_cons, not_or,
    List.mem_replicate] at hc ⊢
  simpa using hc

/-- A state line with more nines than are read is overlong. -/
theorem overlong_ninesOutput {n : Nat} (h : maxDigits ≤ n) : Overlong (ninesOutput n) ⟨n + 1⟩ := by
  have htext : (ninesOutput n).toList =
      "VERIFICATION FAILED".toList ++ ("\n[Counterexample]\n".toList ++ (ninesState n).text) := by
    rw [ninesOutput, String.toList_ofList]
    rfl
  refine ⟨?_, ?_, ?_⟩
  · -- the mark of success has a letter that does not occur
    have hletter : 'U' ∉ (ninesOutput n).toList := by
      rw [htext, List.mem_append, List.mem_append, not_or, not_or]
      exact ⟨by decide, by decide, not_mem_text_ninesState n (by decide)⟩
    rw [contains, ← Bool.not_eq_true, occursIn_iff]
    rintro ⟨before, behind, heq⟩
    refine hletter ?_
    rw [heq]
    simp [successMarker]
  · rw [contains, occursIn_iff, htext]
    exact ⟨[], _, rfl⟩
  · have hlines : lines (ninesOutput n).toList =
        ["VERIFICATION FAILED".toList, counterexampleMarker] ++ [(ninesState n).text] := by
      rw [ninesOutput, String.toList_ofList]
      refine lines_unlines (List.cons_ne_nil _ _) ?_
      simp only [List.forall_mem_cons]
      exact ⟨by decide, by decide, not_mem_text_ninesState n (by decide), nofun⟩
    refine ⟨_, _, [], { CounterexampleReader.start with phase := .inCounterexample }, hlines, ?_,
      nofun, (ninesState n).not_isMarker (trim_text_ninesState n),
      ⟨List.replicate (n + 1) '9', "f".toList⟩, ?_, ?_, ?_⟩
    · rw [CounterexampleReader.read_of_scanning (by decide) rfl,
        CounterexampleReader.read_of_isMarker (by decide), CounterexampleReader.read_nil]
    · rw [trim_text_ninesState, (ninesState n).find?_text]
      rfl
    · rw [List.length_replicate]
      exact Nat.lt_succ_of_le h
    · rw [List.length_replicate]

/-- An answer that comes to 4301 digits for `f`. -/
def endlessFirst (function : String) : Except Fault String :=
  .ok (if function = "f" then ninesOutput 4300 else "VERIFICATION SUCCESSFUL")

/-- The first of two jobs is answered by an overlong output. Then there is no result at all, and the
second job is not done. -/
theorem runJobs_endlessFirst :
    (runJobs (answering endlessFirst) [jobFor "f", jobFor "g"] ()).1 =
        .error (.longNumeral ⟨4301⟩) ∧
      jobsTranscript (answering endlessFirst) [jobFor "f", jobFor "g"] () =
        [checkOf (jobFor "f") (.ok (ninesOutput 4300))] := by
  have hanswer : endlessFirst (jobFor "f").functionName = .ok (ninesOutput 4300) := by
    rw [endlessFirst, jobFor, if_pos rfl]
  exact runJobs_answering_overlong hanswer [jobFor "g"] (overlong_ninesOutput (Nat.le_refl maxDigits))

end Pipeline

end ClarityDelta
