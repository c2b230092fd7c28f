import Mathlib.Control.Monad.Basic
import ClarityDelta.Container.Checker
import ClarityDelta.Proofs.Logging.Frame
import ClarityDelta.Proofs.Pipeline.Course

/-!
# Exit codes and verdicts

A container that runs the checker is judged twice: its exit code decides whether what it printed counts
at all, and then the text decides the job, the mark of success winning over the mark of failure.
`runJob_verified_iff` says what both come to. A container that fails does not verify a job, with one
exception: it ends with the code of a violation, and its text has both marks.
-/

namespace ClarityDelta

open Container Invocation Logging Pipeline Text Verification Work

/-- The other programs: how they answer, and the calls so far. -/
def Workspace.otherPrograms (w : Workspace) : (List Call → Call → Answer) × List Call :=
  (w.answer, w.calls)

/-- A workspace in which only other programs have run has no log. -/
theorem unwritten_otherPrograms : Unwritten Workspace.otherPrograms where
  files _ _ := rfl
  loggers _ _ := rfl
  console _ _ := rfl

namespace Container

/-! ## One container -/

/-- What a container came to by its answer. -/
def Runner.ended (runner : Runner) (image : Image) : Answer → Except Fault Output
  | .finished code out err => .ok ⟨code, out, err⟩
  | .timedOut => .error (runner.failure image none)
  | .failed reason => .error (runner.failure image (some reason))

/-- The call that runs a container. -/
def Runner.call (runner : Runner) (image : Image) (arguments : List String) : Call :=
  ⟨runner.command image arguments, runner.directory, runner.limit⟩

/-- A container is run by one call, which is noted before. -/
theorem Runner.run_eq (runner : Runner) (image : Image) (arguments : List String) :
    ∃ message, runner.run image arguments = (do
      say runner.logger message
      let answer ← Work.call (runner.call image arguments)
      ofExcept (runner.ended image answer)) := by
  refine ⟨_, congrArg (say runner.logger _ >>= ·) ?_⟩
  funext _
  refine congrArg (Work.call (runner.call image arguments) >>= ·) ?_
  funext answer
  cases answer <;> rfl

/-- Only the exit code and the mark of failure decide whether an output counts. -/
theorem Checker.accept_eq_ok_iff {output : Output} {text : String} :
    Checker.accept output = .ok text ↔ text = output.out ∧ (output.code = 0 ∨
      output.code = Checker.violationCode ∧ contains output.out failureMarker = true) := by
  rw [Checker.accept]
  split
  · next hzero =>
    rw [Except.ok.injEq]
    exact ⟨fun h => ⟨h.symm, Or.inl hzero⟩, fun h => h.1.symm⟩
  · next hzero =>
    split
    · next hviolation =>
      rw [Bool.and_eq_true, decide_eq_true_eq] at hviolation
      rw [Except.ok.injEq]
      exact ⟨fun h => ⟨h.symm, Or.inr hviolation⟩, fun h => h.1.symm⟩
    · next hviolation =>
      rw [Bool.and_eq_true, decide_eq_true_eq] at hviolation
      constructor
      · intro h
        cases h
      · rintro ⟨-, hcode | hcode⟩
        · exact absurd hcode hzero
        · exact absurd hcode hviolation

/-- Two outcomes in a row are one outcome. -/
theorem ofExcept_bind_ofExcept {σ α β : Type} (x : Except Fault α) (f : α → Except Fault β)
    (s : σ) : (ofExcept x >>= fun a => ofExcept (f a) : Action σ β) s = (x.bind f, s) := by
  cases x with
  | error fault => rfl
  | ok a =>
    show (ofExcept (f a) : Action σ β) s = (f a, s)
    cases f a <;> rfl

/-- The checker runs one container, and what it prints is what counts of the output. Without the call it
fails. -/
theorem Checker.check_cases (checker : Checker) (file artifact function flags : String)
    (w : Workspace) :
    (∃ fault w', checker.check file artifact function flags w = (.error fault, w') ∧
        w'.otherPrograms = w.otherPrograms) ∨
      ∃ arguments w', Checker.arguments file artifact function flags = .ok arguments ∧
        let call := checker.runner.call checker.image arguments
        checker.check file artifact function flags w =
            ((checker.runner.ended checker.image (w.answer w.calls call)).bind Checker.accept, w') ∧
          w'.otherPrograms = (w.answer, w.calls ++ [call]) := by
  cases hargs : Checker.arguments file artifact function flags with
  | error fault =>
    refine Or.inl ⟨fault, w, ?_, rfl⟩
    rw [check, hargs]
    rfl
  | ok arguments =>
    obtain ⟨message, hrun⟩ := checker.runner.run_eq checker.image arguments
    have hcheck : checker.check file artifact function flags =
        say checker.runner.logger message >>= fun _ =>
          Work.call (checker.runner.call checker.image arguments) >>= fun answer =>
            ofExcept (checker.runner.ended checker.image answer) >>= fun output =>
              ofExcept (Checker.accept output) := by
      rw [check, hargs]
      show (checker.runner.run checker.image arguments >>= fun output => _) = _
      rw [hrun]
      simp only [bind_assoc]
    have hnoted : Keeps Workspace.otherPrograms (say checker.runner.logger message) :=
      unwritten_otherPrograms.keeps_say checker.runner.logger message
    rw [hcheck]
    obtain ⟨fault, w', hstopped, hkept⟩ | ⟨_, w', hnext, hkept⟩ := hnoted.bind_cases _ w
    · exact Or.inl ⟨fault, w', hstopped, hkept⟩
    · let call := checker.runner.call checker.image arguments
      have hcalled : (Work.call call >>= fun answer =>
          ofExcept (checker.runner.ended checker.image answer) >>= fun output =>
            ofExcept (Checker.accept output)) w' =
          ((checker.runner.ended checker.image (w'.answer w'.calls call)).bind Checker.accept,
            { w' with calls := w'.calls ++ [call] }) := by
        rw [Action.bind_apply]
        exact ofExcept_bind_ofExcept _ _ _
      obtain ⟨hanswer, hcalls⟩ := Prod.mk.inj hkept
      refine Or.inr ⟨arguments, { w' with calls := w'.calls ++ [call] }, rfl, ?_, ?_⟩
      · rw [hnext, hcalled, hanswer, hcalls]
      · rw [Workspace.otherPrograms, hanswer, hcalls]

/-- What counts of a container's answer: the text of one that ended with 0, or with the code of a
violation and with the mark of failure. -/
theorem Checker.ended_bind_accept_eq_ok_iff {checker : Checker} {answer : Answer} {text : String} :
    (checker.runner.ended checker.image answer).bind Checker.accept = .ok text ↔
      ∃ code err, answer = .finished code text err ∧ (code = 0 ∨
        code = Checker.violationCode ∧ contains text failureMarker = true) := by
  cases answer with
  | finished code out err =>
    show Checker.accept ⟨code, out, err⟩ = .ok text ↔ _
    rw [Checker.accept_eq_ok_iff]
    constructor
    · rintro ⟨rfl, hcode⟩
      exact ⟨code, err, rfl, hcode⟩
    · rintro ⟨code', err', heq, hcode⟩
      obtain ⟨rfl, rfl, rfl⟩ := Answer.finished.inj heq
      exact ⟨rfl, hcode⟩
  | timedOut =>
    constructor
    · intro h
      cases h
    · rintro ⟨_, _, h, -⟩
      cases h
  | failed reason =>
    constructor
    · intro h
      cases h
    · rintro ⟨_, _, h, -⟩
      cases h

end Container

/-! ## One job -/

namespace Pipeline

/-- Judging an answer makes no calls if noting makes none. -/
theorem keeps_judge {γ : Type} {view : Workspace → γ} {c : Collaborators Workspace}
    (hnote : ∀ message, Keeps view (c.note message)) (job : VerificationJob)
    (answer : Except Fault String) : Keeps view (judge c job answer) := by
  rcases answer with fault | output
  · exact (hnote _).bind fun _ => Keeps.pure _
  · rw [judge]
    split
    · exact Keeps.throw _
    · exact (hnote _).bind fun _ => Keeps.pure _

/-- The result that is given for an answer is the one that the answer makes of the job. -/
theorem judgement_of_judge {σ : Type} {c : Collaborators σ} {job : VerificationJob}
    {answer : Except Fault String} {s : σ} {result : VerificationResult}
    (h : (judge c job answer s).1 = .ok result) : judgement job answer = .ok result := by
  obtain ⟨added, -, hrelated⟩ := judge_conducts c job answer s []
  exact (hrelated result h).1

/-- A job whose checker runs in a container makes at most one call. Without the call it is not
verified. With it, it is verified exactly when the container ended with a text that has the mark of
success, and ended either with 0 or with the code of a violation and with the mark of failure in its
text too. -/
theorem runJob_verified_iff {c : Collaborators Workspace} {checker : Checker}
    (hcheck : c.check = checker.check)
    (hnote : ∀ message, Keeps Workspace.otherPrograms (c.note message)) (job : VerificationJob)
    (w : Workspace) {result : VerificationResult} (h : (runJob c job w).1 = .ok result) :
    (result.verified = false ∧ (runJob c job w).2.calls = w.calls) ∨
      ∃ arguments,
        Checker.arguments job.file job.artifact job.functionName job.flags = .ok arguments ∧
        let call := checker.runner.call checker.image arguments
        (runJob c job w).2.calls = w.calls ++ [call] ∧
        (result.verified = true ↔ ∃ code out err, w.answer w.calls call = .finished code out err ∧
          contains out successMarker = true ∧
            (code = 0 ∨ code = Checker.violationCode ∧ contains out failureMarker = true)) := by
  rw [runJob] at h ⊢
  obtain ⟨fault, w₁, hstopped, -⟩ | ⟨_, w₁, hnext, hkept⟩ :=
    (hnote (.info _)).bind_cases (fun _ => (c.check job.file job.artifact job.functionName
      job.flags).attempt >>= fun outcome => judge c job outcome) w
  · rw [hstopped] at h
    cases h
  · -- the checker's outcome is judged, whatever it is, and judging makes no further call
    rw [hnext, attempt_bind_apply, hcheck] at h ⊢
    have hverified := verified_iff_of_judgement (judgement_of_judge h)
    have hlast := keeps_judge hnote job
      (checker.check job.file job.artifact job.functionName job.flags w₁).1
      (checker.check job.file job.artifact job.functionName job.flags w₁).2
    obtain ⟨fault, w₂, hfailed, hsame⟩ | ⟨arguments, w₂, harguments, hcalled, hadded⟩ :=
      checker.check_cases job.file job.artifact job.functionName job.flags w₁
    · rw [hfailed] at hverified hlast ⊢
      refine Or.inl ⟨?_, (Prod.mk.inj (hlast.trans (hsame.trans hkept))).2⟩
      rw [← Bool.not_eq_true, hverified]
      rintro ⟨output, houtput, -⟩
      cases houtput
    · rw [hcalled] at hverified hlast ⊢
      obtain ⟨hanswer, hcalls⟩ := Prod.mk.inj hkept
      rw [hanswer, hcalls] at hverified hadded hlast ⊢
      refine Or.inr ⟨arguments, harguments, (Prod.mk.inj (hlast.trans hadded)).2,
        hverified.trans ?_⟩
      simp only [Checker.ended_bind_accept_eq_ok_iff]
      constructor
      · rintro ⟨output, ⟨code, err, hfinished, hcode⟩, hmark⟩
        exact ⟨code, output, err, hfinished, hmark, hcode⟩
      · rintro ⟨code, out, err, hfinished, hmark, hcode⟩
        exact ⟨out, ⟨code, err, hfinished, hcode⟩, hmark⟩

/-! ## A job in a container -/

/-- A checker in a container. -/
def prover : Checker :=
  ⟨⟨"docker", "/w", some 60, "clarity_verify"⟩, ⟨"esbmc", "v1"⟩⟩

/-- Collaborators whose checker runs in a container. Nothing else is asked of them. -/
def proving : Collaborators Workspace where
  note := say "clarity_verify"
  modifiedFiles _ _ _ := pure []
  content _ _ := pure none
  artifact _ := pure none
  check := prover.check

/-- A workspace in which every call is answered alike. -/
def answeredBy (answer : Answer) : Workspace where
  files := Files.FileTree.empty []
  environment := []
  answer _ _ := answer
  calls := []
  loggers := []
  console := []
  shown := []

/-- A job for one function. -/
def provingJob : VerificationJob :=
  ⟨"a.clar", "f", "a", "a.ast", "--verbose"⟩

/-- A container that prints the mark of success and is killed then. -/
def killed : Answer :=
  .finished 137 "VERIFICATION SUCCESSFUL" "out of memory"

/-- A checker that was killed has not verified the function. -/
theorem runJob_verified_iff_killed :
    ∃ result, (runJob proving provingJob (answeredBy killed)).1 = .ok result ∧
      result.verified = false := by
  have hrun : (runJob proving provingJob (answeredBy killed)).1 =
      .ok (executionError provingJob (.checker ⟨"ESBMC exited with code 137: out of memory",
        some 137, "VERIFICATION SUCCESSFUL"⟩)) := by decide +kernel
  refine ⟨_, hrun, ?_⟩
  obtain ⟨hverified, -⟩ | ⟨arguments, -, -, hverified⟩ :=
    @runJob_verified_iff proving prover rfl
      (fun message => unwritten_otherPrograms.keeps_say "clarity_verify" message) provingJob
      (answeredBy killed) _ hrun
  · exact hverified
  · rw [← Bool.not_eq_true, hverified]
    rintro ⟨code, out, err, hkilled, -, hcode⟩
    obtain ⟨rfl, rfl, rfl⟩ := Answer.finished.inj hkilled
    exact absurd hcode (by decide)

/-- A container that ends with the code of a violation and prints both marks verifies the job: the mark
of success wins. -/
theorem runJob_proving_bothMarks :
    (runJob proving provingJob
        (answeredBy (.finished 1 "VERIFICATION FAILED\nVERIFICATION SUCCESSFUL" ""))).1 =
      .ok ⟨true, [], "VERIFICATION FAILED\nVERIFICATION SUCCESSFUL", "a.clar", "f"⟩ := by
  decide +kernel

end Pipeline

end ClarityDelta
