import ClarityDelta.Container.Checker
import ClarityDelta.Container.TreeGenerator
import ClarityDelta.Proofs.Logging.Confined
import ClarityDelta.Proofs.Logging.Steady
import ClarityDelta.Proofs.Terminal.Messages

/-!
# What containers do not show in

Containers keep every steady invariant. A container that gives no output fails as the checker does, the
generator of syntax trees notes that and goes on, so it fails with foreign faults only. Its messages are
escaped, and since two escaped texts stand in some of them, they can be rendered where the file's name
closes nothing.
-/

namespace ClarityDelta

open Files Invocation Logging Terminal Text

/-- Faults of the markup are allowed, or the message can be rendered. -/
def Fitting (allowed : Fault → Prop) (message : String) : Prop :=
  (∀ cause, allowed (.markup cause)) ∨ Markup.Renders message

variable {invariant : Workspace → Prop} {allowed : Fault → Prop}

/-- A note keeps the invariant, and fails only if it cannot be rendered and that is allowed. -/
theorem Logging.Steady.say_of_fitting (h : Steady invariant) {name : String} {message : Note}
    (hfitting : Fitting allowed message.message) : Upholds invariant allowed (say name message) := by
  rcases hfitting with hmarkup | hrenders
  · refine (h.say_upholds name message).weaken ?_
    rintro _ ⟨cause, -, rfl⟩
    exact hmarkup cause
  · exact h.say_of_renders allowed hrenders

namespace Container

/-- A container that gives no output fails as the checker does, and what it gives is the answer to the
call. -/
theorem Runner.run_yields (h : Steady invariant) (runner : Runner) (image : Image)
    (arguments : List String) {given : Output → Prop}
    (hgiven : ∀ w, invariant w → ∀ code out err,
      w.answer w.calls ⟨runner.command image arguments, runner.directory, runner.limit⟩ =
        .finished code out err → given ⟨code, out, err⟩) :
    Yields invariant (fun fault => ∃ failure, fault = .checker failure) given
      (runner.run image arguments) := by
  have hcall : Yields invariant (fun fault => ∃ failure, fault = .checker failure)
      (fun answer => ∀ code out err, answer = .finished code out err → given ⟨code, out, err⟩)
      (Work.call ⟨runner.command image arguments, runner.directory, runner.limit⟩) :=
    ⟨fun w hw => ⟨h.calls w _ hw, hgiven w hw⟩⟩
  refine Yields.after (h.say_of_renders _ ?_) fun _ => Yields.bind hcall fun answer hanswer => ?_
  · exact Markup.Finished.renders_escape (by decide) _
  · cases answer with
    | finished code out err => exact Yields.pure (hanswer code out err rfl)
    | timedOut => exact Yields.throw ⟨_, rfl⟩
    | failed reason => exact Yields.throw ⟨_, rfl⟩

/-- Running a container keeps the invariant, and fails as the checker does. -/
theorem Runner.run_upholds (h : Steady invariant) (runner : Runner) (image : Image)
    (arguments : List String) :
    Upholds invariant (fun fault => ∃ failure, fault = .checker failure)
      (runner.run image arguments) := by
  have hrun : Yields invariant (fun fault => ∃ failure, fault = .checker failure) (fun _ => True)
      (runner.run image arguments) :=
    Runner.run_yields h runner image arguments fun _ _ _ _ _ _ => trivial
  exact hrun.upholds

/-- What the checker prints is what the container printed. -/
theorem Checker.check_yields (h : Steady invariant) (checker : Checker)
    (file artifact function flags : String) {printed : String → Prop}
    (hprinted : ∀ w, invariant w → ∀ words, arguments file artifact function flags = .ok words →
      ∀ code out err,
        w.answer w.calls ⟨checker.runner.command checker.image words, checker.runner.directory,
          checker.runner.limit⟩ = .finished code out err → printed out) :
    Yields invariant (fun _ => True) printed (checker.check file artifact function flags) := by
  have harguments : Yields invariant (fun _ => True)
      (fun words => arguments file artifact function flags = .ok words)
      (ofExcept (arguments file artifact function flags) : Work (List String)) :=
    Yields.ofExcept (fun _ hwords => hwords) fun _ _ => trivial
  refine Yields.bind harguments fun words hwords => ?_
  have hrun : Yields invariant (fun _ => True) (fun output => printed output.out)
      (checker.runner.run checker.image words) :=
    (Runner.run_yields h _ _ _ fun w hw => hprinted w hw words hwords).weaken fun _ _ => trivial
  refine Yields.bind hrun fun output houtput => Yields.ofExcept (fun out hout => ?_) fun _ _ => trivial
  rw [accept] at hout
  split at hout
  · exact Except.ok.inj hout ▸ houtput
  · split at hout
    · exact Except.ok.inj hout ▸ houtput
    · cases hout

/-- Checking a function keeps the invariant. -/
theorem Checker.check_upholds (h : Steady invariant) (checker : Checker)
    (file artifact function flags : String) :
    Upholds invariant (fun _ => True) (checker.check file artifact function flags) := by
  have hcheck : Yields invariant (fun _ => True) (fun _ => True)
      (checker.check file artifact function flags) :=
    Checker.check_yields h checker _ _ _ _ fun _ _ _ _ _ _ _ _ => trivial
  exact hcheck.upholds

namespace TreeGenerator

variable {file : String}

/-- Messages on a file whose name closes nothing can be rendered. -/
theorem fitting_of_file (hfile : (∀ cause, allowed (.markup cause)) ∨ Markup.ClosesNothing file)
    {message : String} (hmessage : Markup.ClosesNothing file → Markup.Renders message) :
    Fitting allowed message :=
  hfile.imp id hmessage

/-- A container that fails is noted, so the generator does not fail with it. -/
theorem generate_steady (h : Steady invariant)
    (hfile : (∀ cause, allowed (.markup cause)) ∨ Markup.ClosesNothing file)
    (generator : TreeGenerator) : Upholds invariant allowed (generator.generate file) := by
  refine Ensures.bind ((Runner.run_upholds h generator.runner generator.image [file]).attempt_ensures
    allowed) fun outcome => ?_
  have hsay {message : Note} (hfitting : Fitting allowed message.message) :
      Ensures (fun w => invariant w ∧ ∀ fault, outcome = .error fault →
        ∃ failure, fault = .checker failure) (say generator.runner.logger message)
        (fun _ w => invariant w) fun fault w => invariant w ∧ allowed fault :=
    (h.say_of_fitting hfitting).narrow fun _ hw => hw.1
  split
  · next failure =>
    refine Ensures.bind (hsay ?_) fun _ => Upholds.pure _
    refine fitting_of_file hfile fun hfile => ?_
    refine (Markup.ClosesNothing.finish (t := ": ") ?_ (by decide)).renders_escape _
    exact Markup.Finished.append (by decide) (Markup.closesNothing_escape hfile)
  · next fault hother =>
    refine Ensures.throw fun w hw => ?_
    obtain ⟨failure, rfl⟩ := hw.2 fault rfl
    exact absurd rfl (hother failure)
  · next output =>
    split
    · exact Ensures.pure fun _ hw => hw.1
    · refine Ensures.bind (hsay ?_) fun _ => Upholds.pure _
      refine fitting_of_file hfile fun hfile => ?_
      refine (Markup.ClosesNothing.finish (t := ": ") ?_ (by decide)).renders_escape _
      refine Markup.Finished.append ?_ (Markup.closesNothing_escape hfile)
      refine Markup.ClosesNothing.finish (t := "，跳过 ") ?_ (by decide)
      exact Markup.Finished.append (by decide) (Markup.closesNothing_int output.code)

/-- The test of an artifact keeps the invariant, and fails in the file system only. -/
theorem isFresh_steady
    (hother : ∀ fault, Foreign fault → Unmarked fault → allowed fault) (source target : String) :
    Upholds invariant allowed (isFresh source target) := by
  have htest : Upholds invariant allowed (testFile target) := by
    refine Upholds.bind Upholds.get fun w => ?_
    split
    · split
      · exact Upholds.throw (hother _ rfl fun _ heq => by cases heq)
      · exact Upholds.pure _
    · exact Upholds.bind Upholds.get fun _ => Upholds.pure _
  refine Upholds.bind htest fun isFile => ?_
  split
  · exact Upholds.pure _
  · refine Upholds.bind Upholds.get fun w => ?_
    dsimp only
    split
    · exact Upholds.pure _
    · exact Upholds.pure _

/-- Artifacts are made or left out without a fault that the program reports as its own. -/
theorem artifact_steady (h : Steady invariant)
    (hother : ∀ fault, Foreign fault → Unmarked fault → allowed fault)
    (hfile : (∀ cause, allowed (.markup cause)) ∨ Markup.ClosesNothing file)
    (generator : TreeGenerator) : Upholds invariant allowed (generator.artifact file) := by
  have hescaped {words t : String} (hwords : Markup.Finished words) :
      Fitting allowed (words ++ Markup.escape t) :=
    Or.inr (hwords.renders_escape t)
  have hpath : ∀ fault, artifactPath file = .error fault → allowed fault := by
    intro fault hfault
    rw [artifactPath] at hfault
    split at hfault
    · cases hfault
    · obtain rfl := Except.error.inj hfault
      exact hother _ rfl fun _ heq => by cases heq
  refine Upholds.bind (Upholds.ofExcept hpath) fun path => ?_
  refine Upholds.ite_of_else ?_ fun hmake => ?_
  · refine Upholds.bind (h.say_of_fitting ?_) fun _ => ?_
    · refine fitting_of_file hfile fun hfile => ?_
      refine (Markup.ClosesNothing.finish (t := " 生成 AST") ?_ (by decide)).closesNothing.renders
      exact Markup.Finished.append (by decide) (Markup.closesNothing_escape hfile)
    refine Upholds.bind (generate_steady h hfile generator) fun output => ?_
    cases output with
    | none => exact Upholds.pure _
    | some tree =>
      have hstored : Yields invariant allowed (fun _ => True)
          (Work.tryFiles (store (generator.inDirectory path) tree)) :=
        h.tryFiles_yields allowed (.andThen (makeDirectories_stationary _) fun _ =>
          write_stationary _ _) fun _ => trivial
      refine Upholds.bind hstored.upholds fun outcome => ?_
      cases outcome with
      | ok => exact Upholds.bind (h.say_of_fitting (hescaped (by decide))) fun _ => Upholds.pure _
      | error error =>
        dsimp only
        split
        · exact Upholds.throw (hother _ rfl fun _ heq => by cases heq)
        · refine Upholds.bind (h.say_of_fitting ?_) fun _ => Upholds.pure _
          refine fitting_of_file hfile fun hfile => ?_
          refine (Markup.ClosesNothing.finish (t := ": ") ?_ (by decide)).renders_escape _
          exact Markup.Finished.append (by decide) (Markup.closesNothing_escape hfile)
  · refine Upholds.bind (isFresh_steady hother _ _) fun fresh => ?_
    split
    · exact Upholds.bind (h.say_of_fitting (hescaped (by decide))) fun _ => Upholds.pure _
    · exact hmake

end TreeGenerator

end Container

end ClarityDelta
