import ClarityDelta.Cli.Commands
import ClarityDelta.Proofs.Logging.Confined
import ClarityDelta.Proofs.Logging.Steady
import ClarityDelta.Proofs.Pipeline.Invariant

/-!
# Runs of the program and its log

Those who answer the requests of a run, on the program's own workspace, note messages and write
artifacts. Both leave the log where it was, so a whole run does, `run_confined`. A run never fails with
a fault that the program reports as a failure of its own work: a checker that fails makes a result, and
a generator of syntax trees that fails makes a file without an artifact.
-/

namespace ClarityDelta

open Config Container Files FileTree FileWork Invocation Logging Pipeline Report Revision Text

variable {current : Location} {zone : Location → Prop}

/-- All loggers write to files in a zone only. -/
def LogsConfined (current : Location) (zone : Location → Prop) : Workspace → Prop :=
  Confined current zone fun _ => True

/-- Noting keeps the log in its places. -/
theorem say_confined (name : String) (message : Note) :
    Upholds (LogsConfined current zone) Foreign (say name message) :=
  say_upholds (Lasting.true zone) name message

/-- Calling another program touches no log. -/
theorem call_confined (call : Call) : Upholds (LogsConfined current zone) Foreign (Work.call call) :=
  ⟨fun _ h => ⟨h.sound, h.current_eq, h.logs, h.kept⟩⟩

/-! ## Settings -/

namespace Config

/-- Loading settings leaves the logs where they are, and is no work of the program's own. -/
theorem load_confined (given : Data.Fields) :
    Upholds (LogsConfined current zone) Foreign (load given) :=
  load_upholds_of_say (fun _ _ => say_confined _ _) (fun _ hforeign _ => hforeign) given

end Config

/-! ## The repository -/

namespace Revision.Repository

/-- Asking the version control program keeps the log in its places. -/
theorem ask_confined (repository : Repository) (arguments : List String) :
    Upholds (LogsConfined current zone) Foreign (repository.ask arguments) := by
  refine Upholds.bind (call_confined _) fun answer => ?_
  cases answer <;> exact Upholds.pure _

/-- Asking for a content keeps the log in its places. -/
theorem content_confined (repository : Repository) (revision path : String) :
    Upholds (LogsConfined current zone) Foreign (repository.content revision path) := by
  refine Upholds.bind (ask_confined repository _) fun (code, out, err) => ?_
  dsimp only
  split
  · exact Upholds.pure _
  · exact Upholds.bind (say_confined _ _) fun _ => Upholds.pure _

/-- Asking for the files that differ keeps the log in its places. -/
theorem modifiedFiles_confined (repository : Repository) (base head : String)
    (directories : List String) :
    Upholds (LogsConfined current zone) Foreign
      (repository.modifiedFiles base head directories) := by
  refine Upholds.bind (ask_confined repository _) fun (code, out, err) => ?_
  dsimp only
  split
  · exact Upholds.bind Upholds.get fun _ => Upholds.pure _
  · exact Upholds.bind (say_confined _ _) fun _ => Upholds.pure _

end Revision.Repository

/-! ## Containers -/

namespace Container

/-- Running a container keeps the log in its places, and fails as the checker does or with a foreign
fault. -/
theorem Runner.run_confined (runner : Runner) (image : Image) (arguments : List String) :
    Upholds (LogsConfined current zone)
      (fun fault => Foreign fault ∨ ∃ failure, fault = .checker failure)
      (runner.run image arguments) := by
  refine Upholds.bind ((say_confined _ _).weaken fun _ => Or.inl) fun _ => ?_
  refine Upholds.bind ((call_confined _).weaken fun _ => Or.inl) fun answer => ?_
  cases answer with
  | finished code out err => exact Upholds.pure _
  | timedOut => exact Upholds.throw (Or.inr ⟨_, rfl⟩)
  | failed reason => exact Upholds.throw (Or.inr ⟨_, rfl⟩)

/-- The checker keeps the log in its places, however it fails. -/
theorem Checker.check_confined (checker : Checker) (file artifact function flags : String) :
    Upholds (LogsConfined current zone) (fun _ => True)
      (checker.check file artifact function flags) := by
  refine Upholds.bind (Upholds.ofExcept fun _ _ => trivial) fun arguments => ?_
  refine Upholds.bind ((Runner.run_confined _ _ _).weaken fun _ _ => trivial) fun output => ?_
  exact Upholds.ofExcept fun _ _ => trivial

namespace TreeGenerator

/-- The test of an artifact touches no log. -/
theorem isFresh_confined (source target : String) :
    Upholds (LogsConfined current zone) Foreign (isFresh source target) := by
  have htest : Upholds (LogsConfined current zone) Foreign (testFile target) := by
    refine Upholds.bind Upholds.get fun w => ?_
    split
    · split
      · exact Upholds.throw rfl
      · exact Upholds.pure _
    · exact Upholds.bind Upholds.get fun _ => Upholds.pure _
  refine Upholds.bind htest fun isFile => ?_
  split
  · exact Upholds.pure _
  · refine Upholds.bind Upholds.get fun w => ?_
    dsimp only
    split
    · exact Upholds.pure _
    · exact Upholds.pure _

/-- Making an artifact keeps the log in its places; the failures of the checker are noted, so only a
foreign fault is left. -/
theorem generate_confined (generator : TreeGenerator) (file : String) :
    Upholds (LogsConfined current zone) Foreign (generator.generate file) := by
  refine Ensures.bind ((Runner.run_confined generator.runner generator.image [file]).attempt_ensures
    Foreign) fun outcome => ?_
  split
  · next failure =>
    exact Ensures.bind ((say_confined _ _).narrow fun _ h => h.1) fun _ => Upholds.pure _
  · next fault hother =>
    refine Ensures.throw fun w h => ⟨h.1, (h.2 fault rfl).resolve_right ?_⟩
    rintro ⟨failure, rfl⟩
    exact hother failure rfl
  · split
    · exact Ensures.pure fun _ h => h.1
    · exact Ensures.bind ((say_confined _ _).narrow fun _ h => h.1) fun _ => Upholds.pure _

/-- A contract's path without a name is no failure of the program's own work. -/
theorem foreign_of_artifactPath {file : String} {fault : Fault}
    (h : artifactPath file = .error fault) : Foreign fault := by
  rw [artifactPath] at h
  split at h
  · cases h
  · obtain rfl := Except.error.inj h
    rfl

/-- Storing an artifact keeps the log in its places. -/
theorem store_confined (target text : String) :
    Upholds (LogsConfined current zone) Foreign (Work.tryFiles (store target text)) := by
  refine ⟨fun w h => ?_⟩
  rw [tryFiles_apply]
  exact h.of_stays (makeDirectories_write_stays _ _ _ w.files) trivial

/-- Reusing an artifact that is fresh enough keeps the log in its places, if making a new one does. -/
theorem reuse_confined {reuse : Bool} {source target logger : String} {message : Note}
    {artifact : Option String} {work : Work (Option String)}
    (h : Upholds (LogsConfined current zone) Foreign work) :
    Upholds (LogsConfined current zone) Foreign
      (if reuse = true then do
        if (← isFresh source target) = true then do
          say logger message
          return artifact
        else work
      else work) := by
  split
  · refine Upholds.bind (isFresh_confined source target) fun fresh => ?_
    split
    · exact Upholds.bind (say_confined _ _) fun _ => Upholds.pure _
    · exact h
  · exact h

/-- Asking for an artifact keeps the log in its places. -/
theorem artifact_confined (generator : TreeGenerator) (file : String) :
    Upholds (LogsConfined current zone) Foreign (generator.artifact file) := by
  refine Upholds.bind (Upholds.ofExcept fun _ => foreign_of_artifactPath) fun path => ?_
  refine reuse_confined ?_
  refine Upholds.bind (say_confined _ _) fun _ => ?_
  refine Upholds.bind (generate_confined generator file) fun output => ?_
  cases output with
  | none => exact Upholds.pure _
  | some tree =>
    refine Upholds.bind (store_confined _ tree) fun outcome => ?_
    cases outcome with
    | ok => exact Upholds.bind (say_confined _ _) fun _ => Upholds.pure _
    | error error =>
      dsimp only
      split
      · exact Upholds.throw rfl
      · exact Upholds.bind (say_confined _ _) fun _ => Upholds.pure _

end TreeGenerator

end Container

/-! ## Runs -/

namespace Cli

/-- All collaborators of the commands keep the log in its places. -/
theorem collaborators_confined (settings : Settings) (root : String) :
    (collaborators settings root).Uphold (LogsConfined current zone) Foreign where
  note message := say_confined programLogger message
  modifiedFiles base head directories :=
    Repository.modifiedFiles_confined _ base head directories
  content revision path := Repository.content_confined _ revision path
  artifact file := TreeGenerator.artifact_confined _ file
  check file artifact function flags := Checker.check_confined _ file artifact function flags

/-- A run leaves the log where it was, and fails with a foreign fault if at all. -/
theorem run_confined (settings : Settings) (root : String) (files : Option (List String)) :
    Upholds (LogsConfined current zone) Foreign
      (Pipeline.run (collaborators settings root) settings files) :=
  (run_yields (collaborators_confined settings root) (fun _ => rfl) settings files).upholds

end Cli

end ClarityDelta
