import ClarityDelta.Config.Load
import ClarityDelta.Logging.Setup
import ClarityDelta.Proofs.Action
import ClarityDelta.Proofs.Files.InTurn
import ClarityDelta.Proofs.Terminal.Closing

/-!
# What files, loggers and calls do not show in

`Steady` says of an invariant of the workspace that it lasts whatever is done to the files, as long as
the working directory stays, to the loggers and their console, and to the record of calls. Noting,
calling another program, loading settings and setting up a logger keep such an invariant. Along with it
is said which faults they end with, and for noting that is little: a message that can be rendered is
always noted, `Steady.say_upholds`.
-/

namespace ClarityDelta

open Files FileTree FileWork Logging Terminal

/-! ## The working directory -/

namespace Files

/-- Work on a file tree that leaves the working directory as it is. -/
def Stationary {β : Type} (work : StateM FileTree β) : Prop :=
  ∀ tree, (work tree).2.current = tree.current

namespace Stationary

variable {α β : Type}

/-- Giving a result keeps the working directory. -/
theorem pure (b : β) : Stationary (pure b) := fun _ => rfl

/-- Work that begins by looking at the tree keeps the working directory as the rest does. -/
theorem get_bind {next : FileTree → StateM FileTree β} (h : ∀ tree, Stationary (next tree)) :
    Stationary (get >>= next) := fun tree => h tree tree

/-- Two steps of work in a row keep the working directory as each does. -/
theorem bind {work : StateM FileTree α} {next : α → StateM FileTree β} (h : Stationary work)
    (hnext : ∀ a, Stationary (next a)) : Stationary (work >>= next) :=
  fun tree => (hnext _ _).trans (h tree)

/-- Two steps of work that may fail keep the working directory as each does. -/
theorem andThen {work : FileWork α} {next : α → FileWork β} (h : Stationary work.run)
    (hnext : ∀ a, Stationary (next a).run) : Stationary (work >>= next).run := by
  rw [ExceptT.run_bind]
  refine bind h fun outcome => ?_
  cases outcome with
  | error error => exact pure _
  | ok a => exact hnext a

/-- Work that may fail, and begins by looking at the tree, keeps the working directory as the rest
does. -/
theorem getThen {next : FileTree → FileWork β} (h : ∀ tree, Stationary (next tree).run) :
    Stationary (get >>= next).run := fun tree => h tree tree

end Stationary

/-- Making directories in turn keeps the working directory. -/
theorem makeInTurn_stationary (path : String) : Stationary (makeInTurn path).run :=
  fun tree => (makeInTurn_grew path tree).current_eq

/-- Making directories keeps the working directory. -/
theorem makeDirectories_stationary (path : String) : Stationary (makeDirectories path).run :=
  fun tree => (makeDirectories_grew path tree).current_eq

/-- Writing a file keeps the working directory. -/
theorem write_stationary (path : String) (content : ByteArray) : Stationary (write path content).run :=
  fun tree => (write_stays path content tree).current_eq

/-- Writing a text that may have no bytes leaves the working directory as it is. -/
theorem writeCodes_stationary (path : String) (text : Text.CodeText) :
    Stationary (writeCodes path text).run := by
  rw [writeCodes]
  split
  · exact .andThen (write_stationary path _) fun _ => .pure _
  · exact .andThen (write_stationary path _) fun _ => .pure _

/-- Opening a file keeps the working directory. -/
theorem openEnd_stationary (path : String) : Stationary (openEnd path).run := by
  intro tree
  obtain ⟨error, hopen⟩ | ⟨location, after, file, -, hopen, -, rfl | hwrote⟩ :=
    openEnd_cases path tree
  · exact congrArg (·.2.current) hopen
  · exact congrArg (·.2.current) hopen
  · exact (congrArg (·.2.current) hopen).trans hwrote.current_eq

/-- Adding to a file keeps the working directory. -/
theorem append_stationary (id : Nat) (content : ByteArray) : Stationary (append id content).run := by
  intro tree
  obtain ⟨after, happend, -, hcurrent, -⟩ := append_apply id content tree
  exact (congrArg (·.2.current) happend).trans hcurrent

/-- Removing a file keeps the working directory. -/
theorem remove_stationary (path : String) : Stationary (remove path).run := by
  intro tree
  obtain ⟨error, hremove⟩ | ⟨location, file, after, -, -, hremove, -, hcurrent, -⟩ :=
    remove_cases path tree
  · exact congrArg (·.2.current) hremove
  · exact (congrArg (·.2.current) hremove).trans hcurrent

/-- Moving a file keeps the working directory. -/
theorem move_stationary (source target : String) : Stationary (move source target).run := by
  intro tree
  obtain ⟨error, hmove⟩ | ⟨start, destination, after, -, -, -, hmove, -, hcurrent, -⟩ :=
    move_cases source target tree
  · exact congrArg (·.2.current) hmove
  · exact (congrArg (·.2.current) hmove).trans hcurrent

/-! ## Paths in errors -/

/-- Work on files that fails with errors on one path only. -/
def Blames {α : Type} (path : String) (work : FileWork α) : Prop :=
  Upholds (fun _ => True) (fun error => error.path = path) work

/-- Making directories blames the path of these. -/
theorem makeDirectories_blames (path : String) : Blames path (makeDirectories path) :=
  (makeDirectories_failsAt path).weaken fun _ h => h.1

/-- Writing a text blames its path. -/
theorem writeCodes_blames (path : String) (text : Text.CodeText) :
    Blames path (writeCodes path text) := by
  have hwrite (content : ByteArray) : Blames path (write path content) :=
    (write_failsAt path content).weaken fun _ h => h.1
  rw [writeCodes]
  split
  · exact Upholds.bind (hwrite _) fun _ => Upholds.pure _
  · exact Upholds.bind (hwrite _) fun _ => Upholds.pure _

end Files

namespace Logging

/-- Replacing a file by another one keeps the working directory. -/
theorem replaceFile_stationary (source target : String) :
    Stationary (replaceFile source target).run := by
  refine .getThen fun tree => ?_
  split
  · refine .getThen fun tree => ?_
    split
    · exact .andThen (remove_stationary target) fun _ => move_stationary source target
    · exact move_stationary source target
  · exact .pure _

/-- Setting a log aside keeps the working directory. -/
theorem setAside_stationary (sink : FileSink) : Stationary sink.setAside.run := by
  have hshift (n : Nat) : Stationary (shiftBackups sink n).run := by
    induction n with
    | zero => exact .pure _
    | succ n ih => exact .andThen (replaceFile_stationary _ _) fun _ => ih
  have hlast : Stationary (do
      if (← get).holds sink.path then move sink.path (sink.backup 1) : FileWork Unit).run := by
    refine .getThen fun tree => ?_
    split
    · exact move_stationary _ _
    · exact .pure _
  rw [FileSink.setAside]
  split
  · refine .andThen (hshift _) fun _ => .getThen fun tree => ?_
    split
    · exact .andThen (remove_stationary _) fun _ => hlast
    · exact hlast
  · exact .pure _

/-- Adding a line to a log leaves the working directory as it is. -/
theorem add_stationary (sink : FileSink) (line : String) : Stationary (sink.add line) := by
  have happend (id : Nat) : Stationary (do
      discard (append id line.toUTF8).run
      return { sink with opened := some id } : StateM FileTree FileSink) :=
    .bind (.bind (append_stationary _ _) fun _ => .pure _) fun _ => .pure _
  refine .get_bind fun tree => .bind ?_ fun outcome => ?_
  · dsimp only
    split
    · exact .pure _
    · exact openEnd_stationary _
  cases outcome with
  | error error => exact .pure _
  | ok id =>
    refine .get_bind fun after => ?_
    dsimp only
    split
    · refine .bind (setAside_stationary sink) fun outcome => ?_
      cases outcome with
      | error error => exact .pure _
      | ok =>
        refine .bind (openEnd_stationary _) fun outcome => ?_
        cases outcome with
        | error error => exact .pure _
        | ok id => exact happend id
    · exact happend id

/-! ## Invariants -/

/-- An invariant that lasts whatever is done to the files of one working directory, to the loggers and
their console, and to the record of calls. -/
structure Steady (invariant : Workspace → Prop) : Prop where
  files : ∀ (w : Workspace) files, files.current = w.files.current → invariant w →
    invariant { w with files := files }
  loggers : ∀ (w : Workspace) loggers, invariant w → invariant { w with loggers := loggers }
  console : ∀ (w : Workspace) console, invariant w → invariant { w with console := console }
  calls : ∀ (w : Workspace) calls, invariant w → invariant { w with calls := calls }

/-- The message cannot be rendered on the console, and the fault tells why. -/
def Breaks (message : String) (fault : Fault) : Prop :=
  ∃ cause, Markup.render message = .error cause ∧ fault = .markup cause

namespace Steady

variable {invariant : Workspace → Prop} {α : Type}

/-- A change of a logger does not show in a steady invariant, and cannot fail. -/
theorem updateLogger_upholds (h : Steady invariant) (allowed : Fault → Prop) (name : String)
    (change : Logger → Logger) : Upholds invariant allowed (Work.updateLogger name change) :=
  Upholds.modify fun w hw => h.loggers w _ hw

/-- File work in a workspace fails with its own fault. -/
theorem files_upholds (h : Steady invariant) {work : FileWork α} (hwork : Stationary work.run) :
    Upholds invariant (fun fault => ∃ error, fault = .file error) (Work.files work) := by
  refine ⟨fun w hw => ?_⟩
  have hcurrent := hwork w.files
  rw [Work.files]
  rcases hrun : work w.files with ⟨error | a, after⟩
  · rw [ExceptT.run, hrun] at hcurrent
    exact ⟨h.files w after hcurrent hw, error, rfl⟩
  · rw [ExceptT.run, hrun] at hcurrent
    exact h.files w after hcurrent hw

/-- The outcome of file work in a workspace is what the work ends with on the files. -/
theorem tryFiles_yields (h : Steady invariant) (allowed : Fault → Prop) {work : FileWork α}
    (hwork : Stationary work.run) {outcome : Except FileError α → Prop}
    (houtcome : ∀ tree, outcome (work tree).1) :
    Yields invariant allowed outcome (Work.tryFiles work) :=
  ⟨fun w hw => ⟨h.files w _ (hwork w.files) hw, houtcome w.files⟩⟩

/-- A handler keeps the invariant and fails on a message that cannot be rendered at most. -/
theorem handle_upholds (h : Steady invariant) (entry : Entry) (handler : Handler) :
    Upholds invariant (Breaks entry.message) (handler.handle entry) := by
  cases handler with
  | console =>
    rw [Handler.handle]
    split
    · next cause hcause => exact Upholds.throw ⟨cause, hcause, rfl⟩
    · exact Upholds.bind (Upholds.modify fun w hw => h.console w _ hw) fun _ => Upholds.pure _
  | file sink =>
    rw [Handler.handle]
    split
    · exact Upholds.pure _
    · split
      · exact Upholds.pure _
      · next line hline =>
        refine Upholds.bind (?_ : Upholds invariant _ (Work.files _)) fun _ => Upholds.pure _
        exact ⟨fun w hw => h.files w _ (add_stationary sink line w.files) hw⟩

/-- Several handlers keep the invariant and fail on a message that cannot be rendered at most. -/
theorem handleAll_upholds (h : Steady invariant) (name : String) (entry : Entry) (index : Nat)
    (handlers : List Handler) :
    Upholds invariant (Breaks entry.message) (handleAll name entry index handlers) := by
  induction handlers generalizing index with
  | nil => exact Upholds.pure ()
  | cons handler rest ih =>
    rw [handleAll]
    refine Upholds.bind (h.handle_upholds entry handler) fun _ => ?_
    exact Upholds.bind (h.updateLogger_upholds _ name _) fun _ => ih (index + 1)

/-- Several loggers keep the invariant and fail on a message that cannot be rendered at most. -/
theorem receive_upholds (h : Steady invariant) (entry : Entry) (loggers : List Logger) :
    Upholds invariant (Breaks entry.message) (receive entry loggers) := by
  induction loggers with
  | nil => exact Upholds.pure ()
  | cons logger above ih =>
    rw [receive]
    refine Upholds.bind (h.updateLogger_upholds _ logger.name _) fun _ => ?_
    exact Upholds.bind (h.handleAll_upholds logger.name entry 0 logger.handlers) fun _ => ih

/-- Noting a message keeps the invariant. Only a message that cannot be rendered makes it fail. -/
theorem say_upholds (h : Steady invariant) (name : String) (message : Note) :
    Upholds invariant (Breaks message.message) (say name message) := by
  refine Upholds.bind Upholds.get fun w => ?_
  refine Upholds.bind Upholds.get fun w => ?_
  dsimp only
  split
  · exact h.receive_upholds _ _
  · exact Upholds.pure ()

/-- Noting a message that can be rendered does not fail. -/
theorem say_of_renders (h : Steady invariant) (allowed : Fault → Prop) {name : String}
    {message : Note} (hrenders : Markup.Renders message.message) :
    Upholds invariant allowed (say name message) := by
  obtain ⟨cs, hcs⟩ := hrenders
  refine (h.say_upholds name message).weaken ?_
  rintro _ ⟨cause, hcause, -⟩
  rw [hcs] at hcause
  cases hcause

end Steady

/-- A fault that is no fault of the markup. -/
def Unmarked (fault : Fault) : Prop :=
  ∀ cause, fault ≠ .markup cause

/-! ## Setting up -/

/-- The directory that is made for a log. -/
def logDirectory (path : String) : String :=
  if (directoryText path).isEmpty then "." else directoryText path

/-- What is noted when the directory of a log cannot be made. -/
def noDirectoryText (error : FileError) : String :=
  s!"日志目录创建失败，仅输出到控制台: {error.message}"

namespace Steady

variable {allowed : Fault → Prop} {options : LoggerOptions}

/-- Giving a logger a file fails with a fault of the markup only where the note on a directory that
cannot be made does. -/
theorem addFile_upholds (h : Steady invariant) {name path : String} {level : Int}
    (hother : ∀ fault, Unmarked fault → allowed fault)
    (hbreaks : ∀ error, FailsWithin (logDirectory path) error →
      ∀ fault, Breaks (noDirectoryText error) fault → allowed fault) :
    Upholds invariant allowed (addFile name path level options) := by
  have hmade : Yields invariant allowed
      (fun outcome => ∀ error, outcome = .error error → FailsWithin (logDirectory path) error)
      (Work.tryFiles (makeInTurn (logDirectory path))) :=
    h.tryFiles_yields allowed (makeInTurn_stationary _) fun _ _ herror => makeInTurn_fails herror
  refine hmade.then_upholds fun outcome houtcome => ?_
  cases outcome with
  | error error =>
    dsimp only
    split
    · exact (h.say_upholds name (.warning (noDirectoryText error))).weaken
        (hbreaks error (houtcome error rfl))
    · exact Upholds.throw (hother _ fun cause heq => by cases heq)
  | ok =>
    have hfile : ∀ fault, (∃ error, fault = .file error) → allowed fault := by
      rintro _ ⟨error, rfl⟩
      exact hother _ fun cause heq => by cases heq
    refine Upholds.bind Upholds.get fun w => ?_
    refine Upholds.bind ((h.files_upholds (openEnd_stationary _)).weaken hfile) fun id => ?_
    dsimp only
    generalize (if options.format.isEmpty = true then usualFormat else options.format) = format
    split
    · exact Upholds.throw (hother _ fun cause heq => by cases heq)
    · exact h.updateLogger_upholds allowed name _

/-- Setting a logger up fails with a fault of the markup only where the note on a directory that cannot
be made does. -/
theorem setUp_upholds (h : Steady invariant) {name : String}
    (hother : ∀ fault, Unmarked fault → allowed fault)
    (hbreaks : ∀ error, FailsWithin (logDirectory options.filePath) error →
      ∀ fault, Breaks (noDirectoryText error) fault → allowed fault) :
    Upholds invariant allowed (setUp name options) := by
  rw [setUp]
  refine Upholds.bind (h.updateLogger_upholds allowed _ _) fun _ => ?_
  cases hlevel : options.levelNumber with
  | error fault =>
    refine Upholds.throw (hother _ ?_)
    rw [LoggerOptions.levelNumber] at hlevel
    rintro cause rfl
    split at hlevel
    · cases hlevel
    · next level _ =>
      cases hname : levelOfName level with
      | error text =>
        rw [hname] at hlevel
        cases hlevel
      | ok n =>
        rw [hname] at hlevel
        cases hlevel
  | ok level =>
    refine Upholds.bind (h.updateLogger_upholds allowed _ _) fun _ => ?_
    refine Upholds.bind Upholds.get fun w => ?_
    dsimp only
    split
    · exact h.addFile_upholds hother hbreaks
    · exact Upholds.pure ()

end Steady

end Logging

/-! ## Settings -/

namespace Config

open Text Data

variable {invariant : Workspace → Prop}

section

variable {allowed : Fault → Prop}
  (hsay : ∀ message, Markup.ClosesNothing message →
    Upholds invariant allowed (say configLogger (.warning message)))
  (hother : ∀ fault : Fault, fault.isOwn = false → Unmarked fault → allowed fault)

include hsay hother

/-- A text in a configuration file fails for what is no text or has no value. -/
theorem textFields_upholds {path : String} (hpath : path ∈ configPaths) (text : String) :
    Upholds invariant allowed (textFields path text) := by
  unfold textFields
  split
  · next document hdocument =>
    cases document with
    | empty => exact Upholds.pure _
    | mapping pairs => exact Upholds.pure _
    | other value =>
      rw [documentFields]
      split
      · refine Upholds.bind (hsay _ ?_) fun _ => Upholds.pure _
        revert path
        decide +kernel
      · exact Upholds.pure _
  · exact Upholds.throw (hother _ rfl fun cause heq => by cases heq)
  · exact Upholds.bind (hsay _ (by decide +kernel)) fun _ => Upholds.pure _

/-- What keeps every note on a configuration file is kept while settings are loaded, and loading fails
with no fault of the program's own work or of the markup but for those notes. -/
theorem load_upholds_of_say (given : Fields) : Upholds invariant allowed (load given) := by
  have hfile : Upholds invariant allowed fileFields := by
    refine Upholds.bind Upholds.get fun w => ?_
    dsimp only
    split
    · exact Upholds.pure _
    · next path hfind =>
      split
      · exact textFields_upholds hsay hother (List.mem_of_find?_eq_some hfind) _
      · exact Upholds.throw (hother _ rfl fun cause heq => by cases heq)
      · exact Upholds.pure _
  have hvalid (checked : Checked Settings) : Upholds invariant allowed (Action.valid checked) := by
    cases checked with
    | valid settings => exact Upholds.pure settings
    | invalid complaints => exact Upholds.throw (hother _ rfl fun cause heq => by cases heq)
  refine Upholds.bind Upholds.get fun w => ?_
  split
  · exact Upholds.throw (hother _ rfl fun cause heq => by cases heq)
  · refine Upholds.bind hfile fun file => ?_
    unfold build
    split
    · exact Upholds.bind (Upholds.throw (hother _ rfl fun cause heq => by cases heq)) fun _ => hvalid _
    · exact hvalid _

end

/-- Loading settings never fails with a fault of the markup. -/
theorem load_upholds (h : Steady invariant) (given : Fields) :
    Upholds invariant Unmarked (load given) :=
  load_upholds_of_say (fun _ hmessage => h.say_of_renders Unmarked hmessage.renders)
    (fun _ _ hunmarked => hunmarked) given

end Config

end ClarityDelta
