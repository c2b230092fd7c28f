import ClarityDelta.Proofs.Files.Opening
import ClarityDelta.Proofs.Logging.FileHandlers

/-!
# Loggers without a file

A logger does without its file where the directory of the file cannot be made. It does not where the
directory is made and the file cannot be opened then: `setUp_outcome` says when that is, in terms of the
files before, and that nothing else of the file tree keeps a logger from being set up. A directory in the
place of the file is enough, `setUp_cluttered`.
-/

namespace ClarityDelta

open Files FileTree FileWork Logging Text

namespace Files.FileTree

/-- Once its directory is made, the file of a log can be opened: its absolute path is no longer than it
may be and leads into a directory, and no directory stands in its place. -/
structure Opens (tree : FileTree) (path : String) : Prop where
  fits : Fits (absoluteText tree.current path)
  inside : tree.PavedAt (logDirectory path) (locate tree.current path).dropLast
  free : ¬ tree.PavedAt (logDirectory path) (locate tree.current path)

/-- Behind a paved way to its directory, a log can be opened just when the tree opens it. -/
theorem Paved.opens_iff {tree after : FileTree} {path : String}
    (h : tree.Paved (tree.origin (logDirectory path)) (stages (logDirectory path)) after) :
    Fits (absoluteText after.current path) ∧
        after.look (locate after.current path).dropLast = some none ∧
          after.look (locate after.current path) ≠ some none ↔ tree.Opens path := by
  rw [h.grew.current_eq, Ne, h.look_eq_directory_iff, h.look_eq_directory_iff]
  exact ⟨fun hopens => ⟨hopens.1, hopens.2.1, hopens.2.2⟩,
    fun hopens => ⟨hopens.fits, hopens.inside, hopens.free⟩⟩

end Files.FileTree

namespace Logging

variable {w : Workspace} {name path : String}

/-! ## Giving a logger its file -/

/-- What comes of giving a logger a file: the logger does without it, or it is refused, or opened. -/
inductive FileAdded (name path : String) (w : Workspace) : Except Fault Unit × Workspace → Prop
  | without {error : FileError} {files : FileTree} (hmake : ¬ w.files.CanMake (logDirectory path))
      (hwithin : FailsWithin (logDirectory path) error) :
      FileAdded name path w (say name (.warning (noDirectoryText error)) { w with files := files })
  | refused {error : FileError} {files : FileTree} (hmake : w.files.CanMake (logDirectory path))
      (hopens : ¬ w.files.Opens path) (hsystem : error.isSystem = true) :
      FileAdded name path w (.error (.file error), { w with files := files })
  | opened {sink : FileSink} {files : FileTree} (hmake : w.files.CanMake (logDirectory path))
      (hopens : w.files.Opens path) :
      FileAdded name path w (.ok (), { w with
        files := files
        loggers := w.loggers.update name fun logger =>
          { logger with handlers := logger.handlers ++ [.file sink] } })

/-- A logger is given its file, or the warning is noted, or opening the file fails. -/
theorem addFile_cases {level : Int} {options : LoggerOptions} (hsound : w.files.Sound)
    (hcurrent : w.files.look w.files.current = some none)
    (hfree : ∀ part ∈ w.files.current, '\x00' ∉ part.toList) (hpath : '\x00' ∉ path.toList)
    (hformat : Template.hasField options.format.toList = true) :
    FileAdded name path w (addFile name path level options w) := by
  have hnul : '\x00' ∉ (logDirectory path).toList := by
    rw [logDirectory]
    split
    · decide
    · exact fun hmem => hpath ((directoryText_part path).subset hmem)
  have hrun : addFile name path level options w = _ :=
    Action.bind_apply (Work.tryFiles (makeInTurn (logDirectory path))) _ w
  rw [hrun, tryFiles_apply]
  dsimp only
  obtain ⟨error, files, hmade, hwithin, -, hmake⟩ | ⟨files, hmade, hmake, hpaved⟩ :=
    makeInTurn_cases (logDirectory path) hcurrent
  · rw [hmade]
    dsimp only
    rw [if_pos (hwithin.2 hnul)]
    exact .without hmake hwithin
  · rw [hmade]
    dsimp only
    rw [Action.get_bind_apply]
    dsimp only
    rw [Action.bind_apply, Work.files]
    obtain ⟨⟨id, after, hopen⟩, hcan⟩ | ⟨⟨error, hopen⟩, hcannot⟩ :=
      openEnd_absoluteText (hpaved.grew.sound hsound) path
    · have hasked : ¬ options.format.isEmpty = true := by
        intro hempty
        rw [String.isEmpty_iff.1 hempty] at hformat
        cases hformat
      rw [hopen]
      dsimp only
      rw [if_neg hasked, hformat]
      exact .opened hmake (hpaved.opens_iff.1 hcan)
    · have hsystem : error.isSystem = true := by
        have hfails := (openEnd_failsAt _).allowed_of_error trivial (congrArg Prod.fst hopen)
        refine hfails.2 (nulFree_absoluteText ?_ hpath)
        rwa [hpaved.grew.current_eq]
      rw [hopen]
      exact .refused hmake (fun h => hcannot (hpaved.opens_iff.2 h)) hsystem

/-- The files before tell which errors giving a logger a file ends with, and whether the logger has a
file then. -/
theorem FileAdded.outcome {result : Except Fault Unit × Workspace}
    (h : FileAdded (canonicalName name) path w result) :
    ((∃ error, result.1 = .error (.file error) ∧ error.isSystem = true) ↔
        w.files.CanMake (logDirectory path) ∧ ¬ w.files.Opens path) ∧
      (∀ fault, result.1 = .error fault → (∃ error, fault = .file error ∧ error.isSystem = true) ∨
        ¬ w.files.CanMake (logDirectory path) ∧
          ∃ error, FailsWithin (logDirectory path) error ∧ Breaks (noDirectoryText error) fault) ∧
      (result.1 = .ok () → (WritesFile result.2 name ↔ WritesFile w name ∨
        w.files.CanMake (logDirectory path) ∧ w.files.Opens path)) := by
  cases h with
  | @without error files hmake hwithin =>
    obtain ⟨hbreaks, hkept⟩ := say_writesFile { w with files := files } name (canonicalName name)
      (.warning (noDirectoryText error))
    refine ⟨iff_of_false ?_ fun h => hmake h.1, fun fault hfault => ?_, fun _ => hkept.trans ?_⟩
    · rintro ⟨cause, hcause, -⟩
      obtain ⟨broken, -, hfault⟩ := hbreaks _ hcause
      cases hfault
    · exact Or.inr ⟨hmake, error, hwithin, hbreaks fault hfault⟩
    · exact (or_iff_left fun hopened => hmake hopened.1).symm
  | @refused error files hmake hopens hsystem =>
    refine ⟨iff_of_true ⟨error, rfl, hsystem⟩ ⟨hmake, hopens⟩, ?_, fun hok => by cases hok⟩
    intro fault hfault
    exact Or.inl ⟨error, (Except.error.inj hfault).symm, hsystem⟩
  | @opened sink files hmake hopens =>
    refine ⟨iff_of_false ?_ fun h => h.2 hopens, fun fault hfault => (by cases hfault), fun _ => ?_⟩
    · rintro ⟨error, herror, -⟩
      cases herror
    · exact iff_of_true (writesFile_addSink { w with files := files } name sink)
        (Or.inr ⟨hmake, hopens⟩)

/-! ## Setting a logger up -/

/-- A logger with its level, and with a console where one is asked for. -/
def leveled (options : LoggerOptions) (level : Int) (logger : Logger) : Logger :=
  { logger with
    level := level
    propagate := logger.propagate && options.toConsole
    handlers :=
      if options.toConsole && !logger.handlers.contains .console then logger.handlers ++ [.console]
      else logger.handlers }

/-- Levels do not change whether a logger writes to a file. -/
theorem any_isFile_leveled (options : LoggerOptions) (level : Int) (logger : Logger) :
    (leveled options level logger).handlers.any Handler.isFile = logger.handlers.any Handler.isFile := by
  rw [leveled]
  dsimp only
  split
  · rw [List.any_append]
    exact Bool.or_false _
  · rfl

/-- A logger whose level is known gets a file where one is asked for and it has none. -/
theorem setUp_cases {options : LoggerOptions} {level : Int} (hlevel : options.levelNumber = .ok level)
    (name : String) (w : Workspace) :
    ∃ loggers, (WritesFile { w with loggers := loggers } name ↔ WritesFile w name) ∧
      (options.filePath ≠ "" ∧ ¬ WritesFile w name → setUp name options w =
        addFile (canonicalName name) options.filePath level options { w with loggers := loggers }) ∧
      (¬ (options.filePath ≠ "" ∧ ¬ WritesFile w name) →
        setUp name options w = (.ok (), { w with loggers := loggers })) := by
  let loggers := (w.loggers.update (canonicalName name) id).update (canonicalName name)
    (leveled options level)
  have hwrites : (loggers.find (canonicalName name)).handlers.any Handler.isFile =
      (w.loggers.find (canonicalName name)).handlers.any Handler.isFile := by
    rw [find_update_self (leveled options level) fun _ => rfl, find_update_self id fun _ => rfl,
      any_isFile_leveled]
    rfl
  have hrun : setUp name options w =
      (if !options.filePath.isEmpty && !(loggers.find (canonicalName name)).handlers.any Handler.isFile
        then addFile (canonicalName name) options.filePath level options
        else pure ()) { w with loggers := loggers } := by
    have hbegin : setUp name options w = _ :=
      Action.bind_apply (Work.updateLogger (canonicalName name) id) _ w
    rw [hbegin, hlevel]
    rfl
  have hasked : (!options.filePath.isEmpty &&
      !(loggers.find (canonicalName name)).handlers.any Handler.isFile) = true ↔
        options.filePath ≠ "" ∧ ¬ WritesFile w name := by
    rw [hwrites, WritesFile]
    simp
  refine ⟨loggers, by rw [WritesFile, WritesFile, hwrites], fun h => ?_, fun h => ?_⟩
  · rw [hrun, if_pos (hasked.2 h)]
  · rw [hrun, if_neg (mt hasked.1 h)]
    rfl

/-- Setting a logger up ends with an error of the file tree exactly when the directory of its file can be
made and the file cannot be opened then. Otherwise the logger is set up, unless it is to be noted that
the directory cannot be made and the note cannot be rendered. A logger that is set up has a file when it
had one before, or when the file could be opened. -/
theorem setUp_outcome {settings : Config.Settings} {toFile : Bool} {level : Int}
    (hsound : w.files.Sound) (hcurrent : w.files.look w.files.current = some none)
    (hfree : ∀ part ∈ w.files.current, '\x00' ∉ part.toList)
    (hpath : '\x00' ∉ (LoggerOptions.ofSettings settings toFile).filePath.toList)
    (hlevel : levelOfName settings.logging.level = .ok level)
    (hformat : Template.hasField settings.logging.logFormat.toList = true) (name : String) :
    let path := (LoggerOptions.ofSettings settings toFile).filePath
    let asked := path ≠ "" ∧ ¬ WritesFile w name
    let done := setUp name (.ofSettings settings toFile) w
    ((∃ error, done.1 = .error (.file error) ∧ error.isSystem = true) ↔
        asked ∧ w.files.CanMake (logDirectory path) ∧ ¬ w.files.Opens path) ∧
      (∀ fault, done.1 = .error fault → (∃ error, fault = .file error ∧ error.isSystem = true) ∨
        asked ∧ ¬ w.files.CanMake (logDirectory path) ∧
          ∃ error, FailsWithin (logDirectory path) error ∧ Breaks (noDirectoryText error) fault) ∧
      (done.1 = .ok () → (WritesFile done.2 name ↔ WritesFile w name ∨
        asked ∧ w.files.CanMake (logDirectory path) ∧ w.files.Opens path)) := by
  intro path asked done
  have hnumber : (LoggerOptions.ofSettings settings toFile).levelNumber = .ok level := by
    rw [LoggerOptions.levelNumber, LoggerOptions.ofSettings]
    dsimp only
    rw [hlevel]
    rfl
  obtain ⟨loggers, hwrites, hadd, hleave⟩ := setUp_cases hnumber name w
  by_cases hasked : asked
  · have hadded : FileAdded (canonicalName name) path { w with loggers := loggers } done := by
      rw [show done = _ from hadd hasked]
      exact addFile_cases hsound hcurrent hfree hpath hformat
    obtain ⟨hsystem, hother, hfile⟩ := hadded.outcome
    refine ⟨hsystem.trans (and_iff_right hasked).symm, fun fault hfault => ?_, fun hok => ?_⟩
    · exact (hother fault hfault).imp_right fun hbroken => ⟨hasked, hbroken⟩
    · rw [hfile hok, hwrites, and_iff_right hasked]
  · rw [show done = _ from hleave hasked]
    refine ⟨iff_of_false ?_ fun h => hasked h.1, fun fault hfault => (by cases hfault), fun _ => ?_⟩
    · rintro ⟨error, herror, -⟩
      cases herror
    · exact hwrites.trans (or_iff_left fun hopened => hasked hopened.1).symm

/-- A workspace with a directory `logs`. -/
def cluttered : Workspace where
  files := (makeDirectories "logs" (.empty ["w"])).2
  environment := []
  answer _ _ := .timedOut
  calls := []
  loggers := []
  console := []
  shown := []

/-- The settings by which the log is written to `logs`, all others being the usual ones. -/
def logsSettings : Config.Settings where
  workspaceRoot := "."
  baseRef := "main"
  headRef := "HEAD"
  failOnIssue := true
  scan := ⟨["./"], [], false⟩
  checker := ⟨Config.defaultBaselineFlags, "--verbose", "ghcr.io/companyx/clarity-esbmc",
    "ghcr.io/companyx/clarity-ast-generator", "v1.0.0", "docker", false, none⟩
  report := ⟨"results.sarif", none, "ESBMC Clarity Formal Verification", "1.0.0"⟩
  logging := ⟨true, "INFO", "logs", 10485760, 5,
    "%(asctime)s - %(name)s - %(levelname)s - %(message)s", "%Y-%m-%d %H:%M:%S"⟩

/-- The directory of the log is there, and another directory is in the place of its file. -/
theorem setUp_outcome_cluttered :
    ∃ error, (setUp "app" (.ofSettings logsSettings true) cluttered).1 = .error (.file error) ∧
      error.isSystem = true := by
  have hpath : (LoggerOptions.ofSettings logsSettings true).filePath = "logs" := by decide +kernel
  have hdirectory : logDirectory "logs" = "." := by decide +kernel
  have hstages : stages "." = [(".", ".")] := by decide +kernel
  have hlevel : levelOfName logsSettings.logging.level = .ok 20 := by decide +kernel
  have hcurrent : cluttered.files.look cluttered.files.current = some none := by rfl
  have hlogs : cluttered.files.look (locate cluttered.files.current "logs") = some none := by rfl
  have hsound : cluttered.files.Sound :=
    (makeDirectories_grew "logs" (.empty ["w"])).sound (sound_empty (by decide))
  have hmake : cluttered.files.CanMake "." := by
    have hfits : Fits "." := ⟨rfl, by decide⟩
    refine ⟨?_, ?_⟩
    · rw [hstages]
      exact ⟨trivial, Or.inr ⟨hfits, fun file hfile => by cases hfile⟩⟩
    · rw [hstages]
      rintro ⟨-, file, hfile⟩
      cases hfile
  refine (setUp_outcome hsound hcurrent (by decide) (by decide +kernel) hlevel (by decide +kernel)
    "app").1.2 ?_
  rw [hpath, hdirectory]
  exact ⟨⟨by decide, by decide⟩, hmake, fun hopens => hopens.free (Or.inl hlogs)⟩

/-- A directory in the place of the log file keeps a logger from being set up. -/
theorem setUp_cluttered :
    (setUp "app" (.ofSettings logsSettings true) cluttered).1 =
      .error (.file ⟨.isADirectory, "/w/logs"⟩) := by
  decide +kernel

end Logging

end ClarityDelta
