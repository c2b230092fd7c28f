import ClarityDelta.Config.Settings
import ClarityDelta.Logging.Write

/-!
# Setting up loggers

A logger gets its level and, where asked for, a console and a file to write to. It never gets a second
one of either. A logger that does not write to the console passes nothing on to those above. When the
directory of the log file cannot be made, the logger does without the file.
-/

namespace ClarityDelta.Logging

open Files Text

/-- How a logger is set up. -/
structure LoggerOptions where
  level : String ⊕ Int
  logFile : String
  workspaceRoot : String
  toConsole : Bool
  maxBytes : Int
  backupCount : Int
  format : String
  dateFormat : String
  deriving DecidableEq, Repr

namespace LoggerOptions

/-- The options of a logger that nothing is asked for. -/
def usual : LoggerOptions :=
  ⟨.inr Severity.info.level, "", "", false, 10485760, 5, "", ""⟩

/-- The options that settings ask for. -/
def ofSettings (settings : Config.Settings) (toFile : Bool) : LoggerOptions where
  level := .inl settings.logging.level
  logFile := if toFile then settings.logging.filePath else ""
  workspaceRoot := if toFile then settings.workspaceRoot else ""
  toConsole := settings.logging.logToConsole
  maxBytes := settings.logging.maxBytes
  backupCount := settings.logging.backupCount
  format := settings.logging.logFormat
  dateFormat := settings.logging.dateFormat

/-- The level asked for. -/
def levelNumber (options : LoggerOptions) : Except Fault Int :=
  match options.level with
  | .inr n => .ok n
  | .inl name => (levelOfName name).mapError .logLevel

/-- The file asked for, seen from the workspace's root if there is one. -/
def filePath (options : LoggerOptions) : String :=
  if options.workspaceRoot.isEmpty then options.logFile
  else if startsWith ['/'] options.logFile.toList then options.logFile
  else
    let inside := if options.logFile.isEmpty then ".clarity-verify/logs/app.log" else options.logFile
    ((Path.ofText options.workspaceRoot).join (Path.ofText inside)).text

end LoggerOptions

/-- The format of a line for which none is asked for. -/
def usualFormat : String :=
  "%(levelname)-8s [%(filename)s:%(lineno_caller)s] %(levelname)s - %(message)s"

/-- Whether a handler writes to a file. -/
def Handler.isFile : Handler → Bool
  | .file _ => true
  | .console => false

/-- Gives a logger a file to write to. -/
def addFile (name path : String) (level : Int) (options : LoggerOptions) : Work Unit := do
  let directory := directoryText path
  match ← Work.tryFiles (FileWork.makeInTurn (if directory.isEmpty then "." else directory)) with
  | .error error =>
    if error.isSystem then
      say name (.warning s!"日志目录创建失败，仅输出到控制台: {error.message}")
    else throw (.file error)
  | .ok () =>
    let full := absoluteText (← get).files.current path
    let id ← Work.files (FileWork.openEnd full)
    let format := if options.format.isEmpty then usualFormat else options.format
    if !Template.hasField format.toList then throw (.logFormat format)
    let sink : FileSink :=
      ⟨full, some id, level, options.maxBytes, options.backupCount, format, options.dateFormat⟩
    Work.updateLogger name fun logger => { logger with handlers := logger.handlers ++ [.file sink] }

/-- Sets a logger up. -/
def setUp (name : String) (options : LoggerOptions) : Work Unit := do
  let name := canonicalName name
  Work.updateLogger name id
  match options.levelNumber with
  | .error fault => throw fault
  | .ok level =>
    Work.updateLogger name fun logger =>
      { logger with
        level := level
        propagate := logger.propagate && options.toConsole
        handlers :=
          if options.toConsole && !logger.handlers.contains .console then
            logger.handlers ++ [.console]
          else logger.handlers }
    let path := options.filePath
    let hasFile := ((← get).loggers.find name).handlers.any Handler.isFile
    if !path.isEmpty && !hasFile then addFile name path level options

end ClarityDelta.Logging
