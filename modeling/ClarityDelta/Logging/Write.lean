import ClarityDelta.Files.StatusTime
import ClarityDelta.Logging.Clock
import ClarityDelta.Logging.Template
import ClarityDelta.Terminal.Layout
import ClarityDelta.Workspace

/-!
# Writing entries

An entry that a logger takes is handled by it and the loggers above. On the console its message is
markup, and a fault in it keeps the entry from being handled any further. In files it becomes a
line; a line that cannot be made or written is lost without a word.
-/

namespace ClarityDelta.Logging

open Files Terminal Text

/-- The columns of the console. -/
def consoleColumns : Nat := 200

/-- The name of a source file without its directories. -/
def sourceName (path : String) : String :=
  (Path.ofText path).name

/-- A moment in a date format, or in the usual one with milliseconds. -/
def timeText (dateFormat : String) (seconds : Int) : String :=
  let moment := Moment.ofSeconds seconds
  if dateFormat.isEmpty then String.ofList (moment.format "%Y-%m-%d %H:%M:%S,000".toList)
  else String.ofList (moment.format dateFormat.toList)

/-- The fields of an entry. -/
def Entry.field? (dateFormat : String) (entry : Entry) : String → Option Field
  | "name" => some (.text entry.logger)
  | "msg" => some (.text entry.message)
  | "message" => some (.text entry.message)
  | "args" => some (.text "()")
  | "levelname" => some (.text (levelName entry.level))
  | "levelno" => some (.number entry.level)
  | "pathname" => some (.text entry.sourcePath)
  | "filename" => some (.text (sourceName entry.sourcePath))
  | "module" =>
    let base := (splitAt '/' entry.sourcePath.toList).getLastD []
    some (.text (String.ofList (Path.cutSuffix base).1))
  | "lineno" => some (.number entry.sourceLine)
  | "lineno_caller" => some (.number entry.sourceLine)
  | "created" => some (.number entry.seconds)
  | "msecs" => some (.number 0)
  | "asctime" => some (.text (timeText dateFormat entry.seconds))
  | "funcName" => some (.absent)
  | "exc_info" => some (.absent)
  | "exc_text" => some (.absent)
  | "stack_info" => some (.absent)
  | "threadName" => some (.text "MainThread")
  | "processName" => some (.text "MainProcess")
  | _ => none

/-- The line of an entry in a file. The time is a field only when the format asks for it. -/
def FileSink.line? (sink : FileSink) (entry : Entry) : Option String :=
  let hasTime := occursIn "%(asctime)".toList sink.format.toList
  (Template.fill? sink.format fun name =>
    if name = "asctime" && !hasTime then none else entry.field? sink.dateFormat name).map (· ++ "\n")

/-- The path of the file that was set aside as the given one. -/
def FileSink.backup (sink : FileSink) (n : Nat) : String :=
  sink.path ++ "." ++ String.ofList (decimal n)

/-- Gives a file another name, what had that name being removed. Nothing happens when there is no such
file. -/
def replaceFile (source target : String) : FileWork Unit := do
  if (← get).holds source then
    if (← get).holds target then FileWork.remove target
    FileWork.move source target

/-- Sets the files before the given one aside under the next number each. -/
def shiftBackups (sink : FileSink) : Nat → FileWork Unit
  | 0 => pure ()
  | n + 1 => do
    replaceFile (sink.backup (n + 1)) (sink.backup (n + 2))
    shiftBackups sink n

/-- Sets the file aside, where any are kept. -/
def FileSink.setAside (sink : FileSink) : FileWork Unit := do
  if 0 < sink.backupCount then
    shiftBackups sink (sink.backupCount - 1).toNat
    if (← get).holds (sink.backup 1) then FileWork.remove (sink.backup 1)
    if (← get).holds sink.path then FileWork.move sink.path (sink.backup 1)

/-- Whether the file is to be set aside before a line of the given length is added. -/
def FileSink.isFull (sink : FileSink) (size length : Nat) : Bool :=
  0 < sink.maxBytes && sink.maxBytes ≤ size + length

/-- Adds a line to the file, which is opened and set aside as needed. The sink tells afterwards whether
the file is open. -/
def FileSink.add (sink : FileSink) (line : String) : StateM FileTree FileSink := do
  let opened (sink : FileSink) : FileWork Nat := do
    match sink.opened with
    | some id => pure id
    | none => FileWork.openEnd sink.path
  let tree ← get
  let mayTurn := 0 < sink.maxBytes && !(tree.holds sink.path && !tree.isFile sink.path)
  match ← (opened sink).run with
  | .error _ => return { sink with opened := none }
  | .ok id =>
    let size := (((← get).fileOf? id).map (·.content.size)).getD 0
    if mayTurn && sink.isFull size line.length then
      match ← sink.setAside.run with
      | .error _ => return { sink with opened := none }
      | .ok () =>
        match ← (FileWork.openEnd sink.path).run with
        | .error _ => return { sink with opened := none }
        | .ok id =>
          discard (FileWork.append id line.toUTF8).run
          return { sink with opened := some id }
    else
      discard (FileWork.append id line.toUTF8).run
      return { sink with opened := some id }

/-- Lets a handler handle an entry: the handler afterwards. -/
def Handler.handle (entry : Entry) : Handler → Work Handler
  | .console => do
    match Markup.render entry.message with
    | .error fault => throw (.markup fault)
    | .ok cs =>
      let lines := (Layout.lay consoleColumns cs).map String.ofList
      modify fun workspace => { workspace with console := workspace.console ++ lines }
      return .console
  | .file sink => do
    if entry.level < sink.level then return .file sink
    match sink.line? entry with
    | none => return .file sink
    | some line =>
      let sink ← Work.files (ExceptT.lift (sink.add line))
      return .file sink

/-- Lets the handlers of a logger handle an entry one after another. -/
def handleAll (name : String) (entry : Entry) : Nat → List Handler → Work Unit
  | _, [] => pure ()
  | index, handler :: rest => do
    let handler ← handler.handle entry
    Work.updateLogger name fun logger =>
      { logger with handlers := logger.handlers.set index handler }
    handleAll name entry (index + 1) rest

/-- Hands an entry to a logger and those above it. -/
def receive (entry : Entry) : List Logger → Work Unit
  | [] => pure ()
  | logger :: above => do
    Work.updateLogger logger.name fun logger =>
      { logger with received := logger.received ++ [(entry.level, entry.message)] }
    handleAll logger.name entry 0 logger.handlers
    receive entry above

/-- Notes an entry to its logger, unless the logger's level leaves it out. -/
def note (entry : Entry) : Work Unit := do
  let registry := (← get).loggers
  if registry.effectiveLevel entry.logger ≤ entry.level then
    receive entry (registry.reached entry.logger)

/-- Notes a message to a logger. -/
def say (logger : String) (message : Note) : Work Unit := do
  let seconds := (← get).files.clock / secondSize
  note ⟨logger, message.severity.level, message.message, "", 0, seconds⟩

end ClarityDelta.Logging
