import ClarityDelta.Logging.Level

/-!
# Loggers

Loggers are known by dotted names and form a tree: what is noted to one also reaches those above it,
up to the first that passes nothing on. Each one has a level, which may be left to those above, and
handlers that write what reaches it.
-/

namespace ClarityDelta.Logging

/-- Something noted: where, at which level and time, and from which place of a program. -/
structure Entry where
  logger : String
  level : Int
  message : String
  sourcePath : String
  sourceLine : Int
  seconds : Int
  deriving DecidableEq, Repr

/-- A file that lines are added to. When the next line would make it too large, it is set aside under
a numbered name, as many of which are kept as told. The file is open unless setting it aside
failed. -/
structure FileSink where
  path : String
  opened : Option Nat
  level : Int
  maxBytes : Int
  backupCount : Int
  format : String
  dateFormat : String
  deriving DecidableEq, Repr

/-- What writes entries. -/
inductive Handler where
  | console
  | file (sink : FileSink)
  deriving DecidableEq, Repr

/-- A logger, with all that reached it. -/
structure Logger where
  name : String
  level : Int
  propagate : Bool
  handlers : List Handler
  received : List (Int × String)
  deriving DecidableEq, Repr

/-- The name of the logger above all others. -/
def rootName : String := "root"

/-- The name of a logger in its one form. -/
def canonicalName (name : String) : String :=
  if name.isEmpty then rootName else name

/-- A logger that nothing is set for. -/
def Logger.fresh (name : String) : Logger where
  name := name
  level := if name = rootName then Severity.warning.level else unsetLevel
  propagate := true
  handlers := []
  received := []

/-- The name of the logger above, none above the root. -/
def parentName? (name : String) : Option String :=
  if name = rootName then none
  else
    let cs := name.toList.reverse.dropWhile (· ≠ '.')
    match cs with
    | [] => some rootName
    | _ :: above => some (canonicalName (String.ofList above.reverse))

/-- A logger's name and those above it. -/
def lineage : Nat → String → List String
  | 0, name => [name]
  | fuel + 1, name =>
    match parentName? name with
    | none => [name]
    | some above => name :: lineage fuel above

/-- The known loggers. -/
abbrev Registry := List Logger

namespace Registry

/-- The logger with the given name. -/
def find (registry : Registry) (name : String) : Logger :=
  (List.find? (·.name = name) registry).getD (.fresh name)

/-- The registry after one logger is changed. -/
def update (registry : Registry) (name : String) (change : Logger → Logger) : Registry :=
  if registry.any (·.name = name) then
    registry.map fun logger => if logger.name = name then change logger else logger
  else registry ++ [change (.fresh name)]

/-- The loggers from the given one up. -/
def upward (registry : Registry) (name : String) : List Logger :=
  (lineage name.length name).map registry.find

/-- The level from which on a logger takes entries: its own, or the next one above that is set. -/
def effectiveLevel (registry : Registry) (name : String) : Int :=
  ((registry.upward name).find? (·.level ≠ unsetLevel)).elim unsetLevel (·.level)

/-- The loggers that an entry reaches. -/
def reached (registry : Registry) (name : String) : List Logger :=
  let all := registry.upward name
  let passing := all.takeWhile (·.propagate)
  passing ++ (all.drop passing.length).take 1

end Registry

end ClarityDelta.Logging
