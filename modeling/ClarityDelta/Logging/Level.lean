import ClarityDelta.Text.Case
import ClarityDelta.Text.Numeral

/-!
# Levels

Levels are numbers, the greater the graver. Five of them have names.
-/

namespace ClarityDelta.Logging

open Text

/-- The levels that are noted at. -/
inductive Severity where
  | debug
  | info
  | warning
  | error
  | critical
  deriving DecidableEq, Repr

namespace Severity

/-- All levels, in rising order. -/
def all : List Severity :=
  [debug, info, warning, error, critical]

/-- The number of a level. -/
def level : Severity → Int
  | debug => 10
  | info => 20
  | warning => 30
  | error => 40
  | critical => 50

/-- The name of a level. -/
def name : Severity → String
  | debug => "DEBUG"
  | info => "INFO"
  | warning => "WARNING"
  | error => "ERROR"
  | critical => "CRITICAL"

end Severity

/-- A message to be noted, and how grave it is. -/
structure Note where
  severity : Severity
  message : String
  deriving DecidableEq, Repr

namespace Note

/-- A note for those who look for an error. -/
def debug (message : String) : Note :=
  ⟨.debug, message⟩

/-- A note on what goes on. -/
def info (message : String) : Note :=
  ⟨.info, message⟩

/-- A note on what is left out. -/
def warning (message : String) : Note :=
  ⟨.warning, message⟩

/-- A note on what went wrong. -/
def error (message : String) : Note :=
  ⟨.error, message⟩

end Note

/-- The level that lets everything pass, where it is not inherited. -/
def unsetLevel : Int := 0

/-- The name of a level, a level without one being named by its number. -/
def levelName (level : Int) : String :=
  match Severity.all.find? (·.level = level) with
  | some severity => severity.name
  | none =>
    if level = unsetLevel then "NOTSET" else "Level " ++ String.ofList (signedDecimal level)

/-- The text of a level's name that is the layout of a line instead. -/
def basicFormat : String := "%(levelname)s:%(name)s:%(message)s"

/-- The level that a name in any letter case stands for, an unknown name standing for the level of
information. The name of the basic format stands for no level. -/
def levelOfName (name : String) : Except String Int :=
  match raised name with
  | "NOTSET" => .ok unsetLevel
  | "WARN" => .ok Severity.warning.level
  | "FATAL" => .ok Severity.critical.level
  | "BASIC_FORMAT" => .error basicFormat
  | upper =>
    match Severity.all.find? (·.name = upper) with
    | some severity => .ok severity.level
    | none => .ok Severity.info.level

end ClarityDelta.Logging
