import ClarityDelta.Data.Checked
import ClarityDelta.Data.Yaml.Document
import ClarityDelta.Files.Tree
import ClarityDelta.Terminal.Markup
import ClarityDelta.Text.Encoding
import ClarityDelta.Text.ShellWords
import ClarityDelta.Text.Utf8

/-!
# Faults

Everything that can keep an action from being finished, by its cause, and each in words.
-/

namespace ClarityDelta

open Data Files Terminal.Markup Text

/-- A call of the checker or the generator of syntax trees that gives no answer to go on with. -/
structure CheckerFailure where
  message : String
  returnCode : Option Int
  output : String
  deriving DecidableEq, Repr

/-- Why an action is not finished. -/
inductive Fault where
  /-- A path without a name cannot get another suffix. -/
  | emptyName (path : String)
  /-- Membership in a directory is asked of no file. -/
  | noPath
  | shell (fault : ShellWords.ShellFault)
  | longNumeral (long : LongNumeral)
  | unprintable (long : LongNumeral)
  | checker (failure : CheckerFailure)
  | report (path : String) (cause : FileError)
  | file (error : FileError)
  | markup (fault : MarkupFault)
  | invalid (complaints : List Complaint)
  /-- A variable of the environment for a section is not what it should be. -/
  | setting (field : String)
  | undecodable (fault : Utf8.DecodeFault)
  | unencodable (fault : EncodeFault)
  | scalar (fault : Yaml.ScalarFault)
  /-- A configuration file names a field by something else than a text. -/
  | fieldName
  | logFormat (format : String)
  | logLevel (level : String)
  /-- Whatever a foreign checker fails with. -/
  | foreign (kind message : String)
  deriving DecidableEq, Repr

namespace Fault

/-- A fault in words. -/
def message : Fault → String
  | emptyName path => s!"PosixPath({quoted path}) has an empty name"
  | noPath => "no path specified"
  | shell fault => fault.message
  | longNumeral long => long.message
  | unprintable long => long.printMessage
  | checker failure => failure.message
  | report path cause => s!"Failed to write report {path}: {cause.message}"
  | file error => error.message
  | markup fault => fault.message
  | invalid complaints => s!"{complaints.length} validation errors"
  | setting field => s!"error parsing value for field \"{field}\" from source \"EnvSettingsSource\""
  | undecodable fault => fault.message
  | unencodable fault => fault.message
  | scalar fault => fault.message
  | fieldName => "keywords must be strings"
  | logFormat format => s!"Invalid format '{format}' for '%' style"
  | logLevel level => s!"Unknown level: {quoted level}"
  | foreign _ message => message

/-- Whether the command line reports the fault as a failure of its own work. -/
def isOwn : Fault → Bool
  | checker _ => true
  | report _ _ => true
  | _ => false

end Fault

/-- Something done on a state, which a fault may keep from being finished. What was done until then
stays. -/
abbrev Action (σ : Type) := ExceptT Fault (StateM σ)

namespace Action

/-- The outcome of an action, a fault being one as well. -/
def attempt (action : Action σ α) : Action σ (Except Fault α) := fun state =>
  match action state with
  | (outcome, state) => (.ok outcome, state)

/-- What is printed, a number with too many digits being a fault. -/
def printing (text : Except LongNumeral α) : Action σ α :=
  ofExcept (text.mapError .unprintable)

/-- What a check finds valid, a complaint being a fault. -/
def valid (checked : Checked α) : Action σ α :=
  match checked with
  | .valid a => pure a
  | .invalid complaints => throw (.invalid complaints)

end Action

end ClarityDelta
