import ClarityDelta.Config.Load

/-!
# Command lines

A command line names a command, with options and arguments in any order. An option that takes a value
takes the next word, whatever it is, or what stands behind an equals sign; of several with one name
the last one counts. Two dashes end the options.
-/

namespace ClarityDelta.Cli

open Config

/-- Options with their values, and the arguments that are no options. -/
structure Arguments where
  options : List (String × String)
  positional : List String
  deriving DecidableEq, Repr

/-- Whether a word is an option. -/
def isOption (word : String) : Bool :=
  match word.toList with
  | '-' :: _ :: _ => true
  | _ => false

/-- The name of an option, and what stands behind an equals sign. -/
def nameAndValue (word : String) : String × Option String :=
  let cs := word.toList
  let name := String.ofList (cs.takeWhile (· ≠ '='))
  match cs.dropWhile (· ≠ '=') with
  | [] => (name, none)
  | _ :: value => (name, some (String.ofList value))

namespace Arguments

/-- The arguments with an option before the others. -/
def addOption (name value : String) (arguments : Arguments) : Arguments :=
  { arguments with options := (name, value) :: arguments.options }

/-- The arguments with another one before them. -/
def addPositional (word : String) (arguments : Arguments) : Arguments :=
  { arguments with positional := word :: arguments.positional }

/-- The arguments that words make, when some options take a value and some do not. Other options, and
values that are missing or out of place, are refused. -/
def read? (valued flags : List String) : List String → Option Arguments
  | [] => some ⟨[], []⟩
  | word :: rest =>
    if word = "--" then some ⟨[], rest⟩
    else if isOption word then
      match nameAndValue word with
      | (name, some value) =>
        if valued.contains name then (read? valued flags rest).map (addOption name value) else none
      | (name, none) =>
        if flags.contains name then (read? valued flags rest).map (addOption name "")
        else if valued.contains name then
          match rest with
          | [] => none
          | value :: rest => (read? valued flags rest).map (addOption name value)
        else none
    else (read? valued flags rest).map (addPositional word)

/-- The value of an option: the last one that is given. -/
def option? (arguments : Arguments) (name : String) : Option String :=
  arguments.options.reverse.lookup name

/-- Whether an option is given. -/
def has (arguments : Arguments) (name : String) : Bool :=
  (arguments.option? name).isSome

/-- Which of two opposite options is given last. -/
def switch? (arguments : Arguments) (on off : String) : Option Bool :=
  (arguments.options.reverse.find? fun (name, _) => name = on || name = off).map (·.1 = on)

end Arguments

/-- What a verification run is told on the command line. -/
structure RunOptions where
  range : RangeOptions
  flags : Option String
  sarif : Option String
  summary : Option String
  failOnIssue : Option Bool
  files : List String
  deriving DecidableEq, Repr

/-- A command. -/
inductive Command where
  | version
  | detect (range : RangeOptions)
  | parseOutput (output source function : String) (sarif : Option String)
  | run (options : RunOptions)
  deriving DecidableEq, Repr

/-- What a command line asks for. -/
inductive Request where
  | help
  | misuse
  | command (command : Command)
  deriving DecidableEq, Repr

/-- The options about the range of a run. -/
def rangeNames : List String :=
  ["--base", "--head", "--contracts-dir", "--exclude"]

/-- What the options say about the range of a run. -/
def rangeOf (arguments : Arguments) : RangeOptions where
  base := arguments.option? "--base"
  head := arguments.option? "--head"
  contractsDir := arguments.option? "--contracts-dir"
  exclude := arguments.option? "--exclude"

/-- What words ask for, when `make` tells the command that their arguments give. -/
def requestOf (valued flags words : List String) (make : Arguments → Option Command) : Request :=
  match Arguments.read? valued ("--help" :: flags) words with
  | none => .misuse
  | some arguments =>
    if arguments.has "--help" then .help
    else
      match make arguments with
      | some command => .command command
      | none => .misuse

/-- What the words behind the name of a command ask for. -/
def commandRequest (name : String) (words : List String) : Request :=
  match name with
  | "version" =>
    requestOf [] [] words fun arguments =>
      if arguments.positional.isEmpty then some .version else none
  | "detect" =>
    requestOf rangeNames [] words fun arguments =>
      if arguments.positional.isEmpty then some (.detect (rangeOf arguments)) else none
  | "parse-output" =>
    requestOf ["--file", "--function", "--sarif"] [] words fun arguments =>
      match arguments.positional with
      | [output] =>
        some (.parseOutput output ((arguments.option? "--file").getD "contract.clar")
          ((arguments.option? "--function").getD "unknown_function") (arguments.option? "--sarif"))
      | _ => none
  | "run" =>
    requestOf (rangeNames ++ ["--flags", "--sarif", "--summary"])
        ["--fail-on-issue", "--no-fail-on-issue"] words fun arguments =>
      some (.run
        { range := rangeOf arguments
          flags := arguments.option? "--flags"
          sarif := arguments.option? "--sarif"
          summary := arguments.option? "--summary"
          failOnIssue := arguments.switch? "--fail-on-issue" "--no-fail-on-issue"
          files := arguments.positional })
  | _ => .misuse

/-- What a command line asks for. Help may be asked for before the name of a command. -/
def request (help : Bool) : List String → Request
  | [] => if help then .help else .misuse
  | word :: rest =>
    if word = "--help" then request true rest
    else if word = "--" then
      if help then .help
      else
        match rest with
        | [] => .misuse
        | name :: words => commandRequest name words
    else if isOption word then .misuse
    else if help then .help
    else commandRequest word rest

end ClarityDelta.Cli
