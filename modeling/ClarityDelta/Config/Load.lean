import ClarityDelta.Config.Environment
import ClarityDelta.Config.File

/-!
# Loading settings

Settings given directly come before those of the environment, and these before those of the
configuration file. On the command line some of them may be given once more.
-/

namespace ClarityDelta.Config

open Data

/-- The settings that the sources make, which have to name their fields by texts. -/
def build (file : List (Yaml.Key × Value)) (environment given : Fields) : Work Settings := do
  if file.any (·.1 = .other) then throw .fieldName
  Action.valid (Settings.check (overlay (Yaml.textFields file) (overlay environment given)))

/-- The settings, some of which are given directly. -/
def load (given : Fields) : Work Settings := do
  match environmentFields (← get).environment with
  | .error field => throw (.setting field)
  | .ok environment =>
    let file ← fileFields
    build file environment given

/-- What the command line may say about the range of a run. -/
structure RangeOptions where
  base : Option String
  head : Option String
  contractsDir : Option String
  exclude : Option String
  deriving DecidableEq, Repr

/-- A text, unless it is empty. -/
def nonEmpty? (s : Option String) : Option String :=
  s.filter (!·.isEmpty)

/-- The settings with what the command line says about the range of a run. -/
def Settings.withRange (settings : Settings) (options : RangeOptions) : Settings :=
  let directories (s : String) : List String :=
    if (itemList s).isEmpty then ["./"] else itemList s
  { settings with
    baseRef := (nonEmpty? options.base).getD settings.baseRef
    headRef := (nonEmpty? options.head).getD settings.headRef
    scan := { settings.scan with
      contractsDir := (options.contractsDir.map directories).getD settings.scan.contractsDir
      excludedContracts := (options.exclude.map itemList).getD settings.scan.excludedContracts } }

end ClarityDelta.Config
