import ClarityDelta.Data.Yaml.Document
import ClarityDelta.Logging.Write
import ClarityDelta.Text.Lines

/-!
# The configuration file

Settings may stand in a file of the working directory. A file that cannot be read as a mapping is
noted and left out.
-/

namespace ClarityDelta.Config

open Data Logging Text

/-- The logger that is told of configuration files. -/
def configLogger : String := "clarity_verify.config"

/-- The places of the configuration file, the first of which counts. -/
def configPaths : List String :=
  [".clarity-verify/config.yaml", ".clarity-verify/config.yml", "clarity-verify.yaml"]

/-- Whether a value counts as nothing at all. -/
def isNothing : Value → Bool
  | .null => true
  | .bool b => !b
  | .integer n => n = 0
  | .decimal x => x.mantissa = 0
  | .text s => s.isEmpty
  | .list items => items.isEmpty
  | .object fields => fields.isEmpty
  | .other => false

/-- The fields of a document, with keys of any kind. -/
def documentFields (path : String) : Yaml.Document → Work (List (Yaml.Key × Value))
  | .empty => return []
  | .mapping pairs => return pairs
  | .other value => do
    if !isNothing value then say configLogger (.warning s!"配置文件顶层不是映射，已忽略: {path}")
    return []

/-- The settings in a text of the configuration file. -/
def textFields (path text : String) : Work (List (Yaml.Key × Value)) := do
  match Yaml.document (String.ofList (normalizeLineEnds text.toList)) with
  | .ok document => documentFields path document
  | .error (.scalar fault) => throw (.scalar fault)
  | .error .illFormed =>
    say configLogger (.warning "读取 YAML 配置失败，将使用默认/环境变量配置: ill-formed")
    return []

/-- The settings in the configuration file, none when there is no such file. -/
def fileFields : Work (List (Yaml.Key × Value)) := do
  let files := (← get).files
  match configPaths.find? files.isFile with
  | none => return []
  | some path =>
    match (files.fileAt? path).map fun file => Utf8.decode file.content with
    | some (.ok text) => textFields path text
    | some (.error fault) => throw (.undecodable fault)
    | none => return []

end ClarityDelta.Config
