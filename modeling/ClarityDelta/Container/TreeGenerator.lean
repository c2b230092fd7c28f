import ClarityDelta.Container.Runner
import ClarityDelta.Files.StatusTime
import ClarityDelta.Files.Work

/-!
# Artifacts of syntax trees

A container prints the syntax tree of a contract, which is written beside the contract. An artifact
that is not older than its contract, as far as their status tells, may be used again. When there is no
tree to write, or no place for it, the contract has no artifact.
-/

namespace ClarityDelta.Container

open Files Logging Terminal Text

/-- The suffix of artifacts. -/
def artifactSuffix : String := ".clarast"

/-- The path of the artifact of a contract, none when the contract's path has no name. -/
def artifactPath? (file : String) : Option Path :=
  (Path.ofText file).withSuffix? artifactSuffix

/-- The path of the artifact of a contract. -/
def artifactPath (file : String) : Except Fault Path :=
  match artifactPath? file with
  | some path => .ok path
  | none => .error (.emptyName (Path.ofText file).text)

/-- How artifacts are made: by which image, and whether those there are used again. -/
structure TreeGenerator where
  runner : Runner
  image : Image
  reuse : Bool
  deriving DecidableEq, Repr

namespace TreeGenerator

/-- The text of a path as seen from the working directory. -/
def inDirectory (generator : TreeGenerator) (path : Path) : String :=
  ((Path.ofText generator.runner.directory).join path).text

/-- Whether a path is a regular file. A name that is too long is no answer. -/
def testFile (path : String) : Work Bool := do
  match (← get).files.reach path with
  | .error error => if error.kind = .nameTooLong then throw (.file error) else return false
  | .ok _ => return (← get).files.isFile path

/-- Whether an artifact is there and not older than its contract. -/
def isFresh (source target : String) : Work Bool := do
  if !(← testFile target) then return false
  let files := (← get).files
  match files.modified? source, files.modified? target with
  | some made, some written => return statusTime made ≤ statusTime written
  | _, _ => return false

/-- Writes an artifact, making its directory. -/
def store (target : String) (tree : String) : FileWork Unit := do
  FileWork.makeDirectories (Path.ofText target).parent.text
  FileWork.writeText target tree

/-- What the container prints for a contract, none when it fails. -/
def generate (generator : TreeGenerator) (file : String) : Work (Option String) := do
  let logger := generator.runner.logger
  let shown := Markup.escape file
  match ← (generator.runner.run generator.image [file]).attempt with
  | .error (.checker failure) =>
    say logger (.warning s!"AST 生成失败，跳过 {shown}: {Markup.escape failure.message}")
    return none
  | .error fault => throw fault
  | .ok output =>
    if output.code = 0 && !isBlankText output.out.toList then return some output.out
    say logger (.warning
      s!"AST 生成器退出码 {output.code}，跳过 {shown}: {Markup.escape (trimmed output.err)}")
    return none

/-- The artifact of a contract, if there is one. -/
def artifact (generator : TreeGenerator) (file : String) : Work (Option String) := do
  let logger := generator.runner.logger
  let path ← ofExcept (artifactPath file)
  let source := generator.inDirectory (Path.ofText file)
  let target := generator.inDirectory path
  if generator.reuse then
    if ← isFresh source target then
      say logger (.debug s!"复用已有 AST 产物: {Markup.escape target}")
      return some path.text
  say logger (.info s!"为 {Markup.escape file} 生成 AST")
  match ← generator.generate file with
  | none => return none
  | some tree =>
    match ← Work.tryFiles (store target tree) with
    | .error error =>
      if !error.isSystem then throw (.file error)
      say logger (.warning
        s!"AST 产物写入失败，跳过 {Markup.escape file}: {Markup.escape error.message}")
      return none
    | .ok () =>
      say logger (.info s!"AST 已生成: {Markup.escape target}")
      return some path.text

end TreeGenerator

end ClarityDelta.Container
