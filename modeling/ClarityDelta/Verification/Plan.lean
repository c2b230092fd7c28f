import ClarityDelta.Change.Compare
import ClarityDelta.Files.Path
import ClarityDelta.Pipeline.Collaborators
import ClarityDelta.Text.Blank
import ClarityDelta.Verification.Record

/-!
# Planning jobs

Every changed function makes a job, file by file. A file without an artifact is left out with all its
functions.
-/

namespace ClarityDelta.Verification

open Files Logging Pipeline Text

/-- The suffix of contract files. -/
def contractSuffix : String := ".clar"

/-- A text without the suffix of contract files. -/
def withoutContractSuffix (name : String) : String :=
  if endsWith contractSuffix.toList name.toList then
    String.ofList (name.toList.take (name.length - contractSuffix.length))
  else name

/-- The name of the contract in a file: the file's name without its directories, which slashes of
either kind end, and without the suffix of contracts. -/
def contractName (file : String) : String :=
  let slashed := String.ofList (file.toList.map fun c => if c = '\\' then '/' else c)
  withoutContractSuffix (Path.ofText slashed).name

/-- Baseline switches and those of the user after them. -/
def resolveFlags (baseline overrides : String) : String :=
  " ".intercalate ([trimmed baseline, trimmed overrides].filter (!·.isEmpty))

/-- Puts a name under its file, a new file coming last. -/
def addToGroup (file name : String) : List (String × List String) → List (String × List String)
  | [] => [(file, [name])]
  | (f, names) :: rest =>
    if f = file then (f, names ++ [name]) :: rest else (f, names) :: addToGroup file name rest

/-- The names of changed functions by file, both in the order in which they come. -/
def groupByFile (changed : List ChangedFunction) : List (String × List String) :=
  changed.foldl (fun groups f => addToGroup f.file f.name groups) []

/-- The jobs for the functions of a file. -/
def fileJobs (file artifact flags : String) (functions : List String) : List VerificationJob :=
  functions.map fun function => ⟨file, function, contractName file, artifact, flags⟩

/-- The jobs for the functions of a file, whose artifact is asked for. -/
def planFile (c : Collaborators σ) (flags file : String) (functions : List String) :
    Action σ (List VerificationJob) := do
  match (← c.artifact file).filter (!·.isEmpty) with
  | some artifact => return fileJobs file artifact flags functions
  | none =>
    c.note (.warning s!"未找到 {file} 的 AST 产物，跳过该文件的 {functions.length} 个函数")
    return []

/-- The jobs for changed functions, file by file. -/
def planJobs (c : Collaborators σ) (baseline overrides : String) (changed : List ChangedFunction) :
    Action σ (List VerificationJob) := do
  let flags := resolveFlags baseline overrides
  let jobs := (← (groupByFile changed).mapM fun (file, functions) =>
    planFile c flags file functions).flatten
  c.note (.info s!"生成 {jobs.length} 个验证任务")
  return jobs

end ClarityDelta.Verification
