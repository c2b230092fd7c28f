import ClarityDelta.Cli.Commands
import Std.Time.DateTime.Timestamp

/-!
# The program

Carries out a command line on the files below the current directory and on those that the command line
names. Other programs are not started from here: each call of one is answered as a call that cannot be
made.
-/

namespace ClarityDelta

open Cli Files Invocation Terminal

/-- The variables of the environment that set a field. -/
def knownVariables : List String :=
  let stem := Config.variableStem
  let names := Config.plainFields ++ Config.sections.flatMap fun part =>
    part.name :: part.fields.map fun field => part.name ++ "__" ++ field
  names.map fun name => Text.raised (stem ++ name)

/-- The known variables that are set. -/
def readEnvironment : IO (List (String × String)) := do
  let pairs ← knownVariables.mapM fun name => do
    return (← IO.getEnv name).map fun value => (name, value)
  return pairs.filterMap id

/-- Puts a file into a tree with its time of modification. -/
def loadFile (tree : FileTree) (path : String) (content : ByteArray) (modified : Int) : FileTree :=
  let work : FileWork Unit := do
    FileWork.makeDirectories (Path.ofText path).parent.text
    FileWork.write path content
    FileWork.setModified path modified
  (work.run tree).2

/-- The outcome of an input action, none when it fails. -/
def tryIO (action : IO α) : IO (Option α) := do
  try return some (← action) catch _ => return none

/-- Puts the files at or below the entries of a directory into a tree. -/
partial def loadEntries (tree : FileTree) (entries : List IO.FS.DirEntry) : IO FileTree :=
  entries.foldlM (fun tree entry => do
    let path := entry.path
    if entry.fileName = ".git" then return tree
    if ← path.isDir then
      match ← tryIO path.readDir with
      | some inner => loadEntries tree inner.toList
      | none => return tree
    else
      match ← tryIO (IO.FS.readBinFile path), ← tryIO path.metadata with
      | some content, some data =>
        let modified := data.modified.sec * Files.secondSize + data.modified.nsec.toNat
        return loadFile tree path.toString content modified
      | _, _ => return tree) tree

/-- Puts a file that a word names into a tree, unless it is there already. -/
def loadNamed (tree : FileTree) (word : String) : IO FileTree := do
  if tree.holds word then return tree
  match ← tryIO (IO.FS.readBinFile word) with
  | some content => return loadFile tree word content 0
  | none => return tree

/-- Writes the files of a tree that are new or changed, and removes those that are gone. -/
def storeChanges (before after : FileTree) : IO Unit := do
  for (location, entry) in after.entries do
    match entry with
    | .directory _ =>
      if (before.find? location).isNone then IO.FS.createDirAll (locationText location)
    | .file file =>
      if (before.file? location).map (·.content.data) ≠ some file.content.data then
        IO.FS.writeBinFile (locationText location) file.content
  for (location, entry) in before.entries do
    match entry, after.find? location with
    | .file _, none => IO.FS.removeFile (locationText location)
    | _, _ => pure ()

/-- What a text shows, markup that is at fault being left as it is. -/
def plainText (s : String) : String :=
  match Markup.render s with
  | .ok cs => String.ofList cs
  | .error _ => s

/-- The text of a cell. -/
def cellText : Cell → String
  | .markup s => plainText s
  | .plain s => s

/-- The lines of something shown. -/
def shownLines : Shown → List String
  | .markup s => [plainText s]
  | .plain s => [s]
  | .table title columns rows =>
    title :: "\t".intercalate columns :: rows.map fun row => "\t".intercalate (row.map cellText)

end ClarityDelta

open ClarityDelta in
/-- Carries out the command line. -/
def main (words : List String) : IO UInt32 := do
  let directory ← IO.currentDir
  let start := Files.FileTree.empty (Files.components directory.toString)
  let tree ← loadEntries start (← directory.readDir).toList
  let tree ← words.foldlM loadNamed tree
  let now := (← Std.Time.Timestamp.now).toSecondsSinceUnixEpoch.val
  let workspace : Workspace :=
    { files := { tree with clock := now * Files.secondSize }
      environment := ← readEnvironment
      answer := fun _ _ => .failed "no other program can be started"
      calls := []
      loggers := []
      console := []
      shown := [] }
  let (outcome, workspace) := (Cli.carryOut words).run workspace
  storeChanges tree workspace.files
  for line in workspace.console do IO.eprintln line
  for line in workspace.shown.flatMap shownLines do IO.println line
  match outcome with
  | .ok code => return code.toUInt32
  | .error fault =>
    IO.eprintln fault.message
    return 1
