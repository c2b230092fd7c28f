import ClarityDelta.Files.Tree
import ClarityDelta.Text.Encoding

/-!
# File operations

What can be done to a file tree. An operation that fails leaves the tree as far as it came: only
directories can have been made by then, never a regular file changed.
-/

namespace ClarityDelta.Files

open Text

/-- An operation on a file tree. -/
abbrev FileWork := ExceptT FileError (StateM FileTree)

namespace FileWork

/-- The location that a path's text leads to. -/
def reach (path : String) : FileWork Location := do
  match (← get).reach path with
  | .ok location => pure location
  | .error error => throw error

/-- Makes the directories that components lead through, where they are missing. -/
def makeSteps (path : String) : Location → List String → FileWork Unit
  | location, [] => do
    match (← get).find? location with
    | some (.directory _) => pure ()
    | _ => throw ⟨.fileExists, path⟩
  | location, part :: rest => do
    match (← get).find? location with
    | none => throw ⟨.noSuchFile, path⟩
    | some (.file _) => throw ⟨.notADirectory, path⟩
    | some (.directory _) =>
      if maxComponentBytes < part.utf8ByteSize then throw ⟨.nameTooLong, path⟩
      else
        let next := FileTree.enter location part
        if ((← get).find? next).isNone then
          modify fun tree => tree.make next (.directory tree.clock)
        makeSteps path next rest

/-- Makes a directory and those above it, where they are missing. -/
def makeDirectories (path : String) : FileWork Unit := do
  match FileTree.checkPath path with
  | .error error => throw error
  | .ok () => makeSteps path ((← get).origin path) (FileTree.steps path)

/-- Makes a directory where nothing stands, in one that is there. -/
def makeDirectory (path : String) : FileWork Unit := do
  let location ← reach path
  if ((← get).find? location).isSome then throw ⟨.fileExists, path⟩
  modify fun tree => tree.make location (.directory tree.clock)

/-- Makes a directory unless it is there. -/
def ensureDirectory (path : String) : FileWork Unit :=
  tryCatch (makeDirectory path) fun error => do
    if !(← get).isDirectory path then throw error

/-- Makes the directories that a path's text leads through, the last one first in the list, each unless
it is there. That something else stands in the place of one does not keep the next from being tried,
and a `.` behind a directory that was missing is not tried at all. -/
def makeStages : List (String × String) → FileWork Unit
  | [] => pure ()
  | [(_, text)] => ensureDirectory text
  | (part, text) :: (name, head) :: above => do
    if (← get).holds head then ensureDirectory text
    else
      tryCatch (makeStages ((name, head) :: above)) fun error => do
        if error.kind ≠ .fileExists then throw error
      if part ≠ "." then ensureDirectory text

/-- Makes a directory and those above it, where they are missing, one after another. An error is one
with the directory that cannot be made. -/
def makeInTurn (path : String) : FileWork Unit :=
  makeStages (stages path)

/-- Puts a regular file with the given content at a path, a former one keeping its identity. -/
def write (path : String) (content : ByteArray) : FileWork Unit := do
  let location ← reach path
  let tree ← get
  match tree.find? location with
  | some (.directory _) => throw ⟨.isADirectory, path⟩
  | some (.file file) =>
    set (tree.put location (.file { file with content := content, modified := tree.clock }))
  | none =>
    match tree.find? location.dropLast with
    | some (.directory _) =>
      set { tree.make location (.file ⟨tree.nextId, content, tree.clock⟩) with
        nextId := tree.nextId + 1 }
    | some (.file _) => throw ⟨.notADirectory, path⟩
    | none => throw ⟨.noSuchFile, path⟩

/-- Puts a regular file with the given characters at a path. -/
def writeText (path : String) (text : String) : FileWork Unit :=
  write path text.toUTF8

/-- Puts a regular file with the given text at a path. The file is opened, and so emptied, before the
text is encoded: one that cannot be encoded leaves the file empty. -/
def writeCodes (path : String) (text : CodeText) : FileWork (Option EncodeFault) := do
  match text.encode with
  | .ok content =>
    write path content
    return none
  | .error fault =>
    write path ByteArray.empty
    return some fault

/-- Opens a file for adding to its end, an empty one being made when it is missing, and returns its
identity. -/
def openEnd (path : String) : FileWork Nat := do
  let location ← reach path
  match (← get).find? location with
  | some (.directory _) => throw ⟨.isADirectory, path⟩
  | some (.file file) => pure file.id
  | none =>
    write path ByteArray.empty
    match (← get).file? location with
    | some file => pure file.id
    | none => throw ⟨.noSuchFile, path⟩

/-- Adds to the end of an open file. -/
def append (id : Nat) (content : ByteArray) : FileWork Unit := do
  let tree ← get
  let add (file : RegularFile) : RegularFile :=
    if file.id = id then { file with content := file.content ++ content, modified := tree.clock }
    else file
  set { tree with
    entries := tree.entries.map fun (location, entry) =>
      match entry with
      | Entry.file file => (location, Entry.file (add file))
      | entry => (location, entry)
    removed := tree.removed.map add }

/-- Removes a regular file. -/
def remove (path : String) : FileWork Unit := do
  let location ← reach path
  let tree ← get
  match tree.find? location with
  | some (.file file) =>
    set { (tree.clear location).touch location.dropLast with removed := file :: tree.removed }
  | some (.directory _) => throw ⟨.isADirectory, path⟩
  | none => throw ⟨.noSuchFile, path⟩

/-- Gives what stands at a path another place, at which nothing stands. -/
def move (source target : String) : FileWork Unit := do
  let start ← reach source
  let destination ← reach target
  let tree ← get
  if (tree.find? start).isNone then throw ⟨.noSuchFile, source⟩
  let moved := { tree with
    entries := tree.entries.map fun (location, entry) =>
      if start.isPrefixOf location then (destination ++ location.drop start.length, entry)
      else (location, entry) }
  set ((moved.touch start.dropLast).touch destination.dropLast)

/-- Gives a file or directory another time of modification. -/
def setModified (path : String) (time : Int) : FileWork Unit := do
  let location ← reach path
  match (← get).find? location with
  | some (.file file) => modify (·.put location (.file { file with modified := time }))
  | some (.directory _) => modify (·.put location (.directory time))
  | none => throw ⟨.noSuchFile, path⟩

/-- Removes what stands at a path, with everything below it. -/
def removeAll (path : String) : FileWork Unit := do
  let location ← reach path
  modify fun tree => (tree.clear location).touch location.dropLast

end FileWork

end ClarityDelta.Files
