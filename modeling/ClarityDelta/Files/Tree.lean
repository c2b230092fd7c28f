import ClarityDelta.Files.Path
import ClarityDelta.Text.Quoted

/-!
# File trees

A tree of directories and regular files, as seen from a current directory, and what the text of a
path leads to in it. A path is followed component by component through existing directories.
-/

namespace ClarityDelta.Files

open Text

/-- A regular file. Its identity stays when it is renamed or written again. Times are in nanoseconds. -/
structure RegularFile where
  id : Nat
  content : ByteArray
  modified : Int

/-- What stands at a location. -/
inductive Entry where
  | directory (modified : Int)
  | file (file : RegularFile)

/-- A file tree. The root is a directory without an entry of its own. Files that were removed are
kept aside for those who still have them open. -/
structure FileTree where
  current : Location
  entries : List (Location × Entry)
  removed : List RegularFile
  nextId : Nat
  clock : Int

/-- Why a file operation fails. -/
inductive FileErrorKind where
  | noSuchFile
  | fileExists
  | notADirectory
  | isADirectory
  | nameTooLong
  /-- No path holds a NUL character, so such a path is refused before the file tree is asked. -/
  | embeddedNul
  deriving DecidableEq, Repr

/-- A failed file operation on a path. -/
structure FileError where
  kind : FileErrorKind
  path : String
  deriving DecidableEq, Repr

namespace FileError

/-- Whether the file tree itself reports the error. -/
def isSystem (error : FileError) : Bool :=
  error.kind ≠ .embeddedNul

/-- The error in words. -/
def message (error : FileError) : String :=
  let path := quoted error.path
  match error.kind with
  | .noSuchFile => s!"[Errno 2] No such file or directory: {path}"
  | .fileExists => s!"[Errno 17] File exists: {path}"
  | .notADirectory => s!"[Errno 20] Not a directory: {path}"
  | .isADirectory => s!"[Errno 21] Is a directory: {path}"
  | .nameTooLong => s!"[Errno 36] File name too long: {path}"
  | .embeddedNul => "embedded null byte"

end FileError

/-- The most bytes that one component may have. -/
def maxComponentBytes : Nat := 255

/-- The most bytes that the text of a path may have. -/
def maxPathBytes : Nat := 4095

namespace FileTree

/-- A tree without files, which holds the current directory and those above it. -/
def empty (current : Location) : FileTree where
  current := current
  entries := (List.range current.length).map fun n => (current.take (n + 1), .directory 0)
  removed := []
  nextId := 0
  clock := 0

/-- What stands at a location. -/
def find? (tree : FileTree) (location : Location) : Option Entry :=
  if location = [] then some (.directory 0) else tree.entries.lookup location

/-- The regular file at a location. -/
def file? (tree : FileTree) (location : Location) : Option RegularFile :=
  match tree.find? location with
  | some (.file file) => some file
  | _ => none

/-- One component followed from a location. -/
def enter (location : Location) (part : String) : Location :=
  if part = "." then location else follow location [part]

/-- The location that components lead to, each but the last leading to an existing directory. -/
def walk (tree : FileTree) : Location → List String → Except FileErrorKind Location
  | location, [] => .ok location
  | location, part :: rest =>
    match tree.find? location with
    | none => .error .noSuchFile
    | some (.file _) => .error .notADirectory
    | some (.directory _) =>
      if maxComponentBytes < part.utf8ByteSize then .error .nameTooLong
      else walk tree (enter location part) rest

/-- The components to follow for a path's text: a slash at the end stands for `.`. -/
def steps (path : String) : List String :=
  let parts := (splitAt '/' path.toList).map String.ofList
  (if parts.getLast? = some "" then parts ++ ["."] else parts).filter (· ≠ "")

/-- The location that a path's text starts at. -/
def origin (tree : FileTree) (path : String) : Location :=
  if startsWith ['/'] path.toList then [] else tree.current

/-- Fails when no file operation takes the path's text. -/
def checkPath (path : String) : Except FileError Unit :=
  if path.toList.contains '\x00' then .error ⟨.embeddedNul, path⟩
  else if path.isEmpty then .error ⟨.noSuchFile, path⟩
  else if maxPathBytes < path.utf8ByteSize then .error ⟨.nameTooLong, path⟩
  else .ok ()

/-- The location that a path's text leads to. -/
def reach (tree : FileTree) (path : String) : Except FileError Location := do
  checkPath path
  match tree.walk (tree.origin path) (steps path) with
  | .ok location => .ok location
  | .error kind => .error ⟨kind, path⟩

/-- What a path's text leads to. -/
def at? (tree : FileTree) (path : String) : Option Entry :=
  match tree.reach path with
  | .ok location => tree.find? location
  | .error _ => none

/-- The regular file that a path's text leads to. -/
def fileAt? (tree : FileTree) (path : String) : Option RegularFile :=
  match tree.at? path with
  | some (.file file) => some file
  | _ => none

/-- Whether a path's text leads to a regular file. -/
def isFile (tree : FileTree) (path : String) : Bool :=
  (tree.fileAt? path).isSome

/-- Whether a path's text leads to a directory. -/
def isDirectory (tree : FileTree) (path : String) : Bool :=
  match tree.at? path with
  | some (.directory _) => true
  | _ => false

/-- Whether a path's text leads to anything. -/
def holds (tree : FileTree) (path : String) : Bool :=
  (tree.at? path).isSome

/-- The file with the given identity, removed or not. -/
def fileOf? (tree : FileTree) (id : Nat) : Option RegularFile :=
  (tree.entries.findSome? fun (_, entry) =>
    match entry with
    | .file file => if file.id = id then some file else none
    | .directory _ => none) <|> tree.removed.find? (·.id = id)

/-- The tree after an entry is put at a location. -/
def put (tree : FileTree) (location : Location) (entry : Entry) : FileTree :=
  let rec replace : List (Location × Entry) → List (Location × Entry)
    | [] => [(location, entry)]
    | (l, old) :: rest => if l = location then (l, entry) :: rest else (l, old) :: replace rest
  { tree with entries := replace tree.entries }

/-- The time of the last modification of what a path's text leads to. -/
def modified? (tree : FileTree) (path : String) : Option Int :=
  (tree.at? path).map fun entry =>
    match entry with
    | .file file => file.modified
    | .directory modified => modified

/-- The tree after the names in a directory changed. -/
def touch (tree : FileTree) (location : Location) : FileTree :=
  match tree.entries.lookup location with
  | some (.directory _) => tree.put location (.directory tree.clock)
  | _ => tree

/-- The tree after an entry is put at a location where nothing stood. -/
def make (tree : FileTree) (location : Location) (entry : Entry) : FileTree :=
  (tree.put location entry).touch location.dropLast

/-- The tree after everything at or below a location is gone. -/
def clear (tree : FileTree) (location : Location) : FileTree :=
  { tree with entries := tree.entries.filter fun (l, _) => !location.isPrefixOf l }

/-- The regular files below the current directory, named from there. -/
def listing (tree : FileTree) : List (String × ByteArray) :=
  tree.entries.filterMap fun (location, entry) =>
    match entry with
    | .file file =>
      if tree.current.isPrefixOf location then
        some ("/".intercalate (location.drop tree.current.length), file.content)
      else none
    | .directory _ => none

end FileTree

end ClarityDelta.Files
