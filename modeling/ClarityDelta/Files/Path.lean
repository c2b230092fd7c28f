import ClarityDelta.Text.Lines
import ClarityDelta.Text.Search

/-!
# Paths

A path is a root and its components. Empty components and `.` are dropped when a path is read,
`..` is kept. Beside it stand the lexical operations on the text of a path: its components from the
root of the file tree on, and the way from a directory to a file.
-/

namespace ClarityDelta.Files

open Text

/-- A path: its root (empty for a relative one, otherwise one or two slashes) and its
components. -/
structure Path where
  root : String
  parts : List String
  deriving DecidableEq, Repr

/-- The components of a path's text: its pieces between slashes that are neither empty nor `.`. -/
def components (s : String) : List String :=
  ((splitAt '/' s.toList).map String.ofList).filter fun part => part ≠ "" && part ≠ "."

namespace Path

/-- The root of a path's text: two slashes, but not more, are a root of their own. -/
def rootOf (s : String) : String :=
  match s.toList with
  | '/' :: '/' :: '/' :: _ => "/"
  | ['/', '/'] => "//"
  | '/' :: '/' :: _ => "//"
  | '/' :: _ => "/"
  | _ => ""

/-- The path that a text names. -/
def ofText (s : String) : Path :=
  ⟨rootOf s, components s⟩

/-- The text of a path, `.` for the path without components. -/
def text (p : Path) : String :=
  if p.root.isEmpty && p.parts.isEmpty then "." else p.root ++ "/".intercalate p.parts

/-- Whether a path begins at the root of the file tree. -/
def isAbsolute (p : Path) : Bool :=
  !p.root.isEmpty

/-- The last component, empty when there is none. -/
def name (p : Path) : String :=
  p.parts.getLastD ""

/-- The path without its last component. -/
def parent (p : Path) : Path :=
  { p with parts := p.parts.dropLast }

/-- A path seen from another one: itself when it is absolute. -/
def join (base p : Path) : Path :=
  if p.isAbsolute then p else { base with parts := base.parts ++ p.parts }

/-- A name cut before its last point into stem and suffix. A point at either end of the name begins
no suffix. -/
def cutSuffix (name : List Char) : List Char × List Char :=
  let suffix := (name.reverse.takeWhile (· ≠ '.')).reverse
  let stem := (name.reverse.dropWhile (· ≠ '.')).reverse.dropLast
  if suffix.isEmpty || stem.isEmpty then (name, []) else (stem, '.' :: suffix)

/-- The path with another suffix, which begins with a point, or none if the path has no name. -/
def withSuffix? (p : Path) (suffix : String) : Option Path :=
  if p.name.isEmpty then none
  else
    let stem := (cutSuffix p.name.toList).1
    some { p with parts := p.parts.dropLast ++ [String.ofList stem ++ suffix] }

end Path

/-- A location: the components of an absolute path without `..`. -/
abbrev Location := List String

/-- Components followed from a location, each `..` taking back the component before it. -/
def follow (start : Location) (parts : List String) : Location :=
  parts.foldl (fun location part => if part = ".." then location.dropLast else location ++ [part])
    start

/-- The location that a path's text names, lexically, in the given current directory. -/
def locate (current : Location) (s : String) : Location :=
  follow (if (Path.rootOf s).isEmpty then current else []) (components s)

/-- The text of an absolute path. -/
def locationText (location : Location) : String :=
  "/" ++ "/".intercalate location

/-- The absolute text of a path, two leading slashes being kept. -/
def absoluteText (current : Location) (s : String) : String :=
  let root := Path.rootOf s
  (if root.isEmpty then "/" else root) ++ "/".intercalate (locate current s)

/-- The components that lead from a directory to a location: a `..` for each component to leave,
then those to enter. -/
def wayBetween : (directory file : Location) → List String
  | d :: directory, f :: file =>
    if d = f then wayBetween directory file
    else (d :: directory).map (fun _ => "..") ++ f :: file
  | directory, file => directory.map (fun _ => "..") ++ file

/-- The text of a path up to its last slash, the slashes at its end left out. -/
def directoryText (s : String) : String :=
  let head := (s.toList.reverse.dropWhile (· ≠ '/'))
  let bare := head.dropWhile (· = '/')
  String.ofList (if bare.isEmpty then head.reverse else bare.reverse)

/-- The components among the pieces of a path's text, the last one first, each with the text up to its
end. The pieces are those between slashes, the last one first as well. -/
def stagesOf : List (List Char) → List (String × String)
  | [] => []
  | piece :: above =>
    if piece.isEmpty then stagesOf above
    else
      let text := String.ofList (joinWith '/' (piece :: above).reverse)
      (String.ofList piece, text) :: stagesOf above

/-- The components of a path's text that does not end with a slash, `.` among them, the last one
first. With each one stands the text up to its end. -/
def stages (s : String) : List (String × String) :=
  stagesOf (splitAt '/' s.toList).reverse

end ClarityDelta.Files
