import ClarityDelta.Terminal.Style
import ClarityDelta.Text.Blank
import ClarityDelta.Text.Lines

/-!
# Console markup

A console text holds tags in square brackets: `[bold]` opens a style, `[/bold]` or `[/]` closes one.
Backslashes before a tag come in pairs, each pair standing for one, and a single one left over makes
the tag plain text. A closing tag without an open one is a fault. Escaping writes a text so that it
is shown as it is.
-/

namespace ClarityDelta.Terminal.Markup

open Text

/-- A part of a marked up text: a plain character, or what stands in the brackets of a tag, with the
number of backslashes before it. -/
inductive Chunk where
  | char (c : Char)
  | tag (backslashes : Nat) (inside : List Char)
  deriving DecidableEq, Repr

/-- What a tag begins with after its bracket. -/
def opensTag (c : Char) : Bool :=
  ('a' ≤ c && c ≤ 'z') || c = '#' || c = '/' || c = '@'

/-- What stands in the brackets of a tag whose opening bracket was just read, and the rest. -/
def inside? (cs : List Char) : Option (List Char × List Char) :=
  let inside := cs.takeWhile fun c => c ≠ '[' && c ≠ ']'
  match inside, cs.dropWhile fun c => c ≠ '[' && c ≠ ']' with
  | c :: _, ']' :: rest => if opensTag c then some (inside, rest) else none
  | _, _ => none

/-- What follows a tag is shorter than what follows its opening bracket. -/
theorem length_of_inside? {cs inside rest : List Char} (h : inside? cs = some (inside, rest)) :
    rest.length ≤ cs.length := by
  unfold inside? at h
  simp only at h
  split at h
  · next heq =>
    split at h
    · simp only [Option.some.injEq, Prod.mk.injEq] at h
      have := (List.dropWhile_sublist (l := cs) fun c => c ≠ '[' && c ≠ ']').length_le
      rw [heq] at this
      simp only [List.length_cons, h.2] at this
      omega
    · simp at h
  · simp at h

/-- The parts of a text before which the given number of backslashes stands. -/
def chunksFrom (backslashes : Nat) (cs : List Char) : List Chunk :=
  match cs with
  | [] => List.replicate backslashes (.char '\\')
  | '\\' :: rest => chunksFrom (backslashes + 1) rest
  | '[' :: rest =>
    match _h : inside? rest with
    | some (inside, more) => .tag backslashes inside :: chunksFrom 0 more
    | none => List.replicate backslashes (.char '\\') ++ .char '[' :: chunksFrom 0 rest
  | c :: rest => List.replicate backslashes (.char '\\') ++ .char c :: chunksFrom 0 rest
termination_by cs.length
decreasing_by
  all_goals simp only [List.length_cons]
  all_goals first
    | omega
    | exact Nat.lt_succ_of_le (length_of_inside? _h)

/-- The parts of a text. -/
def chunks (cs : List Char) : List Chunk :=
  chunksFrom 0 cs

/-- A tag as it is written. -/
def brackets (inside : List Char) : List Char :=
  '[' :: (inside ++ [']'])

/-- A part written so that a tag becomes plain text. -/
def Chunk.escaped : Chunk → List Char
  | .char c => [c]
  | .tag backslashes inside => List.replicate (2 * backslashes + 1) '\\' ++ brackets inside

/-- Whether a text ends in exactly one backslash. -/
def endsInOneBackslash (cs : List Char) : Bool :=
  match cs.reverse with
  | ['\\'] => true
  | '\\' :: c :: _ => c ≠ '\\'
  | _ => false

/-- A text written so that its tags are plain text. A single backslash at the end is doubled, lest it
belong to what is written next. -/
def escape (s : String) : String :=
  let cs := (chunks s.toList).flatMap Chunk.escaped
  String.ofList (if endsInOneBackslash cs then cs ++ ['\\'] else cs)

/-- A closing tag without an open one. -/
inductive MarkupFault where
  | notOpen (tag : String) (position : Nat)
  | nothingOpen (position : Nat)
  deriving DecidableEq, Repr

/-- The fault in words. -/
def MarkupFault.message : MarkupFault → String
  | notOpen tag position =>
    s!"closing tag '{tag}' at position {position} doesn't match any open tag"
  | nothingOpen position => s!"closing tag '[/]' at position {position} has nothing to close"

/-- The tags open when another part is read, the last one opened first. -/
abbrev Open := List String

/-- The name of a tag, which an equals sign ends. -/
def tagName (inside : List Char) : List Char :=
  inside.takeWhile (· ≠ '=')

/-- The tags open after one that is not plain text, which begins at the given position. -/
def afterTag (position : Nat) (inside : List Char) (opened : Open) : Except MarkupFault Open :=
  match tagName inside with
  | '/' :: name =>
    if isBlankText name then
      match opened with
      | [] => .error (.nothingOpen position)
      | _ :: rest => .ok rest
    else
      let style := Style.normalized (trim name)
      if opened.contains style then .ok (opened.erase style)
      else .error (.notOpen (String.ofList (brackets inside)) position)
  | name => .ok (Style.normalized name :: opened)

/-- What the parts of a text show, the first one beginning at the given position. A plain backslash
before a plain bracket is left out. -/
def shown (position : Nat) (opened : Open) : List Chunk → Except MarkupFault (List Char)
  | [] => .ok []
  | .char '\\' :: .char '[' :: rest => (shown (position + 2) opened rest).map ('[' :: ·)
  | .char c :: rest => (shown (position + 1) opened rest).map (c :: ·)
  | .tag backslashes inside :: rest => do
    let after := position + backslashes + inside.length + 2
    let slashes := List.replicate (backslashes / 2) '\\'
    if backslashes % 2 = 1 then
      return slashes ++ brackets inside ++ (← shown after opened rest)
    else
      let opened ← afterTag (position + backslashes) inside opened
      return slashes ++ (← shown after opened rest)

/-- What a marked up text shows. -/
def render (s : String) : Except MarkupFault (List Char) :=
  shown 0 [] (chunks s.toList)

end ClarityDelta.Terminal.Markup
