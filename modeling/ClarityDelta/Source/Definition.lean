import ClarityDelta.Source.Mask
import ClarityDelta.Source.Span

/-!
# Function definitions

The definitions of a contract text with their own lines. A definition that is left open at the end
of the text takes all the rest of it, and a notice tells so.
-/

namespace ClarityDelta.Source

open Text

/-- A function definition: lines count from 1, and both ends belong to it. -/
structure FunctionDefinition where
  name : String
  kind : FunctionKind
  file : String
  startLine : Nat
  endLine : Nat
  content : String
  deriving DecidableEq, Repr

/-- The lines `first` to `last` of a text, counted from 1. -/
def sliceLines (first last : Nat) (ls : List (List Char)) : List (List Char) :=
  (ls.drop (first - 1)).take (last + 1 - first)

/-- The definition that a span of a text's lines holds. -/
def Span.definition (file : String) (ls : List (List Char)) (span : Span) : FunctionDefinition where
  name := span.header.name
  kind := span.header.kind
  file := file
  startLine := span.first
  endLine := span.last
  content := String.ofList (unlines (sliceLines span.first span.last ls))

/-- The spans of a contract text's definitions. -/
def scan (scanning : Scanning) (content : String) : List Span :=
  spans (scanning.view (lines content.toList))

/-- The definitions of a contract text, in order. -/
def definitions (scanning : Scanning) (file content : String) : List FunctionDefinition :=
  (scan scanning content).map (Span.definition file (lines content.toList))

/-- The span that the end of the text left open. -/
def unclosed? (spans : List Span) : Option Span :=
  spans.getLast?.filter (!·.closed)

/-- What is noted about an open definition. -/
def unclosedNotice (file : String) (span : Span) : String :=
  s!"{file}: 函数 {span.header.name} 自第 {span.first} 行起括号未配平（深度 {span.depth}），剩余内容全部归入该函数"

/-- What is noted about the number of definitions found. -/
def countNotice (file : String) (count : Nat) : String :=
  s!"{file}: 解析到 {count} 个函数定义"

end ClarityDelta.Source
