import ClarityDelta.Source.Definition

/-!
# Changed functions

Two revisions of a contract are compared by function name. Of several definitions with one name the
first one stands for the name. Any difference in the text counts, also one in blanks or comments.
-/

namespace ClarityDelta

open Source

/-- What happened to a function between the base and the head revision. -/
inductive ChangeType where
  | added
  | modified
  | deleted
  deriving DecidableEq, Repr

namespace ChangeType

/-- The word for the change. -/
def name : ChangeType → String
  | added => "added"
  | modified => "modified"
  | deleted => "deleted"

/-- The change with the given name. -/
def ofName? (s : String) : Option ChangeType :=
  [added, modified, deleted].find? (·.name == s)

end ChangeType

/-- A function that differs between two revisions. A deleted one is shown as in the base revision,
any other as in the head revision. -/
structure ChangedFunction extends FunctionDefinition where
  changeType : ChangeType
  deriving DecidableEq, Repr

namespace Change

/-- The definition that stands for a name: the first one that has it. -/
def lookup (name : String) (functions : List FunctionDefinition) : Option FunctionDefinition :=
  functions.find? (·.name == name)

/-- What a definition of the base revision contributes: a deletion when the head revision lacks its
name, a modification when the texts differ. -/
def ofBase? (head : List FunctionDefinition) (f : FunctionDefinition) : Option ChangedFunction :=
  match lookup f.name head with
  | none => some ⟨f, .deleted⟩
  | some g => if f.content = g.content then none else some ⟨g, .modified⟩

/-- What a definition of the head revision contributes: an addition when the base revision lacks
its name. -/
def ofHead? (base : List FunctionDefinition) (g : FunctionDefinition) : Option ChangedFunction :=
  match lookup g.name base with
  | none => some ⟨g, .added⟩
  | some _ => none

/-- The functions that differ: deleted and modified ones in the order of the base revision, then
added ones in the order of the head revision. -/
def compare (base head : List FunctionDefinition) : List ChangedFunction :=
  base.filterMap (ofBase? head) ++ head.filterMap (ofHead? base)

/-- The definitions of a revision of a file. A revision without a text has none. -/
def revisionDefinitions (scanning : Scanning) (file : String) (content : Option String) :
    List FunctionDefinition :=
  match content with
  | none => []
  | some text => if text.isEmpty then [] else definitions scanning file text

/-- The functions of a file that differ between two revisions, either of which may lack it. -/
def compareRevisions (scanning : Scanning) (file : String) (base head : Option String) :
    List ChangedFunction :=
  compare (revisionDefinitions scanning file base) (revisionDefinitions scanning file head)

end Change

end ClarityDelta
