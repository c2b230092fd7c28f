import ClarityDelta.Data.Yaml.Tag
import ClarityDelta.Data.Yaml.Token

/-!
# Nodes of a YAML text

The tokens of a text make one tree of nodes. An alias stands for the node with its anchor, and for a
node without a value when it is part of that node. No anchor is used twice.
-/

namespace ClarityDelta.Data.Yaml

/-- A node. -/
inductive Node where
  | scalar (tag : Tag) (text : String)
  | sequence (tag : Tag) (items : List Node)
  | mapping (tag : Tag) (pairs : List (Node × Node))
  | cycle
  deriving Repr, Inhabited

/-- The node of what is left out. -/
def Node.absent : Node :=
  .scalar .null ""

/-- What is known while nodes are made: the tokens ahead, and the nodes with anchors. -/
structure NodeReader where
  tokens : List Token
  anchors : List (String × Node)

/-- A step of making nodes. -/
abbrev Making := StateT NodeReader Reading

namespace Making

/-- The next token. -/
def peek : Making Token := do
  match (← get).tokens with
  | token :: _ => pure token
  | [] => pure .streamEnd

/-- Goes over the next token. -/
def drop : Making Unit :=
  modify fun reader => { reader with tokens := reader.tokens.drop 1 }

/-- Whether the next token is the given one, which is gone over then. -/
def accept (token : Token) : Making Bool := do
  if (← peek) = token then
    drop
    return true
  else return false

/-- Goes over the next token, which has to be the given one. -/
def expect (token : Token) : Making Unit := do
  if !(← accept token) then throw .illFormed

/-- Whether the next token is one of the given ones. -/
def stops (tokens : List Token) : Making Bool := do
  return tokens.contains (← peek)

/-- An anchor and a tag, in any order and either of them missing. -/
def properties : Making (Option String × Option Token) := do
  match ← peek with
  | .anchor name =>
    drop
    match ← peek with
    | .tag handle suffix =>
      drop
      return (some name, some (.tag handle suffix))
    | _ => return (some name, none)
  | .tag handle suffix =>
    drop
    match ← peek with
    | .anchor name =>
      drop
      return (some name, some (.tag handle suffix))
    | _ => return (none, some (.tag handle suffix))
  | _ => return (none, none)

/-- The full name of a tag, in which a handle stands for its meaning. -/
def tagName (handles : List (String × String)) : Option Token → Making (Option String)
  | some (.tag (some handle) suffix) => do
    match handles.lookup handle with
    | some meaning => return some (meaning ++ suffix)
    | none => throw .illFormed
  | some (.tag none suffix) => return some suffix
  | _ => return none

/-- The tag of a scalar. -/
def scalarTag (name : Option String) (text : String) (plain : Bool) : Tag :=
  match name with
  | some "!" => .ofPlain text
  | some name => .ofName name
  | none => if plain then .ofPlain text else .text

/-- The tag of a collection. -/
def collectionTag (name : Option String) (usual : Tag) : Tag :=
  match name with
  | some "!" => usual
  | some name => .ofName name
  | none => usual

/-- The node that an alias stands for. -/
def aliased (name : String) : Making Node := do
  match (← get).anchors.lookup name with
  | some node => return node
  | none => throw .illFormed

/-- Lets an anchor stand for a node. -/
def setAnchor (anchor : Option String) (node : Node) : Making Unit := do
  match anchor with
  | none => pure ()
  | some name => modify fun reader => { reader with anchors := (name, node) :: reader.anchors }

/-- Lets an anchor stand for a node that is not complete yet. -/
def openAnchor (anchor : Option String) : Making Unit := do
  match anchor with
  | none => pure ()
  | some name =>
    if ((← get).anchors.lookup name).isSome then throw .illFormed
    setAnchor anchor .cycle

mutual

/-- The next node. Only outside flow collections can it be a block collection, and only as a value
of a block mapping a sequence that is not indented. -/
def node (handles : List (String × String)) : Nat → (block unindented : Bool) → Making Node
  | 0, _, _ => throw .illFormed
  | fuel + 1, block, unindented => do
    if let .alias name ← peek then
      drop
      return ← aliased name
    let (anchor, tag) ← properties
    let name ← tagName handles tag
    openAnchor anchor
    let made ← (do
      match ← peek with
      | .scalar text plain =>
        drop
        return Node.scalar (scalarTag name text plain) text
      | .flowSequenceStart =>
        drop
        return Node.sequence (collectionTag name .sequence) (← flowItems handles fuel true)
      | .flowMappingStart =>
        drop
        return Node.mapping (collectionTag name .mapping) (← flowPairs handles fuel true)
      | .blockEntry =>
        if unindented then
          return Node.sequence (collectionTag name .sequence) (← looseItems handles fuel)
        else if anchor.isSome || name.isSome then
          return Node.scalar (scalarTag name "" true) ""
        else throw .illFormed
      | .blockSequenceStart =>
        if block then
          drop
          return Node.sequence (collectionTag name .sequence) (← blockItems handles fuel)
        else if anchor.isSome || name.isSome then
          return Node.scalar (scalarTag name "" true) ""
        else throw .illFormed
      | .blockMappingStart =>
        if block then
          drop
          return Node.mapping (collectionTag name .mapping) (← blockPairs handles fuel)
        else if anchor.isSome || name.isSome then
          return Node.scalar (scalarTag name "" true) ""
        else throw .illFormed
      | _ =>
        if anchor.isSome || name.isSome then return Node.scalar (scalarTag name "" true) ""
        else throw .illFormed : Making Node)
    setAnchor anchor made
    return made

/-- The next node, nothing standing for an absent one before the given tokens. -/
def nodeBefore (handles : List (String × String)) :
    Nat → (block unindented : Bool) → List Token → Making Node
  | 0, _, _, _ => throw .illFormed
  | fuel + 1, block, unindented, ends => do
    if ← stops ends then return .absent else node handles fuel block unindented

/-- The entries of a block sequence, to its end. -/
def blockItems (handles : List (String × String)) : Nat → Making (List Node)
  | 0 => throw .illFormed
  | fuel + 1 => do
    if ← accept .blockEntry then
      let item ← nodeBefore handles fuel true false [.blockEntry, .blockEnd]
      return item :: (← blockItems handles fuel)
    else
      expect .blockEnd
      return []

/-- The entries of a sequence that is not indented. -/
def looseItems (handles : List (String × String)) : Nat → Making (List Node)
  | 0 => throw .illFormed
  | fuel + 1 => do
    if ← accept .blockEntry then
      let item ← nodeBefore handles fuel true false [.blockEntry, .key, .value, .blockEnd]
      return item :: (← looseItems handles fuel)
    else return []

/-- The pairs of a block mapping, to its end. -/
def blockPairs (handles : List (String × String)) : Nat → Making (List (Node × Node))
  | 0 => throw .illFormed
  | fuel + 1 => do
    if ← accept .key then
      let key ← nodeBefore handles fuel true true [.key, .value, .blockEnd]
      let value ←
        if ← accept .value then nodeBefore handles fuel true true [.key, .value, .blockEnd]
        else pure .absent
      return (key, value) :: (← blockPairs handles fuel)
    else
      expect .blockEnd
      return []

/-- The entries of a flow sequence, to its end. -/
def flowItems (handles : List (String × String)) : Nat → (first : Bool) → Making (List Node)
  | 0, _ => throw .illFormed
  | fuel + 1, first => do
    if ← accept .flowSequenceEnd then return []
    if !first then expect .flowEntry
    if ← accept .flowSequenceEnd then return []
    let item ←
      if ← accept .key then
        let key ← nodeBefore handles fuel false false [.value, .flowEntry, .flowSequenceEnd]
        let value ←
          if ← accept .value then nodeBefore handles fuel false false [.flowEntry, .flowSequenceEnd]
          else pure .absent
        pure (Node.mapping .mapping [(key, value)])
      else node handles fuel false false
    return item :: (← flowItems handles fuel false)

/-- The pairs of a flow mapping, to its end. -/
def flowPairs (handles : List (String × String)) :
    Nat → (first : Bool) → Making (List (Node × Node))
  | 0, _ => throw .illFormed
  | fuel + 1, first => do
    if ← accept .flowMappingEnd then return []
    if !first then expect .flowEntry
    if ← accept .flowMappingEnd then return []
    let pair ←
      if ← accept .key then
        let key ← nodeBefore handles fuel false false [.value, .flowEntry, .flowMappingEnd]
        let value ←
          if ← accept .value then nodeBefore handles fuel false false [.flowEntry, .flowMappingEnd]
          else pure .absent
        pure (key, value)
      else pure (← node handles fuel false false, Node.absent)
    return pair :: (← flowPairs handles fuel false)

end

/-- The directives before a document, as the meanings of handles. -/
def directives : Nat → (version : Bool) → List (String × String) → Making (List (String × String))
  | 0, _, handles => return handles
  | fuel + 1, version, handles => do
    match ← peek with
    | .version major =>
      drop
      if version || major ≠ 1 then throw .illFormed
      directives fuel true handles
    | .handle name meaning =>
      drop
      if (handles.lookup name).isSome then throw .illFormed
      directives fuel version ((name, meaning) :: handles)
    | .otherDirective =>
      drop
      directives fuel version handles
    | _ => return handles

/-- Goes over ends of documents. -/
def documentEnds : Nat → Making Unit
  | 0 => pure ()
  | fuel + 1 => do
    if ← accept .documentEnd then documentEnds fuel

/-- The meanings that handles have without a directive. -/
def usualHandles : List (String × String) :=
  [("!", "!"), ("!!", Tag.standard)]

/-- Whether the next token is a directive. -/
def atDirective : Making Bool := do
  match ← peek with
  | .version _ => return true
  | .handle _ _ => return true
  | .otherDirective => return true
  | _ => return false

/-- The node of a document that begins with a marker, directives standing before it. -/
def markedDocument (count depth : Nat) : Making Node := do
  let handles ← directives count false []
  expect .documentStart
  if ← atDirective then return .absent
  nodeBefore (handles ++ usualHandles) depth true false [.documentStart, .documentEnd, .streamEnd]

/-- The node of the only document, if there is one. -/
def document : Making (Option Node) := do
  let count := (← get).tokens.length
  let depth := 4 * count + 4
  if ← stops [.streamEnd] then return none
  let marked := (← atDirective) || (← stops [.documentStart])
  let made ← if marked then markedDocument count depth else node usualHandles depth true false
  documentEnds count
  expect .streamEnd
  return some made

end Making

/-- The node of a text, if there is one. -/
def node? (cs : List Char) : Reading (Option Node) := do
  let (made, _) ← Making.document.run ⟨← tokens cs, []⟩
  return made

end ClarityDelta.Data.Yaml
