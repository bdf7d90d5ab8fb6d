import VirtualTopology.Yaml.Graph
import VirtualTopology.Yaml.Token.Lexer

/-!
# Nodes

A YAML text holds one node with everything inside it: scalars, sequences and mappings, each with a tag.
An anchor names a node, and an alias stands for the node that is named, also inside that node itself.
What is left out between two marks is an empty scalar.

`Graph.ofText?` reads the nodes of a text. A text without any node has none, a text with two
documents is an error, and so are nodes that are nested too deep (`nestingLimit`).
-/

namespace VirtualTopology.Yaml

/-- The greatest number of nodes that are inside one another. -/
def nestingLimit : Nat := 486

/-- What is known while nodes are read. -/
structure NodeState where
  lexer : Lexer
  /-- What the handles of tags stand for. -/
  handles : List (String × String)
  /-- The nodes that have a name. -/
  anchors : List (String × NodeId) := []
  /-- The nodes so far; those that are still being read are empty. -/
  graph : Graph := #[]
  /-- The number of nodes that are still being read. -/
  depth : Nat := 0

/-- Reading nodes. -/
abbrev Nodes := StateT NodeState (Except Flaw)

namespace Nodes

/-- Give up: the text is no YAML. -/
def fail {α : Type} : Nodes α := throw .malformed

/-- Ask the lexer. -/
def lex {α : Type} (l : Lexing α) : Nodes α := do
  let s ← get
  match l.run s.lexer with
  | .ok (a, lexer) => do
      set { s with lexer }
      return a
  | .error flaw => throw flaw

/-- The next token. -/
def peek? : Nodes (Option Token) := lex Token.peek?

/-- Pass over the next token. -/
def skip : Nodes Unit := do
  let _ ← lex Token.pop?

/-- Pass over the next token if it is the given one. -/
def past? (t : Token) : Nodes Bool := do
  if (← peek?) == some t then
    skip
    return true
  return false

/-- Pass over the given token, which has to be next. -/
def past (t : Token) : Nodes Unit := do
  if !(← past? t) then fail

/-- Whether one of some tokens is next. -/
def isNext (ts : List Token) : Nodes Bool := return (← peek?).any ts.contains

/-! ### Properties -/

/-- The name and the tag in front of a node. -/
structure Properties where
  anchor : Option String := none
  /-- The full name of the tag. -/
  tag : Option String := none

namespace Properties

/-- Whether there is neither name nor tag. -/
def isEmpty (p : Properties) : Bool := p.anchor.isNone && p.tag.isNone

/-- The tag of a collection. A lone exclamation mark is no tag. -/
def collectionTag (p : Properties) (default : Tag) : Tag :=
  match p.tag with
  | none | some "!" => default
  | some name => .ofName name

/-- The tag of a scalar; `plain` if it stands without quotes. A lone exclamation mark has the effect
that a scalar is treated as if it were plain. -/
def scalarTag (p : Properties) (text : String) (plain : Bool) : Tag :=
  match p.tag with
  | none => if plain then .ofPlain text else .text
  | some "!" => .ofPlain text
  | some name => .ofName name

end Properties

/-- The full name of a tag. -/
def fullName (t : WrittenTag) : Nodes String := do
  match t.handle with
  | none => return t.suffix
  | some handle =>
      match (← get).handles.lookup handle with
      | some stands => return stands ++ t.suffix
      | none => fail

/-- Read an anchor, if one is next. -/
def anchor? : Nodes (Option String) := do
  match ← peek? with
  | some (.anchor name) => do skip; return some name
  | _ => return none

/-- Read a tag, if one is next. -/
def tag? : Nodes (Option String) := do
  match ← peek? with
  | some (.tag t) => do skip; return some (← fullName t)
  | _ => return none

/-- Read a name and a tag, in either order. -/
def properties : Nodes Properties := do
  match ← anchor? with
  | some anchor => return { anchor := some anchor, tag := ← tag? }
  | none =>
      match ← tag? with
      | some tag => return { anchor := ← anchor?, tag := some tag }
      | none => return {}

/-- Note that a name is that of a node. No name is given twice. -/
def declare (anchor : Option String) (n : NodeId) : Nodes Unit := do
  match anchor with
  | none => return
  | some name =>
      if ((← get).anchors.lookup name).isSome then fail
      modify fun s => { s with anchors := (name, n) :: s.anchors }

/-- The node that an alias stands for. -/
def aliased (name : String) : Nodes NodeId := do
  match (← get).anchors.lookup name with
  | some n => return n
  | none => fail

/-! ### Building nodes -/

/-- Add a node. -/
def add (node : Node) : Nodes NodeId := do
  let n := (← get).graph.size
  modify fun s => { s with graph := s.graph.push node }
  return n

/-- Add a node for what is left out. -/
def addEmpty : Nodes NodeId := add { tag := .null, body := .scalar "" }

/-- Read the parts of a node, which is there for them to refer to. -/
def within (anchor : Option String) (tag : Tag) (body : Nodes Body) : Nodes NodeId := do
  let n ← add { tag, body := .scalar "" }
  declare anchor n
  modify fun s => { s with depth := s.depth + 1 }
  if nestingLimit < (← get).depth then throw .tooDeep
  let body ← body
  modify fun s => { s with depth := s.depth - 1, graph := s.graph.replace n { tag, body } }
  return n

/-- What a node begins with, behind its properties. -/
inductive Opening where
  | scalar (text : String) (plain : Bool)
  | flowSequence
  | flowMapping
  /-- A sequence whose marks stand in the column of the key before it. -/
  | flushSequence
  | blockSequence
  | blockMapping
  /-- Nothing: what stands there belongs to something else. -/
  | nothing
  deriving Repr, DecidableEq

/-- What the next token opens. Blocks may begin only where `block` says so, and a sequence without
indentation of its own only where `flush` does. -/
def opening (block flush : Bool) : Nodes Opening := do
  match ← peek? with
  | some (.scalar text plain) => return .scalar text plain
  | some .sequenceStart => return .flowSequence
  | some .mappingStart => return .flowMapping
  | some .entry => return if flush then .flushSequence else .nothing
  | some .blockSequence => return if block then .blockSequence else .nothing
  | some .blockMapping => return if block then .blockMapping else .nothing
  | _ => return .nothing

/-! ### Nodes -/

mutual

/-- Read a node. -/
def node : (steps : Nat) → (block flush : Bool) → Nodes NodeId
  | 0, _, _ => fail
  | steps + 1, block, flush => do
      if let some (.alias name) ← peek? then
        skip
        return ← aliased name
      let p ← properties
      let scalar (text : String) (plain : Bool) : Nodes NodeId :=
        within p.anchor (p.scalarTag text plain) (return .scalar text)
      let sequence (items : Nodes (List NodeId)) : Nodes NodeId :=
        within p.anchor (p.collectionTag .sequence) (.sequence <$> items)
      let mapping (entries : Nodes (List (NodeId × NodeId))) : Nodes NodeId :=
        within p.anchor (p.collectionTag .mapping) (.mapping <$> entries)
      match ← opening block flush with
      | .scalar text plain => do
          skip
          scalar text plain
      | .flowSequence => sequence (do skip; flowItems steps true)
      | .flowMapping => mapping (do skip; flowEntries steps true)
      | .flushSequence => sequence (flushItems steps)
      | .blockSequence => sequence (do skip; blockItems steps)
      | .blockMapping => mapping (do skip; blockEntries steps)
      | .nothing => if p.isEmpty then fail else scalar "" true

/-- Read the items of a block, each behind its mark. -/
def blockItems : (steps : Nat) → Nodes (List NodeId)
  | 0 => fail
  | steps + 1 => do
      if ← past? .entry then
        let item ←
          if ← isNext [.entry, .blockEnd] then addEmpty else node steps true false
        return item :: (← blockItems steps)
      past .blockEnd
      return []

/-- Read the items of a sequence whose marks stand in the column of the key before it. -/
def flushItems : (steps : Nat) → Nodes (List NodeId)
  | 0 => fail
  | steps + 1 => do
      if ← past? .entry then
        let item ←
          if ← isNext [.entry, .key, .value, .blockEnd] then addEmpty
          else node steps true false
        return item :: (← flushItems steps)
      return []

/-- Read the entries of a block. -/
def blockEntries : (steps : Nat) → Nodes (List (NodeId × NodeId))
  | 0 => fail
  | steps + 1 => do
      if ← past? .key then
        let key ← blockPart steps
        let value ← if ← past? .value then blockPart steps else addEmpty
        return (key, value) :: (← blockEntries steps)
      past .blockEnd
      return []

/-- Read the key or the value of an entry of a block. -/
def blockPart : (steps : Nat) → Nodes NodeId
  | 0 => fail
  | steps + 1 => do
      if ← isNext [.key, .value, .blockEnd] then return ← addEmpty
      node steps true true

/-- Read the items between square brackets. A key makes an item a mapping of one entry. -/
def flowItems : (steps : Nat) → (first : Bool) → Nodes (List NodeId)
  | 0, _ => fail
  | steps + 1, first => do
      if ← past? .sequenceEnd then return []
      if !first then past .comma
      if ← past? .sequenceEnd then return []
      let item ←
        if ← past? .key then do
          within none .mapping do
            let key ← flowPart steps [.value, .comma, .sequenceEnd]
            let value ←
              if ← past? .value then flowPart steps [.comma, .sequenceEnd] else addEmpty
            return .mapping [(key, value)]
        else node steps false false
      return item :: (← flowItems steps false)

/-- Read the entries between curly brackets. -/
def flowEntries : (steps : Nat) → (first : Bool) → Nodes (List (NodeId × NodeId))
  | 0, _ => fail
  | steps + 1, first => do
      if ← past? .mappingEnd then return []
      if !first then past .comma
      if ← past? .mappingEnd then return []
      if ← past? .key then
        let key ← flowPart steps [.value, .comma, .mappingEnd]
        let value ←
          if ← past? .value then flowPart steps [.comma, .mappingEnd] else addEmpty
        return (key, value) :: (← flowEntries steps false)
      let key ← node steps false false
      let value ← addEmpty
      return (key, value) :: (← flowEntries steps false)

/-- Read a key or a value between brackets; nothing stands there if one of some tokens is next. -/
def flowPart : (steps : Nat) → List Token → Nodes NodeId
  | 0, _ => fail
  | steps + 1, ends => do
      if ← isNext ends then return ← addEmpty
      node steps false false

end

/-! ### Documents -/

/-- The handles that need no directive. -/
def standardHandles : List (String × String) := [("!", "!"), ("!!", standardTags)]

/-- Read the directives before a document. The version is given at most once and is the first, and no
handle is given twice. -/
def directives : (steps : Nat) → (versioned : Bool) → (handles : List (String × String)) →
    Nodes (List (String × String))
  | 0, _, _ => fail
  | steps + 1, versioned, handles => do
      match ← peek? with
      | some (.directive d) => do
          skip
          match d with
          | .version major =>
              if versioned || major != 1 then fail
              directives steps true handles
          | .handle name stands =>
              if (handles.lookup name).isSome then fail
              directives steps versioned ((name, stands) :: handles)
          | .other => directives steps versioned handles
      | _ => return handles

/-- Pass over marks that end documents. -/
def pastEnds : (steps : Nat) → Nodes Unit
  | 0 => return
  | steps + 1 => do
      if ← past? .documentEnd then pastEnds steps

/-- Read the only document of a text, if there is one. -/
def document? (steps : Nat) : Nodes (Option NodeId) := do
  let first ← peek?
  let explicit := match first with
    | some (.directive _) | some .documentStart => true
    | _ => false
  let root ←
    if explicit then do
      let handles ← directives steps false []
      past .documentStart
      modify fun s => { s with handles := handles ++ standardHandles }
      let isEmpty := match ← peek? with
        | none | some .documentStart | some .documentEnd | some (.directive _) => true
        | _ => false
      if isEmpty then some <$> addEmpty else some <$> node steps true false
    else if first.isNone then pure none
    else some <$> node steps true false
  pastEnds steps
  if (← peek?).isSome then
    let _ ← directives steps false []
    fail
  return root

end Nodes

/-- The nodes of a text, and which of them is the outermost, if there is one. -/
def Graph.ofText? (s : String) : Except Flaw (Graph × Option NodeId) := do
  let lexer ← Lexer.ofText s
  let (root, state) ← (Nodes.document? (16 * lexer.length + 64)).run
    { lexer, handles := Nodes.standardHandles }
  return (state.graph, root)

end VirtualTopology.Yaml
