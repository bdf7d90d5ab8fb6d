import VirtualTopology.Yaml.Tag

/-!
# Graphs of nodes

The nodes of a YAML text are numbered in the order in which they begin, and a collection holds the
numbers of its parts. An alias is the number of the node that it stands for, so a node may be part of
several others, and also of itself.

A mapping may have merge keys. The value of one is a mapping, or a sequence of mappings, whose entries
are brought into the mapping (`flatten`). They stand in front, so that the mapping's own entries replace
them; of several mappings in a sequence the first one wins and so stands last.

What is merged is flattened first, and stays so. A mapping may merge itself: a merge key is taken away
before its value is looked at, so each of them is looked at once.

In passing, value keys become texts like any other key.
-/

namespace VirtualTopology.Yaml

/-- The number of a node. -/
abbrev NodeId := Nat

/-- What a node consists of. -/
inductive Body where
  | scalar (text : String)
  | sequence (items : List NodeId)
  | mapping (entries : List (NodeId × NodeId))
  deriving Repr, Inhabited

/-- A node. -/
structure Node where
  tag : Tag
  body : Body
  deriving Repr, Inhabited

/-- Nodes by their numbers. -/
abbrev Graph := Array Node

namespace Graph

/-- The node with a number. -/
def node (g : Graph) (n : NodeId) : Node := g.getD n default

/-- The entries of a mapping. -/
def entries (g : Graph) (n : NodeId) : List (NodeId × NodeId) :=
  match (g.node n).body with
  | .mapping entries => entries
  | _ => []

/-- Put a node in the place of another. -/
def replace (g : Graph) (n : NodeId) (node : Node) : Graph := g.setIfInBounds n node

/-- The number of nodes and of the places where they stand, which bounds everything that is done
once for each of them. -/
def extent (g : Graph) : Nat :=
  g.foldl (fun total node =>
    match node.body with
    | .scalar _ => total + 1
    | .sequence items => total + 1 + items.length
    | .mapping entries => total + 1 + entries.length) 0

end Graph

/-! ### Merging -/

/-- Changing a graph. -/
abbrev Change := StateT Graph (Except Flaw)

/-- Entries of a mapping. -/
abbrev Entries := List (NodeId × NodeId)

namespace Change

/-- The entries of a mapping. -/
def entries (n : NodeId) : Change Entries := return (← get).entries n

/-- Give a mapping other entries. -/
def setEntries (n : NodeId) (es : Entries) : Change Unit := modify fun g =>
  g.replace n { g.node n with body := .mapping es }

/-- Make value keys texts. -/
def textKeys (es : Entries) : Change Unit :=
  es.forM fun e => modify fun g =>
    let key := g.node e.1
    if key.tag == .value then g.replace e.1 { key with tag := .text } else g

mutual

/-- Bring what is merged into a mapping in front of its own entries. -/
def flatten : (steps : Nat) → NodeId → Change Unit
  | 0, _ => throw .tooDeep
  | steps + 1, n => do
      let merged ← takeMerged steps n 0
      if !merged.isEmpty then setEntries n (merged ++ (← entries n))

/-- Take away the merge keys of a mapping from a place on: the entries that they bring in. -/
def takeMerged : (steps : Nat) → NodeId → (place : Nat) → Change Entries
  | 0, _, _ => throw .tooDeep
  | steps + 1, n, place => do
      let es ← entries n
      let g ← get
      let own := (es.drop place).takeWhile fun e => (g.node e.1).tag != .merge
      textKeys own
      let place := place + own.length
      match es.drop place with
      | [] => return []
      | (_, value) :: _ => do
          setEntries n (es.eraseIdx place)
          let first ← broughtIn steps value
          return first ++ (← takeMerged steps n place)

/-- The entries that the value of a merge key brings in. -/
def broughtIn : (steps : Nat) → NodeId → Change Entries
  | 0, _ => throw .tooDeep
  | steps + 1, n => do
      match ((← get).node n).body with
      | .mapping _ => do
          flatten steps n
          entries n
      | .sequence items => broughtInBy steps items
      | .scalar _ => throw .malformed

/-- The entries of several mappings, those of the last one first. -/
def broughtInBy : (steps : Nat) → List NodeId → Change Entries
  | 0, _ => throw .tooDeep
  | _ + 1, [] => return []
  | steps + 1, n :: ns => do
      match ((← get).node n).body with
      | .mapping _ => do
          flatten steps n
          let own ← entries n
          return (← broughtInBy steps ns) ++ own
      | _ => throw .malformed

end

/-- Flatten a mapping. Each step takes a merge key away or goes on to the next place in a sequence. -/
def flattened (n : NodeId) : Change Unit := do
  let extent := (← get).extent + 4
  flatten (extent * extent) n

end Change

end VirtualTopology.Yaml
