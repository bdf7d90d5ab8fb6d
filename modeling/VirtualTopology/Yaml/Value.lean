import VirtualTopology.Yaml.Graph
import VirtualTopology.Yaml.Node
import VirtualTopology.Yaml.Scalar

/-!
# The values of nodes

The values of the nodes of a graph are found in two rounds.

The first round (`Survey`) goes through the graph from its outermost node on, level by level, and looks
at each node once, wherever it is met again. It finds the values of scalars, flattens mappings, and
finds what is wrong: the flaw that is met first counts. A key has to be a scalar.

The second round builds the values of collections from those of their parts, parts first (`Tour`). Where
a node is inside itself that is not possible, and the values are built several times over
(`Survey.value`): each time what is inside a node has the value that the node had before, so that the
values are unfolded once more. The mark of a knot is the number of its node.
-/

namespace VirtualTopology.Yaml

/-! ### The first round -/

/-- What is known about the nodes of a graph. -/
structure Survey where
  graph : Graph
  /-- The nodes that have been met. -/
  met : Array Bool
  /-- The values of scalars that have been met. -/
  scalars : Array Scalar
  /-- The collections that have been met and not been looked into. -/
  waiting : List NodeId := []

/-- Finding out about nodes. -/
abbrev Surveying := StateT Survey (Except Flaw)

namespace Surveying

/-- The node with a number. -/
def node (n : NodeId) : Surveying Node := return (← get).graph.node n

/-- The text of the scalar that a node stands for where a scalar is wanted: a mapping says which one
under its value key. -/
def scalarText : (steps : Nat) → NodeId → Surveying String
  | 0, _ => throw .tooDeep
  | steps + 1, n => do
      let g := (← get).graph
      match (g.node n).body with
      | .scalar text => return text
      | .sequence _ => throw .malformed
      | .mapping entries =>
          match entries.find? fun e => (g.node e.1).tag == .value with
          | some (_, value) => scalarText steps value
          | none => throw .malformed

/-- The value of a node under a tag of scalars. -/
def scalarValue (n : NodeId) (tag : Tag) : Surveying Scalar := do
  let text ← scalarText ((← get).graph.size + 1) n
  match tag, (← node n).body with
  | .moment, .mapping _ => throw .momentOfMapping
  | _, _ => StateT.lift (tag.valueOf text)

/-- Meet a node: a scalar has its value at once, a collection is looked into later. -/
def meet (n : NodeId) : Surveying Unit := do
  if (← get).met.getD n true then return
  match (← node n).tag with
  | .sequence | .mapping | .set | .pairs =>
      modify fun s => { s with waiting := s.waiting ++ [n] }
  | .unknown | .merge | .value => throw .malformed
  | tag => do
      let value ← scalarValue n tag
      modify fun s => { s with scalars := s.scalars.setIfInBounds n value }
  modify fun s => { s with met := s.met.setIfInBounds n true }

/-- Meet the key and the value of an entry. -/
def meetEntry (e : NodeId × NodeId) : Surveying Unit := do
  let tag := (← node e.1).tag
  meet e.1
  if !tag.isOfScalars then throw .malformed
  meet e.2

/-- Meet the key and the value of the only entry of a mapping; the key may be anything here. -/
def meetPair (n : NodeId) : Surveying Unit := do
  match (← node n).body with
  | .mapping [(key, value)] => do
      meet key
      meet value
  | _ => throw .malformed

/-- Flatten a mapping. -/
def flatten (n : NodeId) : Surveying Unit := do
  let s ← get
  let ((), graph) ← StateT.lift ((Change.flattened n).run s.graph)
  set { s with graph }

/-- Look into a collection. -/
def lookInto (n : NodeId) : Surveying Unit := do
  let found ← node n
  match found.tag, found.body with
  | .sequence, .sequence items => items.forM meet
  | .pairs, .sequence items => items.forM meetPair
  | .mapping, .mapping _ | .set, .mapping _ => do
      flatten n
      ((← get).graph.entries n).forM meetEntry
  | _, _ => throw .malformed

/-- Look into the collections that are waiting, and into those that are met in them. -/
def lookIntoAll : (steps : Nat) → Surveying Unit
  | 0 => return
  | steps + 1 => do
      match (← get).waiting with
      | [] => return
      | n :: waiting => do
          modify fun s => { s with waiting }
          lookInto n
          lookIntoAll steps

end Surveying

/-- Find out about all nodes that can be reached from one. -/
def Graph.survey (g : Graph) (root : NodeId) : Except Flaw Survey := do
  let start : Survey :=
    { graph := g, met := Array.replicate g.size false, scalars := Array.replicate g.size .null }
  let ((), s) ← (do
    Surveying.meet root
    Surveying.lookIntoAll (g.size + 1) : Surveying Unit).run start
  return s

namespace Survey

/-! ### The second round -/

/-- The key and the value of a mapping of one entry. -/
def pair? (s : Survey) (n : NodeId) : Option (NodeId × NodeId) := (s.graph.entries n).head?

/-- The nodes whose values a value is made of. -/
def parts (s : Survey) (n : NodeId) : List NodeId :=
  let found := s.graph.node n
  match found.tag, found.body with
  | .sequence, .sequence items => items
  | .pairs, .sequence items => (items.filterMap s.pair?).flatMap fun e => [e.1, e.2]
  | .mapping, .mapping entries => entries.map (·.2)
  | _, _ => []

/-- Which one a key is among those that are not numbers: these are all different, apart from the word for
one, which always gives the same. -/
def keyMark (s : Survey) (n : NodeId) : Option NodeId :=
  match s.scalars.getD n .null, (s.graph.node n).body with
  | .float .notANumber, .scalar text =>
      if (Text.splitSign (numberChars text)).2 == nanWord then none else some n
  | .float .notANumber, _ => some n
  | _, _ => none

/-- A key with what tells it apart. -/
abbrev MarkedKey := Scalar × Option NodeId

/-- Give a key a value: in place if the key is there, at the end otherwise. -/
def put (key : MarkedKey) (value : Data) : List (MarkedKey × Data) → List (MarkedKey × Data)
  | [] => [(key, value)]
  | (k, v) :: rest =>
      if k.1.same key.1 && k.2 == key.2 then (k, value) :: rest else (k, v) :: put key value rest

/-- The mapping with some entries, of which a later one replaces an earlier one. -/
def filled (s : Survey) (values : Array Data) (entries : Entries) : Mapping :=
  (entries.foldl (fun m e =>
    put (s.scalars.getD e.1 .null, s.keyMark e.1) (values.getD e.2 .null) m) []).map
      fun e => (e.1.1, e.2)

/-- The value of a node, from the values of its parts. -/
def valueFrom (s : Survey) (values : Array Data) (n : NodeId) : Data :=
  let found := s.graph.node n
  let valueOf (n : NodeId) : Data := values.getD n .null
  match found.tag, found.body with
  | .sequence, .sequence items => .list (items.map valueOf)
  | .pairs, .sequence items =>
      .list ((items.filterMap s.pair?).map fun e => .pair (valueOf e.1) (valueOf e.2))
  | .mapping, .mapping entries => .mapping (s.filled values entries)
  | .set, .mapping entries => .set ((s.filled values entries).map (·.1))
  | _, _ => .scalar (s.scalars.getD n .null)

/-- A way through the nodes. -/
structure Tour where
  /-- The nodes that have been entered. -/
  entered : Array Bool
  /-- The nodes that have been left, the last one first. -/
  left : List NodeId := []
  /-- The nodes that have been met again while they were being gone through. -/
  knots : List NodeId := []

/-- Go through a node with everything inside it. -/
def go (s : Survey) : (steps : Nat) → (around : List NodeId) → NodeId → StateM Tour Unit
  | 0, _, _ => return
  | steps + 1, around, n => do
      if (← get).entered.getD n true then
        if around.contains n && !(← get).knots.contains n then
          modify fun t => { t with knots := n :: t.knots }
      else
        modify fun t => { t with entered := t.entered.setIfInBounds n true }
        (s.parts n).forM (s.go steps (n :: around))
        modify fun t => { t with left := n :: t.left }

/-- The nodes that can be reached from some nodes. -/
def reached (s : Survey) : (steps : Nat) → (soFar : List NodeId) → List NodeId → List NodeId
  | 0, soFar, _ => soFar
  | _, soFar, [] => soFar
  | steps + 1, soFar, n :: ns =>
      if soFar.contains n then s.reached steps soFar ns
      else s.reached steps (n :: soFar) (s.parts n ++ ns)

/-- How far a value is unfolded beyond the number of knots, so that nobody sees the end. -/
def unfolding : Nat := 12

/-- The value of a node. -/
def value (s : Survey) (root : NodeId) : Data :=
  let nodes := s.graph.size
  let start : Tour := { entered := Array.replicate nodes false }
  let tour := ((s.go (nodes + 1) [] root).run start).2
  let order := tour.left.reverse
  let isKnot : NodeId → Bool :=
    if tour.knots.isEmpty then fun _ => false
    else
      let steps := 2 * (order.map fun n => (s.parts n).length + 1).foldl (· + ·) 0
      let inside := order.filter fun n => (s.reached steps [] (s.parts n)).contains n
      inside.contains
  let round (values : Array Data) : Array Data :=
    order.foldl (fun values n =>
      let d := s.valueFrom values n
      values.setIfInBounds n (if isKnot n then .knot n d else d)) values
  let rounds := if tour.knots.isEmpty then 1 else tour.knots.length + unfolding
  (rounds.repeat round (Array.replicate nodes .null)).getD root .null

end Survey

/-- The value that a text stands for; a text without any node stands for null. -/
def read (s : String) : Except Flaw Data := do
  match ← Graph.ofText? s with
  | (_, none) => return .null
  | (g, some root) => return (← g.survey root).value root

end VirtualTopology.Yaml
