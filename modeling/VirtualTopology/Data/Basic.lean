import VirtualTopology.Data.Moment
import VirtualTopology.Number.Decimal
import VirtualTopology.Text.Quoted

/-!
# Structured data

Topologies, parameters and settings arrive as structured data: scalars, lists, sets, and mappings
whose keys are scalars. A mapping keeps the order in which its keys were first given, and a key
given again replaces the value in place (`Mapping.put`). Two keys are the same when they are equal
as values; a truth value counts as the number 0 or 1 there (`Scalar.same`).

A collection may be inside itself. It is then a `Data.knot`: wherever it is met it has the same mark,
and the value under the mark is unfolded further than anybody looks. `Data.untied` is the collection
without its mark.

`Data.display?` is the text of a value inside a message. A collection inside itself is shown by dots
there, and an integer with too many digits cannot be shown.
-/

namespace VirtualTopology

/-- A value without parts. -/
inductive Scalar where
  | null
  | bool (b : Bool)
  | int (i : Int)
  | float (x : Binary64)
  | text (s : String)
  | octets (os : List UInt8)
  | moment (m : Moment)
  deriving Repr, DecidableEq, Inhabited

/-- A value. -/
inductive Data where
  | scalar (s : Scalar)
  | list (items : List Data)
  /-- A key and its value, as an item of a list. -/
  | pair (key value : Data)
  | set (items : List Scalar)
  | mapping (entries : List (Scalar × Data))
  /-- A collection that is inside itself. -/
  | knot (mark : Nat) (d : Data)
  deriving Repr, Inhabited

/-- Keys with values, in order of first appearance. -/
abbrev Mapping := List (Scalar × Data)

namespace Scalar

/-- The exact integer of a scalar that is one. -/
def integer? : Scalar → Option Int
  | bool b => some (if b then 1 else 0)
  | int i => some i
  | float x => x.toInt?
  | _ => none

/-- Whether two keys are the same key. -/
def same (a b : Scalar) : Bool :=
  match a.integer?, b.integer? with
  | some i, some j => i == j
  | none, none =>
      match a, b with
      | moment m, moment n => m.same n
      | a, b => a == b
  | _, _ => false

/-- The text of a scalar by itself. -/
def display : Scalar → String
  | null => "None"
  | bool true => "True"
  | bool false => "False"
  | int i => toString i
  | float x => x.text
  | text s => s
  | octets os => Text.quotedOctets os
  | moment m => m.text

/-- The text of a scalar inside a collection: texts stand between quotes, and moments are shown as
expressions. -/
def displayInside : Scalar → String
  | text s => Text.quoted s
  | moment m => m.expression
  | s => s.display

/-- Whether a scalar has a text: an integer may have too many digits. -/
def isWritable : Scalar → Bool
  | int i => Text.isWritable i
  | _ => true

end Scalar

namespace Mapping

/-- The value of a key. -/
def get? (m : Mapping) (key : Scalar) : Option Data :=
  (m.find? fun e => e.1.same key).map (·.2)

/-- The value of a text key. -/
def at? (m : Mapping) (key : String) : Option Data := m.get? (.text key)

/-- Give a key a value: in place if the key is there, at the end otherwise. -/
def put : Mapping → Scalar → Data → Mapping
  | [], key, value => [(key, value)]
  | (k, v) :: rest, key, value =>
      if k.same key then (k, value) :: rest else (k, v) :: put rest key value

/-- Take a text key out. -/
def without (m : Mapping) (key : String) : Mapping :=
  m.filter fun e => !e.1.same (.text key)

/-- Whether a text key is there. -/
def has (m : Mapping) (key : String) : Bool := (m.at? key).isSome

end Mapping

namespace Data

/-- The absent value. -/
abbrev null : Data := .scalar .null

/-- A truth value. -/
abbrev bool (b : Bool) : Data := .scalar (.bool b)

/-- An integer. -/
abbrev int (i : Int) : Data := .scalar (.int i)

/-- A floating point number. -/
abbrev float (x : Binary64) : Data := .scalar (.float x)

/-- A text. -/
abbrev text (s : String) : Data := .scalar (.text s)

/-- A text, or null if there is none. -/
def text? : Option String → Data
  | some s => text s
  | none => null

/-- A mapping with text keys. -/
def record (fields : List (String × Data)) : Data :=
  .mapping (fields.map fun f => (.text f.1, f.2))

/-- Whether a value is empty in the sense in which an empty document stands for no settings: null,
false, zero, and what holds nothing. -/
def isBare : Data → Bool
  | .scalar s =>
      match s with
      | .null => true
      | .bool b => !b
      | .int i => i == 0
      | .float x => x.isZero
      | .text t => t.isEmpty
      | .octets os => os.isEmpty
      | .moment _ => false
  | .list items => items.isEmpty
  | .pair .. => false
  | .set items => items.isEmpty
  | .mapping entries => entries.isEmpty
  | .knot _ d => d.isBare

/-- A value; of a collection inside itself the collection. -/
def untied : Data → Data
  | .knot _ d => d
  | d => d

@[simp] theorem untied_scalar (s : Scalar) : (Data.scalar s).untied = .scalar s := rfl

@[simp] theorem untied_mapping (m : Mapping) : (Data.mapping m).untied = .mapping m := rfl

@[simp] theorem untied_list (ds : List Data) : (Data.list ds).untied = .list ds := rfl

/-- What stands for a collection inside itself. -/
def dots : Data → String
  | .mapping _ => "\x7b...\x7d"
  | _ => "[...]"

mutual

/-- The text of a value inside the collections with some marks. -/
def shown? (within : List Nat) : Data → Option String
  | .scalar s => if s.isWritable then some s.displayInside else none
  | .list items => do return "[" ++ ", ".intercalate (← shownItems? within items) ++ "]"
  | .pair key value => do
      return "(" ++ (← shown? within key) ++ ", " ++ (← shown? within value) ++ ")"
  | .set items =>
      if items.isEmpty then some "set()"
      else if items.all Scalar.isWritable then
        some ("\x7b" ++ ", ".intercalate (items.map Scalar.displayInside) ++ "\x7d")
      else none
  | .mapping entries => do
      return "\x7b" ++ ", ".intercalate (← shownEntries? within entries) ++ "\x7d"
  | .knot mark d => if within.contains mark then some d.dots else shown? (mark :: within) d

/-- The texts of the values of a list. -/
def shownItems? (within : List Nat) : List Data → Option (List String)
  | [] => some []
  | d :: ds => do return (← shown? within d) :: (← shownItems? within ds)

/-- The texts of the entries of a mapping. -/
def shownEntries? (within : List Nat) : List (Scalar × Data) → Option (List String)
  | [] => some []
  | (k, d) :: es =>
      if k.isWritable then do
        return (k.displayInside ++ ": " ++ (← shown? within d)) :: (← shownEntries? within es)
      else none

end

/-- The text of a value in a message, if it has one. -/
def display? : Data → Option String
  | .scalar s => if s.isWritable then some s.display else none
  | d => d.shown? []

end Data

end VirtualTopology
