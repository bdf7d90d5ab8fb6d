/-!
# Elements

A document is a tree of elements. An element has a tag, attributes in order, and children; of the
character data inside it only what stands before the first child is kept (`Element.lead`), because
nothing else is ever consulted.
-/

namespace VirtualTopology

/-- An element of a document. -/
structure Element where
  tag : String
  attributes : List (String × String) := []
  /-- The character data before the first child. -/
  lead : String := ""
  children : List Element := []
  deriving Repr, Inhabited

namespace Element

/-- An element with a text and no children. -/
def leaf (tag text : String) (attributes : List (String × String) := []) : Element :=
  { tag, attributes, lead := text }

/-- An element with children. -/
def branch (tag : String) (children : List Element) (attributes : List (String × String) := []) :
    Element :=
  { tag, attributes, children }

/-- An element with attributes only. -/
def empty (tag : String) (attributes : List (String × String) := []) : Element :=
  { tag, attributes }

/-- The value of an attribute. -/
def attribute? (e : Element) (name : String) : Option String := e.attributes.lookup name

/-- The children with a tag, in order. -/
def all (e : Element) (tag : String) : List Element := e.children.filter (·.tag == tag)

/-- The first child with a tag. -/
def first? (e : Element) (tag : String) : Option Element := e.children.find? (·.tag == tag)

/-- The elements at the end of a path of tags, in document order. -/
def descend (e : Element) : List String → List Element
  | [] => [e]
  | tag :: path => (e.all tag).flatMap fun c => c.descend path

end Element

end VirtualTopology
