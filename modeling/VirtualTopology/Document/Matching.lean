import VirtualTopology.Document.Reader

/-!
# Matching documents

A host decorates the definitions that it stores: addresses, aliases, default devices. So a stored
document *meets* a declared one when it states everything that the declared one states
(`Element.isMet`):

* each attribute of the declared element is there with the same value;
* a text that is not blank is the same, blanks around it apart;
* children that belong to the declaration (`Ownership.children`) agree in number and in order, also
  when the declared element has none of them;
* each of the other children is met by a child of the same tag, and no child meets two.

What only the stored document states is ignored, with the exception of attributes that belong to the
declaration (`Ownership.attributes`).
-/

namespace VirtualTopology

namespace Document

/-! ### What belongs to the declaration -/

/-- The parts of an element that only the declaration decides. -/
structure Ownership where
  children : List String := []
  attributes : List String := []

/-- The parts that belong to the declaration, by the tag of the element. -/
def ownership : List (String × Ownership) :=
  [("domain", { children := ["memoryBacking"] }),
   ("os", { children := ["boot", "nvram"], attributes := ["firmware"] }),
   ("devices", { children := ["disk", "filesystem", "interface", "tpm"] }),
   ("network", { children := ["forward", "ip"] }),
   ("ip", { children := ["dhcp"] }),
   ("dhcp", { children := ["range"] })]

/-- The parts of an element with a tag that belong to the declaration. -/
def Ownership.of (tag : String) : Ownership := (ownership.lookup tag).getD {}

/-! ### Attributes and texts -/

/-- Whether a stored machine name is what a declared one stands for: `q35` is stored as
`pc-q35-` and a version, `pc` as `pc-i440fx-` and a version. -/
def isMachineOf (declared stored : String) : Bool :=
  ("pc-" ++ declared ++ "-").toList.isPrefixOf stored.toList ||
    (declared == "pc" && "pc-i440fx-".toList.isPrefixOf stored.toList)

/-- Whether a stored attribute meets a declared one. -/
def attributeMet (tag name declared : String) (stored : Option String) : Bool :=
  match stored with
  | none => false
  | some stored =>
      declared == stored ||
        (tag == "type" && name == "machine" && isMachineOf declared stored)

/-- Whether the attributes of a stored element meet those of a declared one. -/
def attributesMet (declared stored : Element) : Bool :=
  declared.attributes.all (fun a =>
    attributeMet declared.tag a.1 a.2 (stored.attribute? a.1)) &&
  (Ownership.of declared.tag).attributes.all fun a =>
    (declared.attribute? a).isSome || (stored.attribute? a).isNone

/-- Whether the text of a stored element meets that of a declared one. -/
def textMet (declared stored : Element) : Bool :=
  let text := Text.trim declared.lead
  text.isEmpty || text == Text.trim stored.lead

/-- Whether a host has made up the only child itself: with firmware that it selects on its own, a
domain that names no variable store gets one whose name ends in `_VARS.fd`. -/
def isMadeUp (declared : Element) (children : List Element) : Bool :=
  match children with
  | [child] =>
      declared.tag == "os" && (declared.attribute? "firmware").isSome && child.tag == "nvram" &&
        "_VARS.fd".toList.isSuffixOf (Text.trim child.lead).toList
  | _ => false

/-! ### Children -/

/-- Whether each test holds of the element in its place, and there are as many of both. -/
def metInOrder : List (Element → Bool) → List Element → Bool
  | [], [] => true
  | t :: ts, e :: es => t e && metInOrder ts es
  | _, _ => false

/-- Take out the first element of which a test holds. -/
def takeOut? (test : Element → Bool) : List Element → Option (List Element)
  | [] => none
  | e :: es => if test e then some es else (takeOut? test es).map (e :: ·)

/-- Whether each test finds an element of its own: the first one left of which it holds. -/
def metAnywhere : List (Element → Bool) → List Element → Bool
  | [], _ => true
  | t :: ts, es => (takeOut? t es).elim false (metAnywhere ts)

/-- Whether a tag is among those that a declared tag stands for: itself, or its local name in any name space
and in none if its own name space has the address `*`. -/
def covers (declared tag : String) : Bool :=
  match declared.toList with
  | '\x7b' :: '*' :: '\x7d' :: name =>
      tag.toList == name || ('\x7d' :: name).isSuffixOf tag.toList
  | _ => tag == declared

/-- A test for a stored child with a tag. -/
abbrev ChildTest := String × (Element → Bool)

/-- Whether the children of a stored element that a tag stands for meet the tests for these. -/
def childrenMet (declared stored : Element) (tests : List ChildTest) (tag : String) : Bool :=
  let wanted := (tests.filter (covers tag ·.1)).map (·.2)
  let there := stored.children.filter (covers tag ·.tag)
  if (Ownership.of declared.tag).children.contains tag then
    (wanted.isEmpty && isMadeUp declared there) || metInOrder wanted there
  else metAnywhere wanted there

end Document

namespace Element

open Document

mutual

/-- Whether a stored element meets a declared one. -/
def isMet : (declared : Element) → (stored : Element) → Bool
  | { tag, attributes, lead, children } =>
      let tests := childTests children
      let declared : Element := { tag, attributes, lead, children }
      fun stored =>
        tag == stored.tag && attributesMet declared stored && textMet declared stored &&
          (tests.map (·.1) ++ (Ownership.of tag).children).all
            (childrenMet declared stored tests)

/-- The tests that children give rise to. -/
def childTests : List Element → List ChildTest
  | [] => []
  | c :: cs => (c.tag, c.isMet) :: childTests cs

end

theorem childTests_eq_map (cs : List Element) :
    childTests cs = cs.map fun c => (c.tag, c.isMet) := by
  induction cs with
  | nil => simp [childTests]
  | cons c cs ih => simp [childTests, ih]

end Element

/-- Whether a stored document meets a declared one. A text that is no document neither meets
anything nor is met. -/
def documentsMatch (declared stored : String) : Bool :=
  match Element.read? declared, Element.read? stored with
  | some d, some s => d.isMet s
  | _, _ => false

end VirtualTopology
