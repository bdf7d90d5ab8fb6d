import VirtualTopology.Document.Character
import VirtualTopology.Document.Element
import VirtualTopology.Text.Blank

/-!
# Writing documents

An element is written over several lines, each child on lines of its own and two spaces further in;
an element without children stands on one line with its text. The five characters that have a
meaning in markup are escaped, except for the apostrophe.

`Element.render` first brings the character data into the form in which it will be read back (line
ends become line feeds), and refuses a document that would hold a character that documents may not
hold.
-/

namespace VirtualTopology

/-- Why a document is not written. -/
inductive Unwritable where
  /-- It would hold a character that documents may not hold. -/
  | character
  /-- A number in it has too many digits. -/
  | number
  deriving Repr, DecidableEq

namespace Document

/-- A character as it stands in text and in attribute values. -/
def escapeChar : Char → List Char
  | '&' => "&amp;".toList
  | '<' => "&lt;".toList
  | '>' => "&gt;".toList
  | '"' => "&quot;".toList
  | c => [c]

/-- A text as it stands in a document. -/
def escape (s : String) : List Char := s.toList.flatMap escapeChar

/-- Attributes, each behind a space. -/
def writeAttributes (attributes : List (String × String)) : List Char :=
  attributes.flatMap fun a => ' ' :: a.1.toList ++ '=' :: '"' :: escape a.2 ++ ['"']

/-- A line break and the indentation behind it. -/
def newLine (indent : Nat) : List Char := '\n' :: List.replicate indent ' '

end Document

namespace Element

open Document

mutual

/-- The written form of an element that starts at an indentation. -/
def write (indent : Nat) : Element → List Char
  | { tag, attributes, lead, children } =>
      let start := '<' :: tag.toList ++ writeAttributes attributes
      let finish := '<' :: '/' :: tag.toList ++ ['>']
      if children.isEmpty then
        if lead.isEmpty then start ++ ['/', '>'] else start ++ '>' :: escape lead ++ finish
      else start ++ '>' :: writeAll (indent + 2) children ++ newLine indent ++ finish

/-- The written forms of several elements, each on a new line. -/
def writeAll (indent : Nat) : List Element → List Char
  | [] => []
  | e :: es => newLine indent ++ e.write indent ++ writeAll indent es

end

/-- The written form of a document. -/
def print (e : Element) : String := String.ofList (e.write 0)

mutual

/-- The element with its line ends as they will be read back. -/
def settle : Element → Element
  | { tag, attributes, lead, children } =>
      { tag, attributes, lead := Text.unified lead
        children := settleAll children }

/-- Several elements with their line ends settled. -/
def settleAll : List Element → List Element
  | [] => []
  | e :: es => e.settle :: settleAll es

end

mutual

/-- Whether an element holds no character that documents may not hold. -/
def isWritable : Element → Bool
  | { attributes, lead, children, .. } =>
      lead.toList.all isAllowed && attributes.all (·.2.toList.all isAllowed) &&
        areWritable children

/-- Whether several elements hold no such character. -/
def areWritable : List Element → Bool
  | [] => true
  | e :: es => e.isWritable && areWritable es

end

/-- The text of a document, if it can be written. -/
def render (e : Element) : Except Unwritable String :=
  if e.isWritable then .ok e.settle.print else .error .character

end Element

end VirtualTopology
