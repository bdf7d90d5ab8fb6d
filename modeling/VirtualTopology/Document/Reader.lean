import VirtualTopology.Document.Declaration
import VirtualTopology.Document.DocumentType
import VirtualTopology.Document.Printer

/-!
# Reading documents

A document is read one character at a time (`Reader.step`): the reader keeps the elements that are
open, innermost first, and the piece of markup it is in. So reading a text in two parts is reading
the first and then the second, and reading ends with the text.

Comments and processing instructions leave nothing behind, and the character data around them is
joined. A name with a prefix, and an element name under a default name space, is replaced by the address
of the name space between braces followed by the local name.

The text of an entity is read where it is referred to, as part of the innermost open element
(`Reader.within?`): it closes what it opens and nothing else. It may refer to entities itself, but not to
one that it is in, so entities are inside each other at most as deep as there are entities
(`Reader.stepAt`). The values of attributes are resolved when their element is opened; attributes that
are not written have the values that the document type gives them.

`Element.read?` prepares the text first: line ends become line feeds, a byte order mark and an XML
declaration at the start are taken off, and a character that documents may not hold is refused
wherever it stands.
-/

namespace VirtualTopology.Document

/-! ### The state of the reader -/

/-- An element that is open. -/
structure Frame where
  /-- The name as it is written. -/
  name : List Char
  tag : String
  attributes : List (String × String)
  scope : Scope
  /-- The character data before the first child, last character first. -/
  lead : List Char := []
  /-- The children so far, last one first. -/
  children : List Element := []

/-- The start of an element while it is being read. -/
structure Start where
  name : List Char
  /-- The attributes so far with what stands between their quotes, last one first. -/
  attributes : List (List Char × List Char) := []

/-- The piece of markup that is being read. Collected characters are kept last one first. -/
inductive Mode where
  /-- Before or behind the root element. -/
  | outside
  /-- Character data, with the number of closing brackets just read (at most two). -/
  | content (brackets : Nat)
  /-- Behind the opening bracket of markup. -/
  | opened
  /-- Behind the exclamation mark. -/
  | declared (soFar : List Char)
  | aside (a : Aside)
  | literal (brackets : Nat)
  | documentType (t : DocumentType)
  | startName (soFar : List Char)
  /-- Inside a start tag, behind white space. -/
  | inStart (start : Start)
  | attributeName (start : Start) (soFar : List Char)
  | beforeEquals (start : Start) (name : List Char)
  | beforeValue (start : Start) (name : List Char)
  | value (start : Start) (name : List Char) (quote : Char) (soFar : List Char)
  | behindValue (start : Start)
  /-- Behind the slash that ends an element without content. -/
  | selfClosing (start : Start)
  | endName (soFar : List Char)
  | behindEndName (name : List Char)
  /-- Inside a reference in character data. -/
  | reference (soFar : List Char)

/-- What the reader knows so far. -/
structure Reader where
  mode : Mode := .outside
  /-- The open elements, innermost first. -/
  open_ : List Frame := []
  root : Option Element := none
  /-- Whether the document stands alone. -/
  standsAlone : Bool := false
  /-- Whether a document type has been declared. -/
  typed : Bool := false
  definitions : Definitions := {}
  /-- Whether the text of an entity is read, which is inside the outermost of the open elements. -/
  inEntity : Bool := false

namespace Reader

/-! ### Building elements -/

/-- Add characters to the innermost open element, unless it has a child already. -/
def addText (r : Reader) (cs : List Char) : Reader :=
  match r.open_ with
  | [] => r
  | f :: fs =>
      if f.children.isEmpty then
        { r with open_ := { f with lead := cs.reverse ++ f.lead } :: fs }
      else r

/-- The scope of the innermost open element. -/
def scope (r : Reader) : Scope :=
  match r.open_ with
  | [] => [("xml".toList, xmlAddress)]
  | f :: _ => f.scope

/-- How many octets may still be put in place of references. -/
def room (r : Reader) : Nat := r.definitions.room

/-- Note how many octets may still be put in place of references. -/
def withRoom (r : Reader) (room : Nat) : Reader :=
  { r with definitions := { r.definitions with room } }

/-- Resolve the values of attributes that are written in a tag, with entities inside each other up to a
depth. -/
def resolveValues? (r : Reader) (depth : Nat) (rules : List AttributeRule) :
    List (List Char × List Char) → Option (RawAttributes × Reader)
  | [] => some ([], r)
  | (name, written) :: rest => do
      let isText := ((rules.find? (·.name == String.ofList name)).map (·.isText)).getD true
      let (value, room) ←
        Value.attributeValue? r.definitions.entities depth isText r.room written
      let (values, r) ← (r.withRoom room).resolveValues? depth rules rest
      return ((name, value) :: values, r)

/-- The attributes that rules give and that are not written. -/
def givenAttributes (rules : List AttributeRule) (written : RawAttributes) : RawAttributes :=
  rules.filterMap fun rule =>
    let name := rule.name.toList
    if (written.lookup name).isSome then none
    else rule.given.map fun value => (name, String.ofList value)

/-- Open an element. -/
def openElement? (r : Reader) (depth : Nat) (s : Start) : Option Reader := do
  let names := s.name :: s.attributes.map (·.1)
  if !names.all isWrittenName || !distinct (s.attributes.map (·.1)) then none
  let rules := r.definitions.rulesFor (String.ofList s.name)
  let (written, r) ← r.resolveValues? depth rules s.attributes.reverse
  let raw := written ++ givenAttributes rules written
  let scope ← declare? r.scope raw
  let tag ← elementName? scope s.name
  let attributes ← resolve? scope raw
  if !distinct (attributes.map (·.1)) then none
  pure { r with
    mode := .content 0
    open_ := { name := s.name, tag, attributes, scope } :: r.open_ }

/-- The element of a frame. -/
def Frame.element (f : Frame) : Element :=
  { tag := f.tag, attributes := f.attributes, lead := String.ofList f.lead.reverse
    children := f.children.reverse }

/-- Close the innermost open element, which has to have the given name. The text of an entity does not
close the element that it is in. -/
def closeElement? (r : Reader) (name : List Char) : Option Reader :=
  match r.open_ with
  | [] => none
  | f :: fs =>
      if f.name = name then
        match fs with
        | [] =>
            if r.inEntity then none
            else some { r with mode := .outside, open_ := [], root := some (Frame.element f) }
        | g :: gs =>
            some { r with
              mode := .content 0
              open_ := { g with children := Frame.element f :: g.children } :: gs }
      else none

/-- Go back to where character data or white space is expected. -/
def resume (r : Reader) : Reader :=
  { r with mode := if r.open_.isEmpty then .outside else .content 0 }

/-! ### One character -/

/-- The end of the name of a start tag. -/
def behindName? (r : Reader) (depth : Nat) (s : Start) (c : Char) : Option Reader :=
  if isWhite c then some { r with mode := .inStart s }
  else if c = '/' then some { r with mode := .selfClosing s }
  else if c = '>' then r.openElement? depth s
  else none

/-- Read the text of an entity inside the innermost open element. -/
def within? (r : Reader) (read : Reader → Option Reader) : Option Reader :=
  match r.open_ with
  | [] => none
  | f :: fs => do
      let inner ← read { r with mode := .content 0, open_ := [f], inEntity := true }
      match inner.mode, inner.open_ with
      | .content _, [f] =>
          some { inner with mode := .content 0, open_ := f :: fs, inEntity := r.inEntity }
      | _, _ => none

/-- Put a reference in place in character data. -/
def refer? (r : Reader) (expand : Reader → List Char → Option Reader) : Referent → Option Reader
  | .character c => some { r.addText [c] with mode := .content 0 }
  | .entity name =>
      match knownEntity? name with
      | some c => some { r.addText [c] with mode := .content 0 }
      | none => do
          let text ← (← r.definitions.entities.texts.lookup name)
          expand (r.withRoom (← spend? r.room text)) text

/-- Read one character: `expand` reads the text of an entity, and `depth` says how deep entities may be
inside each other. -/
def stepWith (depth : Nat) (expand : Reader → List Char → Option Reader) (r : Reader) (c : Char) :
    Option Reader :=
  match r.mode with
  | .outside =>
      if isWhite c then some r
      else if c = '<' then some { r with mode := .opened }
      else none
  | .content brackets =>
      if c = '<' then some { r with mode := .opened }
      else if c = '&' then some { r with mode := .reference [] }
      else if c = ']' then
        some { r.addText [c] with mode := .content (min 2 (brackets + 1)) }
      else if c = '>' ∧ brackets = 2 then none
      else some { r.addText [c] with mode := .content 0 }
  | .opened =>
      if c = '!' then some { r with mode := .declared [] }
      else if c = '?' then some { r with mode := .aside (.target []) }
      else if c = '/' then
        if r.open_.isEmpty then none else some { r with mode := .endName [] }
      else if isNameStart c then
        if r.open_.isEmpty && r.root.isSome then none
        else some { r with mode := .startName [c] }
      else none
  | .declared soFar =>
      let word := (c :: soFar).reverse
      if word == "--".toList then some { r with mode := .aside (.comment 0) }
      else if word == "[CDATA[".toList then
        if r.open_.isEmpty then none else some { r with mode := .literal 0 }
      else if word == "DOCTYPE".toList then
        if r.typed || r.root.isSome || !r.open_.isEmpty then none
        else some { r with mode := .documentType {}, typed := true }
      else if word.isPrefixOf "--".toList || word.isPrefixOf "[CDATA[".toList ||
          word.isPrefixOf "DOCTYPE".toList then
        some { r with mode := .declared (c :: soFar) }
      else none
  | .aside a => do
      match ← a.step c with
      | .over => some r.resume
      | a => some { r with mode := .aside a }
  | .literal brackets =>
      if c = ']' then
        if brackets = 2 then some (r.addText [']'])
        else some { r with mode := .literal (brackets + 1) }
      else if c = '>' ∧ brackets = 2 then some { r with mode := .content 0 }
      else
        some { r.addText (List.replicate brackets ']' ++ [c]) with mode := .literal 0 }
  | .documentType t => do
      let t ← t.step c
      match t.part with
      | .closed =>
          return { r with
            mode := .outside, definitions := ← t.definitions? r.standsAlone r.room }
      | _ => return { r with mode := .documentType t }
  | .startName soFar =>
      if continuesName c then some { r with mode := .startName (c :: soFar) }
      else r.behindName? depth { name := soFar.reverse } c
  | .inStart s =>
      if isNameStart c then some { r with mode := .attributeName s [c] }
      else r.behindName? depth s c
  | .attributeName s soFar =>
      if continuesName c then some { r with mode := .attributeName s (c :: soFar) }
      else if isWhite c then some { r with mode := .beforeEquals s soFar.reverse }
      else if c = '=' then some { r with mode := .beforeValue s soFar.reverse }
      else none
  | .beforeEquals s name =>
      if isWhite c then some r
      else if c = '=' then some { r with mode := .beforeValue s name }
      else none
  | .beforeValue s name =>
      if isWhite c then some r
      else if c = '"' ∨ c = '\'' then some { r with mode := .value s name c [] }
      else none
  | .value s name quote soFar =>
      if c = quote then
        let attributes := (name, soFar.reverse) :: s.attributes
        some { r with mode := .behindValue { s with attributes } }
      else if c = '<' then none
      else some { r with mode := .value s name quote (c :: soFar) }
  | .behindValue s => r.behindName? depth s c
  | .selfClosing s =>
      if c = '>' then (r.openElement? depth s).bind (·.closeElement? s.name) else none
  | .endName soFar =>
      if soFar.isEmpty then
        if isNameStart c then some { r with mode := .endName [c] } else none
      else if continuesName c then some { r with mode := .endName (c :: soFar) }
      else if isWhite c then some { r with mode := .behindEndName soFar.reverse }
      else if c = '>' then r.closeElement? soFar.reverse
      else none
  | .behindEndName name =>
      if isWhite c then some r
      else if c = '>' then r.closeElement? name
      else none
  | .reference soFar =>
      if c = ';' then (Referent.ofName? soFar.reverse).bind (r.refer? expand)
      else if continuesReference soFar c then some { r with mode := .reference (c :: soFar) }
      else none

/-- Read one character, with entities inside each other up to a depth. -/
def stepAt : (depth : Nat) → Reader → Char → Option Reader
  | 0 => stepWith 0 fun _ _ => none
  | depth + 1 =>
      stepWith (depth + 1) fun r text => r.within? fun inner => text.foldlM (stepAt depth) inner

/-- Read one character. -/
def step (r : Reader) (c : Char) : Option Reader := r.stepAt r.definitions.entities.depth c

/-- Read several characters. -/
def run (r : Reader) (cs : List Char) : Option Reader := cs.foldlM step r

@[simp] theorem run_nil (r : Reader) : r.run [] = some r := rfl

theorem run_cons (r : Reader) (c : Char) (cs : List Char) :
    r.run (c :: cs) = (r.step c).bind (·.run cs) := by
  simp [run, List.foldlM_cons, Option.bind_eq_bind]

theorem run_append (r : Reader) (cs ds : List Char) :
    r.run (cs ++ ds) = (r.run cs).bind (·.run ds) := by
  simp [run, List.foldlM_append, Option.bind_eq_bind]

end Reader

/-- Read the characters of a document. -/
def readChars? (written : List Char) : Option Element := do
  let cs := dropMark (Text.unifyLines written)
  if !cs.all isAllowed then none
  let (standsAlone, cs) ← dropDeclaration? cs
  let start : Reader := { standsAlone, definitions := { room := roomOf written } }
  let r ← start.run cs
  match r.mode, r.open_ with
  | .outside, [] => r.root
  | _, _ => none

end Document

/-- Read a document. -/
def Element.read? (s : String) : Option Element := Document.readChars? s.toList

end VirtualTopology
