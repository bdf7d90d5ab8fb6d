import VirtualTopology.Document.Character
import VirtualTopology.Document.DocumentType.Markup
import VirtualTopology.Document.Value

/-!
# Document types

Before its root element a document may declare a document type: a name, possibly an address where more
declarations are kept, and possibly declarations between brackets. `DocumentType` reads one a character at
a time and keeps its head and its declarations.

`DocumentType.definitions?` says what it defines: entities, and rules for attributes. What an address
leads to is never looked at. So declarations behind the name of declarations that are kept elsewhere
do not count, because these might say otherwise, unless the document stands alone.

Comments and processing instructions may stand between declarations, and nearly everywhere else in a
document. They leave nothing behind, but they have a form. `Aside` reads one of them, one character at a
time, from what follows its opening mark up to its closing bracket.
-/

namespace VirtualTopology.Document

/-! ### Comments and instructions -/

/-- A comment or an instruction that is being read. -/
inductive Aside where
  /-- Inside a comment, with the number of dashes just read (at most two). -/
  | comment (dashes : Nat)
  /-- Inside the target of an instruction. Its characters are kept last one first. -/
  | target (soFar : List Char)
  /-- Behind a target that a question mark ends. -/
  | bare
  /-- Inside an instruction, and whether a question mark was just read. -/
  | instruction (asked : Bool)
  | over

/-- Read one character. Two dashes end a comment, and no instruction is for the format itself. -/
def Aside.step (a : Aside) (c : Char) : Option Aside :=
  match a with
  | .comment dashes =>
      if dashes = 2 then if c = '>' then some .over else none
      else some (.comment (if c = '-' then dashes + 1 else 0))
  | .target [] => if isNameStart c then some (.target [c]) else none
  | .target soFar =>
      if isNameChar c then some (.target (c :: soFar))
      else if soFar.reverse.map Char.toLower == "xml".toList then none
      else if isWhite c then some (.instruction false)
      else if c = '?' then some .bare
      else none
  | .bare => if c = '>' then some .over else none
  | .instruction asked => some (if asked && c == '>' then .over else .instruction (c == '?'))
  | .over => none

/-! ### Definitions -/

/-- What the declarations of a document define. -/
structure Definitions where
  entities : Entities := {}
  /-- The rules for attributes of elements, with the values that stand where none is written. -/
  rules : List (String × AttributeRule) := []
  /-- Whether declarations still count. -/
  counting : Bool := true
  /-- How many octets may still be put in place of references. -/
  room : Nat := 0

namespace Definitions

/-- The rules for the attributes of an element. -/
def rulesFor (d : Definitions) (element : String) : List AttributeRule :=
  (d.rules.filter (·.1 == element)).map (·.2)

/-- Add a rule for an attribute of an element. The first one for an attribute counts. -/
def addRule? (element : String) (d : Definitions) (rule : AttributeRule) : Option Definitions := do
  let (rule, room) ← match rule.given with
    | none => some (rule, d.room)
    | some literal => do
        let (value, room) ←
          Value.attributeValue? d.entities d.entities.depth rule.isText d.room literal
        pure ({ rule with given := some value.toList }, room)
  let d := { d with room }
  if (d.rulesFor element).any (·.name == rule.name) then return d
  return { d with rules := d.rules ++ [(element, rule)] }

/-- Add what a declaration says. -/
def add? (d : Definitions) : Markup → Option Definitions
  | .entity name literal => do
      let text ← literal.mapM Value.entityText?
      return { d with entities := d.entities.add name text }
  | .parameter literal => do
      let _ ← literal.mapM Value.entityText?
      return d
  | .attributes element rules => rules.foldlM (addRule? element) d
  | .other => some d

end Definitions

/-! ### Reading -/

/-- The part of a document type that is being read. -/
inductive TypePart where
  | head
  | headQuote (quote : Char)
  /-- Between the brackets, in front of a declaration. -/
  | subset
  /-- Inside the name of declarations that are kept elsewhere. -/
  | elsewhere (begun : Bool)
  /-- Behind the opening bracket of markup. -/
  | opened
  /-- Behind the exclamation mark. -/
  | marked
  | dash
  | declaration
  | declarationQuote (quote : Char)
  | aside (a : Aside)
  | behindSubset
  | closed

/-- What stands between the brackets of a document type. -/
inductive TypeItem where
  | declaration (text : List Char)
  /-- Declarations that are kept elsewhere. -/
  | elsewhere

/-- A document type that is being read. Collected characters are kept last one first. -/
structure DocumentType where
  part : TypePart := .head
  head : List Char := []
  /-- The declaration that is being read. -/
  declaration : List Char := []
  /-- What has stood between the brackets so far, last one first. -/
  items : List TypeItem := []

namespace DocumentType

/-- Read one character. -/
def step (t : DocumentType) (c : Char) : Option DocumentType :=
  let goOn (part : TypePart) : Option DocumentType := some { t with part }
  let isQuote := c = '"' ∨ c = '\''
  match t.part with
  | .head =>
      if c = '[' then goOn .subset
      else if c = '>' then goOn .closed
      else some { t with part := if isQuote then .headQuote c else .head, head := c :: t.head }
  | .headQuote q =>
      some { t with part := if c = q then .head else .headQuote q, head := c :: t.head }
  | .subset =>
      if isWhite c then goOn .subset
      else if c = '<' then goOn .opened
      else if c = '%' then goOn (.elsewhere false)
      else if c = ']' then goOn .behindSubset
      else none
  | .elsewhere false => if isNameStart c then goOn (.elsewhere true) else none
  | .elsewhere true =>
      if isNameChar c then goOn (.elsewhere true)
      else if c = ';' then some { t with part := .subset, items := .elsewhere :: t.items }
      else none
  | .opened =>
      if c = '!' then goOn .marked else if c = '?' then goOn (.aside (.target [])) else none
  | .marked =>
      if c = '-' then goOn .dash
      else if c.isAlpha || c == '_' then some { t with part := .declaration, declaration := [c] }
      else none
  | .dash => if c = '-' then goOn (.aside (.comment 0)) else none
  | .declaration =>
      if c = '>' then
        some { t with part := .subset, items := .declaration t.declaration.reverse :: t.items }
      else
        some { t with
          part := if isQuote then .declarationQuote c else .declaration
          declaration := c :: t.declaration }
  | .declarationQuote q =>
      some { t with
        part := if c = q then .declaration else .declarationQuote q
        declaration := c :: t.declaration }
  | .aside a => do
      match ← a.step c with
      | .over => goOn .subset
      | a => goOn (.aside a)
  | .behindSubset =>
      if isWhite c then goOn .behindSubset else if c = '>' then goOn .closed else none
  | .closed => none

/-- Whether the head of a document type names an address where more declarations are kept; `none` if it
does not have its form. -/
def hasAddress? (head : List Char) : Option Bool :=
  let behindName (pieces : List Piece) : Option Bool :=
    if pieces.isEmpty then some false
    else if Markup.behindAddress? pieces == some [] then some true
    else none
  if !head.head?.any isWhite then none
  else
    match Piece.split? head with
    | some (.name _ :: pieces) => behindName pieces
    | some (.prefixedName _ :: pieces) => behindName pieces
    | _ => none

/-- Add what an item says to definitions. -/
def addItem? (standsAlone : Bool) (d : Definitions) : TypeItem → Option Definitions
  | .declaration text => do
      let markup ← Markup.ofText? text
      if d.counting then d.add? markup else some d
  | .elsewhere =>
      if standsAlone then some d
      else some { d with counting := false, entities := { d.entities with incomplete := true } }

/-- What a document type that has been read defines, if it is in order. -/
def definitions? (t : DocumentType) (standsAlone : Bool) (room : Nat) : Option Definitions := do
  let outside ← hasAddress? t.head.reverse
  let start : Definitions := { entities := { incomplete := outside && !standsAlone }, room }
  t.items.reverse.foldlM (addItem? standsAlone) start

end DocumentType

end VirtualTopology.Document
