import VirtualTopology.Document.DocumentType.Piece

/-!
# Declarations

A document type declares entities, attributes of elements, the content of elements, and formats.
`Markup.ofText?` reads a declaration. It keeps what it says of entities and attributes, and of the
others only sees to it that they have their form.
-/

namespace VirtualTopology.Document

/-- What is declared about an attribute. -/
structure AttributeRule where
  name : String
  /-- Whether the value is any text, rather than words with single spaces between them. -/
  isText : Bool
  /-- The value where none is written. -/
  given : Option (List Char) := none
  deriving Repr

/-- What a declaration declares. -/
inductive Markup where
  /-- The entity of a name, with the literal that says what it stands for; it has none if that is kept
  outside the document. -/
  | entity (name : String) (literal : Option (List Char))
  /-- An entity that has its place in declarations. -/
  | parameter (literal : Option (List Char))
  /-- Attributes of an element. Their values are literals. -/
  | attributes (element : String) (rules : List AttributeRule)
  /-- Something that makes no difference to documents. -/
  | other
  deriving Repr

namespace Markup

/-- A character of an address by which something is known to the public. -/
def isPublicChar (c : Char) : Bool :=
  (c.toNat < 128 && c.isAlphanum) || " \r\n-'()+,./:=?;!*#@$_%".toList.contains c

/-- Where something is kept outside the document, and what follows that. -/
def behindAddress? : List Piece → Option (List Piece)
  | .name "SYSTEM" :: .literal _ :: rest => some rest
  | .name "PUBLIC" :: .literal known :: .literal _ :: rest =>
      if known.all isPublicChar then some rest else none
  | _ => none

/-! ### Entities and formats -/

/-- The literal of an entity, or that it is kept outside, and what follows that. -/
def entityValue? : List Piece → Option (Option (List Char) × List Piece)
  | .literal text :: rest => some (some text, rest)
  | pieces => (behindAddress? pieces).map fun rest => (none, rest)

/-- The declaration of an entity. One that is kept outside may be in a format. -/
def entity? : List Piece → Option Markup
  | .percent :: .name _ :: pieces =>
      match entityValue? pieces with
      | some (literal, []) => some (.parameter literal)
      | _ => none
  | .name name :: pieces =>
      match entityValue? pieces with
      | some (literal, []) => some (.entity name literal)
      | some (none, [.name "NDATA", .name _]) => some (.entity name none)
      | _ => none
  | _ => none

/-- Whether pieces declare a format. -/
def isFormat : List Piece → Bool
  | [.name _, .name "PUBLIC", .literal known] => known.all isPublicChar
  | .name _ :: pieces => behindAddress? pieces == some []
  | _ => false

/-! ### Attributes -/

/-- What comes next in a list of attributes. -/
inductive AttributePlace where
  | name
  | type (name : String)
  /-- In front of a choice of formats. -/
  | formats (name : String)
  | choice (name : String) (formats : Bool)
  | behindChoice (name : String) (formats : Bool)
  | value (name : String) (isText : Bool)
  | fixed (name : String) (isText : Bool)

/-- The types of attributes whose values are made of words, apart from choices. -/
def wordTypes : List String :=
  ["ID", "IDREF", "IDREFS", "ENTITY", "ENTITIES", "NMTOKEN", "NMTOKENS"]

/-- The rules that a list of attributes states. -/
def attributeRules? : AttributePlace → List Piece → Option (List AttributeRule)
  | .name, [] => some []
  | .name, .name a :: ps => attributeRules? (.type a) ps
  | .name, .prefixedName a :: ps => attributeRules? (.type a) ps
  | .type a, .name type :: ps =>
      if type = "CDATA" then attributeRules? (.value a true) ps
      else if type = "NOTATION" then attributeRules? (.formats a) ps
      else if wordTypes.contains type then attributeRules? (.value a false) ps
      else none
  | .type a, .opening :: ps => attributeRules? (.choice a false) ps
  | .formats a, .opening :: ps => attributeRules? (.choice a true) ps
  | .choice a formats, .name _ :: ps => attributeRules? (.behindChoice a formats) ps
  | .choice a false, .prefixedName _ :: ps => attributeRules? (.behindChoice a false) ps
  | .choice a false, .nameToken _ :: ps => attributeRules? (.behindChoice a false) ps
  | .behindChoice a formats, .bar :: ps => attributeRules? (.choice a formats) ps
  | .behindChoice a _, .closing none :: ps => attributeRules? (.value a false) ps
  | .value a isText, .keyword word :: ps =>
      if word = "IMPLIED" ∨ word = "REQUIRED" then
        (attributeRules? .name ps).map ({ name := a, isText } :: ·)
      else if word = "FIXED" then attributeRules? (.fixed a isText) ps
      else none
  | .value a isText, .literal text :: ps =>
      (attributeRules? .name ps).map ({ name := a, isText, given := some text } :: ·)
  | .fixed a isText, .literal text :: ps =>
      (attributeRules? .name ps).map ({ name := a, isText, given := some text } :: ·)
  | _, _ => none

/-- The declaration of attributes of an element. -/
def attributes? : List Piece → Option Markup
  | .name element :: ps => (attributeRules? .name ps).map (.attributes element)
  | .prefixedName element :: ps => (attributeRules? .name ps).map (.attributes element)
  | _ => none

/-! ### Elements -/

/-- Whether pieces are the rest of a group of parts. The marks between the parts of each open group are
given, innermost first, once they are known: a group does not mix them. A part is `wanted` behind a
mark. -/
def isGroup : (groups : List (Option Piece)) → (wanted : Bool) → List Piece → Bool
  | [], wanted, ps => !wanted && ps.isEmpty
  | g :: gs, true, p :: ps =>
      match p with
      | .opening => isGroup (none :: g :: gs) true ps
      | .name _ | .prefixedName _ | .countedName => isGroup (g :: gs) false ps
      | _ => false
  | g :: gs, false, p :: ps =>
      match p with
      | .closing _ => isGroup gs false ps
      | .comma | .bar => (g.isNone || g == some p) && isGroup (some p :: gs) true ps
      | _ => false
  | _ :: _, _, [] => false

/-- Whether pieces are the names that may stand between texts, each behind a bar, up to the end. -/
def isMixed : List Piece → Bool
  | [.closing (some '*')] => true
  | .bar :: .name _ :: ps => isMixed ps
  | .bar :: .prefixedName _ :: ps => isMixed ps
  | _ => false

/-- Whether pieces say what an element holds. -/
def isContent : List Piece → Bool
  | [.name word] => word == "EMPTY" || word == "ANY"
  | [.opening, .keyword "PCDATA", .closing none] => true
  | .opening :: .keyword "PCDATA" :: ps => isMixed ps
  | .opening :: ps => isGroup [none] true ps
  | _ => false

/-- Whether pieces declare an element. -/
def isElement : List Piece → Bool
  | .name _ :: ps => isContent ps
  | .prefixedName _ :: ps => isContent ps
  | _ => false

/-! ### All of them -/

/-- The declaration that a text is, from the word for its kind on. -/
def ofText? (text : List Char) : Option Markup := do
  let pieces ← Piece.split? (text.dropWhile (!isWhite ·))
  match String.ofList (text.takeWhile (!isWhite ·)) with
  | "ENTITY" => entity? pieces
  | "ATTLIST" => attributes? pieces
  | "ELEMENT" => if isElement pieces then some .other else none
  | "NOTATION" => if isFormat pieces then some .other else none
  | _ => none

end Markup

end VirtualTopology.Document
