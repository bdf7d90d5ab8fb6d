import VirtualTopology.Document.Character
import VirtualTopology.Text.Numeral

/-!
# References

A reference stands for the character with a number, or for the text of an entity (`Referent.ofName?`).
Five entities have a meaning in every document, and no declaration changes it (`knownEntity?`); what
others stand for is said by declarations (`Entities`).
-/

namespace VirtualTopology.Document

open Text

/-- What a reference refers to. -/
inductive Referent where
  | character (c : Char)
  | entity (name : String)
  deriving Repr

/-- The character that a number refers to. -/
def charOfNumber? (n : Nat) : Option Char :=
  if h : n.isValidChar then
    let c := Char.ofNatAux n h
    if isAllowed c then some c else none
  else none

/-- The number of a reference, in decimal or hexadecimal digits. -/
def referenceNumber? : List Char → Option Nat
  | 'x' :: ds =>
      if ds.isEmpty then none
      else (ds.mapM hexDigit?).map (List.foldl (fun n d => 16 * n + d) 0)
  | ds => if ds.isEmpty then none else (ds.mapM asciiDigit?).map ofDigits

/-- Whether a character may follow those of a reference so far, which are given last one first. -/
def continuesReference (soFar : List Char) (c : Char) : Bool :=
  if soFar.isEmpty then c == '#' || isNameStart c else isNameChar c

/-- What is referred to by what stands between the ampersand and the semicolon. -/
def Referent.ofName? : List Char → Option Referent
  | [] => none
  | '#' :: cs => ((referenceNumber? cs).bind charOfNumber?).map .character
  | name => some (.entity (String.ofList name))

/-- The character that an entity stands for in every document. -/
def knownEntity? : String → Option Char
  | "amp" => some '&'
  | "lt" => some '<'
  | "gt" => some '>'
  | "quot" => some '"'
  | "apos" => some '\''
  | _ => none

/-! ### Declared entities -/

/-- What is known of the entities of a document. -/
structure Entities where
  /-- The texts that they stand for, by their names. One that is kept outside the document has none. -/
  texts : List (String × Option (List Char)) := []
  /-- Whether there may be others, which are not declared in the document. -/
  incomplete : Bool := false
  deriving Repr

namespace Entities

/-- Add an entity. The first declaration of a name counts. -/
def add (es : Entities) (name : String) (text : Option (List Char)) : Entities :=
  if (knownEntity? name).isSome || (es.texts.lookup name).isSome then es
  else { es with texts := es.texts ++ [(name, text)] }

/-- How deep entities can be inside each other. One that is inside itself is deeper than that. -/
def depth (es : Entities) : Nat := es.texts.length

end Entities

/-! ### The size of what is put in place of references -/

/-- The number of octets that characters take. -/
def octets (cs : List Char) : Nat := (cs.map Char.utf8Size).foldl (· + ·) 0

/-- How many octets may be put in place of the references of a document: with the document itself it is
less than eight mebibytes, or not more than a hundred times the document. -/
def roomOf (document : List Char) : Nat :=
  let size := octets document
  max (8 * 1024 * 1024 - 1 - size) (99 * size)

/-- What room is left when a text has been put in place of a reference. -/
def spend? (room : Nat) (text : List Char) : Option Nat :=
  let size := octets text
  if size ≤ room then some (room - size) else none

end VirtualTopology.Document
