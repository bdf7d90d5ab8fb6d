import VirtualTopology.Document.Reference

/-!
# Values

The literal that says what an entity stands for, and the value of an attribute, are texts with
references between quotes. `Value` reads one of them, one character at a time.

* In the literal of an entity (`entityText?`) a reference to a character is put in place. Other
  references stay and are looked at where the entity is used.
* In the value of an attribute (`attributeValue?`) all references are put in place, and so are those in
  the texts of entities. White space becomes spaces, and spaces at the ends and behind others are left out
  if the value is not any text.
-/

namespace VirtualTopology.Document

/-- A value that is being read. Collected characters are kept last one first. -/
structure Value where
  soFar : List Char := []
  /-- The reference that is being read. -/
  reference : Option (List Char) := none
  /-- How many octets may still be put in place of references. -/
  room : Nat := 0

namespace Value

/-- Add characters. -/
def append (v : Value) (cs : List Char) : Value := { v with soFar := cs.reverse ++ v.soFar }

/-- Read one character: `plain` says what it contributes outside of references, and `refer` does what is
to be done about a reference. -/
def stepWith (plain : Char → Option Char) (refer : Value → Referent → Option Value) (v : Value)
    (c : Char) : Option Value :=
  match v.reference with
  | none =>
      if c = '&' then some { v with reference := some [] }
      else (plain c).map fun c => v.append [c]
  | some name =>
      if c = ';' then (Referent.ofName? name.reverse).bind (refer { v with reference := none })
      else if continuesReference name c then some { v with reference := some (c :: name) }
      else none

/-- Read characters to their end, where no reference is open. -/
def runWith (step : Value → Char → Option Value) (v : Value) (cs : List Char) : Option Value := do
  let v ← cs.foldlM step v
  if v.reference.isSome then none else some v

/-! ### Entities -/

/-- What stands in the text of an entity for a character of its literal. No declaration is referred to
here. -/
def entityChar? (c : Char) : Option Char := if c = '%' then none else some c

/-- What stands in the text of an entity for a reference of its literal. -/
def entityReference (v : Value) : Referent → Option Value
  | .character c => some (v.append [c])
  | .entity name => some (v.append ('&' :: name.toList ++ [';']))

/-- The text of an entity with a literal. -/
def entityText? (literal : List Char) : Option (List Char) :=
  (runWith (stepWith entityChar? entityReference) {} literal).map (·.soFar.reverse)

/-! ### Attributes -/

/-- What stands in the value of an attribute for a character. -/
def attributeChar? (c : Char) : Option Char :=
  if c = '<' then none else some (if isWhite c then ' ' else c)

/-- Put a reference in place in the value of an attribute. A name that is declared elsewhere, if at all,
stands for nothing. -/
def attributeReference (es : Entities) (within : Value → List Char → Option Value) (v : Value) :
    Referent → Option Value
  | .character c => some (v.append [c])
  | .entity name =>
      match knownEntity? name, es.texts.lookup name with
      | some c, _ => some (v.append [c])
      | none, some (some text) => do within { v with room := ← spend? v.room text } text
      | none, some none => none
      | none, none => if es.incomplete then some v else none

/-- Read one character of the value of an attribute, with entities inside each other up to a depth. -/
def attributeStep (es : Entities) : (depth : Nat) → Value → Char → Option Value
  | 0 => stepWith attributeChar? (attributeReference es fun _ _ => none)
  | depth + 1 =>
      stepWith attributeChar? (attributeReference es fun v text =>
        runWith (attributeStep es depth) v text)

/-- Leave out spaces at the start and behind others; the characters are given last one first, and so the
spaces at the end are left out first. -/
def singleSpaced (cs : List Char) : List Char :=
  (cs.dropWhile (· == ' ')).foldl (fun done c =>
    if c == ' ' && (done.head? == some ' ') then done else c :: done) [] |>.dropWhile (· == ' ')

/-- The value of an attribute, from what stands between its quotes, and the room that is left. -/
def attributeValue? (es : Entities) (depth : Nat) (isText : Bool) (room : Nat) (written : List Char) :
    Option (String × Nat) := do
  let v ← runWith (attributeStep es depth) { room } written
  let cs := if isText then v.soFar.reverse else singleSpaced v.soFar
  return (String.ofList cs, v.room)

end Value

end VirtualTopology.Document
