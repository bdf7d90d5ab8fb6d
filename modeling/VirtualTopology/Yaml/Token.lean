import VirtualTopology.Text.Numeral
import VirtualTopology.Yaml.Flaw
import VirtualTopology.Yaml.Place

/-!
# Tokens

The tokens of a YAML text: scalars, the properties and punctuation of nodes, and the marks of nesting
that columns stand for (a block begins where a line is further in and ends where one is less far in).

Directives, tags and anchors, which say something about a document or a node, are read here as well.
-/

namespace VirtualTopology.Yaml

/-- A directive before a document. -/
inductive Directive where
  /-- The version of the format, its first number. -/
  | version (major : Nat)
  /-- A handle and the beginning of the tags that it stands for. -/
  | handle (name : String) (stands : String)
  | other
  deriving Repr, DecidableEq

/-- A tag as it is written: a handle, if it has one, and what follows. -/
structure WrittenTag where
  handle : Option String
  suffix : String
  deriving Repr, DecidableEq

/-- A token. -/
inductive Token where
  | directive (d : Directive)
  | documentStart
  | documentEnd
  | blockSequence
  | blockMapping
  | blockEnd
  | sequenceStart
  | sequenceEnd
  | mappingStart
  | mappingEnd
  | comma
  | entry
  | key
  | value
  | alias (name : String)
  | anchor (name : String)
  | tag (t : WrittenTag)
  /-- A scalar; `plain` if it stands without quotes and indicators. -/
  | scalar (text : String) (plain : Bool)
  deriving Repr, DecidableEq

open Scan

/-! ### Tags -/

/-- The characters of the written form of a tag. -/
def isTagChar (c : Char) : Bool := c.isAlphanum || "-;/?:@&=+$,_.!~*'()[]%".toList.contains c

/-- The octets of a run of escapes, and the text behind it. Nothing if an escape is broken. -/
def escapedOctets? : List Char → Option (List UInt8 × List Char)
  | '%' :: rest =>
      match rest with
      | a :: b :: rest => do
          let octet := 16 * (← Text.hexDigit? a) + (← Text.hexDigit? b)
          let (octets, rest) ← escapedOctets? rest
          pure (octet.toUInt8 :: octets, rest)
      | _ => none
  | rest => some ([], rest)

/-- The text of the written form of a tag, with escapes resolved: each run of escapes is the UTF-8
form of a text. -/
def tagText? : (steps : Nat) → List Char → Option (List Char)
  | 0, _ => none
  | _ + 1, [] => some []
  | steps + 1, '%' :: rest => do
      let (octets, rest) ← escapedOctets? ('%' :: rest)
      let text ← String.fromUTF8? ⟨octets.toArray⟩
      return text.toList ++ (← tagText? steps rest)
  | steps + 1, c :: rest => do return c :: (← tagText? steps rest)

/-- Read the written form of a tag, at least one character. -/
def tagUri : Scan String := do
  let written ← taking isTagChar
  if written.isEmpty then fail
  match tagText? (written.length + 1) written with
  | some text => return String.ofList text
  | none => fail

/-- Read the handle of a tag: one exclamation mark before a space, or a name, which may be empty,
between two. -/
def tagHandle : Scan String := do
  match ← rest with
  | '!' :: ' ' :: _ =>
      skip 1
      return "!"
  | '!' :: following =>
      let name := following.takeWhile isNameChar
      match following.drop name.length with
      | '!' :: _ =>
          skip (name.length + 2)
          return String.ofList ('!' :: name ++ ['!'])
      | _ => fail
  | _ => fail

/-- Read the tag of a node. -/
def tag : Scan WrittenTag := do
  let written : WrittenTag ←
    match (← rest).drop 1 with
    | '<' :: _ => do
        skip 2
        let suffix ← tagUri
        match ← rest with
        | '>' :: _ => do skip 1; pure ⟨none, suffix⟩
        | _ => fail
    | following =>
        if atGap following then do skip 1; pure ⟨none, "!"⟩
        else do
          let word := following.takeWhile fun c => !(c == ' ' || isBreak c)
          let handle ← if word.contains '!' then tagHandle else do skip 1; pure "!"
          pure ⟨some handle, ← tagUri⟩
  if !atSpace (← rest) then fail
  return written

/-! ### Anchors -/

/-- Read the name of an anchor or of an alias. -/
def anchorName : Scan String := do
  skip 1
  let name ← taking isNameChar
  if name.isEmpty then fail
  let following ← rest
  if !(atGap following || following.head?.any "?:,]\x7d%@`".toList.contains) then fail
  return String.ofList name

/-! ### Directives -/

/-- Read a decimal number. -/
def decimal : Scan Nat := do
  let digits ← taking Char.isDigit
  if digits.isEmpty then fail
  if Text.digitLimit < digits.length then
    throw (.unnameable (.numeral (.tooManyDigits digits.length)))
  return Text.ofDigits (digits.filterMap Text.asciiDigit?)

/-- Read a directive and the rest of its line. -/
def directive : Scan Directive := do
  skip 1
  let name ← taking isNameChar
  if name.isEmpty || !atSpace (← rest) then fail
  let d : Directive ←
    match String.ofList name with
    | "YAML" => do
        spaces
        let major ← decimal
        match ← rest with
        | '.' :: _ => skip 1
        | _ => fail
        let _ ← decimal
        if !atSpace (← rest) then fail
        pure (.version major)
    | "TAG" => do
        spaces
        let handle ← tagHandle
        if (← rest).head? != some ' ' then fail
        spaces
        let stands ← tagUri
        if !atSpace (← rest) then fail
        pure (.handle handle stands)
    | _ => do
        let _ ← taking fun c => !isBreak c
        pure .other
  emptyLine
  return d

end VirtualTopology.Yaml
