import VirtualTopology.Document.Character

/-!
# Name spaces

A name in a document may have a prefix, which stands for the address of a name space. An attribute
`xmlns` declares the default name space of elements, and `xmlns:p` declares the prefix `p`, for the
element itself and everything inside it (`declare?`).

A name in a name space is replaced by the address between braces followed by the local name
(`expanded`), so that two names are the same exactly if they mean the same.
-/

namespace VirtualTopology.Document

/-- The prefixes in scope and the addresses they stand for; the empty prefix is the default. -/
abbrev Scope := List (List Char × String)

/-- An address that the standard of name spaces reserves, given by the names on its path. -/
def reservedAddress (path : List String) : String :=
  "/".intercalate (["http:", "", ".".intercalate ["www", "w3", "org"]] ++ path)

/-- The address to which the prefix `xml` belongs. -/
def xmlAddress : String := reservedAddress ["XML", "1998", "namespace"]

/-- The address of name space declarations, which no prefix may be bound to. -/
def declarationAddress : String := reservedAddress ["2000", "xmlns", ""]

/-- Whether characters are a name without a prefix. -/
def isName : List Char → Bool
  | [] => false
  | c :: cs => isNameStart c && cs.all isNameChar

/-- What stands before the first colon of a name, and what stands behind it; all of a name without a
colon stands behind. -/
def splitAtColon (name : List Char) : List Char × List Char :=
  match name.dropWhile (· != ':') with
  | [] => ([], name)
  | _ :: rest => (name.takeWhile (· != ':'), rest)

/-- Whether characters are a name as it may be written in a tag: there is at most one colon, and what
stands on its sides are names. -/
def isWrittenName (cs : List Char) : Bool :=
  let (pre, rest) := splitAtColon cs
  isName rest && (isName pre || !cs.contains ':')

/-- A local name in a name space. -/
def expanded (address : String) (name : List Char) : String :=
  if address.isEmpty then String.ofList name
  else "\x7b" ++ address ++ "\x7d" ++ String.ofList name

/-- The name of an element in a scope. -/
def elementName? (scope : Scope) (name : List Char) : Option String := do
  let (pre, rest) := splitAtColon name
  if pre.isEmpty then pure (expanded ((scope.lookup []).getD "") rest)
  else pure (expanded (← scope.lookup pre) rest)

/-- The name of an attribute in a scope; the default name space does not apply. -/
def attributeName? (scope : Scope) (name : List Char) : Option String := do
  let (pre, rest) := splitAtColon name
  if pre.isEmpty then pure (String.ofList rest)
  else pure (expanded (← scope.lookup pre) rest)

/-- The prefix that an attribute declares, if it is a declaration. -/
def declaredPrefix? (name : List Char) : Option (List Char) :=
  let word := "xmlns".toList
  if name == word then some []
  else if (word ++ [':']).isPrefixOf name then some (name.drop 6)
  else none

/-- Whether a prefix may be bound to an address. -/
def mayBind (pre : List Char) (address : String) : Bool :=
  if pre == "xmlns".toList then false
  else if pre == "xml".toList then address == xmlAddress
  else address != xmlAddress && address != declarationAddress && !address.toList.contains '\x7d' &&
    (pre.isEmpty || !address.isEmpty)

/-- Attributes with their names as they are written. -/
abbrev RawAttributes := List (List Char × String)

/-- Add the declarations among the attributes to a scope. -/
def declare? (scope : Scope) : RawAttributes → Option Scope
  | [] => some scope
  | (name, value) :: rest =>
      match declaredPrefix? name with
      | none => declare? scope rest
      | some pre => if mayBind pre value then declare? ((pre, value) :: scope) rest else none

/-- The attributes that are not declarations, with their names resolved. -/
def resolve? (scope : Scope) (raw : RawAttributes) : Option (List (String × String)) :=
  (raw.filter fun a => (declaredPrefix? a.1).isNone).mapM fun a =>
    (attributeName? scope a.1).map (·, a.2)

/-- Whether no name is given twice. -/
def distinct {α : Type} [BEq α] : List α → Bool
  | [] => true
  | a :: as => !as.contains a && distinct as

end VirtualTopology.Document
