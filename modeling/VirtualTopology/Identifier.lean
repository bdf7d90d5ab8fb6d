import VirtualTopology.Digest
import VirtualTopology.Resource
import VirtualTopology.Text.Numeral

/-!
# Identifiers

Networks, pools and domains carry an identifier of 128 bits. One that is not declared is derived
from the kind and the name of the resource (`Identifier.derive`), so that it is the same in every
pass.

An identifier is written as 32 small hexadecimal digits in five groups (`Identifier.text`) and read
in four spellings (`Identifier.ofText?`): in groups, without hyphens, in groups between braces, and
in groups behind `urn:uuid:`.
-/

namespace VirtualTopology

/-- A universally unique identifier. -/
structure Identifier where
  bits : BitVec 128
  deriving Repr, DecidableEq

namespace Identifier

open Text

/-- The sizes of the five groups of digits. -/
def groups : List Nat := [8, 4, 4, 4, 12]

/-- Put a hyphen between consecutive groups of digits. -/
def hyphenate : List Nat → List Char → List Char
  | [], ds => ds
  | [_], ds => ds
  | n :: ns, ds => ds.take n ++ '-' :: hyphenate ns (ds.drop n)

/-- The written form: five groups of small hexadecimal digits. -/
def text (i : Identifier) : String :=
  String.ofList (hyphenate groups (hex 32 i.bits.toNat))

/-- The value of a list of hexadecimal digits. -/
def digits? (cs : List Char) : Option (List Nat) := cs.mapM hexDigit?

/-- Take the hyphens out of a grouped text; `none` if one is not where it belongs. -/
def ungroup? : List Nat → List Char → Option (List Char)
  | [], cs => if cs.isEmpty then some [] else none
  | [n], cs => if cs.length = n then some cs else none
  | n :: ns, cs =>
      match cs.drop n with
      | '-' :: rest => (ungroup? ns rest).map (cs.take n ++ ·)
      | _ => none

/-- The identifier with the given hexadecimal digits. -/
def ofDigits? (cs : List Char) : Option Identifier :=
  if cs.length = 32 then
    (digits? cs).map fun ds => ⟨BitVec.ofNat 128 (ds.foldl (fun n d => 16 * n + d) 0)⟩
  else none

/-- The identifier of a text in groups. -/
def ofGroups? (cs : List Char) : Option Identifier :=
  (ungroup? groups cs).bind ofDigits?

/-- Read an identifier in one of its four spellings. -/
def ofText? (s : String) : Option Identifier :=
  let cs := s.toList
  match cs with
  | '\x7b' :: rest => if rest.getLast? = some '\x7d' then ofGroups? rest.dropLast else none
  | _ =>
      let urn := "urn:uuid:".toList
      if urn.isPrefixOf cs then ofGroups? (cs.drop urn.length)
      else if cs.length = 32 then ofDigits? cs
      else ofGroups? cs

/-- The octets of an identifier. -/
def toOctets (i : Identifier) : List UInt8 := Digest.octets 16 i.bits.toNat

/-- The identifier with the given sixteen octets. -/
def ofOctets (os : List UInt8) : Identifier :=
  ⟨BitVec.ofNat 128 (os.foldl (fun n o => 256 * n + o.toNat) 0)⟩

/-- The name space of derived identifiers. -/
def nameSpace : Identifier := ⟨0x6f1c2e0a3b8d4c579a410d9e7b52c3f8#128⟩

/-- Mark sixteen octets as a derived identifier: version five, standard variant. -/
def brand : List UInt8 → List UInt8 := List.zipWith (fun i o =>
  if i = 6 then (o &&& 0x0f) ||| 0x50
  else if i = 8 then (o &&& 0x3f) ||| 0x80
  else o) (List.range 16)

/-- The identifier of a resource that declares none, derived from its kind and name. -/
def derive (kind : ResourceKind) (name : String) : Identifier :=
  let label := kind.word ++ "/" ++ name
  ofOctets (brand (Digest.sha1 (nameSpace.toOctets ++ label.toUTF8.toList)))

end Identifier

end VirtualTopology
