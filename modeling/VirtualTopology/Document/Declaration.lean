import VirtualTopology.Document.Character

/-!
# The declaration of a document

A document may begin with a byte order mark, and behind it with a declaration that says which version
of the format it has, in which encoding it is written and whether it stands alone. `dropDeclaration?`
takes a declaration off that is in order. Only whether the document stands alone makes a difference,
because the document is a text already.
-/

namespace VirtualTopology.Document

/-- The quoted values of an XML declaration, with their names: each behind white space, with an
equals sign that may have white space around it. -/
def pseudoAttributes? : (fuel : Nat) → List Char → Option (List (List Char × List Char))
  | 0, _ => none
  | fuel + 1, cs =>
      match cs with
      | [] => some []
      | c :: _ =>
          let cs := cs.dropWhile isWhite
          if cs.isEmpty then some []
          else if !isWhite c then none
          else
            let name := cs.takeWhile isNameChar
            match (cs.dropWhile isNameChar).dropWhile isWhite with
            | '=' :: cs =>
                match cs.dropWhile isWhite with
                | q :: cs =>
                    if q = '"' ∨ q = '\'' then
                      let value := cs.takeWhile (· != q)
                      match cs.dropWhile (· != q) with
                      | _ :: cs =>
                          if value.all fun c => c.toNat < 128 && isNameChar c then
                            (pseudoAttributes? fuel cs).map ((name, value) :: ·)
                          else none
                      | [] => none
                    else none
                | [] => none
            | _ => none

/-- Whether the attributes of an XML declaration say that the document stands alone; `none` if they are
not in order: a version, then possibly an encoding, then possibly whether it stands alone. -/
def standsAlone? (attributes : List (List Char × List Char)) : Option Bool :=
  let behindEncoding : List (List Char × List Char) → Option Bool
    | [] => some false
    | [(name, value)] =>
        if name != "standalone".toList then none
        else if value == "yes".toList then some true
        else if value == "no".toList then some false
        else none
    | _ => none
  match attributes with
  | (version, _) :: (name, value) :: rest =>
      if version != "version".toList then none
      else if name == "encoding".toList && value.head?.any Char.isAlpha then behindEncoding rest
      else behindEncoding ((name, value) :: rest)
  | [(version, _)] => if version == "version".toList then some false else none
  | [] => none

/-- The text up to the end of an instruction, and what follows it. -/
def splitInstruction? : List Char → Option (List Char × List Char)
  | '?' :: '>' :: rest => some ([], rest)
  | c :: cs => (splitInstruction? cs).map fun p => (c :: p.1, p.2)
  | [] => none

/-- Take off an XML declaration, and tell whether the document stands alone; `none` if it is there but
not in order. -/
def dropDeclaration? (cs : List Char) : Option (Bool × List Char) :=
  let word := "<?xml".toList
  if word.isPrefixOf cs && (((cs.drop 5).head?.map isWhite).getD false) then do
    let (body, rest) ← splitInstruction? (cs.drop 5)
    let attributes ← pseudoAttributes? (body.length + 1) body
    return (← standsAlone? attributes, rest)
  else some (false, cs)

/-- Take off a byte order mark. -/
def dropMark : List Char → List Char
  | c :: cs => if c.toNat = 0xfeff then cs else c :: cs
  | [] => []

end VirtualTopology.Document
