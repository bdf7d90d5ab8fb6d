import VirtualTopology.Document.NameSpace

/-!
# Pieces of declarations

A declaration in a document type consists of names, literals and marks with white space between them
(`Piece.split?`). Marks need none, but what ends in a name, in a quote or in a closing parenthesis may be
followed by certain marks only.
-/

namespace VirtualTopology.Document

/-- A piece of a declaration. -/
inductive Piece where
  | name (text : String)
  | prefixedName (text : String)
  /-- Characters of names that are not a name. -/
  | nameToken (text : String)
  /-- A name with a mark behind it that says how often it may stand. -/
  | countedName
  /-- A name behind a number sign. -/
  | keyword (text : String)
  | literal (text : List Char)
  | percent
  | opening
  /-- A closing parenthesis, possibly with a mark that says how often the group may stand. -/
  | closing (mark : Option Char)
  | comma
  | bar
  deriving DecidableEq, Repr

namespace Piece

/-- The marks that say how often something may stand. -/
def isCount (c : Char) : Bool := c == '?' || c == '*' || c == '+'

/-- The piece that characters of names make. -/
def ofWord (word : List Char) : Piece :=
  let text := String.ofList word
  match splitAtColon word with
  | ([], local_) => if isName local_ then .name text else .nameToken text
  | (pre, local_) =>
      if isName pre && !local_.isEmpty && local_.all isNameChar then .prefixedName text
      else .nameToken text

/-- A piece with what follows it, which is white space, the end, or one of some marks. -/
def before? (marks : List Char) (piece : Piece) (rest : List Char) : Option (Piece × List Char) :=
  if rest.head?.all fun c => isWhite c || marks.contains c then some (piece, rest) else none

/-- The piece that begins with a character, and what follows it. -/
def first? (c : Char) (cs : List Char) : Option (Piece × List Char) :=
  if c = '(' then some (.opening, cs)
  else if c = ',' then some (.comma, cs)
  else if c = '|' then some (.bar, cs)
  else if c = ')' then
    if cs.head?.any isCount then some (.closing cs.head?, cs.drop 1)
    else before? [',', '|', ')'] (.closing none) cs
  else if c = '%' then before? ['%'] .percent cs
  else if c = '#' then
    let word := cs.takeWhile isNameChar
    if isName word then
      before? [')', '|', '%'] (.keyword (String.ofList word)) (cs.dropWhile isNameChar)
    else none
  else if c = '"' ∨ c = '\'' then
    match cs.dropWhile (· != c) with
    | [] => none
    | _ :: rest => before? ['%', '['] (.literal (cs.takeWhile (· != c))) rest
  else if continuesName c then
    let piece := ofWord (c :: cs.takeWhile continuesName)
    let rest := cs.dropWhile continuesName
    if rest.head?.any isCount then
      match piece with
      | .nameToken _ => none
      | _ => some (.countedName, rest.drop 1)
    else before? [')', ',', '|', '%', '['] piece rest
  else none

theorem length_dropWhile_le (p : Char → Bool) (cs : List Char) :
    (cs.dropWhile p).length ≤ cs.length :=
  (List.dropWhile_sublist p).length_le

theorem length_le_of_before? {marks : List Char} {piece p : Piece} {cs rest : List Char}
    (h : before? marks piece cs = some (p, rest)) : rest.length = cs.length := by
  unfold before? at h
  split at h
  · cases h
    rfl
  · cases h

/-- What follows a piece is not longer than what followed its first character. -/
theorem length_le_of_first? {c : Char} {cs rest : List Char} {p : Piece}
    (h : first? c cs = some (p, rest)) : rest.length ≤ cs.length := by
  have name := length_dropWhile_le continuesName cs
  have word := length_dropWhile_le isNameChar cs
  have quoted := length_dropWhile_le (· != c) cs
  unfold first? at h
  grind [length_le_of_before?]

/-- The pieces of a text, if it consists of pieces. -/
def split? : List Char → Option (List Piece)
  | [] => some []
  | c :: cs =>
      if isWhite c then split? cs
      else
        match h : first? c cs with
        | none => none
        | some (piece, rest) =>
            have : rest.length ≤ cs.length := length_le_of_first? h
            (split? rest).map (piece :: ·)
termination_by cs => cs.length

end Piece

end VirtualTopology.Document
