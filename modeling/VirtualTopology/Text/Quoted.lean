import VirtualTopology.Text.Numeral
import VirtualTopology.Text.Printable

/-!
# Quoted text

Messages show a name between quotes. Single quotes are used unless the name holds a single quote
and no double quote. Inside, the backslash and the quote itself are escaped by a backslash, and
every character that is not printable is written by its number, in the shortest of the forms
`\xNN`, `\uNNNN` and `\UNNNNNNNN`. Octets are shown in the same way, as if each were the character
with its number (`quotedOctets`), but only ASCII counts as printable there.

A character outside the basic plane is sometimes given as a pair of code units from the range
`0xd800` to `0xdfff`. One of the two by itself is no character, but data may name one by its number,
and such a text can be passed on, although it has no octets. A half stands in a text as a character for
private use that is `halfOffset` further on (`ofCodePoint`), so that texts are sequences of characters all
the same. Where a text is shown or written, a half has its own number again (`codePoint`).
-/

namespace VirtualTopology.Text

/-! ### Halves of pairs -/

/-- The distance between a half and the character that stands for it. -/
def halfOffset : Nat := 0x100000

/-- Whether a number is that of half of a pair. -/
def isHalfNumber (n : Nat) : Bool := 0xd800 ≤ n && n < 0xe000

/-- Whether a character stands for half of a pair. -/
def isHalf (c : Char) : Bool := halfOffset ≤ c.toNat && isHalfNumber (c.toNat - halfOffset)

/-- The character with a number; halves have one that stands for them. -/
def ofCodePoint (n : Nat) : Char := Char.ofNat (if isHalfNumber n then n + halfOffset else n)

/-- The number of a character or of the half that it stands for. -/
def codePoint (c : Char) : Nat := if isHalf c then c.toNat - halfOffset else c.toNat

/-- Whether a text holds half of a pair; then it has no octets. -/
def holdsHalf (s : String) : Bool := s.toList.any isHalf

/-- A text with three marks of replacement in the place of each half, one for each octet that a character
of its size takes. -/
def withoutHalves (s : String) : String :=
  String.ofList (s.toList.flatMap fun c =>
    if isHalf c then List.replicate 3 (Char.ofNat 0xfffd) else [c])

theorem toNat_ofNat_of_isValidChar {n : Nat} (h : n.isValidChar) : (Char.ofNat n).toNat = n := by
  rw [Char.ofNat, dif_pos h]
  rfl

theorem codePoint_ofCodePoint {n : Nat} (h : isHalfNumber n = true) :
    codePoint (ofCodePoint n) = n := by
  have bounds : 0xd800 ≤ n ∧ n < 0xe000 := by simpa [isHalfNumber] using h
  have back : (Char.ofNat (n + halfOffset)).toNat = n + halfOffset :=
    toNat_ofNat_of_isValidChar (by simp only [Nat.isValidChar, halfOffset]; omega)
  rw [codePoint, ofCodePoint, if_pos h, isHalf, back]
  simp [h]

/-! ### Quotes -/

/-- The mark that encloses a text. -/
def quoteMark (cs : List Char) : Char :=
  if cs.contains '\'' && !cs.contains '"' then '"' else '\''

/-- The number of a character behind the escape letter of its width. -/
def numberEscape (c : Char) : List Char :=
  let n := codePoint c
  if n < 0x100 then ['\\', 'x'] ++ hex 2 n
  else if n < 0x10000 then ['\\', 'u'] ++ hex 4 n
  else ['\\', 'U'] ++ hex 8 n

/-- A character as it stands between the marks `mark`; `isShown` says which stand for themselves. -/
def quotedChar (isShown : Char → Bool) (mark c : Char) : List Char :=
  if c = mark ∨ c = '\\' then ['\\', c]
  else if c = '\n' then ['\\', 'n']
  else if c = '\t' then ['\\', 't']
  else if c = '\r' then ['\\', 'r']
  else if isShown c then [c]
  else numberEscape c

/-- Characters between quotes. -/
def quotedChars (isShown : Char → Bool) (cs : List Char) : List Char :=
  let mark := quoteMark cs
  mark :: cs.flatMap (quotedChar isShown mark) ++ [mark]

/-- A text between quotes. -/
def quoted (s : String) : String := String.ofList (quotedChars isPrintable s.toList)

/-- Octets between quotes, behind the letter that marks them. -/
def quotedOctets (os : List UInt8) : String :=
  "b" ++ String.ofList
    (quotedChars (fun c => ' ' ≤ c && c ≤ '~') (os.map fun o => Char.ofNat o.toNat))

end VirtualTopology.Text
