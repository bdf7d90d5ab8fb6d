import VirtualTopology.Data.Checked

/-!
# Quantities

A size is a count of units. It is given as a record of both, or as a text: blanks, decimal digits of
any script, blanks, the word for the unit (bytes if there is none), blanks (`Quantity.shorthand?`).

Documents need a size in bytes or in KiB; the number of KiB is rounded up, so that a size never
shrinks.
-/

namespace VirtualTopology

/-- A unit of size. -/
inductive SizeUnit where
  | bytes
  | KiB
  | MiB
  | GiB
  | TiB
  | KB
  | MB
  | GB
  | TB
  deriving Repr, DecidableEq, Inhabited

namespace SizeUnit

/-- All units. -/
def all : List SizeUnit := [bytes, KiB, MiB, GiB, TiB, KB, MB, GB, TB]

/-- The word for a unit. -/
def word : SizeUnit → String
  | bytes => "bytes"
  | KiB => "KiB"
  | MiB => "MiB"
  | GiB => "GiB"
  | TiB => "TiB"
  | KB => "KB"
  | MB => "MB"
  | GB => "GB"
  | TB => "TB"

/-- The number of bytes in a unit. -/
def size : SizeUnit → Nat
  | bytes => 1
  | KiB => 1024
  | MiB => 1024 * 1024
  | GiB => 1024 * 1024 * 1024
  | TiB => 1024 * 1024 * 1024 * 1024
  | KB => 1000
  | MB => 1000 * 1000
  | GB => 1000 * 1000 * 1000
  | TB => 1000 * 1000 * 1000 * 1000

/-- The unit that a word names. -/
def ofWord? (s : String) : Option SizeUnit := all.find? (·.word == s)

end SizeUnit

/-- A count of units. -/
structure Quantity where
  count : Nat
  unit : SizeUnit
  deriving Repr, DecidableEq, Inhabited

namespace Quantity

open Text

/-- The size in bytes. -/
def toBytes (q : Quantity) : Nat := q.count * q.unit.size

/-- The size in KiB, rounded up. -/
def toKiB (q : Quantity) : Nat := (q.toBytes + 1023) / 1024

/-- The count and the unit with a space between them. -/
def text (q : Quantity) : String := toString q.count ++ " " ++ q.unit.word

/-- A letter among `A` to `Z` and `a` to `z`. -/
def isLetter (c : Char) : Bool :=
  (65 ≤ c.toNat && c.toNat ≤ 90) || (97 ≤ c.toNat && c.toNat ≤ 122)

/-- The digits and the letters of a quantity written as a text. -/
def shorthand? (cs : List Char) : Option (List Nat × List Char) :=
  let cs := cs.dropWhile isBlank
  let digits := (cs.takeWhile isDigit).filterMap digit?
  let cs := (cs.dropWhile isDigit).dropWhile isBlank
  let letters := cs.takeWhile isLetter
  let rest := (cs.dropWhile isLetter).dropWhile isBlank
  if digits.isEmpty || !rest.isEmpty then none else some (digits, letters)

/-- Read a quantity written as a text. -/
def ofText (s : String) : Checked Quantity :=
  match shorthand? s.toList with
  | none => .fault (.objection (.quantity s))
  | some (digits, letters) =>
      if digitLimit < digits.length then
        .fault (.objection (.quantityTooLong digits.length))
      else
        let unit? :=
          if letters.isEmpty then some .bytes else SizeUnit.ofWord? (String.ofList letters)
        match unit? with
        | some unit => .valid ⟨ofDigits digits, unit⟩
        | none => .invalid [⟨.notAmong, [.key "unit"]⟩]

/-- The reading of a unit. -/
def unitReading : Reading SizeUnit := Reading.among (SizeUnit.all.map fun u => (u.word, u))

/-- The reading of a quantity: a text, or a record of count and unit. -/
def reading : Reading Quantity
  | .scalar (.text s) => ofText s
  | d => Reading.record (fun m => Reading.sealed ["count", "unit"] m
      (Quantity.mk <$> Reading.required m "count" Reading.natural
        <*> Reading.defaulted m "unit" .GiB unitReading)) d

/-- The record of a quantity. -/
def dump (q : Quantity) : Data :=
  .record [("count", .int q.count), ("unit", .text q.unit.word)]

end Quantity

end VirtualTopology
