import VirtualTopology.Text.Blank

/-!
# Whole numbers in text

Many scripts write decimal numbers with ten consecutive characters. `zeros` lists the first of
each such ten, and `digit?` reads a character as the number it stands for, whichever script it
belongs to. `asciiDigit?` knows the digits `0` to `9` only.

`integerIn?` reads a whole number the lenient way that environment variables and stored documents are
read: spaces around it, one sign, digits of any script with single underscores between them, and
before the digits the mark of their base, if it is two, eight or sixteen. A decimal number of more than
`digitLimit` digits is refused as too long, and the refusal says how many digits there were.

That limit holds for writing as well: `isWritable` says which integers have a decimal text.

`hex` writes a number in a fixed number of small hexadecimal digits.
-/

namespace VirtualTopology.Text

/-! ### Decimal digits -/

/-- The characters that stand for zero, one for each script (the property `Nd` of Unicode). -/
def zeros : List Nat :=
  [
   0x30, 0x660, 0x6f0, 0x7c0, 0x966, 0x9e6, 0xa66, 0xae6, 0xb66, 0xbe6,
   0xc66, 0xce6, 0xd66, 0xde6, 0xe50, 0xed0, 0xf20, 0x1040, 0x1090, 0x17e0,
   0x1810, 0x1946, 0x19d0, 0x1a80, 0x1a90, 0x1b50, 0x1bb0, 0x1c40, 0x1c50, 0xa620,
   0xa8d0, 0xa900, 0xa9d0, 0xa9f0, 0xaa50, 0xabf0, 0xff10, 0x104a0, 0x10d30, 0x11066,
   0x110f0, 0x11136, 0x111d0, 0x112f0, 0x11450, 0x114d0, 0x11650, 0x116c0, 0x11730, 0x118e0,
   0x11950, 0x11c50, 0x11d50, 0x11da0, 0x16a60, 0x16ac0, 0x16b50, 0x1d7ce, 0x1d7d8, 0x1d7e2,
   0x1d7ec, 0x1d7f6, 0x1e140, 0x1e2f0, 0x1e950, 0x1fbf0
  ]

/-- The value of a digit among `0` to `9`. -/
def asciiDigit? (c : Char) : Option Nat :=
  if 48 ≤ c.toNat ∧ c.toNat ≤ 57 then some (c.toNat - 48) else none

/-- The value of a decimal digit of any script. -/
def digit? (c : Char) : Option Nat :=
  if c.toNat < 128 then asciiDigit? c
  else (zeros.find? fun z => z ≤ c.toNat && c.toNat < z + 10).map (c.toNat - ·)

/-- A decimal digit of any script. -/
def isDigit (c : Char) : Bool := (digit? c).isSome

/-- The number that a list of digit values denotes, most significant first. -/
def ofDigits (ds : List Nat) : Nat := ds.foldl (fun n d => 10 * n + d) 0

theorem asciiDigit?_lt {c : Char} {d : Nat} (h : asciiDigit? c = some d) : d < 10 := by
  unfold asciiDigit? at h
  split at h <;> simp at h
  omega

theorem digit?_lt {c : Char} {d : Nat} (h : digit? c = some d) : d < 10 := by
  unfold digit? at h
  split at h
  · exact asciiDigit?_lt h
  · obtain ⟨z, hz, rfl⟩ := Option.map_eq_some_iff.1 h
    have := List.find?_some hz
    simp at this
    omega

/-! ### Numbers -/

/-- Why a text is not read as a whole number. -/
inductive NumeralError where
  | malformed
  | tooLong (digits : Nat)
  deriving Repr, DecidableEq

/-- The greatest number of decimal digits that is read or written. -/
def digitLimit : Nat := 4300

/-- Whether an integer has few enough digits to be written in decimal. -/
def isWritable (n : Int) : Bool := n.natAbs < Nat.pow 10 digitLimit

/-- The values of a run of digits in which single underscores may stand between two digits. -/
def grouped? (value? : Char → Option Nat) : List Char → Option (List Nat)
  | [] => none
  | [c] => (value? c).map ([·])
  | c :: '_' :: rest => do
      let d ← value? c
      let ds ← grouped? value? rest
      pure (d :: ds)
  | c :: rest => do
      let d ← value? c
      let ds ← grouped? value? rest
      pure (d :: ds)

/-- A leading sign (`true` for minus) and what follows it. -/
def splitSign : List Char → Bool × List Char
  | '-' :: cs => (true, cs)
  | '+' :: cs => (false, cs)
  | cs => (false, cs)

/-- The integer with the given sign and size. -/
def signed (negative : Bool) (n : Nat) : Int :=
  if negative then -(n : Int) else n

/-- The value of a hexadecimal digit, in either case. -/
def hexDigit? (c : Char) : Option Nat :=
  let n := c.toNat
  if 48 ≤ n ∧ n ≤ 57 then some (n - 48)
  else if 97 ≤ n ∧ n ≤ 102 then some (n - 87)
  else if 65 ≤ n ∧ n ≤ 70 then some (n - 55)
  else none

/-- The value of a digit below a base: a decimal digit of any script, or a letter from ten on. -/
def digitIn? (base : Nat) (c : Char) : Option Nat :=
  ((digit? c).or (hexDigit? c)).filter (· < base)

/-- The letter behind a zero that announces digits of a base. -/
def baseMark? (base : Nat) : Option Char :=
  match base with
  | 2 => some 'b'
  | 8 => some 'o'
  | 16 => some 'x'
  | _ => none

/-- What follows the mark of a base, if it is there; one underscore may stand behind it. -/
def dropBaseMark (base : Nat) : List Char → List Char
  | '0' :: c :: rest =>
      if baseMark? base == some c.toLower then
        match rest with
        | '_' :: rest => rest
        | rest => rest
      else '0' :: c :: rest
  | cs => cs

/-- Read a whole number in a base. The number of digits is looked at before what follows them. -/
def integerIn? (base : Nat) (s : String) : Except NumeralError Int :=
  let (negative, cs) := splitSign (trimBy isSpace s.toList)
  let cs := dropBaseMark base cs
  let isIn (c : Char) : Bool := (digitIn? base c).isSome || c == '_'
  match grouped? (digitIn? base) (cs.takeWhile isIn) with
  | none => .error .malformed
  | some ds =>
      if base = 10 ∧ digitLimit < ds.length then .error (.tooLong ds.length)
      else if cs.any (!isIn ·) then .error .malformed
      else .ok (signed negative (ds.foldl (fun n d => base * n + d) 0))

/-- Read a whole number in decimal digits. -/
def integer? (s : String) : Except NumeralError Int := integerIn? 10 s

/-- A hexadecimal digit, small letters. -/
def hexDigit (n : Nat) : Char :=
  if n < 10 then Char.ofNat (48 + n) else Char.ofNat (87 + n)

/-- The last `width` hexadecimal digits of a number. -/
def hex : (width : Nat) → Nat → List Char
  | 0, _ => []
  | width + 1, n => hex width (n / 16) ++ [hexDigit (n % 16)]

@[simp] theorem length_hex (width n : Nat) : (hex width n).length = width := by
  induction width generalizing n with
  | zero => rfl
  | succ w ih => simp [hex, ih]

end VirtualTopology.Text
