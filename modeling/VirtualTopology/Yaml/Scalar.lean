import VirtualTopology.Data.Basic
import VirtualTopology.Text.Letter
import VirtualTopology.Yaml.Tag

/-!
# The values of scalars

`Tag.valueOf` is the value that a text stands for under a tag. A tag that is written out may stand before
a text that does not have the form of its values, so every tag has its own way to refuse one.

Octets are written in text as characters of six bits each, four characters for three octets, with
padding at the end. Characters outside the alphabet are passed over, and so is what follows the
padding; an incomplete group of four is refused.
-/

namespace VirtualTopology.Yaml

/-! ### Octets -/

/-- The six bits of a character. -/
def sixBits? (c : Char) : Option Nat :=
  let n := c.toNat
  if 65 ≤ n && n ≤ 90 then some (n - 65)
  else if 97 ≤ n && n ≤ 122 then some (n - 71)
  else if 48 ≤ n && n ≤ 57 then some (n + 4)
  else if c == '+' then some 62
  else if c == '/' then some 63
  else none

/-- Read octets, given the characters of the present group that have been read, as a number, how many
they are, and how much padding has been seen directly before. -/
def octetsFrom? (bits : Nat) (count : Nat) (padding : Nat) : List Char → Option (List UInt8)
  | [] => if count == 0 then some [] else none
  | '=' :: rest =>
      if 2 ≤ count && 4 ≤ count + padding + 1 then some []
      else octetsFrom? bits count (if 2 ≤ count then padding + 1 else padding) rest
  | c :: rest =>
      match sixBits? c with
      | none => octetsFrom? bits count padding rest
      | some n =>
          let bits := bits * 64 + n
          match count with
          | 0 => octetsFrom? n 1 0 rest
          | 1 => ((bits / 16).toUInt8 :: ·) <$> octetsFrom? (bits % 16) 2 0 rest
          | 2 => ((bits / 4).toUInt8 :: ·) <$> octetsFrom? (bits % 4) 3 0 rest
          | _ => (bits.toUInt8 :: ·) <$> octetsFrom? 0 0 0 rest

/-- The octets of a text. Nothing if a character is outside ASCII or a group is incomplete. -/
def octets? (s : String) : Option (List UInt8) :=
  if s.toList.all (·.toNat < 128) then octetsFrom? 0 0 0 s.toList else none

/-- What a numeral names, where a refusal is a flaw. -/
def numeral {α : Type} (r : Except NumeralRefusal α) : Except Flaw α :=
  r.mapError fun e => .unnameable (.numeral e)

/-! ### Integers -/

/-- The value of an integer: the mark before the digits gives the base, and colons stand between the
digits of base sixty. Underscores do not count. -/
def integerValue (text : String) : Except Flaw Int := do
  let (negative, digits) := Text.splitSign (text.toList.filter (· != '_'))
  let apply (n : Int) : Int := if negative then -n else n
  match digits with
  | [] => throw .noDigits
  | ['0'] => return 0
  | '0' :: 'b' :: rest => return apply (← numeral (wholeIntegerIn 2 (String.ofList rest)))
  | '0' :: 'x' :: rest => return apply (← numeral (wholeIntegerIn 16 (String.ofList rest)))
  | '0' :: _ => return apply (← numeral (wholeIntegerIn 8 (String.ofList digits)))
  | _ =>
      let parts ← (PlainForm.parts digits).mapM fun p =>
        numeral (wholeInteger (String.ofList p))
      return apply (parts.foldl (fun n d => 60 * n + d) 0)

/-! ### Numbers -/

/-- The characters of a number in small letters and without underscores. -/
def numberChars (text : String) : List Char :=
  (Text.lower (String.ofList (text.toList.filter (· != '_')))).toList

/-- The sum of numbers in base sixty, the last one first. -/
def sixtieths : (unit : Nat) → (sum : Binary64) → List Binary64 → Except Flaw Binary64
  | _, sum, [] => .ok sum
  | unit, sum, x :: xs =>
      match Binary64.ofInt? unit with
      | some u => sixtieths (60 * unit) (sum.add (x.mul u)) xs
      | none => .error .tooLarge

/-- The word for what is not a number. -/
def nanWord : List Char := ".nan".toList

/-- The value of a number. -/
def numberValue (text : String) : Except Flaw Binary64 := do
  let cs := numberChars text
  if cs.isEmpty then throw .noDigits
  let (negative, digits) := Text.splitSign cs
  let apply (x : Binary64) : Binary64 := if negative then x.negate else x
  if digits == ".inf".toList then return apply (.infinite false)
  if digits == nanWord then return .notANumber
  match PlainForm.parts digits with
  | [_] => return apply (← numeral (wholeNumber (String.ofList digits)))
  | parts =>
      let xs ← parts.mapM fun p => numeral (wholeNumber (String.ofList p))
      return apply (← sixtieths 1 .zero xs.reverse)

/-! ### All scalars -/

/-- Whether values under a tag are scalars. -/
def Tag.isOfScalars (t : Tag) : Bool :=
  [.null, .bool, .integer, .number, .octets, .moment, .text].contains t

/-- The value that a text stands for under a tag. -/
def Tag.valueOf (tag : Tag) (text : String) : Except Flaw Scalar :=
  match tag with
  | .null => .ok .null
  | .bool => ((truthWords.lookup (Text.lower text)).map Scalar.bool).elim (.error .noTruth) .ok
  | .integer => .int <$> integerValue text
  | .number => .float <$> numberValue text
  | .octets => ((octets? text).map Scalar.octets).elim (.error .malformed) .ok
  | .moment =>
      match WrittenMoment.read? text.toList with
      | some m => (Scalar.moment <$> checkedMoment m).mapError .unnameable
      | none => .error .noMoment
  | .text => .ok (.text text)
  | _ => .error .malformed

end VirtualTopology.Yaml
