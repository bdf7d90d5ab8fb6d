import VirtualTopology.Number.Binary64
import VirtualTopology.Text.Blank
import VirtualTopology.Text.Numeral

/-!
# The decimal text of a floating point number

`shortest` finds the decimal with the fewest digits that reads back as the number, and of those the
nearest: the numbers that round to `m · 2 ^ e` form an interval, and on the grid of each power of ten
only the two neighbours of the value can be the nearest point inside it.

`Binary64.text` writes those digits: plainly while the point stands between the fourth place before
the first digit and the sixteenth behind it, and with an exponent of at least two digits otherwise.

`read?` reads decimals, infinities and the text for "not a number". The two readers
`Binary64.ofText?` and `Binary64.ofDataText?` differ in the digits and in the underscores they admit.
-/

namespace VirtualTopology.Decimal

/-! ### The shortest decimal -/

/-- Twice the mantissa and the two ends of the interval that rounds to `m · 2 ^ e`, all in halves
(quarters at a power of two, where the lower neighbour is nearer) of `2 ^ e`. -/
structure Interval where
  low : Nat
  value : Nat
  high : Nat
  /-- The power of two of one unit. -/
  exponent : Int
  /-- Whether the ends round to the number themselves. -/
  closed : Bool

/-- The interval of reals that round to `m · 2 ^ e`. -/
def interval (m : Nat) (e : Int) : Interval :=
  let narrow := m = 0x10000000000000 ∧ Binary64.leastExponent < e
  { low := 4 * m - (if narrow then 1 else 2)
    value := 4 * m
    high := 4 * m + 2
    exponent := e - 2
    closed := m % 2 == 0 }

/-- Whether `n · 10 ^ p` lies in the interval. -/
def Interval.contains (i : Interval) (n : Nat) (p : Int) : Bool :=
  -- both sides multiplied by what makes them whole
  let up (b : Nat) (x : Int) : Nat := if 0 ≤ x then Nat.pow b x.toNat else 1
  let down (b : Nat) (x : Int) : Nat := if x < 0 then Nat.pow b (-x).toNat else 1
  let point := n * up 10 p * down 2 i.exponent
  let edge (k : Nat) := k * up 2 i.exponent * down 10 p
  if i.closed then edge i.low ≤ point && point ≤ edge i.high
  else edge i.low < point && point < edge i.high

/-- The value as a quotient of whole numbers in units of `10 ^ p`. -/
def Interval.inUnits (i : Interval) (p : Int) : Nat × Nat :=
  let up (b : Nat) (x : Int) : Nat := if 0 ≤ x then Nat.pow b x.toNat else 1
  let down (b : Nat) (x : Int) : Nat := if x < 0 then Nat.pow b (-x).toNat else 1
  (i.value * up 2 i.exponent * down 10 p, up 10 p * down 2 i.exponent)

/-- The nearest multiple of `10 ^ p` inside the interval, if one of the two neighbours of the value
is inside. A tie goes to the even multiple. -/
def Interval.nearest? (i : Interval) (p : Int) : Option Nat :=
  let (num, den) := i.inUnits p
  let n := num / den
  let below := i.contains n p
  let above := i.contains (n + 1) p
  if below && above then
    let r := num % den
    if 2 * r < den then some n
    else if den < 2 * r then some (n + 1)
    else some (if n % 2 = 0 then n else n + 1)
  else if below then some n
  else if above then some (n + 1)
  else none

/-- The first power of ten, going down from `p`, whose grid has a point in the interval. -/
def Interval.search (i : Interval) : (steps : Nat) → (p : Int) → Nat × Int
  | 0, p => (i.inUnits p |> fun (n, d) => n / d, p)
  | steps + 1, p =>
      match i.nearest? p with
      | some n => if n = 0 then i.search steps (p - 1) else (n, p)
      | none => i.search steps (p - 1)

/-- The number of decimal digits of a positive whole number. -/
def width (n : Nat) : Nat := (Nat.toDigits 10 n).length

/-- The digits and the power of ten of the shortest decimal for `m · 2 ^ e`, `m > 0`. -/
def shortest (m : Nat) (e : Int) : Nat × Int :=
  let i := interval m e
  -- a power of ten above the value
  let top : Int := ((Nat.log2 m : Int) + e + 1) * 30103 / 100000 + 2
  let (n, p) := i.search 22 top
  -- digits that end in zero belong to a coarser grid
  let rec strip : Nat → Nat → Int → Nat × Int
    | 0, n, p => (n, p)
    | k + 1, n, p => if n % 10 = 0 then strip k (n / 10) (p + 1) else (n, p)
  strip 22 n p

/-! ### Writing -/

/-- Decisions of the written form. -/
structure Style where
  /-- The least decimal exponent (of the first digit) that is written plainly. -/
  plainFrom : Int
  /-- The first decimal exponent that is not written plainly any more. -/
  plainBelow : Int
  /-- The least number of digits of an exponent. -/
  exponentDigits : Nat

/-- Durations are written plainly from `0.0001` up to sixteen digits before the point, and whole
ones keep one zero behind it. -/
def durationStyle : Style := ⟨-4, 16, 2⟩

/-- A finite magnitude: its digits and the power of ten of the last one. -/
def Style.magnitude (style : Style) (n : Nat) (p : Int) : List Char :=
  let ds := Nat.toDigits 10 n
  let first : Int := p + ds.length - 1
  if style.plainFrom ≤ first ∧ first < style.plainBelow then
    if 0 ≤ p then ds ++ List.replicate p.toNat '0' ++ ['.', '0']
    else if 0 ≤ first then
      let whole := (first + 1).toNat
      ds.take whole ++ ['.'] ++ ds.drop whole
    else ['0', '.'] ++ List.replicate (-first - 1).toNat '0' ++ ds
  else
    let digits := Nat.toDigits 10 first.natAbs
    let padded := List.replicate (style.exponentDigits - digits.length) '0' ++ digits
    let tail := match ds with
      | d :: d' :: rest => d :: '.' :: d' :: rest
      | other => other
    tail ++ ['e', if first < 0 then '-' else '+'] ++ padded

/-- The text of a number in a style. -/
def Style.write (style : Style) : Binary64 → List Char
  | .notANumber => ['n', 'a', 'n']
  | .infinite negative => (if negative then ['-'] else []) ++ ['i', 'n', 'f']
  | .finite negative m e =>
      (if negative then ['-'] else []) ++
        if m = 0 then ['0', '.', '0']
        else
          let (n, p) := shortest m e
          style.magnitude n p

end VirtualTopology.Decimal

namespace VirtualTopology.Binary64

/-- The text of a number: the fewest digits that read back. -/
def text (x : Binary64) : String := String.ofList (Decimal.durationStyle.write x)

end VirtualTopology.Binary64

namespace VirtualTopology.Decimal

open Text

/-! ### Reading -/

/-- Digits up to the first character that is neither a digit nor an underscore between digits, and
the rest. -/
def splitDigits (value? : Char → Option Nat) : List Char → List Nat × List Char
  | [] => ([], [])
  | c :: cs =>
      match value? c with
      | none => ([], c :: cs)
      | some d =>
          match cs with
          | '_' :: rest =>
              match splitDigits value? rest with
              | ([], _) => ([d], cs)
              | (ds, tail) => (d :: ds, tail)
          | [] => ([d], [])
          | c' :: rest =>
              let (ds, tail) := splitDigits value? (c' :: rest)
              (d :: ds, tail)

/-- The words for what is not finite. -/
def special? (negative : Bool) (cs : List Char) : Option Binary64 :=
  match String.ofList (cs.map Char.toLower) with
  | "inf" | "infinity" => some (.infinite negative)
  | "nan" => some .notANumber
  | _ => none

/-- The exponent part: nothing, or the letter, an optional sign and digits. -/
def exponent? (value? : Char → Option Nat) : List Char → Option Int
  | [] => some 0
  | c :: cs =>
      if c = 'e' ∨ c = 'E' then
        let (negative, cs) := splitSign cs
        match splitDigits value? cs with
        | (d :: ds, []) => some (signed negative (ofDigits (d :: ds)))
        | _ => none
      else none

/-- Read a number without blanks around it: a sign, digits with at most one point among them (at
least one digit in all), and an optional exponent; or one of the words for what is not finite. -/
def read? (value? : Char → Option Nat) (cs : List Char) : Option Binary64 :=
  let (negative, cs) := splitSign cs
  match special? negative cs with
  | some x => some x
  | none =>
      let (whole, rest) := splitDigits value? cs
      let (fraction, rest) :=
        match rest with
        | '.' :: rest => splitDigits value? rest
        | rest => ([], rest)
      if whole.isEmpty && fraction.isEmpty then none
      else
        (exponent? value? rest).map fun e =>
          .ofDecimal negative (ofDigits (whole ++ fraction)) (e - fraction.length)

end VirtualTopology.Decimal

namespace VirtualTopology.Binary64

/-- Read a number with spaces around it, in the digits of any script, with single underscores between
digits. -/
def ofText? (s : String) : Option Binary64 :=
  Decimal.read? Text.digit? (Text.trimBy Text.isSpace s.toList)

/-- The characters without underscores, which stand neither at an end nor next to each other. -/
def withoutUnderscores? (cs : List Char) : Option (List Char) :=
  let words := cs.splitOn '_'
  if words.any (·.isEmpty) then none else some words.flatten

/-- Read a number inside structured data, in ASCII digits: one without underscores and with spaces
around it, or one with single underscores anywhere inside. -/
def ofDataText? (s : String) : Option Binary64 :=
  let plain? (cs : List Char) : Option Binary64 :=
    if cs.contains '_' then none else Decimal.read? Text.asciiDigit? cs
  (plain? (Text.trimBy Text.isSpace s.toList)).orElse fun _ =>
    (withoutUnderscores? s.toList).bind plain?

end VirtualTopology.Binary64
