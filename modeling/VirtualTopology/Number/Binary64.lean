/-!
# Binary floating point numbers of 64 bits

Durations are binary floating point numbers, and both their text and their sums are observable.
A finite number is kept as a sign, a whole mantissa and a power of two, and every operation computes
the exact result in whole numbers and rounds it once (`Binary64.round`: to the nearest number, ties
to the even mantissa). So nothing here depends on the machine's arithmetic, and everything can be
evaluated by the kernel.

`round` returns the *normal form*: a mantissa of 53 bits, or the least exponent `-1074`. Equality
of normal forms is equality of numbers, the sign of zero included.
-/

namespace VirtualTopology

/-- A floating point number. A finite one is `± mantissa · 2 ^ exponent`. -/
inductive Binary64 where
  | finite (negative : Bool) (mantissa : Nat) (exponent : Int)
  | infinite (negative : Bool)
  | notANumber
  deriving Repr, DecidableEq, Inhabited

namespace Binary64

/-- The least exponent of two. -/
def leastExponent : Int := -1074

/-- The greatest exponent of two. -/
def greatestExponent : Int := 971

/-- Round a quotient to the nearest whole number, a tie to the even one. -/
def roundQuotient (num den : Nat) : Nat :=
  let q := num / den
  let r := num % den
  if 2 * r < den then q
  else if den < 2 * r then q + 1
  else if q % 2 = 0 then q else q + 1

/-- `num / den / 2 ^ e` as a quotient of whole numbers. -/
def scaled (num den : Nat) (e : Int) : Nat × Nat :=
  if 0 ≤ e then (num, den * Nat.pow 2 e.toNat) else (num * Nat.pow 2 (-e).toNat, den)

/-- The exponent at which the mantissa of `num / den` has 53 bits, but not below the least. -/
def exponentFor (num den : Nat) : Int :=
  let guess : Int := (Nat.log2 num : Int) - (Nat.log2 den : Int) - 52
  let (n, d) := scaled num den guess
  let e := if n < d * 0x10000000000000 then guess - 1 else guess
  max leastExponent e

/-- The floating point number nearest to `± num / den`, a tie going to the even mantissa. -/
def round (negative : Bool) (num den : Nat) : Binary64 :=
  if num = 0 then finite negative 0 leastExponent
  else
    let e := exponentFor num den
    let (n, d) := scaled num den e
    let m := roundQuotient n d
    let (m, e) := if m = 0x20000000000000 then (0x10000000000000, e + 1) else (m, e)
    if greatestExponent < e then infinite negative else finite negative m e

/-- Zero without a sign. -/
def zero : Binary64 := finite false 0 leastExponent

/-- The number nearest to an integer. -/
def ofInt (i : Int) : Binary64 := round (decide (i < 0)) i.natAbs 1

/-- The number nearest to an integer, if the integer is not beyond all finite numbers. -/
def ofInt? (i : Int) : Option Binary64 :=
  match ofInt i with
  | infinite _ => none
  | x => some x

/-- `± digits · 10 ^ exponent`, rounded. Exponents so large or small that the result is infinite or
zero whatever the digits are settled without computing the power. -/
def ofDecimal (negative : Bool) (digits : Nat) (exponent : Int) : Binary64 :=
  if digits = 0 then finite negative 0 leastExponent
  else
    let magnitude : Int := (Nat.log2 digits : Int) / 3 + 1 + exponent
    if 1000 < exponent then infinite negative
    else if magnitude < -400 then finite negative 0 leastExponent
    else if 0 ≤ exponent then round negative (digits * Nat.pow 10 exponent.toNat) 1
    else round negative digits (Nat.pow 10 (-exponent).toNat)

/-- The exact value of a finite number as an integer multiple of `2 ^ leastExponent`. -/
def units? : Binary64 → Option Int
  | finite negative m e =>
      let n : Int := m * Nat.pow 2 (e - leastExponent).toNat
      some (if negative then -n else n)
  | _ => none

/-- The number nearest to `n · 2 ^ leastExponent`. -/
def ofUnits (n : Int) : Binary64 :=
  round (decide (n < 0)) n.natAbs (Nat.pow 2 (-leastExponent).toNat)

/-- Whether a number is below another; false if one of them is not a number. -/
def lt : Binary64 → Binary64 → Bool
  | notANumber, _ | _, notANumber => false
  | infinite a, infinite b => a && !b
  | infinite a, finite .. => a
  | finite .., infinite b => !b
  | a@(finite ..), b@(finite ..) =>
      match a.units?, b.units? with
      | some x, some y => decide (x < y)
      | _, _ => false

/-- Whether a number is at most another; false if one of them is not a number. -/
def le : Binary64 → Binary64 → Bool
  | notANumber, _ | _, notANumber => false
  | a, b => !b.lt a

/-- The lesser of two numbers, the first if neither is below the other. -/
def least (a b : Binary64) : Binary64 := if b.lt a then b else a

/-- The sum, rounded. -/
def add : Binary64 → Binary64 → Binary64
  | notANumber, _ | _, notANumber => notANumber
  | infinite a, infinite b => if a = b then infinite a else notANumber
  | infinite a, _ | _, infinite a => infinite a
  | a@(finite n₁ m₁ _), b@(finite n₂ m₂ _) =>
      -- two zeros of one sign keep it
      if m₁ = 0 ∧ m₂ = 0 then finite (n₁ && n₂) 0 leastExponent
      else
        match a.units?, b.units? with
        | some x, some y => ofUnits (x + y)
        | _, _ => notANumber

/-- The number with the opposite sign. -/
def negate : Binary64 → Binary64
  | finite negative m e => finite (!negative) m e
  | infinite negative => infinite (!negative)
  | notANumber => notANumber

/-- The difference, rounded. -/
def sub (a b : Binary64) : Binary64 := a.add b.negate

/-- The product, rounded. -/
def mul : Binary64 → Binary64 → Binary64
  | notANumber, _ | _, notANumber => notANumber
  | infinite a, infinite b => infinite (a != b)
  | infinite a, finite b m _ | finite b m _, infinite a =>
      if m = 0 then notANumber else infinite (a != b)
  | finite a m e, finite b n f =>
      let (num, den) := scaled (m * n) 1 (-(e + f))
      round (a != b) num den

/-- The integer a number is equal to, if there is one. -/
def toInt? : Binary64 → Option Int
  | finite negative m e =>
      let n? : Option Nat :=
        if 0 ≤ e then some (m * Nat.pow 2 e.toNat)
        else if m % Nat.pow 2 (-e).toNat = 0 then some (m / Nat.pow 2 (-e).toNat) else none
      n?.map fun n => if negative then -(n : Int) else n
  | _ => none

/-- Whether a number is a zero of either sign. -/
def isZero : Binary64 → Bool
  | finite _ m _ => m == 0
  | _ => false

/-- The least whole number that is not below a finite number; zero for negative numbers and for
what is not finite. -/
def ceilNat : Binary64 → Nat
  | finite false m e =>
      if 0 ≤ e then m * Nat.pow 2 e.toNat else (m + Nat.pow 2 (-e).toNat - 1) / Nat.pow 2 (-e).toNat
  | _ => 0

end Binary64

end VirtualTopology
