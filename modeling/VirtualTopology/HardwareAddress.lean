import VirtualTopology.Digest
import VirtualTopology.Text.Letter
import VirtualTopology.Text.Numeral

/-!
# Hardware addresses of interfaces

`accepts` recognises six pairs of small hexadecimal digits with colons between them; one line break
behind them is let through. `derive` gives an interface without a declared address one that depends
only on the identifier of its domain and on its place among the interfaces.
-/

namespace VirtualTopology.HardwareAddress

open Text

/-- A digit or one of the letters `a` to `f`. -/
def isSmallHex (c : Char) : Bool :=
  (48 ≤ c.toNat && c.toNat ≤ 57) || (97 ≤ c.toNat && c.toNat ≤ 102)

/-- `pairs` more pairs of digits after the first, each behind a colon, then nothing or one line
break. -/
def acceptsPairs : (pairs : Nat) → List Char → Bool
  | 0, [a, b] => isSmallHex a && isSmallHex b
  | 0, [a, b, '\n'] => isSmallHex a && isSmallHex b
  | n + 1, a :: b :: ':' :: rest => isSmallHex a && isSmallHex b && acceptsPairs n rest
  | _, _ => false

/-- Whether a text in small letters is a hardware address. -/
def accepts (cs : List Char) : Bool := acceptsPairs 5 cs

/-- The prefix of derived addresses. -/
def vendor : List Char := "52:54:00".toList

/-- The address of the interface at a place, derived from a seed. -/
def derive (seed : String) (index : Int) : String :=
  let digest := Digest.sha256 (seed ++ "/" ++ toString index).toUTF8.toList
  String.ofList (vendor ++ (digest.take 3).flatMap fun o => ':' :: hex 2 o.toNat)

end VirtualTopology.HardwareAddress
