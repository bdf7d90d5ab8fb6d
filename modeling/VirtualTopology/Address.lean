import VirtualTopology.Text.Numeral

/-!
# Internet addresses and subnets

An address is 32 bits, written as four decimal numbers with points between them. A netmask is an
address too; it stands for a prefix length when it is a run of ones followed by zeros, and failing
that when it is a run of zeros followed by ones (`prefixLength?`). A `Subnet` is a prefix length
with the address that has only zeros behind the prefix.
-/

namespace VirtualTopology

/-- An internet address of 32 bits. -/
structure Address where
  bits : BitVec 32
  deriving Repr, DecidableEq

namespace Address

/-- The four numbers of an address, most significant first. -/
def quads (a : Address) : List Nat :=
  let n := a.bits.toNat
  [n / 0x1000000 % 256, n / 0x10000 % 256, n / 0x100 % 256, n % 256]

/-- Four numbers with points between them. -/
def text (a : Address) : String := ".".intercalate (a.quads.map toString)

/-- One of the four numbers: one to three digits without a leading zero, at most 255. -/
def quad? (cs : List Char) : Option Nat :=
  match cs.mapM Text.asciiDigit? with
  | some ds =>
      let n := Text.ofDigits ds
      if ds = [] ∨ 3 < ds.length ∨ (1 < ds.length ∧ ds.head? = some 0) ∨ 255 < n then none
      else some n
  | none => none

/-- Split at every point. -/
def pieces : List Char → List (List Char)
  | [] => [[]]
  | c :: cs =>
      match c, pieces cs with
      | '.', ps => [] :: ps
      | c, [] => [[c]]
      | c, p :: ps => (c :: p) :: ps

/-- The address of four numbers. -/
def ofQuads (a b c d : Nat) : Address :=
  ⟨BitVec.ofNat 32 (((a * 256 + b) * 256 + c) * 256 + d)⟩

/-- Read an address. -/
def ofText? (s : String) : Option Address :=
  match (pieces s.toList).mapM quad? with
  | some [a, b, c, d] => some (ofQuads a b c d)
  | _ => none

/-- The address with the given number. -/
def ofInt? (i : Int) : Option Address :=
  if 0 ≤ i ∧ i < 0x100000000 then some ⟨BitVec.ofNat 32 i.toNat⟩ else none

instance : LE Address := ⟨fun a b => a.bits.toNat ≤ b.bits.toNat⟩
instance : LT Address := ⟨fun a b => a.bits.toNat < b.bits.toNat⟩
instance (a b : Address) : Decidable (a ≤ b) :=
  inferInstanceAs (Decidable (a.bits.toNat ≤ b.bits.toNat))
instance (a b : Address) : Decidable (a < b) :=
  inferInstanceAs (Decidable (a.bits.toNat < b.bits.toNat))

/-- The mask of `n` ones followed by zeros. -/
def mask (n : Nat) : Address := ⟨BitVec.allOnes 32 <<< (32 - n)⟩

/-- The mask with every bit turned over. -/
def complement (a : Address) : Address := ⟨~~~a.bits⟩

/-- The number of leading ones, if nothing but zeros follows them. -/
def leadingOnes? (m : Address) : Option Nat := (List.range 33).find? fun n => mask n == m

/-- The prefix length that a netmask stands for: leading ones, or failing that leading zeros
followed by ones. -/
def prefixLength? (m : Address) : Option Nat :=
  match m.leadingOnes? with
  | some n => some n
  | none => m.complement.leadingOnes?

end Address

/-- The addresses that share a prefix. -/
structure Subnet where
  base : Address
  length : Nat
  deriving Repr, DecidableEq

namespace Subnet

/-- The subnet of an address under a prefix length. -/
def around (a : Address) (length : Nat) : Subnet :=
  ⟨⟨a.bits &&& (Address.mask length).bits⟩, length⟩

/-- Whether an address lies in a subnet. -/
def contains (s : Subnet) (a : Address) : Bool :=
  a.bits &&& (Address.mask s.length).bits == s.base.bits

/-- The base address and the prefix length. -/
def text (s : Subnet) : String := s.base.text ++ "/" ++ toString s.length

end Subnet

end VirtualTopology
