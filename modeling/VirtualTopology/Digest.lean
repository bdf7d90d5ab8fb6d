/-!
# Digests of messages

Both digests cut a message into blocks of sixteen words of 32 bits. The message is followed by one
set bit, by zeros up to eight octets short of a block, and by its length in bits
(`padded`); the octets are then read as words, the most significant octet first (`blocks`).

Identifiers are derived from the twenty octets of `sha1`, hardware addresses from the thirty-two of
`sha256`.
-/

namespace VirtualTopology.Digest

/-- The octets of a number, most significant first, in a field of `width` octets. -/
def octets : (width : Nat) → Nat → List UInt8
  | 0, _ => []
  | width + 1, n => octets width (n / 256) ++ [UInt8.ofNat n]

/-- The message with its padding; the length is a multiple of 64. -/
def padded (message : List UInt8) : List UInt8 :=
  let zeros := (119 - message.length % 64) % 64
  message ++ 0x80 :: List.replicate zeros 0 ++ octets 8 (8 * message.length)

/-- Four octets at a time as words. -/
def words : List UInt8 → List UInt32
  | a :: b :: c :: d :: rest =>
      ((a.toUInt32 <<< 24) ||| (b.toUInt32 <<< 16) ||| (c.toUInt32 <<< 8) ||| d.toUInt32)
        :: words rest
  | _ => []

/-- Cut a list into pieces of sixteen. -/
def chunks : (count : Nat) → List UInt32 → List (List UInt32)
  | 0, _ => []
  | count + 1, ws => ws.take 16 :: chunks count (ws.drop 16)

/-- The blocks of a padded message. -/
def blocks (message : List UInt8) : List (List UInt32) :=
  let octs := padded message
  chunks (octs.length / 64) (words octs)

/-- Rotate a word to the left. -/
def rotateLeft (w : UInt32) (n : UInt32) : UInt32 := (w <<< n) ||| (w >>> (32 - n))

/-- Rotate a word to the right. -/
def rotateRight (w : UInt32) (n : UInt32) : UInt32 := (w >>> n) ||| (w <<< (32 - n))

/-- The octets of a word, most significant first. -/
def wordOctets (w : UInt32) : List UInt8 :=
  [(w >>> 24).toUInt8, (w >>> 16).toUInt8, (w >>> 8).toUInt8, w.toUInt8]

@[simp] theorem length_octets (width n : Nat) : (octets width n).length = width := by
  induction width generalizing n with
  | zero => rfl
  | succ w ih => simp [octets, ih]

theorem length_padded (message : List UInt8) : (padded message).length % 64 = 0 := by
  simp only [padded, List.append_assoc, List.cons_append, List.length_append, List.length_cons,
    List.length_replicate, length_octets]
  omega

end VirtualTopology.Digest

namespace VirtualTopology.Digest.Sha1

/-! ### The digest of 160 bits -/

/-- The chaining value: five words. -/
structure State where
  a : UInt32
  b : UInt32
  c : UInt32
  d : UInt32
  e : UInt32
  deriving DecidableEq

/-- The chaining value before the first block. -/
def initial : State := ⟨0x67452301, 0xefcdab89, 0x98badcfe, 0x10325476, 0xc3d2e1f0⟩

/-- The next `count` schedule words behind sixteen given ones. The window holds the last sixteen
words. -/
def extend : (count : Nat) → (window : List UInt32) → List UInt32
  | 0, _ => []
  | count + 1, window =>
      let w := rotateLeft
        (window.getD 13 0 ^^^ window.getD 8 0 ^^^ window.getD 2 0 ^^^ window.getD 0 0) 1
      w :: extend count (window.drop 1 ++ [w])

/-- The eighty words of a block. -/
def schedule (block : List UInt32) : List UInt32 := block ++ extend 64 block

/-- The round function and constant of round `i`. -/
def mixing (i : Nat) (s : State) : UInt32 × UInt32 :=
  if i < 20 then ((s.b &&& s.c) ||| ((~~~s.b) &&& s.d), 0x5a827999)
  else if i < 40 then (s.b ^^^ s.c ^^^ s.d, 0x6ed9eba1)
  else if i < 60 then ((s.b &&& s.c) ||| (s.b &&& s.d) ||| (s.c &&& s.d), 0x8f1bbcdc)
  else (s.b ^^^ s.c ^^^ s.d, 0xca62c1d6)

/-- One round. -/
def step (s : State) (round : Nat × UInt32) : State :=
  let (f, k) := mixing round.1 s
  ⟨rotateLeft s.a 5 + f + s.e + k + round.2, s.a, rotateLeft s.b 30, s.c, s.d⟩

/-- Take up one block. -/
def compress (s : State) (block : List UInt32) : State :=
  let t := ((List.range 80).zip (schedule block)).foldl step s
  ⟨s.a + t.a, s.b + t.b, s.c + t.c, s.d + t.d, s.e + t.e⟩

end Sha1

/-- The digest of a message: twenty octets. -/
def sha1 (message : List UInt8) : List UInt8 :=
  let s := (blocks message).foldl Sha1.compress Sha1.initial
  [s.a, s.b, s.c, s.d, s.e].flatMap wordOctets

end VirtualTopology.Digest

namespace VirtualTopology.Digest.Sha256

/-! ### The digest of 256 bits -/

/-- The chaining value: eight words. -/
structure State where
  a : UInt32
  b : UInt32
  c : UInt32
  d : UInt32
  e : UInt32
  f : UInt32
  g : UInt32
  h : UInt32
  deriving DecidableEq

/-- The chaining value before the first block. -/
def initial : State :=
  ⟨0x6a09e667, 0xbb67ae85, 0x3c6ef372, 0xa54ff53a, 0x510e527f, 0x9b05688c, 0x1f83d9ab, 0x5be0cd19⟩

/-- The constants of the sixty-four rounds. -/
def constants : List UInt32 :=
  [0x428a2f98, 0x71374491, 0xb5c0fbcf, 0xe9b5dba5, 0x3956c25b, 0x59f111f1, 0x923f82a4, 0xab1c5ed5,
   0xd807aa98, 0x12835b01, 0x243185be, 0x550c7dc3, 0x72be5d74, 0x80deb1fe, 0x9bdc06a7, 0xc19bf174,
   0xe49b69c1, 0xefbe4786, 0x0fc19dc6, 0x240ca1cc, 0x2de92c6f, 0x4a7484aa, 0x5cb0a9dc, 0x76f988da,
   0x983e5152, 0xa831c66d, 0xb00327c8, 0xbf597fc7, 0xc6e00bf3, 0xd5a79147, 0x06ca6351, 0x14292967,
   0x27b70a85, 0x2e1b2138, 0x4d2c6dfc, 0x53380d13, 0x650a7354, 0x766a0abb, 0x81c2c92e, 0x92722c85,
   0xa2bfe8a1, 0xa81a664b, 0xc24b8b70, 0xc76c51a3, 0xd192e819, 0xd6990624, 0xf40e3585, 0x106aa070,
   0x19a4c116, 0x1e376c08, 0x2748774c, 0x34b0bcb5, 0x391c0cb3, 0x4ed8aa4a, 0x5b9cca4f, 0x682e6ff3,
   0x748f82ee, 0x78a5636f, 0x84c87814, 0x8cc70208, 0x90befffa, 0xa4506ceb, 0xbef9a3f7, 0xc67178f2]

/-- The mixing of a schedule word fifteen places back. -/
def small0 (w : UInt32) : UInt32 := rotateRight w 7 ^^^ rotateRight w 18 ^^^ (w >>> 3)

/-- The mixing of a schedule word two places back. -/
def small1 (w : UInt32) : UInt32 := rotateRight w 17 ^^^ rotateRight w 19 ^^^ (w >>> 10)

/-- The next `count` schedule words behind sixteen given ones. -/
def extend : (count : Nat) → (window : List UInt32) → List UInt32
  | 0, _ => []
  | count + 1, window =>
      let w := window.getD 0 0 + small0 (window.getD 1 0) + window.getD 9 0
        + small1 (window.getD 14 0)
      w :: extend count (window.drop 1 ++ [w])

/-- The sixty-four words of a block. -/
def schedule (block : List UInt32) : List UInt32 := block ++ extend 48 block

/-- One round, with its constant and its schedule word. -/
def step (s : State) (round : UInt32 × UInt32) : State :=
  let big1 := rotateRight s.e 6 ^^^ rotateRight s.e 11 ^^^ rotateRight s.e 25
  let choice := (s.e &&& s.f) ^^^ ((~~~s.e) &&& s.g)
  let t₁ := s.h + big1 + choice + round.1 + round.2
  let big0 := rotateRight s.a 2 ^^^ rotateRight s.a 13 ^^^ rotateRight s.a 22
  let majority := (s.a &&& s.b) ^^^ (s.a &&& s.c) ^^^ (s.b &&& s.c)
  ⟨t₁ + (big0 + majority), s.a, s.b, s.c, s.d + t₁, s.e, s.f, s.g⟩

/-- Take up one block. -/
def compress (s : State) (block : List UInt32) : State :=
  let t := (constants.zip (schedule block)).foldl step s
  ⟨s.a + t.a, s.b + t.b, s.c + t.c, s.d + t.d, s.e + t.e, s.f + t.f, s.g + t.g, s.h + t.h⟩

end Sha256

/-- The digest of a message: thirty-two octets. -/
def sha256 (message : List UInt8) : List UInt8 :=
  let s := (blocks message).foldl Sha256.compress Sha256.initial
  [s.a, s.b, s.c, s.d, s.e, s.f, s.g, s.h].flatMap wordOctets

end VirtualTopology.Digest
