/-!
# Blank characters and line ends

Free text is trimmed and split at blanks in three places that do not agree on what a blank is:

* `isBlank` is the widest class: the spaces of Unicode together with the four information
  separators `U+001C` to `U+001F`. Quantities, names read back from documents and numbers read
  from the environment use it.
* `isSpace` is the Unicode property `White_Space`, without the information separators. Numbers
  inside structured data use it.

`trim` takes the class as a parameter, so that each reader says which one it means.

A line may end in CR LF, in CR or in LF. Readers see LF alone: `unifyLines` writes every end as LF,
so that no CR is left (`not_mem_unifyLines`).
-/

namespace VirtualTopology.Text

/-- The Unicode property `White_Space`. -/
def isSpace (c : Char) : Bool :=
  let n := c.toNat
  (0x9 ≤ n && n ≤ 0xd) || n == 0x20 || n == 0x85 || n == 0xa0 || n == 0x1680 ||
    (0x2000 ≤ n && n ≤ 0x200a) || n == 0x2028 || n == 0x2029 || n == 0x202f || n == 0x205f ||
    n == 0x3000

/-- The spaces of Unicode and the information separators. -/
def isBlank (c : Char) : Bool :=
  isSpace c || (0x1c ≤ c.toNat && c.toNat ≤ 0x1f)

/-- Remove the characters of a class from both ends. -/
def trimBy (isPad : Char → Bool) (cs : List Char) : List Char :=
  ((cs.dropWhile isPad).reverse.dropWhile isPad).reverse

/-- Remove blanks from both ends. -/
def trim (s : String) : String :=
  String.ofList (trimBy isBlank s.toList)

theorem isBlank_of_isSpace {c : Char} (h : isSpace c = true) : isBlank c = true := by
  simp [isBlank, h]

@[simp] theorem trimBy_nil (p : Char → Bool) : trimBy p [] = [] := rfl

/-! ### Line ends -/

/-- Line ends as a reader sees them: CR LF and CR are LF. -/
def unifyLines : List Char → List Char
  | '\r' :: '\n' :: cs => '\n' :: unifyLines cs
  | '\r' :: cs => '\n' :: unifyLines cs
  | c :: cs => c :: unifyLines cs
  | [] => []

theorem not_mem_unifyLines (cs : List Char) : '\r' ∉ unifyLines cs := by
  fun_induction unifyLines cs with
  | case1 cs ih => simpa using ih
  | case2 cs _ ih => simpa using ih
  | case3 c cs _ h ih =>
    intro hm
    rcases List.mem_cons.1 hm with rfl | hm
    · exact h rfl
    · exact ih hm
  | case4 => simp

/-- The text of a file: line ends as a reader sees them. -/
def unified (s : String) : String := String.ofList (unifyLines s.toList)

end VirtualTopology.Text
