import VirtualTopology.Yaml.Flaw

/-!
# Places in a YAML text

Where things stand matters in YAML: the column gives the nesting, and a key must stand on one line
with its colon. A `Place` is the text that is still to be read, with the number of characters before
it, its line and its column. A `Scan` reads from a place and moves it on.

Line ends are line feeds (`Text.unifyLines`), but three further characters end a line as well.
-/

namespace VirtualTopology.Yaml

/-! ### Characters -/

/-- Whether a text may hold a character. -/
def isAdmitted (c : Char) : Bool :=
  let n := c.toNat
  n == 9 || n == 10 || n == 13 || (32 ≤ n && n ≤ 126) || n == 0x85 || (0xa0 ≤ n && n ≤ 0xd7ff) ||
    (0xe000 ≤ n && n ≤ 0xfffd) || 0x10000 ≤ n

/-- The mark that a text may begin with; it takes no column. -/
def isMark (c : Char) : Bool := c.toNat == 0xfeff

/-- Whether a character ends a line. -/
def isBreak (c : Char) : Bool :=
  c == '\n' || c.toNat == 0x85 || c.toNat == 0x2028 || c.toNat == 0x2029

/-- What a line end stands for in a scalar: the two separators of Unicode keep their identity. -/
def breakText (c : Char) : Char := if c.toNat == 0x85 then '\n' else c

/-- Whether a text is at its end or at the end of a line. -/
def atBreak : List Char → Bool
  | [] => true
  | c :: _ => isBreak c

/-- Whether a text is at its end, at the end of a line or at a space. -/
def atSpace : List Char → Bool
  | [] => true
  | c :: _ => isBreak c || c == ' '

/-- Whether a text is at its end, at the end of a line, at a space or at a tab. -/
def atGap : List Char → Bool
  | [] => true
  | c :: _ => isBreak c || c == ' ' || c == '\t'

/-- The characters of names: Latin letters, digits, the hyphen and the underscore. -/
def isNameChar (c : Char) : Bool := c.isAlphanum || c == '-' || c == '_'

/-- Whether a text begins with a mark between documents. -/
def atSeparator : List Char → Bool
  | '-' :: '-' :: '-' :: rest => atGap rest
  | '.' :: '.' :: '.' :: rest => atGap rest
  | _ => false

/-! ### Places -/

/-- A place in a text. -/
structure Place where
  rest : List Char
  /-- The number of characters before the place. -/
  index : Nat := 0
  line : Nat := 0
  column : Nat := 0
  deriving Repr

namespace Place

/-- The place behind the next character. -/
def advance (p : Place) : Place :=
  match p.rest with
  | [] => p
  | c :: rest =>
      if isBreak c then { rest, index := p.index + 1, line := p.line + 1, column := 0 }
      else { rest, index := p.index + 1, line := p.line,
             column := if isMark c then p.column else p.column + 1 }

/-- The place some characters on. -/
def forward : Nat → Place → Place
  | 0, p => p
  | n + 1, p => forward n p.advance

theorem rest_advance (p : Place) : p.advance.rest = p.rest.tail := by
  unfold advance
  split
  · simp_all
  · split <;> simp_all

theorem rest_forward (n : Nat) (p : Place) : (p.forward n).rest = p.rest.drop n := by
  induction n generalizing p with
  | zero => rfl
  | succ n ih => simp [forward, ih, rest_advance]

end Place

/-! ### Reading from a place -/

/-- Reading from a place. -/
abbrev Scan := StateT Place (Except Flaw)

namespace Scan

/-- Give up: the text is no YAML. -/
def fail {α : Type} : Scan α := throw .malformed

/-- The text that is still to be read. -/
def rest : Scan (List Char) := return (← get).rest

/-- Move some characters on. -/
def skip (n : Nat) : Scan Unit := modify (Place.forward n)

/-- Read the longest run of characters of a kind. -/
def taking (isIn : Char → Bool) : Scan (List Char) := do
  let taken := (← rest).takeWhile isIn
  skip taken.length
  return taken

/-- Pass over spaces. -/
def spaces : Scan Unit := do
  let _ ← taking (· == ' ')

/-- Read the end of a line, if one is next, as what it stands for. -/
def lineEnd? : Scan (Option Char) := do
  match ← rest with
  | c :: _ => if isBreak c then do skip 1; return some (breakText c) else return none
  | [] => return none

/-- Pass over a comment that begins here, up to the end of its line. -/
def comment : Scan Unit := do
  match ← rest with
  | '#' :: _ =>
      let _ ← taking fun c => !isBreak c
  | _ => return

/-- Pass over the rest of a line on which nothing but a comment may follow. -/
def emptyLine : Scan Unit := do
  spaces
  comment
  if !atBreak (← rest) then fail
  let _ ← lineEnd?

end Scan

end VirtualTopology.Yaml
