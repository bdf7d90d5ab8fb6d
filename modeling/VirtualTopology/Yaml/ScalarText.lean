import VirtualTopology.Text.Quoted
import VirtualTopology.Text.Numeral
import VirtualTopology.Yaml.Place

/-!
# The text of scalars

A scalar stands in the text in one of four ways: plain, between single quotes, between double quotes,
or as a block of indented lines.

Wherever a scalar goes over several lines outside a block, its lines are folded (`folded`): a single
line end stands for a space, and of several the first stands for nothing.
-/

namespace VirtualTopology.Yaml

open Scan

/-- What a line end and the line ends behind it stand for. -/
def folded (first : Char) (others : List Char) : List Char :=
  if first != '\n' then first :: others
  else if others.isEmpty then [' ']
  else others

/-! ### Plain scalars -/

/-- The ends of blank lines. Nothing if a mark between documents follows one of them. -/
def blankLines : (steps : Nat) → Scan (Option (List Char))
  | 0 => return some []
  | steps + 1 => do
      spaces
      match ← lineEnd? with
      | none => return some []
      | some c =>
          if atSeparator (← rest) then return none
          return (← blankLines steps).map (c :: ·)

/-- What stands between two stretches of a plain scalar, and whether a line ends there. The scalar
ends if it is empty. -/
def plainGap : Scan (List Char × Bool) := do
  let blanks ← taking (· == ' ')
  match ← lineEnd? with
  | none => return (blanks, false)
  | some first =>
      if atSeparator (← rest) then return ([], true)
      match ← blankLines ((← rest).length + 1) with
      | none => return ([], true)
      | some others => return (folded first others, true)

/-- The characters that have a meaning between the brackets of a flow collection. -/
def isFlowMark (c : Char) : Bool := ",?[]\x7b\x7d".toList.contains c

/-- The length of a stretch of a plain scalar: up to a gap, or to a colon with a gap behind it. -/
def stretch (inFlow : Bool) : List Char → Nat
  | [] => 0
  | c :: rest =>
      if atGap (c :: rest) then 0
      else if c == ':' && (atGap rest || (inFlow && rest.head?.any ",[]\x7b\x7d".toList.contains)) then 0
      else if inFlow && isFlowMark c then 0
      else stretch inFlow rest + 1

/-- Read the stretches of a plain scalar with what stands between them, and whether a line ended
behind the last one. Lines that go on have to be in column `indent` or further in. -/
def plainFrom (inFlow : Bool) (indent : Int) : (steps : Nat) → (gap : List Char) →
    (ended : Bool) → Scan (List Char × Bool)
  | 0, _, _ => fail
  | steps + 1, gap, ended => do
      match ← rest with
      | '#' :: _ => return ([], ended)
      | text =>
          let length := stretch inFlow text
          if length == 0 then return ([], ended)
          skip length
          let taken := gap ++ text.take length
          let (gap, ended) ← plainGap
          let p ← get
          if gap.isEmpty || p.rest.head? == some '#' || (!inFlow && p.column < indent) then
            return (taken, ended)
          let (others, ended) ← plainFrom inFlow indent steps gap ended
          return (taken ++ others, ended)

/-- Read a plain scalar, and whether a line ended behind it. -/
def plain (inFlow : Bool) (indent : Int) : Scan (String × Bool) := do
  let (text, ended) ← plainFrom inFlow indent ((← rest).length + 1) [] false
  return (String.ofList text, ended)

/-! ### Quoted scalars -/

/-- The characters that stand behind a backslash for one other character. -/
def escapes : List (Char × Nat) :=
  [('0', 0), ('a', 7), ('b', 8), ('t', 9), ('\t', 9), ('n', 10), ('v', 11), ('f', 12), ('r', 13),
   ('e', 0x1b), (' ', 0x20), ('"', 0x22), ('\\', 0x5c), ('/', 0x2f), ('N', 0x85), ('_', 0xa0),
   ('L', 0x2028), ('P', 0x2029)]

/-- How many hexadecimal digits follow a letter that gives the number of a character. -/
def numberedEscapes : List (Char × Nat) := [('x', 2), ('u', 4), ('U', 8)]

/-- The ends of lines that hold nothing but blanks. -/
def quotedBreaks : (steps : Nat) → Scan (List Char)
  | 0 => return []
  | steps + 1 => do
      if atSeparator (← rest) then fail
      let _ ← taking fun c => c == ' ' || c == '\t'
      match ← lineEnd? with
      | some c => return c :: (← quotedBreaks steps)
      | none => return []

/-- Read what stands behind a backslash. -/
def escaped : Scan (List Char) := do
  match ← rest with
  | [] => fail
  | c :: following =>
      match escapes.lookup c, numberedEscapes.lookup c with
      | some n, _ =>
          skip 1
          return [Char.ofNat n]
      | none, some digits =>
          let values := (following.take digits).filterMap Text.hexDigit?
          if values.length < digits then fail
          let n := values.foldl (fun n d => 16 * n + d) 0
          if 0x80000000 ≤ n then throw .tooLarge
          if 0x110000 ≤ n then throw (.unnameable .character)
          skip (digits + 1)
          return [Text.ofCodePoint n]
      | none, none =>
          match ← lineEnd? with
          | some _ => quotedBreaks ((← rest).length + 1)
          | none => fail

/-- Read blanks between quotes: as they are within a line, folded at the end of one. -/
def quotedGap : Scan (List Char) := do
  let blanks ← taking fun c => c == ' ' || c == '\t'
  match ← lineEnd? with
  | some first => return folded first (← quotedBreaks ((← rest).length + 1))
  | none => if (← rest).isEmpty then fail else return blanks

/-- Read up to the closing quote. -/
def quotedFrom (mark : Char) : (steps : Nat) → Scan (List Char)
  | 0 => fail
  | steps + 1 => do
      match ← rest with
      | [] => fail
      | c :: following =>
          if c == mark then
            if mark == '\'' && following.head? == some '\'' then
              skip 2
              return '\'' :: (← quotedFrom mark steps)
            skip 1
            return []
          else if c == '\\' && mark == '"' then
            skip 1
            let text ← escaped
            return text ++ (← quotedFrom mark steps)
          else if atGap (c :: following) then
            let text ← quotedGap
            return text ++ (← quotedFrom mark steps)
          else
            skip 1
            return c :: (← quotedFrom mark steps)

/-- Read a scalar that begins with a quote. -/
def quoted (mark : Char) : Scan String := do
  skip 1
  return String.ofList (← quotedFrom mark ((← rest).length + 1))

/-! ### Blocks -/

/-- What becomes of the line ends behind the last line of a block. -/
inductive Chomp where
  /-- Only the end of the last line is kept. -/
  | clip
  /-- None is kept. -/
  | strip
  /-- All are kept. -/
  | keep
  deriving Repr, DecidableEq

/-- Read an indicator of what becomes of the line ends. -/
def chomp? : Scan (Option Chomp) := do
  match ← rest with
  | '+' :: _ => do skip 1; return some .keep
  | '-' :: _ => do skip 1; return some .strip
  | _ => return none

/-- Read an indicator of the indentation. -/
def increment? : Scan (Option Nat) := do
  match (← rest).head? >>= Text.asciiDigit? with
  | some 0 => fail
  | some n => do skip 1; return some n
  | none => return none

/-- Read the first line of a block: two indicators in either order. -/
def blockHead : Scan (Chomp × Option Nat) := do
  let early ← chomp?
  let increment ← increment?
  let late ← if early.isNone && increment.isSome then chomp? else pure none
  if !atSpace (← rest) then fail
  emptyLine
  return (((early <|> late).getD .clip), increment)

/-- Pass over blank lines before the first line of a block: their ends, and the greatest number of
spaces. -/
def blockIndent : (steps : Nat) → (widest : Nat) → Scan (List Char × Nat)
  | 0, widest => return ([], widest)
  | steps + 1, widest => do
      match ← rest with
      | ' ' :: _ =>
          skip 1
          blockIndent steps (max widest (← get).column)
      | _ =>
          match ← lineEnd? with
          | some c => do
              let (others, widest) ← blockIndent steps widest
              return (c :: others, widest)
          | none => return ([], widest)

/-- Pass over spaces up to a column. -/
def indentTo (column : Nat) : Scan Unit := do
  let p ← get
  skip ((p.rest.takeWhile (· == ' ')).take (column - p.column)).length

/-- Pass over blank lines inside a block and over the indentation of the next line: the line ends. -/
def blockBreaks (indent : Nat) : (steps : Nat) → Scan (List Char)
  | 0 => return []
  | steps + 1 => do
      indentTo indent
      match ← lineEnd? with
      | some c => return c :: (← blockBreaks indent steps)
      | none => return []

/-- What stands between two lines of a block whose first is followed by some blank lines. Folding
joins lines, except lines that begin with a blank. -/
def betweenLines (fold flush : Bool) (lineEnd : Char) (breaks : List Char) : List Char :=
  if fold && lineEnd == '\n' && flush then (if breaks.isEmpty then [' '] else []) else [lineEnd]

/-- Read the lines of a block, after blank lines with the given ends. -/
def blockLines (fold : Bool) (chomp : Chomp) (indent : Nat) : (steps : Nat) →
    (breaks : List Char) → Scan (List Char)
  | 0, _ => fail
  | steps + 1, breaks => do
      let line ← taking fun c => !isBreak c
      let lineEnd ← lineEnd?
      let following ← blockBreaks indent ((← rest).length + 1)
      let text := breaks ++ line
      let p ← get
      let isBlank (cs : List Char) : Bool := cs.head?.any fun c => c == ' ' || c == '\t'
      if p.column == indent && !p.rest.isEmpty then
        let between := match lineEnd with
          | some c => betweenLines fold (!isBlank line && !isBlank p.rest) c following
          | none => []
        return text ++ between ++ (← blockLines fold chomp indent steps following)
      match chomp with
      | .clip => return text ++ lineEnd.toList
      | .strip => return text
      | .keep => return text ++ lineEnd.toList ++ following

/-- Read a block. Its lines are further in than `outer`. -/
def block (fold : Bool) (outer : Int) : Scan String := do
  skip 1
  let (chomp, increment) ← blockHead
  let least := max 1 (outer + 1).toNat
  let steps := (← rest).length + 1
  let (breaks, indent) ← match increment with
    | some n => do
        let indent := least + n - 1
        pure (← blockBreaks indent steps, indent)
    | none => do
        let (breaks, widest) ← blockIndent steps 0
        pure (breaks, max least widest)
  let p ← get
  if p.column == indent && !p.rest.isEmpty then
    return String.ofList (← blockLines fold chomp indent steps breaks)
  return String.ofList (if chomp == .keep then breaks else [])

end VirtualTopology.Yaml
