import VirtualTopology.Text.Blank
import VirtualTopology.Yaml.Token
import VirtualTopology.Yaml.ScalarText

/-!
# Reading tokens

Whether something is a key shows only at the colon behind it, so the lexer remembers for each nesting
of brackets the last place where a key could have begun (`PendingKey`), and puts the key's token there
when the colon comes (`putAt`). A pending key is dropped when its line ends or after 1024
characters; where a block of keys demands a key, that is an error.

Tokens are read when they are asked for (`Token.peek?`, `Token.pop?`), and only as far as it takes to know
the next one: while that may still turn out to be a key, reading goes on (`needsMore`). So what is wrong
with a text far behind is found after what is wrong here.

Outside brackets the column of a line opens and closes blocks: `openBlock` notes a column that is
further in, and `closeBlocks` ends the blocks that a column is not in any more.
-/

namespace VirtualTopology.Yaml

/-- A place where a key may have begun. -/
structure PendingKey where
  /-- The number of tokens before it. -/
  number : Nat
  /-- Whether nothing but a key may stand there. -/
  required : Bool
  index : Nat
  line : Nat
  column : Nat
  deriving Repr

/-- What the lexer knows while it reads. -/
structure Lexer where
  place : Place
  /-- The length of the text. -/
  length : Nat
  /-- The column of the innermost block; −1 outside all blocks. -/
  indent : Int := -1
  /-- The columns of the blocks around it. -/
  outer : List Int := []
  /-- Whether a key may begin here. -/
  keyAllowed : Bool := true
  /-- The pending key outside brackets or between the innermost brackets. -/
  pending : Option PendingKey := none
  /-- The pending keys of the brackets around. -/
  around : List (Option PendingKey) := []
  /-- The tokens that have been read and not been taken. -/
  tokens : List Token := []
  /-- The number of tokens that have been taken. -/
  taken : Nat := 0
  /-- Whether the end of the text has been read. -/
  done : Bool := false
  deriving Repr

/-- Reading tokens. -/
abbrev Lexing := StateT Lexer (Except Flaw)

namespace Lexing

/-- Give up: the text is no YAML. -/
def fail {α : Type} : Lexing α := throw .malformed

/-- Whether brackets are open. -/
def inFlow : Lexing Bool := return !(← get).around.isEmpty

/-- The text that is still to be read. -/
def rest : Lexing (List Char) := return (← get).place.rest

/-- The column of the next character. -/
def column : Lexing Nat := return (← get).place.column

/-- Read something from the present place. -/
def scan {α : Type} (s : Scan α) : Lexing α := do
  let state ← get
  match s.run state.place with
  | .ok (a, place) => do
      set { state with place }
      return a
  | .error flaw => throw flaw

/-- Add a token. -/
def put (t : Token) : Lexing Unit := modify fun s => { s with tokens := s.tokens ++ [t] }

/-- Add a token behind the first `number` ones. -/
def putAt (number : Nat) (t : Token) : Lexing Unit := modify fun s =>
  let place := number - s.taken
  { s with tokens := s.tokens.take place ++ t :: s.tokens.drop place }

/-- Pass over some characters and add a token. -/
def mark (length : Nat) (t : Token) : Lexing Unit := do
  scan (Scan.skip length)
  put t

/-- Say whether a key may begin at the next token. -/
def allowKey (b : Bool) : Lexing Unit := modify fun s => { s with keyAllowed := b }

/-! ### Pending keys -/

/-- Drop the pending key. -/
def dropKey : Lexing Unit := do
  if (← get).pending.any (·.required) then fail
  modify fun s => { s with pending := none }

/-- Drop the pending keys that the present place is too far from. -/
def dropStaleKeys : Lexing Unit := do
  let p := (← get).place
  let isStale (k : PendingKey) : Bool := k.line != p.line || 1024 < p.index - k.index
  let fresh (k? : Option PendingKey) : Lexing (Option PendingKey) :=
    match k? with
    | some k =>
        if isStale k then (if k.required then fail else return none) else return some k
    | none => return none
  let pending ← fresh (← get).pending
  let around ← (← get).around.mapM fresh
  modify fun s => { s with pending, around }

/-- Note that a key may begin at the next token. -/
def noteKey : Lexing Unit := do
  let s ← get
  if s.keyAllowed then
    dropKey
    let p := s.place
    let key : PendingKey :=
      { number := s.taken + s.tokens.length
        required := s.around.isEmpty && s.indent == p.column
        index := p.index, line := p.line, column := p.column }
    modify fun s => { s with pending := some key }

/-! ### Blocks -/

/-- Note a column as that of a new block, if it is further in. -/
def openBlock (column : Nat) : Lexing Bool := do
  let s ← get
  if s.indent < column then
    set { s with indent := column, outer := s.indent :: s.outer }
    return true
  return false

/-- Close the blocks that are further in than a column. -/
def closeBlocksTo (column : Int) : (outer : List Int) → Lexing Unit
  | [] => return
  | indent :: outer => do
      if column < (← get).indent then
        modify fun s => { s with indent, outer }
        put .blockEnd
        closeBlocksTo column outer

/-- Close the blocks that are further in than a column; brackets know no columns. -/
def closeBlocks (column : Int) : Lexing Unit := do
  if !(← inFlow) then closeBlocksTo column (← get).outer

/-! ### Tokens -/

/-- Pass over blanks, comments and line ends. -/
def toNextToken : (steps : Nat) → Lexing Unit
  | 0 => return
  | steps + 1 => do
      scan Scan.spaces
      scan Scan.comment
      match ← scan Scan.lineEnd? with
      | some _ => do
          if !(← inFlow) then allowKey true
          toNextToken steps
      | none => return

/-- End everything that is open before the text or a document ends. -/
def finishBlocks : Lexing Unit := do
  closeBlocks (-1)
  dropKey
  allowKey false

/-- Read an opening bracket. -/
def openBracket (t : Token) : Lexing Unit := do
  noteKey
  modify fun s => { s with around := s.pending :: s.around, pending := none }
  allowKey true
  mark 1 t

/-- Read a closing bracket. -/
def closeBracket (t : Token) : Lexing Unit := do
  dropKey
  match (← get).around with
  | [] => fail
  | pending :: around => modify fun s => { s with pending, around }
  allowKey false
  mark 1 t

/-- Read a comma between brackets. -/
def comma : Lexing Unit := do
  allowKey true
  dropKey
  mark 1 .comma

/-- Open a block for what stands in the present column, where it may stand. -/
def beginBlock (t : Token) : Lexing Unit := do
  if !(← inFlow) then
    if !(← get).keyAllowed then fail
    if ← openBlock (← column) then put t

/-- Read the mark before an entry of a sequence. -/
def entry : Lexing Unit := do
  beginBlock .blockSequence
  allowKey true
  dropKey
  mark 1 .entry

/-- Read the mark before a key. -/
def key : Lexing Unit := do
  beginBlock .blockMapping
  allowKey (!(← inFlow))
  dropKey
  mark 1 .key

/-- Read the mark before a value; what is pending as a key is one. -/
def value : Lexing Unit := do
  match (← get).pending with
  | some k => do
      modify fun s => { s with pending := none }
      putAt k.number .key
      if !(← inFlow) then
        if ← openBlock k.column then putAt k.number .blockMapping
      allowKey false
  | none => do
      beginBlock .blockMapping
      allowKey (!(← inFlow))
      dropKey
  mark 1 .value

/-- Read a token that may begin a key. -/
def part (s : Scan Token) : Lexing Unit := do
  noteKey
  allowKey false
  put (← scan s)

/-- Read a plain scalar. -/
def plainScalar : Lexing Unit := do
  noteKey
  let (text, ended) ← scan (plain (← inFlow) ((← get).indent + 1))
  allowKey ended
  put (.scalar text true)

/-- Read a block. -/
def blockScalar (fold : Bool) : Lexing Unit := do
  allowKey true
  dropKey
  put (.scalar (← scan (block fold (← get).indent)) false)

/-- The characters that no plain scalar begins with, unless they are among the first three and the
character behind them is no gap. -/
def isIndicator (c : Char) : Bool := "-?:,[]\x7b\x7d#&*!|>'\"%@`".toList.contains c

/-- Whether a plain scalar can begin here. -/
def isPlainStart (inFlow : Bool) : List Char → Bool
  | [] => false
  | c :: rest =>
      (!atGap (c :: rest) && !isIndicator c) ||
        (!atGap rest && (c == '-' || (!inFlow && (c == '?' || c == ':'))))

/-- Read on: the next token, or the end of the text. -/
def next : Lexing Unit := do
  toNextToken ((← get).length + 1)
  dropStaleKeys
  closeBlocks (← column)
  let text ← rest
  let inFlow ← inFlow
  let atStart := (← column) == 0
  match text with
  | [] =>
      finishBlocks
      modify fun s => { s with done := true }
  | c :: following =>
      if c == '%' && atStart then
        finishBlocks
        put (.directive (← scan directive))
      else if atStart && atSeparator text then
        finishBlocks
        mark 3 (if c == '-' then .documentStart else .documentEnd)
      else if c == '[' then openBracket .sequenceStart
      else if c == '\x7b' then openBracket .mappingStart
      else if c == ']' then closeBracket .sequenceEnd
      else if c == '\x7d' then closeBracket .mappingEnd
      else if c == ',' then comma
      else if c == '-' && atGap following then entry
      else if c == '?' && (inFlow || atGap following) then key
      else if c == ':' && (inFlow || atGap following) then value
      else if c == '*' then part (return .alias (← anchorName))
      else if c == '&' then part (return .anchor (← anchorName))
      else if c == '!' then part (return .tag (← tag))
      else if c == '|' && !inFlow then blockScalar false
      else if c == '>' && !inFlow then blockScalar true
      else if c == '\'' || c == '"' then part (return .scalar (← quoted c) false)
      else if isPlainStart inFlow text then plainScalar
      else fail

/-- Whether more has to be read before the next token is known. -/
def needsMore : Lexing Bool := do
  if (← get).done then return false
  if (← get).tokens.isEmpty then return true
  dropStaleKeys
  let s ← get
  return (s.pending :: s.around).any fun k? => k?.any (·.number == s.taken)

/-- Read on until the next token is known. -/
def fill : (steps : Nat) → Lexing Unit
  | 0 => fail
  | steps + 1 => do
      if ← needsMore then
        next
        fill steps

/-- Read on as far as it takes. -/
def ready : Lexing Unit := do fill ((← get).length + 3)

end Lexing

namespace Token

/-- The next token, which is not taken; nothing at the end of the text. -/
def peek? : Lexing (Option Token) := do
  Lexing.ready
  return (← get).tokens.head?

/-- Take the next token. -/
def pop? : Lexing (Option Token) := do
  Lexing.ready
  let s ← get
  match s.tokens with
  | [] => return none
  | t :: tokens =>
      set { s with tokens, taken := s.taken + 1 }
      return some t

end Token

/-- A lexer at the beginning of a text. -/
def Lexer.ofText (s : String) : Except Flaw Lexer := do
  let text := Text.unifyLines s.toList
  if !text.all isAdmitted then throw .malformed
  let place : Place :=
    match text with
    | c :: rest => if isMark c then { rest, index := 1 } else { rest := text }
    | [] => { rest := [] }
  return { place, length := text.length }

end VirtualTopology.Yaml
