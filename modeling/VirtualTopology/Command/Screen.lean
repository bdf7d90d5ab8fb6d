import VirtualTopology.Text.Blank
import VirtualTopology.Text.Letter
import VirtualTopology.Text.Numeral

/-!
# The screen

What a command shows is a sequence of blocks: lines, tables and panels. Every text in a block but the
documents in panels is markup, so a block has a text only if its markup is sound (`Block.lines?`).

Markup may hold tags in square brackets that set a style until a closing tag: a tag begins with a small
letter, a number sign, a slash or an at sign. A backslash before a tag makes it an ordinary text. Styles
do not show in the text of a line, so only what is left when the tags are taken out counts
(`Markup.plain?`). Characters that would move the cursor are left out as well.

A closing tag that closes nothing makes a line unprintable. It may name the style in other words than
the tag that it closes (`Style.normal`).
-/

namespace VirtualTopology.Markup

/-- A piece of a line: a text, or a tag between its brackets. -/
inductive Piece where
  | text (cs : List Char)
  | tag (cs : List Char)
  deriving Repr, DecidableEq

/-- Whether a tag can begin with a character. -/
def isTagStart (c : Char) : Bool :=
  ('a' ≤ c && c ≤ 'z') || c == '#' || c == '/' || c == '@'

/-- The tag at the beginning of a text, without its brackets, and what follows it. -/
def tagAt? : List Char → Option (List Char × List Char)
  | '[' :: c :: rest =>
      if isTagStart c then
        let inner := rest.takeWhile fun c => c != '[' && c != ']'
        match rest.drop inner.length with
        | ']' :: rest => some (c :: inner, rest)
        | _ => none
      else none
  | _ => none

/-- The pieces of a line. Each pair of backslashes before a tag stands for one. -/
def pieces : (steps : Nat) → (before : List Char) → List Char → List Piece
  | 0, before, rest => [.text (before.reverse ++ rest)]
  | steps + 1, before, cs =>
      let slashes := (cs.takeWhile (· == '\\')).length
      match tagAt? (cs.drop slashes) with
      | some (tag, rest) =>
          let shown : List Piece := [.text before.reverse, .text (List.replicate (slashes / 2) '\\')]
          if slashes % 2 == 0 then shown ++ .tag tag :: pieces steps [] rest
          else shown ++ .text ('[' :: tag ++ [']']) :: pieces steps [] rest
      | none =>
          match cs with
          | [] => [.text before.reverse]
          | c :: rest =>
              if slashes == 0 then pieces steps (c :: before) rest
              else pieces steps (List.replicate slashes '\\' ++ before) (cs.drop slashes)

/-- A text with brackets behind backslashes as they are meant. -/
def unescaped : List Char → List Char
  | '\\' :: '[' :: rest => '[' :: unescaped rest
  | c :: rest => c :: unescaped rest
  | [] => []

/-! ### Names of styles -/

namespace Style

/-- The attributes of a style in their order, each with its short name if it has one. -/
def attributes : List (String × Option String) :=
  [("bold", some "b"), ("dim", some "d"), ("italic", some "i"), ("underline", some "u"),
   ("blink", none), ("blink2", none), ("reverse", some "r"), ("conceal", some "c"),
   ("strike", some "s"), ("underline2", some "uu"), ("frame", none), ("encircle", none),
   ("overline", some "o")]

/-- The attribute that a word names. -/
def attribute? (word : String) : Option String :=
  (attributes.find? fun a => a.1 == word || a.2 == some word).map (·.1)

/-- The colors that have a plain name. -/
def colors : List String :=
  let plain := ["black", "red", "green", "yellow", "blue", "magenta", "cyan", "white"]
  "default" :: plain ++ plain.map ("bright_" ++ ·)

/-- Whether a word names a color: by its name, or by the six digits of its parts. -/
def isColor (word : String) : Bool :=
  colors.contains word ||
    match word.toList with
    | '#' :: digits => digits.length == 6 && digits.all fun c => (Text.hexDigit? c).isSome
    | _ => false

/-- What the words of a style say: its attributes with whether they are set, its color, and the color
behind it. -/
structure Meaning where
  set : List (String × Bool) := []
  color : Option String := none
  background : Option String := none

/-- What words say; `none` if they are not those of a style. -/
def meaning? (m : Meaning) : List String → Option Meaning
  | [] => some m
  | "on" :: word :: rest =>
      if isColor word then meaning? { m with background := some word } rest else none
  | "not" :: word :: rest =>
      (attribute? word).bind fun a => meaning? { m with set := (a, false) :: m.set } rest
  | word :: rest =>
      match attribute? word with
      | some a => meaning? { m with set := (a, true) :: m.set } rest
      | none => if isColor word then meaning? { m with color := some word } rest else none

/-- The words for a meaning. -/
def Meaning.words (m : Meaning) : List String :=
  attributes.flatMap (fun a =>
    match m.set.lookup a.1 with
    | some true => [a.1]
    | some false => ["not", a.1]
    | none => []) ++ m.color.toList ++ (m.background.map fun c => ["on", c]).getD []

/-- The words of a text. -/
def wordsOf (cs : List Char) : List String :=
  ((cs.map fun c => if Text.isBlank c then ' ' else c).splitOn ' ').filterMap fun w =>
    if w.isEmpty then none else some (String.ofList w)

/-- The name of a style in a form that depends only on its meaning, as far as it has one. -/
def normal (name : List Char) : String :=
  let name := Text.lower (Text.trim (String.ofList name))
  match meaning? {} (wordsOf name.toList) with
  | some m => " ".intercalate m.words
  | none => name

end Style

/-- The style that a tag names, up to an equals sign. -/
def styleOf (tag : List Char) : String := Style.normal (tag.takeWhile (· != '='))

/-! ### Texts -/

/-- Whether a character would move the cursor. -/
def movesCursor (c : Char) : Bool := [0x7, 0x8, 0xb, 0xc, 0xd].contains c.toNat

/-- The text of some pieces, given the styles that are open. A closing tag closes the style that it
names, or the last one that was opened if it names none. -/
def textOf? (open_ : List String) : List Piece → Option (List Char)
  | [] => some []
  | .text cs :: rest => (unescaped cs ++ ·) <$> textOf? open_ rest
  | .tag ('/' :: name) :: rest =>
      let style := styleOf name
      if (Text.trim (String.ofList (name.takeWhile (· != '=')))).isEmpty then
        match open_ with
        | [] => none
        | _ :: outer => textOf? outer rest
      else if open_.contains style then textOf? (open_.erase style) rest
      else none
  | .tag tag :: rest => textOf? (styleOf tag :: open_) rest

/-- The text of a line without its tags, nothing if the line is unprintable. -/
def plain? (line : String) : Option String :=
  let cs := line.toList
  (fun cs => String.ofList (cs.filter (!movesCursor ·))) <$> textOf? [] (pieces (cs.length + 1) [] cs)

end VirtualTopology.Markup

namespace VirtualTopology

/-! ### Blocks -/

/-- Something that is shown as a whole. -/
inductive Block where
  | line (markup : String)
  | table (title : String) (header : List String) (rows : List (List String))
  /-- A document under a title. -/
  | panel (title : String) (document : String)
  deriving Repr, DecidableEq

namespace Block

/-- The lines of a text. -/
def linesOf (s : String) : List String := s.splitOn "\n"

/-- The lines of a row of a table. A cell of several lines goes on in the lines below, in its own
column. -/
def rowLines (widths : List Nat) (cells : List (List String)) : List String :=
  let height := (cells.map List.length).foldl max 1
  (List.range height).map fun i =>
    "  ".intercalate ((cells.zip widths).map fun (cell, width) =>
      let text := cell[i]?.getD ""
      text.pushn ' ' (width - text.length))

/-- The lines of a table. -/
def tableLines (rows : List (List String)) : List String :=
  let cells := rows.map (·.map linesOf)
  let columns := (rows.map List.length).foldl max 0
  let widths := (List.range columns).map fun j =>
    (cells.flatMap fun row => (row[j]?.getD []).map String.length).foldl max 0
  cells.flatMap (rowLines widths)

/-- The lines of a block, nothing if it is unprintable. -/
def lines? : Block → Option (List String)
  | line markup => linesOf <$> Markup.plain? markup
  | table title header rows => do
      let shown ← rows.mapM (·.mapM Markup.plain?)
      return title :: tableLines (header :: shown)
  | panel title document => do
      let shown ← Markup.plain? title
      return shown.map (fun c => if c == '\n' then ' ' else c) :: linesOf (Text.unified document)

end Block

end VirtualTopology
