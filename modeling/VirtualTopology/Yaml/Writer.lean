import VirtualTopology.Data.Basic
import VirtualTopology.Yaml.Place
import VirtualTopology.Yaml.Tag

/-!
# Writing YAML

Data is written in blocks, two spaces further in on each level, except that a sequence stands in the
column of the key that it belongs to. All characters are printable ASCII characters.

A text is written plain if it then reads back as the same text, else between single quotes if these
can hold it, else between double quotes with escapes. A text that goes beyond `lineWidth` columns is
folded at its next space. Keys are not folded; a key that is empty, long or has several lines stands
behind a question mark.
-/

namespace VirtualTopology.Yaml

/-- The column behind which lines are folded. -/
def lineWidth : Nat := 80

/-- The greatest length, with its tag, of a key that stands in one line with its colon. -/
def keyWidth : Nat := 127

/-- A line end, and the indentation of the next line. -/
def newLine (indent : Nat) : List Char := '\n' :: List.replicate indent ' '

/-! ### Styles of text -/

/-- Whether a text has two characters of given kinds next to each other. -/
def hasPair (first second : Char → Bool) : List Char → Bool
  | a :: b :: rest => (first a && second b) || hasPair first second (b :: rest)
  | _ => false

/-- Whether a character can stand unescaped: line feeds and printable ASCII characters. -/
def isOrdinary (c : Char) : Bool := c == '\n' || (' ' ≤ c && c ≤ '~')

/-- Whether a text begins with characters that have a meaning in a block. -/
def beginsMeaningful (cs : List Char) : Bool :=
  "---".toList.isPrefixOf cs || "...".toList.isPrefixOf cs ||
    match cs with
    | [] => false
    | c :: rest =>
        "#,[]\x7b\x7d&*!|>'\"%@`".toList.contains c ||
          ((c == '?' || c == ':' || c == '-') && atGap rest)

/-- Whether a text has characters behind its first that have a meaning in a block: a colon before a
gap, a number sign behind one. -/
def holdsMeaningful (cs : List Char) : Bool :=
  let isGap (c : Char) : Bool := atGap [c]
  cs.getLast? == some ':' || hasPair (· == ':') isGap cs || hasPair isGap (· == '#') cs

/-- Whether a text can stand plain: it is the text that its form suggests. -/
def isPlainText (s : String) : Bool :=
  let cs := s.toList
  let isEdge (c? : Option Char) : Bool := c?.any fun c => c == ' ' || isBreak c
  Tag.ofPlain s == .text && cs.all (fun c => isOrdinary c && !isBreak c) &&
    !isEdge cs.head? && !isEdge cs.getLast? && !beginsMeaningful cs && !holdsMeaningful cs

/-- Whether a text can stand between single quotes: no space at the end or the beginning of a line
of several. -/
def isSingleText (s : String) : Bool :=
  let cs := s.toList
  cs.all isOrdinary && !hasPair isBreak (· == ' ') cs && !hasPair (· == ' ') isBreak cs

/-! ### Folding -/

/-- Write a text plain or between single quotes from a column on. A quote between quotes is written
twice. A single space between two words beyond the width becomes a line end, and a run of line ends is
one longer. -/
def foldText (quoted fold : Bool) (indent : Nat) : (column : Nat) → (before : Option Char) →
    List Char → List Char
  | _, _, [] => []
  | column, before, c :: rest =>
      let next := rest.head?
      if c == ' ' && fold && lineWidth < column && before.any (· != ' ') && next.any (· != ' ') then
        newLine indent ++ foldText quoted fold indent indent (some c) rest
      else if c == '\n' then
        (if before == some c then [c] else [c, c]) ++
          if next == some c then foldText quoted fold indent 0 (some c) rest
          else List.replicate indent ' ' ++ foldText quoted fold indent indent (some c) rest
      else if c == '\'' && quoted then
        c :: c :: foldText quoted fold indent (column + 2) (some c) rest
      else c :: foldText quoted fold indent (column + 1) (some c) rest

/-- The letters behind a backslash for characters that have one. -/
def escapeLetters : List (Nat × Char) :=
  [(0, '0'), (7, 'a'), (8, 'b'), (9, 't'), (10, 'n'), (11, 'v'), (12, 'f'), (13, 'r'), (0x1b, 'e'),
   (0x22, '"'), (0x5c, '\\'), (0x85, 'N'), (0xa0, '_'), (0x2028, 'L'), (0x2029, 'P')]

/-- A character between double quotes, if it is escaped. -/
def escapeOf? (c : Char) : Option (List Char) :=
  let n := Text.codePoint c
  match escapeLetters.lookup n with
  | some letter => some ['\\', letter]
  | none =>
      if ' ' ≤ c && c ≤ '~' then none
      else
        let digits (width : Nat) : List Char := (Text.hex width n).map Char.toUpper
        some (if n ≤ 0xff then '\\' :: 'x' :: digits 2
          else if n ≤ 0xffff then '\\' :: 'u' :: digits 4
          else '\\' :: 'U' :: digits 8)

/-- Write a text between double quotes from a column on. Beyond the width a line ends with a
backslash, before a space or where an escape is next to it. -/
def foldEscaped (fold : Bool) (indent : Nat) : (column : Nat) → (isFirst behindEscape : Bool) →
    List Char → List Char
  | _, _, _, [] => []
  | column, isFirst, behindEscape, c :: rest =>
      let mayFold (column : Nat) : Bool := fold && !isFirst && !rest.isEmpty && lineWidth < column
      match escapeOf? c with
      | some escape =>
          let column := column + escape.length
          if mayFold (column - 1) then
            let guarded := rest.head? == some ' '
            escape ++ '\\' :: newLine indent ++ (if guarded then ['\\'] else []) ++
              foldEscaped fold indent (if guarded then indent + 1 else indent) false true rest
          else escape ++ foldEscaped fold indent column false true rest
      | none =>
          if (c == ' ' || behindEscape) && mayFold column then
            let guarded := c == ' '
            '\\' :: newLine indent ++ (if guarded then ['\\', c] else [c]) ++
              foldEscaped fold indent (if guarded then indent + 2 else indent + 1) false false rest
          else c :: foldEscaped fold indent (column + 1) false false rest

/-! ### Scalars -/

/-- Write a text from a column on. -/
def writeText (fold : Bool) (indent column : Nat) (s : String) : List Char :=
  if isPlainText s then foldText false fold indent column none s.toList
  else if isSingleText s then
    '\'' :: foldText true fold indent (column + 1) none s.toList ++ ['\'']
  else '"' :: foldEscaped fold indent (column + 1) true true s.toList ++ ['"']

/-- The text of a number: what is not finite has a point before it, and an exponent never stands
without a point. -/
def numberText (x : Binary64) : String :=
  match x with
  | .notANumber => ".nan"
  | .infinite negative => if negative then "-.inf" else ".inf"
  | x =>
      let cs := x.text.toList
      if cs.contains 'e' && !cs.contains '.' then
        String.ofList (cs.takeWhile (· != 'e') ++ '.' :: '0' :: cs.dropWhile (· != 'e'))
      else x.text

/-- Write a scalar from a column on. Octets and moments are written as texts. -/
def writeScalar (fold : Bool) (indent column : Nat) : Scalar → List Char
  | .null => "null".toList
  | .bool b => (if b then "true" else "false").toList
  | .int i => (toString i).toList
  | .float x => (numberText x).toList
  | s => writeText fold indent column s.display

/-- Whether a key stands in one line with its colon: a text counts with the five characters of its
tag. -/
def isShortKey : Scalar → Bool
  | .text s => !s.isEmpty && !s.toList.any isBreak && s.length + 5 ≤ keyWidth
  | _ => true

/-! ### Collections -/

/-- Write the items of a set in a column, as those of a sequence. -/
def writeScalars (indent : Nat) (items : List Scalar) : List Char :=
  (newLine indent).intercalate
    (items.map fun s => '-' :: ' ' :: writeScalar true (indent + 2) (indent + 2) s)

/-- A sequence of two items in a column. -/
def twoItems (indent : Nat) (first second : List Char) : List Char :=
  '-' :: ' ' :: first ++ newLine indent ++ '-' :: ' ' :: second

mutual

/-- Write what stands behind a mark, two columns behind the mark. -/
def writeCompact (indent : Nat) : Data → List Char
  | .scalar s => writeScalar true (indent + 2) (indent + 2) s
  | .list [] => ['[', ']']
  | .list items => writeItems (indent + 2) items
  | .pair key value =>
      twoItems (indent + 2) (writeCompact (indent + 2) key) (writeCompact (indent + 2) value)
  | .knot _ d => writeCompact indent d
  | .set items => writeScalars (indent + 2) items
  | .mapping [] => ['\x7b', '\x7d']
  | .mapping entries => writeEntries (indent + 2) entries

/-- Write the items of a sequence in a column. -/
def writeItems (indent : Nat) : List Data → List Char
  | [] => []
  | [d] => '-' :: ' ' :: writeCompact indent d
  | d :: ds => '-' :: ' ' :: writeCompact indent d ++ newLine indent ++ writeItems indent ds

/-- Write the value of a key that stands in its line up to a column. -/
def writeValue (indent column : Nat) : Data → List Char
  | .scalar s => ' ' :: writeScalar true (indent + 2) (column + 1) s
  | .list [] => [' ', '[', ']']
  | .list items => newLine indent ++ writeItems indent items
  | .pair key value =>
      newLine indent ++ twoItems indent (writeCompact indent key) (writeCompact indent value)
  | .knot _ d => writeValue indent column d
  | .set items => newLine indent ++ writeScalars indent items
  | .mapping [] => [' ', '\x7b', '\x7d']
  | .mapping entries => newLine (indent + 2) ++ writeEntries (indent + 2) entries

/-- Write an entry of a mapping in a column. -/
def writeEntry (indent : Nat) : Scalar × Data → List Char
  | (k, v) =>
      if isShortKey k then
        let key := writeScalar false indent indent k
        key ++ ':' :: writeValue indent (indent + key.length + 1) v
      else
        '?' :: ' ' :: writeScalar true (indent + 2) (indent + 2) k ++ newLine indent ++
          ':' :: ' ' :: writeCompact indent v

/-- Write the entries of a mapping in a column. -/
def writeEntries (indent : Nat) : List (Scalar × Data) → List Char
  | [] => []
  | [e] => writeEntry indent e
  | e :: es => writeEntry indent e ++ newLine indent ++ writeEntries indent es

end

/-- The text of a value. -/
def write (d : Data) : String :=
  String.ofList ((match d.untied with
    | .scalar s => writeScalar true 2 0 s
    | .list [] => ['[', ']']
    | .list items => writeItems 0 items
    | .pair key value => twoItems 0 (writeCompact 0 key) (writeCompact 0 value)
    | .knot _ d => writeCompact 0 d
    | .set items => writeScalars 0 items
    | .mapping [] => ['\x7b', '\x7d']
    | .mapping entries => writeEntries 0 entries) ++ ['\n'])

end VirtualTopology.Yaml
