import VirtualTopology.Text.Numeral

/-!
# Integers in texts of structured data

Structured data may give an integer as a text. The strict form is that of a number in data: a minus sign
possibly, and digits without a zero in front. Any other text is tidied first (`tidied?`), which allows
for spaces around it, a plus sign, zeros in front, a point with zeros behind it, and single underscores
between digits; what is left must have the strict form.

Zeros in front are looked for once only, so that a minus sign may stand behind them but none may
stand behind a minus sign.
-/

namespace VirtualTopology.IntegerText

open Text

/-- Read the strict form: no more than `digitLimit` characters, whatever follows them. -/
def strict? (cs : List Char) : Except NumeralError Int :=
  let negative := cs.head? == some '-'
  let digits := if negative then cs.drop 1 else cs
  match digits with
  | ['0'] => .ok 0
  | c :: _ =>
      let run := digits.takeWhile Char.isDigit
      if c == '0' || run.isEmpty then .error .malformed
      else if digitLimit < run.length + (if negative then 1 else 0) then .error (.tooLong run.length)
      else if run.length < digits.length then .error .malformed
      else .ok (signed negative (ofDigits (run.filterMap asciiDigit?)))
  | [] => .error .malformed

/-- Take off zeros and underscores up to a digit or a minus sign, and up to the last of them before a
point or at the end. `last` is the character before. -/
def dropZeros? (last : Char) : List Char → Option (List Char)
  | [] => some [last]
  | c :: cs =>
      if c == '0' || c == '_' then dropZeros? c cs
      else if c.isDigit || c == '-' then some (c :: cs)
      else if c == '.' then some (last :: c :: cs)
      else none

/-- Take off a point with nothing but zeros behind it, at least one. -/
def dropFraction (cs : List Char) : List Char :=
  match cs.dropWhile (· != '.') with
  | _ :: zeros =>
      if !zeros.isEmpty && zeros.all (· == '0') then cs.takeWhile (· != '.') else cs
  | [] => cs

/-- Take out underscores, unless one stands at an end or next to another. -/
def dropUnderscores (cs : List Char) : List Char :=
  let words := cs.splitOn '_'
  if words.any (·.isEmpty) then cs else words.flatten

/-- A text with everything taken off that the strict form does not have. -/
def tidied? (cs : List Char) : Option (List Char) := do
  let cs := trimBy isSpace cs
  let cs ← match cs with
    | '+' :: '-' :: _ => none
    | '+' :: cs => some cs
    | cs => some cs
  let cs ← match cs with
    | '0' :: rest => dropZeros? '0' rest
    | c :: _ => if c.isDigit || c == '-' then some cs else none
    | [] => none
  return dropUnderscores (dropFraction cs)

/-- Read an integer. -/
def read? (cs : List Char) : Except NumeralError Int :=
  match strict? cs with
  | .error .malformed =>
      match tidied? cs with
      | some cs => strict? cs
      | none => .error .malformed
  | other => other

end VirtualTopology.IntegerText
