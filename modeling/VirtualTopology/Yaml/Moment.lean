import VirtualTopology.Data.Moment
import VirtualTopology.Text.Numeral
import VirtualTopology.Yaml.Flaw

/-!
# Moments as they are written

A day is four digits for the year and one or two each for the month and the day, with hyphens between
them. A time may follow it, and an offset from universal time may follow the time.

A text of this form need not name a moment: `checkedMoment` refuses a day that no month has, an hour
that no day has, and an offset of a day or more.
-/

namespace VirtualTopology.Yaml

/-- Characters without a line feed at the end: a form that extends to the end of a text lets it
through. -/
def withoutFinalBreak (cs : List Char) : List Char :=
  if cs.getLast? == some '\n' then cs.dropLast else cs

namespace WrittenMoment

/-- One or two digits. -/
def digits12? : List Char → Option (Nat × List Char)
  | a :: b :: rest => do
      let m ← Text.asciiDigit? a
      match Text.asciiDigit? b with
      | some n => some (10 * m + n, rest)
      | none => some (m, b :: rest)
  | [a] => (Text.asciiDigit? a).map (·, [])
  | [] => none

/-- Exactly two digits. -/
def digits2? : List Char → Option (Nat × List Char)
  | a :: b :: rest => do return (10 * (← Text.asciiDigit? a) + (← Text.asciiDigit? b), rest)
  | _ => none

/-- A given character. -/
def past (c : Char) : List Char → Option (List Char)
  | d :: rest => if c == d then some rest else none
  | [] => none

/-- Take off blanks. -/
def dropBlanks (cs : List Char) : List Char := cs.dropWhile fun c => c == ' ' || c == '\t'

/-- The offset at the end of a moment, in seconds. -/
def offset? : List Char → Option (Option Int)
  | [] => some none
  | cs =>
      match dropBlanks cs with
      | ['Z'] => some (some 0)
      | sign :: rest => do
          if sign != '+' && sign != '-' then none
          let (hours, rest) ← digits12? rest
          let minutes ←
            if rest.isEmpty then some 0
            else do
              let (minutes, rest) ← digits2? (← past ':' rest)
              if rest.isEmpty then some minutes else none
          some (some (Text.signed (sign == '-') ((60 * hours + minutes) * 60)))
      | [] => none

/-- The millionths that the digits of a fraction give; further digits do not count. -/
def micros (fraction : List Char) : Nat :=
  Text.ofDigits (((fraction.filterMap Text.asciiDigit?) ++ List.replicate 6 0).take 6)

/-- The time behind a day. -/
def time? (cs : List Char) : Option TimeOfDay := do
  let cs ← match cs with
    | 'T' :: rest | 't' :: rest => some rest
    | ' ' :: rest | '\t' :: rest => some (dropBlanks rest)
    | _ => none
  let (hour, cs) ← digits12? cs
  let (minute, cs) ← digits2? (← past ':' cs)
  let (second, cs) ← digits2? (← past ':' cs)
  let (fraction, cs) := match cs with
    | '.' :: rest => (rest.takeWhile Char.isDigit, rest.dropWhile Char.isDigit)
    | _ => ([], cs)
  return { hour, minute, second, micros := micros fraction, offset := ← offset? cs }

/-- Read the form of a moment. -/
def read? (cs : List Char) : Option Moment := do
  let (century, rest) ← digits2? (withoutFinalBreak cs)
  let (year, rest) ← digits2? rest
  let (month, rest) ← digits12? (← past '-' rest)
  let (day, rest) ← digits12? (← past '-' rest)
  let time ← if rest.isEmpty then some none else (time? rest).map some
  return { year := 100 * century + year, month, day, time }

/-- Whether a plain scalar without a final break is a moment: a month and a day that stand alone have
two digits. -/
def isPlain (cs : List Char) : Bool :=
  match read? cs with
  | some m => m.time.isSome || cs.length == 10
  | none => false

end WrittenMoment

/-- A moment of the right form, if there is such a moment. -/
def checkedMoment (m : Moment) : Except Unnameable Moment := do
  match m.time.bind (·.offset) with
  | some seconds => if 86400 ≤ seconds.natAbs then throw (.offset seconds)
  | none => pure ()
  if m.year == 0 then throw .year
  if m.month == 0 || 12 < m.month then throw .month
  if m.day == 0 || Moment.daysIn m.year m.month < m.day then throw .day
  match m.time with
  | none => return m
  | some t =>
      if 23 < t.hour then throw .hour
      if 59 < t.minute then throw .minute
      if 59 < t.second then throw .second
      return m

end VirtualTopology.Yaml
