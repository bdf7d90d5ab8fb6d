/-!
# Moments

A moment is a day, or a day with a time. A time may say how far it is ahead of universal time; then the
moment is an instant, and two moments that are the same instant are the same moment, whatever their
offsets are (`Moment.same`).

A moment that is shown by itself has its written form (`Moment.text`). Inside a collection it is shown
as the expression that makes it (`Moment.expression`).
-/

namespace VirtualTopology

/-- A time of day. -/
structure TimeOfDay where
  hour : Nat
  minute : Nat
  second : Nat
  /-- Millionths of a second. -/
  micros : Nat := 0
  /-- The seconds by which the time is ahead of universal time. -/
  offset : Option Int := none
  deriving Repr, DecidableEq

/-- A day, or a day with a time. -/
structure Moment where
  year : Nat
  month : Nat
  day : Nat
  time : Option TimeOfDay := none
  deriving Repr, DecidableEq

/-- A number with at least two digits. -/
def twoDigits (n : Nat) : String := if n < 10 then "0" ++ toString n else toString n

/-- A number with at least as many digits as a width says. -/
def padded (width n : Nat) : String := "".pushn '0' (width - (toString n).length) ++ toString n

/-- A span of time as the expression that makes it: days and seconds, the days rounded down. -/
def spanExpression (seconds : Int) : String :=
  let days := seconds.fdiv 86400
  let rest := seconds.fmod 86400
  let parts := (if days == 0 then [] else ["days=" ++ toString days]) ++
    (if rest == 0 then [] else ["seconds=" ++ toString rest])
  "datetime.timedelta(" ++ (if parts.isEmpty then "0" else ", ".intercalate parts) ++ ")"

namespace TimeOfDay

/-- The text of an offset from universal time. -/
def offsetText (seconds : Int) : String :=
  let minutes := seconds.natAbs / 60
  (if seconds < 0 then "-" else "+") ++ twoDigits (minutes / 60) ++ ":" ++ twoDigits (minutes % 60)

/-- The written form: hours, minutes and seconds, millionths if there are any, and the offset. -/
def text (t : TimeOfDay) : String :=
  twoDigits t.hour ++ ":" ++ twoDigits t.minute ++ ":" ++ twoDigits t.second ++
    (if t.micros = 0 then "" else "." ++ padded 6 t.micros) ++ (t.offset.map offsetText).getD ""

/-- The expression of an offset from universal time. -/
def offsetExpression (seconds : Int) : String :=
  if seconds = 0 then "datetime.timezone.utc"
  else "datetime.timezone(" ++ spanExpression seconds ++ ")"

/-- The arguments that make the time: seconds and millionths are left out if nothing but zeros
follows. -/
def arguments (t : TimeOfDay) : List String :=
  [toString t.hour, toString t.minute] ++
    (if t.second = 0 ∧ t.micros = 0 then [] else [toString t.second]) ++
    (if t.micros = 0 then [] else [toString t.micros]) ++
    t.offset.toList.map fun seconds => "tzinfo=" ++ offsetExpression seconds

end TimeOfDay

namespace Moment

/-! ### The calendar -/

/-- The number of days of a month. -/
def daysIn (year month : Nat) : Nat :=
  let isLeap := year % 4 == 0 && (year % 100 != 0 || year % 400 == 0)
  if month == 2 then (if isLeap then 29 else 28)
  else if [4, 6, 9, 11].contains month then 30
  else 31

/-- The number of a day, counted from the first day of the year 1. -/
def dayNumber (m : Moment) : Nat :=
  let years := m.year - 1
  365 * years + years / 4 - years / 100 + years / 400 +
    ((List.range (m.month - 1)).map fun i => daysIn m.year (i + 1)).foldl (· + ·) 0 + m.day

/-- The instant that a moment with an offset is, in millionths of a second. -/
def instant? (m : Moment) : Option Int := do
  let t ← m.time
  let offset ← t.offset
  let seconds : Int := 86400 * m.dayNumber + 3600 * t.hour + 60 * t.minute + t.second
  return 1000000 * (seconds - offset) + t.micros

/-- Whether two moments are the same. -/
def same (a b : Moment) : Bool :=
  match a.instant?, b.instant? with
  | some x, some y => x == y
  | none, none => a == b
  | _, _ => false

/-! ### Text -/

/-- The written form. -/
def text (m : Moment) : String :=
  padded 4 m.year ++ "-" ++ twoDigits m.month ++ "-" ++ twoDigits m.day ++
    (m.time.map fun t => " " ++ t.text).getD ""

/-- The expression that makes the moment. -/
def expression (m : Moment) : String :=
  let day := [toString m.year, toString m.month, toString m.day]
  match m.time with
  | none => "datetime.date(" ++ ", ".intercalate day ++ ")"
  | some t => "datetime.datetime(" ++ ", ".intercalate (day ++ t.arguments) ++ ")"

end Moment

end VirtualTopology
