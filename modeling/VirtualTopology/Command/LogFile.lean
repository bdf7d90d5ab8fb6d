import VirtualTopology.Command.Workspace
import VirtualTopology.Number.Decimal
import VirtualTopology.Settings
import VirtualTopology.Text.Letter

/-!
# Log files

Before a pass its log is opened. The level has to be a known one, and if there is a log file, when a
new one is started has to be a size, a span of time, a frequency or a time of day or of the week, and
how long old ones are kept has to be a span of time (`LogSettings.isSound`). The file and its directory
are made if they are not there.
-/

namespace VirtualTopology

namespace LogTerm

/-- The levels of log lines. -/
def levels : List String :=
  ["TRACE", "DEBUG", "INFO", "SUCCESS", "WARNING", "ERROR", "CRITICAL"]

/-- Whether a character can stand in a number. -/
def isNumberChar (c : Char) : Bool :=
  c == 'e' || c == 'E' || c == '+' || c == '-' || c == '.' || Text.isDigit c

/-- A number at the beginning of a text, with the blanks behind it, and what follows. -/
def number? (cs : List Char) : Option (Binary64 × List Char) :=
  let rest := cs.dropWhile isNumberChar
  (Binary64.ofText? (String.ofList (cs.takeWhile isNumberChar))).map fun x =>
    (x, rest.dropWhile Text.isBlank)

/-- The units of sizes, in small letters. -/
def sizeUnits : List String :=
  let multiples := "kmgtpezy".toList.map (·.toString)
  ("" :: multiples).flatMap fun m => [m ++ "b", m ++ "ib"]

/-- Whether a text is a size. -/
def isSize (s : String) : Bool :=
  match number? (Text.trim s).toList with
  | some (_, unit) => sizeUnits.contains (Text.lower (String.ofList unit))
  | none => false

/-- The units of spans of time, in small letters. -/
def spanUnits : List String :=
  ["y", "year", "years", "month", "months", "w", "week", "weeks", "d", "day", "days", "h", "hour",
   "hours", "min", "mins", "minute", "minutes", "s", "sec", "secs", "second", "seconds", "ms",
   "millisecond", "milliseconds", "us", "microsecond", "microseconds"]

/-- Whether a text is a sequence of numbers with units of time, with blanks and commas between
them. -/
def isSpanFrom : (steps : Nat) → List Char → Bool
  | 0, _ => false
  | steps + 1, cs =>
      match number? cs with
      | some (_, rest) =>
          let unit := rest.takeWhile Char.isAlpha
          let following := (rest.drop unit.length).dropWhile fun c => Text.isBlank c || c == ','
          spanUnits.contains (Text.lower (String.ofList unit)) &&
            (following.isEmpty || isSpanFrom steps following)
      | none => false

/-- Whether a text is a span of time. -/
def isSpan (s : String) : Bool :=
  let cs := (Text.trim s).toList
  isSpanFrom (cs.length + 1) cs

/-- Whether a text is a frequency. -/
def isFrequency (s : String) : Bool :=
  ["hourly", "daily", "weekly", "monthly", "yearly"].contains (Text.lower (Text.trim s))

/-- Whether a text is a day of the week. -/
def isWeekday (s : String) : Bool :=
  ["monday", "tuesday", "wednesday", "thursday", "friday", "saturday", "sunday", "w0", "w1", "w2",
   "w3", "w4", "w5", "w6"].contains (Text.lower (Text.trim s))

/-- Whether a text is a number of at most two digits below a bound. -/
def isBelow (bound : Nat) (cs : List Char) : Bool :=
  !cs.isEmpty && cs.length ≤ 2 && cs.all Char.isDigit &&
    Text.ofDigits (cs.filterMap Text.asciiDigit?) < bound

/-- Whether a text is a number of seconds below a minute, which a fraction may follow. -/
def isSecond (cs : List Char) : Bool :=
  match cs.splitOn '.' with
  | [s] => isBelow 60 s
  | [s, f] => isBelow 60 s && !f.isEmpty && f.length ≤ 6 && f.all Char.isDigit
  | _ => false

/-- Whether a text is a time of day: an hour, which minutes and seconds may follow. -/
def isClock (s : String) : Bool :=
  match (Text.trim s).toList.splitOn ':' with
  | [h] => isBelow 24 h
  | [h, m] => isBelow 24 h && isBelow 60 m
  | [h, m, s] => isBelow 24 h && isBelow 60 m && isSecond s
  | _ => false

/-- Whether a text is an hour from 1 to 12. -/
def isHalfDayHour (cs : List Char) : Bool := isBelow 13 cs && !isBelow 1 cs

/-- Whether a text is a time of day on a clock of twelve hours, with the half of the day at its end.
There may be blanks between them, but not behind minutes without seconds. -/
def isHalfDayClock (s : String) : Bool :=
  let cs := (Text.trim s).toList
  let before := cs.take (cs.length - 2)
  let time := (before.reverse.dropWhile Text.isBlank).reverse
  ["am", "pm"].contains (Text.lower (String.ofList (cs.drop (cs.length - 2)))) &&
    match time.splitOn ':' with
    | [h] => isHalfDayHour h
    | [h, m] => time.length == before.length && isHalfDayHour h && isBelow 60 m
    | [h, m, s] => isHalfDayHour h && isBelow 60 m && isSecond s
    | _ => false

/-- Whether a text is a time of day on either clock. -/
def isTime (s : String) : Bool := isClock s || isHalfDayClock s

/-- Whether a text is a time of day, a day of the week, or a day of the week at a time of day. -/
def isMoment (s : String) : Bool :=
  isWeekday s || isTime s ||
    match (Text.lower (Text.trim s)).splitOn " at " with
    | [day, time] => isWeekday day && isTime time
    | _ => false

end LogTerm

namespace LogSettings

open LogTerm

/-- Whether a log can be opened with some settings. -/
def isSound (s : LogSettings) : Bool :=
  levels.contains s.level &&
    (s.file.all (·.isEmpty) ||
      ((isSize s.rotation || isSpan s.rotation || isFrequency s.rotation || isMoment s.rotation) &&
        isSpan s.retention))

/-- The workspace with an open log, nothing if it cannot be opened. A log file that is there is gone
on with. -/
def opened? (s : LogSettings) (w : Workspace) : Option Workspace :=
  if s.isSound then
    match s.file.filter (!·.isEmpty) with
    | none => some w
    | some file => do
        let path := PosixPath.ofText file
        let w ← w.makeDirectory? path.parent
        w.write? path ((w.read? path).getD "")
  else none

end LogSettings

end VirtualTopology
