import VirtualTopology.Data.Moment
import VirtualTopology.Number.Refusal

/-!
# What can be wrong with a YAML text

A text is either no YAML at all (or YAML that stands for no data), which is one flaw without further
distinction, or it has the right form but something in it names no value: a day that no month has, an
integer with too many digits, a character that does not exist. Of those flaws some come with a line
that says what is wrong (`Unnameable.message`); the others have only a kind.
-/

namespace VirtualTopology.Yaml

/-- Why a scalar names no value. -/
inductive Unnameable where
  | character
  | numeral (r : NumeralRefusal)
  | year
  | month
  | day
  | hour
  | minute
  | second
  /-- An offset from universal time of a day or more, in seconds. -/
  | offset (seconds : Int)
  deriving Repr, DecidableEq

/-- What is wrong with a text. -/
inductive Flaw where
  | malformed
  | unnameable (what : Unnameable)
  /-- Nothing is left of a number but its sign. -/
  | noDigits
  /-- A truth value is none of the words for one. -/
  | noTruth
  /-- A moment does not have the form of one. -/
  | noMoment
  /-- A mapping stands for a moment. -/
  | momentOfMapping
  /-- A number is beyond all bounds. -/
  | tooLarge
  /-- Nodes are nested too deep, or a node stands for itself. -/
  | tooDeep
  deriving Repr, DecidableEq

/-- The line for a scalar that names no value. -/
def Unnameable.message : Unnameable → String
  | character => "chr() arg not in range(0x110000)"
  | numeral r => r.message
  | year => "year 0 is out of range"
  | month => "month must be in 1..12"
  | day => "day is out of range for month"
  | hour => "hour must be in 0..23"
  | minute => "minute must be in 0..59"
  | second => "second must be in 0..59"
  | offset seconds =>
      "offset must be a timedelta strictly between -timedelta(hours=24) and timedelta(hours=24), " ++
        "not " ++ spanExpression seconds ++ "."

/-- The line for a flaw that has one. -/
def Flaw.message? : Flaw → Option String
  | unnameable what => some what.message
  | _ => none

end VirtualTopology.Yaml
