import VirtualTopology.Number.Decimal
import VirtualTopology.Text.Quoted

/-!
# Texts that are numbers as a whole

Where a whole text has to be a number, one that is not is refused with a line that quotes it
(`NumeralRefusal.message`). A long text is quoted in part where an integer was expected.

A number with too many digits is neither read nor written; `tooLongToWrite` is the line for the
second case.
-/

namespace VirtualTopology

/-- The refusal of a text as a number. -/
inductive NumeralRefusal where
  | integer (base : Nat) (written : String)
  | tooManyDigits (digits : Nat)
  | number (written : String)
  deriving Repr, DecidableEq

namespace NumeralRefusal

/-- The greatest length of the text that is quoted where an integer was expected. -/
def quotedWidth : Nat := 200

/-- What is wrong with a number of too many digits. -/
def limitExceeded : String :=
  "Exceeds the limit (" ++ toString Text.digitLimit ++ " digits) for integer string conversion"

/-- What can be done about it. -/
def limitAdvice : String := "; use sys.set_int_max_str_digits() to increase the limit"

/-- The line for a number that has too many digits to be written. -/
def tooLongToWrite : String := limitExceeded ++ limitAdvice

/-- The line for a refusal. -/
def message : NumeralRefusal → String
  | integer base written =>
      "invalid literal for int() with base " ++ toString base ++ ": " ++
        String.ofList ((Text.quoted written).toList.take quotedWidth)
  | tooManyDigits digits =>
      limitExceeded ++ ": value has " ++ toString digits ++ " digits" ++ limitAdvice
  | number written => "could not convert string to float: " ++ Text.quoted written

end NumeralRefusal

/-- Read a text as an integer in a base; the mark of the base may stand before the digits. -/
def wholeIntegerIn (base : Nat) (written : String) : Except NumeralRefusal Int :=
  match Text.integerIn? base written with
  | .ok n => .ok n
  | .error .malformed => .error (.integer base written)
  | .error (.tooLong digits) => .error (.tooManyDigits digits)

/-- Read a text as a decimal integer. -/
def wholeInteger (written : String) : Except NumeralRefusal Int := wholeIntegerIn 10 written

/-- Read a text as a number. -/
def wholeNumber (written : String) : Except NumeralRefusal Binary64 :=
  match Binary64.ofText? written with
  | some x => .ok x
  | none => .error (.number written)

end VirtualTopology
