import VirtualTopology.Address
import VirtualTopology.Number.Refusal
import VirtualTopology.Text.Quoted

/-!
# Faults of structured data

Reading structured data as a value of the topology finds all faults at once. A `Fault` says what is
wrong and where: the path consists of the keys and places that lead to the value. `Mismatch.code`
is the word by which a fault is reported, and an `Objection`, raised by a rule of the topology
rather than by the shape of the data, has a message of its own.
-/

namespace VirtualTopology

/-- One step on the path to a value. -/
inductive Step where
  | key (name : String)
  | index (place : Int)
  deriving Repr, DecidableEq

/-- What a rule of the topology or the settings objects to. -/
inductive Objection where
  | quantity (written : String)
  | quantityTooLong (digits : Nat)
  | netmask (mask : Address)
  | volumeUndefined (entry : String)
  | volumeMisnamed (entry definition : String)
  | hardwareAddress (written : String)
  | logLevel
  deriving Repr, DecidableEq

/-- The names of the log levels that the settings admit. -/
def logLevels : List String := ["DEBUG", "INFO", "WARNING", "ERROR", "CRITICAL"]

/-- The text of an objection. -/
def Objection.message : Objection → String
  | quantity written => "Invalid quantity: " ++ Text.quoted written
  | quantityTooLong digits => (NumeralRefusal.tooManyDigits digits).message
  | netmask mask => "Invalid netmask: " ++ mask.text
  | volumeUndefined entry =>
      "Volume entry " ++ Text.quoted entry ++ " is present but has no volume definition"
  | volumeMisnamed entry definition =>
      "Volume entry " ++ Text.quoted entry ++ " carries a definition named " ++
        Text.quoted definition
  | hardwareAddress written => "Invalid MAC address: " ++ written
  | logLevel =>
      "Log level must be one of [" ++ ", ".intercalate (logLevels.map Text.quoted) ++ "]"

/-- What is wrong with a value. -/
inductive Mismatch where
  | missing
  | unknownKey
  | keyNotText
  | notRecord
  | notState
  | modeMissing
  | modeUnknown
  | notList
  | notMapping
  | notText
  /-- A text or octets that no characters correspond to. -/
  | notCharacters
  | textTooShort
  | notInteger
  | integerUnreadable
  | integerTooLong
  | fractional
  | notNumber
  | numberUnreadable
  | notFinite
  | notBool
  | boolUnreadable
  | tooSmall
  | tooLarge
  | notAmong
  | notAddress
  | notIdentifier
  | identifierUnreadable
  | objection (o : Objection)
  deriving Repr, DecidableEq

/-- The word by which a mismatch is reported. -/
def Mismatch.code : Mismatch → String
  | missing => "missing"
  | unknownKey => "extra_forbidden"
  | keyNotText => "invalid_key"
  | notRecord => "model_type"
  | notState => "model_attributes_type"
  | modeMissing => "union_tag_not_found"
  | modeUnknown => "union_tag_invalid"
  | notList => "list_type"
  | notMapping => "dict_type"
  | notText => "string_type"
  | notCharacters => "string_unicode"
  | textTooShort => "string_too_short"
  | notInteger => "int_type"
  | integerUnreadable => "int_parsing"
  | integerTooLong => "int_parsing_size"
  | fractional => "int_from_float"
  | notNumber => "float_type"
  | numberUnreadable => "float_parsing"
  | notFinite => "finite_number"
  | notBool => "bool_type"
  | boolUnreadable => "bool_parsing"
  | tooSmall => "greater_than_equal"
  | tooLarge => "less_than_equal"
  | notAmong => "enum"
  | notAddress => "ip_v4_address"
  | notIdentifier => "uuid_type"
  | identifierUnreadable => "uuid_parsing"
  | objection _ => "value_error"

/-- Something wrong at the end of a path. -/
structure Fault where
  what : Mismatch
  path : List Step := []
  deriving Repr, DecidableEq

namespace Fault

/-- The message of a fault that has one: the objection behind its fixed opening. -/
def message? (f : Fault) : Option String :=
  match f.what with
  | .objection o => some ("Value error, " ++ o.message)
  | _ => none

/-- The same fault seen from one step further out. -/
def under (s : Step) (f : Fault) : Fault := { f with path := s :: f.path }

end Fault

/-- All faults found while reading a record of a named type. -/
structure Rejection where
  title : String
  faults : List Fault
  deriving Repr, DecidableEq

/-- The opening line of a rejection: how many faults, and in what. -/
def Rejection.summary (r : Rejection) : String :=
  let n := r.faults.length
  toString n ++ (if n = 1 then " validation error for " else " validation errors for ") ++ r.title

end VirtualTopology
