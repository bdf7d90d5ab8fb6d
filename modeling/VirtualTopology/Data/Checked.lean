import VirtualTopology.Data.Basic
import VirtualTopology.Data.Fault
import VirtualTopology.Data.IntegerText
import VirtualTopology.Identifier

/-!
# Reading structured data

`Checked α` is a value of type `α` or a list of faults, and `<*>` collects the faults of both sides,
so that a record is read by applying its constructor to the readings of its fields, in order.

The readers of single values are lenient in the usual ways: an integer may be given as a truth
value, as a number without fraction or as digits in a text (`IntegerText`); a truth value as one of a
few words; an address as its number; a text as its octets. `record` reads a mapping, and `sealed`
reports the keys it does not know behind the faults of the fields.
-/

namespace VirtualTopology

/-- A value, or everything that is wrong with the data it was read from. -/
inductive Checked (α : Type) where
  | valid (value : α)
  | invalid (faults : List Fault)
  deriving Repr

namespace Checked

variable {α β : Type}

/-- A single fault at the value itself. -/
def fault (m : Mismatch) : Checked α := .invalid [{ what := m }]

/-- Apply a function to the value. -/
def map (f : α → β) : Checked α → Checked β
  | valid a => valid (f a)
  | invalid fs => invalid fs

/-- Apply a checked function to a checked value; the faults of both are kept. -/
def seq (f : Checked (α → β)) (x : Unit → Checked α) : Checked β :=
  match f, x () with
  | valid f, valid a => valid (f a)
  | valid _, invalid gs => invalid gs
  | invalid fs, valid _ => invalid fs
  | invalid fs, invalid gs => invalid (fs ++ gs)

instance : Functor Checked := ⟨fun f x => x.map f, fun a x => x.map fun _ => a⟩

instance : Seq Checked := ⟨seq⟩

instance : Pure Checked := ⟨valid⟩

/-- Check further once everything before is valid. -/
def andThen (x : Checked α) (f : α → Checked β) : Checked β :=
  match x with
  | valid a => f a
  | invalid fs => invalid fs

/-- The reading of a part, seen from the whole. -/
def under (s : Step) : Checked α → Checked α
  | valid a => valid a
  | invalid fs => invalid (fs.map (Fault.under s))

/-- The faults. -/
def faults : Checked α → List Fault
  | valid _ => []
  | invalid fs => fs

/-- The value, or a rejection under a title. -/
def titled (title : String) : Checked α → Except Rejection α
  | valid a => .ok a
  | invalid fs => .error ⟨title, fs⟩

@[simp] theorem map_valid (f : α → β) (a : α) : (valid a).map f = valid (f a) := rfl

@[simp] theorem andThen_valid (a : α) (f : α → Checked β) : (valid a).andThen f = f a := rfl

@[simp] theorem under_valid (s : Step) (a : α) : (valid a).under s = valid a := rfl

end Checked

/-- A reading of a value. -/
abbrev Reading (α : Type) := Data → Checked α

namespace Reading

open Checked

variable {α : Type}

/-! ### Single values -/

/-- The characters of a text, also given as octets; no octets stand for half of a pair. -/
def characters (other broken : Mismatch) : Scalar → Checked String
  | .text s => if Text.holdsHalf s then fault .notCharacters else valid s
  | .octets os =>
      ((String.fromUTF8? ⟨os.toArray⟩).filter (!Text.holdsHalf ·)).elim (fault broken) valid
  | _ => fault other

/-- A text. It is passed on as it is, even if it holds half of a pair. -/
def text : Reading String
  | .scalar (.text s) => valid s
  | .scalar s => characters .notText .notCharacters s
  | _ => fault .notText

/-- A text of at least one character. -/
def name : Reading String
  | .scalar s =>
      (characters .notText .notCharacters s).andThen fun t =>
        if t.isEmpty then fault .textTooShort else valid t
  | _ => fault .notText

/-- The words for false and true. -/
def boolWord? (s : String) : Option Bool :=
  let w := String.ofList (s.toList.map Char.toLower)
  if ["0", "off", "f", "false", "n", "no"].contains w then some false
  else if ["1", "on", "t", "true", "y", "yes"].contains w then some true
  else none

/-- The size from which on a number is too great to be looked at as an integer of words. -/
def wordBound : Int := 0x8000000000000000

/-- Whether an integer is below the bound on both sides. -/
def isWord (i : Int) : Bool := -wordBound < i && i < wordBound

/-- The truth value that is an integer, if it is small enough to be one. -/
def boolOfInteger (i : Int) : Checked Bool :=
  if i = 0 then valid false
  else if i = 1 then valid true
  else fault (if isWord i then .boolUnreadable else .notBool)

/-- A truth value. -/
def bool : Reading Bool
  | .scalar (.bool b) => valid b
  | .scalar (.int i) => boolOfInteger i
  | .scalar (.float x) => x.toInt?.elim (fault .notBool) boolOfInteger
  | .scalar s =>
      (characters .notBool .boolUnreadable s).andThen fun t =>
        (boolWord? t).elim (fault .boolUnreadable) valid
  | _ => fault .notBool

/-- An integer. -/
def integer : Reading Int
  | .scalar (.int i) => valid i
  | .scalar (.bool b) => valid (if b then 1 else 0)
  | .scalar (.float x) =>
      match x with
      | .finite .. =>
          match x.toInt? with
          | some i => if isWord i then valid i else fault .integerTooLong
          | none => fault .fractional
      | _ => fault .notFinite
  | .scalar s =>
      (characters .notInteger .integerUnreadable s).andThen fun t =>
        match IntegerText.read? t.toList with
        | .ok i => valid i
        | .error .malformed => fault .integerUnreadable
        | .error (.tooLong _) => fault .integerTooLong
  | _ => fault .notInteger

/-- An integer that is not negative. -/
def natural : Reading Nat := fun d =>
  (integer d).andThen fun i => if i < 0 then fault .tooSmall else valid i.toNat

/-- An integer between two bounds. -/
def integerIn (low high : Int) : Reading Int := fun d =>
  (integer d).andThen fun i =>
    if i < low then fault .tooSmall else if high < i then fault .tooLarge else valid i

/-- A floating point number. -/
def number : Reading Binary64
  | .scalar (.float x) => valid x
  | .scalar (.int i) => (Binary64.ofInt? i).elim (fault .notNumber) valid
  | .scalar (.bool b) => valid (.ofInt (if b then 1 else 0))
  | .scalar s =>
      (characters .notNumber .numberUnreadable s).andThen fun t =>
        (Binary64.ofDataText? t).elim (fault .numberUnreadable) valid
  | _ => fault .notNumber

/-- A floating point number between two bounds. What is not a number is not below the lower bound,
but it is not at most the upper one either. -/
def numberIn (low high : Binary64) : Reading Binary64 := fun d =>
  (number d).andThen fun x =>
    if x.lt low then fault .tooSmall else if x.le high then valid x else fault .tooLarge

/-- One of several words. -/
def among (options : List (String × α)) : Reading α
  | .scalar s =>
      match characters .notAmong .notAmong s with
      | valid t => (options.lookup t).elim (fault .notAmong) valid
      | invalid _ => fault .notAmong
  | _ => fault .notAmong

/-- An identifier: in one of its spellings, or as its sixteen octets. -/
def identifier : Reading Identifier
  | .scalar s =>
      match characters .notIdentifier .identifierUnreadable s, s with
      | valid t, .octets os =>
          match Identifier.ofText? t with
          | some i => valid i
          | none => ofOctets os
      | valid t, _ => (Identifier.ofText? t).elim (fault .identifierUnreadable) valid
      | invalid _, .octets os => ofOctets os
      | invalid faults, _ => invalid faults
  | _ => fault .notIdentifier
where
  /-- The identifier with some octets. -/
  ofOctets (os : List UInt8) : Checked Identifier :=
    if os.length = 16 then valid (.ofOctets os) else fault .identifierUnreadable

/-- An address, as text or as its number. -/
def address : Reading Address
  | .scalar s =>
      let found :=
        match s with
        | .text t => Address.ofText? t
        | .int i => Address.ofInt? i
        | .bool b => Address.ofInt? (if b then 1 else 0)
        | .octets [a, b, c, d] => some (Address.ofQuads a.toNat b.toNat c.toNat d.toNat)
        | _ => none
      match found with
      | some a => valid a
      | none => fault .notAddress
  | _ => fault .notAddress

/-! ### Collections -/

/-- A value that may be null. -/
def optional (r : Reading α) : Reading (Option α)
  | .scalar .null => valid none
  | d => (r d).map some

/-- The readings of a list of values, with their places. -/
def items (r : Reading α) : (place : Nat) → List Data → Checked (List α)
  | _, [] => valid []
  | place, d :: ds => List.cons <$> (r d).under (.index place) <*> items r (place + 1) ds

/-- A list. -/
def list (r : Reading α) : Reading (List α) := fun d =>
  match d.untied with
  | .list ds => items r 0 ds
  | .pair key value => items r 0 [key, value]
  | .set ss => items r 0 (ss.map .scalar)
  | _ => fault .notList

/-- A key as a step on a path. -/
def keyStep : Scalar → Step
  | .int i => if Text.isWritable i then .index i else .key "<unprintable int object>"
  | .bool b => .index (if b then 1 else 0)
  | .text s => .key (Text.withoutHalves s)
  | s => .key s.displayInside

/-- The readings of the entries of a mapping whose keys have to be texts. -/
def entries (r : Reading α) : List (Scalar × Data) → Checked (List (String × α))
  | [] => valid []
  | (k, d) :: es =>
      let key := ((text (.scalar k)).under (.key "[key]")).under (keyStep k)
      List.cons <$> (Prod.mk <$> key <*> (r d).under (keyStep k)) <*> entries r es

/-- A mapping from texts. -/
def mapping (r : Reading α) : Reading (List (String × α)) := fun d =>
  match d.untied with
  | .mapping es => entries r es
  | _ => fault .notMapping

/-! ### Records -/

/-- A record: its fields are read from a mapping. -/
def record (body : Mapping → Checked α) : Reading α := fun d =>
  match d.untied with
  | .mapping m => body m
  | _ => fault .notRecord

/-- A field that has to be there. -/
def required (m : Mapping) (key : String) (r : Reading α) : Checked α :=
  ((m.at? key).elim (fault .missing) r).under (.key key)

/-- A field with a default. -/
def defaulted (m : Mapping) (key : String) (value : α) (r : Reading α) : Checked α :=
  ((m.at? key).elim (valid value) r).under (.key key)

/-- The faults of keys that a record does not have. -/
def strangers (keys : List String) (m : Mapping) : List Fault :=
  m.filterMap fun e =>
    match e.1 with
    | .text k => if keys.contains k then none else some ⟨.unknownKey, [.key k]⟩
    | k => some ⟨.keyNotText, [keyStep k]⟩

/-- Whether a key is a text that no characters correspond to. -/
def isBrokenKey : Scalar → Bool
  | .text s => Text.holdsHalf s
  | _ => false

/-- A record that refuses keys it does not have. Nothing else is said of one with a broken key. -/
def sealed (keys : List String) (m : Mapping) (body : Checked α) : Checked α :=
  if m.any fun e => isBrokenKey e.1 then fault .notCharacters
  else
    match body, strangers keys m with
    | c, [] => c
    | c, fs => .invalid (c.faults ++ fs)

end Reading

end VirtualTopology
