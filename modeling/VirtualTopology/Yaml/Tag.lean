import VirtualTopology.Yaml.Moment

/-!
# Tags

The tag of a node says what sort of value it stands for. A plain scalar without a tag of its own has
the tag that its form suggests (`Tag.ofPlain`): there are words for truth values and for null, several
ways to write integers and numbers, days and times; everything else is text.
-/

namespace VirtualTopology.Yaml

/-- What sort of value a node stands for. -/
inductive Tag where
  | null
  | bool
  | integer
  | number
  | octets
  | moment
  | text
  | sequence
  | mapping
  | set
  /-- A sequence of mappings with one entry each. -/
  | pairs
  /-- The key whose value is merged into a mapping. -/
  | merge
  /-- The key of the value that a mapping can stand for. -/
  | value
  | unknown
  deriving Repr, DecidableEq, Inhabited

/-- What the standard handle stands for. -/
def standardTags : String := "tag:yaml.org,2002:"

/-- The tag with a full name. -/
def Tag.ofName (name : String) : Tag :=
  let named : List (String × Tag) :=
    [("null", .null), ("bool", .bool), ("int", .integer), ("float", .number), ("binary", .octets),
     ("timestamp", .moment), ("omap", .pairs), ("pairs", .pairs), ("set", .set), ("str", .text),
     ("seq", .sequence), ("map", .mapping), ("merge", .merge), ("value", .value)]
  ((named.find? fun n => standardTags ++ n.1 == name).map (·.2)).getD .unknown

namespace PlainForm

/-! ### Integers -/

/-- Whether a text is a digit with digits and underscores behind it. -/
def isGrouped : List Char → Bool
  | [] => false
  | c :: rest => c.isDigit && rest.all fun c => c.isDigit || c == '_'

/-- Whether a text is a number of minutes or seconds: one digit, or two that are below sixty. -/
def isSixtieth : List Char → Bool
  | [c] => c.isDigit
  | [a, b] => a.isDigit && a < '6' && b.isDigit
  | _ => false

/-- The parts of a text between colons. -/
def parts (cs : List Char) : List (List Char) := cs.splitOn ':'

/-- Whether a text is an integer: binary, octal, decimal, hexadecimal, or in base sixty. -/
def isInteger (cs : List Char) : Bool :=
  let within (isIn : Char → Bool) (ds : List Char) : Bool :=
    !ds.isEmpty && ds.all fun c => isIn c || c == '_'
  match (Text.splitSign cs).2 with
  | ['0'] => true
  | '0' :: 'b' :: ds => within (fun c => c == '0' || c == '1') ds
  | '0' :: 'x' :: ds => within (fun c => (Text.hexDigit? c).isSome) ds
  | '0' :: ds => within (fun c => c.isDigit && c < '8') ds
  | ds =>
      match parts ds with
      | first :: others => isGrouped first && others.all isSixtieth
      | [] => false

/-! ### Numbers -/

/-- Whether a text is an exponent, or nothing. -/
def isExponent : List Char → Bool
  | [] => true
  | e :: sign :: ds =>
      (e == 'e' || e == 'E') && (sign == '+' || sign == '-') && !ds.isEmpty && ds.all Char.isDigit
  | _ => false

/-- Whether a text is what follows the point: digits and an exponent. -/
def isFraction (cs : List Char) : Bool :=
  isExponent (cs.dropWhile fun c => c.isDigit || c == '_')

/-- Whether a text is a number with a point, in base ten or in base sixty, or one of the words for
what is not finite. A number that begins with its point has no sign. -/
def isNumber (cs : List Char) : Bool :=
  let unsigned := (Text.splitSign cs).2
  let word (words : List String) (cs : List Char) : Bool := words.any (·.toList == cs)
  match cs, unsigned with
  | '.' :: d :: rest, _ =>
      (d.isDigit && isFraction (d :: rest)) || word [".inf", ".Inf", ".INF", ".nan", ".NaN", ".NAN"] cs
  | _, '.' :: _ => word [".inf", ".Inf", ".INF"] unsigned
  | _, _ =>
      let whole := unsigned.takeWhile (· != '.')
      match unsigned.dropWhile (· != '.') with
      | '.' :: fraction =>
          match parts whole with
          | [digits] => isGrouped digits && isFraction fraction
          | first :: others =>
              isGrouped first && others.all isSixtieth &&
                fraction.all fun c => c.isDigit || c == '_'
          | [] => false
      | _ => false

end PlainForm

/-! ### Plain scalars -/

/-- The words for truth values, in small letters. -/
def truthWords : List (String × Bool) :=
  [("yes", true), ("no", false), ("true", true), ("false", false), ("on", true), ("off", false)]

/-- Whether a text is a word in small letters, with a capital, or in capitals. -/
def isWord (s word : String) : Bool :=
  s == word || s == word.capitalize || s == word.map Char.toUpper

/-- The tag that the form of a plain scalar suggests. A line feed at the end of a text that is not
otherwise empty does not count. -/
def Tag.ofPlain (s : String) : Tag :=
  let cs := withoutFinalBreak s.toList
  let word := String.ofList cs
  if s == "" then .null
  else if truthWords.any fun w => isWord word w.1 then .bool
  else if PlainForm.isNumber cs then .number
  else if PlainForm.isInteger cs then .integer
  else if word == "<<" then .merge
  else if word == "~" || isWord word "null" then .null
  else if WrittenMoment.isPlain cs then .moment
  else if word == "=" then .value
  else if ["!", "&", "*"].contains word then .unknown
  else .text

end VirtualTopology.Yaml
