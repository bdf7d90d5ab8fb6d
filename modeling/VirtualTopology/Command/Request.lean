import VirtualTopology.Command.Workspace
import VirtualTopology.Number.Refusal

/-!
# Requests

A command line is a list of words. An option is a word that begins with a hyphen: a long name behind
two hyphens, or letters behind one. An option may take a value, which is the next word whatever it
looks like, or stands in the same word, behind an equals sign for a long name and directly behind the
letter of a short one. Behind a word of two hyphens there are no options any more. `Arguments.parse`
sorts the words into options, in the order in which they are given, and the other words.

A `Request` is what a command line asks for: one of the commands, with the files and the settings that
its options name. A command line that asks for nothing, or not in the right form, is refused; among
others, a file that is to be read has to be there.
-/

namespace VirtualTopology

/-- An option that a command has. -/
structure OptionSpec where
  /-- The long name, without its hyphens. -/
  name : String
  /-- The letter of the short form. -/
  letter : Option Char := none
  takesValue : Bool := true
  deriving Repr, DecidableEq

/-- The words of a command line, sorted. -/
structure Arguments where
  /-- The options with their values; an option that takes none has an empty one. -/
  options : List (String × String) := []
  words : List String := []
  deriving Repr, DecidableEq

namespace Arguments

/-- An option in front of what is known. -/
def withOption (a : Arguments) (name value : String) : Arguments :=
  { a with options := (name, value) :: a.options }

/-- A word in front of what is known. -/
def withWord (a : Arguments) (word : String) : Arguments := { a with words := word :: a.words }

/-- A value that is given to an option: the option's own, or the next word. -/
inductive Demand where
  /-- Nothing more is needed. -/
  | settled
  /-- The next word is the value of an option. -/
  | next (name : String)
  deriving Repr, DecidableEq

/-- Read the letters behind one hyphen. The options that they give, and what is needed of the next
word. -/
def letters? (specs : List OptionSpec) : List Char → Option (List (String × String) × Demand)
  | [] => some ([], .settled)
  | c :: rest =>
      match specs.find? (·.letter == some c) with
      | none => none
      | some spec =>
          if spec.takesValue then
            if rest.isEmpty then some ([], .next spec.name)
            else some ([(spec.name, String.ofList rest)], .settled)
          else do
            let (options, demand) ← letters? specs rest
            return ((spec.name, "") :: options, demand)

/-- Read what stands behind two hyphens. -/
def long? (specs : List OptionSpec) (cs : List Char) : Option (List (String × String) × Demand) :=
  let name := String.ofList (cs.takeWhile (· != '='))
  let value? := match cs.dropWhile (· != '=') with
    | _ :: value => some (String.ofList value)
    | [] => none
  match specs.find? (·.name == name), value? with
  | none, _ => none
  | some spec, some value => if spec.takesValue then some ([(name, value)], .settled) else none
  | some spec, none => if spec.takesValue then some ([], .next name) else some ([(name, "")], .settled)

/-- Sort the words of a command line. Where options end at the first other word, all words from there
on are left as they are. Nothing if an option is unknown, lacks its value or has one too many. -/
def parseFrom (specs : List OptionSpec) (mixed : Bool) : Demand → List String → Option Arguments
  | .settled, [] => some {}
  | .next _, [] => none
  | .next name, word :: rest => do
      return (← parseFrom specs mixed .settled rest).withOption name word
  | .settled, word :: rest =>
      match word.toList with
      | ['-', '-'] => some { words := rest }
      | '-' :: c :: cs => do
          let (options, demand) ← if c == '-' then long? specs cs else letters? specs (c :: cs)
          let a ← parseFrom specs mixed demand rest
          return { a with options := options ++ a.options }
      | _ =>
          if mixed then do return (← parseFrom specs mixed .settled rest).withWord word
          else some { words := word :: rest }

/-- Sort the words of a command line. -/
def parse (specs : List OptionSpec) (mixed : Bool) (words : List String) : Option Arguments :=
  parseFrom specs mixed .settled words

/-- The last value that an option is given. -/
def value? (a : Arguments) (name : String) : Option String :=
  (a.options.reverse.find? (·.1 == name)).map (·.2)

/-- Whether an option is given. -/
def has (a : Arguments) (name : String) : Bool := (a.value? name).isSome

end Arguments

/-! ### What is asked for -/

/-- Settings that are given on the command line. -/
structure Flags where
  uri : Option String := none
  readonly : Bool := false
  dryRun : Bool := false
  maxWorkers : Option Int := none
  logLevel : Option String := none
  logFile : Option String := none
  deriving Repr, DecidableEq

/-- What a command line asks for. -/
inductive Request where
  | version
  /-- Bring the host in line with a topology. -/
  | apply (file : PosixPath) (config : Option PosixPath) (flags : Flags)
  | validate (file : PosixPath) (config : Option PosixPath)
  /-- Show the documents of a topology, or write them to a directory. -/
  | render (file : PosixPath) (config : Option PosixPath) (directory : Option PosixPath)
  /-- Connect to the host and list what is there. -/
  | check (flags : Flags)
  /-- Write settings with their defaults to a file. -/
  | generate (file : PosixPath)
  deriving Repr, DecidableEq

namespace Request

/-! ### Options -/

/-- The options in front of a command. -/
def generalOptions : List OptionSpec := [⟨"version", some 'V', false⟩]

/-- The options of the commands that read a topology. -/
def topologyOptions : List OptionSpec := [⟨"file", some 'f', true⟩, ⟨"config", some 'c', true⟩]

/-- The option for where the host is. -/
def uriOption : OptionSpec := ⟨"uri", none, true⟩

/-- The option for what is logged. -/
def levelOption : OptionSpec := ⟨"log-level", some 'l', true⟩

/-- The commands with their options. -/
def commands : List (String × List OptionSpec) :=
  [("apply",
    topologyOptions ++ [⟨"dry-run", none, false⟩, uriOption, ⟨"readonly", none, false⟩,
      ⟨"max-workers", some 'j', true⟩, levelOption, ⟨"log-file", none, true⟩]),
   ("plan", topologyOptions ++ [uriOption, levelOption]),
   ("validate", topologyOptions),
   ("render", topologyOptions ++ [⟨"output-dir", some 'o', true⟩]),
   ("check-libvirt", [uriOption]),
   ("generate-config", [⟨"output", some 'o', true⟩])]

/-! ### Values -/

/-- A file that is to be read, which has to be there. -/
def inputFile (w : Workspace) (path : String) : Option PosixPath :=
  match w.locate path with
  | .file .. => some (.ofText path)
  | _ => none

/-- A directory to write to, which must not be a file. -/
def outputDirectory (w : Workspace) (path : String) : Option PosixPath :=
  match w.locate path with
  | .file .. => none
  | _ => some (.ofText path)

/-- A number of workers. -/
def workers (written : String) : Option Int :=
  match wholeInteger written with
  | .ok n => if 1 ≤ n && n ≤ 32 then some n else none
  | .error _ => none

/-- The value of an option that need not be given. -/
def given {α : Type} (a : Arguments) (name : String) (read : String → Option α) :
    Option (Option α) :=
  match a.value? name with
  | none => some none
  | some written => (read written).map some

/-- The settings among the options. -/
def flags (a : Arguments) : Option Flags := do
  return { uri := a.value? "uri"
           readonly := a.has "readonly"
           dryRun := a.has "dry-run"
           maxWorkers := ← given a "max-workers" workers
           logLevel := a.value? "log-level"
           logFile := (a.value? "log-file").map fun s => (PosixPath.ofText s).text }

/-! ### Command lines -/

/-- The request for a command with options. -/
def ofCommand (w : Workspace) (name : String) (a : Arguments) : Option Request := do
  let topology : Option (PosixPath × Option PosixPath) := do
    return (← inputFile w (← a.value? "file"), ← given a "config" (inputFile w))
  match name with
  | "apply" => do
      let (file, config) ← topology
      return apply file config (← flags a)
  | "plan" => do
      let (file, config) ← topology
      return apply file config { ← flags a with dryRun := true }
  | "validate" => do
      let (file, config) ← topology
      return validate file config
  | "render" => do
      let (file, config) ← topology
      return render file config (← given a "output-dir" (outputDirectory w))
  | "check-libvirt" => return check { ← flags a with readonly := true }
  | "generate-config" => return generate (.ofText ((a.value? "output").getD "config.yaml"))
  | _ => none

/-- The request of a command line, nothing if it is refused. -/
def parse (w : Workspace) (words : List String) : Option Request := do
  let general ← Arguments.parse generalOptions false words
  if general.has "version" then return version
  match general.words with
  | [] => none
  | name :: rest => do
      let a ← Arguments.parse (← commands.lookup name) true rest
      if a.words.isEmpty then ofCommand w name a else none

end Request

end VirtualTopology
