import VirtualTopology.Data.Basic
import VirtualTopology.Number.Refusal
import VirtualTopology.Settings
import VirtualTopology.Text.Letter
import VirtualTopology.Yaml.Value

/-!
# Loading settings

Settings are read from the text of a file and from the environment, which goes first: what a variable
sets replaces the key of the file, and the other keys of the file stay (`overridden`). What is in
neither has its default.

Eight variables set one key of the settings each; a variable without text sets nothing. Their texts
are read before any bounds are looked at: an integer, a number, or a truth value, which is true for the
word `true` alone (`Environment.Form.read`).
-/

namespace VirtualTopology

/-! ### The environment -/

/-- The value of a variable, nothing if it is not set. -/
abbrev Environment := String → Option String

namespace Environment

/-- How the text of a variable is read. -/
inductive Form where
  | text
  | integer
  | number
  | truth
  deriving Repr, DecidableEq

/-- The value that a text has in a form. -/
def Form.read (written : String) : Form → Except NumeralRefusal Data
  | text => .ok (.text written)
  | integer => Data.int <$> wholeInteger written
  | number => Data.float <$> wholeNumber written
  | truth => .ok (.bool (Text.lower written == "true"))

/-- A variable that sets one key in a section of the settings. -/
structure Variable where
  name : String
  key : String
  form : Form
  deriving Repr, DecidableEq

/-- The variables by the section that they belong to. -/
def sections : List (String × List Variable) :=
  [("libvirt",
    [⟨"LIBVIRT_URI", "uri", .text⟩, ⟨"LIBVIRT_TIMEOUT", "timeout", .integer⟩,
     ⟨"LIBVIRT_READONLY", "readonly", .truth⟩]),
   ("reconcile",
    [⟨"RECONCILE_MAX_WORKERS", "max_workers", .integer⟩, ⟨"RECONCILE_DRY_RUN", "dry_run", .truth⟩,
     ⟨"RECONCILE_SHUTDOWN_TIMEOUT", "shutdown_timeout", .number⟩]),
   ("logging",
    [⟨"RECONCILER_LOG_LEVEL", "level", .text⟩, ⟨"RECONCILER_LOG_FILE", "file", .text⟩])]

/-- What a variable sets, if it has a text. -/
def Variable.entry? (env : Environment) (v : Variable) :
    Except NumeralRefusal (Option (Scalar × Data)) :=
  match (env v.name).filter (!·.isEmpty) with
  | none => .ok none
  | some written => (fun d => some (.text v.key, d)) <$> v.form.read written

/-- What some variables set, in their order. -/
def entries (env : Environment) : List Variable → Except NumeralRefusal Mapping
  | [] => .ok []
  | v :: vs => do
      let entry ← v.entry? env
      return entry.toList ++ (← entries env vs)

/-- What an environment sets, by section; sections without any setting are left out. -/
def overrides (env : Environment) : Except NumeralRefusal (List (String × Mapping)) := do
  let all ← sections.mapM fun s => do return (s.1, ← entries env s.2)
  return all.filter (!·.2.isEmpty)

end Environment

/-! ### Both sources -/

/-- Why settings are not loaded. -/
inductive SettingsError where
  /-- A file that has to be there is not. -/
  | missingFile (path : String)
  /-- Something is wrong with the text of the file. -/
  | flawed (what : Yaml.Flaw)
  /-- A variable of the environment is refused. -/
  | refused (r : NumeralRefusal)
  /-- What the environment overrides has no keys. -/
  | notOverridable
  /-- The file holds something other than sections with names. -/
  | notSections
  | invalid (r : Rejection)
  deriving Repr

namespace SettingsError

/-- The line for an error about a value. Errors in the form of the file have none. -/
def message? : SettingsError → Option String
  | missingFile path => some ("Configuration file not found: " ++ path)
  | flawed what => what.message?
  | refused r => some r.message
  | invalid r => some r.summary
  | notOverridable | notSections => none

end SettingsError

namespace Settings

/-- What a file holds; a file with nothing in it, or with an empty value, holds no settings. -/
def contents (file : Option String) : Except SettingsError Data :=
  match file with
  | none => .ok (.mapping [])
  | some text =>
      match Yaml.read text with
      | .error flaw => .error (.flawed flaw)
      | .ok d => .ok (if d.isBare then .mapping [] else d)

/-- A section with the keys of a mapping in place of its own. A set takes the keys as items. -/
def sectionOverridden (keys : Mapping) (d : Data) : Except SettingsError Data :=
  match d.untied with
  | .mapping own => .ok (.mapping (keys.foldl (fun m e => Mapping.put m e.1 e.2) own))
  | .set items => .ok (.set (items ++ keys.map (·.1)))
  | _ => .error .notOverridable

/-- Settings with overrides put into their sections. -/
def overridden (overrides : List (String × Mapping)) (d : Data) : Except SettingsError Data :=
  match overrides, d.untied with
  | [], _ => .ok d
  | _, .mapping sections => do
      let sections ← overrides.foldlM (fun (m : Mapping) o => do
        return Mapping.put m (.text o.1) (← sectionOverridden o.2 ((m.at? o.1).getD (.mapping []))))
        sections
      return .mapping sections
  | _, _ => .error .notOverridable

/-- Read settings from data whose keys are the names of sections. -/
def ofSections (d : Data) : Except SettingsError Settings :=
  match d.untied with
  | .mapping sections =>
      if sections.all fun e => e.1 matches .text _ then
        ((reading d).titled "Config").mapError .invalid
      else .error .notSections
  | _ => .error .notSections

/-- Read settings from the text of a file, if there is one, and the environment. -/
def load (file : Option String) (env : Environment) : Except SettingsError Settings := do
  let data ← contents file
  let overrides ← env.overrides.mapError .refused
  ofSections (← overridden overrides data)

/-- Read settings from the environment alone. -/
def ofEnvironment (env : Environment) : Except SettingsError Settings := load none env

/-- Read settings from a file alone, which has to be there. -/
def ofFile (path : String) (file : Option String) : Except SettingsError Settings :=
  match file with
  | none => .error (.missingFile path)
  | some text => do ofSections (← contents (some text))

end Settings

end VirtualTopology
