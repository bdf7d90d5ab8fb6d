import VirtualTopology.Topology.Desired
import VirtualTopology.Topology.Expansion
import VirtualTopology.Yaml.Value

/-!
# Loading a topology

A topology has the shape of a desired state, except that a domain may also be given as a profile
with its parameters; it is then expanded. Items of both sorts stand side by side and keep their
places.

Profiles are expanded before the rest is looked at, so an error in a profile comes before any fault
elsewhere, and what is wrong in the rest is found all at once.

`Topology.ofFile` reads a topology from the text of a file; a file with nothing in it states nothing.
-/

namespace VirtualTopology

/-- Why a topology is not loaded. -/
inductive TopologyError where
  | missingFile (path : String)
  /-- The file is no YAML. -/
  | malformed (path : String)
  /-- Something else is wrong with the text of the file. -/
  | flawed (what : Yaml.Flaw)
  | notMapping
  | invalidParameters (profile : String) (r : Rejection)
  | expansion (e : ExpansionError)
  | invalid (r : Rejection)
  deriving Repr

/-- An item of the list of domains: the data of a domain, or an expanded profile. -/
inductive DomainItem where
  | plain (d : Data)
  | expanded (domain : Domain)
  deriving Repr

namespace DomainItem

/-- The reading of an item; an expanded domain is taken as it is. -/
def read : DomainItem → Checked Domain
  | plain d => Domain.reading d
  | expanded domain => .valid domain

/-- The readings of several items, with their places. -/
def readAll : (place : Nat) → List DomainItem → Checked (List Domain)
  | _, [] => .valid []
  | place, i :: is => List.cons <$> i.read.under (.index place) <*> readAll (place + 1) is

/-- The error for parameters that are not valid. The message shows the profile, if that can be shown. -/
def invalidParameters (profile : Data) (r : Rejection) : TopologyError :=
  match profile.display? with
  | some shown => .invalidParameters shown r
  | none => .expansion .unwritable

/-- Expand an item if it names a profile. -/
def of (s : GuestSettings) (d : Data) : Except TopologyError DomainItem :=
  match d.untied with
  | .mapping m =>
      match Mapping.at? m "profile" with
      | none => .ok (.plain d)
      | some profile => do
          let parameters ← ((GuestParameters.reading (.mapping (Mapping.without m "profile"))).titled
            "ProfileParams").mapError (invalidParameters profile)
          expanded <$> (s.expand profile parameters).mapError .expansion
  | _ => .ok (.plain d)

end DomainItem

namespace Topology

/-- The items of the list of domains, if the data has such a list. -/
def domainItems? (m : Mapping) : Option (List Data) :=
  match (m.at? "domains").map Data.untied with
  | some (.mapping domains) =>
      match (Mapping.at? domains "items").map Data.untied with
      | some (.list items) => some items
      | _ => none
  | _ => none

/-- The reading of the list of domains, where there are items that have been prepared. -/
def domainsReading : Option (List DomainItem) → Reading (List Domain)
  | some items => fun _ => DomainItem.readAll 0 items
  | none => Reading.list Domain.reading

/-- The desired state of a topology. -/
def load (s : GuestSettings) (d : Data) : Except TopologyError Desired :=
  match d.untied with
  | .mapping m => do
      let items ← (domainItems? m).mapM (·.mapM (DomainItem.of s))
      ((Desired.readingWith (domainsReading items) d).titled "DesiredState").mapError .invalid
  | _ => .error .notMapping

/-- The desired state in a file with a text, nothing if there is no such file. -/
def ofFile (s : GuestSettings) (path : String) (text : Option String) :
    Except TopologyError Desired :=
  match text with
  | none => .error (.missingFile path)
  | some text =>
      match Yaml.read text with
      | .error .malformed => .error (.malformed path)
      | .error flaw => .error (.flawed flaw)
      | .ok d => load s (if d.isBare then .mapping [] else d)

end Topology

namespace TopologyError

/-- The line for an error about the topology as it is written; other errors lie deeper. -/
def message? : TopologyError → Option String
  | missingFile path => some ("Topology file not found: " ++ path)
  | malformed path => some ("Invalid YAML in " ++ path)
  | flawed _ => none
  | notMapping => some "Topology must be a mapping of kinds"
  | invalidParameters profile r =>
      some ("Invalid parameters for profile " ++ profile ++ ": " ++ r.summary)
  | expansion (.unknownProfile profile _) => some ("Unknown profile: " ++ profile)
  | expansion _ => none
  | invalid r => some ("Invalid topology: " ++ r.summary)

end TopologyError

end VirtualTopology
