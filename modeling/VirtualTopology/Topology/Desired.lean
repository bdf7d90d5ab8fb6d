import VirtualTopology.Topology.Domain
import VirtualTopology.Topology.Network
import VirtualTopology.Topology.Storage

/-!
# Desired states

For each of the three kinds that have definitions of their own, a desired state either lists all
resources of the kind, or leaves the kind unmanaged; the names of unmanaged resources that domains
may refer to can be given. A kind that is not mentioned is unmanaged.
-/

namespace VirtualTopology

/-- What is declared about one kind. -/
inductive Declared (α : Type) where
  /-- Nothing of this kind is touched; the names are taken to be present. -/
  | unmanaged (assumed : List String)
  /-- The resources of this kind are exactly these. -/
  | managed (items : List α)
  deriving Repr, DecidableEq

namespace Declared

variable {α : Type}

/-- The declared resources. -/
def items : Declared α → List α
  | unmanaged _ => []
  | managed items => items

/-- Whether resources of the kind are managed. -/
def isManaged : Declared α → Bool
  | unmanaged _ => false
  | managed _ => true

/-- The word for the two ways to declare a kind. -/
def word : Declared α → String
  | unmanaged _ => "unmanaged"
  | managed _ => "managed"

/-- The reading of a kind, given a reading of its list of resources. The mode decides what else may
be said, and it stands on the path to every fault. -/
def reading (resources : Reading (List α)) : Reading (Declared α) := fun d =>
  match d.untied with
  | .mapping m =>
      match Mapping.at? m "mode" with
      | none => .fault .modeMissing
      | some (.scalar (.text "unmanaged")) =>
          (Reading.sealed ["mode", "assume_present"] m
            (unmanaged <$> Reading.defaulted m "assume_present" []
              (Reading.list Reading.text))).under (.key "unmanaged")
      | some (.scalar (.text "managed")) =>
          (Reading.sealed ["mode", "items"] m
            (managed <$> Reading.defaulted m "items" [] resources)).under (.key "managed")
      | some _ => .fault .modeUnknown
  | _ => .fault .notState

/-- The record of a kind. -/
def dump (item : α → Data) : Declared α → Data
  | unmanaged assumed =>
      .record [("mode", .text "unmanaged"), ("assume_present", .list (assumed.map .text))]
  | managed items => .record [("mode", .text "managed"), ("items", .list (items.map item))]

end Declared

/-- A complete desired state. -/
structure Desired where
  networks : Declared Network
  pools : Declared Pool
  domains : Declared Domain
  deriving Repr, DecidableEq

namespace Desired

/-- The reading of a desired state, given a reading of the list of domains. -/
def readingWith (domains : Reading (List Domain)) : Reading Desired :=
  Reading.record fun m => Reading.sealed ["networks", "pools", "domains"] m
    (Desired.mk
      <$> Reading.defaulted m "networks" (.unmanaged [])
        (Declared.reading (Reading.list Network.reading))
      <*> Reading.defaulted m "pools" (.unmanaged [])
        (Declared.reading (Reading.list Pool.reading))
      <*> Reading.defaulted m "domains" (.unmanaged []) (Declared.reading domains))

/-- The reading of a desired state. -/
def reading : Reading Desired := readingWith (Reading.list Domain.reading)

/-- The record of a desired state. -/
def dump (d : Desired) : Data :=
  .record [("networks", d.networks.dump Network.dump), ("pools", d.pools.dump Pool.dump),
    ("domains", d.domains.dump Domain.dump)]

end Desired

end VirtualTopology
