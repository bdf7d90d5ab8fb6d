/-!
# Kinds of resources

A topology consists of networks, storage pools, the volumes inside pools, and domains (virtual
machines). Results are listed in this order of kinds (`ResourceKind.rank`).
-/

namespace VirtualTopology

/-- What a resource is. -/
inductive ResourceKind where
  | network
  | pool
  | volume
  | domain
  deriving Repr, DecidableEq, Inhabited

namespace ResourceKind

/-- All kinds, in the order in which results are listed. -/
def all : List ResourceKind := [network, pool, volume, domain]

/-- The word for a kind. -/
def word : ResourceKind → String
  | network => "network"
  | pool => "pool"
  | volume => "volume"
  | domain => "domain"

/-- The place of a kind in a listing. -/
def rank : ResourceKind → Nat
  | network => 0
  | pool => 1
  | volume => 2
  | domain => 3

/-- The kind that a word names. -/
def ofWord? (s : String) : Option ResourceKind := all.find? (·.word == s)

theorem rank_injective {a b : ResourceKind} (h : a.rank = b.rank) : a = b := by
  cases a <;> cases b <;> simp_all [rank]

end ResourceKind

/-- What has a definition of its own on a host: everything but volumes. -/
inductive DefinedKind where
  | network
  | pool
  | domain
  deriving Repr, DecidableEq, Inhabited

namespace DefinedKind

/-- The kind of resource. -/
def resource : DefinedKind → ResourceKind
  | network => .network
  | pool => .pool
  | domain => .domain

/-- The word for a kind. -/
def word (k : DefinedKind) : String := k.resource.word

/-- The word for several resources of a kind. -/
def plural (k : DefinedKind) : String := k.word ++ "s"

/-- The word at the start of a sentence. -/
def title : DefinedKind → String
  | network => "Network"
  | pool => "Pool"
  | domain => "Domain"

end DefinedKind

/-- The label of a volume among all results: its pool, a slash, its name. -/
def volumeLabel (pool volume : String) : String := pool ++ "/" ++ volume

end VirtualTopology
