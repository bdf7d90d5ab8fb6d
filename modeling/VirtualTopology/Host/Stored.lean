import VirtualTopology.Host.Call
import VirtualTopology.Host.Disruption
import VirtualTopology.Host.Table
import VirtualTopology.Number.Decimal

/-!
# Stored resources

What a host stores: for each kind a table of entries, and inside the entry of a pool its volumes.
The functions of this module change tables and nothing else; how a host in memory and a daemon in
memory answer calls with them is told elsewhere.
-/

namespace VirtualTopology

/-- What is known about the format of a stored volume. -/
inductive StoredFormat where
  | unstated
  | unknown
  | known (format : String)
  deriving Repr, DecidableEq, Inhabited

namespace StoredFormat

/-- The format, if it is known. -/
def name? : StoredFormat → Option String
  | known f => some f
  | _ => none

/-- A format that is known, or unknown. -/
def of : Option String → StoredFormat
  | some f => known f
  | none => unknown

end StoredFormat

/-- A volume as it is stored: by its size and format, or by a document. -/
inductive StoredVolume where
  | sized (capacity : Option Int) (format : StoredFormat)
  | documented (document : String)
  deriving Repr, DecidableEq, Inhabited

namespace StoredVolume

/-- The volume that a document asks for. -/
def ofDocument (e : Element) : StoredVolume :=
  sized (e.volumeCapacity?.map Int.ofNat) (.of e.volumeFormat?)

/-- The document that a host gives for a volume. -/
def document : StoredVolume → String
  | documented d => d
  | sized capacity format =>
      "<volume><capacity unit='bytes'>" ++ (capacity.map toString).getD "None" ++
        "</capacity><target>" ++
        (match format.name? with
         | some f => "<format type='" ++ f ++ "'/>"
         | none => "") ++
        "</target></volume>"

/-- A volume with another size. -/
def resized (v : StoredVolume) (bytes : Int) : StoredVolume :=
  match v with
  | documented _ => sized (some bytes) .unknown
  | sized _ .unstated => sized (some bytes) .unknown
  | sized _ format => sized (some bytes) format

end StoredVolume

/-- What a host stores about a network, a pool or a domain. -/
structure StoredResource where
  document : String
  active : Bool := false
  autostart : Bool := false
  /-- The volumes of a pool. -/
  volumes : Table StoredVolume := []
  /-- A domain that has been asked to shut down is still seen on this many times. -/
  closing : Option Nat := none
  /-- Whether the resource outlives being stopped, if that has been said. -/
  persistent : Option Bool := none
  /-- The document of the running resource, if it differs. -/
  liveDocument : Option String := none
  deriving Repr, DecidableEq, Inhabited

namespace StoredResource

/-- The resource, started. -/
def started (r : StoredResource) : StoredResource := { r with active := true, closing := none }

/-- The resource, stopped. -/
def stopped (r : StoredResource) : StoredResource := { r with active := false, closing := none }

/-- A domain that is asked to shut down. It is off at once, or after having been seen on `polls`
more times, or, if `polls` is negative, not at all. -/
def asked (r : StoredResource) (polls : Int) : StoredResource :=
  if polls < 0 then r
  else if polls = 0 then r.stopped
  else { r with closing := some polls.toNat }

/-- The resource after it has been looked at. -/
def seen (r : StoredResource) : StoredResource :=
  match r.closing with
  | none => r
  | some 0 => r.stopped
  | some (n + 1) => { r with closing := some n }

end StoredResource

/-- The tables of a host. -/
structure Tables where
  networks : Table StoredResource := []
  pools : Table StoredResource := []
  domains : Table StoredResource := []
  deriving Repr, DecidableEq, Inhabited

namespace Tables

/-- The table of a kind. -/
def table (t : Tables) : DefinedKind → Table StoredResource
  | .network => t.networks
  | .pool => t.pools
  | .domain => t.domains

/-- The tables with another table of a kind. -/
def withTable (t : Tables) (k : DefinedKind) (x : Table StoredResource) : Tables :=
  match k with
  | .network => { t with networks := x }
  | .pool => { t with pools := x }
  | .domain => { t with domains := x }

/-- The resource under a name. -/
def get? (t : Tables) (k : DefinedKind) (name : String) : Option StoredResource :=
  (t.table k).get? name

/-- The tables with a resource under a name. -/
def put (t : Tables) (k : DefinedKind) (name : String) (r : StoredResource) : Tables :=
  t.withTable k ((t.table k).put name r)

/-- The tables without a resource. -/
def erase (t : Tables) (k : DefinedKind) (name : String) : Tables :=
  t.withTable k ((t.table k).erase name)

/-- The tables after a document has been stored: the resource keeps its state, and a new one is off
and does not start on its own. -/
def define (t : Tables) (k : DefinedKind) (name document : String) : Tables :=
  t.put k name { (t.get? k name).getD { document } with document }

/-- The names of a kind, sorted. -/
def sortedNames (t : Tables) (k : DefinedKind) : List String :=
  (t.table k).names.mergeSort fun a b => decide (a ≤ b)

/-- The tables with a volume in a pool. -/
def putVolume (t : Tables) (pool : String) (r : StoredResource) (name : String)
    (v : StoredVolume) : Tables :=
  t.put .pool pool { r with volumes := r.volumes.put name v }

@[simp] theorem table_withTable (t : Tables) (k l : DefinedKind) (x : Table StoredResource) :
    (t.withTable k x).table l = if k = l then x else t.table l := by
  cases k <;> cases l <;> rfl

theorem get?_put (t : Tables) (k l : DefinedKind) (name other : String) (r : StoredResource) :
    (t.put k name r).get? l other = if k = l ∧ name = other then some r else t.get? l other := by
  by_cases h : k = l
  · subst h
    simp [put, get?, Table.get?_put]
  · simp [put, get?, h]

theorem get?_erase (t : Tables) (k l : DefinedKind) (name other : String) :
    (t.erase k name).get? l other = if k = l ∧ name = other then none else t.get? l other := by
  by_cases h : k = l
  · subst h
    simp [erase, get?, Table.get?_erase]
  · simp [erase, get?, h]

end Tables

end VirtualTopology
