import VirtualTopology.Pass.Domains
import VirtualTopology.Pass.Removal
import VirtualTopology.Pass.Volumes
import VirtualTopology.Settings
import VirtualTopology.Topology.Audit

/-!
# A pass

A pass brings a host in line with a desired state. It first sees to networks and pools with their
volumes, then to domains, then it removes domains that are no longer declared, and last it removes
networks and pools that are no longer declared and not in use. Each resource gets a result of its
own; a failure stays with its resource and with what depends on it.

A desired state with issues is refused before the host is called at all.
-/

namespace VirtualTopology

/-- Why there is no report. -/
inductive PassError where
  | invalid (issues : List Issue)
  /-- Something could not be written. -/
  | unwritable (why : Unwritable)
  deriving Repr

/-- What is there of a kind. -/
inductive Stock where
  /-- The kind is unmanaged; these are the results of what is there. -/
  | leftAlone (results : List Result)
  | unknown (reason : String)
  | known (names : List String)
  deriving Repr

namespace Stock

/-- Ask a host what is there of a kind. -/
def take (kind : DefinedKind) (managed : Bool) : Talk Stock := do
  match managed, ← (Call.list kind).ask with
  | true, .ok names => return .known names
  | true, .error e => return .unknown e.message
  | false, .ok names =>
      return .leftAlone (names.map fun name =>
        { kind := kind.resource, name, outcome := .skippedUnmanaged })
  | false, .error _ => return .leftAlone []

/-- The names that are there and not declared, sorted and each once. -/
def stale (s : Stock) (declared : List String) : List String :=
  match s with
  | known names =>
      ((names.filter fun n => !declared.contains n).eraseDups).mergeSort fun a b => decide (a ≤ b)
  | _ => []

/-- The tasks for declared resources, or the failures of all of them. -/
def tasks {α : Type} (s : Stock) (kind : DefinedKind) (declared : List α) (name : α → String)
    (lost : α → List Result) (task : α → (exists_ : Bool) → Talk Recorded) :
    List (Talk Recorded) :=
  match s with
  | leftAlone results => [pure (.ok results)]
  | unknown reason =>
      [pure (.ok (declared.map (fun a => .stuck kind.resource (name a) .list reason) ++
        declared.flatMap lost))]
  | known names => declared.map fun a => task a (names.contains (name a))

end Stock

namespace Desired

/-- Bring networks and pools in line. The results, the stale networks and the stale pools are
given. -/
def networksAndPools (d : Desired) (dry : Bool) :
    Talk (Recorded × List String × List String) := do
  let networks ← Stock.take .network d.networks.isManaged
  let pools ← Stock.take .pool d.pools.isManaged
  let results ← gather
    (networks.tasks .network d.networks.items (·.name) (fun _ => []) (fun n => n.task dry) ++
     pools.tasks .pool d.pools.items (·.name) Pool.volumesLost (fun p => p.task dry))
  return (results, networks.stale (d.networks.items.map (·.name)),
    pools.stale (d.pools.items.map (·.name)))

/-- Bring domains in line. The results and the stale domains are given. -/
def domainsInLine (d : Desired) (dry : Bool) (timeout : Binary64) (before : List Result) :
    Talk (Recorded × List String) := do
  let domains ← Stock.take .domain d.domains.isManaged
  let results ← gather
    (domains.tasks .domain d.domains.items (·.name) (fun _ => [])
      (fun x => x.task dry timeout before))
  return (results, domains.stale (d.domains.items.map (·.name)))

/-- The phases of a pass, one after the other. -/
def phases (d : Desired) (dry : Bool) (timeout : Binary64) : Talk Recorded := do
  let (first, networks, pools) ← d.networksAndPools dry
  match first with
  | .error why => return .error why
  | .ok first => do
      let (second, domains) ← d.domainsInLine dry timeout first
      match second with
      | .error why => return .error why
      | .ok second => do
          let third ← gather (domains.map (Domain.removal dry))
          match third with
          | .error why => return .error why
          | .ok third => do
              let soFar := first ++ second ++ third
              let stale := networks.map (DefinedKind.network, ·) ++ pools.map (DefinedKind.pool, ·)
              let last ← Removal.run dry soFar stale
              return last.map (soFar ++ ·)

end Desired

namespace Settings

/-- Whether a pass is a dry run: as asked for, or else as set, and always if the connection can only
read. -/
def isDry (s : Settings) (dryRun : Option Bool) : Bool :=
  dryRun.getD s.pass.dryRun || s.connection.readonly

/-- Bring a host in line with a desired state. -/
def apply (s : Settings) (d : Desired) (dryRun : Option Bool := none) :
    Talk (Except PassError Report) := do
  let issues := d.audit
  if issues.isEmpty then
    let dry := s.isDry dryRun
    match ← d.phases dry s.pass.shutdownTimeout with
    | .ok results => return .ok (.of results dry)
    | .error why => return .error (.unwritable why)
  else return .error (.invalid issues)

end Settings

end VirtualTopology
