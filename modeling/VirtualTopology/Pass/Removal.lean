import VirtualTopology.Pass.Query

/-!
# Removing networks and pools

A network or pool that is no longer declared is removed when no remaining domain refers to it. The
documents of all domains on the host are read for that, except for domains that the pass has removed
(in a dry run they are still there). If one of them cannot be read, nothing is removed.
-/

namespace VirtualTopology

/-- The networks and pools that a domain refers to. -/
structure References where
  domain : String
  networks : List String
  pools : List String
  deriving Repr, DecidableEq

namespace References

/-- What the document of a domain refers to. -/
def of (domain : String) (e : Element) : References :=
  { domain, networks := e.networkReferences, pools := e.poolReferences }

/-- Whether a domain refers to a resource. -/
def uses (r : References) (kind : DefinedKind) (name : String) : Bool :=
  match kind with
  | .network => r.networks.contains name
  | .pool => r.pools.contains name
  | .domain => false

/-- The domains that refer to a resource, sorted and each once. -/
def users (rs : List References) (kind : DefinedKind) (name : String) : List String :=
  ((rs.filter (·.uses kind name)).map (·.domain)).eraseDups.mergeSort
    fun a b => decide (a ≤ b)

end References

namespace Removal

/-- Whether the first result of a domain says that it was removed. -/
def wasRemoved (results : List Result) (domain : String) : Bool :=
  ((results.find? fun r => r.kind == .domain && r.name == domain).map (·.outcome)) ==
    some .deleted

/-- The references of domains, or why they are not known. -/
def referencesOf (results : List Result) :
    List String → Talk (Except String (List References))
  | [] => pure (.ok [])
  | domain :: domains => do
      if wasRemoved results domain then referencesOf results domains
      else
        match ← (Call.read .domain domain).ask with
        | .error e => return .error e.message
        | .ok document =>
            match Element.read? document with
            | none =>
                return .error
                  ("Unreadable definition of domain " ++ domain ++ ": malformed document")
            | some e => do
                let rest ← referencesOf results domains
                return rest.map (References.of domain e :: ·)

/-- The references of all domains on the host that remain. -/
def references (results : List Result) : Talk (Except String (List References)) := do
  match ← (Call.list .domain).ask with
  | .error e => return .error e.message
  | .ok domains => referencesOf results domains

/-- Remove a resource unless it is in use. -/
def task (dry : Bool) (rs : List References) (kind : DefinedKind) (name : String) :
    Talk Recorded := do
  let users := References.users rs kind name
  if users.isEmpty then
    let ending ← supervise kind.resource name do
      Work.change dry .undefine (.undefine kind name)
      return ({ kind := kind.resource, name, outcome := .deleted } : Result)
    return ending.recorded
  else
    return .ok [.stuck kind.resource name .undefine
      ("Still referenced by domain(s): " ++ ", ".intercalate users) .inUse]

/-- Remove networks and pools, given as pairs of kind and name. -/
def run (dry : Bool) (results : List Result) (stale : List (DefinedKind × String)) :
    Talk Recorded := do
  if stale.isEmpty then return .ok []
  if ← (Dialogue.query Query.cancelled : Talk Bool) then
    return .ok (stale.map fun s => .cancelled s.1.resource s.2)
  match ← references results with
  | .error reason =>
      return .ok (stale.map fun s => .stuck s.1.resource s.2 .checkReferences reason)
  | .ok rs => gather (stale.map fun s => task dry rs s.1 s.2)

end Removal

end VirtualTopology
