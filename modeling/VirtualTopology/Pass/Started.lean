import VirtualTopology.Document.Matching
import VirtualTopology.Document.Rendering
import VirtualTopology.Pass.Query

/-!
# Networks and pools

Networks and pools are brought in line in the same way: the document is stored if it is new or has
changed, then the resource is stopped, started and told whether to start on its own. A running one
picks up a changed document only when it is started again, so it is stopped and started.
-/

namespace VirtualTopology

/-- What is declared about a resource that is started, apart from its volumes. -/
structure Started where
  kind : DefinedKind
  name : String
  /-- The text of the document. -/
  text : Except Unwritable String
  active : Bool
  autostart : Bool
  deriving Repr

/-- A network as a resource that is started. -/
def Network.started (n : Network) : Started :=
  { kind := .network, name := n.name, text := n.written, active := n.active
    autostart := n.autostart }

/-- A pool as a resource that is started. -/
def Pool.started (p : Pool) : Started :=
  { kind := .pool, name := p.name, text := p.written, active := p.active
    autostart := p.autostart }

/-- What is to be done to a resource that is started. -/
structure StartedPlan where
  /-- Whether the resource is there already. -/
  exists_ : Bool
  define : Bool
  stop : Bool
  start : Bool
  autostart : Bool
  deriving Repr, DecidableEq

namespace Started

/-- What is to be done, from what is there. -/
def plan (s : Started) (exists_ changed running autostart : Bool) : StartedPlan :=
  let stop := running && (changed || !s.active)
  { exists_, define := changed, stop, start := s.active && (!running || stop)
    autostart := autostart != s.autostart }

/-- What is reported about the changes of a resource that was there already. -/
def details (s : Started) (p : StartedPlan) : List String :=
  if !p.exists_ then []
  else
    (if p.define then ["definition changed"] else []) ++
    (if p.stop then [if s.active then "restarted" else "stopped"] else []) ++
    (if p.start && !p.stop then ["started"] else []) ++
    (if p.autostart then [if s.autostart then "autostart enabled" else "autostart disabled"]
     else [])

/-- The result of carrying out a plan. -/
def result (s : Started) (p : StartedPlan) : Result :=
  let details := s.details p
  { kind := s.kind.resource, name := s.name
    outcome := if !p.exists_ then .created else if details.isEmpty then .unchanged else .updated
    details }

/-- Bring a network or pool in line. Besides the result it is told whether what is inside a pool can
be read: the pool has to run, in a dry run already before. -/
def sync (s : Started) (dry exists_ : Bool) : Work (Result × Bool) := do
  let text ← Work.writing s.text
  let changed ← if exists_ then do
      let stored ← Work.attempt .read (.read s.kind s.name)
      pure (!documentsMatch text stored)
    else pure true
  if changed then Work.change dry .define (.define s.kind text)
  let running ← if exists_ then Work.attempt .read (.isActive s.kind s.name) else pure false
  let autostart ← if exists_ then Work.attempt .read (.isAutostart s.kind s.name) else pure false
  let p := s.plan exists_ changed running autostart
  if p.stop then Work.change dry .stop (.stop s.kind s.name false)
  if p.start then Work.change dry .start (.start s.kind s.name)
  if p.autostart then
    Work.change dry .autostart (.setAutostart s.kind s.name s.autostart)
  let readable := s.active && (running || !dry)
  return (s.result p, readable)

end Started

end VirtualTopology
