import VirtualTopology.Pass.Started

/-!
# Domains

A domain is stored, and then its power is seen to: it is started, asked to shut down, or restarted.
A restart asks for a shutdown, waits for it, turns the domain off if it takes too long, and starts
it. A domain that depends on something that failed is not touched.
-/

namespace VirtualTopology

namespace Domain

/-! ### Restarts -/

/-- How long to sleep before a domain is looked at again. -/
def pause : Binary64 := .ofInt 1

/-- Wait until a domain is off, at most until a time. The number of looks is bounded: the pauses
between them, of one second each, use up the time. -/
def awaitOff (name : String) (deadline : Binary64) : (looks : Nat) → Work Bool
  | 0 => pure false
  | looks + 1 => do
      if ← Work.attempt .stop (.isActive .domain name) then
        let now ← (Dialogue.query Query.now : Talk Binary64)
        let left := deadline.sub now
        if left.le .zero then return false
        let _ ← (Dialogue.query (Query.sleep (pause.least left)) : Talk Unit)
        awaitOff name deadline looks
      else return true

/-- Wait until a domain is off, at most for a while. -/
def waitForShutdown (name : String) (timeout : Binary64) : Work Bool := do
  let now ← (Dialogue.query Query.now : Talk Binary64)
  awaitOff name (now.add timeout) (timeout.ceilNat + 8)

/-- Restart a running domain, and tell what happened. -/
def restartNow (dry : Bool) (timeout : Binary64) (name : String) : Work String := do
  Work.change dry .stop (.stop .domain name false)
  let off ← if dry then pure true else waitForShutdown name timeout
  if !off then Work.change dry .stop (.stop .domain name true)
  Work.change dry .start (.start .domain name)
  return if off then "restarted" else "restarted (forced off)"

/-- Whether a running domain is to be restarted. -/
def wantsRestart (d : Domain) (outcome : Outcome) : Bool :=
  d.restart.getD (d.active == some true && outcome == .updated)

/-! ### Changes -/

/-- How an added interface is listed: by its network, or as a question mark if it names none. -/
def listedAs (i : InterfaceEntry) : String := (i.network.filter (!·.isEmpty)).getD "?"

/-- What is said about the change of a document. Interfaces that are only added behind the others
are listed. -/
def describeChange (declared stored : String) : String :=
  match Element.read? declared, Element.read? stored with
  | some d, some s =>
      let wanted := d.interfaceEntries
      let there := s.interfaceEntries
      if wanted = there then "definition changed"
      else if there.isPrefixOf wanted then
        "appended interfaces: " ++ ", ".intercalate ((wanted.drop there.length).map listedAs)
      else "interfaces changed"
  | _, _ => "definition changed"

/-- The final outcome: something was done to a domain whose document has not changed. -/
def finalOutcome (outcome : Outcome) (details : List String) : Outcome :=
  if outcome = .unchanged ∧ !details.isEmpty then .updated else outcome

/-- Store the document of a domain if it is new or has changed. -/
def store (d : Domain) (dry exists_ : Bool) : Work (Outcome × List String) := do
  let text ← Work.writing d.written
  if exists_ then
    let stored ← Work.attempt .read (.read .domain d.name)
    if documentsMatch text stored then return (.unchanged, [])
    Work.change dry .define (.define .domain text)
    return (.updated, [describeChange text stored])
  else
    Work.change dry .define (.define .domain text)
    return (.created, [])

/-- See to the power of a domain. -/
def power (d : Domain) (dry : Bool) (timeout : Binary64) (outcome : Outcome) (running : Bool) :
    Work (List String) := do
  if d.active = some true ∧ !running then
    Work.change dry .start (.start .domain d.name)
    return ["started"]
  else if d.active = some false ∧ running then
    Work.change dry .stop (.stop .domain d.name false)
    return ["shutdown requested"]
  else if running && d.wantsRestart outcome then
    return [← restartNow dry timeout d.name]
  else if running && outcome == .updated then return ["changes apply at next boot"]
  else return []

/-- Bring a domain in line. -/
def sync (d : Domain) (dry : Bool) (timeout : Binary64) (exists_ : Bool) : Work Result := do
  let (outcome, changes) ← d.store dry exists_
  let look := exists_ && (d.active.isSome || d.restart == some true || outcome == .updated)
  let running ← if look then Work.attempt .read (.isActive .domain d.name) else pure false
  let details := changes ++ (← d.power dry timeout outcome running)
  return { kind := .domain, name := d.name, outcome := finalOutcome outcome details, details }

/-! ### Dependencies -/

/-- Whether a resource is among those that failed. -/
def hasFailed (results : List Result) (kind : ResourceKind) (name : String) : Bool :=
  results.any fun r => r.outcome == .failed && r.kind == kind && r.name == name

/-- What a domain depends on and what has failed, in order and each once. -/
def failedDependencies (d : Domain) (results : List Result) : List String :=
  let networks := (d.interfaces.map (·.network)).filter (hasFailed results .network)
  let disks := d.disks.filterMap fun k =>
    if hasFailed results .pool k.pool then some ("pool " ++ k.pool)
    else if hasFailed results .volume (volumeLabel k.pool k.volume) then
      some ("volume " ++ volumeLabel k.pool k.volume)
    else none
  (networks.map ("network " ++ ·) ++ disks).eraseDups

/-- Bring a domain in line, unless something that it depends on has failed. -/
def task (d : Domain) (dry : Bool) (timeout : Binary64) (results : List Result) (exists_ : Bool) :
    Talk Recorded := do
  let blocked := d.failedDependencies results
  if blocked.isEmpty then
    let ending ← supervise .domain d.name (d.sync dry timeout exists_)
    return ending.recorded
  else
    return .ok [.stuck .domain d.name (if exists_ then .update else .create)
      ("Dependencies failed: " ++ ", ".intercalate blocked) .dependencyFailed]

/-- Remove a domain that is no longer declared. -/
def removal (dry : Bool) (name : String) : Talk Recorded := do
  let ending ← supervise .domain name do
    let running ← Work.attempt .read (.isActive .domain name)
    Work.change dry .undefine (.undefine .domain name)
    return ({ kind := .domain, name, outcome := .deleted
              details := if running then ["still running until shut down"] else [] } : Result)
  return ending.recorded

end Domain

end VirtualTopology
