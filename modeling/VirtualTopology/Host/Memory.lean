import VirtualTopology.Host.Disruption
import VirtualTopology.Host.Stored
import VirtualTopology.Pass.Query

/-!
# A host in memory

`Memory` answers the queries of a pass from tables (`Tables.serve`). Each call is written down first;
it may be the one on which the pass is cancelled; then a disruption may strike it; only then is it
served. The clock moves only while the pass sleeps.
-/

namespace VirtualTopology

namespace Tables

/-- The error of a call about something that is not there. -/
def missing (title name : String) : HostError :=
  { kind := .notFound, message := title ++ " " ++ name ++ " not found" }

/-- The resource under a name, which has to be there. -/
def find (t : Tables) (k : DefinedKind) (name : String) : Except HostError StoredResource :=
  match t.get? k name with
  | some r => .ok r
  | none => .error (missing k.title name)

/-- The pool under a name, which has to be there and active. -/
def activePool (t : Tables) (name : String) : Except HostError StoredResource := do
  let r ← t.find .pool name
  if r.active then pure r
  else throw { kind := .operation, message := "storage pool '" ++ name ++ "' is not active" }

/-- A volume under a name, which has to be there. -/
def findVolume (r : StoredResource) (pool name : String) : Except HostError StoredVolume :=
  match r.volumes.get? name with
  | some v => .ok v
  | none => .error (missing "Volume" (volumeLabel pool name))

/-- Serve a call. `polls` says how often a domain that has been asked to shut down is still seen
on. -/
def serve (polls : Table Int) (t : Tables) : (c : Call) → Except HostError (c.Answer × Tables)
  | .list k => .ok (t.sortedNames k, t)
  | .read k name => do
      let r ← t.find k name
      pure (r.document, t)
  | .define k document => .ok ((), t.define k (nameInDocument document) document)
  | .undefine k name => do
      let _ ← t.find k name
      pure ((), t.erase k name)
  | .start k name => do
      let r ← t.find k name
      pure ((), t.put k name r.started)
  | .stop k name force => do
      let r ← t.find k name
      let r :=
        match k with
        | .domain => if force then r.stopped else r.asked ((polls.get? name).getD 0)
        | _ => r.stopped
      pure ((), t.put k name r)
  | .isActive k name => do
      let r ← t.find k name
      pure (r.seen.active, t.put k name r.seen)
  | .isAutostart k name => do
      let r ← t.find k name
      pure (r.autostart, t)
  | .setAutostart k name autostart => do
      let r ← t.find k name
      pure ((), t.put k name { r with autostart })
  | .listVolumes pool => do
      let r ← t.activePool pool
      pure (r.volumes.names.mergeSort fun a b => decide (a ≤ b), t)
  | .readVolume pool name => do
      let r ← t.activePool pool
      let v ← findVolume r pool name
      pure (v.document, t)
  | .createVolume pool document => do
      let r ← t.activePool pool
      match Element.read? document with
      | none => throw { kind := .operation, message := "malformed document" }
      | some e =>
          pure ((), t.putVolume pool r ((e.resourceName?).getD "") (.ofDocument e))
  | .deleteVolume pool name => do
      let r ← t.activePool pool
      let _ ← findVolume r pool name
      pure ((), t.put .pool pool { r with volumes := r.volumes.erase name })
  | .resizeVolume pool name bytes => do
      let r ← t.activePool pool
      let v ← findVolume r pool name
      pure ((), t.putVolume pool r name (v.resized bytes))

end Tables

/-- A host in memory. -/
structure Memory where
  tables : Tables := {}
  /-- How often a domain that has been asked to shut down is still seen on. -/
  polls : Table Int := []
  disruptions : List (Disruption HostErrorKind) := []
  /-- The word and the subject of the call on which the pass is cancelled. -/
  trigger : Option (String × String) := none
  cancelled : Bool := false
  clock : Binary64 := .ofInt 0
  /-- The calls so far. -/
  log : List Call := []

namespace Memory

/-- The error with which a disruption strikes a call. -/
def disruptionError (c : Call) (d : Disruption HostErrorKind) : HostError :=
  { kind := d.error, message := d.message.getD (c.word ++ " " ++ c.subject ++ " failed") }

/-- Receive a call: write it down, see whether it cancels the pass, and see whether it fails. -/
def receive (m : Memory) (c : Call) : Option HostError × Memory :=
  let (struck, disruptions) := Disruption.strike? c.word c.subject m.disruptions
  (struck.map (disruptionError c),
   { m with
     log := m.log ++ [c]
     cancelled := m.cancelled || m.trigger == some (c.word, c.subject)
     disruptions })

/-- Answer a call. -/
def call (m : Memory) (c : Call) : Except HostError c.Answer × Memory :=
  match m.receive c with
  | (some e, m) => (.error e, m)
  | (none, m) =>
      match m.tables.serve m.polls c with
      | .ok (a, tables) => (.ok a, { m with tables })
      | .error e => (.error e, m)

/-- Answer a query. -/
def answer (m : Memory) : (q : Query) → q.Reply × Memory
  | .call c => m.call c
  | .cancelled => (m.cancelled, m)
  | .now => (m.clock, m)
  | .sleep seconds => ((), { m with clock := m.clock.add seconds })

end Memory

end VirtualTopology
