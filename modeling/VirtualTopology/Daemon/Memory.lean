import VirtualTopology.Daemon.Connection
import VirtualTopology.Host.Disruption
import VirtualTopology.Host.Stored
import VirtualTopology.Pass.Query

/-!
# A daemon in memory

`DaemonMemory` answers what is asked of a daemon from tables. It is stricter than a host: what runs
cannot be started, what does not run cannot be stopped, and a document has to be well formed and to
give a name. Each function is written down first, then a disruption may strike it, and only then is
it served.

`Session` answers the queries of a pass through a connection to such a daemon.
-/

namespace VirtualTopology

/-- The opening of a connection or a function, as it is written down. -/
inductive DaemonEvent where
  | opened (readonly : Bool) (uri : String)
  | called (c : DaemonCall)
  deriving Repr, DecidableEq

namespace DaemonEvent

/-- The name of the function. -/
def word : DaemonEvent → String
  | opened true _ => "openReadOnly"
  | opened false _ => "open"
  | called c => c.word

/-- The name of what the function is applied to. -/
def subject : DaemonEvent → String
  | opened .. => ""
  | called c => c.subject

end DaemonEvent

/-- A daemon in memory. -/
structure DaemonMemory where
  tables : Tables := {}
  /-- How often a domain that has been asked to shut down is still seen on. -/
  polls : Table Int := []
  disruptions : List (Disruption Int) := []
  /-- How long the next opening of a connection takes. -/
  delay : Binary64 := .ofInt 0
  clock : Binary64 := .ofInt 0
  /-- What was asked so far. -/
  log : List DaemonEvent := []

namespace DaemonMemory

/-! ### Errors -/

/-- The error of a document that cannot be used. -/
def malformed : DaemonError := { code := 27, message := "malformed document" }

/-- The error of a resource that is not there. -/
def missing (k : DefinedKind) (name : String) : DaemonError :=
  { code := DaemonError.missing k, message := "no " ++ k.word ++ " named '" ++ name ++ "'" }

/-- The error of a resource that should run and does not, or the other way round. -/
def wrongState (k : DefinedKind) (name state : String) : DaemonError :=
  { code := 55, message := k.word ++ " '" ++ name ++ "' is " ++ state }

/-! ### Functions -/

/-- The resource under a name. -/
def find (t : Tables) (k : DefinedKind) (name : String) : Except DaemonError StoredResource :=
  match t.get? k name with
  | some r => .ok r
  | none => .error (missing k name)

/-- The resource under a name, which has to run. -/
def running (t : Tables) (k : DefinedKind) (name : String) : Except DaemonError StoredResource := do
  let r ← find t k name
  if r.active then pure r else throw (wrongState k name "not active")

/-- A volume of a pool that runs. -/
def findVolume (t : Tables) (pool name : String) :
    Except DaemonError (StoredResource × StoredVolume) := do
  let r ← running t .pool pool
  match r.volumes.get? name with
  | some v => pure (r, v)
  | none =>
      throw { code := DaemonError.missingVolume, message := "no volume named '" ++ name ++ "'" }

/-- The document and name of a resource that is to be stored. -/
def named (document : String) : Except DaemonError (Element × String) :=
  match Element.read? document with
  | some e =>
      match e.resourceName? with
      | some name => if name.isEmpty then .error malformed else .ok (e, name)
      | none => .error malformed
  | none => .error malformed

/-- Serve a function. -/
def serve (polls : Table Int) (t : Tables) :
    (c : DaemonCall) → Except DaemonError (c.Answer × Tables)
  | .version => .ok ((), t)
  | .close => .ok ((), t)
  | .listAll k flags =>
      let shown := (t.table k).filter fun e =>
        flags != DaemonCall.persistentOnly || e.2.persistent.getD true
      .ok (shown.map (·.1), t)
  | .lookup k name => do
      let _ ← find t k name
      pure ((), t)
  | .define k document => do
      let (_, name) ← named document
      pure ((), t.define k name document)
  | .readDocument k name flags => do
      let r ← find t k name
      let text :=
        if flags = DaemonCall.inactiveDocument k then r.document
        else r.liveDocument.getD r.document
      pure (text, t)
  | .isActive k name => do
      let r ← find t k name
      pure (r.seen.active, t.put k name r.seen)
  | .autostart k name => do
      let r ← find t k name
      pure (r.autostart, t)
  | .create k name _ => do
      let r ← find t k name
      if r.active then throw (wrongState k name "already active")
      pure ((), t.put k name r.started)
  | .destroy k name => do
      let r ← running t k name
      pure ((), t.put k name r.stopped)
  | .shutdown name => do
      let r ← running t .domain name
      pure ((), t.put .domain name (r.asked ((polls.get? name).getD 0)))
  | .undefine k name _ => do
      let _ ← find t k name
      pure ((), t.erase k name)
  | .setAutostart k name autostart => do
      let r ← find t k name
      pure ((), t.put k name { r with autostart })
  | .refresh pool => do
      let _ ← running t .pool pool
      pure ((), t)
  | .listVolumes pool => do
      let r ← running t .pool pool
      pure (r.volumes.names, t)
  | .lookupVolume pool name => do
      let _ ← findVolume t pool name
      pure ((), t)
  | .createVolume pool document => do
      let r ← running t .pool pool
      match Element.read? document with
      | none => throw malformed
      | some e =>
          let name := (e.resourceName?).getD ""
          if r.volumes.has name then
            throw { code := 90, message := "volume '" ++ name ++ "' exists already" }
          pure ((), t.putVolume pool r name (.ofDocument e))
  | .volumeDocument pool name => do
      let (_, v) ← findVolume t pool name
      pure (v.document, t)
  | .deleteVolume pool name => do
      let (r, _) ← findVolume t pool name
      pure ((), t.put .pool pool { r with volumes := r.volumes.erase name })
  | .resizeVolume pool name bytes => do
      let (r, v) ← findVolume t pool name
      pure ((), t.putVolume pool r name (v.resized bytes))

/-! ### Answering -/

/-- Write something down, and see whether it fails. -/
def receive (d : DaemonMemory) (e : DaemonEvent) : Option DaemonError × DaemonMemory :=
  let (struck, disruptions) := Disruption.strike? e.word e.subject d.disruptions
  (struck.map fun x => { code := x.error, message := x.message.getD (e.word ++ " failed") },
   { d with log := d.log ++ [e], disruptions })

/-- Answer a function. -/
def call (d : DaemonMemory) (c : DaemonCall) : Except DaemonError c.Answer × DaemonMemory :=
  match d.receive (.called c) with
  | (some e, d) => (.error e, d)
  | (none, d) =>
      match serve d.polls d.tables c with
      | .ok (a, tables) => (.ok a, { d with tables })
      | .error e => (.error e, d)

/-- Answer the opening of a connection. One that would take too long is not even received. -/
def connect (d : DaemonMemory) (readonly : Bool) (uri : String) (timeout : Int) :
    Opening × DaemonMemory :=
  let slow := !d.delay.isZero && (Binary64.ofInt timeout).le d.delay
  let d := { d with clock := if d.delay.isZero then d.clock else d.clock.add d.delay }
  if slow then (.timedOut, d)
  else
    match d.receive (.opened readonly uri) with
    | (some e, d) => (.refused e, d)
    | (none, d) => (.opened, d)

/-- Answer what is asked. -/
def answer (d : DaemonMemory) : (q : DaemonQuery) → q.Reply × DaemonMemory
  | .connect readonly uri timeout => d.connect readonly uri timeout
  | .call c => d.call c

end DaemonMemory

/-- A connection and the daemon behind it. -/
structure Session where
  connection : Connection
  daemon : DaemonMemory

namespace Session

/-- Open the connection. -/
def connect (s : Session) : Except HostError Unit × Session :=
  let ((r, connection), daemon) := s.connection.connect.run DaemonMemory.answer s.daemon
  (r, { connection, daemon })

/-- Close the connection. -/
def disconnect (s : Session) : Session :=
  let (connection, daemon) := s.connection.disconnect.run DaemonMemory.answer s.daemon
  { connection, daemon }

/-- Carry out a call. -/
def call (s : Session) (c : Call) : Except HostError c.Answer × Session :=
  let ((r, connection), daemon) := (s.connection.call c).run DaemonMemory.answer s.daemon
  (r, { connection, daemon })

/-- Answer a query of a pass. -/
def answer (s : Session) : (q : Query) → q.Reply × Session
  | .call c => s.call c
  | .cancelled => (false, s)
  | .now => (s.daemon.clock, s)
  | .sleep seconds =>
      ((), { s with daemon := { s.daemon with clock := s.daemon.clock.add seconds } })

end Session

end VirtualTopology
