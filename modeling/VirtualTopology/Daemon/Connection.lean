import VirtualTopology.Daemon.Call
import VirtualTopology.Settings

/-!
# Connections

A connection carries out the calls of a pass with the functions of the daemon. Before each call it
asks the daemon for its version to see whether it still answers; a connection that does not is given
up, and everything fails until it is opened again. A connection for reading only refuses calls that
change the host before it says anything to the daemon.

An error of the daemon becomes an error of the host. It says that something is not there exactly if
the daemon gives the number that stands for this with the call (`Connection.missing?`).
-/

namespace VirtualTopology

/-- A connection to a daemon. -/
structure Connection where
  settings : ConnectionSettings := {}
  /-- Whether the daemon can be told to keep the state of security chips. -/
  keepsChips : Bool := true
  isOpen : Bool := false
  deriving Repr, DecidableEq

namespace Connection

/-! ### Opening and closing -/

/-- The error of a connection. -/
def broken (message : String) : HostError := { kind := .connection, message }

/-- Open the connection if it is not open. -/
def connect (c : Connection) : DaemonTalk (Except HostError Unit × Connection) := do
  if c.isOpen then return (.ok (), c)
  let s := c.settings
  match ← (Dialogue.query (DaemonQuery.connect s.readonly s.uri s.timeout) :
      DaemonTalk Opening) with
  | .opened => return (.ok (), { c with isOpen := true })
  | .timedOut => return (.error (broken ("Timed out connecting to libvirt: " ++ s.uri)), c)
  | .refused e => return (.error (broken ("Failed to connect to libvirt: " ++ e.message)), c)

/-- Close the connection if it is open. It is given up also when closing fails. -/
def disconnect (c : Connection) : DaemonTalk Connection := do
  if c.isOpen then
    let _ ← DaemonCall.close.apply.run
  return { c with isOpen := false }

/-- See whether the daemon still answers. -/
def check (c : Connection) : DaemonTalk (Except HostError Unit × Connection) := do
  if !c.isOpen then return (.error (broken "Not connected to libvirt"), c)
  match ← DaemonCall.version.apply.run with
  | .ok _ => return (.ok (), c)
  | .error _ => return (.error (broken "Libvirt connection lost"), { c with isOpen := false })

/-! ### What a call comes to -/

/-- What a kind is called towards users. -/
def title : DefinedKind → String
  | .network => "network"
  | .pool => "storage pool"
  | .domain => "domain"

/-- What a kind is called at the start of a sentence. -/
def capitalTitle : DefinedKind → String
  | .network => "Network"
  | .pool => "Storage pool"
  | .domain => "Domain"

/-- What a call does, in words. -/
def action : Call → String
  | .list k => "list " ++ title k ++ "s"
  | .read k n => "read " ++ title k ++ " " ++ n
  | .define k _ => "define " ++ title k
  | .undefine k n => "undefine " ++ title k ++ " " ++ n
  | .start k n => "start " ++ title k ++ " " ++ n
  | .stop k n _ => "stop " ++ title k ++ " " ++ n
  | .isActive k n | .isAutostart k n => "query " ++ title k ++ " " ++ n
  | .setAutostart k n _ => "set autostart on " ++ title k ++ " " ++ n
  | .listVolumes p => "list volumes in " ++ p
  | .readVolume p n => "read volume " ++ volumeLabel p n
  | .createVolume p _ => "create volume in " ++ p
  | .deleteVolume p n => "delete volume " ++ volumeLabel p n
  | .resizeVolume p n _ => "resize volume " ++ volumeLabel p n

/-- The number that says that what a call is about is not there, and what that is. -/
def missing? : Call → Option (Int × String)
  | .list _ | .define .. => none
  | .read k n | .undefine k n | .start k n | .stop k n _ | .isActive k n | .isAutostart k n
  | .setAutostart k n _ => some (DaemonError.missing k, capitalTitle k ++ " " ++ n)
  | .listVolumes p | .createVolume p _ =>
      some (DaemonError.missing .pool, capitalTitle .pool ++ " " ++ p)
  | .readVolume p n | .deleteVolume p n | .resizeVolume p n _ =>
      some (DaemonError.missingVolume, "Volume " ++ volumeLabel p n)

/-- What a call needs the right to do, if it changes the host. -/
def right? : Call → Option String
  | .define k _ => some (k.word ++ ".define")
  | .undefine k _ => some (k.word ++ ".undefine")
  | .start k _ => some (k.word ++ ".start")
  | .stop k _ _ => some (k.word ++ ".stop")
  | .setAutostart k _ _ => some (k.word ++ ".autostart")
  | .createVolume .. => some "volume.create"
  | .deleteVolume .. => some "volume.delete"
  | .resizeVolume .. => some "volume.resize"
  | _ => none

/-- Names in order. -/
def sorted (names : List String) : List String := names.mergeSort fun a b => decide (a ≤ b)

/-- The flags with which a kind is undefined: nothing on disk is removed. -/
def undefineFlags (c : Connection) : DefinedKind → Nat
  | .domain =>
      DaemonCall.keepVariables + if c.keepsChips then DaemonCall.keepChip else 0
  | _ => 0

/-- The flags with which a kind is started. -/
def createFlags : DefinedKind → Nat
  | .pool => DaemonCall.withBuild
  | _ => 0

/-- The functions of the daemon that carry out a call. -/
def steps (c : Connection) : (q : Call) → DaemonWork q.Answer
  | .list k => do
      let names ← (DaemonCall.listAll k DaemonCall.persistentOnly).apply
      return sorted names
  | .read k n => do
      let _ ← (DaemonCall.lookup k n).apply
      (DaemonCall.readDocument k n (DaemonCall.inactiveDocument k)).apply
  | .define k document => (DaemonCall.define k document).apply
  | .undefine k n => do
      let _ ← (DaemonCall.lookup k n).apply
      if k ≠ .domain then
        -- this only stops the resource; what it stores stays
        if ← (DaemonCall.isActive k n).apply then
          let _ ← (DaemonCall.destroy k n).apply
      (DaemonCall.undefine k n (c.undefineFlags k)).apply
  | .start k n => do
      let _ ← (DaemonCall.lookup k n).apply
      (DaemonCall.create k n (createFlags k)).apply
  | .stop k n force => do
      let _ ← (DaemonCall.lookup k n).apply
      if k = .domain ∧ !force then (DaemonCall.shutdown n).apply
      else (DaemonCall.destroy k n).apply
  | .isActive k n => do
      let _ ← (DaemonCall.lookup k n).apply
      (DaemonCall.isActive k n).apply
  | .isAutostart k n => do
      let _ ← (DaemonCall.lookup k n).apply
      (DaemonCall.autostart k n).apply
  | .setAutostart k n autostart => do
      let _ ← (DaemonCall.lookup k n).apply
      let there ← (DaemonCall.autostart k n).apply
      if there ≠ autostart then
        let _ ← (DaemonCall.setAutostart k n autostart).apply
      return ()
  | .listVolumes p => do
      let _ ← (DaemonCall.lookup .pool p).apply
      -- volumes may have been made behind the daemon's back
      let _ ← (DaemonCall.refresh p).apply
      let names ← (DaemonCall.listVolumes p).apply
      return sorted names
  | .readVolume p n => do
      let _ ← (DaemonCall.lookup .pool p).apply
      let _ ← (DaemonCall.lookupVolume p n).apply
      (DaemonCall.volumeDocument p n).apply
  | .createVolume p document => do
      let _ ← (DaemonCall.lookup .pool p).apply
      (DaemonCall.createVolume p document).apply
  | .deleteVolume p n => do
      let _ ← (DaemonCall.lookup .pool p).apply
      let _ ← (DaemonCall.lookupVolume p n).apply
      (DaemonCall.deleteVolume p n).apply
  | .resizeVolume p n bytes => do
      let _ ← (DaemonCall.lookup .pool p).apply
      let _ ← (DaemonCall.lookupVolume p n).apply
      (DaemonCall.resizeVolume p n bytes).apply

/-- An error of the daemon as an error of a call. -/
def hostError (q : Call) (e : DaemonError) : HostError :=
  match missing? q with
  | some (code, what) =>
      if e.code = code then
        { kind := .notFound, message := what ++ " not found", action := some (action q) }
      else failed
  | none => failed
where
  /-- Every other error. -/
  failed : HostError :=
    { kind := .operation, message := "Failed to " ++ action q ++ ": " ++ e.message
      action := some (action q) }

/-- The refusal of a call that the connection has no right to. -/
def refusal? (c : Connection) (q : Call) : Option HostError :=
  if c.settings.readonly then
    (right? q).map fun right =>
      { kind := .permission
        message := "Operation not allowed on read-only connection: " ++ right }
  else none

/-- Carry out a call. -/
def call (c : Connection) (q : Call) : DaemonTalk (Except HostError q.Answer × Connection) := do
  match c.refusal? q with
  | some e => return (.error e, c)
  | none => do
      match ← c.check with
      | (.error e, c) => return (.error e, c)
      | (.ok _, c) => do
          let answer ← (c.steps q).run
          return (answer.mapError (hostError q), c)

end Connection

end VirtualTopology
