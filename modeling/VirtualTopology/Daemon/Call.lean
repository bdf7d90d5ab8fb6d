import VirtualTopology.Dialogue
import VirtualTopology.Host.Call

/-!
# The daemon

A host is run by a daemon, and the daemon offers functions that are finer than the calls of a pass:
an object is looked up by name first, and then something is asked of the object. A function fails
with a `DaemonError`, which has a number and a text. Opening a connection takes time and can time
out.
-/

namespace VirtualTopology

/-- A function of the daemon, applied. An object is named by its kind and name, a volume by its pool
and name. -/
inductive DaemonCall where
  | version
  | close
  | listAll (kind : DefinedKind) (flags : Nat)
  | lookup (kind : DefinedKind) (name : String)
  | define (kind : DefinedKind) (document : String)
  | readDocument (kind : DefinedKind) (name : String) (flags : Nat)
  | isActive (kind : DefinedKind) (name : String)
  | autostart (kind : DefinedKind) (name : String)
  | create (kind : DefinedKind) (name : String) (flags : Nat)
  | destroy (kind : DefinedKind) (name : String)
  | shutdown (name : String)
  | undefine (kind : DefinedKind) (name : String) (flags : Nat)
  | setAutostart (kind : DefinedKind) (name : String) (autostart : Bool)
  | refresh (pool : String)
  | listVolumes (pool : String)
  | lookupVolume (pool name : String)
  | createVolume (pool document : String)
  | volumeDocument (pool name : String)
  | deleteVolume (pool name : String)
  | resizeVolume (pool name : String) (bytes : Int)
  deriving Repr, DecidableEq

namespace DaemonCall

/-! ### Flags -/

/-- List only what outlives being stopped. -/
def persistentOnly : Nat := 4

/-- Give the stored document, not the one of the running resource. -/
def inactiveDocument : DefinedKind → Nat
  | .network => 1
  | .pool => 1
  | .domain => 2

/-- Make the target of a pool when it is started. -/
def withBuild : Nat := 1

/-- Keep the variable store of a domain. -/
def keepVariables : Nat := 8

/-- Keep the state of the security chip of a domain. -/
def keepChip : Nat := 64

/-! ### Answers and words -/

/-- What kind of answer a function has. -/
@[reducible] def answers : DaemonCall → AnswerKind
  | listAll .. | listVolumes _ => .names
  | readDocument .. | volumeDocument .. => .text
  | isActive .. | autostart .. => .flag
  | _ => .nothing

/-- The type of the answer of a function. -/
@[reducible] def Answer (c : DaemonCall) : Type := c.answers.type

/-- Whether a function changes what the daemon stores or runs. -/
def isWriting : DaemonCall → Bool
  | define .. | create .. | destroy .. | shutdown _ | undefine .. | setAutostart .. | createVolume ..
  | deleteVolume .. | resizeVolume .. => true
  | _ => false

/-- The name of the function. -/
def word : DaemonCall → String
  | version => "getVersion"
  | close => "close"
  | listAll .network _ => "listAllNetworks"
  | listAll .pool _ => "listAllStoragePools"
  | listAll .domain _ => "listAllDomains"
  | lookup .network _ => "networkLookupByName"
  | lookup .pool _ => "storagePoolLookupByName"
  | lookup .domain _ => "lookupByName"
  | define .network _ => "networkDefineXML"
  | define .pool _ => "storagePoolDefineXML"
  | define .domain _ => "defineXML"
  | readDocument k _ _ => k.word ++ ".XMLDesc"
  | isActive k _ => k.word ++ ".isActive"
  | autostart k _ => k.word ++ ".autostart"
  | create k _ _ => k.word ++ ".create"
  | destroy k _ => k.word ++ ".destroy"
  | shutdown _ => "domain.shutdown"
  | undefine .domain _ _ => "domain.undefineFlags"
  | undefine k _ _ => k.word ++ ".undefine"
  | setAutostart k _ _ => k.word ++ ".setAutostart"
  | refresh _ => "pool.refresh"
  | listVolumes _ => "pool.listVolumes"
  | lookupVolume .. => "pool.storageVolLookupByName"
  | createVolume .. => "pool.createXML"
  | volumeDocument .. => "volume.XMLDesc"
  | deleteVolume .. => "volume.delete"
  | resizeVolume .. => "volume.resize"

/-- The name of what a function is applied to, empty if there is none. -/
def subject : DaemonCall → String
  | version | close | listAll .. => ""
  | define _ document => nameInDocument document
  | lookup _ n | readDocument _ n _ | isActive _ n | autostart _ n | create _ n _ | destroy _ n
  | shutdown n | undefine _ n _ | setAutostart _ n _ | refresh n | listVolumes n
  | lookupVolume n _ | createVolume n _ => n
  | volumeDocument p n | deleteVolume p n | resizeVolume p n _ => volumeLabel p n

/-- The kind and name of the resource that a function goes to; a volume's is its pool. -/
def target? : DaemonCall → Option (DefinedKind × String)
  | version | close | listAll .. => none
  | define k document => some (k, nameInDocument document)
  | lookup k n | readDocument k n _ | isActive k n | autostart k n | create k n _ | destroy k n
  | undefine k n _ | setAutostart k n _ => some (k, n)
  | shutdown n => some (.domain, n)
  | refresh n | listVolumes n | lookupVolume n _ | createVolume n _ | volumeDocument n _
  | deleteVolume n _ | resizeVolume n _ _ => some (.pool, n)

end DaemonCall

/-- The failure of a function. -/
structure DaemonError where
  code : Int
  message : String
  deriving Repr, DecidableEq

namespace DaemonError

/-- The number for something that is not there. -/
def missing : DefinedKind → Int
  | .domain => 42
  | .network => 43
  | .pool => 49

/-- The number for a volume that is not there. -/
def missingVolume : Int := 50

end DaemonError

/-- How the opening of a connection ended. -/
inductive Opening where
  | opened
  | timedOut
  | refused (e : DaemonError)
  deriving Repr, DecidableEq

/-- What is asked of a daemon. -/
inductive DaemonQuery where
  /-- Open a connection, for reading only or for everything, within a number of seconds. -/
  | connect (readonly : Bool) (uri : String) (timeout : Int)
  | call (c : DaemonCall)
  deriving Repr, DecidableEq

/-- The type of the reply of a daemon. -/
@[reducible] def DaemonQuery.Reply : DaemonQuery → Type
  | connect .. => Opening
  | call c => Except DaemonError c.Answer

/-- A dialogue with a daemon. -/
abbrev DaemonTalk (α : Type) := Dialogue DaemonQuery DaemonQuery.Reply α

/-- A dialogue with a daemon that ends at the first error. -/
abbrev DaemonWork (α : Type) := ExceptT DaemonError (Dialogue DaemonQuery DaemonQuery.Reply) α

/-- Apply a function of the daemon. -/
def DaemonCall.apply (c : DaemonCall) : DaemonWork c.Answer :=
  ExceptT.mk (Dialogue.query (DaemonQuery.call c))

end VirtualTopology
