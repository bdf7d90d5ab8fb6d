import VirtualTopology.Document.ReadBack
import VirtualTopology.Resource

/-!
# Calls to a host

Everything that a pass asks of a host is a `Call`. Networks, pools and domains are treated alike;
volumes live inside pools and have calls of their own. Reading calls leave the host as it is
(`Call.isReading`), and every call can fail with a `HostError`.
-/

namespace VirtualTopology

/-- A call to a host. -/
inductive Call where
  | list (kind : DefinedKind)
  /-- The stored document. -/
  | read (kind : DefinedKind) (name : String)
  /-- Store a document under the name that it gives. -/
  | define (kind : DefinedKind) (document : String)
  | undefine (kind : DefinedKind) (name : String)
  | start (kind : DefinedKind) (name : String)
  /-- Stop a resource. A domain is asked to shut down, unless it is turned off by force. -/
  | stop (kind : DefinedKind) (name : String) (force : Bool)
  | isActive (kind : DefinedKind) (name : String)
  | isAutostart (kind : DefinedKind) (name : String)
  | setAutostart (kind : DefinedKind) (name : String) (autostart : Bool)
  | listVolumes (pool : String)
  | readVolume (pool name : String)
  | createVolume (pool document : String)
  | deleteVolume (pool name : String)
  | resizeVolume (pool name : String) (bytes : Int)
  deriving Repr, DecidableEq

/-- What a host answers to a call. -/
inductive AnswerKind where
  | names
  | text
  | flag
  | nothing
  deriving Repr, DecidableEq

/-- The type of an answer. -/
@[reducible] def AnswerKind.type : AnswerKind → Type
  | names => List String
  | text => String
  | flag => Bool
  | nothing => Unit

/-- The name in a document, empty if there is none. -/
def nameInDocument (document : String) : String :=
  ((Element.read? document).bind (·.resourceName?)).getD ""

namespace Call

/-- What kind of answer a call has. -/
@[reducible] def answers : Call → AnswerKind
  | list _ | listVolumes _ => .names
  | read .. | readVolume .. => .text
  | isActive .. | isAutostart .. => .flag
  | _ => .nothing

/-- The type of the answer to a call. -/
@[reducible] def Answer (c : Call) : Type := c.answers.type

/-- Whether a call leaves the host as it is. -/
def isReading : Call → Bool
  | list _ | read .. | isActive .. | isAutostart .. | listVolumes _ | readVolume .. => true
  | _ => false

/-- The word for a call. -/
def word : Call → String
  | list k => "list_" ++ k.plural
  | read k _ => "get_" ++ k.word ++ "_definition"
  | define k _ => "define_" ++ k.word
  | undefine k _ => "undefine_" ++ k.word
  | start k _ => "start_" ++ k.word
  | stop k _ _ => "stop_" ++ k.word
  | isActive k _ => "is_" ++ k.word ++ "_active"
  | isAutostart k _ => "is_" ++ k.word ++ "_autostart"
  | setAutostart k _ _ => "set_" ++ k.word ++ "_autostart"
  | listVolumes _ => "list_volumes"
  | readVolume .. => "get_volume_definition"
  | createVolume .. => "create_volume"
  | deleteVolume .. => "delete_volume"
  | resizeVolume .. => "resize_volume"

/-- The name of what a call is about: of a resource, or of a volume behind its pool. -/
def subject : Call → String
  | list _ => ""
  | define _ document => nameInDocument document
  | read _ n | undefine _ n | start _ n | stop _ n _ | isActive _ n | isAutostart _ n
  | setAutostart _ n _ | listVolumes n => n
  | createVolume pool document => volumeLabel pool (nameInDocument document)
  | readVolume pool n | deleteVolume pool n | resizeVolume pool n _ => volumeLabel pool n

/-- The kind and name of the resource that a call goes to; a volume's is its pool. -/
def target : Call → DefinedKind × Option String
  | list k => (k, none)
  | define k document => (k, some (nameInDocument document))
  | read k n | undefine k n | start k n | stop k n _ | isActive k n | isAutostart k n
  | setAutostart k n _ => (k, some n)
  | listVolumes n => (.pool, some n)
  | createVolume n _ | readVolume n _ | deleteVolume n _ | resizeVolume n _ _ => (.pool, some n)

end Call

/-- What sort of failure a call ends with. -/
inductive HostErrorKind where
  | general
  | connection
  | operation
  | permission
  | notFound
  /-- The change would need the resource to be made anew. -/
  | unsupportedChange
  | configuration
  deriving Repr, DecidableEq

/-- A failure of a call. -/
structure HostError where
  kind : HostErrorKind := .operation
  message : String
  /-- What the call was trying to do, if the connection says so. -/
  action : Option String := none
  deriving Repr, DecidableEq

end VirtualTopology
