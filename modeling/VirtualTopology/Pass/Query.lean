import VirtualTopology.Dialogue
import VirtualTopology.Host.Call
import VirtualTopology.Number.Decimal
import VirtualTopology.Report

/-!
# What a pass asks

A pass is a dialogue. Besides calling the host it asks whether it has been cancelled, what time it
is, and to be woken up later.

The work on one resource ends with a value or with `Trouble`: a failure that is recorded for the
resource, or something that cannot be written. `supervise` runs the work on one resource, unless the
pass has been cancelled before.
-/

namespace VirtualTopology

/-- What a pass asks. -/
inductive Query where
  | call (c : Call)
  | cancelled
  /-- The time, in seconds. -/
  | now
  | sleep (seconds : Binary64)
  deriving Repr, DecidableEq

/-- The type of the reply to a query. -/
@[reducible] def Query.Reply : Query → Type
  | call c => Except HostError c.Answer
  | cancelled => Bool
  | now => Binary64
  | sleep _ => Unit

/-- A dialogue of a pass. -/
abbrev Talk (α : Type) := Dialogue Query Query.Reply α

/-- Call the host. -/
def Call.ask (c : Call) : Talk (Except HostError c.Answer) := Dialogue.query (Query.call c)

/-- The steps of the work on a resource, by which a failure is reported. -/
inductive Operation where
  | list
  | read
  | define
  | start
  | stop
  | autostart
  | create
  | update
  | delete
  | resize
  | undefine
  | checkReferences
  deriving Repr, DecidableEq

/-- The word for a step. -/
def Operation.word : Operation → String
  | list => "list"
  | read => "read"
  | define => "define"
  | start => "start"
  | stop => "stop"
  | autostart => "autostart"
  | create => "create"
  | update => "update"
  | delete => "delete"
  | resize => "resize"
  | undefine => "undefine"
  | checkReferences => "check-references"

/-- Why the work on a resource ends early. -/
inductive Trouble where
  | failed (operation : Operation) (reason : String) (kind : FailureKind)
  /-- Something that the work has to write cannot be written. -/
  | unwritable (why : Unwritable)
  deriving Repr, DecidableEq

/-- The work on a resource. -/
abbrev Work (α : Type) := ExceptT Trouble (Dialogue Query Query.Reply) α

/-- The kind of failure that an error of the host is. -/
def HostError.failureKind (e : HostError) : FailureKind :=
  match e.kind with
  | .unsupportedChange => .unsupportedChange
  | _ => .operational

namespace Work

/-- Call the host as part of a step. -/
def attempt (operation : Operation) (c : Call) : Work c.Answer := do
  match ← (c.ask : Talk _) with
  | .ok answer => pure answer
  | .error e => throw (.failed operation e.message e.failureKind)

/-- Change the host as part of a step; a dry run leaves it as it is. -/
def change (dry : Bool) (operation : Operation) (c : Call) : Work Unit :=
  if dry then pure () else do
    let _ ← attempt operation c

/-- Refuse a change that would need the resource to be made anew. -/
def refuse {α : Type} (operation : Operation) (reason : String) : Work α :=
  throw (.failed operation reason .unsupportedChange)

/-- The text of something that is written. -/
def writing : Except Unwritable String → Work String
  | .ok text => pure text
  | .error why => throw (.unwritable why)

/-- A text in which some sizes stand. -/
def stating (sizes : List Nat) (text : String) : Work String :=
  if sizes.all fun n => Text.isWritable n then pure text else throw (.unwritable .number)

end Work

/-- How the work on a resource ended. -/
inductive Ending (α : Type) where
  | finished (value : α)
  | failed (result : Result)
  | cancelled (result : Result)
  | unwritable (why : Unwritable)
  deriving Repr

/-- The result of a resource that was not worked on. -/
def Result.cancelled (kind : ResourceKind) (name : String) : Result :=
  { kind, name, outcome := .cancelled }

/-- The failure of a step. -/
def Result.stuck (kind : ResourceKind) (name : String) (operation : Operation) (reason : String)
    (failureKind : FailureKind := .operational) : Result :=
  .failure kind name operation.word reason failureKind

/-- Work on a resource, unless the pass has been cancelled. -/
def supervise {α : Type} (kind : ResourceKind) (name : String) (work : Work α) :
    Talk (Ending α) := do
  if ← (Dialogue.query Query.cancelled : Talk Bool) then
    return .cancelled (.cancelled kind name)
  match ← work.run with
  | .ok a => return .finished a
  | .error (.failed operation reason failureKind) =>
      return .failed (.stuck kind name operation reason failureKind)
  | .error (.unwritable why) => return .unwritable why

/-- Results, or why something could not be written. -/
abbrev Recorded := Except Unwritable (List Result)

/-- The results of work that gives one. -/
def Ending.recorded : Ending Result → Recorded
  | finished r | failed r | cancelled r => .ok [r]
  | unwritable why => .error why

/-- The results of one task and of those behind it. -/
def Recorded.append (r rs : Recorded) : Recorded := r.bind fun r => rs.map (r ++ ·)

/-- Run tasks one after the other. All of them run, also behind one that gives no results. -/
def gather : List (Talk Recorded) → Talk Recorded
  | [] => pure (.ok [])
  | t :: ts => do
      let r ← t
      let rs ← gather ts
      pure (r.append rs)

end VirtualTopology
