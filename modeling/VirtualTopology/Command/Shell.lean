import VirtualTopology.Command.Screen
import VirtualTopology.Command.Workspace
import VirtualTopology.Host.Call
import VirtualTopology.Pass.Query
import VirtualTopology.Settings.Loading

/-!
# What commands run in

A command runs in a terminal: it shows blocks, reads and writes files of the workspace, may connect to
the host and then talk to it, and ends with a status (`Shell.exit`). A block that is unprintable ends
the command with status 1 and is not shown.
-/

namespace VirtualTopology

/-- What becomes of an attempt to connect to the host. -/
inductive Connecting where
  | succeeds
  | fails (e : HostError)
  /-- The user interrupts. -/
  | interrupted
  deriving Repr, DecidableEq

/-- What a command finds when it is started. -/
structure Surroundings where
  environment : Environment
  connecting : Connecting := .succeeds

/-- What a command leaves behind. -/
structure Terminal where
  workspace : Workspace := {}
  shown : List Block := []
  /-- The settings with which the host was contacted. -/
  contacted : Option Settings := none

/-- A command at work: it can end early with a status. -/
abbrev Shell (α : Type) := ExceptT Nat (StateT Terminal (Dialogue Query Query.Reply)) α

namespace Shell

/-- End the command with a status. -/
def exit {α : Type} (status : Nat) : Shell α := throw status

/-- Show a block. -/
def display (b : Block) : Shell Unit :=
  if b.lines?.isSome then modify fun t => { t with shown := t.shown ++ [b] } else exit 1

/-- Show a line. -/
def say (markup : String) : Shell Unit := display (.line markup)

/-- Talk to the host. -/
def talk {α : Type} (t : Talk α) : Shell α :=
  ExceptT.lift (StateT.lift t)

/-- Put a changed workspace in place of the present one, or end the command if there is none. -/
def commit (w : Option Workspace) : Shell Unit :=
  match w with
  | some workspace => modify fun t => { t with workspace }
  | none => exit 1

/-- Run a command from a workspace on: its status and what it leaves behind. -/
def start (s : Shell Unit) (workspace : Workspace) : Talk (Nat × Terminal) := do
  let (status, t) ← (ExceptT.run s).run { workspace }
  return (match status with | .ok _ => 0 | .error n => n, t)

end Shell

end VirtualTopology
