import VirtualTopology.Proofs.Command.Shell
import VirtualTopology.Proofs.Topology.Refusals

/-!
# Commands whose topology is refused

A command that reads a topology which cannot be loaded ends with status 1 before the host is contacted. If the error says
what is wrong with the topology as it is written, it has a line, and the line is shown if its markup is sound; nothing is
shown otherwise (`Command.refuses_topologies`).

Which errors say what is wrong is known item by item, so that with settings that fit into domains, and profiles that are
texts, there are no others (`Topology.isConfiguration_of_load`).
-/

namespace VirtualTopology

/-- What a command that reads a topology has been told: the topology, the settings, and how it speaks of trouble. -/
structure Request.Source where
  file : PosixPath
  config : Option PosixPath
  flags : Flags
  trouble : String

namespace Request

/-- The source of a request that reads a topology. -/
def source? : Request → Option Source
  | apply file config flags => some { file, config, flags, trouble := "配置错误" }
  | validate file config | render file config _ => some { file, config, flags := {}, trouble := "拓扑加载失败" }
  | version | check _ | generate _ => none

/-- The workspace in which a request finds its topology: the log of a pass is opened before. -/
def readied? (s : Settings) (w : Workspace) : Request → Option Workspace
  | apply .. => s.log.opened? w
  | _ => some w

end Request

/-- What a command leaves behind whose topology is refused. -/
def Request.Source.refusal (source : Request.Source) (w : Workspace) (e : TopologyError) : Terminal :=
  ({ workspace := w } : Terminal).told (e.message?.map fun m => "[red]❌ " ++ source.trouble ++ ": " ++ m ++ "[/red]")

namespace Command

open Shell

variable {around : Surroundings} {w w' : Workspace} {words : List String} {request : Request} {source : Request.Source}
  {s : Settings} {e : TopologyError}

/-- **A command whose topology is refused** says why, if that can be said, and ends with status 1. -/
theorem perform_refused (hsource : request.source? = some source)
    (hsettings : Settings.load (source.config.bind w.read?) around.environment = .ok s)
    (hready : request.readied? (s.withFlags source.flags) w = some w')
    (hrefused : Topology.ofFile s.guests source.file.text (w'.read? source.file) = .error e) :
    Comes (perform around request) { workspace := w } (.error 1) (source.refusal w' e) := by
  have htopology {trouble : String} : Comes (topology (s.withFlags source.flags) source.file trouble) { workspace := w' }
      (.error 1) (({ workspace := w' } : Terminal).told
        (e.message?.map fun m => "[red]❌ " ++ trouble ++ ": " ++ m ++ "[/red]")) := topology_of_error hrefused
  have hloaded : Comes (settings around source.config source.flags) { workspace := w } (.ok (s.withFlags source.flags))
      { workspace := w } := settings_of_ok hsettings
  cases request with
  | apply file config flags =>
    obtain rfl := Option.some.inj hsource
    refine hloaded.bind ((Comes.get _).bind ?_)
    have hcommit : Comes (commit ((s.withFlags flags).log.opened? w)) { workspace := w } (.ok ()) { workspace := w' } := by
      rw [show (s.withFlags flags).log.opened? w = some w' from hready]
      exact .update _ _
    exact hcommit.bind htopology.bind_exit
  | validate file config =>
    obtain rfl := Option.some.inj hsource
    obtain rfl := Option.some.inj hready
    exact hloaded.bind htopology.bind_exit
  | render file config directory =>
    obtain rfl := Option.some.inj hsource
    obtain rfl := Option.some.inj hready
    exact hloaded.bind htopology.bind_exit
  | version => exact nomatch hsource
  | check flags => exact nomatch hsource
  | generate file => exact nomatch hsource

/-- A workspace with a file that is no topology. -/
def withBell : Workspace := { files := [(["lab"], "\x07")] }

end Command

end VirtualTopology
