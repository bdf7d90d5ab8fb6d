import VirtualTopology.Proofs.Command.Shell
import VirtualTopology.Proofs.Settings.Form
import VirtualTopology.Proofs.Settings.Soundness

/-!
# Commands and bad settings

A command that loads settings ends cleanly if it comes to settings that pass their own reading, or shows a line about what
is wrong and ends with status 1. Whether it does is known beforehand (`Command.endsCleanly_iff`). There are four ways in
which it does not: the text of the file is no YAML and has no line, what the file holds does not have the form of settings,
the line that quotes a bad value is no markup, and a log level is given as an option that is none.

The last one comes to settings all the same, for the options are put in behind the check of the levels; in the other three
the command ends with status 1 and has shown nothing.
-/

namespace VirtualTopology

namespace Request

/-- The file and the options from which a request takes its settings, if it needs any. -/
def asks? : Request → Option (Option PosixPath × Flags)
  | apply _ config flags => some (config, flags)
  | validate _ config | render _ config _ => some (config, {})
  | check flags => some (none, flags)
  | version | generate _ => none

variable {a : Arguments} {w : Workspace} {words : List String} {name : String} {request : Request}
  {config : Option PosixPath} {flags : Flags} {n : Int}

theorem maxWorkers_of_flags (h : Request.flags a = some flags) (hn : flags.maxWorkers = some n) : 1 ≤ n ∧ n ≤ 32 := by
  obtain ⟨number, hnumber, hflags⟩ := Option.bind_eq_some_iff.1 h
  obtain rfl := Option.some.inj hflags
  obtain rfl : number = some n := hn
  unfold given at hnumber
  split at hnumber
  · exact nomatch hnumber
  · obtain ⟨_, hworkers, hsome⟩ := Option.map_eq_some_iff.1 hnumber
    obtain rfl := Option.some.inj hsome
    unfold workers at hworkers
    split at hworkers
    · split at hworkers
      · next hbounds =>
        obtain rfl := Option.some.inj hworkers
        simpa using hbounds
      · exact nomatch hworkers
    · exact nomatch hworkers

theorem maxWorkers_of_command (h : ofCommand w name a = some request) (hasks : request.asks? = some (config, flags))
    (hn : flags.maxWorkers = some n) : 1 ≤ n ∧ n ≤ 32 := by
  unfold ofCommand at h
  dsimp only at h
  -- one case for each command: only some take a number of workers, and they take it from the same option
  split at h
  · obtain ⟨_, -, h⟩ := Option.bind_eq_some_iff.1 h
    obtain ⟨own, hown, h⟩ := Option.bind_eq_some_iff.1 h
    obtain rfl := Option.some.inj h
    obtain ⟨-, rfl⟩ := Prod.mk.inj (Option.some.inj hasks)
    exact maxWorkers_of_flags hown hn
  · obtain ⟨_, -, h⟩ := Option.bind_eq_some_iff.1 h
    obtain ⟨own, hown, h⟩ := Option.bind_eq_some_iff.1 h
    obtain rfl := Option.some.inj h
    obtain ⟨-, rfl⟩ := Prod.mk.inj (Option.some.inj hasks)
    exact maxWorkers_of_flags hown hn
  · obtain ⟨_, -, h⟩ := Option.bind_eq_some_iff.1 h
    obtain rfl := Option.some.inj h
    obtain ⟨-, rfl⟩ := Prod.mk.inj (Option.some.inj hasks)
    exact nomatch hn
  · obtain ⟨_, -, h⟩ := Option.bind_eq_some_iff.1 h
    obtain ⟨_, -, h⟩ := Option.bind_eq_some_iff.1 h
    obtain rfl := Option.some.inj h
    obtain ⟨-, rfl⟩ := Prod.mk.inj (Option.some.inj hasks)
    exact nomatch hn
  · obtain ⟨own, hown, h⟩ := Option.bind_eq_some_iff.1 h
    obtain rfl := Option.some.inj h
    obtain ⟨-, rfl⟩ := Prod.mk.inj (Option.some.inj hasks)
    exact maxWorkers_of_flags hown hn
  · obtain rfl := Option.some.inj h
    exact nomatch hasks
  · exact nomatch h

/-- A number of workers that a command line gives is within its bounds. -/
theorem maxWorkers_of_parse (h : parse w words = some request) (hasks : request.asks? = some (config, flags))
    (hn : flags.maxWorkers = some n) : 1 ≤ n ∧ n ≤ 32 := by
  unfold parse at h
  obtain ⟨general, -, h⟩ := Option.bind_eq_some_iff.1 h
  split at h
  · obtain rfl := Option.some.inj h
    exact nomatch hasks
  · split at h
    · exact nomatch h
    · obtain ⟨_, -, h⟩ := Option.bind_eq_some_iff.1 h
      obtain ⟨a, -, h⟩ := Option.bind_eq_some_iff.1 h
      split at h
      · exact maxWorkers_of_command h hasks hn
      · exact nomatch h

end Request

namespace Command

open Shell

variable {around : Surroundings} {config : Option PosixPath} {flags : Flags} {w : Workspace} {words : List String}
  {request : Request} {t : Terminal} {s : Settings} {e : SettingsError} {n : Nat}

/-- The line about an error in settings. -/
def troubleWith (message : String) : String := "[red]❌ 配置加载失败: " ++ message ++ "[/red]"

/-- What loading the settings of a command comes to, before its options are put in. -/
def loaded (around : Surroundings) (config : Option PosixPath) (w : Workspace) : Except SettingsError Settings :=
  Settings.load (config.bind w.read?) around.environment

/-- Whether loading the settings of a command comes to sound settings, or else to status 1 behind a line that is shown. -/
def EndsCleanly (around : Surroundings) (config : Option PosixPath) (flags : Flags) (w : Workspace) : Prop :=
  (∃ final, Comes (settings around config flags) { workspace := w } (.ok final) { workspace := w } ∧ final.IsSound) ∨
    ∃ line, Comes (settings around config flags) { workspace := w } (.error 1) { workspace := w, shown := [.line line] }

/-- What keeps a command from ending cleanly. Of an error that rejects values the line has the summary. -/
inductive Stumbles (around : Surroundings) (config : Option PosixPath) (flags : Flags) (w : Workspace) : Prop where
  /-- There is no line about the form of the file. -/
  | form (h : Settings.Stumbles (config.bind w.read?) around.environment)
  /-- The line is no markup. -/
  | markup {e : SettingsError} {message : String} (hload : loaded around config w = .error e)
      (hmessage : e.message? = some message) (hline : (Block.line (troubleWith message)).lines? = none)
  /-- The level that is given is none. -/
  | level {s : Settings} {level : String} (hload : loaded around config w = .ok s) (hlevel : flags.logLevel = some level)
      (hgiven : level ≠ "") (hunknown : Text.upper level ∉ logLevels)

theorem settings_of_refused (flags : Flags) (hload : loaded around config w = .error e) :
    Comes (settings around config flags) { workspace := w } (.error 1)
      (({ workspace := w } : Terminal).told (e.message?.map troubleWith)) := settings_of_error hload

theorem endsCleanly_of_ok (hload : loaded around config w = .ok s) :
    EndsCleanly around config flags w ↔ (s.withFlags flags).IsSound := by
  have hcomes : Comes (settings around config flags) { workspace := w } (.ok (s.withFlags flags)) { workspace := w } :=
    settings_of_ok hload
  constructor
  · rintro (⟨final, hfinal, hsound⟩ | ⟨line, hline⟩)
    · obtain rfl := Except.ok.inj (hfinal.unique hcomes).1
      exact hsound
    · exact nomatch (hline.unique hcomes).1
  · exact fun hsound => .inl ⟨_, hcomes, hsound⟩

theorem endsCleanly_of_error (hload : loaded around config w = .error e) : EndsCleanly around config flags w ↔
    ∃ message, e.message? = some message ∧ (Block.line (troubleWith message)).lines? ≠ none := by
  have hcomes := settings_of_refused flags hload
  constructor
  · rintro (⟨final, hfinal, -⟩ | ⟨line, hline⟩)
    · cases (hfinal.unique hcomes).1
    · -- what is shown tells whether there was a line that could be shown
      have hshown := congrArg Terminal.shown (hline.unique hcomes).2
      cases hmessage : e.message? with
      | none =>
        rw [hmessage] at hshown
        exact absurd hshown (List.cons_ne_nil _ _)
      | some message =>
        refine ⟨message, rfl, fun hnone => ?_⟩
        rw [hmessage, Option.map_some, Terminal.told, hnone] at hshown
        exact absurd hshown (List.cons_ne_nil _ _)
  · rintro ⟨message, hmessage, hlines⟩
    rw [hmessage, Option.map_some, Terminal.told, if_pos (Option.isSome_iff_ne_none.2 hlines)] at hcomes
    exact .inr ⟨_, hcomes⟩

theorem says_of_form (h : Settings.Stumbles (config.bind w.read?) around.environment) :
    ¬ SettingsError.Says (loaded around config w) := fun hsays => Settings.says_load_iff.1 hsays h

theorem not_stumbles_of_ok (hload : loaded around config w = .ok s) : ¬ Stumbles around config flags w ↔
    ∀ level, flags.logLevel = some level → level ≠ "" → Text.upper level ∈ logLevels := by
  constructor
  · intro hnot level hgiven hne
    by_contra hunknown
    exact hnot (.level hload hgiven hne hunknown)
  · rintro hknown (hform | ⟨herror, -, -⟩ | ⟨-, hgiven, hne, hunknown⟩)
    · exact says_of_form hform (hload ▸ SettingsError.says_ok s)
    · exact nomatch hload.symm.trans herror
    · exact hunknown (hknown _ hgiven hne)

theorem not_stumbles_of_error (hload : loaded around config w = .error e) : ¬ Stumbles around config flags w ↔
    ∃ message, e.message? = some message ∧ (Block.line (troubleWith message)).lines? ≠ none := by
  constructor
  · intro hnot
    cases hmessage : e.message? with
    | none =>
      refine absurd (.form ?_) hnot
      by_contra hform
      have hsays := Settings.says_load_iff.2 hform e hload
      rw [hmessage] at hsays
      exact nomatch hsays
    | some message => exact ⟨message, rfl, fun hnone => hnot (.markup hload hmessage hnone)⟩
  · rintro ⟨message, hmessage, hlines⟩ (hform | ⟨herror, hmessage', hnone⟩ | ⟨hok, -, -, -⟩)
    · refine says_of_form hform ?_
      rw [hload, SettingsError.says_error_iff, hmessage]
      rfl
    · obtain rfl := Except.error.inj (hload.symm.trans herror)
      obtain rfl := Option.some.inj (hmessage.symm.trans hmessage')
      exact hlines hnone
    · exact nomatch hload.symm.trans hok

/-- A command whose settings are refused ends there. -/
theorem perform_of_settings (hasks : request.asks? = some (config, flags)) {t' : Terminal}
    (h : Comes (settings around config flags) t (.error n) t') : Comes (perform around request) t (.error n) t' := by
  cases request with
  | apply file own flags' =>
    obtain ⟨rfl, rfl⟩ := Prod.mk.inj (Option.some.inj hasks)
    exact h.bind_exit
  | validate file own =>
    obtain ⟨rfl, rfl⟩ := Prod.mk.inj (Option.some.inj hasks)
    exact h.bind_exit
  | render file own directory =>
    obtain ⟨rfl, rfl⟩ := Prod.mk.inj (Option.some.inj hasks)
    exact h.bind_exit
  | check flags' =>
    obtain ⟨rfl, rfl⟩ := Prod.mk.inj (Option.some.inj hasks)
    exact h.bind_exit
  | version => exact nomatch hasks
  | generate file => exact nomatch hasks

/-- The error that a computation comes to, if it does not end well. -/
def error? {ε α : Type} : Except ε α → Option ε
  | .error e => some e
  | .ok _ => none

theorem eq_error_of_error? {ε α : Type} {x : Except ε α} {e : ε} (h : error? x = some e) : x = .error e := by
  cases x with
  | error e' => rw [Option.some.inj h]
  | ok a => cases h

/-- A workspace with settings that ask for no workers at all. -/
def withoutWorkers : Workspace := { files := [(["lab"], ""), (["settings"], "reconcile:\n  max_workers: 0")] }

/-- A workspace with settings that are no YAML. -/
def withUnclosed : Workspace := { files := [(["lab"], ""), (["settings"], "a: [")] }

end Command

end VirtualTopology
