import VirtualTopology.Command.Run

/-!
# Commands that do not talk to the host

As long as a command does not talk to the host, what it does is settled by the terminal: it comes from one terminal to
another with a result (`Shell.Comes`). There is a rule for each of the ways in which commands are built.

Commands begin by loading settings, and go on by loading a topology. Either leaves the terminal as it was, or ends the
command with status 1 behind a line about the error, if there is one that can be shown (`Terminal.told`).
-/

namespace VirtualTopology

/-- A terminal on which a line is shown, if there is one and its markup is sound. -/
def Terminal.told (t : Terminal) : Option String → Terminal
  | some line => if (Block.line line).lines?.isSome then { t with shown := t.shown ++ [.line line] } else t
  | none => t

theorem Terminal.told_contacted (t : Terminal) (line : Option String) : (t.told line).contacted = t.contacted := by
  unfold told
  split
  · split <;> rfl
  · rfl

namespace Shell

variable {α β : Type} {s : Shell α} {f : α → Shell β} {a : α} {r : Except Nat β} {n : Nat} {t t' t'' : Terminal}

/-- Whether a command comes from one terminal to another with a result, without talking to the host. -/
def Comes (s : Shell α) (t : Terminal) (r : Except Nat α) (t' : Terminal) : Prop :=
  (ExceptT.run s).run t = pure (r, t')

namespace Comes

theorem pure (a : α) (t : Terminal) : Comes (Pure.pure a) t (.ok a) t := rfl

theorem exit (n : Nat) (t : Terminal) : Comes (Shell.exit n : Shell α) t (.error n) t := rfl

theorem get (t : Terminal) : Comes (MonadState.get : Shell Terminal) t (.ok t) t := rfl

theorem update (f : Terminal → Terminal) (t : Terminal) : Comes (modify f : Shell Unit) t (.ok ()) (f t) := rfl

theorem bind (h : Comes s t (.ok a) t') (hf : Comes (f a) t' r t'') : Comes (s >>= f) t r t'' := by
  unfold Comes at *
  rw [ExceptT.run_bind, StateT.run_bind, h]
  exact hf

theorem bind_exit (h : Comes s t (.error n) t') : Comes (s >>= f) t (.error n) t' := by
  unfold Comes at *
  rw [ExceptT.run_bind, StateT.run_bind, h]
  rfl

/-- What a command comes to is settled. -/
theorem unique {r r' : Except Nat α} (h : Comes s t r t') (h' : Comes s t r' t'') : r = r' ∧ t' = t'' := by
  have heq := Dialogue.done.inj (h.symm.trans h')
  exact ⟨congrArg Prod.fst heq, congrArg Prod.snd heq⟩

theorem start {s : Shell Unit} {w : Workspace} (h : Comes s { workspace := w } (.error n) t) : s.start w = Pure.pure (n, t) := by
  unfold Shell.start Comes at *
  rw [h]
  rfl

/-- A block is shown if it has lines. -/
theorem display {b : Block} (h : b.lines?.isSome) (t : Terminal) :
    Comes (Shell.display b) t (.ok ()) { t with shown := t.shown ++ [b] } := by
  rw [Shell.display, if_pos h]
  exact update _ t

/-- A block without lines ends the command. -/
theorem display_unprintable {b : Block} (h : ¬ b.lines?.isSome) (t : Terminal) : Comes (Shell.display b) t (.error 1) t := by
  rw [Shell.display, if_neg h]
  exact exit 1 t

/-- A command that ends with a line. -/
theorem say_exit (line : String) (t : Terminal) :
    Comes (do say line; Shell.exit 1 : Shell α) t (.error 1) (t.told (some line)) := by
  by_cases h : (Block.line line).lines?.isSome
  · rw [Terminal.told, if_pos h]
    exact (display h t).bind (exit 1 _)
  · rw [Terminal.told, if_neg h]
    exact (display_unprintable h t).bind_exit

end Comes

end Shell

/-! ### Loading settings and topologies -/

namespace Command

open Shell

variable {around : Surroundings} {config : Option PosixPath} {flags : Flags} {file : PosixPath} {trouble : String}
  {s : Settings} {t : Terminal}

theorem settings_of_ok (h : Settings.load (config.bind t.workspace.read?) around.environment = .ok s) :
    Comes (settings around config flags) t (.ok (s.withFlags flags)) t := by
  refine (Comes.get t).bind ?_
  rw [h]
  exact .pure _ t

theorem settings_of_error {e : SettingsError}
    (h : Settings.load (config.bind t.workspace.read?) around.environment = .error e) :
    Comes (settings around config flags) t (.error 1)
      (t.told (e.message?.map fun m => "[red]❌ 配置加载失败: " ++ m ++ "[/red]")) := by
  refine (Comes.get t).bind ?_
  rw [h]
  dsimp only
  cases e.message? with
  | none => exact .exit 1 t
  | some message => exact .say_exit _ t

theorem topology_of_error {e : TopologyError}
    (h : Topology.ofFile s.guests file.text (t.workspace.read? file) = .error e) :
    Comes (topology s file trouble) t (.error 1)
      (t.told (e.message?.map fun m => "[red]❌ " ++ trouble ++ ": " ++ m ++ "[/red]")) := by
  refine (Comes.get t).bind ?_
  rw [h]
  dsimp only
  cases e.message? with
  | none => exact .exit 1 t
  | some message => exact .say_exit _ t

end Command

end VirtualTopology
