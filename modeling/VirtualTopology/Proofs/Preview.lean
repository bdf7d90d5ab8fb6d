import Mathlib.Logic.Function.Iterate
import VirtualTopology.Command.Run
import VirtualTopology.Proofs.Host.Rest
import VirtualTopology.Proofs.Host.Watched
import VirtualTopology.Proofs.Pass.Reach

/-!
# Previews

A pass that is a dry run, and every pass over a connection that can only read, reads and does not write
(`Settings.previews_only_look`): whatever is on the host, whatever fails and whenever the pass is cancelled, it
makes reading calls only, and it says in its report that it was a dry run. So do the command lines that ask for
a preview (`Request.isPreview`): `plan`, and `apply` with `--dry-run` or `--readonly`.

Reading calls leave the tables as they are, with one exception. A guest that has been asked to shut down turns
off by and by, and a host in memory counts its looks at such a guest instead of the time. So a preview leaves
each entry as it is after so many looks (`Tables.LookedAt`), and the tables as they are if no resource is on
its way down.

The proof is in two parts. What a dry run calls follows from what the phases of a pass call
(`Desired.confined_phases`), and a command line calls what its pass calls, with settings into which its options
have been put (`Shell.Calls`). What reading calls do to the tables is an invariant along the watched run
(`Memory.watch_reading`).
-/

namespace VirtualTopology

open Dialogue

/-! ### Tables that are looked at -/

/-- A reading call leaves the tables as they are, or looks at one entry. -/
theorem Tables.serve_reading {t u : Tables} {polls : Table Int} {c : Call} {a : c.Answer}
    (hs : t.serve polls c = .ok (a, u)) (hreads : c.isReading = true) :
    u = t ∨ ∃ k name r, t.get? k name = some r ∧ u = t.put k name r.seen := by
  by_cases hstill : c.isStill = true
  · exact .inl (eq_of_isStill hs hstill)
  · cases c with
    | isActive k name =>
      obtain ⟨r, hfind, hs⟩ := exists_of_bind_eq_ok hs
      obtain ⟨-, rfl⟩ := Prod.mk.inj (Except.ok.inj hs)
      exact .inr ⟨k, name, r, get?_of_find hfind, rfl⟩
    | list _ | read _ _ | isAutostart _ _ | listVolumes _ | readVolume _ _ => exact absurd rfl hstill
    | _ => exact absurd hreads (by simp [Call.isReading])

/-- Whether the entries of some tables are those of others after looks at them. -/
structure Tables.LookedAt (t u : Tables) : Prop where
  seen : ∀ k name, ∃ looks, u.get? k name = (t.get? k name).map (StoredResource.seen^[looks])
  rest : t.AtRest → u = t

namespace Tables.LookedAt

variable {t u v : Tables} {k : DefinedKind} {name : String} {r : StoredResource}

theorem refl (t : Tables) : t.LookedAt t :=
  ⟨fun k name => ⟨0, by simp⟩, fun _ => rfl⟩

/-- One more look. -/
theorem look (h : t.LookedAt u) (hr : u.get? k name = some r) : t.LookedAt (u.put k name r.seen) := by
  refine ⟨fun l other => ?_, fun hrest => ?_⟩
  · obtain ⟨looks, hlooks⟩ := h.seen l other
    by_cases hsame : (k, name) = (l, other)
    · obtain ⟨rfl, rfl⟩ := Prod.mk.inj hsame
      refine ⟨looks + 1, ?_⟩
      rw [hr] at hlooks
      obtain ⟨s, hs, rfl⟩ := Option.map_eq_some_iff.1 hlooks.symm
      rw [Tables.get?_put_self, hs, Option.map_some, Function.iterate_succ_apply']
    · exact ⟨looks, (Tables.get?_put_of_ne hsame).trans hlooks⟩
  · obtain rfl := h.rest hrest
    rw [StoredResource.seen_eq_self (hrest k name r hr), Tables.put_self hr]

end Tables.LookedAt

/-- **A reading call only looks.** -/
theorem Memory.lookedAt_answer {t : Tables} {m : Memory} (h : t.LookedAt m.tables) {q : Query}
    (hreads : q.CallsOnly (·.isReading = true)) : t.LookedAt (m.answer q).2.tables := by
  cases q with
  | call c =>
    show t.LookedAt (m.call c).2.tables
    rcases tables_call m c with heq | ⟨a, ha⟩
    · rw [heq]
      exact h
    · rcases Tables.serve_reading ha hreads with heq | ⟨k, name, r, hr, heq⟩
      · rw [heq]
        exact h
      · rw [heq]
        exact h.look hr
  | cancelled => exact h
  | now => exact h
  | sleep _ => exact h

/-- Whether a watched host has only been looked at: all calls were reading ones, and the tables are those from
before, after looks at their entries. -/
structure Watched.OnlyLookedAt (w : Watched) (t : Tables) : Prop where
  reads : ∀ x ∈ w.calls, x.2.isReading = true
  tables : t.LookedAt w.host.tables

/-- **A dialogue of reading calls only looks**, whatever the moment of cancellation. -/
theorem Memory.watch_reading {α : Type} {t : Talk α} {e : α → Prop}
    (h : t.Confined (Query.CallsOnly (·.isReading = true)) e) (m : Memory) (cancels : Nat → Bool) :
    (m.watch cancels t).2.OnlyLookedAt m.tables ∧ e (m.watch cancels t).1 := by
  have hsafe : Talk.Safe (fun _ c => c.isReading = true)
      (fun a w => e a ∧ m.tables.LookedAt w.host.tables) t { host := m } :=
    .of_confined (I := fun w => m.tables.LookedAt w.host.tables) h
      (fun w q hq hw => lookedAt_answer hw hq) (fun w q hq _ => hq) (.refl m.tables)
  obtain ⟨hreads, he, htables⟩ := hsafe.watch cancels
  exact ⟨⟨hreads, htables⟩, he⟩

/-! ### Passes -/

theorem Started.Makes.reading {s : Started} {c : Call} (h : s.Makes true c) : c.isReading = true := by
  cases h with
  | look _ reads => exact reads
  | define real _ => exact absurd real (by simp)
  | stop real => exact absurd real (by simp)
  | start real => exact absurd real (by simp)
  | autostart real => exact absurd real (by simp)

theorem Pool.Makes.reading {q : Pool} {c : Call} (h : q.Makes true c) : c.isReading = true := by
  cases h with
  | started makes => exact makes.reading
  | volumes => rfl
  | volume _ makes => exact makes.reading

/-- A dry run makes reading calls only. -/
theorem Desired.confined_reading (d : Desired) (timeout : Binary64) :
    (d.phases true timeout).Confined (Query.CallsOnly (·.isReading = true)) fun _ => True := by
  have hdry : ∀ {P : Prop}, true = false → P := fun h => absurd h (by simp)
  refine confined_phases (fun h => h) (fun n _ b => ?_) (fun q _ b => ?_) (fun x _ before b => ?_) hdry
  · refine (n.confined_makes true b).mono (fun _ hq => hq.mono fun c hc => ?_) fun _ _ => trivial
    exact hc.reading
  · refine (q.confined_makes true b).mono (fun _ hq => hq.mono fun c hc => ?_) fun _ _ => trivial
    exact hc.reading
  · exact (Domain.confined_calls (fun _ h => h) hdry hdry hdry timeout before b).mono (fun _ => id)
      fun _ _ => trivial

/-- A pass says in its report whether it was a dry run. -/
theorem Settings.confined_report (s : Settings) (d : Desired) (dryRun : Option Bool) :
    (s.apply d dryRun).Confined (fun _ => True)
      fun x => ∀ report, x = .ok report → report.dryRun = s.isDry dryRun := by
  unfold apply
  dsimp only
  split
  · refine (confined_true _).bind fun recorded _ => ?_
    split
    · refine Confined.pure fun report hreport => ?_
      rw [← Except.ok.inj hreport]
      rfl
    · exact Confined.pure fun report hreport => absurd hreport (by simp)
  · exact Confined.pure fun report hreport => absurd hreport (by simp)

/-- **A pass that is a dry run reads**, and says that it was one. -/
theorem Settings.confined_preview {s : Settings} {dryRun : Option Bool} (hdry : s.isDry dryRun = true)
    (d : Desired) :
    (s.apply d dryRun).Confined (Query.CallsOnly (·.isReading = true))
      fun x => ∀ report, x = .ok report → report.dryRun = true := by
  have hreads : (s.apply d dryRun).Confined (Query.CallsOnly (·.isReading = true)) fun _ => True := by
    refine confined_apply ?_
    rw [hdry]
    exact d.confined_reading _
  refine (hreads.and (s.confined_report d dryRun)).mono (fun _ hq => hq.1) fun x hx report hreport => ?_
  rw [hx.2 report hreport, hdry]

/-! ### Command lines -/

/-- Whether a command line asks for a preview: it is `plan`, or it is `apply` with an option that asks for a dry
run or for a connection that can only read. -/
def Request.isPreview (words : List String) : Bool :=
  match Arguments.parse generalOptions false words with
  | some { words := "plan" :: _, .. } => true
  | some { words := "apply" :: rest, .. } =>
      match (commands.lookup "apply").bind (Arguments.parse · true rest) with
      | some a => a.has "dry-run" || a.has "readonly"
      | none => false
  | _ => false

/-- A command line that asks for a preview is refused, shows the version, or asks for a pass that is a dry run
or that is made over a connection that can only read. -/
theorem Request.parse_of_isPreview {w : Workspace} {words : List String} {request : Request}
    (h : isPreview words = true) (hrequest : parse w words = some request) :
    request = .version ∨ ∃ file config flags, request = .apply file config flags ∧
      (flags.dryRun = true ∨ flags.readonly = true) := by
  unfold parse at hrequest
  obtain ⟨general, hgeneral, hrequest⟩ := Option.bind_eq_some_iff.1 hrequest
  rw [isPreview, hgeneral] at h
  split at hrequest
  · exact .inl (Option.some.inj hrequest).symm
  · right
    obtain ⟨options, words⟩ := general
    cases words with
    | nil => exact absurd hrequest (by simp)
    | cons name rest =>
      obtain ⟨specs, hspecs, hrequest⟩ := Option.bind_eq_some_iff.1 hrequest
      obtain ⟨a, ha, hrequest⟩ := Option.bind_eq_some_iff.1 hrequest
      split at hrequest
      · split at h
        · -- a plan is a dry run, whatever its options
          next heq =>
          obtain ⟨-, rfl, rfl⟩ : _ ∧ name = "plan" ∧ _ := by simpa using heq
          obtain ⟨⟨file, config⟩, -, hrequest⟩ := Option.bind_eq_some_iff.1 hrequest
          obtain ⟨flags, -, hrequest⟩ := Option.bind_eq_some_iff.1 hrequest
          exact ⟨file, config, _, (Option.some.inj hrequest).symm, .inl rfl⟩
        · next heq =>
          obtain ⟨-, rfl, rfl⟩ : _ ∧ name = "apply" ∧ _ := by simpa using heq
          obtain ⟨⟨file, config⟩, -, hrequest⟩ := Option.bind_eq_some_iff.1 hrequest
          obtain ⟨flags, hflags, hrequest⟩ := Option.bind_eq_some_iff.1 hrequest
          obtain ⟨workers, -, hflags⟩ := Option.bind_eq_some_iff.1 hflags
          obtain rfl := Option.some.inj hflags
          rw [hspecs, Option.bind_some, ha] at h
          exact ⟨file, config, _, (Option.some.inj hrequest).symm, Bool.or_eq_true_iff.1 h⟩
        · exact absurd h (by simp)
      · exact absurd hrequest (by simp)

namespace Shell

variable {α β : Type} {p : Call → Prop} {e : α → Prop} {e' : β → Prop} {s : Shell α} {f : α → Shell β}

/-- What a command calls, from whatever terminal it is started, and what holds of its value if it does not end
early. -/
def Calls (p : Call → Prop) (e : α → Prop) (s : Shell α) : Prop :=
  ∀ t : Terminal, ((ExceptT.run s).run t).Confined (Query.CallsOnly p) fun x => ∀ a, x.1 = .ok a → e a

theorem Calls.pure {a : α} (h : e a) : Calls p e (Pure.pure a : Shell α) := by
  intro t b hb
  rw [← Except.ok.inj hb]
  exact h

theorem Calls.bind (h : Calls p e s) (hf : ∀ a, e a → Calls p e' (f a)) : Calls p e' (s >>= f) := by
  intro t
  rw [ExceptT.run_bind, StateT.run_bind]
  refine (h t).bind ?_
  rintro ⟨a | a, t⟩ ha
  · exact fun b hb => absurd hb (by simp)
  · exact hf a (ha a rfl) t

theorem Calls.exit (status : Nat) : Calls p e (Shell.exit status : Shell α) :=
  fun _ b hb => absurd hb (by simp)

theorem Calls.modify (g : Terminal → Terminal) : Calls p (fun _ => True) (modify g : Shell Unit) :=
  fun _ _ _ => trivial

theorem Calls.get : Calls p (fun _ => True) (get : Shell Terminal) := fun _ _ _ => trivial

theorem Calls.display (b : Block) : Calls p (fun _ => True) (Shell.display b) := by
  unfold Shell.display
  split
  · exact .modify _
  · exact .exit 1

theorem Calls.commit (w : Option Workspace) : Calls p (fun _ => True) (Shell.commit w) := by
  cases w with
  | some workspace => exact .modify _
  | none => exact .exit 1

/-- To talk to the host is to make the calls of the dialogue. -/
theorem Calls.talk {t : Talk α} (h : t.Confined (Query.CallsOnly p) fun _ => True) :
    Calls p (fun _ => True) (Shell.talk t) := by
  intro terminal
  have hrun : (ExceptT.run (Shell.talk t)).run terminal = t >>= fun a => Pure.pure (.ok a, terminal) := by
    simp [Shell.talk]
  rw [hrun]
  exact h.bind fun a _ => Confined.pure fun _ _ => trivial

/-- A command that is started calls what it calls in a terminal. -/
theorem Calls.start {s : Shell Unit} (h : Calls p (fun _ => True) s) (w : Workspace) :
    (Shell.start s w).Confined (Query.CallsOnly p) fun _ => True :=
  (h { workspace := w }).bind fun _ _ => Confined.pure trivial

end Shell

/-- With options that ask for a dry run, or for a connection that can only read, every pass is a dry run. -/
theorem Settings.isDry_withFlags (s : Settings) {flags : Flags}
    (h : flags.dryRun = true ∨ flags.readonly = true) : (s.withFlags flags).isDry none = true := by
  rcases h with h | h <;> simp [isDry, withFlags, h]

namespace Command

open Shell

variable {p : Call → Prop}

/-- To load settings no call is made, and the options are put into them. -/
theorem calls_settings (around : Surroundings) (config : Option PosixPath) (flags : Flags) :
    Calls p (fun s => ∃ loaded : Settings, s = loaded.withFlags flags) (settings around config flags) := by
  refine Calls.get.bind fun t _ => ?_
  split
  · exact .pure ⟨_, rfl⟩
  · split
    · exact (Calls.display _).bind fun _ _ => .exit 1
    · exact .exit 1

/-- To load a topology no call is made. -/
theorem calls_topology (s : Settings) (file : PosixPath) (trouble : String) :
    Calls p (fun _ => True) (topology s file trouble) := by
  refine Calls.get.bind fun t _ => ?_
  split
  · exact .pure trivial
  · split
    · exact (Calls.display _).bind fun _ _ => .exit 1
    · exact .exit 1

/-- To bring a host in line with a topology, the calls of the pass are made. -/
theorem calls_apply (around : Surroundings) (file : PosixPath) {s : Settings}
    (h : ∀ d, (s.apply d).Confined (Query.CallsOnly p) fun _ => True) :
    Calls p (fun _ => True) (apply around file s) := by
  refine Calls.get.bind fun t _ => (Calls.commit _).bind fun _ _ => ?_
  refine (calls_topology s file _).bind fun d _ => ?_
  have hconnect : Calls p (fun _ => True) (connect around s) :=
    (Calls.modify _).bind fun _ _ => .pure trivial
  refine hconnect.bind fun connecting _ => ?_
  split
  · exact (Calls.display _).bind fun _ _ => .exit 130
  · exact (Calls.display _).bind fun _ _ => .exit 1
  · refine (Calls.talk (h d)).bind fun outcome _ => ?_
    split
    · exact (Calls.display _).bind fun _ _ => .exit 1
    · exact .exit 1
    · exact (Calls.display _).bind fun _ _ => (Calls.display _).bind fun _ _ => .exit _

/-- **A command line that asks for a preview makes reading calls only.** -/
theorem confined_preview (around : Surroundings) (w : Workspace) {words : List String}
    (h : Request.isPreview words = true) :
    (run around w words).Confined (Query.CallsOnly (·.isReading = true)) fun _ => True := by
  unfold run
  split
  · exact Confined.pure trivial
  · next request hrequest =>
    refine Calls.start ?_ w
    rcases Request.parse_of_isPreview h hrequest with rfl | ⟨file, config, flags, rfl, hflags⟩
    · rw [perform]
      exact .display _
    · rw [perform]
      refine (calls_settings around config flags).bind ?_
      rintro _ ⟨s, rfl⟩
      refine calls_apply around file fun d => ?_
      exact (Settings.confined_preview (s.isDry_withFlags hflags) d).mono (fun _ => id) fun _ _ => trivial

end Command

/-! ### Previews do not write -/

/-- **Previews only look.** On every host, whatever fails and whenever the pass is cancelled: a pass that is asked
to be a dry run, or that is set to be one and not asked to be anything else, or that is made over a connection
that can only read, makes no call that writes, leaves the tables as they are after looks at them, and calls
itself a dry run in its report. So does every command line that asks for a preview, whatever the files, the
environment and the settings are. -/
theorem Settings.previews_only_look (m : Memory) (cancels : Nat → Bool) :
    (∀ (s : Settings) (d : Desired) (dryRun : Option Bool),
      dryRun = some true ∨ dryRun = none ∧ s.pass.dryRun = true ∨ s.connection.readonly = true →
      (m.watch cancels (s.apply d dryRun)).2.OnlyLookedAt m.tables ∧
        ∀ report, (m.watch cancels (s.apply d dryRun)).1 = .ok report → report.dryRun = true) ∧
    ∀ (around : Surroundings) (w : Workspace) (words : List String), Request.isPreview words = true →
      (m.watch cancels (Command.run around w words)).2.OnlyLookedAt m.tables := by
  refine ⟨fun s d dryRun h => ?_, fun around w words h => ?_⟩
  · have hdry : s.isDry dryRun = true := by
      rcases h with rfl | ⟨rfl, h⟩ | h <;> simp [isDry, *]
    exact Memory.watch_reading (confined_preview hdry d) m cancels
  · exact (Memory.watch_reading (Command.confined_preview around w h) m cancels).1

/-- A desired state without resources, in which all kinds are managed: whatever is there is stale. -/
def Desired.withNothing : Desired :=
  { networks := .managed [], pools := .managed [], domains := .managed [] }

/-- A host with a network, and with a domain that has been asked to shut down and is seen off at the next
look. -/
def Memory.withLeaver : Memory :=
  { tables := { networks := [("lab", { document := "<network/>", active := true })]
                domains := [("vm", { document := "<domain/>", active := true, closing := some 0 })] } }

/-- A preview of the removal of all resources, as a pass and as a command line. -/
theorem Settings.previews_withLeaver :
    (Memory.withLeaver.watch (fun _ => false)
      (({} : Settings).apply .withNothing (some true))).2.OnlyLookedAt Memory.withLeaver.tables ∧
    Request.isPreview ["apply", "--file", "topology.yaml", "--dry-run"] = true ∧
    (Memory.withLeaver.watch (fun _ => false) (Command.run { environment := fun _ => none }
      { files := [(["topology.yaml"], "networks: {mode: managed}")] }
      ["apply", "--file", "topology.yaml", "--dry-run"])).2.OnlyLookedAt Memory.withLeaver.tables := by
  have hpreview : Request.isPreview ["apply", "--file", "topology.yaml", "--dry-run"] = true := by
    decide +kernel
  exact ⟨((previews_only_look Memory.withLeaver _).1 _ _ _ (.inl rfl)).1, hpreview,
    (previews_only_look Memory.withLeaver _).2 _ _ _ hpreview⟩

/-- **A preview can find a guest off that was on before**: the tables do not end as they began if a guest turns
off while it is looked at. -/
theorem Settings.not_kept_withLeaver :
    ¬ ∀ (s : Settings) (d : Desired) (m : Memory) (cancels : Nat → Bool),
      (∀ x ∈ (m.watch cancels (s.apply d (some true))).2.calls, x.2.isReading = true) ∧
        (m.watch cancels (s.apply d (some true))).2.host.tables = m.tables := by
  intro h
  have hkept := (h {} .withNothing .withLeaver fun _ => false).2
  revert hkept
  decide +kernel

end VirtualTopology
