import VirtualTopology.Proofs.Command.Shell
import VirtualTopology.Proofs.Settings.Overriding
import VirtualTopology.Proofs.Text.Paths

/-!
# Where settings come from

Each setting has a key in a section of the file, some have a variable in the environment, and some an option on the
command line (`Settings.Field`). Where a setting gets its value from is settled by itself: it is its option if that is
given, or what the text of its variable stands for, or what the file has under its key, or its default
(`Settings.Field.Settled`).

All settings of a command are settled in this way (`Command.settings_precedence`), so that an option, a variable or a key of
the file changes one setting only, and `Settings.Field.all` misses none.
-/

namespace VirtualTopology

open Reading
open Tables (exists_of_bind_eq_ok)

namespace Settings

/-- A setting: the key under which a file has it, the variable that sets it, the option that gives it, the reading of its
value, and the value without any of these. -/
structure Field where
  {α : Type}
  sectionName : String
  key : String
  setBy : Option Environment.Variable := none
  given : Flags → Option α := fun _ => none
  reading : Reading α
  default : α
  value : Settings → α

namespace Field

/-- How the host is reached. -/
def connection : List Field :=
  [{ sectionName := "libvirt", key := "uri", setBy := some ⟨"LIBVIRT_URI", "uri", .text⟩
     given := fun f => f.uri.filter (!·.isEmpty)
     reading := text, default := "qemu:///system", value := (·.connection.uri) },
   { sectionName := "libvirt", key := "timeout", setBy := some ⟨"LIBVIRT_TIMEOUT", "timeout", .integer⟩
     reading := integerIn 1 300, default := 30, value := (·.connection.timeout) },
   { sectionName := "libvirt", key := "readonly", setBy := some ⟨"LIBVIRT_READONLY", "readonly", .truth⟩
     given := fun f => if f.readonly then some true else none
     reading := bool, default := false, value := (·.connection.readonly) }]

/-- How a pass is run. -/
def pass : List Field :=
  [{ sectionName := "reconcile", key := "max_workers", setBy := some ⟨"RECONCILE_MAX_WORKERS", "max_workers", .integer⟩
     given := (·.maxWorkers)
     reading := integerIn 1 32, default := 4, value := (·.pass.maxWorkers) },
   { sectionName := "reconcile", key := "dry_run", setBy := some ⟨"RECONCILE_DRY_RUN", "dry_run", .truth⟩
     given := fun f => if f.dryRun then some true else none
     reading := bool, default := false, value := (·.pass.dryRun) },
   { sectionName := "reconcile", key := "shutdown_timeout"
     setBy := some ⟨"RECONCILE_SHUTDOWN_TIMEOUT", "shutdown_timeout", .number⟩
     reading := numberIn (.ofInt 0) (.ofInt 3600), default := .ofInt 60, value := (·.pass.shutdownTimeout) }]

/-- What guests that are expanded from profiles have in common. -/
def guests : List Field :=
  [{ sectionName := "generator", key := "lab_network"
     reading := text, default := "lab-net", value := (·.guests.labNetwork) },
   { sectionName := "generator", key := "secondary_network"
     reading := text, default := "default", value := (·.guests.secondaryNetwork) },
   { sectionName := "generator", key := "pool"
     reading := text, default := "homelab", value := (·.guests.pool) },
   { sectionName := "generator", key := "iso_dir"
     reading := text, default := "/var/lib/libvirt/iso", value := (·.guests.isoDirectory) },
   { sectionName := "generator", key := "driver_media"
     reading := optional text, default := none, value := (·.guests.driverMedia) },
   { sectionName := "generator", key := "nvram_dir"
     reading := text, default := "/var/lib/libvirt/qemu/nvram", value := (·.guests.nvramDirectory) },
   { sectionName := "generator", key := "virtiofsd_path"
     reading := optional text, default := none, value := (·.guests.shareServer) },
   { sectionName := "generator", key := "nic_model"
     reading := text, default := "e1000e", value := (·.guests.nicModel) },
   { sectionName := "generator", key := "disk_bus"
     reading := text, default := "sata", value := (·.guests.diskBus) },
   { sectionName := "generator", key := "vcpus"
     reading := integerIn 1 256, default := 2, value := (·.guests.vcpus) },
   { sectionName := "generator", key := "shares"
     reading := list Share.reading, default := [], value := (·.guests.shares) },
   { sectionName := "generator", key := "profiles"
     reading := mapping Profile.reading, default := Profile.standard, value := (·.guests.profiles) }]

/-- What is logged, and where. The option for the level is put into capitals. -/
def log : List Field :=
  [{ sectionName := "logging", key := "level", setBy := some ⟨"RECONCILER_LOG_LEVEL", "level", .text⟩
     given := fun f => (f.logLevel.filter (!·.isEmpty)).map Text.upper
     reading := LogSettings.levelReading, default := "INFO", value := (·.log.level) },
   { sectionName := "logging", key := "file", setBy := some ⟨"RECONCILER_LOG_FILE", "file", .text⟩
     given := fun f => (f.logFile.filter (!·.isEmpty)).map some
     reading := optional text, default := none, value := (·.log.file) },
   { sectionName := "logging", key := "rotation"
     reading := text, default := "10 MB", value := (·.log.rotation) },
   { sectionName := "logging", key := "retention"
     reading := text, default := "30 days", value := (·.log.retention) }]

/-- All settings. -/
def all : List Field := connection ++ pass ++ guests ++ log

/-- How a setting gets its value, given the options, the environment and what the file holds. -/
inductive Settled (f : Field) (flags : Flags) (env : Environment) (d : Data) : f.α → Prop where
  /-- It is given on the command line. -/
  | flag {a : f.α} (given : f.given flags = some a) : Settled f flags env d a
  /-- Its variable has a text that is not empty. -/
  | environment {v : Environment.Variable} {written : String} {data : Data} {a : f.α} (unflagged : f.given flags = none)
      (set : f.setBy = some v) (texts : env.written? v = some written) (converted : v.form.read written = .ok data)
      (reads : f.reading data = .valid a) : Settled f flags env d a
  /-- The file has its key. -/
  | file {data : Data} {a : f.α} (unflagged : f.given flags = none) (unset : f.setBy.bind env.written? = none)
      (there : stated? d f.sectionName f.key = some data) (reads : f.reading data = .valid a) : Settled f flags env d a
  | default (unflagged : f.given flags = none) (unset : f.setBy.bind env.written? = none)
      (absent : stated? d f.sectionName f.key = none) : Settled f flags env d f.default

/-- Whether a setting is told the same by the options, the environment and the file. -/
structure SameSources (f : Field) (flags flags' : Flags) (env env' : Environment) (d d' : Data) : Prop where
  given : f.given flags = f.given flags'
  written : f.setBy.bind env.written? = f.setBy.bind env'.written?
  stated : stated? d f.sectionName f.key = stated? d' f.sectionName f.key

variable {f : Field} {flags flags' : Flags} {env env' : Environment} {d d' : Data} {a a' : f.α}

/-- **A setting has one value**, and it depends on nothing but what the setting itself is told. -/
theorem Settled.unique (h : f.Settled flags env d a) (h' : f.Settled flags' env' d' a')
    (hsame : f.SameSources flags flags' env env' d d') : a = a' := by
  obtain ⟨hgiven, hwritten, hentry⟩ := hsame
  -- what is told on both sides is the same, so that the two derivations end with the same rule
  cases h with
  | flag given =>
    cases h' with
    | flag given' => exact Option.some.inj (given.symm.trans (hgiven.trans given'))
    | environment unflagged | file unflagged | default unflagged => exact nomatch given.symm.trans (hgiven.trans unflagged)
  | environment unflagged set texts converted reads =>
    rw [set, Option.bind_some, texts] at hwritten
    cases h' with
    | flag given => exact nomatch unflagged.symm.trans (hgiven.trans given)
    | environment _ set' texts' converted' reads' =>
      obtain rfl := Option.some.inj (set.symm.trans set')
      rw [Option.bind_some, texts'] at hwritten
      obtain rfl := Option.some.inj hwritten
      obtain rfl := Except.ok.inj (converted.symm.trans converted')
      exact Checked.valid.inj (reads.symm.trans reads')
    | file _ unset | default _ unset => rw [set, ← hwritten] at unset; exact nomatch unset
  | file unflagged unset there reads =>
    rw [unset] at hwritten
    cases h' with
    | flag given => exact nomatch unflagged.symm.trans (hgiven.trans given)
    | environment _ set' texts' => rw [set', Option.bind_some, texts'] at hwritten; exact nomatch hwritten
    | file _ _ there' reads' =>
      obtain rfl := Option.some.inj (there.symm.trans (hentry.trans there'))
      exact Checked.valid.inj (reads.symm.trans reads')
    | default _ _ absent => exact nomatch there.symm.trans (hentry.trans absent)
  | default unflagged unset absent =>
    rw [unset] at hwritten
    cases h' with
    | flag given => exact nomatch unflagged.symm.trans (hgiven.trans given)
    | environment _ set' texts' => rw [set', Option.bind_some, texts'] at hwritten; exact nomatch hwritten
    | file _ _ there => exact nomatch absent.symm.trans (hentry.trans there)
    | default => rfl

/-! ### Settings that are read -/

/-- Whether a setting is read from a section with some keys. -/
def ReadFrom (f : Field) (own : Mapping) (s : Settings) : Prop := defaulted own f.key f.default f.reading = .valid (f.value s)

/-- Whether a setting is read from the data that settings are given as. -/
def IsRead (f : Field) (d : Data) (s : Settings) : Prop :=
  stated? d f.sectionName f.key = none ∧ f.value s = f.default ∨
    ∃ data, stated? d f.sectionName f.key = some data ∧ f.reading data = .valid (f.value s)

variable {s : Settings} {m : Mapping} {name : String} {fs : List Field}

/-- The settings of a section are read from the data, if they are read from the section and have their defaults without
it. -/
theorem isRead_of_section {σ : Type} {r : Reading σ} {absent c : σ} (hnames : ∀ f ∈ fs, f.sectionName = name)
    (hdefault : c = absent → ∀ f ∈ fs, f.value s = f.default)
    (hread : ∀ section_, r section_ = .valid c → ∃ own, section_.untied = .mapping own ∧ ∀ f ∈ fs, f.ReadFrom own s)
    (hd : d.untied = .mapping m) (hsection : defaulted m name absent r = .valid c) :
    ∀ f ∈ fs, HasSection m f.sectionName ∧ f.IsRead d s := by
  intro f hf
  rw [hnames f hf, IsRead, stated?_eq hd, hnames f hf]
  rcases defaulted_eq_valid_iff.1 hsection with ⟨hnone, hc⟩ | ⟨section_, hsome, hvalid⟩
  · rw [HasSection, hnone]
    exact ⟨nofun, .inl ⟨rfl, hdefault hc f hf⟩⟩
  · obtain ⟨own, hown, hfields⟩ := hread section_ hvalid
    rw [HasSection, hsome, Option.bind_some, keyOf_eq hown]
    refine ⟨fun other hother => ?_, defaulted_eq_valid_iff.1 (hfields f hf)⟩
    obtain rfl := Option.some.inj hother
    exact ⟨own, hown⟩

theorem readFrom_connection {section_ : Data} (h : ConnectionSettings.reading section_ = .valid s.connection) :
    ∃ own, section_.untied = .mapping own ∧ ∀ f ∈ connection, f.ReadFrom own s := by
  obtain ⟨own, hown, hbody⟩ := record_eq_valid_iff.1 h
  obtain ⟨connection, _, _, _⟩ := s
  simp only [Checked.seq_eq_valid_iff, Checked.map_eq_valid_iff] at hbody
  obtain ⟨_, readonly, ⟨_, timeout, ⟨uri, huri, rfl⟩, htimeout, rfl⟩, hreadonly, rfl⟩ := hbody
  refine ⟨own, hown, ?_⟩
  simp only [Field.connection, List.forall_mem_cons]
  exact ⟨huri, htimeout, hreadonly, List.forall_mem_nil _⟩

theorem readFrom_pass {section_ : Data} (h : PassSettings.reading section_ = .valid s.pass) :
    ∃ own, section_.untied = .mapping own ∧ ∀ f ∈ pass, f.ReadFrom own s := by
  obtain ⟨own, hown, hbody⟩ := record_eq_valid_iff.1 h
  obtain ⟨_, pass, _, _⟩ := s
  simp only [Checked.seq_eq_valid_iff, Checked.map_eq_valid_iff] at hbody
  obtain ⟨_, timeout, ⟨_, dryRun, ⟨workers, hworkers, rfl⟩, hdryRun, rfl⟩, htimeout, rfl⟩ := hbody
  refine ⟨own, hown, ?_⟩
  simp only [Field.pass, List.forall_mem_cons]
  exact ⟨hworkers, hdryRun, htimeout, List.forall_mem_nil _⟩

theorem readFrom_guests {section_ : Data} (h : GuestSettings.reading section_ = .valid s.guests) :
    ∃ own, section_.untied = .mapping own ∧ ∀ f ∈ guests, f.ReadFrom own s := by
  obtain ⟨own, hown, hbody⟩ := record_eq_valid_iff.1 h
  obtain ⟨_, _, guests, _⟩ := s
  simp only [Checked.seq_eq_valid_iff, Checked.map_eq_valid_iff] at hbody
  obtain ⟨_, _, ⟨_, _, ⟨_, _, ⟨_, _, ⟨_, _, ⟨_, _, ⟨_, _, ⟨_, _, ⟨_, _, ⟨_, _, ⟨_, _, ⟨_, hlab, rfl⟩, hsecondary, rfl⟩,
    hpool, rfl⟩, hiso, rfl⟩, hdriver, rfl⟩, hnvram, rfl⟩, hserver, rfl⟩, hnic, rfl⟩, hbus, rfl⟩, hvcpus, rfl⟩, hshares, rfl⟩,
    hprofiles, rfl⟩ := hbody
  refine ⟨own, hown, ?_⟩
  simp only [Field.guests, List.forall_mem_cons]
  exact ⟨hlab, hsecondary, hpool, hiso, hdriver, hnvram, hserver, hnic, hbus, hvcpus, hshares, hprofiles,
    List.forall_mem_nil _⟩

theorem readFrom_log {section_ : Data} (h : LogSettings.reading section_ = .valid s.log) :
    ∃ own, section_.untied = .mapping own ∧ ∀ f ∈ log, f.ReadFrom own s := by
  obtain ⟨own, hown, hbody⟩ := record_eq_valid_iff.1 h
  obtain ⟨_, _, _, log⟩ := s
  simp only [Checked.seq_eq_valid_iff, Checked.map_eq_valid_iff] at hbody
  obtain ⟨_, _, ⟨_, _, ⟨_, _, ⟨_, hlevel, rfl⟩, hfile, rfl⟩, hrotation, rfl⟩, hretention, rfl⟩ := hbody
  refine ⟨own, hown, ?_⟩
  simp only [Field.log, List.forall_mem_cons]
  exact ⟨hlevel, hfile, hrotation, hretention, List.forall_mem_nil _⟩

/-- **All settings are read from the data**, and sections that are there are mappings. -/
theorem isRead_of_sections (h : ofSections d = .ok s) : ∃ m, d.untied = .mapping m ∧
    ∀ f ∈ all, HasSection m f.sectionName ∧ f.IsRead d s := by
  unfold ofSections at h
  split at h
  · next sections hd =>
    refine ⟨sections, hd, ?_⟩
    split at h
    · have hreading : Settings.reading d = .valid s := by
        cases hr : Settings.reading d with
        | valid s' => rw [hr] at h; rw [Except.ok.inj h]
        | invalid faults => rw [hr] at h; exact nomatch h
      obtain ⟨m, hm, hbody⟩ := record_eq_valid_iff.1 hreading
      obtain rfl := Data.mapping.inj (hd.symm.trans hm)
      simp only [Checked.seq_eq_valid_iff, Checked.map_eq_valid_iff] at hbody
      obtain ⟨_, _, ⟨_, _, ⟨_, _, ⟨_, hconnection, rfl⟩, hpass, rfl⟩, hguests, rfl⟩, hlog, rfl⟩ := hbody
      simp only [all, List.forall_mem_append]
      -- the four sections are read in the same way, from what `Settings.reading` is built of
      refine ⟨⟨⟨?_, ?_⟩, ?_⟩, ?_⟩
      · exact isRead_of_section (by simp [connection]) (by rintro rfl; simp [connection])
          (fun _ => readFrom_connection) hd hconnection
      · exact isRead_of_section (by simp [pass]) (by rintro rfl; simp [pass]) (fun _ => readFrom_pass) hd hpass
      · exact isRead_of_section (by simp [guests]) (by rintro rfl; simp [guests]) (fun _ => readFrom_guests) hd hguests
      · exact isRead_of_section (by simp [log]) (by rintro rfl; simp [log]) (fun _ => readFrom_log) hd hlog
    · exact nomatch h
  · exact nomatch h

/-- The variable of a setting is the one that sets its key. -/
theorem setBy_eq : ∀ f ∈ all, f.setBy = Environment.variableOf f.sectionName f.key := by
  simp only [all, connection, pass, guests, log, List.forall_mem_append, List.forall_mem_cons]
  refine ⟨⟨⟨?_, ?_⟩, ?_⟩, ?_⟩
  · exact ⟨rfl, rfl, rfl, List.forall_mem_nil _⟩
  · exact ⟨rfl, rfl, rfl, List.forall_mem_nil _⟩
  · exact ⟨rfl, rfl, rfl, rfl, rfl, rfl, rfl, rfl, rfl, rfl, rfl, rfl, List.forall_mem_nil _⟩
  · exact ⟨rfl, rfl, rfl, rfl, List.forall_mem_nil _⟩

end Field

theorem load_eq_ok {file : Option String} {env : Environment} {s : Settings} (h : load file env = .ok s) :
    ∃ d os d', contents file = .ok d ∧ env.overrides = .ok os ∧ overridden os d = .ok d' ∧ ofSections d' = .ok s := by
  unfold load at h
  obtain ⟨d, hd, h⟩ := exists_of_bind_eq_ok h
  obtain ⟨os, hos, h⟩ := exists_of_bind_eq_ok h
  obtain ⟨d', hd', h⟩ := exists_of_bind_eq_ok h
  have hos' : env.overrides = .ok os := by
    cases hoverrides : env.overrides with
    | error r => rw [hoverrides] at hos; exact nomatch hos
    | ok _ => rw [hoverrides] at hos; exact congrArg Except.ok (Except.ok.inj hos)
  exact ⟨d, os, d', hd, hos', hd', h⟩

/-- **Settings that are loaded are settled** by the environment, the file and the defaults, without any option. -/
theorem settled_of_load {file : Option String} {env : Environment} {s : Settings} (h : load file env = .ok s) :
    ∃ d, contents file = .ok d ∧ ∀ f ∈ Field.all, ∀ flags, f.given flags = none → f.Settled flags env d (f.value s) := by
  obtain ⟨d, os, d', hd, hos, hd', hs⟩ := load_eq_ok h
  obtain ⟨m, hm, hfields⟩ := Field.isRead_of_sections hs
  refine ⟨d, hd, fun f hf flags hunflagged => ?_⟩
  obtain ⟨hsection, hread⟩ := hfields f hf
  have hstated := stated?_overridden hos hd' hm hsection f.key
  have hsetBy := Field.setBy_eq f hf
  rw [Field.IsRead, hstated, ← hsetBy] at hread
  -- whether the variable has a text decides which side of the overriding is seen
  cases hwritten : f.setBy.bind env.written? with
  | none =>
    have hvalue : f.setBy.bind env.value? = none := by
      cases hv : f.setBy with
      | none => rfl
      | some v =>
        rw [hv, Option.bind_some] at hwritten
        rw [Option.bind_some, Environment.value?, hwritten, Option.bind_none]
    rw [hvalue, Option.none_or] at hread
    rcases hread with ⟨habsent, hdefault⟩ | ⟨data, hthere, hvalid⟩
    · rw [hdefault]
      exact .default hunflagged hwritten habsent
    · exact .file hunflagged hwritten hthere hvalid
  | some written =>
    obtain ⟨v, hv, hwritten⟩ := Option.bind_eq_some_iff.1 hwritten
    obtain ⟨data, hdata⟩ := Environment.exists_read_of_overrides hos (hsetBy.symm.trans hv) hwritten
    have hvalue : f.setBy.bind env.value? = some data := by
      rw [hv, Option.bind_some, Environment.value?, hwritten, Option.bind_some, hdata]
      rfl
    rw [hvalue, Option.some_or] at hread
    rcases hread with ⟨⟨⟩, -⟩ | ⟨other, hother, hvalid⟩
    obtain rfl := Option.some.inj hother
    exact .environment hunflagged hv hwritten hdata hvalid

/-- **The options stand above everything else**, and change nothing but their own settings. -/
theorem value_withFlags (s : Settings) {flags : Flags} (hfile : flags.logFile ≠ some "") :
    ∀ f ∈ Field.all, f.value (s.withFlags flags) = (f.given flags).getD (f.value s) := by
  simp only [Field.all, Field.connection, Field.pass, Field.guests, Field.log, List.forall_mem_append,
    List.forall_mem_cons]
  have htrue (b c : Bool) : (b || c) = (if c then some true else none).getD b := by cases b <;> cases c <;> rfl
  have hlogFile : (flags.logFile <|> s.log.file) = ((flags.logFile.filter (!·.isEmpty)).map some).getD s.log.file := by
    cases hgiven : flags.logFile with
    | none => rfl
    | some file =>
      have hne : file.isEmpty = false := by
        rw [← Bool.not_eq_true, String.isEmpty_iff]
        exact fun h => hfile (h ▸ hgiven)
      rw [Option.filter_some, hne]
      rfl
  refine ⟨⟨⟨?_, ?_⟩, ?_⟩, ?_⟩
  · exact ⟨rfl, rfl, htrue _ _, List.forall_mem_nil _⟩
  · exact ⟨rfl, htrue _ _, rfl, List.forall_mem_nil _⟩
  · exact ⟨rfl, rfl, rfl, rfl, rfl, rfl, rfl, rfl, rfl, rfl, rfl, rfl, List.forall_mem_nil _⟩
  · exact ⟨rfl, hlogFile, rfl, rfl, List.forall_mem_nil _⟩

attribute [ext] ConnectionSettings PassSettings GuestSettings LogSettings Settings

/-- Settings consist of their fields. -/
theorem eq_of_fields {s s' : Settings} (h : ∀ f ∈ Field.all, f.value s = f.value s') : s = s' := by
  simp only [Field.all, Field.connection, Field.pass, Field.guests, Field.log, List.forall_mem_append,
    List.forall_mem_cons] at h
  obtain ⟨⟨⟨⟨huri, htimeout, hreadonly, -⟩, hworkers, hdryRun, hshutdown, -⟩, hlab, hsecondary, hpool, hiso, hdriver, hnvram,
    hserver, hnic, hbus, hvcpus, hshares, hprofiles, -⟩, hlevel, hfile, hrotation, hretention, -⟩ := h
  exact Settings.ext (ConnectionSettings.ext huri htimeout hreadonly) (PassSettings.ext hworkers hdryRun hshutdown)
    (GuestSettings.ext hlab hsecondary hpool hiso hdriver hnvram hserver hnic hbus hvcpus hshares hprofiles)
    (LogSettings.ext hlevel hfile hrotation hretention)

end Settings

/-! ### Settings of a command -/

theorem Request.logFile_ne_empty {a : Arguments} {flags : Flags} (h : Request.flags a = some flags) :
    flags.logFile ≠ some "" := by
  obtain ⟨_, -, hflags⟩ := Option.bind_eq_some_iff.1 h
  obtain rfl := Option.some.inj hflags
  intro hempty
  obtain ⟨written, -, htext⟩ := Option.map_eq_some_iff.1 hempty
  exact PosixPath.text_ofText_ne_empty written htext

namespace Command

open Shell Settings

variable {around around' : Surroundings} {config config' : Option PosixPath} {a a' : Arguments} {flags flags' : Flags}
  {final final' : Settings} {t t' u u' : Terminal}

/-- The settings of a command are settled, each by itself. -/
theorem settled_of_settings (hflags : Request.flags a = some flags)
    (h : Comes (settings around config flags) t (.ok final) t') : ∃ d, contents (config.bind t.workspace.read?) = .ok d ∧
      ∀ f ∈ Field.all, f.Settled flags around.environment d (f.value final) := by
  cases hload : load (config.bind t.workspace.read?) around.environment with
  | error e => exact nomatch (h.unique (settings_of_error hload)).1
  | ok s =>
    obtain rfl := Except.ok.inj (h.unique (settings_of_ok hload)).1
    obtain ⟨d, hd, hsettled⟩ := settled_of_load hload
    refine ⟨d, hd, fun f hf => ?_⟩
    rw [value_withFlags s (Request.logFile_ne_empty hflags) f hf]
    cases hgiven : f.given flags with
    | none => exact hsettled f hf flags hgiven
    | some value => exact .flag hgiven

/-- **Each setting of a command has the value of its option, its variable, its key in the file or its default**, whichever is
the first to be there. What the other settings are told makes no difference to it, and there are no settings but these. -/
theorem settings_precedence (hflags : Request.flags a = some flags)
    (h : Comes (settings around config flags) t (.ok final) t') :
    ∃ d, contents (config.bind t.workspace.read?) = .ok d ∧
      (∀ f ∈ Field.all, f.Settled flags around.environment d (f.value final)) ∧
      (∀ {around' config' a' flags' u final' u' d'}, Request.flags a' = some flags' →
        Comes (settings around' config' flags') u (.ok final') u' → contents (config'.bind u.workspace.read?) = .ok d' →
        ∀ f ∈ Field.all, f.SameSources flags flags' around.environment around'.environment d d' →
          f.value final = f.value final') ∧
      ∀ s, (∀ f ∈ Field.all, f.value s = f.value final) → s = final := by
  obtain ⟨d, hd, hsettled⟩ := settled_of_settings hflags h
  refine ⟨d, hd, hsettled, ?_, fun s => eq_of_fields⟩
  intro around' config' a' flags' u final' u' d' hflags' h' hd' f hf hsame
  obtain ⟨_, hcontents, hsettled'⟩ := settled_of_settings hflags' h'
  obtain rfl := Except.ok.inj (hd'.symm.trans hcontents)
  exact (hsettled f hf).unique (hsettled' f hf) hsame

/-- An option, a variable and a file that say different things about the same settings. -/
theorem settings_precedence_layered :
    let around : Surroundings := { environment := fun name => if name = "LIBVIRT_TIMEOUT" then some "7" else none }
    let file := "libvirt:\n  uri: qemu:///session\n  timeout: 5\nlogging:\n  level: ERROR"
    let flags : Flags := { readonly := true, logLevel := some "debug" }
    let final : Settings :=
      { connection := { uri := "qemu:///session", timeout := 7, readonly := true }, log := { level := "DEBUG" } }
    Request.flags { options := [("readonly", ""), ("log-level", "debug")] } = some flags ∧
      (∃ t : Terminal, t.workspace.read? (.ofText "settings.yaml") = some file ∧
        Comes (settings around (some (.ofText "settings.yaml")) flags) t (.ok final) t) ∧
      ∃ d, contents (some file) = .ok d ∧ ∀ f ∈ Field.all, f.Settled flags around.environment d (f.value final) := by
  intro around file flags final
  let t : Terminal := { workspace := { files := [(["settings.yaml"], file)] } }
  have hread : t.workspace.read? (.ofText "settings.yaml") = some file := by decide +kernel
  have hflags : Request.flags { options := [("readonly", ""), ("log-level", "debug")] } = some flags := by decide +kernel
  let loaded : Settings :=
    { connection := { uri := "qemu:///session", timeout := 7 }, log := { level := "ERROR" } }
  -- the file and the variable are computed, the options follow
  have hload : (load (some file) around.environment).toOption = some loaded := by decide +kernel
  have hfinal : loaded.withFlags flags = final := by decide +kernel
  have hcomes : Comes (settings around (some (.ofText "settings.yaml")) flags) t (.ok final) t := by
    cases h : load (some file) around.environment with
    | error e => rw [h] at hload; exact nomatch hload
    | ok s =>
      rw [h] at hload
      rw [← hfinal, ← Option.some.inj hload]
      exact settings_of_ok (by rw [Option.bind_some, hread, h])
  obtain ⟨d, hd, hsettled, -⟩ := settings_precedence hflags hcomes
  rw [Option.bind_some, hread] at hd
  exact ⟨hflags, ⟨t, hread, hcomes⟩, d, hd, hsettled⟩

end Command

end VirtualTopology
