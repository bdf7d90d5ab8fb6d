import VirtualTopology.Proofs.Settings.Precedence
import VirtualTopology.Proofs.Topology.Reload

/-!
# Settings that are read again

Settings are sound if they pass their own reading: the record that is written of them is read as the same settings
(`Settings.IsSound`). Settings that have been read are sound (`Settings.isSound_of_sections`), and nothing but two integers,
a duration and the log level has to be watched in a change: what else is read of a record is taken as it is.

Options are put into settings after these have been read, and they are not read again. Of all of them only the log level
can make sound settings unsound (`Settings.isSound_withFlags_iff`).
-/

namespace VirtualTopology

open Reading Checked

/-! ### Mappings and records that leave other keys alone -/

namespace Reading

variable {α : Type} {r : Reading α} {write : α → Data} {fields : List (String × Data)} {key : String} {a value : α}
  {d : Data}

theorem record_record {body : Mapping → Checked α} :
    Reading.record body (.record fields) = body (entriesOf fields) := rfl

theorem defaulted_entriesOf_iff (hfield : fields.lookup key = some d) :
    Reading.defaulted (entriesOf fields) key value r = .valid a ↔ r d = .valid a := by
  rw [Reading.defaulted, at?_entriesOf, hfield, Option.elim_some, under_eq_valid_iff]

theorem forall_of_entries {p : α → Prop} (hr : ∀ d a, r d = .valid a → p a) {m : Mapping} {es : List (String × α)}
    (h : entries r m = .valid es) : ∀ e ∈ es, p e.2 := by
  induction m generalizing es with
  | nil =>
    obtain rfl := Checked.valid.inj h
    simp
  | cons e m ih =>
    obtain ⟨_, rest, hhead, hrest, rfl⟩ := seq_eq_valid_iff.1 h
    obtain ⟨_, hpair, rfl⟩ := map_eq_valid_iff.1 hhead
    obtain ⟨_, b, hkey, hb, rfl⟩ := seq_eq_valid_iff.1 hpair
    obtain ⟨k, -, rfl⟩ := map_eq_valid_iff.1 hkey
    rw [List.forall_mem_cons]
    exact ⟨hr e.2 b (under_eq_valid_iff.1 hb), ih hrest⟩

/-- A mapping is read if its values are. -/
theorem mapping_record {es : List (String × α)} (h : ∀ e ∈ es, r (write e.2) = .valid e.2) :
    Reading.mapping r (.record (es.map fun e => (e.1, write e.2))) = .valid es := by
  show entries r (entriesOf (es.map fun e => (e.1, write e.2))) = _
  induction es with
  | nil => rfl
  | cons e es ih =>
    rw [List.forall_mem_cons] at h
    rw [List.map_cons, entriesOf, List.map_cons, entries, h.1, ← entriesOf, ih h.2]
    rfl

namespace Settles

/-- A value that was read or left to its default is read again, if the default is. -/
theorem of_defaulted {m : Mapping} (hr : r.Settles write) (hvalue : r (write value) = .valid value)
    (h : Reading.defaulted m key value r = .valid a) : r (write a) = .valid a := by
  rcases eq_or_read_of_defaulted h with rfl | ⟨d, hd⟩
  · exact hvalue
  · exact hr d a hd

theorem mapping (hr : r.Settles write) :
    Settles (Reading.mapping r) fun es => .record (es.map fun e => (e.1, write e.2)) := by
  intro d es h
  unfold Reading.mapping at h
  split at h
  · exact mapping_record (forall_of_entries hr h)
  · exact nomatch h

/-- **A record settles** if its fields are read again, also if it takes no notice of other keys. -/
theorem unsealed {body : Mapping → Checked α} {fields : α → List (String × Data)}
    (hbody : ∀ m a, body m = .valid a → body (entriesOf (fields a)) = .valid a) :
    Settles (Reading.record body) fun a => .record (fields a) := by
  intro d a h
  obtain ⟨m, hm⟩ := eq_valid_of_record h
  exact hbody m a hm

end Settles

theorem settles_numberIn (low high : Binary64) : Settles (numberIn low high) .float := by
  intro d x h
  obtain ⟨y, -, hbounds⟩ := andThen_eq_valid_iff.1 h
  split at hbounds
  · exact nomatch hbounds
  · split at hbounds
    · next hlow hhigh =>
      obtain rfl := Checked.valid.inj hbounds
      simp [numberIn, number, hlow, hhigh]
    · exact nomatch hbounds

end Reading

/-! ### The sections -/

theorem ConnectionSettings.reading_dump_iff {s : ConnectionSettings} :
    reading s.dump = .valid s ↔ integerIn 1 300 (.int s.timeout) = .valid s.timeout := by
  obtain ⟨uri, timeout, readonly⟩ := s
  rw [ConnectionSettings.dump, ConnectionSettings.reading, record_record]
  constructor
  · intro h
    simp only [seq_eq_valid_iff, map_eq_valid_iff] at h
    obtain ⟨_, _, ⟨_, time, ⟨_, -, rfl⟩, htime, rfl⟩, -, heq⟩ := h
    obtain ⟨-, rfl, -⟩ := ConnectionSettings.mk.inj heq
    exact (defaulted_entriesOf_iff rfl).1 htime
  · intro h
    rw [defaulted_entriesOf rfl (settles_text (.text uri) uri rfl), defaulted_entriesOf rfl h,
      defaulted_entriesOf rfl (settles_bool (.bool readonly) readonly rfl)]
    rfl

theorem ConnectionSettings.reading_settles : Settles reading dump := by
  intro d s h
  obtain ⟨m, hm⟩ := eq_valid_of_record h
  simp only [seq_eq_valid_iff, map_eq_valid_iff] at hm
  obtain ⟨_, readonly, ⟨_, timeout, ⟨uri, -, rfl⟩, htimeout, rfl⟩, -, rfl⟩ := hm
  exact reading_dump_iff.2 ((settles_integerIn 1 300).of_defaulted rfl htimeout)

theorem PassSettings.reading_dump_iff {s : PassSettings} : reading s.dump = .valid s ↔
    integerIn 1 32 (.int s.maxWorkers) = .valid s.maxWorkers ∧
      numberIn (.ofInt 0) (.ofInt 3600) (.float s.shutdownTimeout) = .valid s.shutdownTimeout := by
  obtain ⟨workers, dryRun, timeout⟩ := s
  rw [PassSettings.dump, PassSettings.reading, record_record]
  constructor
  · intro h
    simp only [seq_eq_valid_iff, map_eq_valid_iff] at h
    obtain ⟨_, time, ⟨_, _, ⟨number, hnumber, rfl⟩, -, rfl⟩, htime, heq⟩ := h
    obtain ⟨rfl, -, rfl⟩ := PassSettings.mk.inj heq
    exact ⟨(defaulted_entriesOf_iff rfl).1 hnumber, (defaulted_entriesOf_iff rfl).1 htime⟩
  · rintro ⟨hworkers, htimeout⟩
    rw [defaulted_entriesOf rfl hworkers,
      defaulted_entriesOf rfl (settles_bool (.bool dryRun) dryRun rfl),
      defaulted_entriesOf rfl htimeout]
    rfl

theorem PassSettings.reading_dump_default : PassSettings.reading ({} : PassSettings).dump = .valid {} := by
  have hlow : (Binary64.ofInt 60).lt (.ofInt 0) = false := by decide +kernel
  have hhigh : (Binary64.ofInt 60).le (.ofInt 3600) = true := by decide +kernel
  refine reading_dump_iff.2 ⟨rfl, ?_⟩
  simp [numberIn, number, hlow, hhigh]

theorem PassSettings.reading_settles : Settles reading dump := by
  intro d s h
  obtain ⟨m, hm⟩ := eq_valid_of_record h
  simp only [seq_eq_valid_iff, map_eq_valid_iff] at hm
  obtain ⟨_, timeout, ⟨_, dryRun, ⟨workers, hworkers, rfl⟩, -, rfl⟩, htimeout, rfl⟩ := hm
  have hdefault := reading_dump_iff.1 reading_dump_default
  exact reading_dump_iff.2 ⟨(settles_integerIn 1 32).of_defaulted hdefault.1 hworkers,
    (settles_numberIn _ _).of_defaulted hdefault.2 htimeout⟩

namespace LogSettings

theorem mem_of_levelReading {d : Data} {level : String} (h : levelReading d = .valid level) : level ∈ logLevels := by
  obtain ⟨written, -, hlevel⟩ := andThen_eq_valid_iff.1 h
  dsimp only at hlevel
  split at hlevel
  · next hknown =>
    obtain rfl := Checked.valid.inj hlevel
    exact List.contains_iff_mem.1 hknown
  · exact nomatch hlevel

/-- The known levels are in capitals. -/
theorem levelReading_text {level : String} (h : level ∈ logLevels) : levelReading (.text level) = .valid level := by
  have hall : ∀ l ∈ logLevels, Text.upper l = l := by decide +kernel
  show (if logLevels.contains (Text.upper level) then Checked.valid (Text.upper level) else _) = _
  rw [hall level h, if_pos (List.contains_iff_mem.2 h)]

theorem reading_dump_iff {s : LogSettings} : reading s.dump = .valid s ↔ s.level ∈ logLevels := by
  obtain ⟨level, file, rotation, retention⟩ := s
  rw [dump, reading, record_record]
  constructor
  · intro h
    simp only [seq_eq_valid_iff, map_eq_valid_iff] at h
    obtain ⟨_, _, ⟨_, _, ⟨_, _, ⟨known, hknown, rfl⟩, -, rfl⟩, -, rfl⟩, -, heq⟩ := h
    obtain ⟨rfl, -⟩ := LogSettings.mk.inj heq
    exact mem_of_levelReading ((defaulted_entriesOf_iff rfl).1 hknown)
  · intro h
    have hfile : Reading.optional Reading.text (.text? file) = .valid file := by cases file <;> rfl
    rw [defaulted_entriesOf rfl (levelReading_text h), defaulted_entriesOf rfl hfile,
      defaulted_entriesOf rfl (settles_text (.text rotation) rotation rfl),
      defaulted_entriesOf rfl (settles_text (.text retention) retention rfl)]
    rfl

theorem reading_settles : Settles reading dump := by
  intro d s h
  obtain ⟨m, hm⟩ := eq_valid_of_record h
  simp only [seq_eq_valid_iff, map_eq_valid_iff] at hm
  obtain ⟨_, retention, ⟨_, rotation, ⟨_, file, ⟨level, hlevel, rfl⟩, -, rfl⟩, -, rfl⟩, -, rfl⟩ := hm
  rw [reading_dump_iff]
  rcases eq_or_read_of_defaulted hlevel with rfl | ⟨e, he⟩
  · exact List.mem_of_elem_eq_true rfl
  · exact mem_of_levelReading he

end LogSettings

theorem Profile.reading_settles : Settles reading dump := by
  refine Settles.unsealed fun m p h => ?_
  simp only [seq_eq_valid_iff, map_eq_valid_iff] at h
  obtain ⟨_, media, ⟨memory, hmemory, rfl⟩, hmedia, rfl⟩ := h
  rw [Quantity.reading_settles.required hmemory rfl, settles_text.optionalText.defaulted rfl hmedia rfl]
  rfl

theorem GuestSettings.reading_settles : Settles reading dump := by
  refine Settles.unsealed fun m s h => ?_
  simp only [seq_eq_valid_iff, map_eq_valid_iff] at h
  obtain ⟨_, profiles, ⟨_, shares, ⟨_, vcpus, ⟨_, bus, ⟨_, nic, ⟨_, server, ⟨_, nvram, ⟨_, driver, ⟨_, iso, ⟨_, pool,
    ⟨_, secondary, ⟨lab, hlab, rfl⟩, hsecondary, rfl⟩, hpool, rfl⟩, hiso, rfl⟩, hdriver, rfl⟩, hnvram, rfl⟩, hserver,
    rfl⟩, hnic, rfl⟩, hbus, rfl⟩, hvcpus, rfl⟩, hshares, rfl⟩, hprofiles, rfl⟩ := h
  rw [settles_text.defaulted rfl hlab rfl, settles_text.defaulted rfl hsecondary rfl,
    settles_text.defaulted rfl hpool rfl, settles_text.defaulted rfl hiso rfl,
    settles_text.optionalText.defaulted rfl hdriver rfl, settles_text.defaulted rfl hnvram rfl,
    settles_text.optionalText.defaulted rfl hserver rfl, settles_text.defaulted rfl hnic rfl,
    settles_text.defaulted rfl hbus rfl, (settles_integerIn 1 256).defaulted rfl hvcpus rfl,
    Share.reading_settles.list.defaulted rfl hshares rfl, Profile.reading_settles.mapping.defaulted rfl hprofiles rfl]
  rfl

/-! ### All settings -/

namespace Settings

variable {s : Settings}

/-- Whether settings pass their own reading. -/
def IsSound (s : Settings) : Prop := reading s.dump = .valid s

theorem isSound_iff : s.IsSound ↔
    ConnectionSettings.reading s.connection.dump = .valid s.connection ∧ PassSettings.reading s.pass.dump = .valid s.pass ∧
      GuestSettings.reading s.guests.dump = .valid s.guests ∧ LogSettings.reading s.log.dump = .valid s.log := by
  obtain ⟨connection, pass, guests, log⟩ := s
  rw [IsSound, dump, reading, record_record]
  constructor
  · intro h
    simp only [seq_eq_valid_iff, map_eq_valid_iff] at h
    obtain ⟨_, _, ⟨_, _, ⟨_, _, ⟨_, hconnection, rfl⟩, hpass, rfl⟩, hguests, rfl⟩, hlog, heq⟩ := h
    obtain ⟨rfl, rfl, rfl, rfl⟩ := Settings.mk.inj heq
    exact ⟨(defaulted_entriesOf_iff rfl).1 hconnection, (defaulted_entriesOf_iff rfl).1 hpass,
      (defaulted_entriesOf_iff rfl).1 hguests, (defaulted_entriesOf_iff rfl).1 hlog⟩
  · rintro ⟨hconnection, hpass, hguests, hlog⟩
    rw [defaulted_entriesOf rfl hconnection, defaulted_entriesOf rfl hpass,
      defaulted_entriesOf rfl hguests, defaulted_entriesOf rfl hlog]
    rfl

/-- **Settings that are read are sound.** -/
theorem isSound_of_reading {d : Data} (h : reading d = .valid s) : s.IsSound := by
  obtain ⟨m, hm⟩ := eq_valid_of_record h
  simp only [seq_eq_valid_iff, map_eq_valid_iff] at hm
  obtain ⟨_, log, ⟨_, guests, ⟨_, pass, ⟨connection, hconnection, rfl⟩, hpass, rfl⟩, hguests, rfl⟩, hlog, rfl⟩ := hm
  have hlevel : LogSettings.reading ({} : LogSettings).dump = .valid {} :=
    LogSettings.reading_dump_iff.2 (List.mem_of_elem_eq_true rfl)
  exact isSound_iff.2 ⟨ConnectionSettings.reading_settles.of_defaulted rfl hconnection,
    PassSettings.reading_settles.of_defaulted PassSettings.reading_dump_default hpass,
    GuestSettings.reading_settles.of_defaulted rfl hguests, LogSettings.reading_settles.of_defaulted hlevel hlog⟩

theorem isSound_of_sections {d : Data} (h : ofSections d = .ok s) : s.IsSound := by
  unfold ofSections at h
  split at h
  · split at h
    · cases hread : reading d with
      | valid s' =>
        rw [hread] at h
        obtain rfl := Except.ok.inj h
        exact isSound_of_reading hread
      | invalid faults => rw [hread] at h; exact nomatch h
    · exact nomatch h
  · exact nomatch h

theorem isSound_of_load {file : Option String} {env : Environment} (h : load file env = .ok s) : s.IsSound := by
  obtain ⟨_, _, _, -, -, -, hs⟩ := load_eq_ok h
  exact isSound_of_sections hs

/-- **Of all options only the log level can make settings unsound.** -/
theorem isSound_withFlags_iff (flags : Flags) (h : s.IsSound) (hworkers : ∀ n, flags.maxWorkers = some n → 1 ≤ n ∧ n ≤ 32) :
    (s.withFlags flags).IsSound ↔
      ∀ level, flags.logLevel = some level → level ≠ "" → Text.upper level ∈ logLevels := by
  obtain ⟨hconnection, hpass, hguests, hlog⟩ := isSound_iff.1 h
  have htimeout := ConnectionSettings.reading_dump_iff.1 hconnection
  rw [PassSettings.reading_dump_iff] at hpass
  rw [LogSettings.reading_dump_iff] at hlog
  -- an empty level is none, and a level is put in in capitals
  have hlevel : (s.withFlags flags).log.level ∈ logLevels ↔
      ∀ level, flags.logLevel = some level → level ≠ "" → Text.upper level ∈ logLevels := by
    show ((flags.logLevel.filter (!·.isEmpty)).map Text.upper).getD s.log.level ∈ logLevels ↔ _
    cases hgiven : flags.logLevel with
    | none => simpa using hlog
    | some level =>
      by_cases hempty : level = ""
      · subst hempty
        simpa [Option.filter] using hlog
      · simp [Option.filter, hempty]
  -- the number of workers was checked where the options were read
  have hnumber : integerIn 1 32 (.int (s.withFlags flags).pass.maxWorkers) = .valid (s.withFlags flags).pass.maxWorkers := by
    show integerIn 1 32 (.int (flags.maxWorkers.getD s.pass.maxWorkers)) =
      .valid (flags.maxWorkers.getD s.pass.maxWorkers)
    cases hgiven : flags.maxWorkers with
    | none => exact hpass.1
    | some n =>
      obtain ⟨hlow, hhigh⟩ := hworkers n hgiven
      simp [integerIn, integer, Int.not_lt.2 hlow, Int.not_lt.2 hhigh]
  rw [← hlevel, isSound_iff]
  exact ⟨fun hsound => LogSettings.reading_dump_iff.1 hsound.2.2.2, fun hknown =>
    ⟨ConnectionSettings.reading_dump_iff.2 htimeout,
      PassSettings.reading_dump_iff.2 ⟨hnumber, hpass.2⟩, hguests, LogSettings.reading_dump_iff.2 hknown⟩⟩

end Settings

end VirtualTopology
