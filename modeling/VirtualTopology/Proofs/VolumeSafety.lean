import VirtualTopology.Proofs.Footprint
import VirtualTopology.Proofs.Preview

/-!
# What happens to volumes

The volumes of a host hold the data of its guests, and a pass is careful with them. It makes a volume only for an
entry that lists it as present and where there is none, it deletes one only for an entry that lists it as absent,
and it gives one another size only if it grows and has the declared format (`Desired.Handles`). So a pool that is
there before and after a pass has the volumes that it had, apart from those that the entries name: these are
kept, or are grown, or are gone if they are listed as absent (`Desired.Preserves`). All this holds for every
validated desired state with plain texts and every host with legible volumes, whatever fails and whenever the pass
is cancelled (`Settings.volumes_safe`).

The work on a volume learns its size and its format from a document. For a legible volume these are the ones that
are stored (`StoredVolume.IsLegible.states`), and what is handled carefully stays legible
(`Desired.Handles.legible`). The comparison with the host before the pass is kept call by call
(`Desired.Guards.becomes`).
-/

namespace VirtualTopology

open Dialogue Document

/-! ### Stored volumes -/

namespace StoredVolume

/-- The size of a volume in bytes, as it is stored or as its document states it. -/
def size? : StoredVolume → Option Int
  | sized capacity _ => capacity
  | documented document => ((Element.read? document).bind (·.volumeCapacity?)).map Int.ofNat

/-- The format of a volume, as it is stored or as its document states it. -/
def format? : StoredVolume → Option String
  | sized _ format => format.name?
  | documented document => (Element.read? document).bind (·.volumeFormat?)

/-- Whether a volume can be told from its document: its size, if it is stored, is not negative, and its format is
plain. -/
def IsLegible : StoredVolume → Prop
  | sized capacity format => (∀ i ∈ capacity, 0 ≤ i) ∧ ∀ f ∈ format.name?, Text.IsPlain f
  | documented _ => True

/-- **The document of a legible volume states its size and its format.** -/
theorem IsLegible.states {s : StoredVolume} (h : s.IsLegible) {x : Element}
    (hread : Element.read? s.document = some x) :
    (∀ size, x.volumeCapacity? = some size → s.size? = some (size : Int)) ∧ x.volumeFormat? = s.format? := by
  cases s with
  | sized capacity format =>
    rw [read?_document capacity h.2] at hread
    obtain rfl := Option.some.inj hread
    exact ⟨fun size hsize => eq_of_volumeCapacity?_element h.1 hsize, volumeFormat?_element capacity format.name?⟩
  | documented document =>
    have hdocument : Element.read? document = some x := hread
    refine ⟨fun size hsize => ?_, ?_⟩
    · simp [size?, hdocument, hsize]
    · simp [format?, hdocument]

theorem IsLegible.resized {s : StoredVolume} (h : s.IsLegible) (bytes : Nat) : (s.resized bytes).IsLegible := by
  have hbytes : ∀ i ∈ some (bytes : Int), 0 ≤ i := fun i hi => by
    obtain rfl := Option.some.inj hi
    exact Int.natCast_nonneg bytes
  cases s with
  | documented document => exact ⟨hbytes, by simp [StoredFormat.name?]⟩
  | sized capacity format =>
    cases format with
    | unstated => exact ⟨hbytes, by simp [StoredFormat.name?]⟩
    | unknown => exact ⟨hbytes, by simp [StoredFormat.name?]⟩
    | known f => exact ⟨hbytes, h.2⟩

/-- Whether a volume is kept: it is the same, or it has grown and has the format that it had. -/
inductive Kept : StoredVolume → StoredVolume → Prop where
  | same (s : StoredVolume) : Kept s s
  | grown {capacity bytes : Int} {format format' : StoredFormat} (grows : capacity < bytes)
      (same : format'.name? = format.name?) : Kept (sized (some capacity) format) (sized (some bytes) format')
  /-- The host stores the new size in place of the document. -/
  | measured {document : String} {size bytes : Int} (states : (documented document).size? = some size)
      (grows : size < bytes) : Kept (documented document) (sized (some bytes) .unknown)

/-- A volume that is kept and then grows is kept. -/
theorem Kept.grow {s s' : StoredVolume} (h : s.Kept s') {size bytes : Int} (hsize : s'.size? = some size)
    (hgrows : size < bytes) : s.Kept (s'.resized bytes) := by
  cases h with
  | same =>
    cases s with
    | documented document => exact .measured hsize hgrows
    | sized capacity format =>
      obtain rfl : capacity = some size := hsize
      cases format <;> exact .grown hgrows rfl
  | @grown capacity larger format format' grows same =>
    obtain rfl := Option.some.inj hsize
    have hless : capacity < bytes := Int.lt_trans grows hgrows
    cases format' with
    | unstated => exact .grown hless same
    | unknown => exact .grown hless same
    | known f => exact .grown hless same
  | measured states grows =>
    obtain rfl := Option.some.inj hsize
    exact .measured states (Int.lt_trans grows hgrows)

end StoredVolume

/-! ### What calls do to volumes -/

/-- Whether a call changes the volumes of a pool. -/
def Call.changesVolumes : Call → Bool
  | createVolume .. | deleteVolume .. | resizeVolume .. => true
  | _ => false

theorem Call.changesVolumes_of_isReading {c : Call} (h : c.isReading = true) : c.changesVolumes = false := by
  cases c <;> first | rfl | exact absurd h (by simp [isReading])

namespace Tables

variable {t u : Tables} {polls : Table Int} {c : Call} {pool other volume : String} {r : StoredResource}

/-- A volume of a pool. -/
def volume? (t : Tables) (pool volume : String) : Option StoredVolume :=
  (t.get? .pool pool).bind (·.volumes.get? volume)

theorem volume?_eq (h : t.get? .pool pool = some r) (volume : String) :
    t.volume? pool volume = r.volumes.get? volume := by
  rw [volume?, h]
  rfl

theorem volume?_put (t : Tables) (pool other volume : String) (r : StoredResource) :
    (t.put .pool pool r).volume? other volume =
      if pool = other then r.volumes.get? volume else t.volume? other volume := by
  by_cases h : pool = other
  · rw [if_pos h, ← h, volume?_eq get?_put_self]
  · rw [if_neg h, volume?, get?_put_of_ne fun he => h (Prod.mk.inj he).2]
    rfl

/-- One volume of a pool is put in place or taken out. -/
theorem volume?_assign (hr : t.get? .pool pool = some r) (name : String) (o : Option StoredVolume)
    (other volume : String) :
    (t.put .pool pool { r with volumes := r.volumes.assign name o }).volume? other volume =
      if pool = other ∧ name = volume then o else t.volume? other volume := by
  rw [volume?_put]
  by_cases h : pool = other
  · subst h
    rw [if_pos rfl, Table.get?_assign, volume?_eq hr]
    simp
  · rw [if_neg h, if_neg fun hboth => h hboth.1]

/-- A volume of a pool is taken out. -/
theorem volume?_erase (hr : t.get? .pool pool = some r) (name other volume : String) :
    (t.put .pool pool { r with volumes := r.volumes.erase name }).volume? other volume =
      if pool = other ∧ name = volume then none else t.volume? other volume :=
  volume?_assign hr name none other volume

/-- A volume of a pool is put in place. -/
theorem volume?_putVolume (hr : t.get? .pool pool = some r) (name : String) (v : StoredVolume)
    (other volume : String) :
    (t.putVolume pool r name v).volume? other volume =
      if pool = other ∧ name = volume then some v else t.volume? other volume :=
  volume?_assign hr name (some v) other volume

/-- **A call that does not change volumes leaves those of the pools that remain as they are.** -/
theorem Becomes.volume?_eq (hb : t.Becomes polls c u) (hc : c.changesVolumes = false)
    (hpool : (u.get? .pool pool).isSome = true) (volume : String) :
    u.volume? pool volume = t.volume? pool volume := by
  -- what is put over a resource keeps its volumes
  have hput : ∀ {k : DefinedKind} {other : String} {s s' : StoredResource}, t.get? k other = some s →
      s'.volumes = s.volumes → (t.put k other s').volume? pool volume = t.volume? pool volume := by
    intro k other s s' hs hsame
    by_cases heq : (k, other) = (.pool, pool)
    · obtain ⟨rfl, rfl⟩ := Prod.mk.inj heq
      rw [Tables.volume?_eq get?_put_self, Tables.volume?_eq hs, hsame]
    · rw [volume?, get?_put_of_ne heq]
      rfl
  cases hb with
  | still _ => rfl
  | define k document =>
    cases hold : t.get? k (nameInDocument document) with
    | some s => exact hput hold (by rw [hold]; rfl)
    | none =>
      by_cases heq : (k, nameInDocument document) = (.pool, pool)
      · obtain ⟨rfl, rfl⟩ := Prod.mk.inj heq
        rw [Tables.define, Tables.volume?_eq get?_put_self, volume?, hold]
        rfl
      · rw [volume?, Tables.define, get?_put_of_ne heq]
        rfl
  | undefine k name =>
    by_cases heq : (k, name) = (.pool, pool)
    · obtain ⟨rfl, rfl⟩ := Prod.mk.inj heq
      exact absurd hpool (by simp [get?_erase])
    · rw [volume?, get?_erase_of_ne heq]
      rfl
  | start hthere => exact hput hthere rfl
  | stop hthere _ => exact hput hthere rfl
  | @ask name s hthere =>
    refine hput hthere ?_
    unfold StoredResource.asked
    split
    · rfl
    · split <;> rfl
  | look hthere => exact hput hthere (StoredResource.volumes_seen _)
  | autostart hthere _ => exact hput hthere rfl
  | create _ _ => exact absurd hc (by simp [Call.changesVolumes])
  | delete _ => exact absurd hc (by simp [Call.changesVolumes])
  | resize _ _ => exact absurd hc (by simp [Call.changesVolumes])

end Tables

/-- Whether all volumes of a host are legible. -/
def Memory.HasLegibleVolumes (m : Memory) : Prop :=
  ∀ pool volume s, m.tables.volume? pool volume = some s → s.IsLegible

/-- The document of a volume is given if the volume is there. -/
theorem Memory.stored_of_readVolume {m : Memory} {pool volume document : String}
    (h : (m.call (.readVolume pool volume)).1 = .ok document) :
    ∃ r s, m.tables.get? .pool pool = some r ∧ r.volumes.get? volume = some s ∧ document = s.document := by
  obtain ⟨r, hpool, hserve⟩ := Tables.exists_of_bind_eq_ok (serve_eq_of_call_eq_ok h)
  obtain ⟨s, hs, hserve⟩ := Tables.exists_of_bind_eq_ok hserve
  obtain ⟨rfl, -⟩ := Prod.mk.inj (Except.ok.inj hserve)
  refine ⟨r, s, (Tables.get?_of_activePool hpool).1, ?_, rfl⟩
  unfold Tables.findVolume at hs
  split at hs
  · next s' hs' => rw [hs', Except.ok.inj hs]
  · exact absurd hs (by simp)

/-! ### Careful calls -/

namespace Desired

variable {d : Desired}

/-- Whether an entry stands in the list of a declared pool. -/
def HasEntry (d : Desired) (pool : String) (e : VolumeEntry) : Prop :=
  ∃ q ∈ d.pools.items, q.name = pool ∧ e ∈ q.volumes

/-- A call that is careful with volumes. -/
inductive Handles (d : Desired) (m : Memory) : Call → Prop where
  | other {c : Call} (harmless : c.changesVolumes = false) : Handles d m c
  /-- A volume that is listed as absent is deleted. -/
  | delete {pool : String} {e : VolumeEntry} (entry : d.HasEntry pool e) (away : e.present = false) :
      Handles d m (.deleteVolume pool e.name)
  /-- A volume that is listed as present is made if there is none of its name. -/
  | create {pool text : String} {e : VolumeEntry} {v : Volume} (entry : d.HasEntry pool e)
      (present : e.present = true) (volume : e.volume = some v) (written : v.written = .ok text)
      (named : nameInDocument text = e.name) (free : m.tables.volume? pool e.name = none) :
      Handles d m (.createVolume pool text)
  /-- A volume that is listed as present grows to its declared size if it has the declared format. -/
  | resize {pool : String} {e : VolumeEntry} {v : Volume} {s : StoredVolume} {size : Int}
      (entry : d.HasEntry pool e) (present : e.present = true) (volume : e.volume = some v)
      (stored : m.tables.volume? pool e.name = some s) (states : s.size? = some size)
      (grows : size < v.capacity.toBytes) (format : ∀ f, s.format? = some f → f = v.format) :
      Handles d m (.resizeVolume pool e.name v.capacity.toBytes)

/-- A call that is careful with volumes if they are legible. -/
def HandlesLegible (d : Desired) (m : Memory) (c : Call) : Prop := m.HasLegibleVolumes → d.Handles m c

theorem handlesLegible_of_harmless {m : Memory} {c : Call} (h : c.changesVolumes = false) : d.HandlesLegible m c :=
  fun _ => .other h

/-! ### The work on a volume -/

section

variable {pool : String} {e : VolumeEntry} {w : Watched} {r : StoredResource}

/-- To state sizes no call is made. -/
theorem safe_stating (sizes : List Nat) (text : String) (w : Watched) :
    Talk.Safe d.HandlesLegible (fun _ _ => True) (Work.stating sizes text).run w := by
  unfold Work.stating
  split <;> exact trivial

/-- Growing a volume is careful. -/
theorem safe_weigh {v : Volume} {s : StoredVolume} (hentry : d.HasEntry pool e) (hpresent : e.present = true)
    (hvolume : e.volume = some v) (hr : w.host.tables.get? .pool pool = some r)
    (hs : r.volumes.get? e.name = some s) :
    Talk.Safe d.HandlesLegible (fun _ _ => True) (e.weigh false pool v s.document).run w := by
  rcases VolumeEntry.weigh_cases e pool v s.document with ⟨x, hweigh⟩ |
    ⟨x, hread, hformat, ⟨-, hweigh⟩ | ⟨size, text, hsize, hless, hweigh⟩⟩
  · rw [hweigh]
    exact trivial
  · rw [hweigh]
    exact trivial
  · -- whether the sizes can be written does not matter, and is not to be worked out
    generalize [size, v.capacity.toBytes] = sizes at hweigh
    rw [hweigh]
    refine .andThen (.change (Q := fun _ _ => True) (fun _ hlegible => ?_) (fun _ => trivial)
      (fun _ _ _ => trivial) fun _ _ => trivial) (fun _ _ _ => .andThen (safe_stating sizes text _)
      (fun _ _ _ => .pure trivial) fun _ _ _ => trivial) fun _ _ _ => trivial
    have hstored : w.host.tables.volume? pool e.name = some s := (Tables.volume?_eq hr e.name).trans hs
    obtain ⟨hstates, hsame⟩ := (hlegible pool e.name s hstored).states hread
    refine .resize hentry hpresent hvolume hstored (hstates size hsize) (by exact_mod_cast hless) ?_
    intro f hf
    rw [← hsame] at hf
    rwa [hf] at hformat

/-- **The work on the volume of an entry is careful**, if it is known whether the volume is there. -/
theorem safe_volume (hentry : d.HasEntry pool e) (he : e.IsSound) (hr : w.host.tables.get? .pool pool = some r) :
    Talk.Safe d.HandlesLegible (fun _ _ => True) (e.sync false pool (r.volumes.get? e.name).isSome).run w := by
  unfold VolumeEntry.sync
  cases hpresent : e.present with
  | false =>
    simp only [Bool.false_eq_true, if_false]
    split
    · exact .andThen (.change (Q := fun _ _ => True) (fun _ _ => .delete hentry hpresent) (fun _ => trivial)
        (fun _ _ _ => trivial) fun _ _ => trivial) (fun _ _ _ => .pure trivial) fun _ _ _ => trivial
    · exact trivial
  | true =>
    obtain ⟨v, hvolume, hname, hplain⟩ := he hpresent
    simp only [if_true, hvolume]
    split
    · rw [VolumeEntry.adjust_eq]
      refine .andThen (.attempt (Q := fun a w' => w'.host.tables = w.host.tables ∧ ∀ document, a = .ok document →
        ∃ s, r.volumes.get? e.name = some s ∧ document = s.document) (handlesLegible_of_harmless rfl)
        (fun document hdocument => ⟨w.tables_after_of_isStill rfl, ?_⟩)
        fun _ => ⟨w.tables_after_of_isStill rfl, fun _ => nofun⟩) ?_ fun _ _ _ => trivial
      · intro _ heq
        rw [← Except.ok.inj heq]
        obtain ⟨r', s, hr', hs, hsame⟩ := Memory.stored_of_readVolume hdocument
        obtain rfl := Option.some.inj (hr.symm.trans hr')
        exact ⟨s, hs, hsame⟩
      · rintro document w' ⟨htables, hdocument⟩
        obtain ⟨s, hs, rfl⟩ := hdocument document rfl
        exact safe_weigh hentry hpresent hvolume (by rw [htables]; exact hr) hs
    · next habsent =>
      cases hwritten : v.written with
      | error why => exact trivial
      | ok text =>
        -- the name is free, so that no volume is written over
        have hfree : w.host.tables.volume? pool e.name = none := by
          rw [Tables.volume?_eq hr]
          simpa using habsent
        have hnamed : nameInDocument text = e.name := by
          have hprint := hwritten
          rw [Volume.written_eq hplain] at hprint
          split at hprint
          · rw [← Except.ok.inj hprint]
            exact (Volume.nameInDocument_written hplain).trans hname
          · exact absurd hprint (by simp)
        show Talk.Safe d.HandlesLegible (fun _ _ => True) (do
          Work.change false .create (.createVolume pool text)
          return e.done pool .created : Work Result).run w
        exact .andThen (.change (Q := fun _ _ => True)
          (fun _ _ => .create hentry hpresent hvolume hwritten hnamed hfree) (fun _ => trivial)
          (fun _ _ _ => trivial) fun _ _ => trivial) (fun _ _ _ => .pure trivial) fun _ _ _ => trivial

end

/-! ### The task for a pool -/

section

variable {q : Pool} (hq : q ∈ d.pools.items) (hsound : q.IsSound) {w : Watched}

include hq hsound

/-- The work on the volumes of a pool is careful, if it is known which of them are there. -/
theorem safe_syncVolumes {es : List VolumeEntry} (hes : ∀ e ∈ es, e ∈ q.volumes) (hnames : (es.map (·.name)).Nodup)
    {there : List String} {r : StoredResource} (hr : w.host.tables.get? .pool q.name = some r)
    (hthere : ∀ e ∈ es, there.contains e.name = (r.volumes.get? e.name).isSome) :
    Talk.Safe d.HandlesLegible (fun _ _ => True) (q.syncVolumes false there es) w := by
  induction es generalizing w r with
  | nil => exact .pure trivial
  | cons e es ih =>
    rw [List.map_cons, List.nodup_cons] at hnames
    have he := hsound.sound e (hes e (by simp))
    have hentry : d.HasEntry q.name e := ⟨q, hq, rfl, hes e (by simp)⟩
    have hcareful : Talk.Safe d.HandlesLegible (fun _ _ => True)
        (supervise .volume (e.label q.name) (e.sync false q.name (there.contains e.name))) w := by
      rw [hthere e (by simp)]
      exact Talk.Safe.supervise (Q := fun _ _ => True) trivial (safe_volume hentry he hr)
    -- the other volumes of the pool stay as they are
    have hagree : Talk.Safe (fun _ _ => True)
        (fun _ w => ∃ r', w.host.tables.get? .pool q.name = some r' ∧ r.AgreeBut [e.name] r')
        (supervise .volume (e.label q.name) (e.sync false q.name (there.contains e.name))) w := by
      refine (Talk.Safe.of_confined (e.frank_sync he false q.name (there.contains e.name)).confined_supervise ?_
        (fun _ _ hquery _ => hquery.mono fun _ _ => trivial) ⟨r, hr, .refl _ r⟩).mono (fun _ _ => id)
        fun _ _ h => h.2
      rintro w query hquery ⟨r', hr', hothers⟩
      obtain ⟨s, hs, hagree⟩ := Memory.exists_agreeBut_answer hr' (hquery.mono fun c hc => hc.1)
      exact ⟨s, hs, hothers.trans hagree⟩
    refine Talk.Safe.bind ((hcareful.and hagree).mono (fun _ _ h => h.1) fun _ _ h => h.2) ?_
    rintro ending w' ⟨r', hr', hothers⟩
    split
    · exact .pure trivial
    · refine Talk.Safe.bind (ih (fun e' he' => hes e' (by simp [he'])) hnames.2 hr' fun e' he' => ?_)
        fun _ _ _ => .pure trivial
      have hne : e'.name ∉ [e.name] := fun heq => hnames.1
        (List.mem_map.2 ⟨e', he', List.mem_singleton.1 heq⟩)
      rw [hothers.others _ hne]
      exact hthere e' (by simp [he'])

/-- The volumes of a pool are listed before they are worked on. -/
theorem safe_syncContents :
    Talk.Safe d.HandlesLegible (fun _ _ => True) (q.syncContents false q.active) w := by
  unfold Pool.syncContents
  by_cases hempty : q.volumes = []
  · simp only [hempty, List.isEmpty_nil, if_true]
    exact .pure trivial
  · have hactive : q.active = true := hsound.active hempty
    simp only [List.isEmpty_iff, hempty, if_false, hactive, if_true]
    refine Talk.Safe.bind (Talk.Safe.call (Q := fun reply w' => w'.host.tables = w.host.tables ∧
      ∀ there, reply = .ok there → ∃ r, w.host.tables.get? .pool q.name = some r ∧
        there = r.volumes.names.mergeSort fun a b => decide (a ≤ b)) (handlesLegible_of_harmless rfl)
      ⟨w.tables_after_of_isStill rfl, fun there hthere => ?_⟩) ?_
    · obtain ⟨r, hpool, hserve⟩ := Tables.exists_of_bind_eq_ok (Memory.serve_eq_of_call_eq_ok hthere)
      exact ⟨r, (Tables.get?_of_activePool hpool).1, (Prod.mk.inj (Except.ok.inj hserve)).1.symm⟩
    · rintro reply w' ⟨htables, hreply⟩
      split
      · next there =>
        obtain ⟨r, hr, rfl⟩ := hreply there rfl
        refine safe_syncVolumes hq hsound (fun _ => id) hsound.names (by rw [htables]; exact hr) fun e _ => ?_
        rw [Bool.eq_iff_iff, List.contains_iff_mem, List.mem_mergeSort]
        exact Table.mem_names_iff
      · exact .pure trivial

/-- **The task for a pool is careful.** -/
theorem safe_poolTask (exists_ : Bool) :
    Talk.Safe d.HandlesLegible (fun _ _ => True) (q.task false exists_) w := by
  -- bringing the pool in line changes no volumes, and it says whether the pool runs
  have hstarted : Talk.Safe d.HandlesLegible
      (fun ending _ => ∀ x, ending = .finished x → x.2 = q.active)
      (supervise .pool q.name (q.started.sync false exists_)) w := by
    refine (Talk.Safe.of_confined (I := fun _ => True)
      (q.started.frank_makes false exists_).confined_supervise (fun _ _ _ _ => trivial)
      (fun _ _ hquery _ => hquery.mono fun c hc => handlesLegible_of_harmless ?_) trivial).mono (fun _ _ => id) ?_
    · cases hc with
      | look _ reads => exact Call.changesVolumes_of_isReading reads
      | define _ _ => rfl
      | stop _ => rfl
      | start _ => rfl
      | autostart _ => rfl
    · rintro ending w ⟨⟨x, rfl, hx⟩ | ⟨op, reason, fk, rfl⟩ | rfl | ⟨why, rfl⟩, -⟩ y hy
      · rw [← Ending.finished.inj hy]
        exact hx.2 rfl
      · exact nomatch hy
      · exact nomatch hy
      · exact nomatch hy
  refine hstarted.bind fun ending w hending => ?_
  split
  · next x readable =>
    obtain rfl : readable = q.active := hending (x, readable) rfl
    exact (safe_syncContents hq hsound).bind fun _ _ _ => .pure trivial
  · exact .pure trivial
  · exact .pure trivial
  · exact .pure trivial

end

/-! ### Passes -/

/-- Calls that do not change volumes are careful. -/
theorem safe_of_harmless {α : Type} {t : Talk α} {e : α → Prop} {w : Watched}
    (h : t.Confined (Query.CallsOnly (·.changesVolumes = false)) e) :
    Talk.Safe d.HandlesLegible (fun _ _ => True) t w :=
  (Talk.Safe.of_confined (I := fun _ => True) h (fun _ _ _ _ => trivial)
    (fun _ _ hq _ => hq.mono fun _ => handlesLegible_of_harmless) trivial).mono (fun _ _ => id) fun _ _ _ => trivial

/-- **A pass is careful with volumes.** -/
theorem safe_handles (hplain : d.IsPlain) (hvalid : d.Validates) (dry : Bool) (timeout : Binary64) (w : Watched) :
    Talk.Safe d.HandlesLegible (fun _ _ => True) (d.phases dry timeout) w := by
  have hreads : ∀ {c : Call}, c.isReading = true → c.changesVolumes = false := Call.changesVolumes_of_isReading
  -- a dry run only reads
  cases dry with
  | true => exact safe_of_harmless ((d.confined_reading timeout).mono (fun _ hq => hq.mono fun _ => hreads) fun _ => id)
  | false =>
    refine safe_phases (R := fun _ => True) (A := fun _ _ _ _ => True) (B := fun _ _ _ _ _ _ => True)
      (C := fun _ _ _ _ => True) ?_ (fun first _ _ w _ => ?_) (fun _ _ _ _ domains w _ => ?_) fun soFar _ _ w _ => ?_
    · unfold networksAndPools
      have hlist : ∀ kind managed, (Stock.take kind managed).Confined
          (Query.CallsOnly (·.changesVolumes = false)) fun _ => True := fun _ _ =>
        Stock.confined_list (fun _ => rfl) _ _
      refine (safe_of_harmless (hlist _ _)).bind fun networks w _ => ?_
      refine (safe_of_harmless (hlist _ _)).bind fun pools w _ => ?_
      refine (Talk.Safe.gather (I := fun _ => True) (fun t ht w _ => ?_) trivial).bind fun _ _ _ =>
        .pure ⟨trivial, fun _ _ => trivial⟩
      -- of all tasks only those of pools change volumes
      rcases List.mem_append.1 ht with ht | ht
      · refine safe_of_harmless (Stock.confined_of_mem_tasks (fun n _ b => ?_) t ht)
        refine (n.confined_makes false b).mono (fun _ hq => hq.mono fun c hc => ?_) fun _ _ => trivial
        cases hc with
        | look _ reads => exact hreads reads
        | define _ _ => rfl
        | stop _ => rfl
        | start _ => rfl
        | autostart _ => rfl
      · cases pools with
        | leftAlone results =>
          obtain rfl := List.mem_singleton.1 ht
          exact .pure trivial
        | unknown reason =>
          obtain rfl := List.mem_singleton.1 ht
          exact .pure trivial
        | known names =>
          obtain ⟨q, hq, rfl⟩ := List.mem_map.1 ht
          exact safe_poolTask hq (hvalid.pool_isSound hplain hq) _
    · refine (safe_of_harmless (confined_domainsInLine (fun _ => rfl) fun x _ b => ?_)).mono (fun _ _ => id)
        fun _ _ _ => ⟨trivial, fun _ _ => trivial⟩
      refine (x.confined_makes false timeout first b).mono (fun _ hq => hq.mono fun c hc => ?_)
        fun _ _ => trivial
      cases hc with
      | look _ reads => exact hreads reads
      | define _ => rfl
      | start => rfl
      | stop _ _ => rfl
    · exact (safe_of_harmless (confined_removeDomains fun _ _ => ⟨rfl, fun _ => rfl⟩)).mono (fun _ _ => id)
        fun _ _ _ => ⟨trivial, fun _ _ => trivial⟩
    · exact safe_of_harmless (confined_removeRest (fun hc _ => hreads hc) fun _ _ _ => rfl)

/-! ### What careful calls do -/

/-- What becomes of a volume by a careful call that changes it: it is taken out, made, or grown. -/
inductive Alters (d : Desired) (t : Tables) : (pool volume : String) → Option StoredVolume → Prop where
  | delete {pool : String} {e : VolumeEntry} (entry : d.HasEntry pool e) (away : e.present = false) :
      Alters d t pool e.name none
  | create {pool : String} {e : VolumeEntry} {s : StoredVolume} (entry : d.HasEntry pool e)
      (present : e.present = true) (free : t.volume? pool e.name = none) (legible : s.IsLegible) :
      Alters d t pool e.name (some s)
  | resize {pool : String} {e : VolumeEntry} {s : StoredVolume} {size : Int} {bytes : Nat}
      (entry : d.HasEntry pool e) (present : e.present = true) (stored : t.volume? pool e.name = some s)
      (states : s.size? = some size) (grows : size < bytes) : Alters d t pool e.name (some (s.resized bytes))

/-- What is stored when a listed volume is made is legible. -/
theorem isLegible_ofDocument {v : Volume} (hplain : Text.ArePlain v.texts) {text : String}
    (hwritten : v.written = .ok text) {x : Element} (hread : Element.read? text = some x) :
    (StoredVolume.ofDocument x).IsLegible := by
  rw [Volume.written_eq hplain] at hwritten
  split at hwritten
  · rw [← Except.ok.inj hwritten, (Volume.legible hplain).read?_print] at hread
    obtain rfl := Option.some.inj hread
    rw [StoredVolume.ofDocument, Volume.volumeFormat?_document hplain]
    refine ⟨fun i hi => ?_, fun f hf => ?_⟩
    · obtain ⟨n, -, rfl⟩ := Option.map_eq_some_iff.1 hi
      exact Int.natCast_nonneg n
    · obtain rfl := Option.some.inj hf
      exact hplain v.format (by simp [Volume.texts])
  · exact absurd hwritten (by simp)

variable {m : Memory} {c : Call} {t u : Tables} {pool volume : String} {old new new' : Option StoredVolume}

/-- **A careful call changes no volume of the pools that remain, or one of them.** -/
theorem Handles.alters (hplain : d.IsPlain) (h : d.Handles m c) (hb : m.tables.Becomes m.polls c u) :
    (∀ pool, (u.get? .pool pool).isSome = true → ∀ volume,
        u.volume? pool volume = m.tables.volume? pool volume) ∨
      ∃ pool name new, d.Alters m.tables pool name new ∧ ∀ other volume, u.volume? other volume =
        if pool = other ∧ name = volume then new else m.tables.volume? other volume := by
  -- the call was served, so it did to the volume what it is called for
  cases h with
  | other harmless => exact .inl fun pool hpool volume => hb.volume?_eq harmless hpool volume
  | @delete p e entry away =>
    refine .inr ⟨p, e.name, none, .delete entry away, ?_⟩
    cases hb with
    | still h => exact absurd h (by simp [Call.isStill])
    | delete hr => exact Tables.volume?_erase hr e.name
  | @create p text e v entry present hvolume written named free =>
    cases hb with
    | still h => exact absurd h (by simp [Call.isStill])
    | @create _ _ r x hr hread =>
      have hmade : (StoredVolume.ofDocument x).IsLegible := by
        obtain ⟨q, hq, -, he⟩ := entry
        exact isLegible_ofDocument (hplain.volume hq he hvolume) written hread
      refine .inr ⟨p, e.name, _, .create entry present free hmade, ?_⟩
      rw [← named]
      exact Tables.volume?_putVolume hr _ _
  | @resize p e v s size entry present hvolume stored states grows format =>
    cases hb with
    | still h => exact absurd h (by simp [Call.isStill])
    | @resize _ _ _ r s' hr hstored =>
      obtain rfl : s' = s := Option.some.inj (hstored.symm.trans ((Tables.volume?_eq hr e.name).symm.trans stored))
      exact .inr ⟨p, e.name, _, .resize entry present stored states grows, Tables.volume?_putVolume hr _ _⟩

/-- **Careful calls leave legible volumes legible.** -/
theorem Handles.legible (hplain : d.IsPlain) (h : d.Handles m c) (hm : m.HasLegibleVolumes)
    (hb : m.tables.Becomes m.polls c u) (pool volume : String) (s : StoredVolume)
    (hs : u.volume? pool volume = some s) : s.IsLegible := by
  rcases h.alters hplain hb with hsame | ⟨p, name, new, halters, hnew⟩
  · have hpool : (u.get? .pool pool).isSome = true := by
      obtain ⟨r, hr, -⟩ := Option.bind_eq_some_iff.1 hs
      rw [hr]
      rfl
    rw [hsame pool hpool] at hs
    exact hm pool volume s hs
  · rw [hnew] at hs
    split at hs
    · subst hs
      cases halters with
      | create _ _ _ legible => exact legible
      | resize _ _ stored _ _ => exact (hm _ _ _ stored).resized _
    · exact hm pool volume s hs

/-! ### What a pass preserves -/

/-- Whether the volumes under a name before and after are as the lists have it: a volume that is not listed is as
it was, and a listed one is kept, or it is gone and listed as absent. -/
structure Preserves (d : Desired) (pool volume : String) (old new : Option StoredVolume) : Prop where
  unlisted : ¬ d.Lists pool volume → new = old
  listed : ∀ s, old = some s → (∃ s', new = some s' ∧ s.Kept s') ∨
    new = none ∧ ∃ e, d.HasEntry pool e ∧ e.name = volume ∧ e.present = false

theorem HasEntry.lists {e : VolumeEntry} (h : d.HasEntry pool e) : d.Lists pool e.name := by
  obtain ⟨q, hq, hname, he⟩ := h
  exact ⟨q, hq, hname, e, he, rfl⟩

/-- A volume has one entry. -/
theorem HasEntry.eq (hplain : d.IsPlain) (hvalid : d.Validates) {e e' : VolumeEntry} (h : d.HasEntry pool e)
    (h' : d.HasEntry pool e') (hname : e.name = e'.name) : e = e' := by
  obtain ⟨q, hq, hpool, he⟩ := h
  obtain ⟨q', hq', hpool', he'⟩ := h'
  obtain rfl := List.inj_on_of_nodup_map hvalid.pools hq hq' (hpool.trans hpool'.symm)
  exact List.inj_on_of_nodup_map (hvalid.pool_isSound hplain hq).names he he' hname

theorem Preserves.refl (d : Desired) (pool volume : String) (old : Option StoredVolume) :
    d.Preserves pool volume old old :=
  ⟨fun _ => rfl, fun s hs => .inl ⟨s, hs, .same s⟩⟩

/-- **A careful change preserves what is preserved.** -/
theorem Preserves.alter (hplain : d.IsPlain) (hvalid : d.Validates)
    (h : d.Preserves pool volume old (t.volume? pool volume)) (halters : d.Alters t pool volume new) :
    d.Preserves pool volume old new := by
  cases halters with
  | @delete e entry away =>
    exact ⟨fun hnot => absurd entry.lists hnot, fun s _ => .inr ⟨rfl, e, entry, rfl, away⟩⟩
  | @create e s entry present free legible =>
    refine ⟨fun hnot => absurd entry.lists hnot, fun s₀ hs₀ => ?_⟩
    rcases h.listed s₀ hs₀ with ⟨s', hs', -⟩ | ⟨-, e', entry', hname, away⟩
    · exact absurd (free.symm.trans hs') (by simp)
    · obtain rfl := entry'.eq hplain hvalid entry hname
      exact absurd (present.symm.trans away) (by simp)
  | @resize e s size bytes entry present stored states grows =>
    refine ⟨fun hnot => absurd entry.lists hnot, fun s₀ hs₀ => ?_⟩
    rcases h.listed s₀ hs₀ with ⟨s', hs', hkept⟩ | ⟨hnone, -⟩
    · obtain rfl := Option.some.inj (stored.symm.trans hs')
      exact .inl ⟨_, rfl, hkept.grow states grows⟩
    · exact absurd (hnone.symm.trans stored) (by simp)

/-- Whether some tables keep what was in others: declared pools stay, and the volumes of the pools that stay are
preserved. -/
structure Guards (d : Desired) (t u : Tables) : Prop where
  stays : ∀ pool ∈ d.names .pool, (t.get? .pool pool).isSome = true → (u.get? .pool pool).isSome = true
  volumes : ∀ pool, (t.get? .pool pool).isSome = true → (u.get? .pool pool).isSome = true → ∀ volume,
    d.Preserves pool volume (t.volume? pool volume) (u.volume? pool volume)

theorem Guards.refl (d : Desired) (t : Tables) : d.Guards t t :=
  ⟨fun _ _ => id, fun pool _ _ volume => .refl d pool volume _⟩

/-- **Permitted and careful calls keep what was there.** -/
theorem Guards.becomes (hplain : d.IsPlain) (hvalid : d.Validates) (h : d.Guards t m.tables)
    (hpermits : d.Permits m c) (hhandles : d.Handles m c) (hb : m.tables.Becomes m.polls c u) : d.Guards t u := by
  refine ⟨fun pool hname hthere => ?_, fun pool hthere hpool volume => ?_⟩
  · -- a declared pool is not undefined
    refine Tables.isSome_becomes (h.stays pool hname hthere) ?_ hb
    rintro rfl
    cases hpermits with
    | look reads _ => exact absurd reads (by simp [Call.isReading])
    | declared _ _ _ keeps _ => exact keeps _ _ rfl
    | undefine _ undeclared _ => exact undeclared hname
  · -- a pool that is not declared does not come back
    have hstays : (m.tables.get? .pool pool).isSome = true := by
      by_contra habsent
      rw [Bool.not_eq_true, Option.isSome_eq_false_iff, Option.isNone_iff_eq_none] at habsent
      refine absurd hpool ?_
      rw [Tables.get?_becomes_eq_none habsent ?_ hb]
      · simp
      · rintro document rfl rfl
        cases hpermits with
        | look reads _ => exact absurd reads (by simp [Call.isReading])
        | declared _ declared about _ _ =>
          obtain ⟨rfl, hsame⟩ := Prod.mk.inj about
          obtain rfl := Option.some.inj hsame
          exact absurd (h.stays _ declared hthere) (by simp [habsent])
    have hbefore := h.volumes pool hthere hstays volume
    rcases hhandles.alters hplain hb with hsame | ⟨p, name, new, halters, hnew⟩
    · rw [hsame pool hpool]
      exact hbefore
    · rw [hnew]
      split
      · next hboth =>
        obtain ⟨rfl, rfl⟩ := hboth
        exact hbefore.alter hplain hvalid halters
      · exact hbefore

/-- Whether a host has legible volumes and keeps what was in some tables. -/
structure Keeps (d : Desired) (t : Tables) (m : Memory) : Prop where
  legible : m.HasLegibleVolumes
  guards : d.Guards t m.tables

/-- A permitted and careful query keeps what was there. -/
theorem Keeps.answer (hplain : d.IsPlain) (hvalid : d.Validates) (h : d.Keeps t m) {q : Query}
    (hq : q.CallsOnly fun c => d.Permits m c ∧ d.HandlesLegible m c) : d.Keeps t (m.answer q).2 := by
  cases q with
  | call c =>
    show d.Keeps t (m.call c).2
    have hhandles := hq.2 h.legible
    rcases Memory.tables_call m c with heq | ⟨a, ha⟩
    · refine ⟨?_, ?_⟩
      · unfold Memory.HasLegibleVolumes
        rw [heq]
        exact h.legible
      · rw [heq]
        exact h.guards
    · have hb := Tables.becomes_of_serve ha
      exact ⟨hhandles.legible hplain h.legible hb, h.guards.becomes hplain hvalid hq.1 hhandles hb⟩
  | cancelled => exact h
  | now => exact h
  | sleep _ => exact ⟨h.legible, h.guards⟩

end Desired

/-! ### Volumes are safe -/

/-- **The data of volumes is safe.** Whatever fails and whenever the pass is cancelled, each call of a pass is
careful with volumes; the volumes of the pools that are there before and after are preserved; and the removal of a
domain goes to the domain, and to no volume. -/
theorem Settings.volumes_safe {s : Settings} {d : Desired} (hvalid : d.Validates) (hplain : d.IsPlain)
    (dryRun : Option Bool) {m : Memory} (hm : m.HasLegibleVolumes) (cancels : Nat → Bool) :
    (∀ x ∈ (m.watch cancels (s.apply d dryRun)).2.calls, d.Handles x.1 x.2) ∧
    (∀ pool r r', m.tables.get? .pool pool = some r →
      (m.watch cancels (s.apply d dryRun)).2.host.tables.get? .pool pool = some r' →
      ∀ volume, d.Preserves pool volume (r.volumes.get? volume) (r'.volumes.get? volume)) ∧
    ∀ dry name, ∀ x ∈ (m.watch cancels (Domain.removal dry name)).2.calls, x.2.target = (.domain, some name) := by
  have hsafe : Talk.Safe (fun m c => d.Permits m c ∧ d.HandlesLegible m c) (fun _ _ => True) (s.apply d dryRun)
      { host := m } := by
    refine safe_apply trivial fun _ => ?_
    exact ((Desired.safe_permits hplain hvalid _ _).and (Desired.safe_handles hplain hvalid _ _ _)).mono
      (fun _ _ => id) fun _ _ _ => trivial
  have hkept := hsafe.invariant (I := d.Keeps m.tables) (fun n q hq hn => hn.answer hplain hvalid hq)
    ⟨hm, .refl d m.tables⟩
  obtain ⟨hcalls, -, hend⟩ := hkept.watch cancels
  refine ⟨fun x hx => ?_, fun pool r r' hr hr' volume => ?_, fun dry name x hx => ?_⟩
  · obtain ⟨⟨-, hhandles⟩, hkeeps⟩ := hcalls x hx
    exact hhandles hkeeps.legible
  · rw [← Tables.volume?_eq hr, ← Tables.volume?_eq hr']
    exact hend.guards.volumes pool (by rw [hr]; rfl) (by rw [hr']; rfl) volume
  · have hremoval : Talk.Safe (fun _ c => c.target = (.domain, some name)) (fun _ _ => True)
        (Domain.removal dry name) { host := m } :=
      (Talk.Safe.of_confined (I := fun _ => True) (Domain.confined_removal dry name) (fun _ _ _ _ => trivial)
        (fun _ _ hq _ => hq.mono fun _ hc => hc.about) trivial).mono (fun _ _ => id) fun _ _ _ => trivial
    exact (hremoval.watch cancels).1 x hx

/-- A host on which a pool runs with a volume that is not listed. -/
def Memory.withSpare : Memory :=
  { tables := { pools := [("images",
      { document := "<pool/>", active := true, volumes := [("spare", .sized (some 7) (.known "raw"))] })] } }

/-- The volume that is listed is made, and the one that is not stays as it is. -/
theorem Settings.volumes_safe_withSpare :
    (∃ x ∈ (Memory.withSpare.watch (fun _ => false) (({} : Settings).apply .withImages)).2.calls,
      x.2.word = "create_volume" ∧ Desired.withImages.Handles x.1 x.2) ∧
    ∃ r, (Memory.withSpare.watch (fun _ => false)
        (({} : Settings).apply .withImages)).2.host.tables.get? .pool "images" = some r ∧
      r.volumes.get? "spare" = some (.sized (some 7) (.known "raw")) := by
  have hvolumes : Memory.withSpare.HasLegibleVolumes := by
    intro pool volume v hv
    obtain ⟨r, hr, hv⟩ := Option.bind_eq_some_iff.1 hv
    simp only [Tables.get?, Tables.table, Memory.withSpare, Table.get?_cons, Table.get?_nil] at hr
    split at hr
    · obtain rfl := Option.some.inj hr
      simp only [Table.get?_cons, Table.get?_nil] at hv
      split at hv
      · obtain rfl := Option.some.inj hv
        exact ⟨by simp, by simp [StoredFormat.name?]; decide⟩
      · exact absurd hv (by simp)
    · exact absurd hr (by simp)
  obtain ⟨hcalls, hpreserves, -⟩ := volumes_safe (s := {}) Desired.validates_withImages
    Desired.isPlain_withImages none hvolumes fun _ => false
  -- only what the pass calls is computed; what it leaves alone follows
  have hrun : (∃ x ∈ (Memory.withSpare.watch (fun _ => false)
      (({} : Settings).apply .withImages)).2.calls, x.2.word = "create_volume") ∧
      ((Memory.withSpare.watch (fun _ => false)
        (({} : Settings).apply .withImages)).2.host.tables.get? .pool "images").isSome = true := by
    decide +kernel
  obtain ⟨⟨x, hx, hcall⟩, hthere⟩ := hrun
  obtain ⟨r, hr⟩ := Option.isSome_iff_exists.1 hthere
  refine ⟨⟨x, hx, hcall, hcalls x hx⟩, r, hr, ?_⟩
  refine (hpreserves "images" _ r rfl hr "spare").unlisted ?_
  rintro ⟨q, hq, -, e, he, hname⟩
  obtain rfl := List.mem_singleton.1 hq
  obtain rfl := List.mem_singleton.1 he
  exact absurd hname (by decide)

end VirtualTopology
