import VirtualTopology.Proofs.Pass.Aftermath

/-!
# Convergence

After a real pass that has not been cancelled, everything that the report does not call failed is in line
(`Settings.apply_converges`): networks and pools (`Tables.HasStarted`), volumes (`Tables.HasVolume`) and
domains (`Tables.HasDomain`). Any calls may fail on the way, for any resource.

The route is `Desired.Course`: the entry of a resource is what its task left (`Course.network` and its
companions), and what a task leaves is in line by the lemmas about `Started.settled`, `VolumeEntry.Comes`
and `Domain.settled`.
-/

namespace VirtualTopology

/-! ### What is in line -/

/-- Whether a volume has a size that can be written and a plain format. -/
def StoredVolume.IsPlain (s : StoredVolume) : Prop :=
  ∃ (size : Nat) (format : String), s = .sized (some size) (.known format) ∧
    Text.isWritable size = true ∧ Text.IsPlain format

namespace Tables

/-- Whether all volumes are plain. -/
def HasPlainVolumes (t : Tables) : Prop :=
  ∀ pool r, t.get? .pool pool = some r → ∀ name s, r.volumes.get? name = some s → s.IsPlain

/-- Whether a network or a pool is in line: its document meets the declared one, and it runs and starts on
its own as declared. -/
def HasStarted (t : Tables) (s : Started) : Prop :=
  ∃ r text, t.get? s.kind s.name = some r ∧ s.text = .ok text ∧
    documentsMatch text r.document = true ∧ r.active = s.active ∧ r.autostart = s.autostart

/-- Whether the volume of an entry is in line: it has the declared size and format, or it is not there. -/
def HasVolume (t : Tables) (pool : String) (e : VolumeEntry) : Prop :=
  ∃ r, t.get? .pool pool = some r ∧
    if e.present then
      ∃ v, e.volume = some v ∧
        r.volumes.get? e.name = some (.sized (some v.capacity.toBytes) (.known v.format))
    else r.volumes.get? e.name = none

/-- Whether the power of a domain is as declared, from what was there before. A guest with negative `polls`
does not shut down when it is asked, and one with positive `polls` takes its time. -/
def HasPower (active : Option Bool) (polls : Int) (old : Option StoredResource) (r : StoredResource) :
    Prop :=
  match active with
  | some true => r.active = true
  | some false => r.active = false ∨ polls < 0 ∨ 0 < polls ∧ r.closing.isSome = true
  | none => (∀ before ∈ old, before.closing = none) → r.active = old.any (·.active)

/-- Whether a domain is in line: its document meets the declared one, and its power is as declared. -/
def HasDomain (t : Tables) (x : Domain) (polls : Int) (old : Option StoredResource) : Prop :=
  ∃ r text, t.get? .domain x.name = some r ∧ x.written = .ok text ∧
    documentsMatch text r.document = true ∧ HasPower x.active polls old r

end Tables

namespace Report

/-- Whether a report says that a resource is there as declared. -/
def HasDone (report : Report) (kind : ResourceKind) (name : String) : Prop :=
  ∃ x ∈ report.results, x.kind = kind ∧ x.name = name ∧
    x.outcome ∈ [Outcome.created, .updated, .unchanged]

/-- Whether all that a report says about a volume is that it is there or not there as declared. Volumes of
different pools can have the same label. -/
def HasDoneVolume (report : Report) (label : String) : Prop :=
  ∀ x ∈ report.results, x.kind = .volume → x.name = label →
    x.outcome ∈ [Outcome.created, .updated, .unchanged, .deleted]

end Report

/-- Whether everything is in line that a report on a pass does not call failed. -/
structure Desired.HasConverged (d : Desired) (before : Memory) (report : Report) (t : Tables) : Prop where
  networks : ∀ n ∈ d.networks.items, report.HasDone .network n.name → t.HasStarted n.started
  pools : ∀ p ∈ d.pools.items, report.HasDone .pool p.name → t.HasStarted p.started
  volumes : ∀ p ∈ d.pools.items, ∀ e ∈ p.volumes, report.HasDoneVolume (e.label p.name) →
    t.HasVolume p.name e
  domains : ∀ x ∈ d.domains.items, report.HasDone .domain x.name →
    t.HasDomain x ((before.polls.get? x.name).getD 0) (before.tables.get? .domain x.name)

/-! ### From results to entries -/

/-- Work on a plain volume that ends well leaves the declared volume, or none. -/
theorem VolumeEntry.Comes.stored {e : VolumeEntry} {pool : String} {s? s' : Option StoredVolume}
    {res : Result} (h : e.Comes pool s? (.ok res) s') (hs : ∀ s ∈ s?, s.IsPlain) :
    if e.present then
      ∃ v, e.volume = some v ∧ s' = some (.sized (some v.capacity.toBytes) (.known v.format))
    else s' = none := by
  -- what is read of a plain volume is what is stored of it
  have hread : ∀ {s : StoredVolume} {x : Element}, s ∈ s? → Element.read? s.document = some x →
      ∃ (size : Nat) (format : String), s = .sized (some size) (.known format) ∧
        x.volumeFormat? = some format ∧ x.volumeCapacity? = some size := by
    intro s x hmem hx
    obtain ⟨size, format, rfl, hwritable, hformat⟩ := hs s hmem
    have hread : Element.read? (StoredVolume.sized (some (size : Int)) (.known format)).document = _ :=
      StoredVolume.read?_document _ fun f hf => Option.some.inj hf ▸ hformat
    obtain rfl := Option.some.inj (hx.symm.trans hread)
    exact ⟨size, format, rfl, StoredVolume.volumeFormat?_element _ _,
      StoredVolume.volumeCapacity?_element hwritable _⟩
  cases h with
  | absent away => simp [away]
  | deleted away s => simp [away]
  | @created v present volume writable =>
    rw [if_pos present]
    exact ⟨v, volume, rfl⟩
  | @kept v s x present volume read format capacity =>
    rw [if_pos present]
    obtain ⟨size, f, rfl, hformat, hcapacity⟩ := hread rfl read
    rw [hformat, Option.getD_some] at format
    exact ⟨v, volume, by rw [format, capacity size hcapacity]⟩
  | @grown v s x present volume read format writable details =>
    rw [if_pos present]
    obtain ⟨size, f, rfl, hformat, -⟩ := hread rfl read
    rw [hformat, Option.getD_some] at format
    exact ⟨v, volume, by rw [format]; rfl⟩

namespace Started

variable {s : Started} {text : String} {t : Tables} {old : Option StoredResource}

/-- A settled resource is in line. -/
theorem hasStarted_settled (htext : s.text = .ok text) (hself : documentsMatch text text = true)
    {r : StoredResource} {vs : List String} (hr : t.get? s.kind s.name = some r)
    (hsettled : (s.settled text old).AgreeBut vs r) : t.HasStarted s := by
  refine ⟨r, text, hr, htext, ?_, ?_, ?_⟩
  · rw [hsettled.rest]
    exact documentsMatch_settled s text old hself
  · rw [hsettled.rest]
    exact active_settled s text old
  · rw [hsettled.rest]
    exact autostart_settled s text old

end Started

/-- The power of a settled domain is as declared. -/
theorem Domain.hasPower_settled (d : Domain) (text : String) (n : Int) (old : Option StoredResource) :
    Tables.HasPower d.active n old (d.settled text n old) := by
  unfold Tables.HasPower
  split
  · next h => exact active_settled_of_on text n old h
  · next h => exact active_settled_of_off text n old h
  · next h => exact active_settled_of_unset text n old h

/-- What is said of a resource with one result is said by that result. -/
theorem Result.IsSole.done {x : Result} {rs : List Result} {dry : Bool} (h : x.IsSole rs)
    (hdone : (Report.of rs dry).HasDone x.kind x.name) : x.outcome ≠ .failed := by
  obtain ⟨y, hy, hkind, hname, houtcome⟩ := hdone
  obtain rfl := h.2 y (Report.mem_of.1 hy) hkind hname
  rintro hfailed
  rw [hfailed] at houtcome
  exact absurd houtcome (by simp)

/-! ### The pass -/

/-- **Everything that is reported as done is done.** After a real pass that was not cancelled, whatever
failed on the way, a network or pool that is reported created, updated or unchanged has a document that meets
its declaration, and runs and starts on its own as declared; a volume that is not reported failed has the
declared size and format, or is not there if it is declared absent; a domain that is reported created,
updated or unchanged has a document that meets its declaration, and its power is as declared. -/
theorem Settings.apply_converges {s : Settings} {d : Desired} {dryRun : Option Bool} {m : Memory}
    {report : Report} (hvalid : d.Validates) (hplain : d.IsPlain)
    (hvolumes : m.tables.HasPlainVolumes) (huncancelled : m.Uncancelled)
    (hreal : s.isDry dryRun = false) (hreport : (m.run (s.apply d dryRun)).1 = .ok report) :
    d.HasConverged m report (m.run (s.apply d dryRun)).2.tables := by
  obtain ⟨c, rfl, hfinal⟩ := exists_course hreport
  rw [← hfinal]
  revert c
  rw [hreal]
  intro c hfinal hreport
  -- what the result of a declared resource says decides what became of it
  refine ⟨fun n hn hdone => ?_, fun p hp hdone => ?_, fun p hp e he hdone => ?_, fun y hy hdone => ?_⟩
  · obtain ⟨x, hsole, hkind, hname, hfailed | ⟨-, hentry⟩⟩ := c.network huncancelled hplain hvalid hn
    · rw [← hkind, ← hname] at hdone
      exact absurd hfailed (hsole.done hdone)
    · have htext := Network.started_text (hplain.network hn)
      exact Started.hasStarted_settled htext (Network.legible (hplain.network hn)).documentsMatch_print
        hentry (.refl [] _)
  · obtain ⟨x, xs, hsole, hkind, hname, -, ⟨hfailed, -⟩ | ⟨-, r, hr, hsettled, -⟩⟩ :=
      c.pool huncancelled hplain hvalid hp
    · rw [← hkind, ← hname] at hdone
      exact absurd hfailed (hsole.done hdone)
    · exact Started.hasStarted_settled (Pool.started_text (hvalid.pool_isSound hplain hp))
        (Pool.legible (hplain.pool hp)).documentsMatch_print hr hsettled
  · obtain ⟨x, xs, -, -, -, hxs, hfills⟩ := c.pool huncancelled hplain hvalid hp
    obtain ⟨y, hy, hkind, hname, hfailed | ⟨r, hr, hcomes⟩⟩ := hfills.volume he
    · have houtcome := hdone y (Report.mem_of.2 (hxs y hy)) hkind hname
      rw [hfailed] at houtcome
      exact absurd houtcome (by simp)
    · refine ⟨r, hr, hcomes.stored fun v hv => ?_⟩
      obtain ⟨r₀, hr₀, hv⟩ := Option.bind_eq_some_iff.1 hv
      exact hvolumes p.name r₀ hr₀ e.name v hv
  · obtain ⟨x, hsole, hkind, hname, hfailed | ⟨htext, -, hentry⟩⟩ := c.domain huncancelled hplain hvalid hy
    · rw [← hkind, ← hname] at hdone
      exact absurd hfailed (hsole.done hdone)
    · exact ⟨_, _, hentry, htext, Domain.documentsMatch_settled y _ _ _
        (Domain.legible (hplain.domain hy)).documentsMatch_print, Domain.hasPower_settled y _ _ _⟩

/-- On an empty host a pool and its volume are reported created, and so they are. -/
theorem Settings.apply_converges_withImages :
    ∃ report, (({} : Memory).run (({} : Settings).apply .withImages)).1 = .ok report ∧
      report.HasDone .pool "images" ∧
      Desired.withImages.HasConverged {} report
        (({} : Memory).run (({} : Settings).apply .withImages)).2.tables := by
  have hreport : ({} : Memory).run (({} : Settings).apply .withImages) = _ :=
    run_apply_of_phases Desired.validates_withImages (Prod.ext Desired.run_phases_withImages rfl)
  refine ⟨_, congrArg Prod.fst hreport, ⟨_, Report.mem_of.2 List.mem_cons_self, rfl, rfl, by simp⟩, ?_⟩
  exact apply_converges Desired.validates_withImages Desired.isPlain_withImages
    (fun _ _ hr => absurd hr (by simp [Tables.get?, Tables.table, Table.get?]))
    ⟨rfl, rfl⟩ rfl (congrArg Prod.fst hreport)

end VirtualTopology
