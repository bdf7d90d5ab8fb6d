import VirtualTopology.Proofs.Convergence
import VirtualTopology.Proofs.Host.Looking
import VirtualTopology.Proofs.Prediction
import VirtualTopology.Proofs.Success

/-!
# Idempotence

A second pass changes nothing (`Settings.apply_idempotent`). A host is steady (`Desired.IsSteady`) if
everything that is declared is in line and nothing is stale. Two facts meet there: a success leaves the host
steady (`Desired.Course.isSteady_of_success`), and a pass over a steady host only looks, and calls everything
unchanged (`Desired.peeks_phases`). The second fact goes through the work on each resource once more: each
step that would change something is left out, because what was read is what is declared.
-/

namespace VirtualTopology

/-- The result of a resource that has not changed. -/
def Result.unchanged (kind : ResourceKind) (name : String) : Result :=
  { kind, name, outcome := .unchanged }

open Talk (Peeks)

/-- Tasks and those behind them. -/
theorem Talk.Peeks.gather_append {t : Tables} {ss ts : List (Talk Recorded)} {xs ys : List Result}
    (hs : Peeks t (VirtualTopology.gather ss) (.ok xs)) (ht : Peeks t (VirtualTopology.gather ts) (.ok ys)) :
    Peeks t (VirtualTopology.gather (ss ++ ts)) (.ok (xs ++ ys)) := by
  refine ⟨fun m hm htables => ?_⟩
  obtain ⟨hxs, hlooked⟩ := hs.run m hm htables
  obtain ⟨hys, hlooked'⟩ := ht.run _ (hm.run _) (hlooked.tables_eq.trans htables)
  rw [Memory.run_gather_append, hxs, hys]
  exact ⟨rfl, hlooked.trans hlooked'⟩

/-! ### Resources in line -/

namespace Started

variable {s : Started} {t : Tables}

/-- **A network or pool in line is only looked at.** -/
theorem peeks_sync (h : t.HasStarted s) (hrest : t.AtRest) :
    Peeks t (s.sync false true).run (.ok (.unchanged s.kind.resource s.name, s.active)) := by
  obtain ⟨r, text, hr, htext, hmatch, hactive, hautostart⟩ := h
  have hplan : s.plan true (!documentsMatch text r.document) r.active r.autostart
      = { exists_ := true, define := false, stop := false, start := false, autostart := false } := by
    rw [plan, hmatch, hactive, hautostart]
    cases s.active <;> simp
  rw [sync, htext]
  refine .andThen (a := text) (.pure _) (.andThen (Talk.peeks_read hr) ?_)
  refine .andThen (a := !documentsMatch text r.document) (.pure _) (.skip (by simp [hmatch]) ?_)
  refine .andThen (Talk.peeks_isActive hrest hr) (.andThen (Talk.peeks_isAutostart hr) ?_)
  dsimp only
  rw [hplan]
  refine .skip (by simp) (.skip (by simp) (.skip (by simp) ?_))
  have hreadable : (s.active && (r.active || !false)) = s.active := by simp
  rw [hreadable]
  exact .pure _

end Started

namespace VolumeEntry

variable {e : VolumeEntry} {pool : String} {t : Tables} {r : StoredResource}

/-- **A volume in line is only looked at.** -/
theorem peeks_sync (hr : t.get? .pool pool = some r) (hactive : r.active = true)
    (h : e.InLine (r.volumes.get? e.name)) :
    Peeks t (e.sync false pool (r.volumes.get? e.name).isSome).run (.ok (e.done pool .unchanged)) := by
  unfold sync
  cases hp : e.present with
  | false =>
    rw [h.away hp]
    exact .pure _
  | true =>
    cases hv : e.volume with
    | none => exact .pure _
    | some v =>
      obtain ⟨s, x, hs, hread, hformat, hcapacity⟩ := h.present hp v hv
      rw [hs]
      have hstored : Peeks t (Work.attempt .read (.readVolume pool e.name)).run (.ok s.document) := by
        exact .attempt rfl fun _ => (Work.admits_readVolume hactive hs).serve_self hr
      show Peeks t (e.adjust false pool v).run _
      rw [adjust_eq]
      refine hstored.andThen ?_
      unfold weigh parsed
      simp only [hread, pure_bind, hformat, ne_eq, not_true_eq_false, if_false]
      cases hsize : x.volumeCapacity? with
      | none => exact .pure _
      | some size =>
        simp only [if_pos (hcapacity size hsize)]
        exact .pure _

end VolumeEntry

namespace Pool

variable {p : Pool} {t : Tables} {r : StoredResource}

/-- The results for a pool in line. -/
def steady (p : Pool) : List Result :=
  .unchanged .pool p.name :: p.volumes.map fun e => e.done p.name .unchanged

theorem peeks_syncVolumes (hr : t.get? .pool p.name = some r) (hactive : r.active = true)
    {there : List String} {es : List VolumeEntry}
    (hthere : ∀ e ∈ es, there.contains e.name = (r.volumes.get? e.name).isSome)
    (h : ∀ e ∈ es, e.InLine (r.volumes.get? e.name)) :
    Peeks t (p.syncVolumes false there es) (.ok (es.map fun e => e.done p.name .unchanged)) := by
  induction es with
  | nil => exact .pure _
  | cons e es ih =>
    have hfirst := VolumeEntry.peeks_sync hr hactive (h e (by simp))
    have hrest := ih (fun e' he' => hthere e' (by simp [he'])) fun e' he' => h e' (by simp [he'])
    rw [syncVolumes, hthere e (by simp)]
    exact hfirst.supervise.bind (hrest.bind (.pure _))

/-- **A pool in line whose volumes are in line is only looked at.** -/
theorem peeks_task (hp : p.IsSound) (hrest : t.AtRest) (hstarted : t.HasStarted p.started)
    (h : ∀ r, t.get? .pool p.name = some r → ∀ e ∈ p.volumes, e.InLine (r.volumes.get? e.name)) :
    Peeks t (p.task false true) (.ok p.steady) := by
  refine (Started.peeks_sync hstarted hrest).supervise.bind ?_
  obtain ⟨r, text, hthere, -, -, hactive, -⟩ := hstarted
  have hr : t.get? .pool p.name = some r := hthere
  show Peeks t (p.syncContents false p.active >>= fun rs => pure (rs.map (.unchanged .pool p.name :: ·))) _
  refine Peeks.bind (a := .ok (p.volumes.map fun e => e.done p.name .unchanged)) ?_ (.pure _)
  unfold syncContents
  by_cases hempty : p.volumes = []
  · rw [hempty]
    exact .pure _
  · have hrunning : r.active = true := hactive.trans (hp.active hempty)
    rw [if_neg (by simpa using hempty), if_pos (hp.active hempty)]
    have hlist : Peeks t (Call.listVolumes p.name).ask
        (.ok (r.volumes.names.mergeSort fun a b => decide (a ≤ b))) := by
      exact .call rfl fun _ => (Work.admits_listVolumes hrunning).serve_self hr
    refine hlist.bind (peeks_syncVolumes hr hrunning (fun e _ => ?_) (h r hr))
    rw [Bool.eq_iff_iff, List.contains_iff_mem, List.mem_mergeSort]
    exact Table.mem_names_iff

end Pool

/-- Whether a domain is stored as declared: its document matches, and it is on or off if that is declared. -/
def Tables.HasSteady (t : Tables) (x : Domain) : Prop :=
  ∃ r text, t.get? .domain x.name = some r ∧ x.written = .ok text ∧
    documentsMatch text r.document = true ∧ ∀ on, x.active = some on → r.active = on

namespace Domain

variable {d : Domain} {t : Tables}

/-- **A domain in line is only looked at**, unless it is to be restarted in any case. -/
theorem peeks_sync (h : t.HasSteady d) (hrest : t.AtRest) (hrestart : d.restart ≠ some true)
    (timeout : Binary64) :
    Peeks t (d.sync false timeout true).run (.ok (.unchanged .domain d.name)) := by
  obtain ⟨r, text, hr, htext, hmatch, hpower⟩ := h
  have hstore : Peeks t (d.store false true).run (.ok (.unchanged, [])) := by
    unfold store
    rw [htext]
    refine .andThen (a := text) (.pure _) ((Talk.peeks_read hr).andThen ?_)
    simp only [hmatch, if_true]
    exact .pure _
  -- the power is as declared and nothing was updated, so nothing has to be done about it
  have hquiet : ∀ running, (d.active.isSome = true → running = r.active) →
      d.power false timeout .unchanged running = pure [] := by
    intro running hrunning
    have hwants : d.wantsRestart .unchanged = false := by
      unfold wantsRestart
      match hr : d.restart with
      | some true => exact absurd hr hrestart
      | some false => rfl
      | none => simp
    unfold power
    simp only [hwants, Bool.and_false, Bool.false_eq_true, if_false]
    cases hactive : d.active with
    | none => simp
    | some on =>
      rw [hrunning (by rw [hactive]; rfl), hpower on hactive]
      cases on <;> simp
  rw [sync_eq]
  refine hstore.andThen ?_
  unfold finish
  dsimp only
  split
  · refine (Talk.peeks_isActive hrest hr).andThen ?_
    rw [hquiet _ fun _ => rfl]
    exact .pure _
  · next hlook =>
    refine .andThen (a := false) (.pure _) ?_
    rw [hquiet _ fun hactive => absurd hactive (by simp_all)]
    exact .pure _

/-- Nothing is blamed if nothing has failed. -/
theorem isEmpty_failedDependencies (d : Domain) {before : List Result}
    (hbefore : ∀ x ∈ before, x.outcome ≠ .failed) : (d.failedDependencies before).isEmpty = true := by
  have hnone : ∀ kind, hasFailed before kind = fun _ => false := fun kind => funext fun name => by
    rw [hasFailed, List.any_eq_false]
    intro x hx
    simp [hbefore x hx]
  simp [failedDependencies, hnone]

theorem peeks_task (h : t.HasSteady d) (hrest : t.AtRest) (hrestart : d.restart ≠ some true)
    (timeout : Binary64) {before : List Result} (hbefore : ∀ x ∈ before, x.outcome ≠ .failed) :
    Peeks t (d.task false timeout before true) (.ok [.unchanged .domain d.name]) := by
  unfold task
  dsimp only
  rw [if_pos (d.isEmpty_failedDependencies hbefore)]
  exact (peeks_sync h hrest hrestart timeout).record

end Domain

/-! ### Steady hosts -/

/-- Whether each guest that is asked to shut down is off at once. -/
def Memory.HonoursShutdown (m : Memory) : Prop := ∀ name, (m.polls.get? name).getD 0 = 0

theorem Memory.HonoursShutdown.isPrompt {m : Memory} (h : m.HonoursShutdown) : m.IsPrompt :=
  fun name => Int.le_of_eq (h name)

/-- Whether everything that is declared is in line and nothing is stale. -/
structure Desired.IsSteady (d : Desired) (t : Tables) : Prop where
  rest : t.AtRest
  networks : ∀ n ∈ d.networks.items, t.HasStarted n.started
  pools : ∀ p ∈ d.pools.items, t.HasStarted p.started
  volumes : ∀ p ∈ d.pools.items, ∀ r, t.get? .pool p.name = some r →
    ∀ e ∈ p.volumes, e.InLine (r.volumes.get? e.name)
  domains : ∀ x ∈ d.domains.items, t.HasSteady x
  settled : ∀ k name, ¬ d.IsStale t k name

namespace Stock

variable {t : Tables} {kind : DefinedKind}

theorem peeks_take (t : Tables) (kind : DefinedKind) (managed : Bool) :
    Peeks t (take kind managed) (inTables t kind managed) := by
  have hlist : Peeks t (Call.list kind).ask (.ok (t.sortedNames kind)) := .call rfl fun _ => rfl
  cases managed with
  | true => exact hlist.bind (.pure _)
  | false => exact hlist.bind (.pure _)

/-- What is told of a kind if all that is declared of it is in line. -/
def steady {α : Type} (t : Tables) (kind : DefinedKind) (declared : Declared α) (told : α → List Result) :
    List Result :=
  if declared.isManaged then declared.items.flatMap told
  else (t.sortedNames kind).map fun name =>
    { kind := kind.resource, name, outcome := .skippedUnmanaged }

theorem peeks_tasks {α : Type} {declared : Declared α} {name : α → String} {lost : α → List Result}
    {task : α → Bool → Talk Recorded} {told : α → List Result}
    (hthere : ∀ a ∈ declared.items, (t.get? kind (name a)).isSome = true)
    (htask : ∀ a ∈ declared.items, Peeks t (task a true) (.ok (told a))) :
    Peeks t (gather ((inTables t kind declared.isManaged).tasks kind declared.items name lost task))
      (.ok (steady t kind declared told)) := by
  unfold inTables steady
  cases declared.isManaged with
  | true =>
    simp only [if_true, tasks_known]
    exact .gather fun a ha => by
      rw [hthere a ha]
      exact htask a ha
  | false =>
    have hgather : Peeks t (gather ([()].map fun _ => pure (.ok ((t.sortedNames kind).map fun name =>
        ({ kind := kind.resource, name, outcome := .skippedUnmanaged } : Result))))) _ :=
      .gather fun _ _ => .pure _
    simpa [tasks] using hgather

/-- Nothing is stale of a kind if all that is there of it is declared. -/
theorem stale_inTables {managed : Bool} {declared : List String}
    (h : managed = true → ∀ name, (t.get? kind name).isSome = true → name ∈ declared) :
    (inTables t kind managed).stale declared = [] := by
  rw [List.eq_nil_iff_forall_not_mem]
  intro name hname
  cases managed with
  | true =>
    obtain ⟨hthere, hundeclared⟩ := mem_stale_iff.1 hname
    exact hundeclared (h rfl name (Tables.mem_sortedNames_iff.1 hthere))
  | false => exact absurd hname (by simp [inTables, stale])

theorem outcome_of_steady {α : Type} {declared : Declared α} {told : α → List Result}
    (htold : ∀ a ∈ declared.items, ∀ x ∈ told a, x.outcome = .unchanged) {x : Result}
    (hx : x ∈ steady t kind declared told) : x.outcome = .unchanged ∨
      x.outcome = .skippedUnmanaged ∧ x.kind = kind.resource ∧ declared.isManaged = false := by
  unfold steady at hx
  split at hx
  · obtain ⟨a, ha, hx⟩ := List.mem_flatMap.1 hx
    exact .inl (htold a ha x hx)
  · next hmanaged =>
    obtain ⟨name, -, rfl⟩ := List.mem_map.1 hx
    exact .inr ⟨rfl, rfl, by simpa using hmanaged⟩

theorem mem_steady {α : Type} {declared : Declared α} {told : α → List Result} {a : α}
    (ha : a ∈ declared.items) {x : Result} (hx : x ∈ told a) : x ∈ steady t kind declared told := by
  rw [steady, if_pos (Declared.isManaged_of_mem ha)]
  exact List.mem_flatMap.2 ⟨a, ha, hx⟩

end Stock

namespace Desired

variable {d : Desired} {t : Tables}

/-- What is told about networks and pools on a steady host. -/
def steadyBefore (d : Desired) (t : Tables) : List Result :=
  Stock.steady t .network d.networks (fun n => [.unchanged .network n.name]) ++
    Stock.steady t .pool d.pools Pool.steady

/-- What is told on a steady host. -/
def steadyResults (d : Desired) (t : Tables) : List Result :=
  d.steadyBefore t ++ Stock.steady t .domain d.domains fun x => [.unchanged .domain x.name]

theorem outcome_of_steadyPools {p : Pool} : ∀ x ∈ p.steady, x.outcome = .unchanged := by
  simp only [Pool.steady, List.forall_mem_cons, List.forall_mem_map]
  exact ⟨rfl, fun _ _ => rfl⟩

/-- **On a steady host everything is unchanged**, apart from what is unmanaged. -/
theorem outcome_of_steadyResults {x : Result} (hx : x ∈ d.steadyResults t) : x.outcome = .unchanged ∨
    x.outcome = .skippedUnmanaged ∧ ∃ k : DefinedKind, x.kind = k.resource ∧ d.manages k = false := by
  have hone : ∀ {y z : Result}, y.outcome = .unchanged → z ∈ [y] → z.outcome = .unchanged :=
    fun hy hz => List.mem_singleton.1 hz ▸ hy
  rcases List.mem_append.1 hx with hx | hx
  · rcases List.mem_append.1 hx with hx | hx
    · exact (Stock.outcome_of_steady (fun _ _ _ => hone rfl) hx).imp id
        fun ⟨ho, hk, hm⟩ => ⟨ho, .network, hk, hm⟩
    · exact (Stock.outcome_of_steady (fun _ _ => outcome_of_steadyPools) hx).imp id
        fun ⟨ho, hk, hm⟩ => ⟨ho, .pool, hk, hm⟩
  · exact (Stock.outcome_of_steady (fun _ _ _ => hone rfl) hx).imp id
      fun ⟨ho, hk, hm⟩ => ⟨ho, .domain, hk, hm⟩

/-- On a steady host something is told of everything that is declared. -/
theorem exists_steadyResult (t : Tables) {kind : ResourceKind} {name : String} (h : d.Declares kind name) :
    ∃ x ∈ d.steadyResults t, x.isAbout kind name = true := by
  have hunchanged : ∀ k n, (Result.unchanged k n).isAbout k n = true := by simp [Result.isAbout_iff, Result.unchanged]
  cases kind with
  | network =>
    obtain ⟨n, hn, rfl⟩ := List.mem_map.1 h
    exact ⟨_, List.mem_append_left _ (List.mem_append_left _ (Stock.mem_steady hn (by simp))), hunchanged _ _⟩
  | pool =>
    obtain ⟨p, hp, rfl⟩ := List.mem_map.1 h
    exact ⟨_, List.mem_append_left _ (List.mem_append_right _
      (Stock.mem_steady hp List.mem_cons_self)), hunchanged _ _⟩
  | volume =>
    obtain ⟨p, hp, e, he, rfl⟩ := h
    exact ⟨e.done p.name .unchanged, List.mem_append_left _ (List.mem_append_right _ (Stock.mem_steady hp
      (List.mem_cons_of_mem _ (List.mem_map.2 ⟨e, he, rfl⟩)))), Result.isAbout_iff.2 ⟨rfl, rfl⟩⟩
  | domain =>
    obtain ⟨x, hx, rfl⟩ := List.mem_map.1 h
    exact ⟨_, List.mem_append_right _ (Stock.mem_steady hx (by simp)), hunchanged _ _⟩

/-- **A pass over a steady host only looks.** -/
theorem peeks_phases (h : d.IsSteady t) (hsound : ∀ p ∈ d.pools.items, p.IsSound)
    (hrestart : ∀ x ∈ d.domains.items, x.restart ≠ some true) (timeout : Binary64) :
    Peeks t (d.phases false timeout) (.ok (d.steadyResults t)) := by
  have hstarted : ∀ {s : Started}, t.HasStarted s → (t.get? s.kind s.name).isSome = true := by
    rintro s ⟨r, text, hr, -⟩
    rw [hr]
    rfl
  -- on a steady host nothing is stale
  have hstale : ∀ (k : DefinedKind), (Stock.inTables t k (d.manages k)).stale (d.names k) = [] :=
    fun k => Stock.stale_inTables fun hmanaged name hthere =>
      Classical.byContradiction fun hundeclared => h.settled k name ⟨hmanaged, hthere, hundeclared⟩
  have hnetworks : Peeks t (gather ((Stock.inTables t .network d.networks.isManaged).tasks .network
      d.networks.items (·.name) (fun _ => []) fun n => n.task false))
        (.ok (Stock.steady t .network d.networks fun n => [.unchanged .network n.name])) := by
    refine Stock.peeks_tasks (fun n hn => hstarted (h.networks n hn)) fun n hn => ?_
    have hwork : Peeks t ((·.1) <$> n.started.sync false true : Work Result).run
        (.ok (.unchanged .network n.name)) := by
      rw [← bind_pure_comp]
      exact (Started.peeks_sync (h.networks n hn) h.rest).andThen (.pure _)
    exact hwork.record
  have hpools : Peeks t (gather ((Stock.inTables t .pool d.pools.isManaged).tasks .pool
      d.pools.items (·.name) Pool.volumesLost fun p => p.task false))
        (.ok (Stock.steady t .pool d.pools Pool.steady)) :=
    Stock.peeks_tasks (fun p hp => hstarted (h.pools p hp)) fun p hp =>
      Pool.peeks_task (hsound p hp) h.rest (h.pools p hp) (h.volumes p hp)
  have hdomains : Peeks t (gather ((Stock.inTables t .domain d.domains.isManaged).tasks .domain
      d.domains.items (·.name) (fun _ => []) fun x => x.task false timeout (d.steadyBefore t)))
        (.ok (Stock.steady t .domain d.domains fun x => [.unchanged .domain x.name])) := by
    refine Stock.peeks_tasks (fun x hx => ?_) fun x hx => ?_
    · obtain ⟨r, text, hr, -⟩ := h.domains x hx
      rw [hr]
      rfl
    · refine Domain.peeks_task (h.domains x hx) h.rest (hrestart x hx) timeout fun y hy => ?_
      rcases outcome_of_steadyResults (d := d) (List.mem_append_left _ hy) with ho | ⟨ho, -⟩ <;> simp [ho]
  have hfirst : Peeks t (d.networksAndPools false) (.ok (d.steadyBefore t), [], []) := by
    refine (Stock.peeks_take t _ _).bind ((Stock.peeks_take t _ _).bind ?_)
    refine (hnetworks.gather_append hpools).bind ?_
    show Peeks t (pure (_, (Stock.inTables t .network (d.manages .network)).stale (d.names .network),
      (Stock.inTables t .pool (d.manages .pool)).stale (d.names .pool))) _
    rw [hstale, hstale]
    exact .pure _
  have hsecond : Peeks t (d.domainsInLine false timeout (d.steadyBefore t))
      (.ok (Stock.steady t .domain d.domains fun x => [.unchanged .domain x.name]), []) := by
    refine (Stock.peeks_take t _ _).bind (hdomains.bind ?_)
    show Peeks t (pure (_, (Stock.inTables t .domain (d.manages .domain)).stale (d.names .domain))) _
    rw [hstale]
    exact .pure _
  -- so there is nothing to remove in the other two phases
  refine hfirst.bind (hsecond.bind ?_)
  refine (Peeks.pure (Except.ok [])).bind ((Peeks.pure (Except.ok [])).bind ?_)
  have hall : d.steadyBefore t ++ (Stock.steady t .domain d.domains fun x => [.unchanged .domain x.name]) ++
      [] ++ [] = d.steadyResults t := by
    rw [List.append_nil, List.append_nil, steadyResults]
  rw [← hall]
  exact .pure _

/-! ### From success to a steady host -/

namespace Course

variable {timeout : Binary64} {m : Memory} (c : Course d false timeout m)

/-- **A success leaves a host steady.** -/
theorem isSteady_of_success (hcalm : m.Calm) (hplain : d.IsPlain) (hvalid : d.Validates)
    (hrest : c.final.tables.AtRest) (hhonours : m.HonoursShutdown)
    (hsuccess : ∀ x ∈ c.results, x.outcome ≠ .failed) : d.IsSteady c.final.tables := by
  have hm := hcalm.uncancelled
  -- nothing failed, so each declared resource has become what its task leads to, and that is steady
  refine ⟨hrest, fun n hn => ?_, fun p hp => ?_, fun p hp r hr e he => ?_, fun y hy => ?_, ?_⟩
  · obtain ⟨x, hsole, -, -, hfailed | ⟨-, hentry⟩⟩ := c.network hm hplain hvalid hn
    · exact absurd hfailed (hsuccess x hsole.1)
    · exact Started.hasStarted_settled (Network.started_text (hplain.network hn))
        (Network.legible (hplain.network hn)).documentsMatch_print hentry (.refl [] _)
  · obtain ⟨x, xs, hsole, -, -, -, ⟨hfailed, -⟩ | ⟨-, r, hr, hsettled, -⟩⟩ := c.pool hm hplain hvalid hp
    · exact absurd hfailed (hsuccess x hsole.1)
    · exact Started.hasStarted_settled (Pool.started_text (hvalid.pool_isSound hplain hp))
        (Pool.legible (hplain.pool hp)).documentsMatch_print hr hsettled
  · obtain ⟨x, xs, -, -, -, hxs, hfills⟩ := c.pool hm hplain hvalid hp
    obtain ⟨y, hy, -, -, hfailed | ⟨r', hr', hcomes⟩⟩ := hfills.volume he
    · exact absurd hfailed (hsuccess y (hxs y hy))
    · obtain rfl := Option.some.inj (hr.symm.trans hr')
      exact hcomes.inLine ((hvalid.pool_isSound hplain hp).sound e he)
  · obtain ⟨x, hsole, -, -, hfailed | ⟨htext, -, hentry⟩⟩ := c.domain hm hplain hvalid hy
    · exact absurd hfailed (hsuccess x hsole.1)
    · refine ⟨_, _, hentry, htext, Domain.documentsMatch_settled y _ _ _
        (Domain.legible (hplain.domain hy)).documentsMatch_print, fun on hon => ?_⟩
      have hpower := Domain.hasPower_settled y y.document.print ((m.polls.get? y.name).getD 0)
        (m.tables.get? .domain y.name)
      rw [hon, hhonours y.name] at hpower
      rw [hhonours y.name]
      cases on with
      | true => exact hpower
      | false =>
        rcases hpower with hoff | hless | ⟨hless, -⟩
        · exact hoff
        · exact absurd hless (by simp)
        · exact absurd hless (by simp)
  · rintro k name ⟨hmanaged, hthere, hundeclared⟩
    by_cases hstale : name ∈ c.stale k
    · rw [c.eq_none_of_success hm hplain hvalid hsuccess hstale] at hthere
      exact absurd hthere (by simp)
    · rw [c.untouched hplain hvalid hundeclared hstale] at hthere
      exact hstale ((c.mem_stale_iff hcalm hplain hvalid).2 ⟨hmanaged, hthere, hundeclared⟩)

end Course

end Desired

/-- What is declared is of a managed kind. -/
theorem Desired.Declares.manages {d : Desired} {k : DefinedKind} {name : String}
    (h : d.Declares k.resource name) : d.manages k = true := by
  cases k with
  | network =>
    obtain ⟨n, hn, -⟩ := List.mem_map.1 h
    exact Declared.isManaged_of_mem hn
  | pool =>
    obtain ⟨p, hp, -⟩ := List.mem_map.1 h
    exact Declared.isManaged_of_mem hp
  | domain =>
    obtain ⟨x, hx, -⟩ := List.mem_map.1 h
    exact Declared.isManaged_of_mem hx

/-- A pass that reports a success leaves a host steady. -/
theorem Settings.isSteady_of_success {s : Settings} {d : Desired} {dryRun : Option Bool} {m : Memory}
    {report : Report} (hvalid : d.Validates) (hplain : d.IsPlain) (hcalm : m.Calm)
    (hrest : m.tables.AtRest) (hhonours : m.HonoursShutdown) (hreal : s.isDry dryRun = false)
    (hreport : (m.run (s.apply d dryRun)).1 = .ok report) (hsuccess : report.success = true) :
    d.IsSteady (m.run (s.apply d dryRun)).2.tables := by
  have hrest' := (Memory.Quiet.run ⟨hrest, hhonours.isPrompt⟩ (s.apply d dryRun)).rest
  obtain ⟨c, rfl, hfinal⟩ := exists_course hreport
  rw [← hfinal] at hrest' ⊢
  clear hreport hfinal
  revert c
  rw [hreal]
  intro c hrest' hsuccess
  refine c.isSteady_of_success hcalm hplain hvalid hrest' hhonours fun x hx hfailed => ?_
  have hgood := Report.success_of_iff.1 hsuccess x hx
  rw [hfailed] at hgood
  exact absurd hgood (by simp [Outcome.isSuccess])

/-- **A second pass changes nothing.** On a host without disruptions whose guests turn off when they are asked
to, let a real pass report a success. Then a second pass reports, too, and only looks at the host: it makes no
call but reading ones, and leaves the tables as they are. Its report calls everything that is declared
unchanged, and nothing else is in it but what is unmanaged. -/
theorem Settings.apply_idempotent {s : Settings} {d : Desired} {dryRun : Option Bool} {m : Memory}
    {report : Report} (hvalid : d.Validates) (hplain : d.IsPlain)
    (hrestart : ∀ x ∈ d.domains.items, x.restart ≠ some true) (hcalm : m.Calm) (hrest : m.tables.AtRest)
    (hhonours : m.HonoursShutdown) (hreal : s.isDry dryRun = false)
    (hreport : (m.run (s.apply d dryRun)).1 = .ok report) (hsuccess : report.success = true) :
    ∃ again, ((m.run (s.apply d dryRun)).2.run (s.apply d dryRun)).1 = .ok again ∧
      (m.run (s.apply d dryRun)).2.Looked ((m.run (s.apply d dryRun)).2.run (s.apply d dryRun)).2 ∧
      (∀ x ∈ again.results, x.outcome = .unchanged ∨ x.outcome = .skippedUnmanaged) ∧
      ∀ kind name, d.Declares kind name →
        again.about kind name ≠ [] ∧ ∀ x ∈ again.about kind name, x.outcome = .unchanged := by
  have hsteady := isSteady_of_success hvalid hplain hcalm hrest hhonours hreal hreport hsuccess
  have hcalm' := hcalm.run (s.apply d dryRun)
  generalize (m.run (s.apply d dryRun)).2 = n at hsteady hcalm' ⊢
  obtain ⟨hresults, hlooked⟩ := (Desired.peeks_phases hsteady (fun p hp => hvalid.pool_isSound hplain hp)
    hrestart s.pass.shutdownTimeout).run n hcalm' rfl
  rw [← hreal] at hresults hlooked
  have hrun := run_apply_of_phases hvalid (Prod.ext hresults rfl)
  rw [hrun]
  refine ⟨_, rfl, hlooked, fun x hx => ?_, fun kind name hdeclared => ?_⟩
  · exact (Desired.outcome_of_steadyResults (Report.mem_of.1 hx)).imp id And.left
  · rw [Report.about_of]
    obtain ⟨x, hx, habout⟩ := Desired.exists_steadyResult n.tables hdeclared
    refine ⟨List.ne_nil_of_mem (List.mem_filter.2 ⟨hx, habout⟩), fun y hy => ?_⟩
    obtain ⟨hy, habout⟩ := List.mem_filter.1 hy
    rcases Desired.outcome_of_steadyResults hy with hsame | ⟨-, k, hkind, hunmanaged⟩
    · exact hsame
    · -- what is unmanaged is not declared
      rw [← (Result.isAbout_iff.1 habout).1, hkind] at hdeclared
      exact absurd hunmanaged (by rw [hdeclared.manages]; simp)

/-- On an empty host the pass that makes a domain is a success. -/
theorem Settings.success_withMachine :
    ∃ report, (({} : Memory).run (({} : Settings).apply .withMachine)).1 = .ok report ∧
      report.success = true := by
  have hcalm : ({} : Memory).Calm := ⟨rfl, rfl, rfl⟩
  have hvalid := Desired.validates_withMachine
  have hplain := Desired.isPlain_withMachine
  have hfirst : (({} : Memory).run (Desired.withMachine.networksAndPools false)).1.1 = .ok [] := by
    decide +kernel
  obtain ⟨rs, hrs⟩ := Desired.exists_run_phases (d := .withMachine) hcalm.uncancelled false
    ({} : Settings).pass.shutdownTimeout (fun x hx => by
      obtain rfl := List.mem_singleton.1 hx
      exact Domain.written_vm) ⟨[], hfirst⟩
  obtain ⟨c, rfl, -⟩ := Desired.exists_course hrs
  refine ⟨_, apply_eq_ok_of_phases hvalid hrs, Report.success_of_iff.2 fun x hx => ?_⟩
  -- nothing is there, so nothing is stale, and the domain has nothing to depend on
  rcases c.declared_or_stale hx with hx | ⟨k, -, hstale⟩
  · rw [c.run_networksAndPools] at hfirst
    rw [Desired.Course.declared, Except.ok.inj hfirst, List.nil_append] at hx
    obtain ⟨hkind, hdeclared | hunmanaged⟩ := c.about_domains hplain hx
    · obtain ⟨y, hy, hname⟩ := List.mem_map.1 hdeclared
      obtain ⟨x', hsole, hkind', hname', ⟨-, hblamed, -⟩ | ⟨hverdict, -⟩⟩ :=
        c.domain_of_calm hcalm hplain hvalid hy
      · rw [Except.ok.inj hfirst] at hblamed
        exact absurd hblamed (by simp [y.isEmpty_failedDependencies])
      · obtain rfl := hsole.2 x hx (hkind.trans hkind'.symm) (hname.symm.trans hname'.symm)
        have hcases := y.verdict_cases y.document.print (({} : Memory).tables.get? .domain y.name)
        rw [← hverdict] at hcases
        revert hcases
        cases x.outcome <;> simp [Outcome.isSuccess]
    · exact absurd hunmanaged (by simp [Desired.manages, Desired.withMachine, Declared.isManaged])
  · obtain ⟨-, hthere, -⟩ := c.mem_stale hplain hvalid hstale
    exact absurd hthere (by cases k <;> simp [Tables.get?, Tables.table])

/-- A domain that has been made is unchanged in the second pass. -/
theorem Settings.apply_idempotent_withMachine :
    ∃ report again, (({} : Memory).run (({} : Settings).apply .withMachine)).1 = .ok report ∧
      report.success = true ∧
      ((({} : Memory).run (({} : Settings).apply .withMachine)).2.run
        (({} : Settings).apply .withMachine)).1 = .ok again ∧
      again.about .domain "vm" ≠ [] ∧ ∀ x ∈ again.about .domain "vm", x.outcome = .unchanged := by
  obtain ⟨report, hreport, hsuccess⟩ := success_withMachine
  obtain ⟨again, hagain, -, -, hunchanged⟩ := apply_idempotent Desired.validates_withMachine
    Desired.isPlain_withMachine (by decide) ⟨rfl, rfl, rfl⟩
    (fun k name r hr => absurd hr (by cases k <;> simp [Tables.get?, Tables.table])) (fun _ => rfl) rfl
    hreport hsuccess
  exact ⟨report, again, hreport, hsuccess, hagain, hunchanged .domain "vm"
    (List.mem_map.2 ⟨.vm, List.mem_singleton.2 rfl, rfl⟩)⟩

end VirtualTopology
