import VirtualTopology.Proofs.Pass.Gather
import VirtualTopology.Proofs.Pass.Started
import VirtualTopology.Proofs.Pass.Volumes

/-!
# Tasks for networks and pools

A task whose pass is not cancelled gives results for its resource only. If the result of the resource is
not a failure, the resource is in line, whatever failed around it (`Network.run_task`, `Pool.run_task`);
and so is each volume of a pool whose result is not a failure.
-/

namespace VirtualTopology

open Dialogue

/-! ### Work that is recorded -/

/-- Recorded work gives one result, or it could not be written. -/
theorem Ending.recorded_of_eq_ok {kind : ResourceKind} {name : String} {a : Except Trouble Result}
    {rs : List Result} (h : (Ending.of kind name a).recorded = .ok rs) :
    (∃ x, a = .ok x ∧ rs = [x]) ∨
      ∃ op reason fk, rs = [.stuck kind name op reason fk] := by
  match a with
  | .ok x => exact .inl ⟨x, rfl, (Except.ok.inj h).symm⟩
  | .error (.failed op reason fk) => exact .inr ⟨op, reason, fk, (Except.ok.inj h).symm⟩
  | .error (.unwritable why) => exact absurd h (by simp [of, recorded])

/-- The results of a supervised resource are about the resource. -/
theorem Frank.confined_recorded {p : Call → Prop} {kind : ResourceKind} {name : String}
    {w : Work Result} (h : Frank p (fun x => x.kind = kind ∧ x.name = name) w.run) :
    (do let ending ← supervise kind name w; return ending.recorded : Talk Recorded).Confined
      (Query.CallsOnly p) (Recorded.All fun x => x.kind = kind ∧ x.name = name) := by
  refine h.confined_supervise.bind fun ending hending => Confined.pure ?_
  rcases hending with ⟨a, rfl, ha⟩ | ⟨op, reason, fk, rfl⟩ | rfl | ⟨why, rfl⟩
  · exact (Recorded.all_ok_iff [a]).2 (by simpa using ha)
  · exact (Recorded.all_ok_iff _).2 (by simp [Result.stuck, Result.failure])
  · exact (Recorded.all_ok_iff _).2 (by simp [Result.cancelled])
  · exact fun rs hrs => absurd hrs (by simp [Ending.recorded])

/-! ### Networks -/

namespace Network

variable {n : Network}

@[simp] theorem started_kind : n.started.kind = .network := rfl

@[simp] theorem started_name : n.started.name = n.name := rfl

@[simp] theorem started_active : n.started.active = n.active := rfl

@[simp] theorem started_autostart : n.started.autostart = n.autostart := rfl

/-- The work on a network makes the calls of a resource that is started, and its result is about the network. -/
theorem frank_makes (n : Network) (dry exists_ : Bool) :
    Frank (n.started.Makes dry) (fun x => x.kind = .network ∧ x.name = n.name)
      ((·.1) <$> n.started.sync dry exists_ : Work Result).run := by
  rw [map_eq_pure_bind]
  refine (n.started.frank_makes dry exists_).bind ?_
  rintro x ⟨⟨p, hx⟩, -⟩
  exact .pure (by rw [hx]; exact ⟨rfl, rfl⟩)

/-- The task for a network makes the calls of a resource that is started, and its results are about the
network. -/
theorem confined_makes (n : Network) (dry exists_ : Bool) :
    (n.task dry exists_).Confined (Query.CallsOnly (n.started.Makes dry))
      (Recorded.All fun x => x.kind = .network ∧ x.name = n.name) :=
  (n.frank_makes dry exists_).confined_recorded

variable (h : Text.ArePlain n.texts)

include h

theorem started_text : n.started.text = .ok n.document.print := written_eq h

/-- The document of a network has its name. -/
theorem nameInDocument_of_started {text : String} (htext : n.started.text = .ok text) :
    nameInDocument text = n.name := by
  rw [started_text h] at htext
  rw [← Except.ok.inj htext]
  exact nameInDocument_written h

theorem isProper_of_makes {dry : Bool} {c : Call} (hc : n.started.Makes dry c) :
    c.IsProper dry .network n.name := hc.isProper fun _ => nameInDocument_of_started h

theorem frank_sync (dry exists_ : Bool) :
    Frank (Call.IsProper dry .network n.name) (fun _ => True)
      ((·.1) <$> n.started.sync dry exists_ : Work Result).run := by
  rw [map_eq_pure_bind]
  exact ((n.started.frank_makes dry exists_).mono (fun _ => isProper_of_makes h) fun _ => id).bind
    fun _ _ => .pure trivial

/-- The task for a network asks about the network only, and so are its results. -/
theorem confined_task (dry exists_ : Bool) :
    (n.task dry exists_).Confined (Query.CallsOnly (Call.IsProper dry .network n.name))
      (Recorded.All fun x => x.kind = .network ∧ x.name = n.name) :=
  (n.confined_makes dry exists_).mono (fun _ hq => hq.mono fun _ => isProper_of_makes h) fun _ => id

theorem ends_sync {polls : Table Int} (t : Tables) (dry : Bool) :
    Talk.Ends polls t ((·.1) <$> n.started.sync dry (t.get? .network n.name).isSome).run fun a u =>
      a = .ok (n.started.reported n.document.print (t.get? .network n.name)) ∧
      u.get? .network n.name =
        if dry then (t.get? .network n.name).map (·.seen)
        else some (n.started.settled n.document.print (t.get? .network n.name)) := by
  rw [map_eq_pure_bind]
  refine Talk.Ends.andThen (Started.ends_sync (s := n.started) (by simp [started]) (started_text h)
    (nameInDocument_written h) t dry) ?_ fun _ _ ⟨he, _⟩ => absurd he (by simp)
  rintro a u ⟨ha, hu⟩
  rw [Except.ok.inj ha]
  exact Talk.Ends.pure ⟨rfl, hu⟩

/-- **A network whose result is not a failure is in line**, whatever failed around it. -/
theorem run_task {m : Memory} (hm : m.Uncancelled) {rs : List Result}
    (hrs : (m.run (n.task false (m.tables.get? .network n.name).isSome)).1 = .ok rs) :
    ∃ x, rs = [x] ∧ x.kind = .network ∧ x.name = n.name ∧
      (x.outcome = .failed ∨
        x = n.started.reported n.document.print (m.tables.get? .network n.name) ∧
        (m.run (n.task false (m.tables.get? .network n.name).isSome)).2.tables.get? .network n.name
          = some (n.started.settled n.document.print (m.tables.get? .network n.name))) := by
  simp only [task, Memory.run_bind, hm.run_supervise, Memory.run_pure] at hrs ⊢
  rcases Ending.recorded_of_eq_ok hrs with ⟨x, hx, rfl⟩ | ⟨op, reason, fk, rfl⟩
  · have hend := (frank_sync h false _).holds_of_run_eq_ok hx (ends_sync h m.tables false)
    obtain ⟨heq, htables⟩ := hend
    obtain rfl := Except.ok.inj heq
    have hcases := Started.reported_cases n.started n.document.print (m.tables.get? .network n.name)
    exact ⟨_, rfl, hcases.1, hcases.2.1, .inr ⟨rfl, htables⟩⟩
  · exact ⟨_, rfl, rfl, rfl, .inl rfl⟩

end Network

/-! ### Volumes of a pool -/

/-- Whether a pool has plain texts and lists each volume once, and runs if it lists any. -/
structure Pool.IsSound (p : Pool) : Prop where
  plain : Text.ArePlain p.texts
  sound : ∀ e ∈ p.volumes, e.IsSound
  names : (p.volumes.map (·.name)).Nodup
  active : p.volumes ≠ [] → p.active = true

namespace Pool

variable {p : Pool}

/-- A volume of a pool with what became of it: a failure, or what the work on it comes to. -/
def Tells (p : Pool) (r r' : StoredResource) (rs : List Result) (e : VolumeEntry) : Prop :=
  ∃ y ∈ rs, y.kind = .volume ∧ y.name = e.label p.name ∧
    (y.outcome = .failed ∨
      e.Comes p.name (r.volumes.get? e.name) (.ok y) (r'.volumes.get? e.name))

/-- **Volumes whose results are not failures are in line**, whatever failed around them. -/
theorem run_syncVolumes {es : List VolumeEntry} (hsound : ∀ e ∈ es, e.IsSound)
    (hnames : (es.map (·.name)).Nodup) {there : List String} {m : Memory} (hm : m.Uncancelled)
    {r : StoredResource} (hr : m.tables.get? .pool p.name = some r) (hactive : r.active = true)
    (hthere : ∀ e ∈ es, there.contains e.name = (r.volumes.get? e.name).isSome) {rs : List Result}
    (hrs : (m.run (p.syncVolumes false there es)).1 = .ok rs) :
    ∃ r', (m.run (p.syncVolumes false there es)).2.tables.get? .pool p.name = some r' ∧
      r.AgreeBut (es.map (·.name)) r' ∧ ∀ e ∈ es, p.Tells r r' rs e := by
  induction es generalizing m r rs with
  | nil => exact ⟨r, hr, .refl [] r, by simp⟩
  | cons e es ih =>
    rw [List.map_cons, List.nodup_cons] at hnames
    have hne : ∀ e' ∈ es, e'.name ≠ e.name := fun e' he' heq =>
      hnames.1 (List.mem_map.2 ⟨e', he', heq⟩)
    have he := hsound e (by simp)
    simp only [syncVolumes, hthere e (by simp), Memory.run_bind, hm.run_supervise] at hrs ⊢
    -- what the work on this volume does to the pool
    have hfrank := e.frank_sync he false p.name (r.volumes.get? e.name).isSome
    obtain ⟨r₁, hr₁, hagree⟩ := Memory.run_isWithin (hfrank.confined.mono
      (fun q hq => hq.mono fun c hc => hc.1) fun _ => id) hr
    obtain ⟨a, s', hcomes, hdoes, -⟩ := VolumeEntry.exists_comes he p.name (r.volumes.get? e.name)
    generalize hw : m.run (e.sync false p.name (r.volumes.get? e.name).isSome).run = run at *
    cases hrecorded : (Ending.of .volume (e.label p.name) run.1).recorded with
    | error why =>
      rw [hrecorded] at hrs
      exact absurd hrs (by simp)
    | ok xs =>
      rw [hrecorded] at hrs
      simp only [Memory.run_bind, Memory.run_pure] at hrs ⊢
      obtain ⟨ys, hys, rfl⟩ : ∃ ys,
          (run.2.run (p.syncVolumes false there es)).1 = .ok ys ∧ rs = xs ++ ys := by
        cases hrest : (run.2.run (p.syncVolumes false there es)).1 with
        | error why => rw [hrest] at hrs; exact absurd hrs (by simp [Except.map])
        | ok ys => rw [hrest] at hrs; exact ⟨ys, rfl, (Except.ok.inj hrs).symm⟩
      have hkept : ∀ e' ∈ es, r₁.volumes.get? e'.name = r.volumes.get? e'.name := fun e' he' =>
        hagree.others _ (by simpa using hne e' he')
      have huncancelled : run.2.Uncancelled := by
        rw [← hw]
        exact hm.run _
      obtain ⟨r', hr', hagree', htells⟩ := ih (fun e' he' => hsound e' (by simp [he'])) hnames.2
        huncancelled hr₁ (hagree.active.trans hactive)
        (fun e' he' => by rw [hkept e' he', hthere e' (by simp [he'])]) hys
      refine ⟨r', hr', (hagree.mono (by simp)).trans (hagree'.mono (by simp +contextual)), ?_⟩
      rw [List.forall_mem_cons]
      refine ⟨?_, fun e' he' => ?_⟩
      · rcases Ending.recorded_of_eq_ok hrecorded with ⟨x, hx, rfl⟩ | ⟨op, reason, fk, rfl⟩
        · rw [← hw] at hx
          obtain ⟨r₂, hr₂, ha, rfl⟩ := hfrank.holds_of_run_eq_ok hx
            (hdoes m.polls false r hactive rfl m.tables hr)
          rw [hw] at hr₂
          have hstored : r'.volumes.get? e.name = s' := by
            rw [hr₂, Tables.get?_put_self] at hr₁
            rw [hagree'.others _ hnames.1, ← Option.some.inj hr₁]
            simp [Table.get?_assign]
          rw [← ha] at hcomes
          obtain ⟨hkind, hname, -⟩ := hcomes.result
          exact ⟨x, by simp, hkind, hname, .inr (by rw [hstored]; exact hcomes)⟩
        · exact ⟨.stuck .volume (e.label p.name) op reason fk, by simp, rfl, rfl, .inl rfl⟩
      · obtain ⟨y, hy, hkind, hname, hcases⟩ := htells e' he'
        rw [hkept e' he'] at hcases
        exact ⟨y, by simp [hy], hkind, hname, hcases⟩

/-- Volumes that failed with their pool tell so. -/
theorem tells_volumesFailed (r r' : StoredResource) (operation : Operation) (reason : String)
    (fk : FailureKind) : ∀ e ∈ p.volumes, p.Tells r r' (p.volumesFailed operation reason fk) e :=
  fun e he => ⟨_, List.mem_map.2 ⟨e, he, rfl⟩, rfl, rfl, .inl rfl⟩

/-- The volumes of a pool that runs, whatever fails. -/
theorem run_syncContents (hp : p.IsSound) {m : Memory} (hm : m.Uncancelled) {r : StoredResource}
    (hr : m.tables.get? .pool p.name = some r) (hactive : r.active = p.active) {rs : List Result}
    (hrs : (m.run (p.syncContents false p.active)).1 = .ok rs) :
    ∃ r', (m.run (p.syncContents false p.active)).2.tables.get? .pool p.name = some r' ∧
      r.AgreeBut (p.volumes.map (·.name)) r' ∧ ∀ e ∈ p.volumes, p.Tells r r' rs e := by
  unfold syncContents at hrs ⊢
  -- a pool with volumes is declared to run
  by_cases hempty : p.volumes = []
  · simp only [hempty, List.isEmpty_nil, if_true]
    exact ⟨r, hr, .refl _ r, by simp⟩
  · have hrunning : p.active = true := hp.active hempty
    have hask : m.run ((Call.listVolumes p.name).ask : Talk (Except HostError (List String)))
        = m.call (.listVolumes p.name) := rfl
    simp only [List.isEmpty_iff, hempty, if_false, hrunning, if_true, Memory.run_bind, hask] at hrs ⊢
    cases hcall : (m.call (.listVolumes p.name)).1 with
    | error e =>
      rw [hcall] at hrs
      simp only [Memory.run_pure] at hrs ⊢
      have hsame : (m.call (.listVolumes p.name)).2.tables = m.tables := by
        rcases Memory.tables_call m (.listVolumes p.name) with hsame | ⟨a, ha⟩
        · exact hsame
        · exact Tables.eq_of_isStill ha rfl
      rw [hsame, ← Except.ok.inj hrs]
      exact ⟨r, hr, .refl _ r, tells_volumesFailed r r _ _ _⟩
    | ok there =>
      rw [hcall] at hrs
      have hserve := Memory.serve_eq_of_call_eq_ok hcall
      have hlist : m.tables.serve m.polls (.listVolumes p.name) = .ok (_, m.tables.put .pool p.name r) :=
        Work.admits_listVolumes (hactive.trans hrunning) m.tables hr
      rw [hlist, Tables.put_self hr] at hserve
      obtain ⟨hnames, hsame⟩ := Prod.mk.inj (Except.ok.inj hserve)
      refine run_syncVolumes hp.sound hp.names (hm.answer (.call (.listVolumes p.name)))
        (hsame ▸ hr) (hactive.trans hrunning) (fun e _ => ?_) hrs
      rw [← hnames, Bool.eq_iff_iff, List.contains_iff_mem, List.mem_mergeSort]
      exact Table.mem_names_iff

/-! ### What the results for volumes are about -/

/-- A result about a volume of a pool. -/
def ReportsVolume (p : Pool) (x : Result) : Prop :=
  x.kind = .volume ∧ ∃ e ∈ p.volumes, x.name = e.label p.name

theorem reportsVolume_volumesFailed (operation : Operation) (reason : String) (fk : FailureKind) :
    ∀ y ∈ p.volumesFailed operation reason fk, p.ReportsVolume y := by
  simp only [volumesFailed, List.forall_mem_map]
  exact fun e he => ⟨rfl, e, he, rfl⟩

theorem confined_syncVolumes {P : Call → Prop} {dry : Bool}
    (hvolume : ∀ e ∈ p.volumes, ∀ c, e.Makes dry p.name c → P c) (there : List String) {es : List VolumeEntry}
    (hes : ∀ e ∈ es, e ∈ p.volumes) :
    (p.syncVolumes dry there es).Confined (Query.CallsOnly P) (Recorded.All p.ReportsVolume) := by
  induction es with
  | nil => exact Confined.pure ((Recorded.all_ok_iff []).2 (by simp))
  | cons e es ih =>
    have hframe : Frank P (fun x => x.kind = .volume ∧ x.name = e.label p.name)
        (e.sync dry p.name (there.contains e.name)).run :=
      (e.frank_makes dry p.name _).mono (hvolume e (hes e (by simp))) fun _ => id
    refine hframe.confined_supervise.bind fun ending hending => ?_
    -- however the work on the volume ends, its result has the label of the volume
    have hreports : Recorded.All p.ReportsVolume ending.recorded := by
      have hname : ∃ e' ∈ p.volumes, e.label p.name = e'.label p.name := ⟨e, hes e (by simp), rfl⟩
      rcases hending with ⟨x, rfl, hkind, hx⟩ | ⟨op, reason, fk, rfl⟩ | rfl | ⟨why, rfl⟩
      · refine (Recorded.all_ok_iff [x]).2 fun y hy => ?_
        obtain rfl := List.mem_singleton.1 hy
        exact ⟨hkind, by rw [hx]; exact hname⟩
      · refine (Recorded.all_ok_iff _).2 fun y hy => ?_
        obtain rfl := List.mem_singleton.1 hy
        exact ⟨rfl, hname⟩
      · refine (Recorded.all_ok_iff _).2 fun y hy => ?_
        obtain rfl := List.mem_singleton.1 hy
        exact ⟨rfl, hname⟩
      · exact fun rs hrs => absurd hrs (by simp [Ending.recorded])
    split
    · next why hwhy => exact Confined.pure fun rs hrs => absurd hrs (by simp)
    · next r hr =>
      rw [hr] at hreports
      refine (ih fun e' he' => hes e' (by simp [he'])).bind fun rs hrs => Confined.pure ?_
      exact hreports.append hrs

/-- What is done to the volumes of a pool: they are listed, and what is done to each of them. -/
theorem confined_syncContents {P : Call → Prop} {dry : Bool} (hlist : P (.listVolumes p.name))
    (hvolume : ∀ e ∈ p.volumes, ∀ c, e.Makes dry p.name c → P c) (readable : Bool) :
    (p.syncContents dry readable).Confined (Query.CallsOnly P) (Recorded.All p.ReportsVolume) := by
  unfold syncContents
  split
  · exact Confined.pure ((Recorded.all_ok_iff []).2 (by simp))
  · split
    · refine Confined.bind (Confined.query (p := Query.CallsOnly P)
        (q := Query.call (.listVolumes p.name)) (e := fun _ => True) hlist fun _ => trivial)
        fun reply _ => ?_
      split
      · exact confined_syncVolumes hvolume _ fun _ => id
      · exact Confined.pure ((Recorded.all_ok_iff _).2 (reportsVolume_volumesFailed _ _ _))
    · exact confined_syncVolumes hvolume _ fun _ => id

/-- A call that the task for a pool can make: for the pool itself, to list its volumes, or for one of them. -/
inductive Makes (p : Pool) (dry : Bool) : Call → Prop where
  | started {c : Call} (makes : p.started.Makes dry c) : Makes p dry c
  | volumes : Makes p dry (.listVolumes p.name)
  | volume {e : VolumeEntry} (listed : e ∈ p.volumes) {c : Call} (makes : e.Makes dry p.name c) :
      Makes p dry c

/-- A result about a pool or one of its volumes. -/
def Reports (p : Pool) (x : Result) : Prop :=
  (x.kind = .pool ∧ x.name = p.name) ∨ p.ReportsVolume x

/-- **The calls of the task for a pool**, and what its results are about. -/
theorem confined_makes (p : Pool) (dry exists_ : Bool) :
    (p.task dry exists_).Confined (Query.CallsOnly (p.Makes dry)) (Recorded.All p.Reports) := by
  have hsync : Frank (p.Makes dry) (p.started.Gives dry) (p.started.sync dry exists_).run :=
    (p.started.frank_makes dry exists_).mono (fun _ => .started) fun _ => id
  refine hsync.confined_supervise.bind fun ending hending => ?_
  have hfirst : ∀ {x : Result} (rs : Recorded), x.kind = .pool → x.name = p.name →
      rs.All p.ReportsVolume → Recorded.All p.Reports (rs.map (x :: ·)) := fun rs hkind hname hrs =>
    ((Recorded.all_ok_iff [_]).2 (by simpa using .inl ⟨hkind, hname⟩)).append
      (hrs.mono fun _ => .inr)
  rcases hending with ⟨x, rfl, ⟨q, hx⟩, -⟩ | ⟨op, reason, fk, rfl⟩ | rfl | ⟨why, rfl⟩
  · exact (confined_syncContents .volumes (fun e he _ => .volume he) x.2).bind fun rs hrs =>
      Confined.pure (hfirst rs (by rw [hx]; rfl) (by rw [hx]; rfl) hrs)
  · exact Confined.pure (hfirst (.ok _) rfl rfl
      ((Recorded.all_ok_iff _).2 (reportsVolume_volumesFailed _ _ _)))
  · exact Confined.pure (hfirst (.ok _) rfl rfl
      ((Recorded.all_ok_iff _).2 (List.forall_mem_map.2 fun e he => ⟨rfl, e, he, rfl⟩)))
  · exact Confined.pure fun rs hrs => absurd hrs (by simp)

/-! ### Tasks for pools -/

@[simp] theorem started_kind : p.started.kind = .pool := rfl

@[simp] theorem started_name : p.started.name = p.name := rfl

@[simp] theorem started_active : p.started.active = p.active := rfl

@[simp] theorem started_autostart : p.started.autostart = p.autostart := rfl

theorem started_text (hp : p.IsSound) : p.started.text = .ok p.document.print := written_eq hp.plain

/-- The document of a sound pool has its name. -/
theorem nameInDocument_of_started (hp : p.IsSound) {text : String} (htext : p.started.text = .ok text) :
    nameInDocument text = p.name := by
  rw [started_text hp] at htext
  rw [← Except.ok.inj htext]
  exact nameInDocument_written hp.plain

/-- The task for a sound pool asks about the pool only. -/
theorem Makes.isProper (hp : p.IsSound) {dry : Bool} {c : Call} (h : p.Makes dry c) :
    c.IsProper dry .pool p.name := by
  cases h with
  | started makes => exact makes.isProper fun _ => nameInDocument_of_started hp
  | volumes => exact ⟨rfl, fun _ => rfl⟩
  | volume _ makes =>
    refine ⟨makes.about, ?_⟩
    rintro rfl
    exact makes.reading

theorem frank_sync (hp : p.IsSound) (dry exists_ : Bool) :
    Frank (Call.IsProper dry .pool p.name) (p.started.Gives dry) (p.started.sync dry exists_).run :=
  (p.started.frank_makes dry exists_).mono (fun _ hc => (Makes.started hc).isProper hp) fun _ => id

/-- What becomes of a pool with its volumes: it fails and its volumes with it, or it is in line, and each
volume tells what became of it. -/
def Fills (p : Pool) (old new : Option StoredResource) (x : Result) (xs : List Result) : Prop :=
  (x.outcome = .failed ∧ xs = p.volumesLost) ∨
    x = p.started.reported p.document.print old ∧ ∃ r, new = some r ∧
      (p.started.settled p.document.print old).AgreeBut (p.volumes.map (·.name)) r ∧
      ∀ e ∈ p.volumes, p.Tells (p.started.settled p.document.print old) r xs e

/-- **The result of a volume of a pool** is a failure, or it tells what became of the volume. -/
theorem Fills.volume {old new : Option StoredResource} {x : Result} {xs : List Result}
    (h : p.Fills old new x xs) {e : VolumeEntry} (he : e ∈ p.volumes) :
    ∃ y ∈ xs, y.kind = .volume ∧ y.name = e.label p.name ∧
      (y.outcome = .failed ∨ ∃ r, new = some r ∧
        e.Comes p.name (old.bind (·.volumes.get? e.name)) (.ok y) (r.volumes.get? e.name)) := by
  rcases h with ⟨-, rfl⟩ | ⟨-, r, hnew, -, htells⟩
  · exact ⟨_, List.mem_map.2 ⟨e, he, rfl⟩, rfl, rfl, .inl rfl⟩
  · obtain ⟨y, hy, hkind, hname, hcomes⟩ := htells e he
    rw [Started.get?_volumes_settled] at hcomes
    exact ⟨y, hy, hkind, hname, hcomes.imp id fun hcomes => ⟨r, hnew, hcomes⟩⟩

/-- **A pool whose result is not a failure is in line, and so are its volumes** whose results are not
failures, whatever failed around them. -/
theorem run_task (hp : p.IsSound) {m : Memory} (hm : m.Uncancelled) {rs : List Result}
    (hrs : (m.run (p.task false (m.tables.get? .pool p.name).isSome)).1 = .ok rs) :
    ∃ x xs, rs = x :: xs ∧ x.kind = .pool ∧ x.name = p.name ∧ (∀ y ∈ xs, p.ReportsVolume y) ∧
      p.Fills (m.tables.get? .pool p.name)
        ((m.run (p.task false (m.tables.get? .pool p.name).isSome)).2.tables.get? .pool p.name) x xs := by
  simp only [task, Memory.run_bind, hm.run_supervise] at hrs ⊢
  generalize hw : m.run (p.started.sync false (m.tables.get? .pool p.name).isSome).run = run at *
  obtain ⟨a, n⟩ := run
  -- the pool itself failed and its volumes are lost, or it is in line and its volumes follow
  match a with
  | .error (.failed op reason fk) =>
    exact ⟨_, _, (Except.ok.inj hrs).symm, rfl, rfl, reportsVolume_volumesFailed _ _ _, .inl ⟨rfl, rfl⟩⟩
  | .error (.unwritable why) => exact absurd hrs (by simp [Ending.of])
  | .ok (x, readable) =>
    have hend := (frank_sync hp false _).holds_of_run_eq_ok (congrArg Prod.fst hw)
      (Started.ends_sync (s := p.started) (by simp [started]) (started_text hp)
        (nameInDocument_written hp.plain) m.tables false)
    obtain ⟨heq, htables⟩ := hend
    rw [hw] at htables
    simp only [Bool.not_false, Bool.or_true, Bool.and_true, Except.ok.injEq, Prod.mk.injEq,
      started_kind, started_name, started_active, Bool.false_eq_true, if_false] at heq htables
    obtain ⟨rfl, rfl⟩ := heq
    have hn : n.Uncancelled := by
      have := hm.run (p.started.sync false (m.tables.get? .pool p.name).isSome).run
      rwa [hw] at this
    simp only [Ending.of, Memory.run_bind, Memory.run_pure] at hrs ⊢
    obtain ⟨ys, hys, rfl⟩ : ∃ ys, (n.run (p.syncContents false p.active)).1 = .ok ys ∧
        rs = p.started.reported p.document.print (m.tables.get? .pool p.name) :: ys := by
      cases hcontents : (n.run (p.syncContents false p.active)).1 with
      | error why => rw [hcontents] at hrs; exact absurd hrs (by simp [Except.map])
      | ok ys => rw [hcontents] at hrs; exact ⟨ys, rfl, (Except.ok.inj hrs).symm⟩
    obtain ⟨r', hr', hagree, htells⟩ := run_syncContents hp hn htables (by simp) hys
    have hvolumes : Recorded.All p.ReportsVolume (n.run (p.syncContents false p.active)).1 :=
      (confined_syncContents (P := p.Makes false) .volumes (fun e he _ => .volume he) p.active).run_value
        Memory.answer n
    have hcases := Started.reported_cases p.started p.document.print (m.tables.get? .pool p.name)
    exact ⟨_, ys, rfl, hcases.1, hcases.2.1, hvolumes ys hys, .inr ⟨rfl, r', hr', hagree, htells⟩⟩

/-- The task for a pool asks about the pool only, and its results are about the pool and its volumes. -/
theorem confined_task (hp : p.IsSound) (dry exists_ : Bool) :
    (p.task dry exists_).Confined (Query.CallsOnly (Call.IsProper dry .pool p.name))
      (Recorded.All p.Reports) :=
  (p.confined_makes dry exists_).mono (fun _ hq => hq.mono fun _ hc => hc.isProper hp) fun _ => id

end Pool

end VirtualTopology
