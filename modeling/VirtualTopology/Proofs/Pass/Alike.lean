import VirtualTopology.Proofs.Pass.Domains
import VirtualTopology.Proofs.Pass.Stock

/-!
# Tasks that tell the same

Two runs tell the same (`Recorded.Alike`) if their results are about the same resources and differ in their
details only. On calm hosts a task tells the same in a dry run and in a real one, since what it tells depends on
what was there before: for a network (`Network.run_task_of_calm`), for a pool with its volumes, if the pool
runs (`Pool.exists_run_task_of_calm`), and for a domain, whatever is blamed for what it depends on
(`Domain.alike_task`). Tasks one after the other tell the same if each of them does
(`Memory.alike_gather`).
-/

namespace VirtualTopology

open Dialogue

/-! ### Results that tell the same -/

/-- Whether two results tell the same about the same resource, apart from details. -/
structure Result.Alike (x y : Result) : Prop where
  kind : y.kind = x.kind
  name : y.name = x.name
  outcome : y.outcome = x.outcome
  operation : y.operation = x.operation
  reason : y.reason = x.reason
  failureKind : y.failureKind = x.failureKind

theorem Result.Alike.refl (x : Result) : x.Alike x := ⟨rfl, rfl, rfl, rfl, rfl, rfl⟩

/-- Whether two recordings tell the same. -/
inductive Recorded.Alike : Recorded → Recorded → Prop where
  | ok {xs ys : List Result} (results : List.Forall₂ Result.Alike xs ys) : Alike (.ok xs) (.ok ys)
  | error (why : Unwritable) : Alike (.error why) (.error why)

namespace Recorded.Alike

variable {r r' s s' : Recorded}

theorem refl (r : Recorded) : r.Alike r := by
  cases r with
  | error why => exact .error why
  | ok xs => exact .ok (List.forall₂_same.2 fun x _ => .refl x)

/-- Recordings with one result each. -/
theorem single {x y : Result} (h : x.Alike y) : Recorded.Alike (.ok [x]) (.ok [y]) :=
  .ok (.cons h .nil)

theorem append (hr : r.Alike r') (hs : s.Alike s') : (r.append s).Alike (r'.append s') := by
  cases hr with
  | error why => exact .error why
  | ok hxs =>
    cases hs with
    | error why => exact .error why
    | ok hys => exact .ok (List.rel_append hxs hys)

/-- Several recordings tell the same if each of them does. -/
theorem all_map {ι : Type} {xs : List ι} {f g : ι → Recorded} (h : ∀ x ∈ xs, (f x).Alike (g x)) :
    (all (xs.map f)).Alike (all (xs.map g)) := by
  induction xs with
  | nil => exact refl _
  | cons x xs ih => exact (h x (by simp)).append (ih fun y hy => h y (by simp [hy]))

theorem results {xs ys : List Result} (h : Recorded.Alike (.ok xs) (.ok ys)) :
    List.Forall₂ Result.Alike xs ys := by
  cases h with
  | ok results => exact results

theorem eq_or_eq (h : r.Alike r') :
    (∃ why, r = .error why ∧ r' = .error why) ∨
      ∃ xs ys, r = .ok xs ∧ r' = .ok ys ∧ List.Forall₂ Result.Alike xs ys := by
  cases h with
  | error why => exact .inl ⟨why, rfl, rfl⟩
  | ok hxs => exact .inr ⟨_, _, rfl, rfl, hxs⟩

end Recorded.Alike

/-- What is told the same succeeds in the same way. -/
theorem Result.forall_isSuccess_iff {xs ys : List Result} (h : List.Forall₂ Result.Alike xs ys) :
    (∀ x ∈ xs, x.outcome.isSuccess = true) ↔ ∀ y ∈ ys, y.outcome.isSuccess = true := by
  induction h with
  | nil => simp
  | cons hx _ ih => simp only [List.forall_mem_cons, ih, hx.outcome]

/-- Blame depends on what is told only. -/
theorem Domain.hasFailed_of_alike {xs ys : List Result} (h : List.Forall₂ Result.Alike xs ys) :
    hasFailed ys = hasFailed xs := by
  funext kind name
  unfold hasFailed
  induction h with
  | nil => rfl
  | cons hx _ ih => rw [List.any_cons, List.any_cons, ih, hx.kind, hx.name, hx.outcome]

theorem Domain.failedDependencies_of_alike {xs ys : List Result} (h : List.Forall₂ Result.Alike xs ys)
    (d : Domain) : d.failedDependencies ys = d.failedDependencies xs := by
  unfold failedDependencies
  rw [hasFailed_of_alike h]

/-! ### Tasks one after the other -/

/-- **Tasks about different resources tell the same** if each of them does, wherever it finds its resource
as it was before. -/
theorem Memory.alike_gather {ι : Type} {f g : ι → Talk Recorded} {e e' : Recorded → Prop}
    (kind : ι → DefinedKind) (name : ι → String) {xs : List ι}
    (hdistinct : (xs.map fun x => (kind x, name x)).Nodup)
    (hf : ∀ x ∈ xs, (f x).Confined (Query.CallsOnly (Call.IsAbout (kind x) (name x))) e)
    (hg : ∀ x ∈ xs, (g x).Confined (Query.CallsOnly (Call.IsAbout (kind x) (name x))) e')
    {m n : Memory} (hm : m.Calm) (hn : n.Calm) {old : ι → Option StoredResource}
    (hmold : ∀ x ∈ xs, m.tables.get? (kind x) (name x) = old x)
    (hnold : ∀ x ∈ xs, n.tables.get? (kind x) (name x) = old x)
    (halike : ∀ x ∈ xs, ∀ h h' : Memory, h.Calm → h'.Calm → h.tables.get? (kind x) (name x) = old x →
      h'.tables.get? (kind x) (name x) = old x → (h.run (f x)).1.Alike (h'.run (g x)).1) :
    (m.run (gather (xs.map f))).1.Alike (n.run (gather (xs.map g))).1 := by
  obtain ⟨host, hhost, hvalue⟩ := m.run_gather_map kind name xs (List.pairwise_map.1 hdistinct) hf
  obtain ⟨host', hhost', hvalue'⟩ := n.run_gather_map kind name xs (List.pairwise_map.1 hdistinct) hg
  rw [hvalue, hvalue']
  refine .all_map fun x hx => ?_
  obtain ⟨hfollows, hbefore, -⟩ := hhost x hx
  obtain ⟨hfollows', hbefore', -⟩ := hhost' x hx
  exact halike x hx _ _ (hfollows.calm hm) (hfollows'.calm hn) (hbefore.trans (hmold x hx))
    (hbefore'.trans (hnold x hx))

/-- **The tasks for the declared resources of a kind tell the same** if each of them does. -/
theorem Stock.alike_tasks {α : Type} {kind : DefinedKind} {managed : Bool} {declared : List α}
    {name : α → String} {lost : α → List Result} {f g : α → Bool → Talk Recorded}
    {e e' : Recorded → Prop} {o o' : Memory} {s : Stock} (htake : o.run (take kind managed) = (s, o'))
    (hdistinct : (declared.map name).Nodup)
    (hf : ∀ a ∈ declared, ∀ b, (f a b).Confined (Query.CallsOnly (Call.IsAbout kind (name a))) e)
    (hg : ∀ a ∈ declared, ∀ b, (g a b).Confined (Query.CallsOnly (Call.IsAbout kind (name a))) e')
    {m n : Memory} (hm : m.Calm) (hn : n.Calm)
    (hmold : ∀ a ∈ declared, m.tables.get? kind (name a) = o.tables.get? kind (name a))
    (hnold : ∀ a ∈ declared, n.tables.get? kind (name a) = o.tables.get? kind (name a))
    (halike : ∀ a ∈ declared, ∀ h h' : Memory, h.Calm → h'.Calm →
      h.tables.get? kind (name a) = o.tables.get? kind (name a) →
      h'.tables.get? kind (name a) = o.tables.get? kind (name a) →
      (h.run (f a (o.tables.get? kind (name a)).isSome)).1.Alike
        (h'.run (g a (o.tables.get? kind (name a)).isSome)).1) :
    (m.run (gather (s.tasks kind declared name lost f))).1.Alike
      (n.run (gather (s.tasks kind declared name lost g))).1 := by
  -- only where the kind could be listed there is a task for each resource
  rcases take_cases htake with ⟨reason, rfl⟩ | rfl | ⟨-, results, rfl, -⟩
  · rw [run_tasks_unknown, run_tasks_unknown]
    exact .refl _
  · rw [tasks_known, tasks_known]
    exact Memory.alike_gather (fun _ => kind) name (nodup_pairs hdistinct) (fun a ha => hf a ha _)
      (fun a ha => hg a ha _) hm hn hmold hnold halike
  · have hsame : ∀ (l : Memory) (h : α → Bool → Talk Recorded),
        (l.run (gather ((leftAlone results).tasks kind declared name lost h))).1
          = (Recorded.append (.ok results) (.ok [])) := fun l h => by
      simp [tasks, Memory.run_gather_cons]
    rw [hsame, hsame]
    exact .refl _

/-! ### Networks -/

/-- **What a network's task tells on a calm host**, dry or not. -/
theorem Network.run_task_of_calm {n : Network} (h : Text.ArePlain n.texts) {m : Memory} (hm : m.Calm)
    (dry : Bool) :
    (m.run (n.task dry (m.tables.get? .network n.name).isSome)).1
      = .ok [n.started.reported n.document.print (m.tables.get? .network n.name)] := by
  have hend := (ends_sync h m.tables dry m hm rfl rfl).1
  simp only [task, Memory.run_bind, hm.uncancelled.run_supervise, Memory.run_pure]
  rw [hend]
  rfl

/-! ### Pools -/

namespace Pool

variable {p : Pool}

/-- **What is told about the volumes of a pool on a calm host** depends on what is stored of them: in a pool
that runs, and in a dry run also in a pool that is not there. -/
theorem exists_run_syncVolumes {es : List VolumeEntry} (hsound : ∀ e ∈ es, e.IsSound)
    (hnames : (es.map (·.name)).Nodup) (old : String → Option StoredVolume) :
    ∃ recorded : Recorded,
      (∀ (dry : Bool) (m : Memory) (r : StoredResource) (there : List String), m.Calm →
        m.tables.get? .pool p.name = some r → r.active = true →
        (∀ e ∈ es, r.volumes.get? e.name = old e.name) →
        (∀ e ∈ es, there.contains e.name = (old e.name).isSome) →
        (m.run (p.syncVolumes dry there es)).1 = recorded) ∧
      ((∀ e ∈ es, old e.name = none) → ∀ m : Memory, m.Calm →
        (m.run (p.syncVolumes true [] es)).1 = recorded) := by
  induction es with
  | nil => exact ⟨.ok [], fun _ _ _ _ _ _ _ _ _ => rfl, fun _ _ _ => rfl⟩
  | cons e es ih =>
    rw [List.map_cons, List.nodup_cons] at hnames
    have hne : ∀ e' ∈ es, e'.name ≠ e.name := fun e' he' heq =>
      hnames.1 (List.mem_map.2 ⟨e', he', heq⟩)
    obtain ⟨rest, hrest, hrestDry⟩ := ih (fun e' he' => hsound e' (by simp [he'])) hnames.2
    obtain ⟨a, s', -, hdoes, hdry⟩ := VolumeEntry.exists_comes (hsound e (by simp)) p.name (old e.name)
    -- what is told about this volume, and then about the rest
    have hstep : ∀ {dry : Bool} {there : List String} {m : Memory}, m.Calm →
        there.contains e.name = (old e.name).isSome →
        (m.run (e.sync dry p.name (old e.name).isSome).run).1 = a →
        ((m.run (e.sync dry p.name (old e.name).isSome).run).2.run (p.syncVolumes dry there es)).1 = rest →
        (m.run (p.syncVolumes dry there (e :: es))).1
          = (Ending.of .volume (e.label p.name) a).recorded.append rest := by
      intro dry there m hm hthere ha hbehind
      simp only [syncVolumes, Memory.run_bind, hm.uncancelled.run_supervise, hthere, ha]
      cases (Ending.of .volume (e.label p.name) a).recorded with
      | error why => rfl
      | ok r =>
        simp only [Memory.run_bind, Memory.run_pure, hbehind]
        rfl
    refine ⟨(Ending.of .volume (e.label p.name) a).recorded.append rest,
      fun dry m r there hm hr hactive hsame hthere => ?_, fun hnone m hm => ?_⟩
    · obtain ⟨r', htables, ha, hr'⟩ := hdoes m.polls dry r hactive (hsame e (by simp)) m.tables hr m hm
        rfl rfl
      refine hstep hm (hthere e (by simp)) ha ?_
      refine hrest dry _ r' there (hm.run _) (by rw [htables]; exact Tables.get?_put_self) ?_
        (fun e' he' => ?_) fun e' he' => hthere e' (by simp [he'])
      · rw [hr']
        cases dry <;> exact hactive
      · rw [← hsame e' (by simp [he']), hr']
        cases dry with
        | true => rfl
        | false => exact (Table.get?_assign _ _ _ _).trans (if_neg (hne e' he').symm)
    · have hgone := hnone e (by simp)
      have hrun : m.run (e.sync true p.name (old e.name).isSome).run = (a, m) := by
        rw [hgone]
        show m.run (e.sync true p.name false).run = (a, m)
        rw [hdry hgone]
        rfl
      refine hstep hm (by rw [hgone]; rfl) (by rw [hrun]) ?_
      rw [hrun]
      exact hrestDry (fun e' he' => hnone e' (by simp [he'])) m hm

/-- What is told about the contents of a pool on a calm host depends on what is stored of its volumes. -/
theorem exists_run_syncContents (hp : p.IsSound) (old : String → Option StoredVolume) :
    ∃ recorded : Recorded, ∀ (dry readable : Bool) (m : Memory), m.Calm →
      (p.volumes ≠ [] →
        (readable = true ∧ ∃ r, m.tables.get? .pool p.name = some r ∧ r.active = true ∧
          ∀ name, r.volumes.get? name = old name) ∨
        (readable = false ∧ dry = true ∧ ∀ name, old name = none)) →
      (m.run (p.syncContents dry readable)).1 = recorded := by
  by_cases hempty : p.volumes = []
  · refine ⟨.ok [], fun dry readable m _ _ => ?_⟩
    rw [syncContents, hempty]
    rfl
  · obtain ⟨recorded, hrunning, hgone⟩ := exists_run_syncVolumes (p := p) hp.sound hp.names old
    refine ⟨recorded, fun dry readable m hm hthere => ?_⟩
    rcases hthere hempty with ⟨rfl, r, hr, hactive, hsame⟩ | ⟨rfl, rfl, hnone⟩
    · have hask : m.run ((Call.listVolumes p.name).ask : Talk (Except HostError (List String)))
          = (.ok _, m.served (.listVolumes p.name) (m.tables.put .pool p.name r)) :=
        hm.call_eq_of_serve (Work.admits_listVolumes hactive m.tables hr)
      simp only [syncContents, List.isEmpty_iff, hempty, if_false, if_true, Memory.run_bind, hask]
      refine hrunning dry _ r _ (hm.served _ _) (by simp) hactive (fun e _ => hsame e.name) fun e _ => ?_
      rw [← hsame e.name, Bool.eq_iff_iff, List.contains_iff_mem, List.mem_mergeSort]
      exact Table.mem_names_iff
    · simp only [syncContents, List.isEmpty_iff, hempty, if_false, Bool.false_eq_true]
      exact hgone (fun e _ => hnone e.name) m hm

/-- **What a pool's task tells on a calm host** is the same in a dry run and in a real one, provided that a
pool that lists volumes runs if it is there. -/
theorem exists_run_task_of_calm (hp : p.IsSound) (old : Option StoredResource) :
    ∃ recorded : Recorded, ∀ (dry : Bool) (m : Memory), m.Calm → m.tables.get? .pool p.name = old →
      (dry = true → p.volumes ≠ [] → ∀ r ∈ old, r.seen.active = true) →
      (m.run (p.task dry old.isSome)).1 = recorded := by
  obtain ⟨recorded, hcontents⟩ := exists_run_syncContents hp fun name => old.bind (·.volumes.get? name)
  refine ⟨recorded.map (p.started.reported p.document.print old :: ·), fun dry m hm hold hrunning => ?_⟩
  subst hold
  obtain ⟨ha, htables⟩ := Started.ends_sync (s := p.started) (by simp [started])
    (started_text hp) (nameInDocument_written hp.plain) m.tables dry m hm rfl rfl
  simp only [started_kind, started_name, started_active] at ha htables
  simp only [task, Memory.run_bind, hm.uncancelled.run_supervise, ha, Ending.of, Memory.run_pure]
  refine congrArg (Except.map _) (hcontents dry _ _ (hm.run _) fun hvolumes => ?_)
  rw [hp.active hvolumes, Bool.true_and]
  cases dry with
  | false =>
    refine .inl ⟨by simp, _, htables, by simp [hp.active hvolumes], fun name => ?_⟩
    exact Started.get?_volumes_settled _ _ _ _
  | true =>
    simp only [if_true] at htables
    cases hr : m.tables.get? .pool p.name with
    | none => exact .inr ⟨rfl, rfl, fun name => rfl⟩
    | some r =>
      rw [hr] at htables
      have hseen := hrunning rfl hvolumes r hr
      exact .inl ⟨by simp [hseen], r.seen, htables, hseen, fun name => by simp⟩

end Pool

/-! ### Domains -/

namespace Domain

variable {d : Domain} (h : Text.ArePlain d.texts)

include h

/-- What the work on a domain comes to on a calm host. -/
theorem run_sync_of_calm {m : Memory} (hm : m.Calm) (dry : Bool) (timeout : Binary64) :
    (∃ why, d.written = .error why ∧
        (m.run (d.sync dry timeout (m.tables.get? .domain d.name).isSome).run).1
          = .error (.unwritable why)) ∨
      d.written = .ok d.document.print ∧
        d.Tells (d.verdict d.document.print (m.tables.get? .domain d.name))
          (m.run (d.sync dry timeout (m.tables.get? .domain d.name).isSome).run).1 := by
  cases htext : d.written with
  | error why =>
    refine .inl ⟨why, rfl, ?_⟩
    unfold sync store
    rw [htext]
    rfl
  | ok text =>
    have hend := (ends_sync htext (nameInDocument_of_written h htext) m.tables dry timeout m hm rfl rfl).1
    rw [eq_print_of_written h htext] at hend ⊢
    exact .inr ⟨rfl, hend⟩

/-- **A domain's task tells the same on calm hosts**, dry or not, if the same is blamed. -/
theorem alike_task {m m' : Memory} (hm : m.Calm) (hm' : m'.Calm)
    (hold : m'.tables.get? .domain d.name = m.tables.get? .domain d.name) {before before' : List Result}
    (hbefore : List.Forall₂ Result.Alike before before') (dry dry' : Bool) (timeout timeout' : Binary64) :
    Recorded.Alike (m.run (d.task dry timeout before (m.tables.get? .domain d.name).isSome)).1
      (m'.run (d.task dry' timeout' before' (m.tables.get? .domain d.name).isSome)).1 := by
  unfold task
  simp only [failedDependencies_of_alike hbefore]
  split
  · simp only [Memory.run_bind, hm.uncancelled.run_supervise, hm'.uncancelled.run_supervise,
      Memory.run_pure]
    have hdone := run_sync_of_calm h hm dry timeout
    have hdone' := run_sync_of_calm h hm' dry' timeout'
    rw [hold] at hdone'
    rcases hdone with ⟨why, hwhy, ha⟩ | ⟨htext, details, hx⟩
    · rcases hdone' with ⟨why', hwhy', ha'⟩ | ⟨htext, -⟩
      · obtain rfl := Except.error.inj (hwhy.symm.trans hwhy')
        rw [ha, ha']
        exact .error why
      · exact absurd (hwhy.symm.trans htext) (by simp)
    · rcases hdone' with ⟨why', hwhy', -⟩ | ⟨-, details', hx'⟩
      · exact absurd (hwhy'.symm.trans htext) (by simp)
      · rw [hx, hx']
        exact .single ⟨rfl, rfl, rfl, rfl, rfl, rfl⟩
  · exact .refl _

end Domain

end VirtualTopology
