import Mathlib.Data.List.Perm.Basic
import VirtualTopology.Proofs.Pass.Listing
import VirtualTopology.Proofs.Prediction

/-!
# Complete reports

Whatever fails and whenever it is cancelled, a pass that gives a report has a result for everything it has to
account for (`Desired.account`), and no others: for each declared resource and volume, for each resource of a
managed kind that is listed and not declared, and for each resource of an unmanaged kind that is listed. A kind
that cannot be listed is accounted for by what is declared of it.

Every task covers what it is about (`Recorded.Covers`), on each of the paths on which it can end; what is listed of
a kind is seen from the host before the pass (`Stock.Shows`).
-/

namespace VirtualTopology

open Dialogue

/-! ### What results are about -/

/-- What a result is about. -/
def Result.key (x : Result) : ResourceKind × String := (x.kind, x.name)

namespace Recorded

variable {keys keys' : List (ResourceKind × String)} {r s : Recorded}

/-- Whether results, if there are any, are about what is told, each as often as it is told. -/
def Covers (keys : List (ResourceKind × String)) (r : Recorded) : Prop :=
  ∀ rs, r = .ok rs → (rs.map Result.key).Perm keys

theorem covers_ok {xs : List Result} (h : (xs.map Result.key).Perm keys) : Covers keys (.ok xs) := by
  rintro rs hrs
  rw [← Except.ok.inj hrs]
  exact h

theorem covers_error (why : Unwritable) : Covers keys (.error why) := fun _ h => absurd h (by simp)

theorem Covers.append (h : r.Covers keys) (h' : s.Covers keys') : (r.append s).Covers (keys ++ keys') := by
  intro rs hrs
  obtain ⟨xs, ys, hxs, hys, rfl⟩ := append_eq_ok_iff.1 hrs
  rw [List.map_append]
  exact (h xs hxs).append (h' ys hys)

theorem Covers.cons {x : Result} {key : ResourceKind × String} (hx : x.key = key) (h : r.Covers keys) :
    Covers (key :: keys) (r.map (x :: ·)) := by
  have hone : Covers [key] (.ok [x]) := covers_ok (by simp [hx])
  exact hone.append h

theorem Covers.of_perm (h : r.Covers keys) (hperm : keys.Perm keys') : r.Covers keys' :=
  fun rs hrs => (h rs hrs).trans hperm

end Recorded

/-- Supervised work ends with one result about its resource, if it ends with a result at all. -/
theorem Frank.covers {α : Type} {P : Call → Prop} {e : α → Prop} {w : Work α} {kind : ResourceKind} {name : String}
    {f : Ending α → Talk Recorded} {p : Query → Prop} {keys : List (ResourceKind × String)}
    (h : Frank P e w.run) (hp : ∀ q, Query.CallsOnly P q → p q)
    (hfinished : ∀ a, e a → (f (.finished a)).Confined p (Recorded.Covers keys))
    (hended : ∀ x : Result, x.key = (kind, name) →
      (f (.failed x)).Confined p (Recorded.Covers keys) ∧ (f (.cancelled x)).Confined p (Recorded.Covers keys))
    (hunwritable : ∀ why, (f (.unwritable why)).Confined p (Recorded.Covers keys)) :
    (supervise kind name w >>= f).Confined p (Recorded.Covers keys) := by
  refine (h.confined_supervise.mono hp fun _ => id).bind fun ending hending => ?_
  rcases hending with ⟨a, rfl, ha⟩ | ⟨op, reason, fk, rfl⟩ | rfl | ⟨why, rfl⟩
  · exact hfinished a ha
  · exact (hended _ rfl).1
  · exact (hended _ rfl).2
  · exact hunwritable why

/-- Recorded work has one result, which is about its resource. -/
theorem Frank.covers_recorded {p : Call → Prop} {kind : ResourceKind} {name : String} {w : Work Result}
    (h : Frank p (fun x => x.kind = kind ∧ x.name = name) w.run) :
    (do let ending ← supervise kind name w; return ending.recorded : Talk Recorded).Confined
      (Query.CallsOnly p) (Recorded.Covers [(kind, name)]) := by
  have hone : ∀ x : Result, x.key = (kind, name) → Recorded.Covers [(kind, name)] (.ok [x]) :=
    fun x hx => Recorded.covers_ok (by simp [hx])
  exact h.covers (fun _ => id) (fun x hx => Confined.pure (hone x (Prod.ext hx.1 hx.2)))
    (fun x hx => ⟨Confined.pure (hone x hx), Confined.pure (hone x hx)⟩)
    fun why => Confined.pure (Recorded.covers_error why)

/-- Tasks one after the other cover what each of them covers. -/
theorem Dialogue.Confined.gather_covers {ι : Type} {p : Query → Prop} {task : ι → Talk Recorded}
    {keys : ι → List (ResourceKind × String)} {xs : List ι}
    (h : ∀ x ∈ xs, (task x).Confined p (Recorded.Covers (keys x))) :
    (VirtualTopology.gather (xs.map task)).Confined p (Recorded.Covers (xs.flatMap keys)) := by
  induction xs with
  | nil => exact Confined.pure (Recorded.covers_ok (.refl _))
  | cons x xs ih =>
    refine (h x (by simp)).bind fun r hr => ?_
    exact (ih fun y hy => h y (by simp [hy])).bind fun rs hrs => Confined.pure (hr.append hrs)

/-! ### Tasks -/

theorem Network.covers (n : Network) (dry exists_ : Bool) :
    (n.task dry exists_).Confined (Query.CallsOnly (n.started.Makes dry))
      (Recorded.Covers [(.network, n.name)]) := by
  have hsync : Frank (n.started.Makes dry) (fun x => x.kind = .network ∧ x.name = n.name)
      ((·.1) <$> n.started.sync dry exists_ : Work Result).run := by
    rw [map_eq_pure_bind]
    refine (n.started.frank_makes dry exists_).bind ?_
    rintro x ⟨⟨p, hx⟩, -⟩
    exact .pure (by rw [hx]; exact ⟨rfl, rfl⟩)
  exact hsync.covers_recorded

namespace Pool

/-- What the results for volumes of a pool are about. -/
def volumeKeys (p : Pool) (es : List VolumeEntry) : List (ResourceKind × String) :=
  es.map fun e => (.volume, e.label p.name)

variable {p : Pool}

theorem covers_volumesFailed (operation : Operation) (reason : String) (fk : FailureKind) :
    Recorded.Covers (p.volumeKeys p.volumes) (.ok (p.volumesFailed operation reason fk)) :=
  Recorded.covers_ok (by rw [volumesFailed, List.map_map]; exact .refl _)

theorem covers_syncVolumes (dry : Bool) (there : List String) (es : List VolumeEntry) :
    (p.syncVolumes dry there es).Confined (fun _ => True) (Recorded.Covers (p.volumeKeys es)) := by
  induction es with
  | nil => exact Confined.pure (Recorded.covers_ok (.refl _))
  | cons e es ih =>
    -- the volumes behind this one are seen to when it has its result
    have hrest : ∀ x : Result, x.key = (.volume, e.label p.name) →
        ((fun rs => rs.map ([x] ++ ·)) <$> p.syncVolumes dry there es).Confined (fun _ => True)
          (Recorded.Covers (p.volumeKeys (e :: es))) := fun x hx => by
      rw [map_eq_pure_bind]
      exact ih.bind fun rs hrs => Confined.pure (hrs.cons hx)
    refine (e.frank_makes dry p.name _).covers (fun _ _ => trivial) ?_ ?_ ?_
    · exact fun x hx => hrest x (Prod.ext hx.1 hx.2)
    · exact fun x hx => ⟨hrest x hx, hrest x hx⟩
    · exact fun why => Confined.pure (Recorded.covers_error why)

theorem covers_syncContents (dry readable : Bool) :
    (p.syncContents dry readable).Confined (fun _ => True) (Recorded.Covers (p.volumeKeys p.volumes)) := by
  unfold syncContents
  split
  · next hnone =>
    rw [List.isEmpty_iff.1 hnone]
    exact Confined.pure (Recorded.covers_ok (.refl _))
  · split
    · refine Confined.bind (Confined.query (p := fun _ => True) (q := Query.call (.listVolumes p.name))
        (e := fun _ => True) trivial fun _ => trivial) fun reply _ => ?_
      split
      · exact covers_syncVolumes dry _ _
      · exact Confined.pure (covers_volumesFailed _ _ _)
    · exact covers_syncVolumes dry _ _

/-- **The task for a pool has a result for the pool and one for each of its volumes**, on each path. -/
theorem covers (p : Pool) (dry exists_ : Bool) :
    (p.task dry exists_).Confined (fun _ => True)
      (Recorded.Covers ((.pool, p.name) :: p.volumeKeys p.volumes)) := by
  have hcancelled : Recorded.Covers (p.volumeKeys p.volumes)
      (.ok (p.volumes.map fun e => .cancelled .volume (e.label p.name))) :=
    Recorded.covers_ok (by rw [List.map_map]; exact .refl _)
  refine Frank.covers (p.started.frank_makes dry exists_) (fun _ _ => trivial) ?_ ?_ ?_
  · rintro ⟨x, readable⟩ ⟨⟨q, hx⟩, -⟩
    have hkey : x.key = (.pool, p.name) := by
      have hx : x = p.started.result q := hx
      rw [hx]
      rfl
    exact (covers_syncContents dry readable).bind fun rs hrs => Confined.pure (hrs.cons hkey)
  · exact fun x hx => ⟨Confined.pure ((covers_volumesFailed _ _ _).cons hx), Confined.pure (hcancelled.cons hx)⟩
  · exact fun why => Confined.pure (Recorded.covers_error why)

end Pool

theorem Domain.covers (x : Domain) (dry : Bool) (timeout : Binary64) (before : List Result) (exists_ : Bool) :
    (x.task dry timeout before exists_).Confined (fun _ => True) (Recorded.Covers [(.domain, x.name)]) := by
  unfold task
  dsimp only
  split
  · have hsync : Frank x.Makes (fun y => y.kind = .domain ∧ y.name = x.name) (x.sync dry timeout exists_).run :=
      frank_sync_of .look (fun _ text _ => .define text) (fun _ => .start) (fun _ => .stop) timeout exists_
    exact hsync.covers_recorded.mono (fun _ _ => trivial) fun _ => id
  · exact Confined.pure (Recorded.covers_ok (.refl _))

/-- Removing networks and pools has a result for each of them, whether they can be removed or not. -/
theorem Removal.covers_run (dry : Bool) (results : List Result) (stale : List (DefinedKind × String)) :
    (run dry results stale).Confined (fun _ => True)
      (Recorded.Covers (stale.map fun s => (s.1.resource, s.2))) := by
  have hall : ∀ f : DefinedKind × String → Result, (∀ s, (f s).key = (s.1.resource, s.2)) →
      Recorded.Covers (stale.map fun s => (s.1.resource, s.2)) (.ok (stale.map f)) := fun f hf =>
    Recorded.covers_ok (by rw [List.map_map]; exact .of_eq (List.map_congr_left fun s _ => hf s))
  unfold run
  split
  · next hnone =>
    rw [List.isEmpty_iff.1 hnone]
    exact Confined.pure (Recorded.covers_ok (.refl _))
  · refine Confined.bind (Confined.query (q := Query.cancelled) (e := fun _ => True) trivial
      fun _ => trivial) fun cancelled _ => ?_
    split
    · exact Confined.pure (hall _ fun _ => rfl)
    · refine (confined_true (references results)).bind fun refs _ => ?_
      split
      · exact Confined.pure (hall _ fun _ => rfl)
      · next rs =>
        have htask : ∀ s ∈ stale, (task dry rs s.1 s.2).Confined (fun _ => True)
            (Recorded.Covers [(s.1.resource, s.2)]) := fun s _ => by
          rw [task_eq]
          split
          · exact (frank_remove dry s.1 s.2).covers_recorded.mono (fun _ _ => trivial) fun _ => id
          · exact Confined.pure (Recorded.covers_ok (.refl _))
        rw [List.map_eq_flatMap (f := fun s : DefinedKind × String => (s.1.resource, s.2))]
        exact Confined.gather_covers htask

/-! ### The tasks for a kind -/

namespace Stock

/-- The names that the tasks for a kind are about. -/
def faced (s : Stock) (declared : List String) : List String :=
  match s with
  | leftAlone results => results.map (·.name)
  | _ => declared

/-- **The tasks for a kind cover what they are about**, and what comes with each declared resource, whether the kind
could be listed or not. -/
theorem Shows.covers_tasks {α : Type} {m : Memory} {k : DefinedKind} {managed : Bool} {s : Stock}
    {declared : List α} {name : α → String} {lost : α → List Result} {task : α → Bool → Talk Recorded}
    {p : Query → Prop} {more : α → List (ResourceKind × String)} (h : Shows m k managed s)
    (hnone : managed = false → declared = [])
    (htask : ∀ a ∈ declared, ∀ b, (task a b).Confined p (Recorded.Covers ((k.resource, name a) :: more a)))
    (hlost : ∀ a ∈ declared, Recorded.Covers (more a) (.ok (lost a))) :
    (gather (s.tasks k declared name lost task)).Confined p
      (Recorded.Covers ((s.faced (declared.map name)).map (k.resource, ·) ++ declared.flatMap more)) := by
  have hpure : ∀ (results : List Result) (keys : List (ResourceKind × String)),
      (results.map Result.key).Perm keys →
        (gather [pure (.ok results)]).Confined p (Recorded.Covers keys) := fun results keys hperm =>
    Confined.pure (((Recorded.covers_ok hperm).append (Recorded.covers_ok (.refl _))).of_perm (by simp))
  cases h with
  | known lists =>
    rw [show faced _ (declared.map name) = declared.map name from rfl, List.map_map]
    exact (Confined.gather_covers fun a ha => htask a ha _).mono (fun _ => id) fun _ hr =>
      hr.of_perm (List.map_append_flatMap_perm declared _ more).symm
  | unknown struck reason =>
    refine hpure _ _ ?_
    rw [show faced _ (declared.map name) = declared.map name from rfl, List.map_append, List.map_map, List.map_map,
      List.map_flatMap]
    refine List.Perm.append_left _ ?_
    exact List.Perm.flatMap_left declared fun a ha => hlost a ha _ rfl
  | leftAlone =>
    refine hpure _ _ ?_
    rw [hnone rfl, faced, List.map_map, List.map_map, List.map_map]
    simp [Result.key, Function.comp_def]

/-- Tasks that each have one result cover what they are about. -/
theorem Shows.covers_single {α : Type} {m : Memory} {k : DefinedKind} {managed : Bool} {s : Stock}
    {declared : List α} {name : α → String} {task : α → Bool → Talk Recorded} {p : Query → Prop}
    (h : Shows m k managed s) (hnone : managed = false → declared = [])
    (htask : ∀ a ∈ declared, ∀ b, (task a b).Confined p (Recorded.Covers [(k.resource, name a)])) :
    (gather (s.tasks k declared name (fun _ => []) task)).Confined p
      (Recorded.Covers ((s.faced (declared.map name)).map (k.resource, ·))) := by
  let alone : α → List (ResourceKind × String) := fun _ => []
  have hnil : declared.flatMap alone = [] := List.flatMap_eq_nil_iff.2 fun _ _ => rfl
  have hlost : ∀ a ∈ declared, Recorded.Covers (alone a) (.ok []) := fun _ _ => Recorded.covers_ok (.refl _)
  exact (h.covers_tasks hnone htask hlost).mono (fun _ => id) fun _ hr => hr.of_perm (by rw [hnil, List.append_nil])

end Stock

/-! ### Accounts -/

namespace Desired

variable {d : Desired}

/-- The resources of a kind that a pass has to account for: the declared ones and those that are listed and not
declared, each once, or, if the kind is not managed, what is listed. -/
def accountOf (d : Desired) (m : Memory) (k : DefinedKind) : List String :=
  if d.manages k then d.names k ++ ((m.listed k).filter fun name => !(d.names k).contains name).eraseDups
  else m.listed k

/-- The volumes that are declared. -/
def volumeKeys (d : Desired) : List (ResourceKind × String) :=
  d.pools.items.flatMap fun p => p.volumeKeys p.volumes

/-- **What a pass has to account for** when it finds a host as it is. -/
def account (d : Desired) (m : Memory) : List (ResourceKind × String) :=
  (d.accountOf m .network).map (.network, ·) ++ (d.accountOf m .pool).map (.pool, ·) ++ d.volumeKeys ++
    (d.accountOf m .domain).map (.domain, ·)

/-- What is faced and what is stale is what there is to account for. -/
theorem perm_accountOf {m : Memory} {k : DefinedKind} {s : Stock} (h : s.Shows m k (d.manages k)) :
    (s.faced (d.names k) ++ s.stale (d.names k)).Perm (d.accountOf m k) := by
  generalize hmanaged : d.manages k = managed at h
  rw [accountOf, hmanaged]
  cases h with
  | known lists => 
    simp only [Memory.listed, lists, if_false, if_true]
    exact List.Perm.append_left _ (List.mergeSort_perm _ _)
  | unknown struck reason => simp [Stock.faced, Stock.stale, Memory.listed, struck]
  | leftAlone => simp [Stock.faced, Stock.stale, Function.comp_def]

/-- What is declared is of a managed kind. -/
theorem items_eq_nil {α : Type} {x : Declared α} (h : x.isManaged = false) : x.items = [] := by
  cases x with
  | unmanaged assumed => rfl
  | managed items => exact absurd h (by simp [Declared.isManaged])

/-- The tasks for networks and pools cover both kinds with the volumes. -/
theorem covers_networksAndPools {dry : Bool} {m : Memory} (networks pools : Stock)
    (hnetworks : networks.Shows m .network (d.manages .network)) (hpools : pools.Shows m .pool (d.manages .pool)) :
    (gather (networks.tasks .network d.networks.items (·.name) (fun _ => []) (fun n => n.task dry) ++
      pools.tasks .pool d.pools.items (·.name) Pool.volumesLost (fun p => p.task dry))).Confined
        (Query.CallsOnly (·.target.1 ≠ .domain))
        (Recorded.Covers ((networks.faced (d.names .network)).map (.network, ·) ++
          ((pools.faced (d.names .pool)).map (.pool, ·) ++ d.volumeKeys))) := by
  have hne : ∀ {k : DefinedKind}, k ≠ .domain → ∀ c : Call, c.target.1 = k → c.target.1 ≠ .domain :=
    fun hk c hc => by rw [hc]; exact hk
  rw [gather_append]
  refine (hnetworks.covers_single (p := Query.CallsOnly (·.target.1 ≠ .domain)) items_eq_nil
    fun n _ b => ?_).bind fun r hr => ?_
  · exact (n.covers dry b).mono (fun _ hq => hq.mono fun c hc => hne (by simp) c hc.kind) fun _ => id
  · refine (hpools.covers_tasks (p := Query.CallsOnly (·.target.1 ≠ .domain)) items_eq_nil (fun q _ b => ?_)
      fun q _ => Pool.covers_volumesFailed _ _ _).bind fun rs hrs => Confined.pure (hr.append hrs)
    exact ((q.covers dry b).and (q.confined_makes dry b)).mono
      (fun _ hq => hq.2.mono fun c hc => hne (by simp) c hc.kind) fun _ h => h.1

/-- The tasks for domains cover them. -/
theorem covers_domainsInLine (dry : Bool) (timeout : Binary64) (before : List Result) {m : Memory} {domains : Stock}
    (hdomains : domains.Shows m .domain (d.manages .domain)) :
    (gather (domains.tasks .domain d.domains.items (·.name) (fun _ => [])
      (fun x => x.task dry timeout before))).Confined (Query.CallsOnly fun _ => True)
        (Recorded.Covers ((domains.faced (d.names .domain)).map (.domain, ·))) :=
  (hdomains.covers_single (p := fun _ => True) items_eq_nil fun x _ b => x.covers dry timeout before b).mono
    (fun q _ => by cases q <;> trivial) fun _ => id

/-- The results of all phases are about what there is to account for: they stand in another order, but equally
often. -/
theorem perm_account {d : Desired} {m : Memory} {networks pools domains : Stock}
    {first second third last : List Result} (hnetworks : networks.Shows m .network (d.manages .network))
    (hpools : pools.Shows m .pool (d.manages .pool)) (hdomains : domains.Shows m .domain (d.manages .domain))
    (hfirst : (first.map Result.key).Perm ((networks.faced (d.names .network)).map (.network, ·) ++
      ((pools.faced (d.names .pool)).map (.pool, ·) ++ d.volumeKeys)))
    (hsecond : (second.map Result.key).Perm ((domains.faced (d.names .domain)).map (.domain, ·)))
    (hthird : (third.map Result.key).Perm ((domains.stale (d.names .domain)).flatMap fun name => [(.domain, name)]))
    (hlast : (last.map Result.key).Perm (((networks.stale (d.names .network)).map (DefinedKind.network, ·) ++
      (pools.stale (d.names .pool)).map (DefinedKind.pool, ·)).map fun s => (s.1.resource, s.2))) :
    ((first ++ second ++ third ++ last).map Result.key).Perm (d.account m) := by
  have hnetworks := (perm_accountOf hnetworks).map (ResourceKind.network, ·)
  have hpools := (perm_accountOf hpools).map (ResourceKind.pool, ·)
  have hdomains := (perm_accountOf hdomains).map (ResourceKind.domain, ·)
  replace hthird : (third.map Result.key).Perm
      ((domains.stale (d.names .domain)).map fun name => (ResourceKind.domain, name)) := by
    rw [List.map_eq_flatMap (f := fun name : String => (ResourceKind.domain, name))]
    exact hthird
  rw [List.map_append, List.map_map, List.map_map] at hlast
  rw [List.map_append] at hnetworks hpools hdomains
  simp only [account, List.map_append]
  -- counted for one key at a time, all parts are sums
  rw [List.perm_iff_count] at *
  intro key
  specialize hfirst key
  specialize hsecond key
  specialize hthird key
  specialize hlast key
  specialize hnetworks key
  specialize hpools key
  specialize hdomains key
  simp only [List.count_append, Function.comp_def, DefinedKind.resource] at *
  omega

/-- **The results of a pass cover what there is to account for**, whatever the moment of cancellation. -/
theorem safe_covers_phases (d : Desired) (dry : Bool) (timeout : Binary64) (m : Memory) :
    Talk.Safe (fun _ _ => True) (fun x _ => x.Covers (d.account m)) (d.phases dry timeout) { host := m } := by
  have hconfined : ∀ {t : Talk Recorded} {keys : List (ResourceKind × String)} {w : Watched},
      t.Confined (fun _ => True) (Recorded.Covers keys) →
        Talk.Safe (fun _ _ => True) (fun x _ => x.Covers keys) t w := fun h =>
    (Talk.Safe.of_confined (I := fun _ => True) h (fun _ _ _ _ => trivial)
      (fun w q _ _ => by cases q <;> trivial) trivial).mono (fun _ _ => id) fun _ _ h => h.1
  -- the account is split by phases, and each phase covers its own part
  unfold phases
  refine (safe_networksAndPools_of covers_networksAndPools).bind ?_
  rintro ⟨first, _, _⟩ w ⟨⟨hlists, -⟩, networks, pools, hnetworks, hpools, rfl, rfl, hfirst⟩
  cases first with
  | error why => exact .pure (Recorded.covers_error why)
  | ok first =>
    refine (safe_domainsInLine_of hlists fun domains hdomains =>
      covers_domainsInLine dry timeout first hdomains).bind ?_
    rintro ⟨second, _⟩ w ⟨-, domains, hdomains, rfl, hsecond⟩
    cases second with
    | error why => exact .pure (Recorded.covers_error why)
    | ok second =>
      have hremoval : ∀ name ∈ domains.stale (d.names .domain),
          (Domain.removal dry name).Confined (fun _ => True) (Recorded.Covers [(.domain, name)]) := fun name _ =>
        (Domain.frank_remove dry name).covers_recorded.mono (fun _ _ => trivial) fun _ => id
      refine (hconfined (Confined.gather_covers hremoval)).bind ?_
      intro third w hthird
      cases third with
      | error why => exact .pure (Recorded.covers_error why)
      | ok third =>
        refine (hconfined (Removal.covers_run dry _ _)).bind fun last w hlast => .pure fun rs hrs => ?_
        cases last with
        | error why => exact absurd hrs (by simp [Except.map])
        | ok last =>
          rw [← Except.ok.inj hrs]
          exact perm_account hnetworks hpools hdomains (hfirst first rfl) (hsecond second rfl) (hthird third rfl)
            (hlast last rfl)

end Desired

/-! ### Reports -/

namespace Settings

/-- **Reports are complete**: whatever fails and whenever the pass is cancelled, dry or real, the results of a report
are about exactly what there is to account for, each as often as it is to be accounted for, and they are in
order. -/
theorem report_complete {s : Settings} {d : Desired} {dryRun : Option Bool} {m : Memory} {cancels : Nat → Bool}
    {report : Report} (h : (m.watch cancels (s.apply d dryRun)).1 = .ok report) :
    (report.results.map Result.key).Perm (d.account m) ∧
      report.results.Pairwise fun x y => x.before y = true := by
  have hsafe := safe_report dryRun fun _ => d.safe_covers_phases (s.isDry dryRun) s.pass.shutdownTimeout m
  obtain ⟨rs, rfl, hcovers⟩ := (hsafe.watch cancels).2 report h
  have hsorted : (rs.mergeSort Result.before).Pairwise fun x y => x.before y = true :=
    List.pairwise_mergeSort (fun x y z => Result.before_trans (x := x) (y := y) (z := z)) Result.before_total rs
  exact ⟨((List.mergeSort_perm rs Result.before).map _).trans hcovers, hsorted⟩

end Settings

/-- A host with a network and a domain on it, on which domains cannot be listed. -/
def Memory.withHiddenUser : Memory :=
  { Memory.withUser with disruptions := [{ word := "list_domains", error := .connection }] }

/-- If the pass is cancelled from the start, the stale network and the declared domain are accounted for. -/
theorem Settings.report_complete_withHiddenUser :
    ∃ report, (Memory.withHiddenUser.watch (fun _ => true) (({} : Settings).apply .withMachine)).1 = .ok report ∧
      (report.results.map Result.key).Perm (Desired.withMachine.account .withHiddenUser) ∧
      Desired.withMachine.account .withHiddenUser = [(.network, "old"), (.domain, "vm")] := by
  have hrun : (Memory.withHiddenUser.watch (fun _ => true)
      (({} : Settings).apply .withMachine)).1.toOption.isSome = true := by decide +kernel
  have hkeys : Desired.withMachine.account .withHiddenUser = [(.network, "old"), (.domain, "vm")] := by
    decide +kernel
  cases happly : (Memory.withHiddenUser.watch (fun _ => true) (({} : Settings).apply .withMachine)).1 with
  | error why =>
    rw [happly] at hrun
    exact absurd hrun (by simp [Except.toOption])
  | ok report => exact ⟨report, rfl, (report_complete happly).1, hkeys⟩

end VirtualTopology
