import VirtualTopology.Proofs.Dependency
import VirtualTopology.Proofs.Pass.DryRun
import VirtualTopology.Proofs.Pass.Filling

/-!
# How the phases of a run fare

Each declared resource fares as its task does, whether its kind could be listed or not (`Stock.exists_fares`). From
what becomes of networks and pools (`Desired.supplies_networksAndPools`) it follows which volumes a domain can be blamed for:
at least those that are refused, and only those if nothing is struck (`Desired.Supplies.blamed_iff`).
-/

namespace VirtualTopology

open Dialogue

/-! ### Results and their tasks -/

/-- Whether results are those of several tasks: there are results if each task has some, and then the results of each
task are among them and all failures come from tasks. -/
structure Recorded.Gathers (rs : Recorded) (values : List Recorded) : Prop where
  each : ∀ xs, rs = .ok xs → ∀ v ∈ values, ∃ ys, v = .ok ys ∧ ∀ y ∈ ys, y ∈ xs
  source : ∀ xs, rs = .ok xs → ∀ x ∈ xs, x.outcome = .failed → ∃ ys, .ok ys ∈ values ∧ x ∈ ys
  written : (∀ v ∈ values, ∃ ys, v = .ok ys) → ∃ xs, rs = .ok xs

namespace Recorded

variable {rs rs' : Recorded} {values values' : List Recorded}

theorem exists_all_eq_ok (h : ∀ v ∈ values, ∃ ys, v = .ok ys) : ∃ xs, all values = .ok xs := by
  induction values with
  | nil => exact ⟨[], rfl⟩
  | cons v values ih =>
    obtain ⟨ys, rfl⟩ := h v (by simp)
    obtain ⟨xs, hxs⟩ := ih fun w hw => h w (by simp [hw])
    exact ⟨ys ++ xs, by rw [all_cons, hxs]; rfl⟩

theorem gathers_all (values : List Recorded) : (all values).Gathers values := by
  refine ⟨fun xs hxs v hv => ?_, fun xs hxs x hx _ => (mem_of_all_eq_ok hxs).2.1 hx, exists_all_eq_ok⟩
  obtain ⟨ys, rfl⟩ := (mem_of_all_eq_ok (x := default) hxs).1 v hv
  exact ⟨ys, rfl, fun y hy => (mem_of_all_eq_ok hxs).2.2 ⟨ys, hv, hy⟩⟩

theorem Gathers.append (h : rs.Gathers values) (h' : rs'.Gathers values') :
    (rs.append rs').Gathers (values ++ values') := by
  refine ⟨fun zs hzs v hv => ?_, fun zs hzs x hx hfailed => ?_, fun hall => ?_⟩
  · obtain ⟨xs, ys, hxs, hys, rfl⟩ := append_eq_ok_iff.1 hzs
    rcases List.mem_append.1 hv with hv | hv
    · obtain ⟨us, hus, hmem⟩ := h.each xs hxs v hv
      exact ⟨us, hus, fun y hy => List.mem_append_left _ (hmem y hy)⟩
    · obtain ⟨us, hus, hmem⟩ := h'.each ys hys v hv
      exact ⟨us, hus, fun y hy => List.mem_append_right _ (hmem y hy)⟩
  · obtain ⟨xs, ys, hxs, hys, rfl⟩ := append_eq_ok_iff.1 hzs
    rcases List.mem_append.1 hx with hx | hx
    · obtain ⟨us, hus, hmem⟩ := h.source xs hxs x hx hfailed
      exact ⟨us, List.mem_append_left _ hus, hmem⟩
    · obtain ⟨us, hus, hmem⟩ := h'.source ys hys x hx hfailed
      exact ⟨us, List.mem_append_right _ hus, hmem⟩
  · obtain ⟨xs, rfl⟩ := h.written fun v hv => hall v (List.mem_append_left _ hv)
    obtain ⟨ys, rfl⟩ := h'.written fun v hv => hall v (List.mem_append_right _ hv)
    exact ⟨xs ++ ys, rfl⟩

/-- The failures of resources that could not be listed are those of their tasks. -/
theorem gathers_stuck {α : Type} (declared : List α) (stuck : α → Result) (lost : α → List Result) :
    Recorded.Gathers (.ok (declared.map stuck ++ declared.flatMap lost))
      (declared.map fun a => .ok (stuck a :: lost a)) := by
  have hmem : ∀ x, x ∈ declared.map stuck ++ declared.flatMap lost ↔ ∃ a ∈ declared, x ∈ stuck a :: lost a := by
    intro x
    rw [List.mem_append, List.mem_map, List.mem_flatMap]
    constructor
    · rintro (⟨a, ha, rfl⟩ | ⟨a, ha, hx⟩)
      · exact ⟨a, ha, List.mem_cons_self⟩
      · exact ⟨a, ha, List.mem_cons_of_mem _ hx⟩
    · rintro ⟨a, ha, hx⟩
      rcases List.mem_cons.1 hx with rfl | hx
      · exact .inl ⟨a, ha, rfl⟩
      · exact .inr ⟨a, ha, hx⟩
  refine ⟨fun xs hxs v hv => ?_, fun xs hxs x hx _ => ?_, fun _ => ⟨_, rfl⟩⟩
  · obtain ⟨a, ha, rfl⟩ := List.mem_map.1 hv
    rw [← Except.ok.inj hxs]
    exact ⟨_, rfl, fun y hy => (hmem y).2 ⟨a, ha, hy⟩⟩
  · rw [← Except.ok.inj hxs] at hx
    obtain ⟨a, ha, hx⟩ := (hmem x).1 hx
    exact ⟨_, List.mem_map.2 ⟨a, ha, rfl⟩, hx⟩

end Recorded

/-! ### The tasks of a kind -/

/-- **Each declared resource fares as its task does.** If the kind could not be listed, a call has been struck, and
each of its resources is left as it is. -/
theorem Stock.exists_fares (struck : Prop) {α : Type} {kind : DefinedKind} {managed : Bool} {declared : List α}
    {name : α → String}
    {lost : α → List Result} {task : α → Bool → Talk Recorded} {e : Recorded → Prop}
    {P : α → Option StoredResource → Option StoredResource → Recorded → Prop}
    (hmanaged : ∀ a ∈ declared, managed = true) (hdistinct : (declared.map name).Nodup)
    (htask : ∀ a ∈ declared, ∀ b, (task a b).Confined (Query.CallsOnly (Call.IsAbout kind (name a))) e)
    {m m' : Memory} {s : Stock} (htake : m.run (Stock.take kind managed) = (s, m')) (hcalm : ¬ struck → m.Calm)
    {n : Memory} (hsame : ∀ a ∈ declared, n.tables.get? kind (name a) = m.tables.get? kind (name a))
    (hfares : ∀ a ∈ declared, ∀ h : Memory, n.Follows h → P a (h.tables.get? kind (name a))
      ((h.run (task a (h.tables.get? kind (name a)).isSome)).2.tables.get? kind (name a))
      (h.run (task a (h.tables.get? kind (name a)).isSome)).1)
    (hstuck : struck → ∀ a ∈ declared, ∀ old reason,
      P a old old (.ok (.stuck kind.resource (name a) .list reason :: lost a)))
    {rs : Recorded} {n' : Memory} (hrun : n.run (gather (s.tasks kind declared name lost task)) = (rs, n')) :
    ∃ value : α → Recorded, rs.Gathers (declared.map value) ∧
      ∀ a ∈ declared, P a (m.tables.get? kind (name a)) (n'.tables.get? kind (name a)) (value a) := by
  rcases take_cases htake with ⟨reason, rfl⟩ | rfl | ⟨hunmanaged, results, rfl, hresults⟩
  · rw [run_tasks_unknown] at hrun
    obtain ⟨rfl, rfl⟩ := Prod.mk.inj hrun
    refine ⟨fun a => .ok (.stuck kind.resource (name a) .list reason :: lost a), Recorded.gathers_stuck _ _ _, ?_⟩
    intro a ha
    -- on a calm host the kind could have been listed
    have hstruck : struck := by
      by_contra hnot
      rw [hmanaged a ha] at htake
      rcases take_managed htake with ⟨e, he, -⟩ | hknown
      · rw [(hcalm hnot).call_eq_of_serve (c := .list kind) (a := m.tables.sortedNames kind) (t := m.tables) rfl] at he
        exact absurd he (by simp)
      · exact absurd hknown (by simp)
    rw [hsame a ha]
    exact hstuck hstruck a ha _ reason
  · rw [tasks_known] at hrun
    obtain ⟨host, hhost, hvalue⟩ := n.run_gather_map (fun _ => kind) name declared
      (List.pairwise_map.1 (nodup_pairs hdistinct)) fun a ha => htask a ha (m.tables.get? kind (name a)).isSome
    rw [hrun] at hhost hvalue
    refine ⟨fun a => ((host a).run (task a (m.tables.get? kind (name a)).isSome)).1, ?_, fun a ha => ?_⟩
    · rw [show rs = _ from hvalue]
      exact Recorded.gathers_all _
    · obtain ⟨hfollows, hbefore, hafter⟩ := hhost a ha
      have hold := hbefore.trans (hsame a ha)
      have hP := hfares a ha (host a) hfollows
      rw [hold] at hP
      rw [show n'.tables.get? kind (name a) = _ from hafter]
      exact hP
  · have hempty : declared = [] := List.eq_nil_iff_forall_not_mem.2 fun a ha => by
      rw [hmanaged a ha] at hunmanaged
      exact absurd hunmanaged (by simp)
    subst hempty
    have hleft : n.run (gather ((leftAlone results).tasks kind ([] : List α) name lost task))
        = (.ok (results ++ []), n) := rfl
    obtain ⟨rfl, -⟩ := Prod.mk.inj (hleft.symm.trans hrun)
    refine ⟨fun _ => .ok [], ⟨by simp, fun xs hxs x hx hfailed => ?_, fun _ => ⟨_, rfl⟩⟩, by simp⟩
    rw [← Except.ok.inj hxs, List.append_nil] at hx
    rw [(hresults x hx).2] at hfailed
    exact absurd hfailed (by simp)

/-! ### Networks and pools -/

namespace Desired

variable {d : Desired} {struck : Prop} {t u : Tables} {first : Recorded}

/-- Whether all that has to be written about volumes can be written. -/
def IsTold (d : Desired) (t : Tables) : Prop :=
  ∀ p ∈ d.pools.items, ∀ e ∈ p.volumes, e.IsTold p.name (e.storedIn (t.get? .pool p.name))

/-- Whether a label is that of a volume that is refused. -/
def Refuses (d : Desired) (t : Tables) (label : String) : Prop :=
  ∃ p ∈ d.pools.items, ∃ e ∈ p.volumes,
    e.IsRefused p.name (e.storedIn (t.get? .pool p.name)) ∧ label = e.label p.name

/-- Whether a volume that a domain uses is refused. -/
def Denies (d : Desired) (t : Tables) (x : Domain) : Prop :=
  ∃ k ∈ x.disks, d.Refuses t (volumeLabel k.pool k.volume)

/-- Whether each declared network and pool fares as its task does, and the results are those of the tasks. -/
def Supplies (d : Desired) (struck : Prop) (t u : Tables) (first : Recorded) : Prop :=
  ∃ (ofNetwork : Network → Recorded) (ofPool : Pool → Recorded),
    first.Gathers (d.networks.items.map ofNetwork ++ d.pools.items.map ofPool) ∧
    (∀ n ∈ d.networks.items, n.started.Fares n.document.print [] struck (t.get? .network n.name)
      (u.get? .network n.name) (ofNetwork n)) ∧
    ∀ p ∈ d.pools.items, p.started.Fares p.document.print p.volumes struck (t.get? .pool p.name)
      (u.get? .pool p.name) (ofPool p)

/-- **Networks and pools fare as their tasks do** when they are brought in line. -/
theorem supplies_networksAndPools (struck : Prop) (hplain : d.IsPlain) (hvalid : d.Validates) {m : Memory}
    (hm : m.Uncancelled)
    (hcalm : ¬ struck → m.Calm) :
    d.Supplies struck m.tables (m.run (d.networksAndPools false)).2.tables
      (m.run (d.networksAndPools false)).1.1 := by
  rcases hnetworks : m.run (Stock.take .network d.networks.isManaged) with ⟨networks, counted⟩
  rcases hpools : counted.run (Stock.take .pool d.pools.isManaged) with ⟨pools, listed⟩
  rcases hwired : listed.run (gather (networks.tasks .network d.networks.items (·.name) (fun _ => [])
    fun n => n.task false)) with ⟨ofNetworks, wired⟩
  rcases hfilled : wired.run (gather (pools.tasks .pool d.pools.items (·.name) Pool.volumesLost
    fun p => p.task false)) with ⟨ofPools, filled⟩
  have hrun : m.run (d.networksAndPools false) = ((ofNetworks.append ofPools,
      networks.stale (d.networks.items.map (·.name)), pools.stale (d.pools.items.map (·.name))), filled) := by
    simp only [networksAndPools, Memory.run_bind, Memory.run_pure, hnetworks, hpools, Memory.run_gather_append,
      hwired, hfilled]
  have hcounted : counted.tables = m.tables := Stock.tables_take hnetworks
  have hlisted : listed.tables = m.tables := (Stock.tables_take hpools).trans hcounted
  have hfollowsListed : m.Follows listed :=
    (Memory.follows_of_run hnetworks).trans (Memory.follows_of_run hpools)
  have hfollowsWired : m.Follows wired := hfollowsListed.trans (Memory.follows_of_run hwired)
  -- networks are brought in line without a look at pools, and the other way round
  have hkeepsPools : ∀ name, wired.tables.get? .pool name = counted.tables.get? .pool name := by
    intro name
    have htable := table_run_networks hplain false networks (l := .pool) (by simp) listed
    rw [hwired, hlisted, ← hcounted] at htable
    exact congrArg (·.get? name) htable
  have hkeepsNetworks : ∀ name, filled.tables.get? .network name = wired.tables.get? .network name := by
    intro name
    have htable := table_run_pools hplain hvalid false pools (l := .network) (by simp) wired
    rw [hfilled] at htable
    exact congrArg (·.get? name) htable
  obtain ⟨ofNetwork, hgathersNetworks, hfaresNetworks⟩ := Stock.exists_fares struck
    (P := fun n old new rs => n.started.Fares n.document.print [] struck old new rs)
    (fun n hn => Declared.isManaged_of_mem hn) hvalid.networks (fun n hn => confined_networkTask hplain false hn)
    hnetworks hcalm (fun n _ => by rw [hlisted])
    (fun n hn h hh => (Network.endures_task (hplain.network hn) h.tables).run ((hfollowsListed.trans hh).uncancelled hm)
      fun hstruck => (hfollowsListed.trans hh).calm (hcalm hstruck))
    (fun hstruck n _ old reason => .of_struck hstruck rfl (by simp)) hwired
  obtain ⟨ofPool, hgathersPools, hfaresPools⟩ := Stock.exists_fares struck
    (P := fun p old new rs => p.started.Fares p.document.print p.volumes struck old new rs)
    (fun p hp => Declared.isManaged_of_mem hp) hvalid.pools (fun p hp => confined_poolTask hplain hvalid false hp)
    hpools (fun hstruck => (Memory.follows_of_run hnetworks).calm (hcalm hstruck)) (fun p _ => hkeepsPools p.name)
    (fun p hp h hh => (Pool.endures_task (hvalid.pool_isSound hplain hp) h.tables).run
      ((hfollowsWired.trans hh).uncancelled hm) fun hstruck => (hfollowsWired.trans hh).calm (hcalm hstruck))
    (fun hstruck p _ old reason => .of_struck hstruck rfl fun e he =>
      Pool.hasFailed_cons _ (Pool.hasFailed_volumesFailed _ _ _ he)) hfilled
  rw [hrun]
  refine ⟨ofNetwork, ofPool, hgathersNetworks.append hgathersPools, fun n hn => ?_, fun p hp => ?_⟩
  · rw [hkeepsNetworks]
    exact hfaresNetworks n hn
  · rw [← hcounted]
    exact hfaresPools p hp

namespace Supplies

/-- There are results if all can be written. -/
theorem exists_results (h : d.Supplies struck t u first) (htold : d.IsTold t) : ∃ xs, first = .ok xs := by
  obtain ⟨ofNetwork, ofPool, hgathers, hnetworks, hpools⟩ := h
  refine hgathers.written fun v hv => ?_
  rcases List.mem_append.1 hv with hv | hv
  · obtain ⟨n, hn, rfl⟩ := List.mem_map.1 hv
    exact (hnetworks n hn).told (by simp)
  · obtain ⟨p, hp, rfl⟩ := List.mem_map.1 hv
    exact (hpools p hp).told (htold p hp)

section

variable {xs : List Result} (h : d.Supplies struck t u (.ok xs))

include h

theorem network {n : Network} (hn : n ∈ d.networks.items) : ∃ ys, n.started.Fares n.document.print [] struck
    (t.get? .network n.name) (u.get? .network n.name) (.ok ys) ∧ ∀ y ∈ ys, y ∈ xs := by
  obtain ⟨ofNetwork, ofPool, hgathers, hnetworks, -⟩ := h
  obtain ⟨ys, hys, hmem⟩ := hgathers.each xs rfl (ofNetwork n)
    (List.mem_append_left _ (List.mem_map.2 ⟨n, hn, rfl⟩))
  exact ⟨ys, hys ▸ hnetworks n hn, hmem⟩

theorem pool {p : Pool} (hp : p ∈ d.pools.items) : ∃ ys, p.started.Fares p.document.print p.volumes struck
    (t.get? .pool p.name) (u.get? .pool p.name) (.ok ys) ∧ ∀ y ∈ ys, y ∈ xs := by
  obtain ⟨ofNetwork, ofPool, hgathers, -, hpools⟩ := h
  obtain ⟨ys, hys, hmem⟩ := hgathers.each xs rfl (ofPool p)
    (List.mem_append_right _ (List.mem_map.2 ⟨p, hp, rfl⟩))
  exact ⟨ys, hys ▸ hpools p hp, hmem⟩

/-- If nothing is struck, all could be written. -/
theorem isTold (hstruck : ¬ struck) : d.IsTold t := by
  intro p hp e he
  obtain ⟨ys, hfares, -⟩ := h.pool hp
  exact ((hfares.calm hstruck ys rfl).2.1 e he).2

/-- A domain is blamed for each volume of its own that is refused. -/
theorem blamed_of_denies {x : Domain} (hdenies : d.Denies t x) : x.failedDependencies xs ≠ [] := by
  obtain ⟨k, hk, p, hp, e, he, hrefused, hlabel⟩ := hdenies
  obtain ⟨ys, hfares, hmem⟩ := h.pool hp
  obtain ⟨y, hy, hkind, hname, hfailed⟩ := Domain.hasFailed_iff.1 (hfares.refused ys rfl e he hrefused)
  rw [Domain.failedDependencies_ne_nil_iff]
  exact .inr ⟨k, hk, .inr ⟨y, hmem y hy, hkind, hname.trans hlabel.symm, hfailed⟩⟩

/-- **If nothing is struck, a domain is blamed for the volumes of its own that are refused and for nothing else.** -/
theorem blamed_iff (hstruck : ¬ struck) {x : Domain} : x.failedDependencies xs ≠ [] ↔ d.Denies t x := by
  refine ⟨fun hblamed => ?_, h.blamed_of_denies⟩
  have hfails : ∀ {kind : ResourceKind} {name : String}, Report.Fails xs kind name →
      kind = .volume ∧ d.Refuses t name := by
    rintro _ _ ⟨y, hy, rfl, rfl, hfailed⟩
    obtain ⟨ofNetwork, ofPool, hgathers, hnetworks, hpools⟩ := h
    obtain ⟨ys, hys, hmem⟩ := hgathers.source xs rfl y hy hfailed
    rcases List.mem_append.1 hys with hys | hys
    · obtain ⟨n, hn, hvalue⟩ := List.mem_map.1 hys
      obtain ⟨e, he, -⟩ := ((hnetworks n hn).calm hstruck ys hvalue).2.2 y hmem hfailed
      exact absurd he (by simp)
    · obtain ⟨p, hp, hvalue⟩ := List.mem_map.1 hys
      obtain ⟨e, he, hrefused, hkind, hname⟩ := ((hpools p hp).calm hstruck ys hvalue).2.2 y hmem hfailed
      exact ⟨hkind, p, hp, e, he, hrefused, hname⟩
  rcases Domain.failedDependencies_ne_nil_iff.1 hblamed with ⟨i, -, hfailed⟩ | ⟨k, hk, hfailed | hfailed⟩
  · exact absurd (hfails hfailed).1 (by simp)
  · exact absurd (hfails hfailed).1 (by simp)
  · exact ⟨k, hk, (hfails hfailed).2⟩

end

/-- **Wherever networks and pools stop, the same can be written of volumes as before, and the same volumes are
refused.** -/
theorem still (hplain : d.IsPlain) (hvalid : d.Validates) (h : d.Supplies struck t u first) (htold : d.IsTold t) :
    d.IsTold u ∧ ∀ x, d.Denies u x ↔ d.Denies t x := by
  obtain ⟨-, ofPool, -, -, hpools⟩ := h
  have hended : ∀ p ∈ d.pools.items, ∀ e ∈ p.volumes,
      (e.IsRefused p.name (e.storedIn (u.get? .pool p.name)) ↔
        e.IsRefused p.name (e.storedIn (t.get? .pool p.name))) ∧
      e.IsTold p.name (e.storedIn (u.get? .pool p.name)) := fun p hp e he =>
    (VolumeEntry.ended_of_kept ((hvalid.pool_isSound hplain hp).sound e he) (htold p hp e he)
      ((hpools p hp).kept e he)).2
  refine ⟨fun p hp e he => (hended p hp e he).2, fun x => exists_congr fun k => and_congr_right fun _ => ?_⟩
  constructor
  · rintro ⟨p, hp, e, he, hrefused, hlabel⟩
    exact ⟨p, hp, e, he, (hended p hp e he).1.1 hrefused, hlabel⟩
  · rintro ⟨p, hp, e, he, hrefused, hlabel⟩
    exact ⟨p, hp, e, he, (hended p hp e he).1.2 hrefused, hlabel⟩

/-- **Networks and pools that were struck come to what they would have come to**, as soon as nothing is struck. -/
theorem resembles (hplain : d.IsPlain) (hvalid : d.Validates) {clean again : Tables} {xs ys zs : List Result}
    (hclean : d.Supplies False t clean (.ok xs)) (hstruck : d.Supplies struck t u (.ok ys))
    (hagain : d.Supplies False u again (.ok zs)) {k : DefinedKind} (hk : k ≠ .domain) {name : String}
    (hname : name ∈ d.names k) : Option.Rel StoredResource.Resembles (clean.get? k name) (again.get? k name) := by
  cases k with
  | network =>
    obtain ⟨n, hn, rfl⟩ := List.mem_map.1 hname
    obtain ⟨_, hn₀, -⟩ := hclean.network hn
    obtain ⟨_, hn₁, -⟩ := hstruck.network hn
    obtain ⟨_, hn₂, -⟩ := hagain.network hn
    exact hn₀.resembles (by simp) hn₁ hn₂
  | pool =>
    obtain ⟨p, hp, rfl⟩ := List.mem_map.1 hname
    obtain ⟨_, hp₀, -⟩ := hclean.pool hp
    obtain ⟨_, hp₁, -⟩ := hstruck.pool hp
    obtain ⟨_, hp₂, -⟩ := hagain.pool hp
    exact hp₀.resembles (hvalid.pool_isSound hplain hp).sound hp₁ hp₂
  | domain => exact absurd rfl hk

end Supplies

end Desired

/-! ### Domains -/

open Talk in
/-- **What can have become of a domain**: if it is blamed it is as it was, and otherwise it leads to where it led
before. -/
theorem Domain.endures_task {x : Domain} (h : Text.ArePlain x.texts) (hrestart : x.restart ≠ some true)
    {polls : Table Int} (t : Tables) (hsteady : ∀ r ∈ t.get? .domain x.name, x.IsSteady r) (timeout : Binary64)
    (before : List Result) :
    Endures True polls (fun _ u =>
        (x.failedDependencies before ≠ [] → u.get? .domain x.name = t.get? .domain x.name) ∧
        x.Persists x.document.print ((polls.get? x.name).getD 0) (t.get? .domain x.name) (u.get? .domain x.name))
      (x.task false timeout before (t.get? .domain x.name).isSome) t := by
  unfold task
  dsimp only
  split
  · next hfree =>
    have hsync : Endures True polls (fun _ u =>
        x.Persists x.document.print ((polls.get? x.name).getD 0) (t.get? .domain x.name) (u.get? .domain x.name))
        (x.sync false timeout (t.get? .domain x.name).isSome).run t := by
      cases htext : x.written with
      | ok text =>
        obtain rfl := eq_print_of_written h htext
        exact endures_sync htext (nameInDocument_of_written h htext) (legible h).documentsMatch_print hrestart t
          hsteady timeout
      | error why =>
        -- nothing is asked of the host if the document cannot be written
        have hstops : (x.sync false timeout (t.get? .domain x.name).isSome).run
            = Pure.pure (.error (.unwritable why)) := by
          unfold sync store
          rw [htext]
          rfl
        rw [hstops]
        exact .pure (.refl _ _ _ _)
    refine Endures.bind (Endures.supervise (hsync.mono fun _ u hpersists => ?_)) fun _ _ h => .pure h
    exact ⟨fun hblamed => absurd (List.isEmpty_iff.1 hfree) hblamed, hpersists⟩
  · exact .pure ⟨fun _ => rfl, .refl _ _ _ _⟩

namespace Desired.Course

variable {d : Desired} {timeout : Binary64} {m : Memory} (c : Course d false timeout m) (hm : m.Uncancelled)
  (hplain : d.IsPlain) (hvalid : d.Validates)

include hm hplain hvalid

/-- Networks and pools fare as their tasks do in the course of a pass. -/
theorem supplies (struck : Prop) (hcalm : ¬ struck → m.Calm) :
    d.Supplies struck m.tables c.final.tables (.ok (c.ofNetworks ++ c.ofPools)) := by
  obtain ⟨ofNetwork, ofPool, hgathers, hnetworks, hpools⟩ := supplies_networksAndPools struck hplain hvalid hm hcalm
  rw [c.run_networksAndPools] at hgathers hnetworks hpools
  refine ⟨ofNetwork, ofPool, hgathers, fun n hn => ?_, fun p hp => ?_⟩
  · rw [c.get?_final_of_declared (k := .network) hplain hvalid (List.mem_map.2 ⟨n, hn, rfl⟩),
      show c.inLine .network = c.wired from rfl, ← c.get?_filled hplain hvalid (by simp)]
    exact hnetworks n hn
  · rw [c.get?_final_of_declared (k := .pool) hplain hvalid (List.mem_map.2 ⟨p, hp, rfl⟩)]
    exact hpools p hp

/-- **What can have become of a declared domain in the end of a pass.** -/
theorem persists_domain (hrestart : ∀ x ∈ d.domains.items, x.restart ≠ some true)
    (hsteady : ∀ x ∈ d.domains.items, ∀ r ∈ m.tables.get? .domain x.name, x.IsSteady r) {x : Domain}
    (hx : x ∈ d.domains.items) :
    (x.failedDependencies (c.ofNetworks ++ c.ofPools) ≠ [] →
      c.final.tables.get? .domain x.name = m.tables.get? .domain x.name) ∧
    x.Persists x.document.print ((m.polls.get? x.name).getD 0) (m.tables.get? .domain x.name)
      (c.final.tables.get? .domain x.name) := by
  have hfilled : ∀ name, c.filled.tables.get? .domain name = m.tables.get? .domain name := fun name => by
    rw [c.get?_filled hplain hvalid (by simp), c.get?_wired hplain (by simp)]
  obtain ⟨-, -, hfares⟩ := Stock.exists_fares True
    (P := fun x old new _ => (∀ r ∈ old, x.IsSteady r) →
      (x.failedDependencies (c.ofNetworks ++ c.ofPools) ≠ [] → new = old) ∧
      x.Persists x.document.print ((m.polls.get? x.name).getD 0) old new)
    (fun y hy => Declared.isManaged_of_mem hy) hvalid.domains
    (fun y hy => confined_domainTask hplain false timeout _ hy) c.takesDomains (fun hnot => absurd trivial hnot)
    (fun y _ => by rw [c.tables_surveyed])
    (fun y hy h hh hstill => by
      rw [← (c.follows_surveyed.trans hh).polls]
      exact (Domain.endures_task (hplain.domain hy) (hrestart y hy) h.tables hstill timeout _).run
        ((c.follows_surveyed.trans hh).uncancelled hm) fun hnot => absurd trivial hnot)
    (fun _ y _ old _ _ => ⟨fun _ => rfl, .refl _ _ _ _⟩) c.runsDomains
  have hend := hfares x hx
  rw [hfilled] at hend
  rw [c.get?_final_of_declared (k := .domain) hplain hvalid (List.mem_map.2 ⟨x, hx, rfl⟩)]
  exact hend (hsteady x hx)

end Desired.Course

end VirtualTopology
