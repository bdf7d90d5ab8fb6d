import VirtualTopology.Proofs.Completeness
import VirtualTopology.Proofs.Pass.Endings

/-!
# Domains that depend on something that failed

A declared domain is blocked (`Report.Blocks`) exactly if the network of one of its interfaces failed, the pool of one
of its disks, or the volume of one of its disks (`Settings.blocked_iff`), provided that domains could be listed. What
failed is looked up by kind and label, and different pools can give their volumes one label; for a domain whose
disks have labels of their own (`Desired.TellsApart`) it is the very entry that failed.

The work on a blocked domain makes no call at all. Its document is still read when networks or pools are to be removed,
to see whether it refers to them (`Desired.LeavesAlone`).
-/

namespace VirtualTopology

open Dialogue

/-! ### What reports say of dependencies -/

/-- Whether results say that a resource failed. -/
def Report.Fails (rs : List Result) (kind : ResourceKind) (name : String) : Prop :=
  ∃ y ∈ rs, y.kind = kind ∧ y.name = name ∧ y.outcome = .failed

/-- Whether a result says that a resource failed because of what it depends on. -/
def Result.IsBlocked (y : Result) : Prop := y.outcome = .failed ∧ y.failureKind = some .dependencyFailed

/-- Whether results say that a domain failed because of what it depends on. -/
def Report.Blocks (rs : List Result) (name : String) : Prop :=
  ∃ y ∈ rs, y.kind = .domain ∧ y.name = name ∧ y.IsBlocked

instance (rs : List Result) (kind : ResourceKind) (name : String) : Decidable (Report.Fails rs kind name) :=
  inferInstanceAs (Decidable (∃ y ∈ rs, y.kind = kind ∧ y.name = name ∧ y.outcome = .failed))

instance (rs : List Result) (name : String) : Decidable (Report.Blocks rs name) :=
  inferInstanceAs (Decidable (∃ y ∈ rs, y.kind = .domain ∧ y.name = name ∧ y.outcome = .failed ∧
    y.failureKind = some .dependencyFailed))

namespace Desired

/-- Whether something that a domain depends on failed: the network of an interface, the pool of a disk, or the entry of
the volume of a disk. -/
def HasFailedDependency (d : Desired) (x : Domain) (rs : List Result) : Prop :=
  (∃ i ∈ x.interfaces, Report.Fails rs .network i.network) ∨
  (∃ k ∈ x.disks, Report.Fails rs .pool k.pool) ∨
  ∃ k ∈ x.disks, ∃ p ∈ d.pools.items, ∃ e ∈ p.volumes, p.name = k.pool ∧ e.name = k.volume ∧
    Report.Fails rs .volume (e.label p.name)

/-- Whether the volumes of a domain's disks have labels of their own among the declared entries. -/
def TellsApart (d : Desired) (x : Domain) : Prop :=
  ∀ k ∈ x.disks, ∀ p ∈ d.pools.items, ∀ e ∈ p.volumes, e.label p.name = volumeLabel k.pool k.volume →
    p.name = k.pool ∧ e.name = k.volume

/-- Whether calls leave a declared domain alone: none is about it, except that another declared domain may be stored
under its name; but once resources are to be removed its document is read, which happens only if a network or pool is
stale. -/
def LeavesAlone (d : Desired) (x : Domain) (t : Tables) (calls : List (Memory × Call)) : Prop :=
  ∃ before after, calls = before ++ after ∧
    (∀ y ∈ before, y.2.IsAbout .domain x.name →
      ∃ z ∈ d.domains.items, z.name ≠ x.name ∧ ∃ text, z.written = .ok text ∧ y.2 = .define .domain text) ∧
    (∀ y ∈ after, y.2.IsAbout .domain x.name → y.2 = .read .domain x.name) ∧
    (after ≠ [] → ∃ k name, k ≠ .domain ∧ d.IsStale t k name)

end Desired

/-! ### What domains depend on -/

namespace Domain

theorem hasFailed_iff {rs : List Result} {kind : ResourceKind} {name : String} :
    hasFailed rs kind name = true ↔ Report.Fails rs kind name := by
  simp only [hasFailed, List.any_eq_true, Bool.and_eq_true, beq_iff_eq, Report.Fails]
  exact exists_congr fun y => and_congr_right fun _ => ⟨fun ⟨⟨ho, hk⟩, hn⟩ => ⟨hk, hn, ho⟩,
    fun ⟨hk, hn, ho⟩ => ⟨⟨ho, hk⟩, hn⟩⟩

/-- What a domain depends on failed if a network, a pool or a volume is found among the failures by its label. -/
theorem failedDependencies_ne_nil_iff {x : Domain} {rs : List Result} :
    x.failedDependencies rs ≠ [] ↔
      (∃ i ∈ x.interfaces, Report.Fails rs .network i.network) ∨
      ∃ k ∈ x.disks, Report.Fails rs .pool k.pool ∨ Report.Fails rs .volume (volumeLabel k.pool k.volume) := by
  simp only [← hasFailed_iff]
  have hdups : ∀ names : List String, names.eraseDups ≠ [] ↔ ∃ name, name ∈ names := fun names =>
    ⟨fun h => (List.exists_mem_of_ne_nil _ h).imp fun _ => List.mem_eraseDups.1,
      fun ⟨_, h⟩ => List.ne_nil_of_mem (List.mem_eraseDups.2 h)⟩
  simp only [failedDependencies, hdups, List.mem_append, List.mem_map, List.mem_filter, List.mem_filterMap]
  constructor
  · rintro ⟨name, ⟨network, ⟨⟨i, hi, rfl⟩, hfailed⟩, -⟩ | ⟨k, hk, hsome⟩⟩
    · exact .inl ⟨i, hi, hfailed⟩
    · refine .inr ⟨k, hk, ?_⟩
      split at hsome
      · next hpool => exact .inl hpool
      · split at hsome
        · next hvolume => exact .inr hvolume
        · exact absurd hsome (by simp)
  · rintro (⟨i, hi, hfailed⟩ | ⟨k, hk, hfailed⟩)
    · exact ⟨_, .inl ⟨i.network, ⟨⟨i, hi, rfl⟩, hfailed⟩, rfl⟩⟩
    · by_cases hpool : hasFailed rs .pool k.pool = true
      · exact ⟨"pool " ++ k.pool, .inr ⟨k, hk, by rw [if_pos hpool]⟩⟩
      · have hvolume := hfailed.resolve_left hpool
        exact ⟨"volume " ++ volumeLabel k.pool k.volume, .inr ⟨k, hk, by rw [if_neg hpool, if_pos hvolume]⟩⟩

/-! ### Tasks for domains -/

theorem comesTo_awaitOff (name : String) (deadline : Binary64) (looks : Nat) :
    Work.ComesTo (fun _ => True) Trouble.IsOwn (awaitOff name deadline looks) := by
  induction looks with
  | zero => exact .pure trivial
  | succ looks ih =>
    unfold awaitOff
    refine .seq (.attempt _ _) fun running => ?_
    split
    · refine .seq (.lift _) fun now => ?_
      dsimp only
      split
      · exact .pure trivial
      · exact .seq (.lift _) fun _ => ih
    · exact .pure trivial

/-- Work that brings a domain in line never tells that something it depends on failed. -/
theorem comesTo_own (x : Domain) (dry : Bool) (timeout : Binary64) (exists_ : Bool) :
    Work.ComesTo (fun y => y.failureKind = none) Trouble.IsOwn (x.sync dry timeout exists_) := by
  have hstore : Work.ComesTo (fun _ => True) Trouble.IsOwn (x.store dry exists_) := by
    unfold store
    refine .seq (.writing _) fun text => ?_
    split
    · refine .seq (.attempt _ _) fun stored => ?_
      split
      · exact .pure trivial
      · exact .seq (.change _ _ _) fun _ => .pure trivial
    · exact .seq (.change _ _ _) fun _ => .pure trivial
  have hwait : Work.ComesTo (fun _ => True) Trouble.IsOwn (waitForShutdown x.name timeout) :=
    .seq (.lift _) fun now => comesTo_awaitOff _ _ _
  have hrestart : Work.ComesTo (fun _ => True) Trouble.IsOwn (restartNow dry timeout x.name) := by
    unfold restartNow
    refine .seq (.change _ _ _) fun _ => ?_
    have hstart : ∀ off : Bool, Work.ComesTo (fun _ => True) Trouble.IsOwn (do
        Work.change dry .start (.start .domain x.name)
        return if off then "restarted" else "restarted (forced off)") := fun off =>
      .seq (.change _ _ _) fun _ => .pure trivial
    split
    · exact .seq (.pure trivial) fun off => .seqIf (.change _ _ _) (hstart off)
    · exact .seq hwait fun off => .seqIf (.change _ _ _) (hstart off)
  have hpower : ∀ outcome running, Work.ComesTo (fun _ => True) Trouble.IsOwn
      (x.power dry timeout outcome running) := fun outcome running => by
    unfold power
    split
    · exact .seq (.change _ _ _) fun _ => .pure trivial
    · split
      · exact .seq (.change _ _ _) fun _ => .pure trivial
      · split
        · exact .seq hrestart fun _ => .pure trivial
        · split <;> exact .pure trivial
  -- storing and power have problems of their own only, and the result tells none
  rw [sync_eq]
  refine hstore.seq fun stored => ?_
  unfold finish
  dsimp only
  split
  · exact .seq (.attempt _ _) fun running => .seq (hpower _ _) fun said => .pure rfl
  · exact .seq (.pure trivial) fun running => .seq (hpower _ _) fun said => .pure rfl

/-- A call that the work on a domain makes, unless the domain is blocked. -/
def Attends (x : Domain) (before : List Result) (c : Call) : Prop :=
  x.failedDependencies before = [] ∧
    (c.IsAbout .domain x.name ∨ ∃ text, x.written = .ok text ∧ c = .define .domain text)

/-- **The task for a domain**: it has a result that says whether the domain is blocked, and makes no call if it is. -/
theorem confined_attends (x : Domain) (dry : Bool) (timeout : Binary64) (before : List Result) (exists_ : Bool) :
    (x.task dry timeout before exists_).Confined (Query.CallsOnly (x.Attends before))
      (Recorded.All fun y => y.kind = .domain ∧ y.name = x.name ∧
        (y.IsBlocked ↔ x.failedDependencies before ≠ [])) := by
  unfold task
  dsimp only
  split
  · next hnone =>
    have hfree : x.failedDependencies before = [] := List.isEmpty_iff.1 hnone
    have hcalls : Frank (x.Attends before) (fun y => y.kind = .domain ∧ y.name = x.name)
        (x.sync dry timeout exists_).run :=
      frank_sync_of (fun habout _ => ⟨hfree, .inl habout⟩) (fun _ text htext => ⟨hfree, .inr ⟨text, htext, rfl⟩⟩)
        (fun _ => ⟨hfree, .inl rfl⟩) (fun _ _ _ => ⟨hfree, .inl rfl⟩) timeout exists_
    have hown : (do let ending ← supervise .domain x.name (x.sync dry timeout exists_)
                    return ending.recorded : Talk Recorded).Confined (fun _ => True)
        (Recorded.All fun y => ¬ y.IsBlocked) :=
      ((x.comesTo_own dry timeout exists_).mono fun y hy hblocked =>
        absurd (hy.symm.trans hblocked.2) (by simp)).confined_recorded
        (fun op reason fk hfk hblocked => hfk op reason fk rfl (Option.some.inj hblocked.2))
        (fun hblocked => absurd hblocked.1 (by simp [Result.cancelled]))
    refine (hcalls.confined_recorded.and hown).mono (fun _ hq => hq.1) fun r hr rs hrs y hy => ?_
    obtain ⟨hkind, hname⟩ := hr.1 rs hrs y hy
    exact ⟨hkind, hname, fun hblocked => absurd hblocked (hr.2 rs hrs y hy), fun hne => absurd hfree hne⟩
  · next hsome =>
    exact Confined.pure ((Recorded.all_ok_iff _).2 (by
      simpa [Result.stuck, Result.failure, Result.IsBlocked] using hsome))

end Domain

namespace Desired

variable {d : Desired} {dry : Bool} {timeout : Binary64} {m : Memory} {first : List Result}

/-! ### What each phase says and does -/

/-- A result that is not for a domain, and if it is for a volume has the label of a declared entry. -/
def NamesEntry (d : Desired) (y : Result) : Prop :=
  y.kind ≠ .domain ∧ (y.kind = .volume → ∃ p ∈ d.pools.items, ∃ e ∈ p.volumes, y.name = e.label p.name)

theorem confined_namesEntry (networks pools : Stock) (hnetworks : networks.Shows m .network (d.manages .network))
    (hpools : pools.Shows m .pool (d.manages .pool)) :
    (gather (networks.tasks .network d.networks.items (·.name) (fun _ => []) (fun n => n.task dry) ++
      pools.tasks .pool d.pools.items (·.name) Pool.volumesLost (fun p => p.task dry))).Confined
        (Query.CallsOnly (·.target.1 ≠ .domain)) (Recorded.All d.NamesEntry) := by
  have hnetwork : ∀ y : Result, y.kind = .network → d.NamesEntry y := fun y hy => by simp [NamesEntry, hy]
  have hpool : ∀ y : Result, y.kind = .pool → d.NamesEntry y := fun y hy => by simp [NamesEntry, hy]
  have hvolume : ∀ q ∈ d.pools.items, ∀ y, q.ReportsVolume y → d.NamesEntry y :=
    fun q hq y hy => ⟨by simp [hy.1], fun _ => ⟨q, hq, hy.2⟩⟩
  refine Confined.gather fun t ht => ?_
  rcases List.mem_append.1 ht with ht | ht
  · refine Stock.confined_each (fun results hs y hy => hnetwork y (hnetworks.kind_of_leftAlone hs hy))
      (fun _ _ n _ b => ?_) (fun _ _ _ => hnetwork _ rfl) (by simp) t ht
    exact (n.confined_makes dry b).mono (fun _ hq => hq.mono fun c hc => by rw [hc.kind]; simp)
      fun _ hr => hr.mono fun y hy => hnetwork y hy.1
  · refine Stock.confined_each (fun results hs y hy => hpool y (hpools.kind_of_leftAlone hs hy))
      (fun _ _ q hq b => ?_) (fun _ _ _ => hpool _ rfl)
      (fun q hq y hy => hvolume q hq y (Pool.reportsVolume_volumesFailed _ _ _ y hy)) t ht
    exact (q.confined_makes dry b).mono (fun _ hq => hq.mono fun c hc => by rw [hc.kind]; simp)
      fun _ hr => hr.mono fun y hy => hy.elim (fun hy => hpool y hy.1) (hvolume q hq y)

/-- A result for a declared domain, which says whether the domain is blocked. -/
def TellsBlocked (d : Desired) (first : List Result) (y : Result) : Prop :=
  y.kind = .domain ∧ ∃ x ∈ d.domains.items, y.name = x.name ∧ (y.IsBlocked ↔ x.failedDependencies first ≠ [])

/-- The tasks for domains that could be listed have a result for each of them, which says whether it is blocked, and
attend to those that are not. -/
theorem confined_tellsBlocked (hlisted : ¬ m.Strikes (.list .domain)) {x : Domain} (hx : x ∈ d.domains.items)
    (domains : Stock) (hdomains : domains.Shows m .domain (d.manages .domain)) :
    (gather (domains.tasks .domain d.domains.items (·.name) (fun _ => [])
      (fun z => z.task dry timeout first))).Confined
        (Query.CallsOnly fun c => ∃ z ∈ d.domains.items, z.Attends first c)
        (fun r => r.All (d.TellsBlocked first) ∧ r.Covers (d.names .domain |>.map (.domain, ·))) := by
  have hmanaged : d.manages .domain = true := manages_of_mem (List.mem_map_of_mem hx)
  have hcovers := covers_domainsInLine dry timeout first hdomains
  rw [hmanaged] at hdomains
  cases hdomains with
  | unknown struck reason => exact absurd struck hlisted
  | known lists =>
    have htasks : ∀ t ∈ (Stock.known (m.tables.sortedNames .domain)).tasks .domain d.domains.items (·.name)
        (fun _ => [])
        (fun z => z.task dry timeout first),
        t.Confined (Query.CallsOnly fun c => ∃ z ∈ d.domains.items, z.Attends first c)
          (Recorded.All (d.TellsBlocked first)) :=
      List.forall_mem_map.2 fun z hz => (z.confined_attends dry timeout first _).mono
        (fun _ hq => hq.mono fun c hc => ⟨z, hz, hc⟩) fun _ hr => hr.mono fun y hy => ⟨hy.1, z, hz, hy.2⟩
    have hall := Confined.gather htasks
    exact (hall.and hcovers).mono (fun _ hq => hq.1) fun _ h => h

/-- Removing stale domains says and does nothing about others. -/
theorem confined_staleDomains (names : List String) :
    (gather (names.map (Domain.removal dry))).Confined
      (Query.CallsOnly fun c => ∃ name ∈ names, c.IsAbout .domain name)
      (Recorded.All fun y => y.kind = .domain ∧ y.name ∈ names) := by
  refine Confined.gather (List.forall_mem_map.2 fun name hname => ?_)
  refine (Domain.confined_removal dry name).mono (fun _ hq => hq.mono fun c hc => ⟨name, hname, hc.about⟩)
    fun _ hr => hr.mono fun y hy => ⟨hy.1, by rw [hy.2]; exact hname⟩

/-- Removing networks and pools, if there are any to remove, lists and reads domains. -/
theorem confined_staleRest (results : List Result) (stale : List (DefinedKind × String)) :
    (Removal.run dry results stale).Confined
      (Query.CallsOnly fun c => stale ≠ [] ∧ (c = .list .domain ∨ (∃ name, c = .read .domain name) ∨
        ∃ s ∈ stale, c.IsAbout s.1 s.2))
      (Recorded.All (Removal.Reports stale)) := by
  cases stale with
  | nil => exact Confined.pure ((Recorded.all_ok_iff []).2 (by simp))
  | cons s stale =>
    refine (Removal.confined_run_of (p := fun c => c = .list .domain ∨ ∃ name, c = .read .domain name)
      (fun name => .inr ⟨name, rfl⟩) (.inl rfl) dry results (s :: stale)).mono
      (fun _ hq => hq.mono fun c hc => ⟨by simp, ?_⟩) fun _ => id
    rcases hc with (hlist | hread) | ⟨s, hs, hproper⟩
    · exact .inl hlist
    · exact .inr (.inl hread)
    · exact .inr (.inr ⟨s, hs, hproper.about⟩)

/-! ### The whole pass -/

namespace Validates

variable (hvalid : d.Validates) {x : Domain} (hx : x ∈ d.domains.items)

include hvalid hx

theorem eq_of_name {z : Domain} (hz : z ∈ d.domains.items) (hname : x.name = z.name) : z = x :=
  List.inj_on_of_nodup_map hvalid.domains hz hx hname.symm

/-- The network of an interface of a declared domain is not stale. -/
theorem not_isStale_network {i : Interface} (hi : i ∈ x.interfaces) (t : Tables) :
    ¬ d.IsStale t .network i.network := by
  rintro ⟨hmanaged, -, hundeclared⟩
  have hresolves := hvalid.network_resolves hx hi
  rw [manages] at hmanaged
  rw [names] at hundeclared
  cases hnetworks : d.networks with
  | unmanaged assumed => exact absurd hmanaged (by simp [hnetworks, Declared.isManaged])
  | managed items =>
    rw [hnetworks] at hresolves hundeclared
    obtain ⟨n, hn, hname⟩ := List.any_eq_true.1 hresolves
    exact hundeclared (List.mem_map.2 ⟨n, hn, beq_iff_eq.1 hname⟩)

/-- The pool of a disk of a declared domain is not stale. -/
theorem not_isStale_pool {k : Disk} (hk : k ∈ x.disks) (t : Tables) : ¬ d.IsStale t .pool k.pool := by
  rintro ⟨hmanaged, -, hundeclared⟩
  have hresolves := hvalid.pool_resolves hx hk
  rw [manages] at hmanaged
  rw [names] at hundeclared
  cases hpools : d.pools with
  | unmanaged assumed => exact absurd hmanaged (by simp [hpools, Declared.isManaged])
  | managed items =>
    rw [hpools] at hresolves hundeclared
    obtain ⟨p, hp, hname⟩ := List.any_eq_true.1 hresolves
    exact hundeclared (List.mem_map.2 ⟨p, hp, beq_iff_eq.1 hname⟩)

end Validates

/-- What the phases of a pass say and do: the results of each of them, the calls before resources are removed, and
those behind. -/
structure Phased (d : Desired) (m : Memory) (first second third last : List Result)
    (before after : List (Memory × Call)) : Prop where
  ofFirst : ∀ y ∈ first, d.NamesEntry y
  ofSecond : ∀ y ∈ second, d.TellsBlocked first y
  covers : (second.map Result.key).Perm ((d.names .domain).map (.domain, ·))
  ofThird : ∀ y ∈ third, y.kind = .domain ∧ y.name ∉ d.names .domain
  ofLast : ∀ y ∈ last, ∃ k name, k ≠ .domain ∧ d.IsStale m.tables k name ∧ y.kind = k.resource ∧ y.name = name
  before : ∀ y ∈ before, y.2.target.1 ≠ .domain ∨ y.2 = .list .domain ∨
    (∃ z ∈ d.domains.items, z.Attends first y.2) ∨ ∃ name, name ∉ d.names .domain ∧ y.2.IsAbout .domain name
  after : ∀ y ∈ after, (∃ k name, k ≠ .domain ∧ d.IsStale m.tables k name) ∧
    (y.2 = .list .domain ∨ (∃ name, y.2 = .read .domain name) ∨ y.2.target.1 ≠ .domain)

namespace Phased

variable {second third last : List Result} {before after : List (Memory × Call)}
  (h : d.Phased m first second third last before after)

include h

/-- What a domain depends on fails before it or not at all: it is not removed. -/
theorem fails_first {k : ResourceKind} {name : String} (hk : k ≠ .domain)
    (hkept : ∀ l, l ≠ .domain → l.resource = k → ¬ d.IsStale m.tables l name)
    (hfails : Report.Fails (first ++ second ++ third ++ last) k name) : Report.Fails first k name := by
  obtain ⟨y, hy, hkind, hname, hfailed⟩ := hfails
  simp only [List.mem_append] at hy
  rcases hy with ((hy | hy) | hy) | hy
  · exact ⟨y, hy, hkind, hname, hfailed⟩
  · exact absurd (hkind.symm.trans (h.ofSecond y hy).1) hk
  · exact absurd (hkind.symm.trans (h.ofThird y hy).1) hk
  · obtain ⟨l, name', hl, hstale, hykind, hyname⟩ := h.ofLast y hy
    exact absurd (hname ▸ hyname ▸ hstale) (hkept l hl (hykind.symm.trans hkind))

variable (hvalid : d.Validates) {x : Domain} (hx : x ∈ d.domains.items)

include hvalid hx

/-- **A domain is reported blocked if something it depends on is among the failures before it.** -/
theorem blocks_iff :
    Report.Blocks (first ++ second ++ third ++ last) x.name ↔ x.failedDependencies first ≠ [] := by
  have hdeclared : x.name ∈ d.names .domain := List.mem_map_of_mem hx
  constructor
  · rintro ⟨y, hy, hkind, hname, hblocked⟩
    simp only [List.mem_append] at hy
    rcases hy with ((hy | hy) | hy) | hy
    · exact absurd hkind (h.ofFirst y hy).1
    · obtain ⟨-, z, hz, hzname, hiff⟩ := h.ofSecond y hy
      obtain rfl := hvalid.eq_of_name hx hz (hname.symm.trans hzname)
      exact hiff.1 hblocked
    · exact absurd hdeclared (hname ▸ (h.ofThird y hy).2)
    · obtain ⟨k, name, hk, -, hykind, -⟩ := h.ofLast y hy
      exact absurd (DefinedKind.resource_injective (k := k) (l := .domain) (hykind.symm.trans hkind)) hk
  · intro hfailed
    obtain ⟨y, hy, hkey⟩ : ∃ y ∈ second, y.key = (.domain, x.name) :=
      List.mem_map.1 (h.covers.mem_iff.2 (List.mem_map_of_mem hdeclared))
    obtain ⟨hkind, z, hz, hzname, hiff⟩ := h.ofSecond y hy
    obtain rfl := hvalid.eq_of_name hx hz ((Prod.mk.inj hkey).2.symm.trans hzname)
    exact ⟨y, by simp [hy], hkind, (Prod.mk.inj hkey).2, hiff.2 hfailed⟩

/-- What a domain depends on by its label failed, if something that it depends on did. -/
theorem failedDependencies_ne_nil (hfailed : d.HasFailedDependency x (first ++ second ++ third ++ last)) :
    x.failedDependencies first ≠ [] := by
  rw [Domain.failedDependencies_ne_nil_iff]
  rcases hfailed with ⟨i, hi, hfails⟩ | ⟨k, hk, hfails⟩ | ⟨k, hk, p, hp, e, he, hpool, hvolume, hfails⟩
  · refine .inl ⟨i, hi, h.fails_first (by simp) (fun l _ hl => ?_) hfails⟩
    obtain rfl := DefinedKind.resource_injective (k := l) (l := .network) hl
    exact hvalid.not_isStale_network hx hi _
  · refine .inr ⟨k, hk, .inl (h.fails_first (by simp) (fun l _ hl => ?_) hfails)⟩
    obtain rfl := DefinedKind.resource_injective (k := l) (l := .pool) hl
    exact hvalid.not_isStale_pool hx hk _
  · have hlabel : e.label p.name = volumeLabel k.pool k.volume := by rw [VolumeEntry.label, hpool, hvolume]
    refine .inr ⟨k, hk, .inr (hlabel ▸ h.fails_first (by simp) (fun l _ hl => ?_) hfails)⟩
    cases l <;> exact absurd hl (by simp [DefinedKind.resource])

omit hvalid hx in
/-- What is found by its label is what a domain depends on, if its volumes can be told apart. -/
theorem hasFailedDependency (hapart : d.TellsApart x) (hfailed : x.failedDependencies first ≠ []) :
    d.HasFailedDependency x (first ++ second ++ third ++ last) := by
  have hall : ∀ {k name}, Report.Fails first k name → Report.Fails (first ++ second ++ third ++ last) k name := by
    rintro k name ⟨y, hy, hrest⟩
    exact ⟨y, by simp [hy], hrest⟩
  rcases Domain.failedDependencies_ne_nil_iff.1 hfailed with ⟨i, hi, hfails⟩ | ⟨k, hk, hfails | hfails⟩
  · exact .inl ⟨i, hi, hall hfails⟩
  · exact .inr (.inl ⟨k, hk, hall hfails⟩)
  · have hfailed := hall hfails
    obtain ⟨y, hy, hkind, hname, -⟩ := hfails
    obtain ⟨p, hp, e, he, hlabel⟩ := (h.ofFirst y hy).2 hkind
    have hlabel : e.label p.name = volumeLabel k.pool k.volume := hlabel.symm.trans hname
    obtain ⟨hpool, hvolume⟩ := hapart k hk p hp e he hlabel
    exact .inr (.inr ⟨k, hk, p, hp, e, he, hpool, hvolume, hlabel ▸ hfailed⟩)

/-- **A blocked domain is left alone.** -/
theorem leavesAlone (hfailed : x.failedDependencies first ≠ []) : d.LeavesAlone x m.tables (before ++ after) := by
  have hdeclared : x.name ∈ d.names .domain := List.mem_map_of_mem hx
  refine ⟨before, after, rfl, fun y hy habout => ?_, fun y hy habout => ?_, fun hne => ?_⟩
  · rcases h.before y hy with helse | hlist | ⟨z, hz, hfree, hmakes⟩ | ⟨name, hundeclared, hname⟩
    · exact absurd (by rw [habout]) helse
    · exact absurd (hlist ▸ habout) (by simp [Call.IsAbout, Call.target])
    · -- the domain that is attended to is not blocked, so it is another one
      have hne : z.name ≠ x.name := fun hsame => hfailed (by
        obtain rfl := hvalid.eq_of_name hx hz hsame.symm
        exact hfree)
      rcases hmakes with hother | hdefine
      · exact absurd (Option.some.inj (Prod.mk.inj (hother.symm.trans habout)).2) hne
      · exact ⟨z, hz, hne, hdefine⟩
    · have hsame : name = x.name := Option.some.inj (Prod.mk.inj (hname.symm.trans habout)).2
      exact absurd hdeclared (hsame ▸ hundeclared)
  · rcases (h.after y hy).2 with hlist | ⟨name, hread⟩ | helse
    · exact absurd (hlist ▸ habout) (by simp [Call.IsAbout, Call.target])
    · rw [hread] at habout ⊢
      obtain rfl := Option.some.inj (Prod.mk.inj habout).2
      rfl
    · exact absurd (by rw [habout]) helse
  · obtain ⟨y, hy⟩ := List.exists_mem_of_ne_nil _ hne
    exact (h.after y hy).1

end Phased

/-- **The phases of a pass over a host on which domains can be listed**, whatever fails and whenever the pass is
cancelled. -/
theorem safe_phased (d : Desired) (dry : Bool) (timeout : Binary64) (hlisted : ¬ m.Strikes (.list .domain)) {x : Domain}
    (hx : x ∈ d.domains.items) :
    Talk.Safe (fun _ _ => True) (fun recorded w => ∀ rs, recorded = .ok rs → ∃ first second third last before after,
        rs = first ++ second ++ third ++ last ∧ w.calls = before ++ after ∧
        d.Phased m first second third last before after)
      (d.phases dry timeout) { host := m } := by
  have hnone : ∀ (why : Unwritable) (w : Watched), Talk.Safe (fun _ _ => True) (fun (recorded : Recorded) w =>
      ∀ rs, recorded = .ok rs → ∃ first second third last before after, rs = first ++ second ++ third ++ last ∧
        w.calls = before ++ after ∧ d.Phased m first second third last before after)
      (pure (.error why)) w := fun why w => .pure fun rs hrs => absurd hrs (by simp)
  -- phase by phase; a document that cannot be written ends the pass, and then there are no results to speak of
  unfold phases
  refine (safe_networksAndPools_of confined_namesEntry).bind ?_
  rintro ⟨first, _, _⟩ w₁ ⟨⟨hlists, hcalls₁⟩, networks, pools, hnetworks, hpools, rfl, rfl, hfirst⟩
  cases first with
  | error why => exact hnone why _
  | ok first =>
    refine (safe_domainsInLine_of hlists (confined_tellsBlocked hlisted hx)).bind ?_
    rintro ⟨second, _⟩ w₂ ⟨⟨more₂, hcalls₂, hmore₂⟩, domains, hdomains, rfl, hsecond, hcovers⟩
    cases second with
    | error why => exact hnone why _
    | ok second =>
      refine (Talk.Safe.calls (confined_staleDomains _) w₂).bind ?_
      rintro third w₃ ⟨hthird, more₃, hcalls₃, hmore₃⟩
      cases third with
      | error why => exact hnone why _
      | ok third =>
        refine (Talk.Safe.calls (confined_staleRest _ _) w₃).bind ?_
        rintro last w₄ ⟨hlast, more₄, hcalls₄, hmore₄⟩
        refine .pure fun rs hrs => ?_
        cases last with
        | error why => exact absurd hrs (by simp [Except.map])
        | ok last =>
          -- what is stale was found in the lists and is not declared
          have hundeclared : ∀ name ∈ domains.stale (d.names .domain), name ∉ d.names .domain :=
            fun name hname => (hdomains.of_mem_stale hname).2.2
          have hstale : ∀ s ∈ (networks.stale (d.names .network)).map (DefinedKind.network, ·) ++
              (pools.stale (d.names .pool)).map (DefinedKind.pool, ·),
              s.1 ≠ .domain ∧ d.IsStale m.tables s.1 s.2 := by
            intro s hs
            rcases List.mem_append.1 hs with hs | hs
            · obtain ⟨name, hname, rfl⟩ := List.mem_map.1 hs
              exact ⟨by simp, hnetworks.of_mem_stale hname⟩
            · obtain ⟨name, hname, rfl⟩ := List.mem_map.1 hs
              exact ⟨by simp, hpools.of_mem_stale hname⟩
          refine ⟨first, second, third, last, w₁.calls ++ more₂ ++ more₃, more₄, (Except.ok.inj hrs).symm,
            by rw [hcalls₄, hcalls₃, hcalls₂], hfirst first rfl, hsecond second rfl, hcovers second rfl, ?_, ?_, ?_, ?_⟩
          · exact fun y hy => ⟨(hthird third rfl y hy).1, hundeclared _ (hthird third rfl y hy).2⟩
          · intro y hy
            obtain ⟨s, hs, hkind, hname⟩ := hlast last rfl y hy
            exact ⟨s.1, s.2, (hstale s hs).1, (hstale s hs).2, hkind, hname⟩
          · intro y hy
            simp only [List.mem_append] at hy
            rcases hy with (hy | hy) | hy
            · exact .inl (hcalls₁ y hy)
            · exact .inr ((hmore₂ y hy).imp id .inl)
            · obtain ⟨name, hname, habout⟩ := hmore₃ y hy
              exact .inr (.inr (.inr ⟨name, hundeclared name hname, habout⟩))
          · intro y hy
            obtain ⟨hne, hcases⟩ := hmore₄ y hy
            obtain ⟨s, hs⟩ := List.exists_mem_of_ne_nil _ hne
            refine ⟨⟨s.1, s.2, hstale s hs⟩, hcases.imp id (Or.imp id ?_)⟩
            rintro ⟨s', hs', habout⟩
            rw [habout]
            exact (hstale s' hs').1

end Desired

namespace Settings

/-- **Dependencies are gated exactly**, whatever fails and whenever the pass is cancelled, if domains can be listed: a
declared domain is reported blocked if something that it depends on failed, only then if its volumes can be told
apart, and a blocked domain is left alone. -/
theorem blocked_iff {s : Settings} {d : Desired} {dryRun : Option Bool} {m : Memory} {cancels : Nat → Bool}
    {report : Report} (hvalid : d.Validates) (hlisted : ¬ m.Strikes (.list .domain))
    (h : (m.watch cancels (s.apply d dryRun)).1 = .ok report) {x : Domain} (hx : x ∈ d.domains.items) :
    (d.HasFailedDependency x report.results → Report.Blocks report.results x.name) ∧
    (d.TellsApart x → Report.Blocks report.results x.name → d.HasFailedDependency x report.results) ∧
    (Report.Blocks report.results x.name →
      d.LeavesAlone x m.tables (m.watch cancels (s.apply d dryRun)).2.calls) := by
  have hsafe := safe_report (s := s) (d := d) dryRun fun _ =>
    d.safe_phased (s.isDry dryRun) s.pass.shutdownTimeout hlisted hx
  obtain ⟨rs, rfl, first, second, third, last, before, after, rfl, hcalls, hphased⟩ :=
    (hsafe.watch cancels).2 report h
  rw [hcalls]
  have hmem : ∀ y, y ∈ (Report.of (first ++ second ++ third ++ last) (s.isDry dryRun)).results ↔
      y ∈ first ++ second ++ third ++ last := fun y => Report.mem_of
  simp only [Desired.HasFailedDependency, Report.Fails, Report.Blocks, hmem]
  have hblocks := hphased.blocks_iff hvalid hx
  exact ⟨fun hfailed => hblocks.2 (hphased.failedDependencies_ne_nil hvalid hx hfailed),
    fun hapart hblocked => hphased.hasFailedDependency hapart (hblocks.1 hblocked),
    fun hblocked => hphased.leavesAlone hvalid hx (hblocks.1 hblocked)⟩

end Settings

/-! ### Blocked domains -/

/-- A domain on a network. -/
def Domain.onLab : Domain := { Domain.vm with interfaces := [{ network := "lab" }] }

/-- A desired state with this domain and its network, and with no pools. -/
def Desired.withLab : Desired :=
  { networks := .managed [{ name := "lab", identifier := some ⟨1⟩, forward := .nat, bridge := "virbr56"
                            gateway := .ofQuads 192 168 56 1, netmask := Network.defaultNetmask, dhcp := none
                            active := true, autostart := true }]
    pools := .managed [], domains := .managed [.onLab] }

theorem Desired.validates_withLab : Desired.withLab.Validates :=
  ⟨by simp [withLab, Declared.items], List.isEmpty_iff.1 (by decide +kernel)⟩

/-- A host on which networks cannot be listed, with a pool and a domain. -/
def Memory.withHiddenNetworks : Memory :=
  { tables := { pools := [("scratch", { document := "<pool/>" })], domains := [("vm", { document := "<domain/>" })] }
    disruptions := [{ word := "list_networks", error := .operation }] }

/-- A pass over this host reports the network failed and the domain blocked, and reads the document of the domain
because the pool is stale. -/
theorem Settings.exists_watch_withLab :
    ∃ report, (Memory.withHiddenNetworks.watch (fun _ => false) (({} : Settings).apply .withLab)).1 = .ok report ∧
      Report.Fails report.results .network "lab" ∧ Report.Blocks report.results "vm" ∧
      ∃ y ∈ (Memory.withHiddenNetworks.watch (fun _ => false) (({} : Settings).apply .withLab)).2.calls,
        y.2 = .read .domain "vm" := by
  have hrun : (∃ rs ∈ (Memory.withHiddenNetworks.watch (fun _ => false) (Desired.withLab.phases false
        ({} : Settings).pass.shutdownTimeout)).1.toOption, Report.Fails rs .network "lab" ∧ Report.Blocks rs "vm") ∧
      ∃ y ∈ (Memory.withHiddenNetworks.watch (fun _ => false) (Desired.withLab.phases false
        ({} : Settings).pass.shutdownTimeout)).2.calls, y.2 = .read .domain "vm" := by
    decide +kernel
  rcases hphases : Memory.withHiddenNetworks.watch (fun _ => false) (Desired.withLab.phases false
    ({} : Settings).pass.shutdownTimeout) with ⟨recorded, w⟩
  rw [hphases] at hrun
  obtain ⟨⟨rs, hrs, ⟨y, hy, hfailed⟩, z, hz, hblocked⟩, hread⟩ := hrun
  obtain rfl : recorded = .ok rs := Except.eq_ok_of_mem_toOption hrs
  have happly := watch_apply_of_phases (s := {}) none Desired.validates_withLab hphases
  rw [happly]
  exact ⟨_, rfl, ⟨y, Report.mem_of.2 hy, hfailed⟩, ⟨z, Report.mem_of.2 hz, hblocked⟩, hread⟩

theorem Domain.onLab_mem_withLab : Domain.onLab ∈ Desired.withLab.domains.items := by
  simp [Desired.withLab, Declared.items]

/-- The network of the domain fails, so the domain is left alone. -/
theorem Settings.blocked_withLab :
    ∃ report, (Memory.withHiddenNetworks.watch (fun _ => false) (({} : Settings).apply .withLab)).1 = .ok report ∧
      Report.Blocks report.results "vm" ∧
      Desired.withLab.LeavesAlone .onLab Memory.withHiddenNetworks.tables
        (Memory.withHiddenNetworks.watch (fun _ => false) (({} : Settings).apply .withLab)).2.calls := by
  obtain ⟨report, hreport, hfailed, -⟩ := exists_watch_withLab
  obtain ⟨hblocks, -, hleaves⟩ := blocked_iff Desired.validates_withLab (by decide) hreport Domain.onLab_mem_withLab
  have hblocked := hblocks (.inl ⟨{ network := "lab" }, by simp [Domain.onLab], hfailed⟩)
  exact ⟨report, hreport, hblocked, hleaves hblocked⟩

/-- A pool with one volume. -/
def Pool.holding (name volume target : String) : Pool :=
  { name, identifier := some ⟨1⟩, kind := "dir", target
    volumes := [{ name := volume, present := true
                  volume := some { name := volume, capacity := ⟨1, .GiB⟩, format := "qcow2" } }]
    active := true, autostart := true }

/-- A desired state with two pools whose volumes have one label, and a domain with a disk in the second one. -/
def Desired.withTwins : Desired :=
  { networks := .unmanaged [], pools := .managed [.holding "a" "b/c" "/a", .holding "a/b" "c" "/b"]
    domains := .managed [{ Domain.vm with disks := [{ pool := "a/b", volume := "c" }] }] }

theorem Desired.validates_withTwins : Desired.withTwins.Validates :=
  ⟨by simp [withTwins, Declared.items, Pool.holding, VolumeEntry.agree], List.isEmpty_iff.1 (by decide +kernel)⟩

/-- A host on which the document of the first pool cannot be read. -/
def Memory.withSecretPool : Memory :=
  { tables := { pools := [("a", { document := "<pool/>" })] }
    disruptions := [{ word := "get_pool_definition", subject := some "a", error := .operation }] }

/-- **A blocked domain is read, and a domain is blocked by another volume.** In the first pass the domain is blocked, and
its document is read to see whether it refers to the stale pool. In the second one, a dry run, the pool and the
volume of the domain's disk are created, and the domain is blocked by a volume of the same label in a pool that
fails. -/
theorem Settings.not_blocked_exactly :
    (∃ report, (Memory.withHiddenNetworks.watch (fun _ => false) (({} : Settings).apply .withLab)).1 = .ok report ∧
      Desired.withLab.Validates ∧ Report.Blocks report.results "vm" ∧
      ∃ y ∈ (Memory.withHiddenNetworks.watch (fun _ => false) (({} : Settings).apply .withLab)).2.calls,
        y.2 = .read .domain "vm") ∧
    ∃ report, (Memory.withSecretPool.watch (fun _ => false) (({} : Settings).apply .withTwins (some true))).1 =
        .ok report ∧
      Desired.withTwins.Validates ∧ Report.Blocks report.results "vm" ∧
      report.about .pool "a/b" = [{ kind := .pool, name := "a/b", outcome := .created }] ∧
      report.about .volume "a/b/c" = [.failure .volume "a/b/c" "read" "pool a failed" .dependencyFailed,
        { kind := .volume, name := "a/b/c", outcome := .created }] := by
  constructor
  · obtain ⟨report, hreport, -, hblocked, hread⟩ := exists_watch_withLab
    exact ⟨report, hreport, Desired.validates_withLab, hblocked, hread⟩
  · -- only the phases of the pass are computed
    have hrun : ∃ rs ∈ (Memory.withSecretPool.watch (fun _ => false) (Desired.withTwins.phases true
          ({} : Settings).pass.shutdownTimeout)).1.toOption, Report.Blocks rs "vm" ∧
        rs.filter (·.isAbout .pool "a/b") = [{ kind := .pool, name := "a/b", outcome := .created }] ∧
        rs.filter (·.isAbout .volume "a/b/c") =
          [.failure .volume "a/b/c" "read" "pool a failed" .dependencyFailed,
            { kind := .volume, name := "a/b/c", outcome := .created }] := by
      decide +kernel
    rcases hphases : Memory.withSecretPool.watch (fun _ => false) (Desired.withTwins.phases true
      ({} : Settings).pass.shutdownTimeout) with ⟨recorded, w⟩
    rw [hphases] at hrun
    obtain ⟨rs, hrs, ⟨y, hy, hblocked⟩, hpool, hvolume⟩ := hrun
    obtain rfl : recorded = .ok rs := Except.eq_ok_of_mem_toOption hrs
    have happly := watch_apply_of_phases (s := {}) (some true) Desired.validates_withTwins hphases
    rw [happly]
    exact ⟨_, rfl, Desired.validates_withTwins, ⟨y, Report.mem_of.2 hy, hblocked⟩,
      (Report.about_of rs _ _ _).trans hpool, (Report.about_of rs _ _ _).trans hvolume⟩

end VirtualTopology
