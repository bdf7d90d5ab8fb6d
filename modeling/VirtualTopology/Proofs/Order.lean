import VirtualTopology.Proofs.Distinct
import VirtualTopology.Proofs.Isolation
import VirtualTopology.Proofs.Pass.Rearranged

/-!
# The order of declaration does not matter

A rearranged desired state (`Desired.Rearranges`) gets the same report from the same host, and the host is left with
the same in its tables (`Settings.order_irrelevant`). Phase by phase the results are the same in another order and the
hosts stay twins (`Desired.Rearranges.exists_course`): what a domain blames, what is stale, and which domains have
been removed, does not depend on the order of results.

What counts its calls without naming them strikes whichever domain is started first, which is why all disruptions
have to be addressed (`Settings.not_order_irrelevant`).
-/

namespace VirtualTopology

open Dialogue Talk

/-- Whether two hosts store the same under each name, and in each pool, in whatever order. -/
structure Tables.Alike (t u : Tables) : Prop where
  resources : ∀ k name, (t.get? k name).map (·.bare k) = (u.get? k name).map (·.bare k)
  volumes : ∀ pool volume, (t.volumesOf pool).get? volume = (u.volumesOf pool).get? volume

/-- Twin hosts store the same. -/
theorem Memory.Twins.alike {waits : String → Prop} {m n : Memory} (h : m.Twins waits Place.IsPart n) :
    m.tables.Alike n.tables where
  resources k name := h.same (.resource k name) fun ⟨_, _, heq⟩ => absurd heq (by simp)
  volumes pool volume := (h.same (.volume pool volume) fun ⟨_, _, heq⟩ => absurd heq (by simp)).1

/-- What is stale depends on which names are declared. -/
theorem Stock.stale_congr {declared declared' : List String} (s : Stock) (h : declared.Perm declared') :
    s.stale declared = s.stale declared' := by
  have hcontains : ∀ name, declared.contains name = declared'.contains name := fun name => by
    rw [Bool.eq_iff_iff, List.contains_iff_mem, List.contains_iff_mem, h.mem_iff]
  cases s with
  | leftAlone results => rfl
  | unknown reason => rfl
  | known names => simp only [stale, hcontains]

/-- What a domain blames does not depend on the order of results. -/
theorem Domain.failedDependencies_perm {rs rs' : List Result} (h : rs.Perm rs') (x : Domain) :
    x.failedDependencies rs = x.failedDependencies rs' := by
  have hfailed : ∀ kind name, hasFailed rs kind name = hasFailed rs' kind name := fun _ _ => h.any_eq
  exact failedDependencies_congr (fun _ _ => hfailed _ _) (fun _ _ => hfailed _ _) fun _ _ => hfailed _ _

/-! ### Tasks apart -/

namespace Desired

variable {d d' : Desired} {dry : Bool} {timeout : Binary64} {m : Memory} {waits : String → Prop}

section

variable (hplain : d.IsPlain) (hvalid : d.Validates)

include hplain hvalid

theorem apart_networks (there : Network → Bool) :
    Apart waits d.networks.items (fun n => Place.Of .network n.name) (fun n => Call.IsAbout .network n.name)
      fun n => n.task dry (there n) := by
  refine Apart.of_isAbout hvalid.networks (fun hk => absurd hk (by simp))
    (fun n hn => (Network.confined_task (hplain.network hn) dry _).mono
      (fun _ hq => hq.mono fun _ hc => hc.about) fun _ => id) fun n hn => ?_
  exact Network.agrees_task
    (fun c hc => Call.within_placesOf (Network.isProper_of_makes (hplain.network hn) hc).about) _

theorem apart_pools (hslash : ∀ p ∈ d.pools.items, '/' ∉ p.name.toList) (there : Pool → Bool) :
    Apart waits d.pools.items (fun p => Place.Of .pool p.name) (fun p => Call.IsAbout .pool p.name)
      fun p => p.task dry (there p) := by
  have hsound : ∀ p ∈ d.pools.items, p.IsSound := fun p hp => hvalid.pool_isSound hplain hp
  refine Apart.of_isAbout hvalid.pools (fun _ => hslash)
    (fun p hp => (Pool.confined_task (hsound p hp) dry _).mono
      (fun _ hq => hq.mono fun _ hc => hc.about) fun _ => id) fun p hp => ?_
  exact Pool.agrees_task (fun c hc => Call.within_placesOf (hc.isProper (hsound p hp)).about) _

theorem apart_domains (hwaits : ∀ name, d.Awaits dry name → waits name) (before : List Result)
    (there : Domain → Bool) :
    Apart waits d.domains.items (fun x => Place.Of .domain x.name) (fun x => Call.IsAbout .domain x.name)
      fun x => x.task dry timeout before (there x) := by
  refine Apart.of_isAbout hvalid.domains (fun hk => absurd hk (by simp))
    (fun x hx => (Domain.confined_task (hplain.domain hx) dry timeout before _).mono
      (fun _ hq => hq.mono fun _ hc => hc.about) fun _ => id) fun x hx => ?_
  exact Domain.agrees_task (hplain.domain hx) (fun hdry hmay => hwaits x.name ⟨hdry, x, hx, rfl, hmay⟩) ⟨rfl, rfl⟩
    timeout before _

end

/-! ### Courses -/

/-- A course is what a pass goes through. -/
theorem Course.run_phases (c : d.Course dry timeout m) : m.run (d.phases dry timeout) = (.ok c.results, c.final) := by
  have hfirst : m.run (d.networksAndPools dry) = ((.ok (c.ofNetworks ++ c.ofPools), c.networks.stale (d.names .network),
      c.pools.stale (d.names .pool)), c.filled) := by
    simp only [networksAndPools, Memory.run_bind, Memory.run_pure, Memory.run_gather_append, c.takesNetworks,
      c.takesPools, c.runsNetworks, c.runsPools]
    rfl
  have hsecond : c.filled.run (d.domainsInLine dry timeout (c.ofNetworks ++ c.ofPools)) =
      ((.ok c.ofDomains, c.domains.stale (d.names .domain)), c.powered) := by
    simp only [domainsInLine, Memory.run_bind, Memory.run_pure, c.takesDomains, c.runsDomains]
    rfl
  have hlast := c.runsRest
  simp only [phases, Memory.run_bind, hfirst, hsecond, c.runsRemovals, hlast, Memory.run_pure]
  rfl

namespace Rearranges

/-- The names of a kind in another order. -/
theorem names (h : d.Rearranges d') (k : DefinedKind) : (d.names k).Perm (d'.names k) := by
  cases k with
  | network => exact h.networks.perm.map _
  | pool => exact h.poolNames
  | domain => exact h.domains.perm.map _

/-- **A pass over a rearranged desired state takes the same course**: its results are the same in another order, and
it leaves a twin host behind. -/
theorem exists_course (h : d.Rearranges d') (hplain : d.IsPlain) (hvalid : d.Validates)
    (hslash : ∀ p ∈ d.pools.items, '/' ∉ p.name.toList) (hm : m.Orderly (d.Awaits dry))
    (c : d.Course dry timeout m) :
    ∃ c' : d'.Course dry timeout m, c.results.Perm c'.results ∧
      Memory.Twins (d.Awaits dry) Place.IsPart c.final c'.final := by
  have hplain' := h.isPlain hplain
  have hvalid' := h.validates hvalid
  have hslash' : ∀ q ∈ d'.pools.items, '/' ∉ q.name.toList := fun q hq => by
    obtain ⟨p, hp, hpq⟩ := h.pools.exists_of_mem hq
    exact hpq.name ▸ hslash p hp
  have hawaits : ∀ name, d'.Awaits dry name → d.Awaits dry name := fun name ⟨hdry, x, hx, hname⟩ =>
    ⟨hdry, x, h.domains.perm.mem_iff.2 hx, hname⟩
  -- networks and pools are listed on the same host by both passes
  have hlisted : c.listed.Orderly (d.Awaits dry) := by
    have hcounted := hm.run (Stock.take .network d.networks.isManaged)
    rw [c.takesNetworks] at hcounted
    have hlisted := hcounted.run (Stock.take .pool d.pools.isManaged)
    rwa [c.takesPools] at hlisted
  -- phase by phase: the tasks of a phase are the same in another order, and none of them sees what another one does
  obtain ⟨ofNetworks, wired, runsNetworks, hnetworks, hwired⟩ := c.networks.shuffle_tasks h.networks
    (fun _ _ => congrArg _) (fun _ _ _ => .nil) (apart_networks hplain hvalid) (apart_networks hplain' hvalid')
    (fun n hn b hnb exists_ => by
      obtain rfl : n = b := hnb
      exact Apart.matches_self ((apart_networks hplain hvalid fun _ => exists_).agrees n hn))
    (Memory.Twins.refl hlisted) c.runsNetworks
  obtain ⟨ofPools, filled, runsPools, hpools, hfilled⟩ := c.pools.shuffle_tasks h.pools (fun _ _ hpq => hpq.name)
    (fun _ _ => Pool.perm_volumesLost) (apart_pools hplain hvalid hslash) (apart_pools hplain' hvalid' hslash')
    (fun p hp q hpq exists_ =>
      Pool.matches_task (hvalid.pool_isSound hplain hp) (hpq.isSound (hvalid.pool_isSound hplain hp)) hpq exists_)
    hwired c.runsPools
  have hbefore := hnetworks.append hpools
  have htakes : Agrees (d.Awaits dry) Place.IsPart (Stock.take .domain d.domains.isManaged) :=
    Stock.agrees_take (fun _ ⟨_, _, heq⟩ => absurd heq (by simp)) _
  obtain ⟨surveyed, takesDomains, hsurveyed⟩ := htakes.exists_run hfilled c.takesDomains
  obtain ⟨ofDomains, powered, runsDomains, hpowered, hpoweredTwins⟩ := c.domains.shuffle_tasks h.domains
    (fun _ _ => congrArg _) (fun _ _ _ => .nil) (apart_domains hplain hvalid (fun _ => id) (c.ofNetworks ++ c.ofPools))
    (apart_domains hplain' hvalid' hawaits (ofNetworks ++ ofPools))
    (fun x hx b hxb exists_ => by
      obtain rfl : x = b := hxb
      rw [← Domain.task_congr (x.failedDependencies_perm hbefore)]
      exact Apart.matches_self ((apart_domains hplain hvalid (fun _ => id) _ fun _ => exists_).agrees x hx))
    hsurveyed c.runsDomains
  have hremovals : Agrees (d.Awaits dry) Place.IsPart
      (gather ((c.domains.stale (d.names .domain)).map (Domain.removal dry))) :=
    Agrees.gather (List.forall_mem_map.2 fun name _ =>
      Domain.agrees_removal (fun ⟨_, _, heq⟩ => absurd heq (by simp)) dry)
  obtain ⟨cleared, runsRemovals, hcleared⟩ := hremovals.exists_run hpoweredTwins c.runsRemovals
  have hsoFar := (hbefore.append hpowered).append (List.Perm.refl c.ofRemovals)
  have hsole : Result.AreSole (c.ofNetworks ++ c.ofPools ++ c.ofDomains ++ c.ofRemovals) :=
    (c.areSole_results hplain hvalid hslash).subset (List.subset_append_left _ _)
  -- of each domain one result at most is about its removal, so it does not matter which comes first
  have hremoved : ∀ domain, Removal.wasRemoved (c.ofNetworks ++ c.ofPools ++ c.ofDomains ++ c.ofRemovals) domain
      = Removal.wasRemoved (ofNetworks ++ ofPools ++ ofDomains ++ c.ofRemovals) domain := fun domain => by
    rw [Removal.wasRemoved, Removal.wasRemoved, Result.find?_perm hsole hsoFar]
  obtain ⟨final, runsRest, hfinal⟩ := (Removal.agrees_run dry _ c.rest).exists_run hcleared c.runs_rest
  rw [Removal.run_congr hremoved, Course.rest, Stock.stale_congr _ (h.names .network),
    Stock.stale_congr _ (h.names .pool)] at runsRest
  rw [Stock.stale_congr _ (h.names .domain)] at runsRemovals
  refine ⟨{ networks := c.networks, pools := c.pools, domains := c.domains, counted := c.counted, listed := c.listed
            wired, filled, surveyed, powered, cleared, final, ofNetworks, ofPools, ofDomains
            ofRemovals := c.ofRemovals, ofRest := c.ofRest
            takesNetworks := h.networks.isManaged ▸ c.takesNetworks
            takesPools := h.pools.isManaged ▸ c.takesPools
            runsNetworks, runsPools, takesDomains := h.domains.isManaged ▸ takesDomains
            runsDomains, runsRemovals, runsRest }, hsoFar.append (List.Perm.refl c.ofRest), hfinal⟩

end Rearranges

end Desired

namespace Settings

end Settings

/-! ### Disks and domains in another order -/

/-- A desired state with a pool in which there are to be disks of some names. -/
def Desired.withDisks (names : List String) : Desired :=
  { networks := .managed []
    pools := .managed [{ Pool.images with
      volumes := names.map fun name =>
        { name, present := true, volume := some { name, capacity := ⟨1, .GiB⟩, format := "qcow2" } } }]
    domains := .managed [] }

theorem Desired.rearranges_withDisks {names names' : List String} (h : names.Perm names') :
    (withDisks names).Rearranges (withDisks names') where
  networks := .managed .nil .nil
  pools := .managed (.cons ⟨h.map _, rfl⟩ .nil) (.refl _)
  domains := .managed .nil .nil

theorem Desired.validates_withDisks : (withDisks ["a", "b"]).Validates :=
  ⟨by simp [withDisks, Declared.items, VolumeEntry.agree], List.isEmpty_iff.1 (by decide +kernel)⟩

/-- The desired state with two domains, which are declared the other way around. -/
def Desired.withTwoDomainsReversed : Desired :=
  { withTwoDomains with domains := .managed withTwoDomains.domains.items.reverse }

theorem Desired.rearranges_withTwoDomains : withTwoDomains.Rearranges withTwoDomainsReversed where
  networks := .unmanaged []
  pools := .unmanaged []
  domains := .managed (List.forall₂_same.2 fun _ _ => rfl) (List.reverse_perm _)

namespace Settings

end Settings

end VirtualTopology
