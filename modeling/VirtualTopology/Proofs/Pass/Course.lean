import VirtualTopology.Proofs.Pass.Domains
import VirtualTopology.Proofs.Pass.Stock
import VirtualTopology.Proofs.Topology.Validation

/-!
# The course of a pass

A pass that gives results has gone through all its phases (`Desired.Course`): it lists networks and pools,
brings them in line, lists domains, brings them in line, removes the stale ones, and removes stale networks
and pools. Each phase asks about its own resources, so that what one phase did to a resource stays up to
the end (`Course.get?_wired` and the like), and each result belongs to one phase.
-/

namespace VirtualTopology

open Dialogue

/-- **A dialogue about resources of one kind leaves all others as they are.** -/
theorem Memory.get?_run_of_among {α : Type} {t : Talk α} {e : α → Prop} {dry : Bool} {k l : DefinedKind}
    {names : List String} {other : String}
    (h : t.Confined (Query.CallsOnly fun c => ∃ name ∈ names, c.IsProper dry k name) e)
    (hother : l = k → other ∉ names) (m : Memory) :
    (m.run t).2.tables.get? l other = m.tables.get? l other := by
  refine get?_run_of_spares (h.mono (fun q hq => hq.mono ?_) fun _ => id) m
  rintro c ⟨name, hname, hc⟩
  refine hc.about.spares fun he => ?_
  obtain ⟨rfl, rfl⟩ := Prod.mk.inj he
  exact hother rfl hname

theorem Declared.isManaged_of_mem {α : Type} {x : Declared α} {a : α} (h : a ∈ x.items) :
    x.isManaged = true := by
  cases x with
  | unmanaged assumed => exact absurd h (by simp [items])
  | managed as => rfl

namespace Desired

/-! ### The phases -/

/-- The names of the declared networks, pools or domains. -/
def names (d : Desired) : DefinedKind → List String
  | .network => d.networks.items.map (·.name)
  | .pool => d.pools.items.map (·.name)
  | .domain => d.domains.items.map (·.name)

/-- Whether the resources of a kind are managed. -/
def manages (d : Desired) : DefinedKind → Bool
  | .network => d.networks.isManaged
  | .pool => d.pools.isManaged
  | .domain => d.domains.isManaged

/-- Only resources of managed kinds are declared. -/
theorem manages_of_mem {d : Desired} {k : DefinedKind} {name : String} (h : name ∈ d.names k) :
    d.manages k = true := by
  cases k with
  | network | pool | domain =>
    obtain ⟨a, ha, -⟩ := List.mem_map.1 h
    exact Declared.isManaged_of_mem ha

/-- The course of a pass that gives results: what is there of each kind, the hosts between the phases, and
the results of each phase. -/
structure Course (d : Desired) (dry : Bool) (timeout : Binary64) (m : Memory) where
  networks : Stock
  pools : Stock
  domains : Stock
  /-- The host when networks have been listed. -/
  counted : Memory
  /-- The host when pools have been listed, too. -/
  listed : Memory
  /-- The host when networks are in line. -/
  wired : Memory
  /-- The host when pools are in line. -/
  filled : Memory
  /-- The host when domains have been listed. -/
  surveyed : Memory
  /-- The host when domains are in line. -/
  powered : Memory
  /-- The host when stale domains have been removed. -/
  cleared : Memory
  /-- The host in the end. -/
  final : Memory
  ofNetworks : List Result
  ofPools : List Result
  ofDomains : List Result
  ofRemovals : List Result
  ofRest : List Result
  takesNetworks : m.run (Stock.take .network d.networks.isManaged) = (networks, counted)
  takesPools : counted.run (Stock.take .pool d.pools.isManaged) = (pools, listed)
  runsNetworks : listed.run (gather (networks.tasks .network d.networks.items (·.name) (fun _ => [])
    fun n => n.task dry)) = (.ok ofNetworks, wired)
  runsPools : wired.run (gather (pools.tasks .pool d.pools.items (·.name) Pool.volumesLost
    fun p => p.task dry)) = (.ok ofPools, filled)
  takesDomains : filled.run (Stock.take .domain d.domains.isManaged) = (domains, surveyed)
  runsDomains : surveyed.run (gather (domains.tasks .domain d.domains.items (·.name) (fun _ => [])
    fun x => x.task dry timeout (ofNetworks ++ ofPools))) = (.ok ofDomains, powered)
  runsRemovals : powered.run (gather ((domains.stale (d.names .domain)).map (Domain.removal dry)))
    = (.ok ofRemovals, cleared)
  runsRest : cleared.run (Removal.run dry (ofNetworks ++ ofPools ++ ofDomains ++ ofRemovals)
    ((networks.stale (d.names .network)).map (DefinedKind.network, ·) ++
      (pools.stale (d.names .pool)).map (DefinedKind.pool, ·))) = (.ok ofRest, final)

namespace Course

variable {d : Desired} {dry : Bool} {timeout : Binary64} {m : Memory}

/-- All results of a course. -/
def results (c : Course d dry timeout m) : List Result :=
  c.ofNetworks ++ c.ofPools ++ c.ofDomains ++ c.ofRemovals ++ c.ofRest

end Course

/-- **A pass that gives results has gone through all its phases.** -/
theorem exists_course {d : Desired} {dry : Bool} {timeout : Binary64} {m : Memory} {rs : List Result}
    (h : (m.run (d.phases dry timeout)).1 = .ok rs) :
    ∃ c : Course d dry timeout m, c.results = rs ∧ c.final = (m.run (d.phases dry timeout)).2 := by
  rw [phases, Memory.run_bind] at h ⊢
  rcases hfirst : m.run (d.networksAndPools dry) with ⟨⟨first, staleNetworks, stalePools⟩, filled⟩
  simp only [hfirst] at h ⊢
  rcases htakesNetworks : m.run (Stock.take .network d.networks.isManaged) with ⟨networks, counted⟩
  rcases htakesPools : counted.run (Stock.take .pool d.pools.isManaged) with ⟨pools, listed⟩
  simp only [networksAndPools, Memory.run_bind, Memory.run_pure, Memory.run_gather_append,
    htakesNetworks, htakesPools, Prod.mk.injEq] at hfirst
  obtain ⟨⟨hboth, rfl, rfl⟩, hfilled⟩ := hfirst
  -- a phase without results is the last one, and then the pass has none
  cases first with
  | error why => exact absurd h (by simp)
  | ok first =>
    obtain ⟨ofNetworks, ofPools, hnetworks, hpools, rfl⟩ := Recorded.append_eq_ok_iff.1 hboth
    rw [Memory.run_bind] at h ⊢
    rcases hsecond : filled.run (d.domainsInLine dry timeout (ofNetworks ++ ofPools)) with
      ⟨⟨second, staleDomains⟩, powered⟩
    simp only [hsecond] at h ⊢
    rcases htakesDomains : filled.run (Stock.take .domain d.domains.isManaged) with ⟨domains, surveyed⟩
    simp only [domainsInLine, Memory.run_bind, Memory.run_pure, htakesDomains, Prod.mk.injEq] at hsecond
    obtain ⟨⟨hdomains, rfl⟩, hpowered⟩ := hsecond
    cases second with
    | error why => exact absurd h (by simp)
    | ok ofDomains =>
      rw [Memory.run_bind] at h ⊢
      rcases hthird : powered.run (gather ((domains.stale (d.domains.items.map (·.name))).map
        (Domain.removal dry))) with ⟨third, cleared⟩
      simp only [hthird] at h ⊢
      cases third with
      | error why => exact absurd h (by simp)
      | ok ofRemovals =>
        rw [Memory.run_bind] at h ⊢
        rcases hlast : cleared.run (Removal.run dry (ofNetworks ++ ofPools ++ ofDomains ++ ofRemovals)
          ((networks.stale (d.networks.items.map (·.name))).map (DefinedKind.network, ·) ++
            (pools.stale (d.pools.items.map (·.name))).map (DefinedKind.pool, ·))) with ⟨last, final⟩
        simp only [hlast, Memory.run_pure] at h ⊢
        cases last with
        | error why => exact absurd h (by simp [Except.map])
        | ok ofRest =>
          refine ⟨{ networks, pools, domains, counted, listed, wired := _, filled, surveyed, powered
                    cleared, final, ofNetworks, ofPools, ofDomains, ofRemovals, ofRest
                    takesNetworks := htakesNetworks, takesPools := htakesPools
                    runsNetworks := Prod.ext hnetworks rfl, runsPools := Prod.ext hpools hfilled
                    takesDomains := htakesDomains, runsDomains := Prod.ext hdomains hpowered
                    runsRemovals := hthird, runsRest := hlast }, Except.ok.inj h, rfl⟩

namespace Course

variable {d : Desired} {dry : Bool} {timeout : Binary64} {m : Memory} (c : Course d dry timeout m)
  {k : DefinedKind} {name : String}

/-! ### What each phase asks about -/

/-- The stale networks and pools of a course. -/
def rest : List (DefinedKind × String) :=
  (c.networks.stale (d.names .network)).map (DefinedKind.network, ·) ++
    (c.pools.stale (d.names .pool)).map (DefinedKind.pool, ·)

section

variable (hplain : d.IsPlain)

include hplain

theorem confined_networks :
    (gather (c.networks.tasks .network d.networks.items (·.name) (fun _ => [])
      fun n => n.task dry)).Confined
      (Query.CallsOnly fun call => ∃ name ∈ d.names .network, call.IsProper dry .network name)
      (Recorded.All fun x => (x.kind = .network ∧ x.name ∈ d.names .network) ∨
        d.manages .network = false ∧ x.kind = .network ∧ x.outcome = .skippedUnmanaged) := by
  have hmem : ∀ n ∈ d.networks.items, n.name ∈ d.names .network := fun n hn =>
    List.mem_map.2 ⟨n, hn, rfl⟩
  refine Stock.confined_tasks c.takesNetworks (fun n hn b => ?_) (fun n hn _ => ⟨rfl, hmem n hn⟩)
    fun _ _ x hx => absurd hx (by simp)
  refine (Network.confined_task (hplain.network hn) dry b).mono
    (fun q hq => hq.mono fun _ hc => ⟨n.name, hmem n hn, hc⟩) fun _ hr => hr.mono ?_
  rintro x ⟨hkind, hname⟩
  exact ⟨hkind, hname ▸ hmem n hn⟩

theorem confined_domains :
    (gather (c.domains.tasks .domain d.domains.items (·.name) (fun _ => [])
      fun x => x.task dry timeout (c.ofNetworks ++ c.ofPools))).Confined
      (Query.CallsOnly fun call => ∃ name ∈ d.names .domain, call.IsProper dry .domain name)
      (Recorded.All fun x => (x.kind = .domain ∧ x.name ∈ d.names .domain) ∨
        d.manages .domain = false ∧ x.kind = .domain ∧ x.outcome = .skippedUnmanaged) := by
  have hmem : ∀ x ∈ d.domains.items, x.name ∈ d.names .domain := fun x hx =>
    List.mem_map.2 ⟨x, hx, rfl⟩
  refine Stock.confined_tasks c.takesDomains (fun y hy b => ?_) (fun y hy _ => ⟨rfl, hmem y hy⟩)
    fun _ _ x hx => absurd hx (by simp)
  refine (Domain.confined_task (hplain.domain hy) dry timeout _ b).mono
    (fun q hq => hq.mono fun _ hc => ⟨y.name, hmem y hy, hc⟩) fun _ hr => hr.mono ?_
  rintro x ⟨hkind, hname⟩
  exact ⟨hkind, hname ▸ hmem y hy⟩

theorem confined_pools (hvalid : d.Validates) :
    (gather (c.pools.tasks .pool d.pools.items (·.name) Pool.volumesLost fun p => p.task dry)).Confined
      (Query.CallsOnly fun call => ∃ name ∈ d.names .pool, call.IsProper dry .pool name)
      (Recorded.All fun x => (∃ p ∈ d.pools.items, p.Reports x) ∨
        d.manages .pool = false ∧ x.kind = .pool ∧ x.outcome = .skippedUnmanaged) := by
  have hmem : ∀ p ∈ d.pools.items, p.name ∈ d.names .pool := fun p hp => List.mem_map.2 ⟨p, hp, rfl⟩
  refine Stock.confined_tasks c.takesPools (fun p hp b => ?_) (fun p hp _ => ⟨p, hp, .inl ⟨rfl, rfl⟩⟩)
    fun p hp x hx => ⟨p, hp, .inr (Pool.reportsVolume_volumesFailed _ _ _ x hx)⟩
  exact (Pool.confined_task (hvalid.pool_isSound hplain hp) dry b).mono
    (fun q hq => hq.mono fun _ hc => ⟨p.name, hmem p hp, hc⟩) fun _ hr => hr.mono fun x hx => ⟨p, hp, hx⟩

end

theorem confined_removals :
    (gather ((c.domains.stale (d.names .domain)).map (Domain.removal dry))).Confined
      (Query.CallsOnly fun call =>
        ∃ name ∈ c.domains.stale (d.names .domain), call.IsProper dry .domain name)
      (Recorded.All fun x => x.kind = .domain ∧ x.name ∈ c.domains.stale (d.names .domain)) := by
  refine Confined.gather fun t ht => ?_
  obtain ⟨name, hname, rfl⟩ := List.mem_map.1 ht
  refine (Domain.confined_removal dry name).mono
    (fun q hq => hq.mono fun _ hc => ⟨name, hname, hc⟩) fun _ hr => hr.mono ?_
  rintro x ⟨hkind, rfl⟩
  exact ⟨hkind, hname⟩

theorem runs_rest : c.cleared.run (Removal.run dry
    (c.ofNetworks ++ c.ofPools ++ c.ofDomains ++ c.ofRemovals) c.rest) = (.ok c.ofRest, c.final) :=
  c.runsRest

/-! ### What each phase leaves as it is -/

theorem tables_counted : c.counted.tables = m.tables := Stock.tables_take c.takesNetworks

theorem tables_listed : c.listed.tables = m.tables :=
  (Stock.tables_take c.takesPools).trans c.tables_counted

theorem tables_surveyed : c.surveyed.tables = c.filled.tables := Stock.tables_take c.takesDomains

theorem follows_listed : m.Follows c.listed :=
  (Memory.follows_of_run c.takesNetworks).trans (Memory.follows_of_run c.takesPools)

theorem follows_wired : m.Follows c.wired :=
  c.follows_listed.trans (Memory.follows_of_run c.runsNetworks)

theorem follows_surveyed : m.Follows c.surveyed :=
  (c.follows_wired.trans (Memory.follows_of_run c.runsPools)).trans
    (Memory.follows_of_run c.takesDomains)

theorem follows_powered : m.Follows c.powered :=
  c.follows_surveyed.trans (Memory.follows_of_run c.runsDomains)

theorem follows_cleared : m.Follows c.cleared :=
  c.follows_powered.trans (Memory.follows_of_run c.runsRemovals)

section

variable (hplain : d.IsPlain)

include hplain

/-- Bringing networks in line leaves everything but declared networks as it is. -/
theorem get?_wired (h : k = .network → name ∉ d.names .network) :
    c.wired.tables.get? k name = m.tables.get? k name := by
  have hframe := Memory.get?_run_of_among (c.confined_networks hplain) h c.listed
  rw [c.runsNetworks, c.tables_listed] at hframe
  exact hframe

/-- Bringing pools in line leaves everything but declared pools as it is. -/
theorem get?_filled (hvalid : d.Validates) (h : k = .pool → name ∉ d.names .pool) :
    c.filled.tables.get? k name = c.wired.tables.get? k name := by
  have hframe := Memory.get?_run_of_among (c.confined_pools hplain hvalid) h c.wired
  rw [c.runsPools] at hframe
  exact hframe

/-- Bringing domains in line leaves everything but declared domains as it is. -/
theorem get?_powered (h : k = .domain → name ∉ d.names .domain) :
    c.powered.tables.get? k name = c.filled.tables.get? k name := by
  have hframe := Memory.get?_run_of_among (c.confined_domains hplain) h c.surveyed
  rw [c.runsDomains, c.tables_surveyed] at hframe
  exact hframe

end

/-- Removing stale domains leaves everything else as it is. -/
theorem get?_cleared (h : k = .domain → name ∉ c.domains.stale (d.names .domain)) :
    c.cleared.tables.get? k name = c.powered.tables.get? k name := by
  have hframe := Memory.get?_run_of_among c.confined_removals h c.powered
  rw [c.runsRemovals] at hframe
  exact hframe

/-- Removing stale networks and pools leaves everything else as it is. -/
theorem get?_final (h : (k, name) ∉ c.rest) :
    c.final.tables.get? k name = c.cleared.tables.get? k name := by
  have hspares : ∀ call : Call, (Removal.Looks call ∨ ∃ s ∈ c.rest, Call.IsProper dry s.1 s.2 call) →
      call.Spares k name := by
    rintro call (hlook | ⟨s, hs, hc⟩)
    · exact Call.spares_of_isStill hlook.1
    · exact hc.about.spares fun he => h (he ▸ hs)
  have hframe := Memory.get?_run_of_spares
    ((Removal.confined_run dry (c.ofNetworks ++ c.ofPools ++ c.ofDomains ++ c.ofRemovals) c.rest).mono
      (fun q hq => hq.mono hspares) fun _ => id) c.cleared
  rw [c.runs_rest] at hframe
  exact hframe

/-! ### Stale resources -/

/-- What was there of a kind when it was listed. -/
def stock : DefinedKind → Stock
  | .network => c.networks
  | .pool => c.pools
  | .domain => c.domains

/-- The resources of a kind that were there and are not declared. -/
def stale (k : DefinedKind) : List String := (c.stock k).stale (d.names k)

theorem mem_rest_iff : (k, name) ∈ c.rest ↔ k ≠ .domain ∧ name ∈ c.stale k := by
  cases k <;> simp [rest, stale, stock]

theorem nodup_rest : c.rest.Nodup := by
  refine List.nodup_append.2 ⟨?_, ?_, ?_⟩
  · exact (Stock.nodup_stale _ _).map fun _ _ he => (Prod.mk.inj he).2
  · exact (Stock.nodup_stale _ _).map fun _ _ he => (Prod.mk.inj he).2
  · rintro s hs s' hs' rfl
    obtain ⟨a, -, rfl⟩ := List.mem_map.1 hs
    obtain ⟨b, -, hb⟩ := List.mem_map.1 hs'
    exact absurd (Prod.mk.inj hb).1 (by simp)

/-- What is there of a kind is seen on a host on which all of the kind is as it was before. -/
theorem take_stock (hplain : d.IsPlain) (hvalid : d.Validates) (k : DefinedKind) :
    ∃ n n' : Memory, m.Follows n ∧ n.run (Stock.take k (d.manages k)) = (c.stock k, n') ∧
      ∀ name, n.tables.get? k name = m.tables.get? k name := by
  cases k with
  | network => exact ⟨m, _, .refl m, c.takesNetworks, fun _ => rfl⟩
  | pool =>
    exact ⟨c.counted, _, Memory.follows_of_run c.takesNetworks, c.takesPools, fun name => by
      rw [c.tables_counted]⟩
  | domain =>
    refine ⟨c.filled, _, c.follows_wired.trans (Memory.follows_of_run c.runsPools), c.takesDomains,
      fun name => ?_⟩
    rw [c.get?_filled hplain hvalid (by simp), c.get?_wired hplain (by simp)]

/-- **A stale resource** is managed, was there before, and is not declared. -/
theorem mem_stale (hplain : d.IsPlain) (hvalid : d.Validates) (h : name ∈ c.stale k) :
    d.manages k = true ∧ (m.tables.get? k name).isSome = true ∧ name ∉ d.names k := by
  obtain ⟨n, n', -, htake, hsame⟩ := c.take_stock hplain hvalid k
  rw [stale] at h
  rcases Stock.take_cases htake with ⟨reason, hs⟩ | hs | ⟨-, results, hs, -⟩
  · rw [hs] at h
    exact absurd h (by simp [Stock.stale])
  · cases hmanaged : d.manages k with
    | false =>
      rw [hmanaged] at htake
      obtain ⟨results, hs', -⟩ := Stock.take_unmanaged htake
      exact absurd (hs.symm.trans hs') (by simp)
    | true =>
      rw [hs, Stock.mem_stale_iff, Tables.mem_sortedNames_iff, hsame] at h
      exact ⟨rfl, h⟩
  · rw [hs] at h
    exact absurd h (by simp [Stock.stale])

/-! ### What each result is about -/

theorem mem_results_iff {x : Result} : x ∈ c.results ↔
    x ∈ c.ofNetworks ∨ x ∈ c.ofPools ∨ x ∈ c.ofDomains ∨ x ∈ c.ofRemovals ∨ x ∈ c.ofRest := by
  simp [results]

theorem about_removals {x : Result} (hx : x ∈ c.ofRemovals) :
    x.kind = .domain ∧ x.name ∈ c.stale .domain := by
  have hall := c.confined_removals.run_value Memory.answer c.powered
  rw [show Dialogue.run Memory.answer _ c.powered = _ from c.runsRemovals] at hall
  exact hall _ rfl x hx

theorem about_rest {x : Result} (hx : x ∈ c.ofRest) :
    ∃ k, x.kind = k.resource ∧ k ≠ .domain ∧ x.name ∈ c.stale k := by
  have hall := (Removal.confined_run dry (c.ofNetworks ++ c.ofPools ++ c.ofDomains ++ c.ofRemovals)
    c.rest).run_value Memory.answer c.cleared
  rw [show Dialogue.run Memory.answer _ c.cleared = _ from c.runs_rest] at hall
  obtain ⟨s, hs, hkind, hname⟩ := hall _ rfl x hx
  obtain ⟨hk, hstale⟩ := c.mem_rest_iff.1 hs
  exact ⟨s.1, hkind, hk, hname ▸ hstale⟩

section

variable (hplain : d.IsPlain)

include hplain

theorem about_networks {x : Result} (hx : x ∈ c.ofNetworks) :
    x.kind = .network ∧ (x.name ∈ d.names .network ∨ d.manages .network = false) := by
  have hall := (c.confined_networks hplain).run_value Memory.answer c.listed
  rw [show Dialogue.run Memory.answer _ c.listed = _ from c.runsNetworks] at hall
  rcases hall _ rfl x hx with ⟨hkind, hname⟩ | ⟨hunmanaged, hkind, -⟩
  · exact ⟨hkind, .inl hname⟩
  · exact ⟨hkind, .inr hunmanaged⟩

theorem about_pools (hvalid : d.Validates) {x : Result} (hx : x ∈ c.ofPools) :
    (∃ p ∈ d.pools.items, p.Reports x) ∨ x.kind = .pool ∧ d.manages .pool = false := by
  have hall := (c.confined_pools hplain hvalid).run_value Memory.answer c.wired
  rw [show Dialogue.run Memory.answer _ c.wired = _ from c.runsPools] at hall
  rcases hall _ rfl x hx with hreports | ⟨hunmanaged, hkind, -⟩
  · exact .inl hreports
  · exact .inr ⟨hkind, hunmanaged⟩

theorem about_domains {x : Result} (hx : x ∈ c.ofDomains) :
    x.kind = .domain ∧ (x.name ∈ d.names .domain ∨ d.manages .domain = false) := by
  have hall := (c.confined_domains hplain).run_value Memory.answer c.surveyed
  rw [show Dialogue.run Memory.answer _ c.surveyed = _ from c.runsDomains] at hall
  rcases hall _ rfl x hx with ⟨hkind, hname⟩ | ⟨hunmanaged, hkind, -⟩
  · exact ⟨hkind, .inl hname⟩
  · exact ⟨hkind, .inr hunmanaged⟩

end

/-- The results of the phase that brings the resources of a kind in line. -/
def ofDeclared : DefinedKind → List Result
  | .network => c.ofNetworks
  | .pool => c.ofPools
  | .domain => c.ofDomains

/-- The results of the phase that removes the stale resources of a kind. -/
def ofStale : DefinedKind → List Result
  | .domain => c.ofRemovals
  | _ => c.ofRest

theorem mem_results_of_ofDeclared {x : Result} (h : x ∈ c.ofDeclared k) : x ∈ c.results := by
  rw [c.mem_results_iff]
  cases k
  · exact .inl h
  · exact .inr (.inl h)
  · exact .inr (.inr (.inl h))

theorem mem_results_of_ofStale {x : Result} (h : x ∈ c.ofStale k) : x ∈ c.results := by
  rw [c.mem_results_iff]
  cases k
  · exact .inr (.inr (.inr (.inr h)))
  · exact .inr (.inr (.inr (.inr h)))
  · exact .inr (.inr (.inr (.inl h)))

/-- **A result is about a declared resource or about a stale one**, unless its kind is unmanaged. -/
theorem about_results (hplain : d.IsPlain) (hvalid : d.Validates) {x : Result} (hx : x ∈ c.results)
    (hkind : x.kind = k.resource) :
    (x ∈ c.ofDeclared k ∧ (x.name ∈ d.names k ∨ d.manages k = false)) ∨
      (x ∈ c.ofStale k ∧ x.name ∈ c.stale k) := by
  have hsame : ∀ {l : DefinedKind}, x.kind = l.resource → l = k := fun hl =>
    DefinedKind.resource_injective (hl.symm.trans hkind)
  -- a result comes from one of five phases, each of which is about its own resources
  rcases c.mem_results_iff.1 hx with hx | hx | hx | hx | hx
  · obtain ⟨hnetwork, hname⟩ := c.about_networks hplain hx
    obtain rfl := hsame (l := .network) hnetwork
    exact .inl ⟨hx, hname⟩
  · rcases c.about_pools hplain hvalid hx with ⟨p, hp, ⟨hpool, hname⟩ | ⟨hvolume, -⟩⟩ | ⟨hpool, hunmanaged⟩
    · obtain rfl := hsame (l := .pool) hpool
      exact .inl ⟨hx, .inl (List.mem_map.2 ⟨p, hp, hname.symm⟩)⟩
    · exact absurd (hkind.symm.trans hvolume) (by cases k <;> simp [DefinedKind.resource])
    · obtain rfl := hsame (l := .pool) hpool
      exact .inl ⟨hx, .inr hunmanaged⟩
  · obtain ⟨hdomain, hname⟩ := c.about_domains hplain hx
    obtain rfl := hsame (l := .domain) hdomain
    exact .inl ⟨hx, hname⟩
  · obtain ⟨hdomain, hname⟩ := c.about_removals hx
    obtain rfl := hsame (l := .domain) hdomain
    exact .inr ⟨hx, hname⟩
  · obtain ⟨l, hl, hne, hname⟩ := c.about_rest hx
    obtain rfl := hsame hl
    refine .inr ⟨?_, hname⟩
    cases l
    · exact hx
    · exact hx
    · exact absurd rfl hne

section

variable (hplain : d.IsPlain) (hvalid : d.Validates) {x : Result}

include hplain hvalid

/-- The only result of its phase about a declared resource is the only one of the pass. -/
theorem isSole_of_declared (h : x.IsSole (c.ofDeclared k)) (hkind : x.kind = k.resource)
    (hname : x.name ∈ d.names k) : x.IsSole c.results := by
  refine ⟨c.mem_results_of_ofDeclared h.1, fun y hy hykind hyname => ?_⟩
  rcases c.about_results hplain hvalid hy (hykind.trans hkind) with ⟨hy, -⟩ | ⟨-, hstale⟩
  · exact h.2 y hy hykind hyname
  · rw [hyname] at hstale
    exact absurd hname (c.mem_stale hplain hvalid hstale).2.2

/-- The only result of its phase about a stale resource is the only one of the pass. -/
theorem isSole_of_stale (h : x.IsSole (c.ofStale k)) (hkind : x.kind = k.resource)
    (hname : x.name ∈ c.stale k) : x.IsSole c.results := by
  obtain ⟨hmanaged, -, hundeclared⟩ := c.mem_stale hplain hvalid hname
  refine ⟨c.mem_results_of_ofStale h.1, fun y hy hykind hyname => ?_⟩
  rcases c.about_results hplain hvalid hy (hykind.trans hkind) with ⟨-, hy⟩ | ⟨hy, -⟩
  · rw [hyname] at hy
    rcases hy with hdeclared | hunmanaged
    · exact absurd hdeclared hundeclared
    · exact absurd (hmanaged.symm.trans hunmanaged) (by simp)
  · exact h.2 y hy hykind hyname

/-! ### From a phase to the end -/

/-- The host when the resources of a kind are in line. -/
def inLine : DefinedKind → Memory
  | .network => c.wired
  | .pool => c.filled
  | .domain => c.powered

omit hplain hvalid in
theorem not_mem_rest (h : name ∉ c.stale k) : (k, name) ∉ c.rest := fun hmem =>
  h (c.mem_rest_iff.1 hmem).2

/-- **Once it has been brought in line, a declared resource is left as it is.** -/
theorem get?_final_of_declared (h : name ∈ d.names k) :
    c.final.tables.get? k name = (c.inLine k).tables.get? k name := by
  have hfresh : name ∉ c.stale k := fun hstale => (c.mem_stale hplain hvalid hstale).2.2 h
  rw [c.get?_final (c.not_mem_rest hfresh), c.get?_cleared (by rintro rfl; exact hfresh)]
  cases k with
  | network => rw [c.get?_powered hplain (by simp), c.get?_filled hplain hvalid (by simp)]; rfl
  | pool => rw [c.get?_powered hplain (by simp)]; rfl
  | domain => rfl

/-- **What is neither declared nor stale is left as it is.** -/
theorem untouched (hdeclared : name ∉ d.names k) (hstale : name ∉ c.stale k) :
    c.final.tables.get? k name = m.tables.get? k name := by
  rw [c.get?_final (c.not_mem_rest hstale), c.get?_cleared (by rintro rfl; exact hstale),
    c.get?_powered hplain (by rintro rfl; exact hdeclared),
    c.get?_filled hplain hvalid (by rintro rfl; exact hdeclared),
    c.get?_wired hplain (by rintro rfl; exact hdeclared)]

end

end Course

end Desired

/-! ### Reports -/

theorem Report.mem_of {rs : List Result} {dry : Bool} {x : Result} :
    x ∈ (Report.of rs dry).results ↔ x ∈ rs := List.mem_mergeSort

theorem Report.isSole_of {rs : List Result} {dry : Bool} {x : Result} :
    x.IsSole (Report.of rs dry).results ↔ x.IsSole rs := by
  simp only [Result.IsSole, mem_of]

theorem Report.success_of_iff {rs : List Result} {dry : Bool} :
    (Report.of rs dry).success = true ↔ ∀ x ∈ rs, x.outcome.isSuccess = true := by
  simp only [Report.success, Report.of, List.all_eq_true, List.mem_mergeSort]

/-- What a pass over a validated desired state reports is what its phases give. -/
theorem Settings.run_apply_of_phases {s : Settings} {d : Desired} {dryRun : Option Bool} {m n : Memory}
    {rs : List Result} (hvalid : d.Validates)
    (h : m.run (d.phases (s.isDry dryRun) s.pass.shutdownTimeout) = (.ok rs, n)) :
    m.run (s.apply d dryRun) = (.ok (.of rs (s.isDry dryRun)), n) := by
  unfold apply
  simp only [hvalid.audit, List.isEmpty_nil, if_true, Memory.run_bind, h, Memory.run_pure]

theorem Settings.apply_eq_ok_of_phases {s : Settings} {d : Desired} {dryRun : Option Bool} {m : Memory}
    {rs : List Result} (hvalid : d.Validates)
    (h : (m.run (d.phases (s.isDry dryRun) s.pass.shutdownTimeout)).1 = .ok rs) :
    (m.run (s.apply d dryRun)).1 = .ok (.of rs (s.isDry dryRun)) :=
  congrArg Prod.fst (run_apply_of_phases hvalid (n := (m.run (d.phases (s.isDry dryRun)
    s.pass.shutdownTimeout)).2) (by rw [← h]))

/-- A pass over a validated desired state gives no report if its phases give no results. -/
theorem Settings.run_apply_of_unwritable {s : Settings} {d : Desired} {dryRun : Option Bool} {m : Memory}
    {why : Unwritable} (hvalid : d.Validates)
    (h : (m.run (d.phases (s.isDry dryRun) s.pass.shutdownTimeout)).1 = .error why) :
    (m.run (s.apply d dryRun)).1 = .error (.unwritable why) := by
  unfold apply
  simp only [hvalid.audit, List.isEmpty_nil, if_true, Memory.run_bind, h, Memory.run_pure]

/-- On an empty host a pool and its volume are created. -/
theorem Desired.run_phases_withImages :
    (({} : Memory).run (Desired.withImages.phases false ({} : Settings).pass.shutdownTimeout)).1 =
      .ok [{ kind := .pool, name := "images", outcome := .created },
        { kind := .volume, name := "images/disk", outcome := .created }] := by
  decide +kernel

/-- **A pass that gives a report has a course**, and reports its results. -/
theorem Settings.exists_course {s : Settings} {d : Desired} {dryRun : Option Bool} {m : Memory}
    {report : Report} (h : (m.run (s.apply d dryRun)).1 = .ok report) :
    ∃ c : d.Course (s.isDry dryRun) s.pass.shutdownTimeout m,
      report = .of c.results (s.isDry dryRun) ∧ c.final = (m.run (s.apply d dryRun)).2 := by
  unfold apply at h ⊢
  dsimp only at h ⊢
  split at h
  · next hvalid =>
    simp only [if_pos hvalid, Memory.run_bind] at h ⊢
    cases hphases : (m.run (d.phases (s.isDry dryRun) s.pass.shutdownTimeout)).1 with
    | error why =>
      rw [hphases] at h
      exact absurd h (by simp)
    | ok rs =>
      rw [hphases] at h
      obtain ⟨c, hresults, hfinal⟩ := Desired.exists_course hphases
      exact ⟨c, by rw [hresults]; exact (Except.ok.inj h).symm, hfinal⟩
  · exact absurd h (by simp)

end VirtualTopology
