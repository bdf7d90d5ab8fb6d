import VirtualTopology.Proofs.Pass.Course

/-!
# What a pass leaves behind

A real pass that is not cancelled gives each declared network, pool and domain and each stale resource one
result. If it is not a failure, the resource is in line in the end (`Course.network`, `Course.pool`,
`Course.domain`) or gone (`Course.gone`), whatever failed around it.
-/

namespace VirtualTopology

namespace Desired.Course

variable {d : Desired} {timeout : Binary64} {m : Memory} (c : Course d false timeout m)
  (hm : m.Uncancelled) (hplain : d.IsPlain) (hvalid : d.Validates)

include hm hplain hvalid

/-- **A declared network is in line in the end if its result is not a failure.** -/
theorem network {n : Network} (hn : n ∈ d.networks.items) :
    ∃ x : Result, x.IsSole c.results ∧ x.kind = .network ∧ x.name = n.name ∧
      (x.outcome = .failed ∨
        x = n.started.reported n.document.print (m.tables.get? .network n.name) ∧
        c.final.tables.get? .network n.name
          = some (n.started.settled n.document.print (m.tables.get? .network n.name))) := by
  have hname : n.name ∈ d.names .network := List.mem_map.2 ⟨n, hn, rfl⟩
  have hlisted := c.follows_listed.uncancelled hm
  have htake := c.takesNetworks
  rw [Declared.isManaged_of_mem hn] at htake
  obtain ⟨x, hsole, hkind, hx, hend⟩ := Stock.run_tasks_single hvalid.networks (e := fun _ => True)
    (Q := fun n x after =>
      x = n.started.reported n.document.print (m.tables.get? .network n.name) ∧
        after = some (n.started.settled n.document.print (m.tables.get? .network n.name)))
    (fun n hn b => (Network.confined_task (hplain.network hn) false b).mono
      (fun q hq => hq.mono fun _ hc => hc.about) fun _ _ => trivial)
    htake (fun _ _ => by rw [c.tables_listed])
    (fun n hn h hfollows hbefore rs hrs => by
      rw [← hbefore] at hrs ⊢
      exact Network.run_task (hplain.network hn) (hfollows.uncancelled hlisted) hrs) c.runsNetworks hn
  refine ⟨x, c.isSole_of_declared (k := .network) hplain hvalid hsole hkind (hx ▸ hname), hkind, hx, ?_⟩
  rw [c.get?_final_of_declared hplain hvalid hname]
  exact hend

/-- What becomes of a declared pool with its volumes while pools are brought in line. -/
theorem pool_filled {p : Pool} (hp : p ∈ d.pools.items) :
    ∃ (x : Result) (xs : List Result), x.IsSole c.ofPools ∧ x.kind = .pool ∧ x.name = p.name ∧
      (∀ y ∈ xs, y ∈ c.ofPools) ∧
      p.Fills (m.tables.get? .pool p.name) (c.filled.tables.get? .pool p.name) x xs := by
  have hwired := c.follows_wired.uncancelled hm
  have hsound : ∀ p ∈ d.pools.items, p.IsSound := fun p hp => hvalid.pool_isSound hplain hp
  have htake := c.takesPools
  rw [Declared.isManaged_of_mem hp] at htake
  have hruns := c.runsPools
  -- either pools could not be listed and all are told to be stuck, or each task ran on a host with its pool as it was
  rcases Stock.take_managed htake with ⟨x, -, hs⟩ | hs
  · rw [hs, Stock.run_tasks_unknown] at hruns
    obtain ⟨hresults, -⟩ := Prod.mk.inj hruns
    rw [← Except.ok.inj hresults]
    have hlost : ∀ y ∈ d.pools.items.flatMap Pool.volumesLost, y.kind ≠ .pool := fun y hy => by
      obtain ⟨q, -, hy⟩ := List.mem_flatMap.1 hy
      rw [(Pool.reportsVolume_volumesFailed _ _ _ y hy).1]
      simp
    exact ⟨_, p.volumesLost, Stock.isSole_stuck .pool hlost hp, rfl, rfl, fun y hy =>
      List.mem_append_right _ (List.mem_flatMap.2 ⟨p, hp, hy⟩), .inl ⟨rfl, rfl⟩⟩
  · rw [hs, Stock.tasks_known] at hruns
    simp only [c.tables_counted] at hruns
    obtain ⟨host, hhost, hvalue⟩ := c.wired.run_gather_map (fun _ => .pool) Pool.name
      d.pools.items (List.pairwise_map.1 (Stock.nodup_pairs hvalid.pools))
      fun q hq => (Pool.confined_task (hsound q hq) false _).mono
        (fun _ ha => ha.mono fun _ hc => hc.about) fun _ ha => ha.mono fun _ _ => trivial
    rw [hruns] at hvalue hhost
    obtain ⟨hok, -⟩ := Recorded.mem_of_all_eq_ok (x := default) hvalue.symm
    have hmem : ∀ y, y ∈ c.ofPools ↔ ∃ ys, _ := fun y => (Recorded.mem_of_all_eq_ok hvalue.symm).2
    have htask : ∀ q ∈ d.pools.items, ∃ (y : Result) (ys : List Result),
        ((host q).run (q.task false (m.tables.get? .pool q.name).isSome)).1 = .ok (y :: ys) ∧
        y.kind = .pool ∧ y.name = q.name ∧ (∀ z ∈ ys, q.ReportsVolume z) ∧
        q.Fills (m.tables.get? .pool q.name) (c.filled.tables.get? .pool q.name) y ys := fun q hq => by
      obtain ⟨hfollows, hbefore, hafter⟩ := hhost q hq
      obtain ⟨rs, hrs⟩ := hok _ (List.mem_map.2 ⟨q, hq, rfl⟩)
      rw [c.get?_wired hplain (by simp)] at hbefore
      rw [hafter]
      rw [← hbefore] at hrs ⊢
      obtain ⟨y, ys, rfl, hy⟩ := Pool.run_task (hsound q hq) (hfollows.uncancelled hwired) hrs
      exact ⟨y, ys, hrs, hy⟩
    obtain ⟨x, xs, hx, hkind, hname, -, hfills⟩ := htask p hp
    have hthere : ∀ y ∈ x :: xs, y ∈ c.ofPools := fun y hy =>
      (hmem y).2 ⟨x :: xs, hx ▸ List.mem_map.2 ⟨p, hp, rfl⟩, hy⟩
    refine ⟨x, xs, ⟨hthere x (by simp), fun y hy hykind hyname => ?_⟩, hkind, hname,
      fun y hy => hthere y (by simp [hy]), hfills⟩
    -- a result about a pool of this name comes from the task of this pool, for names are distinct
    obtain ⟨ys, hys, hy⟩ := (hmem y).1 hy
    obtain ⟨q, hq, hvalue⟩ := List.mem_map.1 hys
    obtain ⟨z, zs, hz, -, hzname, hvolumes, -⟩ := htask q hq
    rw [hz] at hvalue
    obtain rfl := Except.ok.inj hvalue
    rcases List.mem_cons.1 hy with rfl | hy
    · obtain rfl : q = p := List.inj_on_of_nodup_map hvalid.pools hq hp
        (by rw [← hzname, hyname, hname])
      exact (List.cons.inj (Except.ok.inj (hz.symm.trans hx))).1
    · exact absurd ((hvolumes y hy).1.symm.trans (hykind.trans hkind)) (by simp)

/-- **A declared pool is in line in the end if its result is not a failure**, and so are those of its volumes
whose results are not failures. -/
theorem pool {p : Pool} (hp : p ∈ d.pools.items) :
    ∃ (x : Result) (xs : List Result), x.IsSole c.results ∧ x.kind = .pool ∧ x.name = p.name ∧
      (∀ y ∈ xs, y ∈ c.results) ∧
      p.Fills (m.tables.get? .pool p.name) (c.final.tables.get? .pool p.name) x xs := by
  have hname : p.name ∈ d.names .pool := List.mem_map.2 ⟨p, hp, rfl⟩
  obtain ⟨x, xs, hsole, hkind, hx, hxs, hfills⟩ := c.pool_filled hm hplain hvalid hp
  refine ⟨x, xs, c.isSole_of_declared (k := .pool) hplain hvalid hsole hkind (hx ▸ hname), hkind, hx,
    fun y hy => c.mem_results_of_ofDeclared (k := .pool) (hxs y hy), ?_⟩
  rw [c.get?_final_of_declared hplain hvalid hname]
  exact hfills

/-- **A declared domain is in line in the end if its result is not a failure.** -/
theorem domain {y : Domain} (hy : y ∈ d.domains.items) :
    ∃ x : Result, x.IsSole c.results ∧ x.kind = .domain ∧ x.name = y.name ∧
      (x.outcome = .failed ∨ y.written = .ok y.document.print ∧
        x.outcome = y.verdict y.document.print (m.tables.get? .domain y.name) ∧
        c.final.tables.get? .domain y.name
          = some (y.settled y.document.print ((m.polls.get? y.name).getD 0)
              (m.tables.get? .domain y.name))) := by
  have hname : y.name ∈ d.names .domain := List.mem_map.2 ⟨y, hy, rfl⟩
  have hsurveyed := c.follows_surveyed.uncancelled hm
  obtain ⟨n, n', -, htake, hsame⟩ := c.take_stock hplain hvalid .domain
  rw [show d.manages .domain = true from Declared.isManaged_of_mem hy] at htake
  obtain ⟨x, hsole, hkind, hx, hend⟩ := Stock.run_tasks_single hvalid.domains (e := fun _ => True)
    (Q := fun y x after => y.written = .ok y.document.print ∧
      x.outcome = y.verdict y.document.print (m.tables.get? .domain y.name) ∧
        after = some (y.settled y.document.print ((m.polls.get? y.name).getD 0)
          (m.tables.get? .domain y.name)))
    (fun y hy b => (Domain.confined_task (hplain.domain hy) false timeout _ b).mono
      (fun q hq => hq.mono fun _ hc => hc.about) fun _ _ => trivial)
    htake (fun y _ => by
      rw [hsame, c.tables_surveyed, c.get?_filled hplain hvalid (by simp), c.get?_wired hplain (by simp)])
    (fun y hy h hfollows hbefore rs hrs => by
      rw [hsame] at hbefore hrs
      rw [hsame, ← (c.follows_surveyed.trans hfollows).polls, ← hbefore]
      rw [← hbefore] at hrs
      exact Domain.run_task (hplain.domain hy) (hfollows.uncancelled hsurveyed) hrs) c.runsDomains hy
  refine ⟨x, c.isSole_of_declared (k := .domain) hplain hvalid hsole hkind (hx ▸ hname), hkind, hx, ?_⟩
  rw [c.get?_final_of_declared hplain hvalid hname]
  exact hend

/-! ### What is no longer declared -/

/-- What becomes of stale domains. -/
theorem gone_domain {name : String} (hname : name ∈ c.stale .domain) :
    ∃ x : Result, x.IsSole c.ofRemovals ∧ x.kind = .domain ∧ x.name = name ∧
      (x.outcome = .failed ∨ x.outcome = .deleted ∧ c.cleared.tables.get? .domain name = none) := by
  have hpowered := c.follows_powered.uncancelled hm
  have hend := Memory.run_gather_single (m := c.powered) (fun _ => .domain) id (e := fun _ => True)
    (Q := fun _ x after => x.outcome = .failed ∨ x.outcome = .deleted ∧ after = none)
    (Stock.nodup_pairs (by simpa using Stock.nodup_stale c.domains (d.names .domain)))
    (fun name _ => (Domain.confined_removal false name).mono (fun q hq => hq.mono fun _ hc => hc.about)
      fun _ _ => trivial)
    (fun name hname h hfollows hbefore rs hrs => by
      obtain ⟨-, hthere, hundeclared⟩ := c.mem_stale hplain hvalid (k := .domain) hname
      obtain ⟨r, hr⟩ := Option.isSome_iff_exists.1 hthere
      rw [id, c.get?_powered hplain (fun _ => hundeclared), c.get?_filled hplain hvalid (by simp),
        c.get?_wired hplain (by simp), hr] at hbefore
      exact Domain.run_removal (hfollows.uncancelled hpowered) hbefore hrs)
    (congrArg Prod.fst c.runsRemovals) hname
  rw [c.runsRemovals] at hend
  exact hend

/-- **A stale resource is gone in the end if its result is not a failure.** -/
theorem gone {k : DefinedKind} {name : String} (hname : name ∈ c.stale k) :
    ∃ x : Result, x.IsSole c.results ∧ x.kind = k.resource ∧ x.name = name ∧
      (x.outcome = .failed ∨ x.outcome = .deleted ∧ c.final.tables.get? k name = none) := by
  obtain ⟨-, hthere, hundeclared⟩ := c.mem_stale hplain hvalid hname
  suffices hphase : ∃ x : Result, x.IsSole (c.ofStale k) ∧ x.kind = k.resource ∧ x.name = name ∧
      (x.outcome = .failed ∨ x.outcome = .deleted ∧ c.final.tables.get? k name = none) by
    obtain ⟨x, hsole, hkind, hx, hend⟩ := hphase
    exact ⟨x, c.isSole_of_stale hplain hvalid hsole hkind (hx ▸ hname), hkind, hx, hend⟩
  -- domains are removed in a phase of their own, behind which the others are still there
  by_cases hk : k = .domain
  · subst hk
    obtain ⟨x, hsole, hkind, hx, hend⟩ := c.gone_domain hm hplain hvalid hname
    refine ⟨x, hsole, hkind, hx, ?_⟩
    rw [c.get?_final fun hmem => (c.mem_rest_iff.1 hmem).1 rfl]
    exact hend
  · have hrest : (k, name) ∈ c.rest := c.mem_rest_iff.2 ⟨hk, hname⟩
    have hthere : ∀ s ∈ c.rest, (c.cleared.tables.get? s.1 s.2).isSome = true := by
      rintro ⟨l, other⟩ hs
      obtain ⟨hl, hother⟩ := c.mem_rest_iff.1 hs
      obtain ⟨-, hthere, hundeclared⟩ := c.mem_stale hplain hvalid hother
      rw [c.get?_cleared (fun h => absurd h hl), c.get?_powered hplain (fun h => absurd h hl),
        c.get?_filled hplain hvalid (by rintro rfl; exact hundeclared),
        c.get?_wired hplain (by rintro rfl; exact hundeclared)]
      exact hthere
    have hend := Removal.run_run (c.follows_cleared.uncancelled hm) c.nodup_rest hthere
      (congrArg Prod.fst c.runs_rest) hrest
    rw [c.runs_rest] at hend
    cases k
    · exact hend
    · exact hend
    · exact absurd rfl hk

end Desired.Course

end VirtualTopology
