import VirtualTopology.Proofs.Host.Disrupted
import VirtualTopology.Proofs.Pass.Aftermath

/-!
# What success tells

If the report on a real pass is a success, each declared resource is there, and each resource that was found
and is not declared is gone. But a kind that could not be listed leaves a trace only in the results of its
declared resources. If nothing of a managed kind is declared, there is no such result: the report is a
success, and whatever there was of the kind stays (`Settings.hasExactly_iff_of_success`).

The route is `Course.stale_cases`: what is stale of a kind is what was there and is not declared, or nothing
if the list call was struck; in that case all declared resources have failed (`Course.failed_of_unknown`).
-/

namespace VirtualTopology

open Dialogue

/-- Whether the resources of a kind are exactly those with given names. -/
def Tables.HasExactly (t : Tables) (k : DefinedKind) (names : List String) : Prop :=
  ∀ name, (t.get? k name).isSome = true ↔ name ∈ names

/-! ### List calls that fail -/

namespace Stock

variable {kind : DefinedKind} {managed : Bool} {m m' : Memory} {s : Stock}

/-- **What is there of a managed kind is unknown exactly if the list call is struck.** -/
theorem unknown_iff (h : m.run (take kind true) = (s, m')) :
    (∃ reason, s = .unknown reason) ↔ m.Strikes (.list kind) := by
  have hask : m.run ((Call.list kind).ask : Talk (Except HostError (List String)))
      = m.call (.list kind) := rfl
  rw [← m.call_list_eq_error_iff]
  simp only [take, Memory.run_bind, hask] at h
  cases hcall : (m.call (.list kind)).1 with
  | error e =>
    rw [hcall] at h
    exact ⟨fun _ => ⟨e, rfl⟩, fun _ => ⟨e.message, (Prod.mk.inj h).1.symm⟩⟩
  | ok names =>
    rw [hcall] at h
    constructor
    · rintro ⟨reason, hs⟩
      exact absurd ((Prod.mk.inj h).1.trans hs) (by simp)
    · rintro ⟨e, he⟩
      exact absurd he (by simp)

end Stock

/-- A run without calls of a word leaves it as it is whether they are struck. -/
theorem Memory.strikes_of_run {α : Type} {m n : Memory} {t : Talk α} {a : α} {e : α → Prop} {c : Call}
    (h : t.Confined (Query.CallsOnly fun c' => c'.word ≠ c.word) e) (hrun : m.run t = (a, n)) :
    n.Strikes c ↔ m.Strikes c := by
  have hstrikes := Memory.strikes_run (c := c) h m
  rw [hrun] at hstrikes
  exact hstrikes

namespace Desired.Course

variable {d : Desired} {dry : Bool} {timeout : Binary64} {m : Memory} (c : Course d dry timeout m)
  {k : DefinedKind} {name : String}

section

variable (hplain : d.IsPlain) (hvalid : d.Validates)

include hplain hvalid

/-- Nothing that happens before a kind is listed changes whether its list call is struck. -/
theorem unknown_iff (hmanaged : d.manages k = true) :
    (∃ reason, c.stock k = .unknown reason) ↔ m.Strikes (.list k) := by
  have hlist : ∀ {l : DefinedKind} {b : Bool}, l ≠ k → (Stock.take l b).Confined
      (Query.CallsOnly fun c' => c'.word ≠ (Call.list k).word) fun _ => True := fun {l b} hne =>
    (Stock.confined_take l b).mono (fun q hq => hq.mono fun c' hc' => by
      subst hc'
      revert hne
      cases l <;> cases k <;> decide)
      fun _ _ => trivial
  have htask : ∀ {l : DefinedKind} {names : List String} {q : Query},
      q.CallsOnly (fun call => ∃ name ∈ names, call.IsProper dry l name) →
      q.CallsOnly fun c' => c'.word ≠ (Call.list k).word := fun hq =>
    hq.mono fun c' ⟨_, _, hc'⟩ => hc'.about.word_ne
  -- between the beginning and the list call of a kind there are only calls with other words
  cases k with
  | network =>
    have htake := c.takesNetworks
    rw [show d.networks.isManaged = true from hmanaged] at htake
    exact Stock.unknown_iff htake
  | pool =>
    have htake := c.takesPools
    rw [show d.pools.isManaged = true from hmanaged] at htake
    exact (Stock.unknown_iff htake).trans (Memory.strikes_of_run (hlist (by simp)) c.takesNetworks)
  | domain =>
    have htake := c.takesDomains
    rw [show d.domains.isManaged = true from hmanaged] at htake
    have hcounted := Memory.strikes_of_run (hlist (by simp)) c.takesNetworks
    have hlisted := Memory.strikes_of_run (hlist (by simp)) c.takesPools
    have hwired := Memory.strikes_of_run ((c.confined_networks hplain).mono (fun _ => htask) fun _ => id)
      c.runsNetworks
    have hfilled := Memory.strikes_of_run ((c.confined_pools hplain hvalid).mono (fun _ => htask)
      fun _ => id) c.runsPools
    exact (Stock.unknown_iff htake).trans (hfilled.trans (hwired.trans (hlisted.trans hcounted)))

/-- **What is stale of a managed kind**: what was there and is not declared, unless the list call was
struck. -/
theorem stale_cases (hmanaged : d.manages k = true) :
    (m.Strikes (.list k) ∧ ∃ reason, c.stock k = .unknown reason) ∨
      (¬ m.Strikes (.list k) ∧ ∀ name, name ∈ c.stale k ↔
        (m.tables.get? k name).isSome = true ∧ name ∉ d.names k) := by
  have hunknown := c.unknown_iff hplain hvalid hmanaged
  by_cases hstruck : m.Strikes (.list k)
  · exact .inl ⟨hstruck, hunknown.2 hstruck⟩
  · obtain ⟨n, n', -, htake, hsame⟩ := c.take_stock hplain hvalid k
    rw [hmanaged] at htake
    rcases Stock.take_managed htake with ⟨x, -, hs⟩ | hs
    · exact absurd (hunknown.1 ⟨x.message, hs⟩) hstruck
    · refine .inr ⟨hstruck, fun name => ?_⟩
      rw [stale, hs, Stock.mem_stale_iff, Tables.mem_sortedNames_iff, hsame]

end

/-- **If a kind could not be listed, each of its declared resources has failed.** -/
theorem failed_of_unknown {reason : String} (h : c.stock k = .unknown reason) (hname : name ∈ d.names k) :
    ∃ x ∈ c.results, x.outcome = .failed := by
  cases k with
  | network =>
    obtain ⟨n, hn, rfl⟩ := List.mem_map.1 hname
    have hruns := c.runsNetworks
    rw [show c.networks = .unknown reason from h, Stock.run_tasks_unknown] at hruns
    refine ⟨.stuck .network n.name .list reason, c.mem_results_of_ofDeclared (k := .network) ?_, rfl⟩
    rw [ofDeclared, ← Except.ok.inj (Prod.mk.inj hruns).1]
    exact List.mem_append_left _ (List.mem_map.2 ⟨n, hn, rfl⟩)
  | pool =>
    obtain ⟨p, hp, rfl⟩ := List.mem_map.1 hname
    have hruns := c.runsPools
    rw [show c.pools = .unknown reason from h, Stock.run_tasks_unknown] at hruns
    refine ⟨.stuck .pool p.name .list reason, c.mem_results_of_ofDeclared (k := .pool) ?_, rfl⟩
    rw [ofDeclared, ← Except.ok.inj (Prod.mk.inj hruns).1]
    exact List.mem_append_left _ (List.mem_map.2 ⟨p, hp, rfl⟩)
  | domain =>
    obtain ⟨x, hx, rfl⟩ := List.mem_map.1 hname
    have hruns := c.runsDomains
    rw [show c.domains = .unknown reason from h, Stock.run_tasks_unknown] at hruns
    refine ⟨.stuck .domain x.name .list reason, c.mem_results_of_ofDeclared (k := .domain) ?_, rfl⟩
    rw [ofDeclared, ← Except.ok.inj (Prod.mk.inj hruns).1]
    exact List.mem_append_left _ (List.mem_map.2 ⟨x, hx, rfl⟩)

end Desired.Course

/-! ### Success -/

section

variable {d : Desired} {timeout : Binary64} {m : Memory} (c : d.Course false timeout m)
  (hm : m.Uncancelled) (hplain : d.IsPlain) (hvalid : d.Validates)
  (hsuccess : ∀ x ∈ c.results, x.outcome ≠ .failed) {k : DefinedKind} {name : String}

include hm hplain hvalid hsuccess

/-- After a success each declared resource is there. -/
theorem Desired.Course.isSome_of_success (hname : name ∈ d.names k) :
    (c.final.tables.get? k name).isSome = true := by
  cases k with
  | network =>
    obtain ⟨n, hn, rfl⟩ := List.mem_map.1 hname
    obtain ⟨x, hsole, -, -, hfailed | ⟨-, hentry⟩⟩ := c.network hm hplain hvalid hn
    · exact absurd hfailed (hsuccess x hsole.1)
    · rw [hentry, Option.isSome_some]
  | pool =>
    obtain ⟨p, hp, rfl⟩ := List.mem_map.1 hname
    obtain ⟨x, xs, hsole, -, -, -, ⟨hfailed, -⟩ | ⟨-, r, hr, -⟩⟩ := c.pool hm hplain hvalid hp
    · exact absurd hfailed (hsuccess x hsole.1)
    · rw [hr, Option.isSome_some]
  | domain =>
    obtain ⟨y, hy, rfl⟩ := List.mem_map.1 hname
    obtain ⟨x, hsole, -, -, hfailed | ⟨-, -, hentry⟩⟩ := c.domain hm hplain hvalid hy
    · exact absurd hfailed (hsuccess x hsole.1)
    · rw [hentry, Option.isSome_some]

/-- After a success each stale resource is gone. -/
theorem Desired.Course.eq_none_of_success (hname : name ∈ c.stale k) :
    c.final.tables.get? k name = none := by
  obtain ⟨x, hsole, -, -, hfailed | ⟨-, hgone⟩⟩ := c.gone hm hplain hvalid hname
  · exact absurd hfailed (hsuccess x hsole.1)
  · exact hgone

end

/-- **What success tells.** If the report on a real pass that was not cancelled is a success, the resources of
a managed kind are exactly the declared ones, with one exception: nothing of the kind is declared, its list
call was struck, and there was something to remove. Then everything of the kind is still there. -/
theorem Settings.hasExactly_iff_of_success {s : Settings} {d : Desired} {dryRun : Option Bool} {m : Memory}
    {report : Report} (hvalid : d.Validates) (hplain : d.IsPlain) (huncancelled : m.Uncancelled)
    (hreal : s.isDry dryRun = false) (hreport : (m.run (s.apply d dryRun)).1 = .ok report)
    (hsuccess : report.success = true) {k : DefinedKind} (hmanaged : d.manages k = true) :
    (m.run (s.apply d dryRun)).2.tables.HasExactly k (d.names k) ↔
      ¬ (d.names k = [] ∧ m.Strikes (.list k) ∧ ∃ name, (m.tables.get? k name).isSome = true) := by
  obtain ⟨c, rfl, hfinal⟩ := exists_course hreport
  rw [← hfinal]
  revert c
  rw [hreal]
  intro c hfinal hreport hsuccess
  have hfailed : ∀ x ∈ c.results, x.outcome ≠ .failed := by
    intro x hx hfailed
    have hgood := Report.success_of_iff.1 hsuccess x hx
    rw [hfailed] at hgood
    exact absurd hgood (by simp [Outcome.isSuccess])
  rcases c.stale_cases hplain hvalid hmanaged with ⟨hstruck, reason, hunknown⟩ | ⟨hstruck, hstale⟩
  · -- the kind could not be listed: nothing of it is declared, and nothing of it is touched
    have hnone : d.names k = [] := by
      refine List.eq_nil_iff_forall_not_mem.2 fun name hname => ?_
      obtain ⟨x, hx, hx'⟩ := c.failed_of_unknown hunknown hname
      exact hfailed x hx hx'
    have hsame : ∀ name, c.final.tables.get? k name = m.tables.get? k name := by
      refine fun name => c.untouched hplain hvalid (by simp [hnone]) ?_
      rw [Desired.Course.stale, hunknown]
      simp [Stock.stale]
    simp [Tables.HasExactly, hsame, hnone, hstruck]
  · have hspared : ¬ (d.names k = [] ∧ m.Strikes (.list k) ∧ ∃ name, (m.tables.get? k name).isSome = true) := by
      rintro ⟨-, hstrikes, -⟩
      exact hstruck hstrikes
    refine ⟨fun _ => hspared, fun _ name => ⟨fun hthere => ?_, fun hname =>
      c.isSome_of_success huncancelled hplain hvalid hfailed hname⟩⟩
    by_contra hundeclared
    by_cases hmem : name ∈ c.stale k
    · rw [c.eq_none_of_success huncancelled hplain hvalid hfailed hmem] at hthere
      exact absurd hthere (by simp)
    · rw [c.untouched hplain hvalid hundeclared hmem] at hthere
      exact hmem ((hstale name).2 ⟨hthere, hundeclared⟩)

/-- A desired state with no networks; other kinds are unmanaged. -/
def Desired.withoutNetworks : Desired :=
  { networks := .managed [], pools := .unmanaged [], domains := .unmanaged [] }

/-- A host with one network. -/
def Memory.withNetwork (disruptions : List (Disruption HostErrorKind)) : Memory :=
  { tables := { networks := [("old", { document := "<network/>" })] }, disruptions }

theorem Desired.validates_withoutNetworks : Desired.withoutNetworks.Validates :=
  ⟨by simp [withoutNetworks, Declared.items], Audit.audit_eq_nil_iff.2 (by
    simp [withoutNetworks, Declared.items, Audit.checkBridges_nil, Audit.claims, Audit.checkClaims])⟩

theorem Desired.isPlain_withoutNetworks : Desired.withoutNetworks.IsPlain := by
  simp [IsPlain, Text.ArePlain, texts, Declared.texts, withoutNetworks]

/-- On a host that lists its networks, the network is gone. -/
theorem Settings.hasExactly_withNetwork :
    ((Memory.withNetwork []).run (({} : Settings).apply .withoutNetworks)).2.tables.HasExactly .network [] ↔
      ¬ (([] : List String) = [] ∧ (Memory.withNetwork []).Strikes (.list .network) ∧
        ∃ name, ((Memory.withNetwork []).tables.get? .network name).isSome = true) :=
  have hphases : ((Memory.withNetwork []).run (Desired.withoutNetworks.phases false
      ({} : Settings).pass.shutdownTimeout)).1
        = .ok [{ kind := .network, name := "old", outcome := .deleted }] := by decide +kernel
  have hreport : (Memory.withNetwork []).run (({} : Settings).apply .withoutNetworks) = _ :=
    run_apply_of_phases Desired.validates_withoutNetworks (Prod.ext hphases rfl)
  hasExactly_iff_of_success Desired.validates_withoutNetworks Desired.isPlain_withoutNetworks ⟨rfl, rfl⟩ rfl
    (congrArg Prod.fst hreport) (Report.success_of_iff.2 (by simp [Outcome.isSuccess])) (k := .network) rfl

/-- A disruption of the call that lists networks. -/
def Disruption.ofNetworkList : Disruption HostErrorKind := { word := "list_networks", error := .operation }

/-- On a host that does not list its networks, the network is still there, and yet the pass is a
success. -/
theorem Settings.not_hasExactly_withNetwork :
    Desired.withoutNetworks.Validates ∧ Desired.withoutNetworks.IsPlain ∧
      Desired.withoutNetworks.manages .network = true ∧ (Memory.withNetwork [.ofNetworkList]).Uncancelled ∧
      ∃ report, ((Memory.withNetwork [.ofNetworkList]).run (({} : Settings).apply .withoutNetworks)).1
          = .ok report ∧ report.success = true ∧
        ¬ ((Memory.withNetwork [.ofNetworkList]).run
          (({} : Settings).apply .withoutNetworks)).2.tables.HasExactly .network
            (Desired.withoutNetworks.names .network) := by
  have hphases : ((Memory.withNetwork [.ofNetworkList]).run (Desired.withoutNetworks.phases false
      ({} : Settings).pass.shutdownTimeout)).1 = .ok [] := by decide +kernel
  have hreport : (Memory.withNetwork [.ofNetworkList]).run (({} : Settings).apply .withoutNetworks) = _ :=
    run_apply_of_phases Desired.validates_withoutNetworks (Prod.ext hphases rfl)
  refine ⟨Desired.validates_withoutNetworks, Desired.isPlain_withoutNetworks, rfl, ⟨rfl, rfl⟩,
    .of [] false, congrArg Prod.fst hreport, Report.success_of_iff.2 (by simp), fun h => ?_⟩
  have hthere := (h "old").1 (by decide +kernel)
  exact absurd hthere (by simp [Desired.names, Desired.withoutNetworks, Declared.items])

end VirtualTopology
