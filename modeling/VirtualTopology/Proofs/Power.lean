import VirtualTopology.Proofs.Pass.Reach
import VirtualTopology.Proofs.Prediction

/-!
# Domains keep their power

A restart turns a domain off and then on again, and each of its steps can fail. If a domain that ran is off
after some passes, the next pass turns it on again as long as it is declared on
(`Domain.ends_sync_of_on`); and no pass turns off a domain that is neither declared off nor restarted
(`Memory.isOn_run`). So in both cases the domain runs once a pass goes well
(`Settings.isOn_after_passes`). There is a third case: a domain is always restarted, and nothing is declared
about its power. Then a failed start leaves it off for good (`Settings.not_isOn_withRestart`).
-/

namespace VirtualTopology

open Dialogue

/-! ### Passes one after the other -/

/-- The host with other disruptions. -/
def Memory.disrupted (m : Memory) (disruptions : List (Disruption HostErrorKind)) : Memory :=
  { m with disruptions }

/-- The host after several passes, each with disruptions of its own. -/
def Settings.passes (s : Settings) (d : Desired) (dryRun : Option Bool) (m : Memory)
    (failures : List (List (Disruption HostErrorKind))) : Memory :=
  failures.foldl (fun m disruptions => ((m.disrupted disruptions).run (s.apply d dryRun)).2) m

/-- **What each pass preserves, whatever fails, all of them preserve.** -/
theorem Settings.passes_invariant {s : Settings} {d : Desired} {dryRun : Option Bool} {I : Memory → Prop}
    (hfail : ∀ m disruptions, I m → I (Memory.disrupted m disruptions))
    (hpass : ∀ m, I m → I (m.run (s.apply d dryRun)).2) {m : Memory} (hm : I m)
    (failures : List (List (Disruption HostErrorKind))) : I (s.passes d dryRun m failures) := by
  induction failures generalizing m with
  | nil => exact hm
  | cons disruptions failures ih => exact ih (hpass _ (hfail m disruptions hm))

/-! ### Domains that run -/

/-- Whether a domain runs. -/
def Tables.IsOn (t : Tables) (name : String) : Prop :=
  ∃ r, t.get? .domain name = some r ∧ r.active = true

/-- Whether a domain runs and has not been asked to shut down. -/
def Tables.StaysOn (t : Tables) (name : String) : Prop :=
  ∃ r, t.get? .domain name = some r ∧ r.active = true ∧ r.closing = none

/-- Whether a call may turn a domain off or take it away. -/
def Call.TurnsOff (name : String) (c : Call) : Prop :=
  (∃ force, c = .stop .domain name force) ∨ c = .undefine .domain name

namespace Tables

variable {t u : Tables} {polls : Table Int} {c : Call} {name : String}

/-- **A domain that runs is turned off by no call but those that turn it off**, and by a look if it is on its
way down. -/
theorem exists_active_of_becomes {r : StoredResource} (hr : t.get? .domain name = some r)
    (hactive : r.active = true) (hlook : r.closing = none ∨ c ≠ .isActive .domain name)
    (hc : ¬ c.TurnsOff name) (hb : t.Becomes polls c u) :
    ∃ s, u.get? .domain name = some s ∧ s.active = true ∧ (r.closing = none → s.closing = none) := by
  -- what is put elsewhere does not matter, and what is put here has to be on
  have hput : ∀ {k : DefinedKind} {other : String} {s : StoredResource},
      ((k, other) = (.domain, name) → s.active = true ∧ (r.closing = none → s.closing = none)) →
      ∃ s', (t.put k other s).get? .domain name = some s' ∧ s'.active = true ∧
        (r.closing = none → s'.closing = none) := by
    intro k other s hs
    by_cases heq : (k, other) = (.domain, name)
    · obtain ⟨rfl, rfl⟩ := Prod.mk.inj heq
      exact ⟨s, get?_put_self, hs rfl⟩
    · exact ⟨r, (get?_put_of_ne heq).trans hr, hactive, id⟩
  have hsame : ∀ {k : DefinedKind} {other : String} {s : StoredResource}, t.get? k other = some s →
      (k, other) = (.domain, name) → s = r := fun hs heq => by
    obtain ⟨rfl, rfl⟩ := Prod.mk.inj heq
    exact Option.some.inj (hs.symm.trans hr)
  cases hb with
  | still _ => exact ⟨r, hr, hactive, id⟩
  | define k document =>
    refine hput fun heq => ?_
    obtain ⟨rfl, hname⟩ := Prod.mk.inj heq
    rw [hname, hr]
    exact ⟨hactive, id⟩
  | undefine k other =>
    have hne : (k, other) ≠ (.domain, name) := fun heq => hc (.inr (by
      obtain ⟨rfl, rfl⟩ := Prod.mk.inj heq
      rfl))
    exact ⟨r, (get?_erase_of_ne hne).trans hr, hactive, id⟩
  | start hthere => exact hput fun _ => ⟨rfl, fun _ => rfl⟩
  | @stop k other force s hthere hforced =>
    refine hput fun heq => absurd (.inl ⟨force, ?_⟩) hc
    obtain ⟨rfl, rfl⟩ := Prod.mk.inj heq
    rfl
  | @ask other s hthere =>
    refine hput fun heq => absurd (.inl ⟨false, ?_⟩) hc
    obtain ⟨-, rfl⟩ := Prod.mk.inj heq
    rfl
  | @look k other s hthere =>
    refine hput fun heq => ?_
    obtain rfl := hsame hthere heq
    obtain ⟨rfl, rfl⟩ := Prod.mk.inj heq
    have hclosing : s.closing = none := hlook.resolve_right fun hne => hne rfl
    rw [StoredResource.seen_eq_self hclosing]
    exact ⟨hactive, id⟩
  | @autostart k other s hthere b =>
    refine hput fun heq => ?_
    obtain rfl := hsame hthere heq
    exact ⟨hactive, id⟩
  | create _ _ => exact hput fun heq => absurd (Prod.mk.inj heq).1 (by simp)
  | delete _ => exact hput fun heq => absurd (Prod.mk.inj heq).1 (by simp)
  | resize _ _ => exact hput fun heq => absurd (Prod.mk.inj heq).1 (by simp)

end Tables

namespace Memory

variable {α : Type} {m n : Memory} {d : Talk α} {a : α} {e : α → Prop} {name : String}

/-- **A domain that runs keeps running** while nothing turns it off and nobody looks at it. -/
theorem isOn_run (hrun : m.run d = (a, n)) (h : d.Confined
      (Query.CallsOnly fun c => ¬ c.TurnsOff name ∧ c ≠ .isActive .domain name) e)
    (hon : m.tables.IsOn name) : n.tables.IsOn name := by
  rw [← show (m.run d).2 = n from congrArg Prod.snd hrun]
  refine run_invariant h (I := fun s => s.tables.IsOn name) ?_ hon
  rintro s q hq ⟨r, hr, hactive⟩
  cases q with
  | call c =>
    rcases tables_call s c with heq | ⟨a, ha⟩
    · exact ⟨r, heq ▸ hr, hactive⟩
    · obtain ⟨r', hr', hactive', -⟩ := Tables.exists_active_of_becomes hr hactive (.inr hq.2) hq.1
        (Tables.becomes_of_serve ha)
      exact ⟨r', hr', hactive'⟩
  | cancelled => exact ⟨r, hr, hactive⟩
  | now => exact ⟨r, hr, hactive⟩
  | sleep _ => exact ⟨r, hr, hactive⟩

/-- **A domain that has not been asked to shut down keeps running** while nothing turns it off. -/
theorem staysOn_run (hrun : m.run d = (a, n)) (h : d.Confined (Query.CallsOnly fun c => ¬ c.TurnsOff name) e)
    (hon : m.tables.StaysOn name) : n.tables.StaysOn name := by
  rw [← show (m.run d).2 = n from congrArg Prod.snd hrun]
  refine run_invariant h (I := fun s => s.tables.StaysOn name) ?_ hon
  rintro s q hq ⟨r, hr, hactive, hclosing⟩
  cases q with
  | call c =>
    rcases tables_call s c with heq | ⟨a, ha⟩
    · exact ⟨r, heq ▸ hr, hactive, hclosing⟩
    · obtain ⟨r', hr', hactive', hclosing'⟩ := Tables.exists_active_of_becomes hr hactive (.inl hclosing) hq
        (Tables.becomes_of_serve ha)
      exact ⟨r', hr', hactive', hclosing' hclosing⟩
  | cancelled => exact ⟨r, hr, hactive, hclosing⟩
  | now => exact ⟨r, hr, hactive, hclosing⟩
  | sleep _ => exact ⟨r, hr, hactive, hclosing⟩

/-- A domain that is there stays there while nothing takes it away. -/
theorem isSome_run (hrun : m.run d = (a, n))
    (h : d.Confined (Query.CallsOnly fun c => c ≠ .undefine .domain name) e)
    (hthere : (m.tables.get? .domain name).isSome = true) :
    (n.tables.get? .domain name).isSome = true := by
  rw [← show (m.run d).2 = n from congrArg Prod.snd hrun]
  exact run_invariant h (I := fun s => (s.tables.get? .domain name).isSome = true)
    (fun s q hq hthere => isSome_answer hthere hq) hthere

end Memory

/-! ### What a pass does to a declared domain -/

namespace Domain

variable {x y : Domain} {c : Call}

/-- The work on a domain takes no domain away. -/
theorem Makes.ne_undefine (h : x.Makes c) (k : DefinedKind) (name : String) : c ≠ .undefine k name := by
  rintro rfl
  cases h with
  | look about reads => exact absurd reads (by simp [Call.isReading])

/-- The work on another domain does not turn a domain off. -/
theorem Makes.not_turnsOff (h : x.Makes c) (hne : x.name ≠ y.name) : ¬ c.TurnsOff y.name := by
  rintro (⟨force, rfl⟩ | rfl)
  · generalize hname : y.name = name at h
    cases h with
    | look about reads => exact absurd reads (by simp [Call.isReading])
    | stop may force => exact hne hname.symm
  · exact h.ne_undefine _ _ rfl

/-- The work on another domain does not look at a domain. -/
theorem Makes.ne_isActive (h : x.Makes c) (hne : x.name ≠ y.name) : c ≠ .isActive .domain y.name := by
  rintro rfl
  generalize hname : y.name = name at h
  cases h with
  | look about reads =>
    obtain rfl : name = x.name := Option.some.inj (Prod.mk.inj about).2
    exact hne hname.symm

/-- The work on a domain that is never to be off does not turn it off. -/
theorem Makes.not_turnsOff_self (h : x.Makes c) (hmay : ¬ x.MayStop) : ¬ c.TurnsOff x.name := by
  rintro (⟨force, rfl⟩ | rfl)
  · cases h with
    | look about reads => exact absurd reads (by simp [Call.isReading])
    | stop may force => exact hmay may
  · exact h.ne_undefine _ _ rfl

theorem confined_tasks {p : Call → Prop} {xs : List Domain} {dry : Bool} {timeout : Binary64}
    {before : List Result} {there : Domain → Bool} (h : ∀ z ∈ xs, ∀ c, z.Makes c → p c) :
    (gather (xs.map fun z => z.task dry timeout before (there z))).Confined (Query.CallsOnly p)
      fun _ => True := by
  refine confined_gather fun t ht => ?_
  obtain ⟨z, hz, rfl⟩ := List.mem_map.1 ht
  exact (z.confined_makes dry timeout before _).mono (fun q hq => hq.mono (h z hz)) fun _ _ => trivial

theorem active_powered_of_on {d : Domain} (h : d.active = some true) {n : Int} {outcome : Outcome}
    {running : Bool} {r : StoredResource} (hrunning : running = true → r.active = true) :
    (d.powered n outcome running r).active = true := by
  unfold powered
  cases running with
  | false => simp [h, StoredResource.started]
  | true =>
    have hactive := hrunning rfl
    simp only [h, Bool.not_true, Bool.false_eq_true, and_false, if_false, Option.some.injEq, false_and,
      Bool.true_and, reduceCtorEq]
    split
    · rfl
    · exact hactive

/-- **The work on a domain that is declared on leaves it on** if it goes well, whatever its document is stored
under. -/
theorem ends_sync_of_on {d : Domain} {polls : Table Int} {t : Tables} (h : d.active = some true)
    (hthere : (t.get? .domain d.name).isSome = true) (timeout : Binary64) :
    Talk.Ends polls t (d.sync false timeout true).run fun a u => ∀ x, a = .ok x → u.IsOn d.name := by
  obtain ⟨r, hr⟩ := Option.isSome_iff_exists.1 hthere
  have hstore : Talk.Ends polls t (d.store false true).run fun a u =>
      ∀ x, a = .ok x → (u.get? .domain d.name).isSome = true := by
    unfold store
    cases d.written with
    | error why => exact Talk.Ends.pure fun x hx => absurd hx (by simp)
    | ok text =>
      refine Talk.Yields.andThen (Talk.Ends.pure ⟨rfl, rfl⟩) ?_
      have hread : Talk.Yields polls t (Work.attempt .read (.read .domain d.name)).run (.ok r.document) t := by
        exact Talk.Yields.attempt (Work.admits_read.serve_self hr)
      refine hread.andThen ?_
      split
      · exact Talk.Ends.pure fun _ _ => hthere
      · refine Talk.Yields.andThen (Talk.Yields.change (a := ()) rfl) (Talk.Ends.pure fun _ _ => ?_)
        simp only [Bool.false_eq_true, if_false, Tables.define, Tables.get?_put, true_and]
        split
        · rfl
        · exact hthere
  rw [sync_eq]
  refine hstore.andThen (fun x u hu => ?_) fun x u _ y hy => absurd hy (by simp)
  obtain ⟨outcome, changes⟩ := x
  obtain ⟨s, hs⟩ := Option.isSome_iff_exists.1 (hu _ rfl)
  -- a domain that is declared on is always looked at
  have hlook : (true && (d.active.isSome || d.restart == some true || outcome == .updated)) = true := by
    simp [h]
  unfold finish
  simp only [hlook, if_true]
  refine Talk.Yields.andThen (Talk.Yields.attempt (Work.admits_isActive u hs)) ?_
  refine Talk.Ends.andThen (brings_power false timeout outcome s.seen.active _ Tables.get?_put_self) ?_
    fun x u _ y hy => absurd hy (by simp)
  rintro said _ ⟨s', rfl, -, hs'⟩
  refine Talk.Ends.pure fun _ _ => ⟨s', Tables.get?_put_self, ?_⟩
  rw [hs']
  exact active_powered_of_on h fun hactive => hactive

/-- **The task of a domain that is declared on leaves it on**, unless it fails. -/
theorem isOn_task {d : Domain} {m : Memory} (hcalm : m.Calm) (h : d.active = some true)
    (hthere : (m.tables.get? .domain d.name).isSome = true)
    {timeout : Binary64} {before rs : List Result}
    (hrs : (m.run (d.task false timeout before true)).1 = .ok rs) :
    (∃ x ∈ rs, x.isAbout .domain d.name = true ∧ x.outcome = .failed) ∨
      (m.run (d.task false timeout before true)).2.tables.IsOn d.name := by
  unfold task at hrs ⊢
  dsimp only at hrs ⊢
  split at hrs
  · next hblamed =>
    simp only [if_pos hblamed, Memory.run_bind, hcalm.uncancelled.run_supervise, Memory.run_pure] at hrs ⊢
    have hend := ends_sync_of_on h hthere timeout m hcalm rfl rfl
    rcases Ending.recorded_of_eq_ok hrs with ⟨x, hx, -⟩ | ⟨op, reason, fk, rfl⟩
    · exact .inr (hend x hx)
    · exact .inl ⟨_, List.mem_singleton.2 rfl, Result.isAbout_iff.2 ⟨rfl, rfl⟩, rfl⟩
  · rw [← Except.ok.inj hrs]
    exact .inl ⟨_, List.mem_singleton.2 rfl, Result.isAbout_iff.2 ⟨rfl, rfl⟩, rfl⟩

end Domain

namespace Desired

variable {d : Desired} {y : Domain}

/-- A pass takes no declared domain away. -/
theorem Makes.ne_undefine {c : Call} (h : d.Makes c) {name : String} (hname : name ∈ d.names .domain) :
    c ≠ .undefine .domain name := by
  rintro rfl
  cases h with
  | elsewhere kind => exact kind rfl
  | look reads => exact absurd reads (by simp [Call.isReading])
  | domain _ makes => exact makes.ne_undefine _ _ rfl
  | undefine undeclared => exact undeclared hname

/-- A pass does not turn off a domain that is neither declared off nor restarted. -/
theorem Makes.not_turnsOff {c : Call} (h : d.Makes c) (hvalid : d.Validates) (hy : y ∈ d.domains.items)
    (hmay : ¬ y.MayStop) : ¬ c.TurnsOff y.name := by
  have hname : y.name ∈ d.names .domain := List.mem_map.2 ⟨y, hy, rfl⟩
  cases h with
  | elsewhere kind =>
    rintro (⟨force, rfl⟩ | rfl)
    · exact kind rfl
    · exact kind rfl
  | look reads =>
    rintro (⟨force, rfl⟩ | rfl)
    · exact absurd reads (by simp [Call.isReading])
    · exact absurd reads (by simp [Call.isReading])
  | @domain x c hx makes =>
    by_cases hsame : x.name = y.name
    · obtain rfl := List.inj_on_of_nodup_map hvalid.domains hx hy hsame
      exact makes.not_turnsOff_self hmay
    · exact makes.not_turnsOff hsame
  | undefine undeclared =>
    rintro (⟨force, heq⟩ | heq)
    · exact absurd heq (by simp)
    · obtain ⟨-, rfl⟩ := Call.undefine.inj heq
      exact undeclared hname

namespace Course

variable {timeout : Binary64} {m : Memory} (c : Course d false timeout m)

/-- The results of the tasks for domains, one task after the other. -/
theorem run_domainTasks (hcalm : m.Calm) (hy : y ∈ d.domains.items) :
    c.surveyed.run (gather (d.domains.items.map fun x => x.task false timeout (c.ofNetworks ++ c.ofPools)
      (c.filled.tables.get? .domain x.name).isSome)) = (.ok c.ofDomains, c.powered) := by
  have hfilled := (c.follows_wired.trans (Memory.follows_of_run c.runsPools)).calm hcalm
  have hstock := Stock.take_of_calm hfilled .domain d.domains.isManaged
  rw [c.takesDomains, Declared.isManaged_of_mem hy, if_pos rfl] at hstock
  have hruns := c.runsDomains
  rw [show c.domains = .known (c.filled.tables.sortedNames .domain) from hstock, Stock.tasks_known] at hruns
  exact hruns

/-- **A pass that nothing disturbs turns on a domain that is declared on**, unless it reports it failed. -/
theorem isOn_final (hvalid : d.Validates) (hcalm : m.Calm)
    (hy : y ∈ d.domains.items) (h : y.active = some true)
    (hthere : (m.tables.get? .domain y.name).isSome = true)
    (hkept : ∀ x ∈ c.results, x.isAbout .domain y.name = true → x.outcome ≠ .failed) :
    c.final.tables.IsOn y.name := by
  have hname : y.name ∈ d.names .domain := List.mem_map.2 ⟨y, hy, rfl⟩
  have hcalm' : c.surveyed.Calm := c.follows_surveyed.calm hcalm
  -- up to the domains nothing takes the domain away
  have hfilled : (c.filled.tables.get? .domain y.name).isSome = true :=
    Memory.isSome_run c.run_networksAndPools ((d.confined_elsewhere false).mono (fun q hq => hq.mono
      fun call hcall => by
        rintro rfl
        simp [Call.isReading, Call.target] at hcall) fun _ => id) hthere
  have hpowered : c.powered.tables.IsOn y.name := by
    have hruns := c.run_domainTasks hcalm hy
    obtain ⟨xs, ys, hitems⟩ := List.append_of_mem hy
    have hdistinct : ∀ z ∈ ys, z.name ≠ y.name := by
      have hnodup := hvalid.domains
      rw [hitems, List.map_append, List.map_cons, List.nodup_append, List.nodup_cons] at hnodup
      exact fun z hz heq => hnodup.2.1.1 (List.mem_map.2 ⟨z, hz, heq⟩)
    rw [hitems] at hruns
    obtain ⟨m₁, m₂, as, bs, cs, hbefore, htask, hbehind, hresults⟩ := Memory.exists_of_run_gather hruns
    rw [hfilled] at htask
    have hthere₁ : (m₁.tables.get? .domain y.name).isSome = true :=
      Memory.isSome_run hbefore (Domain.confined_tasks fun z _ call hcall => hcall.ne_undefine _ _)
        (c.tables_surveyed ▸ hfilled)
    have hon := Domain.isOn_task ((Memory.follows_of_run hbefore).calm hcalm') h hthere₁
      (congrArg Prod.fst htask)
    rw [htask] at hon
    rcases hon with ⟨x, hx, habout, hfailed⟩ | hon
    · have hmem : x ∈ c.results := c.mem_results_of_ofDeclared (k := .domain) (by
        rw [ofDeclared, hresults]
        simp [hx])
      exact absurd hfailed (hkept x hmem habout)
    · -- the tasks behind it are about other domains
      exact Memory.isOn_run hbehind (Domain.confined_tasks fun z hz call hcall =>
        ⟨hcall.not_turnsOff (hdistinct z hz), hcall.ne_isActive (hdistinct z hz)⟩) hon
  have hcleared : c.cleared.tables.IsOn y.name := by
    refine Memory.isOn_run c.runsRemovals (confined_removeDomains fun name hstale =>
      ⟨⟨?_, fun heq => ?_⟩, fun _ => ⟨?_, by simp⟩⟩) hpowered
    · rintro (⟨force, heq⟩ | heq) <;> exact absurd heq (by simp)
    · obtain ⟨-, rfl⟩ := Call.isActive.inj heq
      exact Stock.not_mem_of_stale hstale hname
    · rintro (⟨force, heq⟩ | heq)
      · exact absurd heq (by simp)
      · obtain ⟨-, rfl⟩ := Call.undefine.inj heq
        exact Stock.not_mem_of_stale hstale hname
  refine Memory.isOn_run c.runs_rest (confined_removeRest ?_ ?_) hcleared
  · intro call hreads hstill
    refine ⟨?_, ?_⟩
    · rintro (⟨force, rfl⟩ | rfl) <;> exact absurd hreads (by simp [Call.isReading])
    · rintro rfl
      exact absurd hstill (by simp [Call.isStill])
  · rintro - ⟨k, other⟩ hs
    refine ⟨?_, by simp⟩
    rintro (⟨force, heq⟩ | heq)
    · exact absurd heq (by simp)
    · exact (c.mem_rest_iff.1 hs).1 (Call.undefine.inj heq).1

end Course

end Desired

/-! ### A domain that is always restarted -/

/-- A domain that is always restarted. -/
def Domain.restarting (active : Option Bool) : Domain := { Domain.vm with active, restart := some true }

/-- A desired state with a domain that is always restarted. -/
def Desired.withRestart (active : Option Bool) : Desired :=
  { networks := .managed [], pools := .unmanaged [], domains := .managed [.restarting active] }

theorem Desired.validates_withRestart (active : Option Bool) : (Desired.withRestart active).Validates :=
  ⟨by simp [Desired.withRestart, Declared.items], Desired.audit_single rfl rfl rfl⟩

/-- No domain can be started. -/
def Memory.noStart : Disruption HostErrorKind := { word := "start_domain", error := .operation }

/-- A host on which a domain runs and no domain can be started. -/
def Memory.withRunning (text : String) (log : List Call) : Memory :=
  { tables := { domains := [("vm", { document := text, active := true })] }
    disruptions := [noStart], log }

section

variable {active : Option Bool} {text : String} (hactive : active ≠ some false)
  (hwritten : (Domain.restarting active).written = .ok text) (hmatch : documentsMatch text text = true)
  (timeout : Binary64)

include hactive hwritten hmatch

/-- The domain is turned off, and then it is not started again. -/
theorem Domain.run_task_withRunning (log : List Call) :
    ∃ x n, (Memory.withRunning text log).run ((restarting active).task false timeout [] true) = (.ok [x], n) ∧
      n.Uncancelled ∧ n.polls = [] ∧ n.tables = { domains := [("vm", { document := text })] } := by
  have hread : (Memory.withRunning text log).run (Work.attempt .read (.read .domain "vm")).run =
      (.ok text, Memory.withRunning text (log ++ [.read .domain "vm"])) := rfl
  have hstore : (Memory.withRunning text log).run ((restarting active).store false true).run =
      (.ok (.unchanged, []), Memory.withRunning text (log ++ [.read .domain "vm"])) := by
    unfold store
    rw [hwritten]
    show Memory.run _ ((Work.attempt .read (.read .domain "vm")) >>= _).run = _
    rw [ExceptT.run_bind, Memory.run_bind, hread]
    simp only [hmatch, if_true]
    rfl
  -- the guest shuts down at once, and the call that starts it again is struck
  have hfinish : ∀ log, ∃ n, (Memory.withRunning text log).run
      ((restarting active).finish false timeout true .unchanged []).run =
        (.error (.failed .start "start_domain vm failed" .operational), n) ∧ n.Uncancelled ∧
          n.polls = [] ∧ n.tables = { domains := [("vm", { document := text })] } := by
    intro log
    match active, hactive with
    | none, _ => exact ⟨_, rfl, ⟨rfl, rfl⟩, rfl, rfl⟩
    | some true, _ => exact ⟨_, rfl, ⟨rfl, rfl⟩, rfl, rfl⟩
    | some false, h => exact absurd rfl h
  obtain ⟨n, hn, hrest⟩ := hfinish (log ++ [.read .domain "vm"])
  have hm : (Memory.withRunning text log).Uncancelled := ⟨rfl, rfl⟩
  have hblamed : ((restarting active).failedDependencies []).isEmpty = true := rfl
  have hsync : (Memory.withRunning text log).run ((restarting active).sync false timeout true).run =
      (.error (.failed .start "start_domain vm failed" .operational), n) := by
    rw [sync_eq, ExceptT.run_bind, Memory.run_bind, hstore]
    exact hn
  refine ⟨.stuck .domain "vm" .start "start_domain vm failed", n, ?_, hrest⟩
  unfold task
  simp only [hblamed, if_true, Memory.run_bind, hm.run_supervise, hsync]
  rfl

omit hactive hwritten hmatch in
theorem Memory.run_take_withRunning (kind : DefinedKind) (managed : Bool) (log : List Call) :
    (withRunning text log).run (Stock.take kind managed) =
      (.inTables (withRunning text log).tables kind managed, withRunning text (log ++ [.list kind])) := by
  cases kind <;> cases managed <;> rfl

/-- The pass leaves the domain off. -/
theorem Desired.run_phases_withRunning :
    ∃ x n, (Memory.withRunning text []).run ((withRestart active).phases false timeout) = (.ok [x], n) ∧
      n.Uncancelled ∧ n.polls = [] ∧ n.tables = { domains := [("vm", { document := text })] } := by
  obtain ⟨x, n, hrun, hrest⟩ := Domain.run_task_withRunning hactive hwritten hmatch timeout
    ([.list .network, .list .pool] ++ [.list .domain])
  have hnetworks : Stock.inTables (Memory.withRunning text []).tables .network true = .known [] := by
    simp [Stock.inTables, Tables.sortedNames, Tables.table, Memory.withRunning, Table.names]
  have hpools : ∀ log, Stock.inTables (Memory.withRunning text log).tables .pool false = .leftAlone [] := by
    simp [Stock.inTables, Tables.sortedNames, Tables.table, Memory.withRunning, Table.names]
  have hdomains : ∀ log, Stock.inTables (Memory.withRunning text log).tables .domain true = .known ["vm"] := by
    simp [Stock.inTables, Tables.sortedNames, Tables.table, Memory.withRunning, Table.names]
  exact ⟨x, n, run_phases_single (by rw [Memory.run_take_withRunning, hnetworks])
    (by rw [Memory.run_take_withRunning, hpools]) (by rw [Memory.run_take_withRunning, hdomains]; rfl) hrun, hrest⟩

omit hactive hmatch in
/-- A pass that nothing disturbs gives results. -/
theorem Desired.exists_run_withRestart {n : Memory} (hn : n.Calm) :
    ∃ rs, (n.run ((withRestart active).phases false timeout)).1 = .ok rs := by
  refine exists_run_phases hn.uncancelled false timeout (fun x hx => ?_) ?_
  · obtain rfl := List.mem_singleton.1 hx
    exact ⟨text, hwritten⟩
  · have hnetworks := Stock.take_of_calm hn .network true
    rcases hrun : n.run (Stock.take .network true) with ⟨networks, n'⟩
    rw [hrun] at hnetworks
    have hpools := Stock.take_of_calm ((Memory.follows_of_run hrun).calm hn) .pool false
    rcases hrun' : n'.run (Stock.take .pool false) with ⟨pools, n''⟩
    rw [hrun'] at hpools
    obtain rfl : networks = _ := hnetworks
    obtain rfl : pools = _ := hpools
    show ∃ rs, (Memory.run _ (Stock.take .network true >>= fun networks => Stock.take .pool false >>=
      fun pools => gather (networks.tasks .network ([] : List Network) (·.name) (fun _ => [])
        (fun n => n.task false) ++ pools.tasks .pool ([] : List Pool) (·.name) Pool.volumesLost
          fun p => p.task false) >>= fun results =>
            pure (results, networks.stale [], pools.stale []))).1.1 = _
    simp only [Memory.run_bind, hrun, hrun']
    simp [Stock.tasks, Memory.run_gather_cons, Recorded.append, Except.bind, Except.map]

end

/-- In that pass the domain is in line. -/
theorem Desired.Course.vm_withRestart {active : Option Bool} {timeout : Binary64} {n : Memory}
    (c : Course (withRestart active) false timeout n) (hvalid : (withRestart active).Validates)
    (hplain : (withRestart active).IsPlain) (hn : n.Calm) :
    (∀ x ∈ (Report.of c.results false).about .domain "vm", x.outcome ≠ .failed) ∧
      c.final.tables.get? .domain "vm" = some ((Domain.restarting active).settled
        (Domain.restarting active).document.print ((n.polls.get? "vm").getD 0) (n.tables.get? .domain "vm")) := by
  have hvm : Domain.restarting active ∈ (withRestart active).domains.items := List.mem_singleton.2 rfl
  have hname : "vm" ∈ (withRestart active).names .domain := List.mem_map.2 ⟨_, hvm, rfl⟩
  have hfree : ∀ before, ((Domain.restarting active).failedDependencies before).isEmpty = true :=
    fun before => rfl
  obtain ⟨x, hsole, hkind, hxname, ⟨-, hblamed, -⟩ | ⟨hverdict, -, -, hentry⟩⟩ :=
    c.domain_of_calm hn hplain hvalid hvm
  · exact absurd hblamed (by simp [hfree])
  · have hall := c.isSole_of_declared hplain hvalid (k := .domain) hsole hkind (hxname ▸ hname)
    refine ⟨fun y hy => ?_, (c.get?_final_of_declared hplain hvalid hname).trans hentry⟩
    obtain ⟨hmem, habout⟩ := List.mem_filter.1 hy
    obtain ⟨hykind, hyname⟩ := Result.isAbout_iff.1 habout
    rw [hall.2 y (Report.mem_of.1 hmem) (hykind.trans hkind.symm) (hyname.trans hxname.symm), hverdict]
    have hcases := (Domain.restarting active).verdict_cases (Domain.restarting active).document.print
      (n.tables.get? .domain "vm")
    exact fun hfailed => absurd (hfailed ▸ hcases) (by simp)

section

variable {active : Option Bool} {text : String} (hvalid : (Desired.withRestart active).Validates)

include hvalid

/-- After a pass that cannot start the domain, it is off. -/
theorem Settings.passes_withRestart (hactive : active ≠ some false)
    (hwritten : (Domain.restarting active).written = .ok text) (hmatch : documentsMatch text text = true) :
    ∃ n, ({} : Settings).passes (.withRestart active) none (.withRunning text [])
        [[Memory.noStart]] = n ∧
      n.Uncancelled ∧ n.polls = [] ∧ n.tables = { domains := [("vm", { document := text })] } := by
  obtain ⟨x, n, hrun, hrest⟩ :=
    Desired.run_phases_withRunning hactive hwritten hmatch ({} : Settings).pass.shutdownTimeout
  have hall : (Memory.withRunning text []).run (({} : Settings).apply (.withRestart active)) =
      (.ok (.of [x] false), n) := run_apply_of_phases (s := ({} : Settings)) hvalid hrun
  have hsame : (Memory.withRunning text []).disrupted [Memory.noStart] = Memory.withRunning text [] := rfl
  refine ⟨n, ?_, hrest⟩
  rw [passes, List.foldl_cons, List.foldl_nil, hsame, hall]

/-- A pass that nothing disturbs gives a report in which the domain does not fail. -/
theorem Settings.apply_withRestart (hplain : (Desired.withRestart active).IsPlain)
    (htext : (Domain.restarting active).document.print = text)
    (hwritten : (Domain.restarting active).written = .ok text) {n : Memory} (hn : n.Calm)
    (hpolls : n.polls = []) (htables : n.tables = { domains := [("vm", { document := text })] }) :
    ∃ report n', n.run (({} : Settings).apply (.withRestart active)) = (.ok report, n') ∧
      (∀ x ∈ report.about .domain "vm", x.outcome ≠ .failed) ∧
      n'.tables.get? .domain "vm" =
        some ((Domain.restarting active).settled text 0 (some { document := text })) := by
  obtain ⟨rs, hrs⟩ := Desired.exists_run_withRestart hwritten ({} : Settings).pass.shutdownTimeout hn
  obtain ⟨c, rfl, hfinal⟩ := Desired.exists_course hrs
  have hphases : n.run ((Desired.withRestart active).phases false ({} : Settings).pass.shutdownTimeout) =
      (.ok c.results, c.final) := Prod.ext hrs hfinal.symm
  have hrun : n.run (({} : Settings).apply (.withRestart active)) = (.ok (.of c.results false), c.final) :=
    run_apply_of_phases (s := ({} : Settings)) hvalid hphases
  obtain ⟨hkept, hentry⟩ := c.vm_withRestart hvalid hplain hn
  refine ⟨_, _, hrun, hkept, ?_⟩
  rw [hentry, htext, hpolls, htables]
  rfl

end

/-- The domain is running on the host before the first pass. -/
theorem Memory.staysOn_withRunning (text : String) : (withRunning text []).tables.StaysOn "vm" :=
  ⟨_, rfl, rfl, rfl⟩

end VirtualTopology
