import VirtualTopology.Proofs.Pass.Remaining

/-!
# Passes that heal

A pass in which calls fail is made good by the next one that nothing disturbs: the host is left as if the failing pass
had never been (`Settings.apply_heals`). Three passes meet in the proof: one that nothing disturbs (`clean`), the
failing one (`failing`), and the one behind it that nothing disturbs (`again`).

* Declared networks and pools come to what they would have come to (`Supplies.resembles`), and the same domains are
  blamed, for these are the domains whose volumes are refused (`denies_again`).
* The failing pass blames these domains, too, and it may blame more. All others lead to where they led before
  (`persists_domain`), so that the last pass brings them there (`resembles_declared`).
* The failing pass removes nothing that the clean one would not have removed (`isFree_of_failing`), and the last pass
  removes the rest.

How often a guest is looked at is not made good. So a guest in the midst of a shutdown may be off behind the two
passes and still be seen on behind the one. `Domain.IsSteady` excludes it.
-/

namespace VirtualTopology

/-! ### Hosts that are alike -/

namespace Tables

variable {t u : Tables} {k : DefinedKind} {name : String}

/-- Whether there are the same resources on two hosts, apart from how long guests that are shutting down will still be
seen on. -/
def Resembles (t u : Tables) : Prop :=
  ∀ k name, Option.Rel StoredResource.Resembles (t.get? k name) (u.get? k name)

theorem rel_resembles_of_eq {old new : Option StoredResource} (h : old = new) :
    Option.Rel StoredResource.Resembles old new := by
  subst h
  cases old with
  | none => exact .none
  | some r => exact .some (.refl r)

/-- What is free depends on the documents of domains and on nothing else. -/
theorem isFree_congr (h : ∀ domain, Option.Rel StoredResource.Resembles (t.get? .domain domain)
    (u.get? .domain domain)) : u.IsFree k name ↔ t.IsFree k name := by
  refine forall_congr' fun domain => ?_
  have hdomain := h domain
  generalize t.get? .domain domain = old at hdomain ⊢
  generalize u.get? .domain domain = new at hdomain ⊢
  cases hdomain with
  | none => simp
  | some hr => simp only [Option.some.injEq, forall_eq', hr.document]

end Tables

namespace Desired

variable {d : Desired} {timeout : Binary64} {m : Memory}

/-- **A pass gives results if all can be written** that has to be: about volumes, and of each domain none of whose
volumes is refused. -/
theorem exists_run_phases_of_told (hplain : d.IsPlain) (hvalid : d.Validates) (hm : m.Uncancelled)
    (timeout : Binary64) (htold : d.IsTold m.tables)
    (hwritten : ∀ x ∈ d.domains.items, ¬ d.Denies m.tables x → ∃ text, x.written = .ok text) :
    ∃ rs, (m.run (d.phases false timeout)).1 = .ok rs := by
  have hsupplies := supplies_networksAndPools True hplain hvalid hm fun hnot => absurd trivial hnot
  obtain ⟨before, hbefore⟩ := hsupplies.exists_results htold
  rw [hbefore] at hsupplies
  refine exists_run_phases_of_free hm timeout hbefore fun x hx hfree => hwritten x hx fun hdenies => ?_
  exact hsupplies.blamed_of_denies hdenies hfree

namespace Course

/-- **What a declared domain is in the end of a pass that nothing disturbs**: what it was if a volume of its own is
refused, and otherwise what it is to be. -/
theorem final_domain_of_calm (c : Course d false timeout m) (hm : m.Calm) (hplain : d.IsPlain)
    (hvalid : d.Validates) {x : Domain} (hx : x ∈ d.domains.items) :
    d.Denies m.tables x ∧ c.final.tables.get? .domain x.name = m.tables.get? .domain x.name ∨
      ¬ d.Denies m.tables x ∧ x.written = .ok x.document.print ∧ c.final.tables.get? .domain x.name =
        some (x.settled x.document.print ((m.polls.get? x.name).getD 0) (m.tables.get? .domain x.name)) := by
  have hblamed := (c.supplies hm.uncancelled hplain hvalid False fun _ => hm).blamed_iff id (x := x)
  rw [c.get?_final_of_declared (k := .domain) hplain hvalid (List.mem_map.2 ⟨x, hx, rfl⟩)]
  obtain ⟨y, -, -, -, ⟨-, hnot, hsame⟩ | ⟨-, hfree, hwritten, hsettled⟩⟩ := c.domain_of_calm hm hplain hvalid hx
  · exact .inl ⟨hblamed.1 (by simpa using hnot), hsame⟩
  · exact .inr ⟨fun hdenies => hblamed.2 hdenies (by simpa using hfree), hwritten, hsettled⟩

theorem follows_final {dry : Bool} (c : Course d dry timeout m) : m.Follows c.final :=
  c.follows_cleared.trans (Memory.follows_of_run c.runs_rest)

/-! ### Three passes -/

/-- On a calm host stale domains are gone in the end. -/
theorem gone_domain_of_calm (c : Course d false timeout m) (hm : m.Calm) (hplain : d.IsPlain)
    (hvalid : d.Validates) {name : String} (hname : name ∈ c.stale .domain) :
    c.final.tables.get? .domain name = none := by
  obtain ⟨-, -, -, -, -, hgone⟩ := c.removal_of_calm hm hplain hvalid hname
  rw [c.get?_final_domain]
  exact hgone

section

variable (clean : Course d false timeout m.calmed) (failing : Course d false timeout m)
  (again : Course d false timeout failing.final.calmed) (hplain : d.IsPlain) (hvalid : d.Validates)
  {k : DefinedKind} {name : String}

include hplain hvalid

/-! #### What is not declared -/

/-- What is stale to the failing pass is stale to the clean one. -/
theorem mem_stale_of_failing (h : name ∈ failing.stale k) : name ∈ clean.stale k :=
  (clean.mem_stale_iff m.calm_calmed hplain hvalid).2 (failing.mem_stale hplain hvalid h)

/-- What is neither declared nor stale to the clean pass is left as it is by the failing one. -/
theorem untouched_failing (hdeclared : name ∉ d.names k) (hstale : name ∉ clean.stale k) :
    failing.final.tables.get? k name = m.tables.get? k name :=
  failing.untouched hplain hvalid hdeclared fun h => hstale (clean.mem_stale_of_failing failing hplain hvalid h)

/-- What is neither declared nor stale to the clean pass is left as it is by all passes. -/
theorem untouched_again (hdeclared : name ∉ d.names k) (hstale : name ∉ clean.stale k) :
    clean.final.tables.get? k name = again.final.tables.get? k name := by
  have hsame := clean.untouched_failing failing hplain hvalid hdeclared hstale
  have hfresh : name ∉ again.stale k := by
    intro h
    obtain ⟨hmanaged, hthere, -⟩ := again.mem_stale hplain hvalid h
    rw [show failing.final.calmed.tables.get? k name = _ from hsame] at hthere
    exact hstale ((clean.mem_stale_iff m.calm_calmed hplain hvalid).2 ⟨hmanaged, hthere, hdeclared⟩)
  calc clean.final.tables.get? k name
    _ = m.tables.get? k name := clean.untouched hplain hvalid hdeclared hstale
    _ = failing.final.tables.get? k name := hsame.symm
    _ = again.final.tables.get? k name := (again.untouched hplain hvalid hdeclared hfresh).symm

/-- What is stale to the clean pass is gone in the end if the last pass removes what is stale to it: what is not stale
to it has been removed before. -/
theorem gone_again (hstale : name ∈ clean.stale k)
    (hgone : name ∈ again.stale k → again.final.tables.get? k name = none) :
    again.final.tables.get? k name = none := by
  obtain ⟨hmanaged, -, hundeclared⟩ := clean.mem_stale hplain hvalid hstale
  by_cases hagain : name ∈ again.stale k
  · exact hgone hagain
  · rw [again.untouched hplain hvalid hundeclared hagain, ← Option.not_isSome_iff_eq_none]
    exact fun hthere => hagain ((again.mem_stale_iff (Memory.calm_calmed _) hplain hvalid).2
      ⟨hmanaged, hthere, hundeclared⟩)

/-! #### Domains -/

variable (hm : m.Uncancelled)

include hm

include clean in
/-- **The failing pass changes nothing about what can be written of volumes and about which volumes are refused.** -/
theorem denies_again :
    d.IsTold failing.final.tables ∧ ∀ x, d.Denies failing.final.tables x ↔ d.Denies m.tables x := by
  have hclean := clean.supplies m.calm_calmed.uncancelled hplain hvalid False fun _ => m.calm_calmed
  have hfailing := failing.supplies hm hplain hvalid True fun hnot => absurd trivial hnot
  exact hfailing.still hplain hvalid (hclean.isTold id)

variable (hrestart : ∀ x ∈ d.domains.items, x.restart ≠ some true)
  (hsteady : ∀ x ∈ d.domains.items, ∀ r ∈ m.tables.get? .domain x.name, x.IsSteady r)

include hrestart hsteady

omit clean in
/-- A domain whose volumes are refused is left alone. -/
theorem same_of_denies {x : Domain} (hx : x ∈ d.domains.items) (hdenies : d.Denies m.tables x) :
    failing.final.tables.get? .domain x.name = m.tables.get? .domain x.name := by
  have hfailing := failing.supplies hm hplain hvalid True fun hnot => absurd trivial hnot
  exact (failing.persists_domain hm hplain hvalid hrestart hsteady hx).1 (hfailing.blamed_of_denies hdenies)

/-- **Declared domains come to what they would have come to.** -/
theorem resembles_declared {x : Domain} (hx : x ∈ d.domains.items) :
    Option.Rel StoredResource.Resembles (clean.final.tables.get? .domain x.name)
      (again.final.tables.get? .domain x.name) := by
  have hdenies := (clean.denies_again failing hplain hvalid hm).2 x
  rcases clean.final_domain_of_calm m.calm_calmed hplain hvalid hx with ⟨hblamed, hclean⟩ | ⟨hfree, -, hclean⟩
  · -- no pass touches a domain that is blamed
    rcases again.final_domain_of_calm (Memory.calm_calmed _) hplain hvalid hx with ⟨-, hagain⟩ | ⟨hfree, -, -⟩
    · rw [hclean, hagain]
      exact Tables.rel_resembles_of_eq (failing.same_of_denies hplain hvalid hm hrestart hsteady hx hblamed).symm
    · exact absurd (hdenies.2 hblamed) hfree
  · rcases again.final_domain_of_calm (Memory.calm_calmed _) hplain hvalid hx with ⟨hblamed, -⟩ | ⟨-, -, hagain⟩
    · exact absurd (hdenies.1 hblamed) hfree
    · have hgoal := (failing.persists_domain hm hplain hvalid hrestart hsteady hx).2.goal
      have hpolls : failing.final.calmed.polls = m.polls := failing.follows_final.polls
      rw [hclean, hagain, hpolls]
      refine .some ?_
      show StoredResource.AgreeBut [] (x.goal _ _ _) (x.goal _ _ _)
      rw [show x.goal _ _ (failing.final.calmed.tables.get? .domain x.name) = _ from hgoal]
      exact .refl _ _

/-- All domains come to what they would have come to. -/
theorem resembles_domain (name : String) :
    Option.Rel StoredResource.Resembles (clean.final.tables.get? .domain name)
      (again.final.tables.get? .domain name) := by
  by_cases hdeclared : name ∈ d.names .domain
  · obtain ⟨x, hx, rfl⟩ := List.mem_map.1 hdeclared
    exact clean.resembles_declared failing again hplain hvalid hm hrestart hsteady hx
  · refine Tables.rel_resembles_of_eq ?_
    by_cases hstale : name ∈ clean.stale .domain
    · rw [clean.gone_domain_of_calm m.calm_calmed hplain hvalid hstale]
      exact (clean.gone_again failing again hplain hvalid hstale
        (again.gone_domain_of_calm (Memory.calm_calmed _) hplain hvalid)).symm
    · exact clean.untouched_again failing again hplain hvalid hdeclared hstale

/-! #### Networks and pools that are no longer declared -/

/-- A document that stands in the way behind the clean pass stands in the way behind the failing one. -/
theorem exists_blocks_of_clean (hstale : name ∈ clean.stale k) {domain : String}
    {r : StoredResource} (hr : clean.final.tables.get? .domain domain = some r)
    (hblocks : Removal.Blocks r.document k name) :
    ∃ s, failing.final.tables.get? .domain domain = some s ∧ Removal.Blocks s.document k name := by
  obtain ⟨hmanaged, -, hundeclared⟩ := clean.mem_stale hplain hvalid hstale
  by_cases hdeclared : domain ∈ d.names .domain
  · obtain ⟨x, hx, rfl⟩ := List.mem_map.1 hdeclared
    -- what is declared refers to nothing that is stale
    have hfree : ¬ Removal.Blocks x.document.print k name := fun h =>
      hundeclared (hvalid.mem_names_of_blocks hplain hx hmanaged h)
    rcases clean.final_domain_of_calm m.calm_calmed hplain hvalid hx with ⟨hblamed, hclean⟩ | ⟨-, -, hclean⟩
    · refine ⟨r, ?_, hblocks⟩
      rw [failing.same_of_denies hplain hvalid hm hrestart hsteady hx hblamed]
      exact hclean.symm.trans hr
    · rw [hclean] at hr
      obtain rfl := Option.some.inj hr
      cases hold : m.tables.get? .domain x.name with
      | none =>
        rw [show m.calmed.tables.get? .domain x.name = _ from hold, Domain.settled, Domain.document_powered]
          at hblocks
        exact absurd hblocks hfree
      | some r₀ =>
        rw [show m.calmed.tables.get? .domain x.name = _ from hold, Domain.settled, Domain.document_powered,
          Domain.document_stored] at hblocks
        obtain ⟨s, hs, hsame | hsame⟩ :=
          (failing.persists_domain hm hplain hvalid hrestart hsteady hx).2.document r₀ hold
        · refine ⟨s, hs, ?_⟩
          rw [hsame]
          unfold StoredResource.documented at hblocks
          split at hblocks
          · exact absurd hblocks hfree
          · exact hblocks
        · refine ⟨s, hs, ?_⟩
          rw [hsame]
          exact hblocks
  · by_cases hgone : domain ∈ clean.stale .domain
    · rw [clean.gone_domain_of_calm m.calm_calmed hplain hvalid hgone] at hr
      exact absurd hr (by simp)
    · refine ⟨r, ?_, hblocks⟩
      rw [clean.untouched_failing failing hplain hvalid hdeclared hgone]
      exact (clean.untouched hplain hvalid hdeclared hgone).symm.trans hr

/-- **The failing pass removes nothing that the clean one would not have removed.** -/
theorem isFree_of_failing (hstale : name ∈ clean.stale k)
    (h : failing.final.tables.IsFree k name) : clean.final.tables.IsFree k name := by
  by_contra hnot
  obtain ⟨domain, r, hr, hblocks⟩ := Tables.exists_blocks_of_not_isFree hnot
  obtain ⟨s, hs, hblocks'⟩ :=
    clean.exists_blocks_of_clean failing hplain hvalid hm hrestart hsteady hstale hr hblocks
  exact h.not_blocks hs hblocks'

/-- Stale networks and pools come to what they would have come to. -/
theorem same_stale (hk : k ≠ .domain) (hstale : name ∈ clean.stale k) :
    clean.final.tables.get? k name = again.final.tables.get? k name := by
  obtain ⟨-, -, hundeclared⟩ := clean.mem_stale hplain hvalid hstale
  have hsame : again.final.tables.IsFree k name ↔ clean.final.tables.IsFree k name :=
    Tables.isFree_congr (clean.resembles_domain failing again hplain hvalid hm hrestart hsteady)
  by_cases hfree : clean.final.tables.IsFree k name
  · rw [clean.gone_of_isFree hplain hvalid m.calm_calmed hk hstale hfree]
    exact (clean.gone_again failing again hplain hvalid hstale fun hagain =>
      again.gone_of_isFree hplain hvalid (Memory.calm_calmed _) hk hagain (hsame.2 hfree)).symm
  · have hfailing : ¬ failing.final.tables.IsFree k name := fun h =>
      hfree (clean.isFree_of_failing failing hplain hvalid hm hrestart hsteady hstale h)
    calc clean.final.tables.get? k name
      _ = m.tables.get? k name :=
        clean.stays_of_not_isFree m.calm_calmed.uncancelled hplain hvalid hk hundeclared hfree
      _ = failing.final.tables.get? k name :=
        (failing.stays_of_not_isFree hm hplain hvalid hk hundeclared hfailing).symm
      _ = again.final.tables.get? k name :=
        (again.stays_of_not_isFree (Memory.calm_calmed _).uncancelled hplain hvalid hk hundeclared
          fun h => hfree (hsame.1 h)).symm

/-! #### Everything -/

/-- **The last pass leaves the host as the clean pass would have left it.** -/
theorem resembles_final : clean.final.tables.Resembles again.final.tables := by
  intro k name
  by_cases hk : k = .domain
  · subst hk
    exact clean.resembles_domain failing again hplain hvalid hm hrestart hsteady name
  · by_cases hdeclared : name ∈ d.names k
    · exact Supplies.resembles hplain hvalid
        (clean.supplies m.calm_calmed.uncancelled hplain hvalid False fun _ => m.calm_calmed)
        (failing.supplies hm hplain hvalid True fun hnot => absurd trivial hnot)
        (again.supplies (Memory.calm_calmed _).uncancelled hplain hvalid False fun _ => Memory.calm_calmed _) hk
        hdeclared
    · refine Tables.rel_resembles_of_eq ?_
      by_cases hstale : name ∈ clean.stale k
      · exact clean.same_stale failing again hplain hvalid hm hrestart hsteady hk hstale
      · exact clean.untouched_again failing again hplain hvalid hdeclared hstale

end

end Course

end Desired

/-- **A failed pass heals.** Whatever fails in a real pass that is not cancelled, a pass behind it that nothing disturbs
leaves the host as it would have been left by that pass alone: with the same resources, and these with the same
documents, flags and volumes. Both passes give reports if that pass alone gives one. No domain may be declared to be
restarted in any case, and it must make no difference to a declared domain how often it is looked at. -/
theorem Settings.apply_heals {s : Settings} {d : Desired} {dryRun : Option Bool} {m : Memory} {report : Report}
    (hvalid : d.Validates) (hplain : d.IsPlain) (hrestart : ∀ x ∈ d.domains.items, x.restart ≠ some true)
    (hreal : s.isDry dryRun = false) (hm : m.Uncancelled)
    (hsteady : ∀ x ∈ d.domains.items, ∀ r ∈ m.tables.get? .domain x.name, x.IsSteady r)
    (hclean : (m.calmed.run (s.apply d dryRun)).1 = .ok report) :
    let after := (m.run (s.apply d dryRun)).2
    (∃ r, (m.run (s.apply d dryRun)).1 = .ok r) ∧ (∃ r, (after.calmed.run (s.apply d dryRun)).1 = .ok r) ∧
      (m.calmed.run (s.apply d dryRun)).2.tables.Resembles (after.calmed.run (s.apply d dryRun)).2.tables := by
  intro after
  have hexists : ∀ {n : Memory} {r : Report}, (n.run (s.apply d dryRun)).1 = .ok r →
      ∃ c : d.Course false s.pass.shutdownTimeout n, c.final = (n.run (s.apply d dryRun)).2 := by
    intro n r h
    have hcourse := Settings.exists_course h
    rw [hreal] at hcourse
    exact hcourse.imp fun _ => And.right
  have hreports : ∀ {n : Memory}, (∃ rs, (n.run (d.phases false s.pass.shutdownTimeout)).1 = .ok rs) →
      ∃ r, (n.run (s.apply d dryRun)).1 = .ok r := fun ⟨rs, h⟩ =>
    ⟨_, Settings.apply_eq_ok_of_phases hvalid (by rw [hreal]; exact h)⟩
  obtain ⟨clean, hcleanFinal⟩ := hexists hclean
  have hcalm := m.calm_calmed
  -- the clean pass has results, so everything that it told can be told again
  have htold : d.IsTold m.tables :=
    (clean.supplies hcalm.uncancelled hplain hvalid False fun _ => hcalm).isTold id
  have hwritten : ∀ x ∈ d.domains.items, ¬ d.Denies m.tables x → ∃ text, x.written = .ok text := by
    intro x hx hfree
    rcases clean.final_domain_of_calm hcalm hplain hvalid hx with ⟨hblamed, -⟩ | ⟨-, htext, -⟩
    · exact absurd hblamed hfree
    · exact ⟨_, htext⟩
  obtain ⟨r, hr⟩ := hreports (Desired.exists_run_phases_of_told hplain hvalid hm _ htold hwritten)
  obtain ⟨failing, hfailing⟩ := hexists hr
  -- behind the failed pass the same domains are kept back as in the clean one
  obtain ⟨htold', hdenies⟩ := clean.denies_again failing hplain hvalid hm
  have hafter : after = failing.final := hfailing.symm
  rw [hafter]
  obtain ⟨r', hr'⟩ := hreports (Desired.exists_run_phases_of_told (m := failing.final.calmed) hplain hvalid
    (Memory.calm_calmed _).uncancelled _ htold' fun x hx hfree => hwritten x hx fun h => hfree ((hdenies x).2 h))
  obtain ⟨again, hagain⟩ := hexists hr'
  refine ⟨⟨r, hr⟩, ⟨r', hr'⟩, ?_⟩
  rw [← hcleanFinal, ← hagain]
  exact clean.resembles_final failing again hplain hvalid hm hrestart hsteady

/-- A host on which no volume can be created. -/
def Memory.withoutCreation : Memory := { disruptions := [{ word := "create_volume", error := .operation }] }

/-- A volume that cannot be created is created by the next pass. -/
theorem Settings.apply_heals_withoutCreation :
    let s : Settings := {}
    let after := (Memory.withoutCreation.run (s.apply .withImages)).2
    (∃ r, (Memory.withoutCreation.run (s.apply .withImages)).1 = .ok r) ∧
      (∃ r, (after.calmed.run (s.apply .withImages)).1 = .ok r) ∧
      (Memory.withoutCreation.calmed.run (s.apply .withImages)).2.tables.Resembles
        (after.calmed.run (s.apply .withImages)).2.tables :=
  apply_heals Desired.validates_withImages Desired.isPlain_withImages
    (fun x hx => absurd hx (by simp [Desired.withImages, Declared.items])) rfl ⟨rfl, rfl⟩
    (fun x hx => absurd hx (by simp [Desired.withImages, Declared.items]))
    (apply_eq_ok_of_phases Desired.validates_withImages Desired.run_phases_withImages)

/-! ### A guest in the midst of a shutdown -/

/-- A domain that is declared off. -/
def Domain.shut : Domain := { Domain.vm with active := some false }

/-- A desired state with a domain that is declared off. -/
def Desired.withShut : Desired := { networks := .managed [], pools := .unmanaged [], domains := .managed [.shut] }

/-- No domain can be asked to shut down. -/
def Memory.noStop : Disruption HostErrorKind := { word := "stop_domain", error := .operation }

/-- A host on which a domain has been asked to shut down and will be seen on some more times. No domain can be asked to
shut down. -/
def Memory.withLeaving (text : String) (looks : Nat) (log : List Call) : Memory :=
  { tables := { domains := [("vm", { document := text, active := true, closing := some looks })] }
    polls := [("vm", 1)], disruptions := [noStop], log }

theorem Domain.run_task_withLeaving {text : String} (hwritten : Domain.shut.written = .ok text)
    (hmatch : documentsMatch text text = true) (timeout : Binary64) (log : List Call) :
    ∃ y n, (Memory.withLeaving text 1 log).run (shut.task false timeout [] true) = (.ok [y], n) ∧
      n.tables = (Memory.withLeaving text 0 []).tables := by
  have hread : (Memory.withLeaving text 1 log).run (Work.attempt .read (.read .domain "vm")).run =
      (.ok text, Memory.withLeaving text 1 (log ++ [.read .domain "vm"])) := rfl
  have hstore : (Memory.withLeaving text 1 log).run (shut.store false true).run =
      (.ok (.unchanged, []), Memory.withLeaving text 1 (log ++ [.read .domain "vm"])) := by
    unfold store
    rw [hwritten]
    show Memory.run _ ((Work.attempt .read (.read .domain "vm")) >>= _).run = _
    rw [ExceptT.run_bind, Memory.run_bind, hread]
    simp only [hmatch, if_true]
    rfl
  -- the look finds the guest on for the last time, and the call that asks it to shut down is struck
  have hfinish : ∀ log, ∃ n, (Memory.withLeaving text 1 log).run
      (shut.finish false timeout true .unchanged []).run =
        (.error (.failed .stop "stop_domain vm failed" .operational), n) ∧
          n.tables = (Memory.withLeaving text 0 []).tables := fun log => ⟨_, rfl, rfl⟩
  obtain ⟨n, hn, htables⟩ := hfinish (log ++ [.read .domain "vm"])
  have hm : (Memory.withLeaving text 1 log).Uncancelled := ⟨rfl, rfl⟩
  have hblamed : (shut.failedDependencies []).isEmpty = true := rfl
  have hsync : (Memory.withLeaving text 1 log).run (shut.sync false timeout true).run =
      (.error (.failed .stop "stop_domain vm failed" .operational), n) := by
    rw [sync_eq, ExceptT.run_bind, Memory.run_bind, hstore]
    exact hn
  refine ⟨.stuck .domain "vm" .stop "stop_domain vm failed", n, ?_, htables⟩
  unfold task
  simp only [hblamed, if_true, Memory.run_bind, hm.run_supervise, hsync]
  rfl

theorem Memory.run_take_withLeaving (text : String) (kind : DefinedKind) (managed : Bool) (log : List Call) :
    (withLeaving text 1 log).run (Stock.take kind managed) =
      (.inTables (withLeaving text 1 []).tables kind managed, withLeaving text 1 (log ++ [.list kind])) := by
  cases kind <;> cases managed <;> rfl

/-- A pass that cannot ask the domain to shut down has only looked at it. -/
theorem Settings.run_withLeaving {text : String} (hvalid : Desired.withShut.Validates)
    (hwritten : Domain.shut.written = .ok text) (hmatch : documentsMatch text text = true) :
    ∃ report n, (Memory.withLeaving text 1 []).run (({} : Settings).apply .withShut) = (.ok report, n) ∧
      n.tables = (Memory.withLeaving text 0 []).tables := by
  have hnetworks : Stock.inTables (Memory.withLeaving text 1 []).tables .network true = .known [] := by
    simp [Stock.inTables, Tables.sortedNames, Tables.table, Memory.withLeaving, Table.names]
  have hpools : Stock.inTables (Memory.withLeaving text 1 []).tables .pool false = .leftAlone [] := by
    simp [Stock.inTables, Tables.sortedNames, Tables.table, Memory.withLeaving, Table.names]
  have hdomains : Stock.inTables (Memory.withLeaving text 1 []).tables .domain true = .known ["vm"] := by
    simp [Stock.inTables, Tables.sortedNames, Tables.table, Memory.withLeaving, Table.names]
  have htakes : ∀ kind managed log, (Memory.withLeaving text 1 log).run (Stock.take kind managed) = _ :=
    Memory.run_take_withLeaving text
  obtain ⟨y, n, htask, htables⟩ := Domain.run_task_withLeaving hwritten hmatch
    ({} : Settings).pass.shutdownTimeout ([.list .network, .list .pool] ++ [.list .domain])
  have hphases : (Memory.withLeaving text 1 []).run
      (Desired.withShut.phases false ({} : Settings).pass.shutdownTimeout) = (.ok [y], n) :=
    Desired.run_phases_single (by rw [htakes, hnetworks]) (by rw [htakes, hpools]) (by rw [htakes, hdomains]; rfl) htask
  exact ⟨_, n, run_apply_of_phases (s := ({} : Settings)) hvalid hphases, htables⟩

/-- **A pass that nothing disturbs asks the domain to shut down if it is seen on.** -/
theorem Settings.apply_withShut (hvalid : Desired.withShut.Validates) (hplain : Desired.withShut.IsPlain)
    {text : String} (hwritten : Domain.shut.written = .ok text) {n : Memory} (hn : n.Calm)
    (hpolls : n.polls = [("vm", 1)]) {r : StoredResource} (hr : n.tables.get? .domain "vm" = some r) :
    (∃ report, (n.run (({} : Settings).apply .withShut)).1 = .ok report) ∧
      ((n.run (({} : Settings).apply .withShut)).2.tables.get? .domain "vm").map (·.active) =
        some r.seen.active := by
  have hshut : Domain.shut ∈ Desired.withShut.domains.items := List.mem_singleton.2 rfl
  obtain ⟨rs, hrs⟩ := Desired.exists_run_phases_of_told hplain hvalid hn.uncancelled
    ({} : Settings).pass.shutdownTimeout (fun p hp => absurd hp (by simp [Desired.withShut, Declared.items]))
    fun x hx _ => ⟨text, by rw [List.mem_singleton.1 hx]; exact hwritten⟩
  obtain ⟨c, rfl, hfinal⟩ := Desired.exists_course hrs
  have hrun : n.run (({} : Settings).apply .withShut) = (.ok (.of c.results false), c.final) :=
    run_apply_of_phases (s := ({} : Settings)) hvalid (Prod.ext hrs hfinal.symm)
  rw [hrun]
  refine ⟨⟨_, rfl⟩, ?_⟩
  rcases c.final_domain_of_calm hn hplain hvalid hshut with ⟨⟨k, hk, -⟩, -⟩ | ⟨-, -, hend⟩
  · exact absurd hk (by simp [Domain.shut, Domain.vm])
  · have hends := Domain.active_settled_some (d := .shut) Domain.shut.document.print 1 r
      (by simp [Domain.shut, Domain.vm])
    rw [show "vm" = Domain.shut.name from rfl, hend, hpolls, show n.tables.get? .domain Domain.shut.name = _ from hr]
    refine congrArg some (hends.trans ?_)
    show (r.seen.active && (1 : Int) != 0) = r.seen.active
    simp

/-- **A pass that fails to ask a guest to shut down is not made good if the guest is on its way down already.** The
guest is seen on by the first look and off by the second. So the clean pass asks it to shut down once more and leaves
it on; but when the failing pass has looked at it, the next pass finds it off. -/
theorem Settings.not_healed_withLeaving :
    let s : Settings := {}
    let m := Memory.withLeaving Domain.shut.document.print 1 []
    let after := (m.run (s.apply .withShut)).2
    Desired.withShut.Validates ∧ Desired.withShut.IsPlain ∧
      (∀ x ∈ Desired.withShut.domains.items, x.restart ≠ some true) ∧ s.isDry none = false ∧ m.Uncancelled ∧
      (∃ report, (m.calmed.run (s.apply .withShut)).1 = .ok report) ∧
      ((m.calmed.run (s.apply .withShut)).2.tables.get? .domain "vm").map (·.active) = some true ∧
      ((after.calmed.run (s.apply .withShut)).2.tables.get? .domain "vm").map (·.active) = some false := by
  intro s m after
  have hvalid : Desired.withShut.Validates :=
    ⟨by simp [Desired.withShut, Declared.items], Desired.audit_single rfl rfl rfl⟩
  have hplain : Desired.withShut.IsPlain := by decide
  have hwritten : Domain.shut.written = _ :=
    (Domain.written_eq (d := .shut) (by decide)).trans (if_pos (Text.isWritable_of_lt (by decide)))
  have hmatch := (Domain.legible (hplain.domain (List.mem_singleton.2 rfl))).documentsMatch_print
  obtain ⟨hreport, hclean⟩ := apply_withShut hvalid hplain hwritten (n := m.calmed) m.calm_calmed rfl rfl
  refine ⟨hvalid, hplain, ?_, rfl, ⟨rfl, rfl⟩, hreport, hclean, ?_⟩
  · intro x hx
    rw [List.mem_singleton.1 hx]
    simp [Domain.shut, Domain.vm]
  · obtain ⟨report, n, hrun, htables⟩ := run_withLeaving hvalid hwritten hmatch
    have hafter : after = n := congrArg Prod.snd hrun
    have hpolls : n.polls = m.polls := (Memory.follows_of_run hrun).polls
    have hlooked : n.calmed.tables.get? .domain "vm" =
        some { document := Domain.shut.document.print, active := true, closing := some 0 } := by
      show n.tables.get? .domain "vm" = _
      rw [htables]
      rfl
    rw [hafter]
    exact (apply_withShut hvalid hplain hwritten (n := n.calmed) (Memory.calm_calmed _) hpolls hlooked).2

end VirtualTopology
