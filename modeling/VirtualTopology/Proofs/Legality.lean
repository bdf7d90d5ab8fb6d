import VirtualTopology.Proofs.Pass.Legality

/-!
# Passes keep to the rules of the host

Without disruptions, each call of a real pass is legal when it is issued, whatever is on the host and whenever the
pass is cancelled (`Settings.calls_allowed`). So no call fails, and what fails is excused.

The phases are lawful one behind the other (`Desired.lawful_phases`). What is stale stays stale until it is removed
(`Desired.Strays`), as tasks leave alone what they are not about.
-/

namespace VirtualTopology

open Dialogue Talk

variable {polls : Table Int} {t : Tables}

/-! ### Removals -/

namespace Removal

/-- **To see what domains refer to is lawful** while the domains are there; if it fails then a document cannot be
read. -/
theorem lawful_referencesOf (results : List Result) {domains : List String}
    (hthere : ∀ name ∈ domains, (t.get? .domain name).isSome = true) :
    Lawful polls (fun a u => u = t ∧ ∀ reason, a = .error reason →
        ∃ domain, reason = "Unreadable definition of domain " ++ domain ++ ": malformed document")
      (referencesOf results domains) t := by
  induction domains with
  | nil => exact .pure ⟨rfl, fun reason h => absurd h (by simp)⟩
  | cons domain domains ih =>
    have hrest := ih fun name hname => hthere name (by simp [hname])
    unfold referencesOf
    split
    · exact hrest
    · obtain ⟨r, hr⟩ := Option.isSome_iff_exists.1 (hthere domain (by simp))
      have hallow : t.Allows (.read .domain domain) := Option.isSome_iff_exists.2 ⟨r, hr⟩
      refine Lawful.bind (Lawful.call (Q := fun reply u => (∃ document, reply = .ok document) ∧ u = t) hallow
        fun document u hserve => ⟨⟨document, rfl⟩, Tables.eq_of_isStill hserve rfl⟩) ?_
      rintro reply u ⟨⟨document, rfl⟩, rfl⟩
      dsimp only
      split
      · exact .pure ⟨rfl, fun reason h => ⟨domain, (Except.error.inj h).symm⟩⟩
      · refine Lawful.bind hrest ?_
        rintro rest v ⟨rfl, hwhy⟩
        cases rest with
        | error why => exact .pure ⟨rfl, fun reason h => hwhy reason h⟩
        | ok rs => exact .pure ⟨rfl, fun reason h => absurd h (by simp [Except.map])⟩

/-- **Networks and pools that are there can be removed**, one behind the other. -/
theorem lawful_run (results : List Result) {stale : List (DefinedKind × String)} (hnodup : stale.Nodup)
    (hthere : ∀ s ∈ stale, (t.get? s.1 s.2).isSome = true) :
    Lawful polls (fun r _ => r.All Result.IsExcused) (run false results stale) t := by
  unfold run
  split
  · exact .pure ((Recorded.all_ok_iff _).2 (by simp))
  refine Lawful.bind (Q := fun _ u => u = t) (.cancelled fun _ => rfl) ?_
  rintro cancelled u rfl
  split
  · exact .pure ((Recorded.all_ok_iff _).2 (List.forall_mem_map.2 fun s _ => Result.isExcused_of_ne nofun))
  -- without disruptions the references are known unless a document is malformed
  have hreferences : Lawful polls (fun a v => v = u ∧ ∀ reason, a = .error reason →
      ∃ domain, reason = "Unreadable definition of domain " ++ domain ++ ": malformed document")
      (references results) u := by
    refine Lawful.bind (.list .domain) ?_
    rintro reply v ⟨rfl, rfl⟩
    exact lawful_referencesOf results fun name hname => Tables.mem_sortedNames_iff.1 hname
  refine Lawful.bind hreferences ?_
  rintro refs v ⟨rfl, hreason⟩
  cases refs with
  | error reason =>
    obtain ⟨domain, rfl⟩ := hreason reason rfl
    refine .pure ((Recorded.all_ok_iff _).2 (List.forall_mem_map.2 fun s _ _ => ?_))
    exact .inr (.inr (.inr (.inr ⟨domain, rfl⟩)))
  | ok refs =>
    have htask : ∀ s ∈ stale, ∀ t : Tables, (t.get? s.1 s.2).isSome = true →
        Lawful polls (fun r _ => r.All Result.IsExcused) (task false refs s.1 s.2) t := by
      intro s _ t ht
      rw [task_eq]
      split
      · have hallow : t.Allows (.undefine s.1 s.2) := ht
        exact Lawful.recorded (Lawful.andNext (Lawful.change hallow) fun _ _ _ => .pure (.ok nofun))
      · refine .pure ((Recorded.all_ok_iff _).2 (List.forall_mem_singleton.2 fun _ => ?_))
        exact .inr (.inr (.inl rfl))
    -- what is removed is still there when its turn comes, for names are distinct
    have hgather : Lawful polls (fun r w => r.All Result.IsExcused ∧
        ∀ k name, (∀ s ∈ stale, (s.1, s.2) ≠ (k, name)) → w.get? k name = v.get? k name)
        (gather (stale.map fun s => task false refs s.1 s.2)) v :=
      Lawful.gather (e := fun _ => True) (by simpa using hnodup)
        (fun s _ => (confined_task false refs s.1 s.2).mono (fun q hq => hq.mono fun _ h => h.about)
          fun _ _ => trivial) htask hthere
    exact hgather.mono fun _ _ h => h.1

end Removal

/-! ### Phases -/

namespace Desired

variable {d : Desired}

/-- What is listed according to tables and is not declared is stale. -/
theorem strays_inTables (t : Tables) (k : DefinedKind) :
    d.Strays (((Stock.inTables t k (d.manages k)).stale (d.names k)).map (k, ·)) t := by
  refine Strays.of_stock fun names hnames => ?_
  cases hmanages : d.manages k with
  | true =>
    rw [hmanages] at hnames
    exact ⟨rfl, (Stock.known.inj hnames).symm⟩
  | false =>
    rw [hmanages] at hnames
    exact absurd hnames (by simp [Stock.inTables])

/-- **Bringing networks and pools in line is lawful**, and what is stale among them is there behind it. -/
theorem lawful_networksAndPools (hvalid : d.Validates) (hplain : d.IsPlain) (t : Tables) :
    Lawful polls (fun x u => x.1.All Result.IsExcused ∧
        d.Strays (x.2.1.map (DefinedKind.network, ·) ++ x.2.2.map (DefinedKind.pool, ·)) u)
      (d.networksAndPools false) t := by
  refine Lawful.bind (Stock.lawful_take .network _) ?_
  rintro _ u ⟨rfl, rfl⟩
  refine Lawful.bind (Stock.lawful_take .pool _) ?_
  rintro _ t ⟨rfl, rfl⟩
  have hstale := strays_inTables (d := d) t
  -- the tasks of networks leave pools alone, and the other way round, so each finds its resource as it was listed
  have hnetworks : Lawful polls (fun r u => r.All Result.IsExcused ∧
      ∀ k other, (∀ n ∈ d.networks.items, (DefinedKind.network, n.name) ≠ (k, other)) →
        u.get? k other = t.get? k other)
      (gather ((Stock.inTables t .network d.networks.isManaged).tasks .network d.networks.items (·.name)
        (fun _ => []) fun n => n.task false)) t :=
    Stock.lawful_tasks hvalid.networks
      (fun n hn there => (n.confined_task (hplain.network hn) false there).mono
        (fun q hq => hq.mono fun _ h => h.about) fun _ _ => trivial)
      (fun n hn there t ht => n.lawful_task (hplain.network hn) ht) fun _ => rfl
  have hpools : ∀ {u : Tables}, (∀ name, u.get? .pool name = t.get? .pool name) →
      Lawful polls (fun r v => r.All Result.IsExcused ∧
        ∀ k other, (∀ p ∈ d.pools.items, (DefinedKind.pool, p.name) ≠ (k, other)) → v.get? k other = u.get? k other)
        (gather ((Stock.inTables t .pool d.pools.isManaged).tasks .pool d.pools.items (·.name)
          Pool.volumesLost fun p => p.task false)) u := fun hsame =>
    Stock.lawful_tasks hvalid.pools
      (fun p hp there => (p.confined_task (hvalid.pool_isSound hplain hp) false there).mono
        (fun q hq => hq.mono fun _ h => h.about) fun _ _ => trivial)
      (fun p hp there t ht => p.lawful_task (hvalid.pool_isSound hplain hp) ht) fun p => hsame p.name
  rw [gather_append]
  refine Lawful.bind (Lawful.bind hnetworks ?_) ?_ (Q := fun r u => r.All Result.IsExcused ∧
    ∀ k name, name ∉ d.names k → k ≠ .domain → u.get? k name = t.get? k name)
  · rintro r u ⟨hall, hsame⟩
    refine Lawful.bind (hpools fun name => hsame _ _ fun n _ h => nomatch (Prod.mk.inj h).1) ?_
    rintro rs v ⟨hall', hsame'⟩
    refine .pure ⟨hall.append hall', fun k name hundeclared hk => ?_⟩
    refine (hsame' k name fun p hp h => ?_).trans (hsame k name fun n hn h => ?_)
    · obtain ⟨rfl, rfl⟩ := Prod.mk.inj h
      exact hundeclared (List.mem_map_of_mem hp)
    · obtain ⟨rfl, rfl⟩ := Prod.mk.inj h
      exact hundeclared (List.mem_map_of_mem hn)
  · rintro r u ⟨hall, hsame⟩
    have hstrays := (hstale .network).append (hstale .pool) fun s hs s' hs' => by
      obtain ⟨name, -, rfl⟩ := List.mem_map.1 hs
      obtain ⟨name', -, rfl⟩ := List.mem_map.1 hs'
      exact nofun
    refine .pure ⟨hall, hstrays.of_same fun s hs => hsame _ _ (hstrays.undeclared s hs) ?_⟩
    rcases List.mem_append.1 hs with hs | hs <;> obtain ⟨name, -, rfl⟩ := List.mem_map.1 hs <;> exact nofun

/-- **Bringing domains in line is lawful**; stale domains are there behind it, and networks and pools are as before. -/
theorem lawful_domainsInLine (hvalid : d.Validates) (hplain : d.IsPlain) (timeout : Binary64) (before : List Result)
    (t : Tables) :
    Lawful polls (fun x u => x.1.All Result.IsExcused ∧ d.Strays (x.2.map (DefinedKind.domain, ·)) u ∧
        ∀ k name, k ≠ .domain → u.get? k name = t.get? k name)
      (d.domainsInLine false timeout before) t := by
  refine Lawful.bind (Stock.lawful_take .domain _) ?_
  rintro _ t ⟨rfl, rfl⟩
  have hstale := strays_inTables (d := d) t .domain
  have htasks : Lawful polls (fun r u => r.All Result.IsExcused ∧
      ∀ k other, (∀ x ∈ d.domains.items, (DefinedKind.domain, x.name) ≠ (k, other)) →
        u.get? k other = t.get? k other)
      (gather ((Stock.inTables t .domain d.domains.isManaged).tasks .domain d.domains.items (·.name)
        (fun _ => []) fun x => x.task false timeout before)) t :=
    Stock.lawful_tasks hvalid.domains
      (fun x hx there => (x.confined_task (hplain.domain hx) false timeout before there).mono
        (fun q hq => hq.mono fun _ h => h.about) fun _ _ => trivial)
      (fun x hx there t ht => x.lawful_task (hplain.domain hx) timeout before ht) fun _ => rfl
  refine Lawful.bind htasks ?_
  rintro r u ⟨hall, hsame⟩
  refine .pure ⟨hall, hstale.of_same fun s hs => ?_, fun k name hk => ?_⟩
  · obtain ⟨name, hname, rfl⟩ := List.mem_map.1 hs
    refine hsame _ _ fun x hx h => ?_
    obtain rfl := (Prod.mk.inj h).2
    exact hstale.undeclared _ hs (List.mem_map_of_mem hx)
  · exact hsame k name fun x _ h => hk (Prod.mk.inj h).1.symm

/-- **The phases of a pass are lawful**, one behind the other. -/
theorem lawful_phases (hvalid : d.Validates) (hplain : d.IsPlain) (timeout : Binary64) (t : Tables) :
    Lawful polls (fun r _ => r.All Result.IsExcused) (d.phases false timeout) t := by
  have hstop : ∀ {why : Unwritable}, (Recorded.All Result.IsExcused (.error why)) := fun rs h => absurd h (by simp)
  refine Lawful.bind (d.lawful_networksAndPools hvalid hplain t) ?_
  rintro ⟨first, networks, pools⟩ u ⟨hfirst, hrest⟩
  cases first with
  | error why => exact .pure hstop
  | ok first =>
  refine Lawful.bind (d.lawful_domainsInLine hvalid hplain timeout first u) ?_
  rintro ⟨second, domains⟩ v ⟨hsecond, hdomains, hsame⟩
  cases second with
  | error why => exact .pure hstop
  | ok second =>
  -- the removal of domains leaves networks and pools as they are
  have hremovals : Lawful polls (fun r u => r.All Result.IsExcused ∧
      ∀ k other, (∀ name ∈ domains, (DefinedKind.domain, name) ≠ (k, other)) → u.get? k other = v.get? k other)
      (gather (domains.map (Domain.removal false))) v :=
    Lawful.gather hdomains.nodup
      (fun name _ => (Domain.confined_removal false name).mono (fun q hq => hq.mono fun _ h => h.about)
        fun _ _ => trivial)
      (fun name _ t ht => Domain.lawful_removal ht) fun name hname => hdomains.there _ (List.mem_map_of_mem hname)
  refine Lawful.bind hremovals ?_
  rintro third z ⟨hthird, hsame'⟩
  cases third with
  | error why => exact .pure hstop
  | ok third =>
  have hstale : d.Strays (networks.map (DefinedKind.network, ·) ++ pools.map (DefinedKind.pool, ·)) z := by
    refine hrest.of_same fun s hs => ?_
    have hk : s.1 ≠ .domain := by
      rcases List.mem_append.1 hs with hs | hs <;> obtain ⟨name, -, rfl⟩ := List.mem_map.1 hs <;> exact nofun
    exact (hsame' _ _ fun name _ h => hk (Prod.mk.inj h).1.symm).trans (hsame _ _ hk)
  refine Lawful.bind (Removal.lawful_run (first ++ second ++ third) hstale.nodup hstale.there) ?_
  intro last y hlast
  have hsoFar : Recorded.All Result.IsExcused (.ok (first ++ second ++ third)) :=
    (hfirst.append hsecond).append hthird
  exact .pure (hsoFar.append hlast)

end Desired

/-! ### Passes -/

/-- **Every call of a pass is legal.** Without disruptions, each call of a real pass over a validated desired state
with plain texts is allowed by the tables when it is issued, and goes well, whatever is on the host and whenever the
pass is cancelled; and a failure in the report is one that may come although no call fails. -/
theorem Settings.calls_allowed {s : Settings} {d : Desired} {dryRun : Option Bool} (hdry : s.isDry dryRun = false)
    (hvalid : d.Validates) (hplain : d.IsPlain) {m : Memory} (hcalm : m.disruptions = []) (cancels : Nat → Bool) :
    (∀ x ∈ (m.watch cancels (s.apply d dryRun)).2.calls, x.1.tables.Allows x.2 ∧ ∃ a, (x.1.call x.2).1 = .ok a) ∧
      ∀ report, (m.watch cancels (s.apply d dryRun)).1 = .ok report → ∀ x ∈ report.results, x.IsExcused := by
  have hlawful : Lawful m.polls (fun a _ => ∀ report, a = .ok report → ∀ x ∈ report.results, x.IsExcused)
      (s.apply d dryRun) m.tables := by
    unfold apply
    dsimp only
    rw [hdry, if_pos (List.isEmpty_iff.2 hvalid.audit)]
    refine Lawful.bind (d.lawful_phases hvalid hplain s.pass.shutdownTimeout m.tables) ?_
    intro recorded u hall
    cases recorded with
    | error why => exact .pure fun report h => absurd h (by simp)
    | ok results =>
      refine .pure fun report h x hx => ?_
      rw [← Except.ok.inj h, Report.mem_of] at hx
      exact hall results rfl x hx
  obtain ⟨⟨more, hcalls, hmore⟩, hend⟩ := hlawful.run (w := { host := m }) rfl hcalm cancels
  refine ⟨fun x hx => hmore x ?_, hend⟩
  have hall : (m.watch cancels (s.apply d dryRun)).2.calls = [] ++ more := hcalls
  rwa [hall] at hx

/-- A pass over an empty host that is cancelled while the pool is made. -/
theorem Settings.calls_allowed_withImages :
    (({} : Memory).watch (fun n => decide (5 ≤ n)) (({} : Settings).apply .withImages)).2.calls.map (·.2.word) =
      ["list_networks", "list_pools", "define_pool", "start_pool", "set_pool_autostart", "list_volumes",
        "list_domains"] ∧
    (∀ x ∈ (({} : Memory).watch (fun n => decide (5 ≤ n)) (({} : Settings).apply .withImages)).2.calls,
      x.1.tables.Allows x.2 ∧ ∃ a, (x.1.call x.2).1 = .ok a) ∧
    ∀ report, (({} : Memory).watch (fun n => decide (5 ≤ n)) (({} : Settings).apply .withImages)).1 = .ok report →
      ∀ x ∈ report.results, x.IsExcused :=
  ⟨by decide +kernel, calls_allowed (by decide) Desired.validates_withImages Desired.isPlain_withImages rfl _⟩

end VirtualTopology
