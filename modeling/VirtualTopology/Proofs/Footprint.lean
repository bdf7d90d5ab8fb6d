import VirtualTopology.Proofs.Pass.Watch

/-!
# What a pass touches

A pass writes to what is declared, and it removes what is stale: each call that writes goes to a resource of a
managed kind, which either is declared, and then is not undefined, or is there without being declared, and then
is undefined (`Desired.Permits`). This holds of every call of every pass over a validated desired state with
plain texts, whatever is on the host, whatever fails and whenever the pass is cancelled
(`Settings.permits_calls`). A kind that is not managed is left as it is, in all respects.

The tasks for declared resources go to declared resources only (`Desired.Tends`), so that what was stale when it
was listed is still stale when its removal comes (`Desired.Strays`).
-/

namespace VirtualTopology

open Dialogue

/-- Whether a pool is declared with a volume in its list. -/
def Desired.Lists (d : Desired) (pool volume : String) : Prop :=
  ∃ q ∈ d.pools.items, q.name = pool ∧ ∃ e ∈ q.volumes, e.name = volume

/-- A call that a pass may make to a host. -/
inductive Desired.Permits (d : Desired) (m : Memory) : Call → Prop where
  /-- A look, which leaves the host as it is if the kind is not managed. -/
  | look {c : Call} (reads : c.isReading = true)
      (still : d.manages c.target.1 = false → c.isStill = true) : Permits d m c
  /-- A call for a declared resource, or for a listed volume of a declared pool, that does not undefine it. -/
  | declared {k : DefinedKind} {name : String} {c : Call} (managed : d.manages k = true)
      (declared : name ∈ d.names k) (about : c.IsAbout k name) (keeps : ∀ l other, c ≠ .undefine l other)
      (listed : ∀ volume, c.IsWithin name volume → d.Lists name volume) : Permits d m c
  /-- The removal of what is there and not declared. -/
  | undefine {k : DefinedKind} {name : String} (managed : d.manages k = true)
      (undeclared : name ∉ d.names k) (there : (m.tables.get? k name).isSome = true) :
      Permits d m (.undefine k name)

/-- A call goes to one volume only. -/
theorem Call.IsWithin.eq_of_isWithin {pool v v' : String} {c : Call} (h : c.IsWithin pool v)
    (h' : c.IsWithin pool v') : v = v' := by
  cases h with
  | read => cases h'; rfl
  | create name =>
    cases h' with
    | create name' => exact name.symm.trans name'
  | delete => cases h'; rfl
  | resize bytes => cases h'; rfl

namespace Desired

variable {d : Desired} {dry : Bool} {timeout : Binary64} {m : Memory} {c : Call}

/-- A look at a declared resource is permitted. -/
theorem Permits.of_about {k : DefinedKind} {name : String} (hname : name ∈ d.names k)
    (habout : c.IsAbout k name) (hreads : c.isReading = true) : d.Permits m c := by
  refine .look hreads fun hunmanaged => ?_
  rw [habout, manages_of_mem hname] at hunmanaged
  exact absurd hunmanaged (by simp)

/-- A list call is permitted. -/
theorem permits_list (d : Desired) (m : Memory) (k : DefinedKind) : d.Permits m (.list k) :=
  .look rfl fun _ => rfl

/-! ### Declared resources -/

/-- A call to a declared resource that every host permits. -/
def Tends (d : Desired) (c : Call) : Prop :=
  (∃ k name, name ∈ d.names k ∧ c.IsAbout k name) ∧ ∀ m, d.Permits m c

/-- A call to a declared resource leaves stale resources as they are. -/
theorem Tends.spares (h : d.Tends c) {s : DefinedKind × String} (hs : s.2 ∉ d.names s.1) :
    c.Spares s.1 s.2 := by
  obtain ⟨⟨k, name, hname, habout⟩, -⟩ := h
  refine habout.spares fun he => ?_
  obtain ⟨rfl, rfl⟩ := Prod.mk.inj he
  exact hs hname

/-- The calls of the work on a declared network or pool. -/
theorem tends_of_started {s : Started} (hname : s.name ∈ d.names s.kind)
    (htext : ∀ text, s.text = .ok text → nameInDocument text = s.name) (h : s.Makes dry c) : d.Tends c := by
  have habout := (h.isProper htext).about
  refine ⟨⟨s.kind, s.name, hname, habout⟩, fun m => ?_⟩
  cases h with
  | look about reads => exact .of_about hname about reads
  | define _ _ => exact .declared (manages_of_mem hname) hname habout (by simp) fun _ hw => nomatch hw
  | stop _ => exact .declared (manages_of_mem hname) hname habout (by simp) fun _ hw => nomatch hw
  | start _ => exact .declared (manages_of_mem hname) hname habout (by simp) fun _ hw => nomatch hw
  | autostart _ => exact .declared (manages_of_mem hname) hname habout (by simp) fun _ hw => nomatch hw

/-- The calls of the task for a declared pool. -/
theorem tends_of_pool {q : Pool} (hq : q ∈ d.pools.items) (hsound : q.IsSound) (h : q.Makes dry c) :
    d.Tends c := by
  have hname : q.name ∈ d.names .pool := List.mem_map.2 ⟨q, hq, rfl⟩
  cases h with
  | started makes =>
    exact tends_of_started (s := q.started) hname (fun _ => Pool.nameInDocument_of_started hsound) makes
  | volumes => exact ⟨⟨.pool, q.name, hname, rfl⟩, fun m => .of_about hname rfl rfl⟩
  | @volume e listed c makes =>
    have hwithin := makes.isWithin (hsound.sound e listed)
    refine ⟨⟨.pool, q.name, hname, makes.about⟩, fun m =>
      .declared (manages_of_mem hname) hname makes.about ?_ fun v hv => ?_⟩
    · rintro l other rfl
      exact nomatch hwithin
    · exact ⟨q, hq, rfl, e, listed, hwithin.eq_of_isWithin hv⟩

section

variable (hplain : d.IsPlain)

include hplain

theorem confined_tends_network {n : Network} (hn : n ∈ d.networks.items) (exists_ : Bool) :
    (n.task dry exists_).Confined (Query.CallsOnly d.Tends) fun _ => True := by
  refine (n.confined_makes dry exists_).mono (fun _ hq => hq.mono fun c hc => ?_) fun _ _ => trivial
  exact tends_of_started (s := n.started) (List.mem_map.2 ⟨n, hn, rfl⟩)
    (fun _ => Network.nameInDocument_of_started (hplain.network hn)) hc

theorem confined_tends_pool (hvalid : d.Validates) {q : Pool} (hq : q ∈ d.pools.items) (exists_ : Bool) :
    (q.task dry exists_).Confined (Query.CallsOnly d.Tends) fun _ => True :=
  (q.confined_makes dry exists_).mono
    (fun _ h => h.mono fun _ => tends_of_pool hq (hvalid.pool_isSound hplain hq)) fun _ _ => trivial

theorem confined_tends_domain {x : Domain} (hx : x ∈ d.domains.items) (before : List Result)
    (exists_ : Bool) :
    (x.task dry timeout before exists_).Confined (Query.CallsOnly d.Tends) fun _ => True := by
  have hname : x.name ∈ d.names .domain := List.mem_map.2 ⟨x, hx, rfl⟩
  have hwrite : ∀ {c : Call}, c.IsAbout .domain x.name → (∀ l other, c ≠ .undefine l other) → d.Tends c := by
    intro c habout hkeeps
    refine ⟨⟨.domain, x.name, hname, habout⟩, fun m =>
      .declared (manages_of_mem hname) hname habout hkeeps fun v hv => ?_⟩
    -- calls for volumes go to pools
    exact absurd (habout.symm.trans hv.about) (by simp)
  refine (Domain.confined_calls (fun habout hreads => ⟨⟨.domain, x.name, hname, habout⟩, fun m =>
    .of_about hname habout hreads⟩) (fun _ text htext => hwrite ?_ (by simp)) (fun _ => hwrite rfl (by simp))
    (fun _ _ force => hwrite rfl (by simp)) timeout before exists_).mono (fun _ => id) fun _ _ => trivial
  rw [← Domain.nameInDocument_of_written (hplain.domain hx) htext]
  rfl

end

/-! ### Removals -/

/-- The removal of a stale domain is permitted. -/
theorem safe_removal {name : String} {w : Watched} (h : d.Strays [(.domain, name)] w.host.tables) :
    Talk.Safe d.Permits (fun _ _ => True) (Domain.removal dry name) w := by
  have hmanaged : d.manages .domain = true := h.managed (.domain, name) (by simp)
  have hundeclared : name ∉ d.names .domain := h.undeclared (.domain, name) (by simp)
  have hthere : (w.host.tables.get? .domain name).isSome = true := h.there (.domain, name) (by simp)
  rw [Domain.removal_eq]
  refine Talk.Safe.bind (Talk.Safe.supervise (Q := fun _ _ => True) trivial ?_) fun _ _ _ => .pure trivial
  have hlook : d.Permits w.host (.isActive .domain name) :=
    .look rfl fun hunmanaged => absurd (hmanaged.symm.trans hunmanaged) (by simp)
  refine .andThen (.attempt (Q := fun _ w' => (w'.host.tables.get? .domain name).isSome = true) hlook
    (fun _ _ => ?_) fun _ => ?_) (fun running w' hthere' => ?_) fun _ _ _ => trivial
  · exact Memory.isSome_answer (q := .call _) hthere (by simp [Query.CallsOnly])
  · exact Memory.isSome_answer (q := .call _) hthere (by simp [Query.CallsOnly])
  · exact .andThen (.change (Q := fun _ _ => True) (fun _ => .undefine hmanaged hundeclared hthere')
      (fun _ => trivial) (fun _ _ _ => trivial) fun _ _ => trivial)
      (fun _ _ _ => .pure trivial) fun _ _ _ => trivial

/-- The removal of a stale network or pool is permitted. -/
theorem safe_removalTask {s : DefinedKind × String} {w : Watched} (h : d.Strays [s] w.host.tables)
    (refs : List References) :
    Talk.Safe d.Permits (fun _ _ => True) (Removal.task dry refs s.1 s.2) w := by
  rw [Removal.task_eq]
  split
  · refine Talk.Safe.bind (Talk.Safe.supervise (Q := fun _ _ => True) trivial ?_) fun _ _ _ => .pure trivial
    exact .andThen (.change (Q := fun _ _ => True) (fun _ => .undefine (h.managed s (by simp))
      (h.undeclared s (by simp)) (h.there s (by simp))) (fun _ => trivial) (fun _ _ _ => trivial)
      fun _ _ => trivial) (fun _ _ _ => .pure trivial) fun _ _ _ => trivial
  · exact .pure trivial

/-! ### Phases -/

section

variable (hplain : d.IsPlain) (hvalid : d.Validates) {w : Watched}

include hplain

/-- Bringing networks and pools in line is permitted, and what was listed and not declared is stale. -/
theorem safe_networksAndPools (hvalid : d.Validates) :
    Talk.Safe d.Permits (fun x w => d.Strays
      (x.2.1.map (DefinedKind.network, ·) ++ x.2.2.map (DefinedKind.pool, ·)) w.host.tables)
      (d.networksAndPools dry) w := by
  refine (Stock.safe_take (d.permits_list _ _)).bind ?_
  rintro networks _ ⟨rfl, hnetworks, -⟩
  refine (Stock.safe_take (d.permits_list _ _)).bind ?_
  rintro pools _ ⟨rfl, hpools, -⟩
  have hlisted : ∀ k, (w.after (.call (.list k))).host.tables = w.host.tables := fun k =>
    w.tables_after_of_isStill rfl
  have hstale : d.Strays ((networks.stale (d.names .network)).map (DefinedKind.network, ·) ++
      (pools.stale (d.names .pool)).map (DefinedKind.pool, ·))
      ((w.after (.call (.list .network))).after (.call (.list .pool))).host.tables := by
    rw [Watched.tables_after_of_isStill rfl, hlisted]
    rw [hlisted] at hpools
    exact (Desired.Strays.of_stock hnetworks).append (.of_stock hpools) (by simp)
  have htasks : ∀ t ∈ networks.tasks .network d.networks.items (·.name) (fun _ => []) (fun n => n.task dry) ++
      pools.tasks .pool d.pools.items (·.name) Pool.volumesLost (fun q => q.task dry),
      t.Confined (Query.CallsOnly d.Tends) fun _ => True := by
    intro t ht
    rcases List.mem_append.1 ht with ht | ht
    · exact Stock.confined_of_mem_tasks (fun n hn b => confined_tends_network hplain hn b) t ht
    · exact Stock.confined_of_mem_tasks (fun q hq b => confined_tends_pool hplain hvalid hq b) t ht
  refine (hstale.safe (confined_gather htasks) (fun m c hc => hc.2 m)
    fun c hc s hs => hc.spares (hstale.undeclared s hs)).bind fun _ w hw => .pure hw.2

/-- Bringing domains in line is permitted, and leaves what is stale as it is; and domains that were listed and
not declared are stale, too. -/
theorem safe_domainsInLine {stale : List (DefinedKind × String)} (hstale : d.Strays stale w.host.tables)
    (hkind : ∀ s ∈ stale, s.1 ≠ .domain) (before : List Result) :
    Talk.Safe d.Permits (fun x w => d.Strays (stale ++ x.2.map (DefinedKind.domain, ·)) w.host.tables)
      (d.domainsInLine dry timeout before) w := by
  refine (Stock.safe_take (d.permits_list _ _)).bind ?_
  rintro domains _ ⟨rfl, hdomains, -⟩
  have hboth : d.Strays (stale ++ (domains.stale (d.names .domain)).map (DefinedKind.domain, ·))
      (w.after (.call (.list .domain))).host.tables := by
    rw [Watched.tables_after_of_isStill rfl]
    refine hstale.append (Desired.Strays.of_stock hdomains) fun s hs s' hs' => ?_
    obtain ⟨name, -, rfl⟩ := List.mem_map.1 hs'
    exact hkind s hs
  exact (hboth.safe (confined_gather (Stock.confined_of_mem_tasks fun x hx b =>
    confined_tends_domain hplain hx before b)) (fun m c hc => hc.2 m)
    fun c hc s hs => hc.spares (hboth.undeclared s hs)).bind fun _ w hw => .pure hw.2

omit hplain

/-- Removing stale domains is permitted, and leaves other stale resources as they are. -/
theorem safe_removals {stale : List (DefinedKind × String)} {domains : List String}
    (h : d.Strays (stale ++ domains.map (DefinedKind.domain, ·)) w.host.tables)
    (hkind : ∀ s ∈ stale, s.1 ≠ .domain) :
    Talk.Safe d.Permits (fun _ w => d.Strays stale w.host.tables)
      (gather (domains.map (Domain.removal dry))) w := by
  have hconfined : ∀ name, (Domain.removal dry name).Confined
      (Query.CallsOnly fun c => c.isStill = true ∨ c.IsAbout .domain name) fun _ => True := fun name =>
    (Domain.confined_removal dry name).mono (fun _ hq => hq.mono fun c hc => .inr hc.about)
      fun _ _ => trivial
  have hremoved : Talk.Safe d.Permits (fun _ _ => True)
      (gather ((domains.map (DefinedKind.domain, ·)).map fun s => Domain.removal dry s.2)) w := by
    refine h.right.safe_gather (e := fun _ => True) (fun s hs => ?_) fun s hs w hw => ?_
    · obtain ⟨name, -, rfl⟩ := List.mem_map.1 hs
      exact hconfined name
    · obtain ⟨name, -, rfl⟩ := List.mem_map.1 hs
      exact safe_removal hw
  rw [List.map_map] at hremoved
  have hgather : (gather (domains.map (Domain.removal dry))).Confined (Query.CallsOnly fun c =>
      c.isStill = true ∨ ∃ name, c.IsAbout .domain name) fun _ => True :=
    confined_gather (List.forall_mem_map.2 fun name _ => (hconfined name).mono
      (fun _ hq => hq.mono fun c hc => hc.imp id fun habout => ⟨name, habout⟩) fun _ => id)
  have hothers := h.left.safe (p := fun _ _ => True) hgather (fun _ _ _ => trivial) fun c hc s hs => by
    rcases hc with hstill | ⟨name, habout⟩
    · exact Call.spares_of_isStill hstill
    · exact habout.spares fun he => hkind s hs (Prod.mk.inj he).1.symm
  exact (hremoved.and hothers).mono (fun _ _ h => h.1) fun _ _ h => h.2.2

/-- Removing stale networks and pools is permitted. -/
theorem safe_rest {stale : List (DefinedKind × String)} (h : d.Strays stale w.host.tables)
    (results : List Result) :
    Talk.Safe d.Permits (fun _ _ => True) (Removal.run dry results stale) w := by
  unfold Removal.run
  split
  · exact .pure trivial
  · refine Talk.Safe.bind (.cancelled (Q := fun _ w' => d.Strays stale w'.host.tables) fun _ => h)
      fun cancelled w hw => ?_
    split
    · exact .pure trivial
    · refine Talk.Safe.bind (hw.safe (Removal.confined_references results)
        (fun m c hc => .look hc.2 fun _ => hc.1) fun c hc s _ => Call.spares_of_isStill hc.1)
        fun refs w hw => ?_
      split
      · exact .pure trivial
      · refine hw.2.safe_gather (e := fun _ => True) (fun s _ => ?_) fun s _ w hw => safe_removalTask hw _
        exact (Removal.confined_task dry _ s.1 s.2).mono (fun _ hq => hq.mono fun c hc => .inr hc.about)
          fun _ _ => trivial

include hplain hvalid

/-- **A pass makes permitted calls only.** -/
theorem safe_permits (timeout : Binary64) (w : Watched) :
    Talk.Safe d.Permits (fun _ _ => True) (d.phases dry timeout) w := by
  have hkind : ∀ {networks pools : List String}, ∀ s ∈ networks.map (DefinedKind.network, ·) ++
      pools.map (DefinedKind.pool, ·), s.1 ≠ .domain := by
    intro networks pools s hs
    rcases List.mem_append.1 hs with hs | hs
    · obtain ⟨name, -, rfl⟩ := List.mem_map.1 hs
      simp
    · obtain ⟨name, -, rfl⟩ := List.mem_map.1 hs
      simp
  refine safe_phases
    (A := fun _ networks pools w => d.Strays (networks.map (DefinedKind.network, ·) ++
      pools.map (DefinedKind.pool, ·)) w.host.tables)
    (B := fun _ networks pools _ domains w => d.Strays (networks.map (DefinedKind.network, ·) ++
      pools.map (DefinedKind.pool, ·) ++ domains.map (DefinedKind.domain, ·)) w.host.tables)
    (C := fun _ networks pools w => d.Strays (networks.map (DefinedKind.network, ·) ++
      pools.map (DefinedKind.pool, ·)) w.host.tables) ?_ ?_ ?_ ?_
  · exact (safe_networksAndPools hplain hvalid).mono (fun _ _ => id) fun _ _ h => ⟨trivial, fun _ _ => h⟩
  · exact fun first networks pools w h => (safe_domainsInLine hplain h hkind first).mono (fun _ _ => id)
      fun _ _ h => ⟨trivial, fun _ _ => h⟩
  · exact fun first networks pools second domains w h => (safe_removals h hkind).mono (fun _ _ => id)
      fun _ _ h => ⟨trivial, fun _ _ => h⟩
  · exact fun soFar networks pools w h => safe_rest h soFar

end

end Desired

/-! ### Unmanaged kinds -/

/-- A permitted call leaves the resources of a kind that is not managed as they are. -/
theorem Desired.Permits.isStill {d : Desired} {m : Memory} {c : Call} (h : d.Permits m c)
    (hunmanaged : d.manages c.target.1 = false) : c.isStill = true := by
  cases h with
  | look _ still => exact still hunmanaged
  | declared managed _ about _ _ =>
    rw [about] at hunmanaged
    exact absurd (managed.symm.trans hunmanaged) (by simp)
  | undefine managed _ _ => exact absurd (managed.symm.trans hunmanaged) (by simp)

/-- **A pass touches what is declared and what is stale, and nothing else.** Whatever is on the host, whatever
fails and whenever the pass is cancelled, each call is permitted on the host to which it comes, and in the end
the resources of a kind that is not managed are as they were. -/
theorem Settings.permits_calls {s : Settings} {d : Desired} (hvalid : d.Validates) (hplain : d.IsPlain)
    (dryRun : Option Bool) (m : Memory) (cancels : Nat → Bool) :
    (∀ x ∈ (m.watch cancels (s.apply d dryRun)).2.calls, d.Permits x.1 x.2) ∧
      ∀ k, d.manages k = false →
        (m.watch cancels (s.apply d dryRun)).2.host.tables.table k = m.tables.table k := by
  have hsafe : Talk.Safe d.Permits (fun _ _ => True) (s.apply d dryRun) { host := m } :=
    safe_apply trivial fun _ => Desired.safe_permits hplain hvalid _ _
  have hkept := hsafe.invariant
    (I := fun n => ∀ k, d.manages k = false → n.tables.table k = m.tables.table k)
    (fun n q hq hn k hk => ?_) fun _ _ => rfl
  · obtain ⟨hcalls, -, htables⟩ := hkept.watch cancels
    exact ⟨fun x hx => (hcalls x hx).1, htables⟩
  · rw [← hn k hk]
    cases q with
    | call c =>
      rcases Memory.tables_call n c with heq | ⟨a, ha⟩
      · exact congrArg (·.table k) heq
      · refine Tables.table_serve_of_ne ha fun htarget => ?_
        exact hq.isStill (htarget ▸ hk)
    | cancelled => rfl
    | now => rfl
    | sleep _ => rfl

/-- A desired state in which pools are managed, and nothing else, and there are to be no pools. -/
def Desired.withoutPools : Desired :=
  { networks := .unmanaged [], pools := .managed [], domains := .unmanaged [] }

/-- A host with a network and a pool. -/
def Memory.withScratch : Memory :=
  { tables := { networks := [("lab", { document := "<network/>", active := true })]
                pools := [("scratch", { document := "<pool/>" })] } }

/-- The pool that is not declared goes, and the network, which is not managed, stays. -/
theorem Settings.permits_withScratch :
    (∃ x ∈ (Memory.withScratch.watch (fun _ => false) (({} : Settings).apply .withoutPools)).2.calls,
      x.2 = .undefine .pool "scratch" ∧ Desired.withoutPools.Permits x.1 x.2) ∧
    (Memory.withScratch.watch (fun _ => false) (({} : Settings).apply .withoutPools)).2.host.tables.networks =
      Memory.withScratch.tables.networks := by
  have hvalid : Desired.withoutPools.Validates :=
    ⟨by simp [Desired.withoutPools, Declared.items], Audit.audit_eq_nil_iff.2 (by
      simp [Desired.withoutPools, Declared.items, Audit.checkBridges_nil, Audit.claims, Audit.checkClaims])⟩
  have hplain : Desired.withoutPools.IsPlain := by decide
  obtain ⟨hcalls, hkept⟩ := permits_calls (s := {}) hvalid hplain none Memory.withScratch fun _ => false
  have hundefined : ∃ x ∈ (Memory.withScratch.watch (fun _ => false)
      (({} : Settings).apply .withoutPools)).2.calls, x.2 = .undefine .pool "scratch" := by
    decide +kernel
  obtain ⟨x, hx, hcall⟩ := hundefined
  -- stated for all tables, so that nothing is run to see it
  have htable : ∀ t : Tables, t.table .network = t.networks := fun _ => rfl
  have hnetworks := hkept .network rfl
  rw [htable, htable] at hnetworks
  exact ⟨⟨x, hx, hcall, hcalls x hx⟩, hnetworks⟩

end VirtualTopology
