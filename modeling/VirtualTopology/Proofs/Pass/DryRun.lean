import VirtualTopology.Proofs.Pass.Alike
import VirtualTopology.Proofs.Pass.Course

/-!
# Dry runs

On a calm host a dry run and a real one tell the same about everything that is declared
(`Desired.Course.alike_declared`), provided that each declared pool that is there and lists volumes runs. Both
give results or neither does, and then for the same reason (`Desired.phases_cases`). What they tell about
stale resources is another matter.
-/

namespace VirtualTopology

open Dialogue

/-! ### Work that can be written -/

/-- Work that never has to write what cannot be written. -/
structure Work.IsWritable {α : Type} (w : Work α) : Prop where
  confined : w.run.Confined (fun _ => True) fun a => ∀ why, a ≠ .error (.unwritable why)

namespace Work.IsWritable

variable {α β : Type} {w : Work α} {f : α → Work β}

theorem pure (a : α) : IsWritable (Pure.pure a : Work α) := ⟨fun _ h => nomatch h⟩

theorem bind (hw : w.IsWritable) (hf : ∀ a, (f a).IsWritable) : (w >>= f).IsWritable := by
  refine ⟨?_⟩
  rw [ExceptT.run_bind]
  refine Confined.bind hw.confined fun a ha => ?_
  cases a with
  | ok a => exact (hf a).confined
  | error e =>
    refine Confined.pure fun why hwhy => ha why ?_
    rw [Except.error.inj hwhy]

theorem attempt (op : Operation) (c : Call) : (Work.attempt op c).IsWritable := by
  refine ⟨trivial, fun reply => ?_⟩
  cases reply with
  | ok a => exact (pure a).confined
  | error e => exact fun why h => nomatch h

theorem change (dry : Bool) (op : Operation) (c : Call) : (Work.change dry op c).IsWritable := by
  cases dry with
  | true => exact pure ()
  | false => exact (attempt op c).bind fun _ => pure ()

theorem askNow : IsWritable (liftM (query Query.now : Talk Binary64) : Work _) :=
  ⟨trivial, fun now => (pure now).confined⟩

theorem askSleep (seconds : Binary64) :
    IsWritable (liftM (query (Query.sleep seconds) : Talk Unit) : Work _) :=
  ⟨trivial, fun u => (pure u).confined⟩

/-- A step that is left out if there is no need for it. -/
theorem bindIf {w : Work Unit} {f : Unit → Work β} {b : Prop} [Decidable b] (hw : w.IsWritable)
    (hf : (f ()).IsWritable) : IsWritable (if b then w >>= f else f ()) := by
  split
  · exact hw.bind fun _ => hf
  · exact hf

/-- Writable work that is recorded gives results. -/
theorem exists_recorded {w : Work Result} (hw : w.IsWritable) {m : Memory} (hm : m.Uncancelled)
    (kind : ResourceKind) (name : String) :
    ∃ rs, (m.run (do let ending ← supervise kind name w; return ending.recorded)).1 = .ok rs := by
  have hvalue := hw.confined.run_value Memory.answer m
  simp only [Memory.run_bind, hm.run_supervise, Memory.run_pure]
  change ∀ why, (m.run w.run).1 ≠ .error (.unwritable why) at hvalue
  match ha : (m.run w.run).1 with
  | .ok x => exact ⟨[x], rfl⟩
  | .error (.failed op reason fk) => exact ⟨_, rfl⟩
  | .error (.unwritable why) => exact absurd ha (hvalue why)

end Work.IsWritable

/-- Tasks that give results each give results together. -/
theorem Memory.Uncancelled.exists_run_gather {m : Memory} (hm : m.Uncancelled) {ts : List (Talk Recorded)}
    (h : ∀ t ∈ ts, ∀ n : Memory, n.Uncancelled → ∃ rs, (n.run t).1 = .ok rs) :
    ∃ rs, (m.run (gather ts)).1 = .ok rs := by
  induction ts generalizing m with
  | nil => exact ⟨[], rfl⟩
  | cons t ts ih =>
    obtain ⟨xs, hxs⟩ := h t (by simp) m hm
    obtain ⟨ys, hys⟩ := ih (hm.run t) fun s hs => h s (by simp [hs])
    exact ⟨xs ++ ys, by rw [run_gather_cons, hxs, hys]; rfl⟩

namespace Domain

theorem isWritable_awaitOff (name : String) (deadline : Binary64) (looks : Nat) :
    (awaitOff name deadline looks).IsWritable := by
  induction looks with
  | zero => exact .pure false
  | succ looks ih =>
    refine .bind (.attempt _ _) fun on => ?_
    split
    · refine Work.IsWritable.askNow.bind fun now => ?_
      dsimp only
      split
      · exact .pure false
      · exact (Work.IsWritable.askSleep _).bind fun _ => ih
    · exact .pure true

theorem isWritable_power (d : Domain) (dry : Bool) (timeout : Binary64) (outcome : Outcome)
    (running : Bool) : (d.power dry timeout outcome running).IsWritable := by
  rcases power_cases d timeout outcome running with ⟨hpower, -⟩ | ⟨hpower, -⟩ | ⟨hpower, -⟩ |
    ⟨said, hpower, -⟩
  · rw [hpower]
    exact .bind (.change _ _ _) fun _ => .pure _
  · rw [hpower]
    exact .bind (.change _ _ _) fun _ => .pure _
  · rw [hpower]
    refine .bind ?_ fun _ => .pure _
    cases dry with
    | true => exact .pure _
    | false =>
      refine .bind (.change _ _ _) fun _ => .bind (Work.IsWritable.askNow.bind fun now => ?_) fun off => ?_
      · exact isWritable_awaitOff _ _ _
      · exact .bindIf (.change _ _ _) (.bind (.change _ _ _) fun _ => .pure _)
  · rw [hpower]
    exact .pure _

/-- The work on a domain writes nothing but the document of the domain. -/
theorem isWritable_sync {d : Domain} {text : String} (htext : d.written = .ok text) (dry : Bool)
    (timeout : Binary64) (exists_ : Bool) : (d.sync dry timeout exists_).IsWritable := by
  have hstore : (d.store dry exists_).IsWritable := by
    unfold store
    rw [htext]
    refine .bind (.pure text) fun text => ?_
    cases exists_ with
    | true =>
      refine .bind (.attempt _ _) fun stored => ?_
      split
      · exact .pure _
      · exact .bind (.change _ _ _) fun _ => .pure _
    | false => exact .bind (.change _ _ _) fun _ => .pure _
  rw [sync_eq]
  refine hstore.bind fun x => ?_
  unfold finish
  dsimp only
  split
  · exact .bind (.attempt _ _) fun running => .bind (isWritable_power ..) fun said => .pure _
  · exact .bind (.pure false) fun running => .bind (isWritable_power ..) fun said => .pure _

end Domain

/-- To remove domains gives results. -/
theorem Domain.exists_run_removals {m : Memory} (hm : m.Uncancelled) (dry : Bool) (names : List String) :
    ∃ rs, (m.run (gather (names.map (removal dry)))).1 = .ok rs := by
  refine hm.exists_run_gather fun t ht n hn => ?_
  obtain ⟨name, -, rfl⟩ := List.mem_map.1 ht
  have hwritable : (remove dry name).IsWritable :=
    (Work.IsWritable.attempt _ _).bind fun _ => (Work.IsWritable.change _ _ _).bind fun _ => .pure _
  rw [removal_eq]
  exact hwritable.exists_recorded hn _ _

/-- To remove networks and pools gives results. -/
theorem Removal.exists_run {m : Memory} (hm : m.Uncancelled) (dry : Bool) (results : List Result)
    (stale : List (DefinedKind × String)) : ∃ rs, (m.run (run dry results stale)).1 = .ok rs := by
  have hask : m.run (Dialogue.query Query.cancelled : Talk Bool) = (false, m) :=
    congrArg (·, m) hm.cancelled
  unfold run
  by_cases hempty : stale.isEmpty = true
  · exact ⟨[], by rw [if_pos hempty]; rfl⟩
  · simp only [if_neg hempty, Memory.run_bind, hask, Bool.false_eq_true, if_false]
    cases (m.run (references results)).1 with
    | error reason => exact ⟨_, rfl⟩
    | ok refs =>
      refine (hm.run (references results)).exists_run_gather fun t ht n hn => ?_
      obtain ⟨s, -, rfl⟩ := List.mem_map.1 ht
      rw [task_eq]
      split
      · exact ((Work.IsWritable.change _ _ _).bind fun _ => .pure _).exists_recorded hn _ _
      · exact ⟨_, rfl⟩

/-! ### The phases side by side -/

/-- What is there of a kind on a calm host. -/
theorem Stock.take_of_calm {m : Memory} (hm : m.Calm) (kind : DefinedKind) (managed : Bool) :
    (m.run (take kind managed)).1 =
      if managed then .known (m.tables.sortedNames kind)
      else .leftAlone ((m.tables.sortedNames kind).map fun name =>
        { kind := kind.resource, name, outcome := .skippedUnmanaged }) := by
  have hask : m.run ((Call.list kind).ask : Talk (Except HostError (List String)))
      = (.ok (m.tables.sortedNames kind), m.served (.list kind) m.tables) := hm.call_eq_of_serve rfl
  cases managed with
  | true => simp only [take, Memory.run_bind, hask, Memory.run_pure, if_true]
  | false => simp only [take, Memory.run_bind, hask, Memory.run_pure, Bool.false_eq_true, if_false]

/-- The tasks for declared resources ask what each of them asks. -/
theorem Stock.confined_calls {α : Type} {kind : DefinedKind} {declared : List α} {name : α → String}
    {lost : α → List Result} {task : α → Bool → Talk Recorded} {p : Query → Prop} (s : Stock)
    (htask : ∀ a ∈ declared, ∀ b, (task a b).Confined p (Recorded.All fun _ => True)) :
    (gather (s.tasks kind declared name lost task)).Confined p (Recorded.All fun _ => True) := by
  refine Confined.gather fun t ht => ?_
  cases s with
  | leftAlone results =>
    obtain rfl := List.mem_singleton.1 ht
    exact Confined.pure fun _ _ _ _ => trivial
  | unknown reason =>
    obtain rfl := List.mem_singleton.1 ht
    exact Confined.pure fun _ _ _ _ => trivial
  | known names =>
    obtain ⟨a, ha, rfl⟩ := List.mem_map.1 ht
    exact htask a ha _

namespace Desired

variable {d : Desired} {m : Memory}

/-- Whether each declared pool that is there and lists volumes runs. -/
def PoolsRun (d : Desired) (t : Tables) : Prop :=
  ∀ p ∈ d.pools.items, p.volumes ≠ [] → ∀ r, t.get? .pool p.name = some r → r.seen.active = true

section

variable (hplain : d.IsPlain)

include hplain

theorem confined_networkTask (dry : Bool) {n : Network} (hn : n ∈ d.networks.items) (b : Bool) :
    (n.task dry b).Confined (Query.CallsOnly (Call.IsAbout .network n.name))
      (Recorded.All fun _ => True) :=
  (Network.confined_task (hplain.network hn) dry b).mono (fun _ hq => hq.mono fun _ hc => hc.about)
    fun _ hr => hr.mono fun _ _ => trivial

theorem confined_domainTask (dry : Bool) (timeout : Binary64) (before : List Result) {x : Domain}
    (hx : x ∈ d.domains.items) (b : Bool) :
    (x.task dry timeout before b).Confined (Query.CallsOnly (Call.IsAbout .domain x.name))
      (Recorded.All fun _ => True) :=
  (Domain.confined_task (hplain.domain hx) dry timeout before b).mono
    (fun _ hq => hq.mono fun _ hc => hc.about) fun _ hr => hr.mono fun _ _ => trivial

variable (hvalid : d.Validates)

include hvalid

theorem confined_poolTask (dry : Bool) {p : Pool} (hp : p ∈ d.pools.items) (b : Bool) :
    (p.task dry b).Confined (Query.CallsOnly (Call.IsAbout .pool p.name)) (Recorded.All fun _ => True) :=
  (Pool.confined_task (hvalid.pool_isSound hplain hp) dry b).mono
    (fun _ hq => hq.mono fun _ hc => hc.about) fun _ hr => hr.mono fun _ _ => trivial

end

/-- A dialogue about resources of one kind leaves the tables of the others as they are. -/
theorem table_run_of_about {α : Type} {t : Talk Recorded} {k l : DefinedKind} {name : α → String}
    {declared : List α} {e : Recorded → Prop}
    (h : t.Confined (Query.CallsOnly fun c => ∃ a ∈ declared, c.IsAbout k (name a)) e) (hne : k ≠ l)
    (n : Memory) : (n.run t).2.tables.table l = n.tables.table l := by
  refine Memory.table_run_of_ne (h.mono (fun q hq => hq.mono ?_) fun _ => id) n
  rintro c ⟨a, -, hc⟩ hl
  rw [hc] at hl
  exact absurd hl hne

theorem table_run_networks (hplain : d.IsPlain) (dry : Bool) (s : Stock) {l : DefinedKind}
    (hne : .network ≠ l) (n : Memory) :
    (n.run (gather (s.tasks .network d.networks.items (·.name) (fun _ => [])
      fun n => n.task dry))).2.tables.table l = n.tables.table l :=
  table_run_of_about (s.confined_calls fun n hn b => (confined_networkTask hplain dry hn b).mono
    (fun _ hq => hq.mono fun _ hc => ⟨n, hn, hc⟩) fun _ => id) hne n

theorem table_run_pools (hplain : d.IsPlain) (hvalid : d.Validates) (dry : Bool) (s : Stock)
    {l : DefinedKind} (hne : .pool ≠ l) (n : Memory) :
    (n.run (gather (s.tasks .pool d.pools.items (·.name) Pool.volumesLost
      fun p => p.task dry))).2.tables.table l = n.tables.table l :=
  table_run_of_about (s.confined_calls fun p hp b => (confined_poolTask hplain hvalid dry hp b).mono
    (fun _ hq => hq.mono fun _ hc => ⟨p, hp, hc⟩) fun _ => id) hne n

section

variable (hplain : d.IsPlain) (hvalid : d.Validates)

include hplain hvalid

/-- **Networks and pools are told the same** in a dry run and in a real one. -/
theorem alike_networksAndPools (hm : m.Calm) (hrun : d.PoolsRun m.tables) :
    (m.run (d.networksAndPools true)).1.1.Alike (m.run (d.networksAndPools false)).1.1 := by
  rcases hnetworks : m.run (Stock.take .network d.networks.isManaged) with ⟨networks, counted⟩
  rcases hpools : counted.run (Stock.take .pool d.pools.isManaged) with ⟨pools, listed⟩
  have hcounted : counted.tables = m.tables := Stock.tables_take hnetworks
  have hlisted : listed.tables = m.tables := (Stock.tables_take hpools).trans hcounted
  have hcalm : listed.Calm :=
    (Memory.follows_of_run hpools).calm ((Memory.follows_of_run hnetworks).calm hm)
  simp only [networksAndPools, Memory.run_bind, Memory.run_pure, hnetworks, hpools,
    Memory.run_gather_append]
  refine .append ?_ ?_
  · refine Stock.alike_tasks hnetworks hvalid.networks (fun _ => confined_networkTask hplain true)
      (fun _ => confined_networkTask hplain false) hcalm hcalm (fun _ _ => by rw [hlisted])
      (fun _ _ => by rw [hlisted]) fun n hn h h' hh hh' hold hold' => ?_
    rw [← hold, Network.run_task_of_calm (hplain.network hn) hh, hold, ← hold',
      Network.run_task_of_calm (hplain.network hn) hh']
    exact .refl _
  · -- the networks leave the pools as they were listed, in both runs
    have hpool : ∀ dry (p : Pool), (listed.run (gather (networks.tasks .network d.networks.items (·.name)
        (fun _ => []) fun n => n.task dry))).2.tables.get? .pool p.name
          = counted.tables.get? .pool p.name := fun dry p => by
      rw [Tables.get?, table_run_networks hplain dry networks (by simp), hlisted, hcounted]
      rfl
    refine Stock.alike_tasks hpools hvalid.pools (fun _ => confined_poolTask hplain hvalid true)
      (fun _ => confined_poolTask hplain hvalid false) (hcalm.run _) (hcalm.run _)
      (fun p _ => hpool true p) (fun p _ => hpool false p) fun p hp h h' hh hh' hold hold' => ?_
    obtain ⟨recorded, hrecorded⟩ := Pool.exists_run_task_of_calm (hvalid.pool_isSound hplain hp)
      (counted.tables.get? .pool p.name)
    rw [hrecorded true h hh hold fun _ hvolumes r hr => hrun p hp hvolumes r (hcounted ▸ hr),
      hrecorded false h' hh' hold' fun hdry => absurd hdry (by simp)]
    exact .refl _

/-- Networks and pools are brought in line without a look at domains. -/
theorem table_domain_networksAndPools (dry : Bool) :
    (m.run (d.networksAndPools dry)).2.tables.table .domain = m.tables.table .domain := by
  rcases hnetworks : m.run (Stock.take .network d.networks.isManaged) with ⟨networks, counted⟩
  rcases hpools : counted.run (Stock.take .pool d.pools.isManaged) with ⟨pools, listed⟩
  simp only [networksAndPools, Memory.run_bind, Memory.run_pure, hnetworks, hpools,
    Memory.run_gather_append]
  rw [table_run_pools hplain hvalid dry pools (by simp), table_run_networks hplain dry networks (by simp),
    Stock.tables_take hpools, Stock.tables_take hnetworks]

/-- **Domains are told the same** in a dry run and in a real one, if the same is told before. -/
theorem alike_domainsInLine (hm : m.Calm) (timeout : Binary64) {n : Memory} (hn : n.Calm)
    (hsame : n.tables.table .domain = m.tables.table .domain) {before before' : List Result}
    (hbefore : List.Forall₂ Result.Alike before before') :
    (m.run (d.domainsInLine true timeout before)).1.1.Alike
      (n.run (d.domainsInLine false timeout before')).1.1 := by
  have htake : (n.run (Stock.take .domain d.domains.isManaged)).1
      = (m.run (Stock.take .domain d.domains.isManaged)).1 := by
    rw [Stock.take_of_calm hm, Stock.take_of_calm hn, Tables.sortedNames, Tables.sortedNames, hsame]
  rcases hdomains : m.run (Stock.take .domain d.domains.isManaged) with ⟨domains, surveyed⟩
  rcases hdomains' : n.run (Stock.take .domain d.domains.isManaged) with ⟨domains', surveyed'⟩
  rw [hdomains, hdomains'] at htake
  obtain rfl : domains' = domains := htake
  simp only [domainsInLine, Memory.run_bind, Memory.run_pure, hdomains, hdomains']
  have hold : ∀ x : Domain, surveyed'.tables.get? .domain x.name = m.tables.get? .domain x.name :=
    fun x => by rw [Stock.tables_take hdomains', Tables.get?, hsame]; rfl
  refine Stock.alike_tasks hdomains hvalid.domains (fun _ => confined_domainTask hplain true timeout before)
    (fun _ => confined_domainTask hplain false timeout before') ((Memory.follows_of_run hdomains).calm hm)
    ((Memory.follows_of_run hdomains').calm hn) (fun _ _ => by rw [Stock.tables_take hdomains])
    (fun x _ => hold x) fun x hx h h' hh hh' hbefore₁ hbefore₂ => ?_
  have halike := Domain.alike_task (hplain.domain hx) hh hh' (hbefore₂.trans hbefore₁.symm) hbefore true
    false timeout timeout
  rw [hbefore₁] at halike
  exact halike

/-- **Dry or not, a pass over a calm host gives results, or it gives none for the same reason.** -/
theorem phases_cases (hm : m.Calm) (hrun : d.PoolsRun m.tables) (timeout : Binary64) :
    (∃ why, (m.run (d.phases true timeout)).1 = .error why ∧
        (m.run (d.phases false timeout)).1 = .error why) ∨
      ∃ rs rs', (m.run (d.phases true timeout)).1 = .ok rs ∧
        (m.run (d.phases false timeout)).1 = .ok rs' := by
  have hfirst := alike_networksAndPools hplain hvalid hm hrun
  have htable := fun dry => table_domain_networksAndPools (m := m) hplain hvalid dry
  rcases hdry : m.run (d.networksAndPools true) with ⟨⟨first, networks, pools⟩, filled⟩
  rcases hreal : m.run (d.networksAndPools false) with ⟨⟨first', networks', pools'⟩, filled'⟩
  have hfilled : filled.Calm := (Memory.follows_of_run hdry).calm hm
  have hfilled' : filled'.Calm := (Memory.follows_of_run hreal).calm hm
  have hsame : filled'.tables.table .domain = filled.tables.table .domain := by
    have hleft := htable true
    have hright := htable false
    rw [hdry] at hleft
    rw [hreal] at hright
    exact hright.trans hleft.symm
  simp only [phases, Memory.run_bind, hdry, hreal]
  rw [hdry, hreal] at hfirst
  rcases hfirst.eq_or_eq with ⟨why, hwhy, hwhy'⟩ | ⟨before, before', hbefore, hbefore', halike⟩
  · exact .inl ⟨why, by rw [show first = _ from hwhy]; rfl, by rw [show first' = _ from hwhy']; rfl⟩
  · obtain rfl : first = .ok before := hbefore
    obtain rfl : first' = .ok before' := hbefore'
    have hsecond := alike_domainsInLine hplain hvalid hfilled timeout hfilled' hsame halike
    simp only [Memory.run_bind]
    rcases hdry' : filled.run (d.domainsInLine true timeout before) with ⟨⟨second, domains⟩, powered⟩
    rcases hreal' : filled'.run (d.domainsInLine false timeout before') with
      ⟨⟨second', domains'⟩, powered'⟩
    have hpowered := ((Memory.follows_of_run hdry').calm hfilled).uncancelled
    have hpowered' := ((Memory.follows_of_run hreal').calm hfilled').uncancelled
    rw [hdry', hreal'] at hsecond
    rcases hsecond.eq_or_eq with ⟨why, hwhy, hwhy'⟩ | ⟨told, told', htold, htold', -⟩
    · exact .inl ⟨why, by rw [show second = _ from hwhy]; rfl, by rw [show second' = _ from hwhy']; rfl⟩
    · obtain rfl : second = .ok told := htold
      obtain rfl : second' = .ok told' := htold'
      -- what is removed gives results, whatever they are
      obtain ⟨third, hthird⟩ := Domain.exists_run_removals hpowered true domains
      obtain ⟨last, hlast⟩ := Removal.exists_run
        (hpowered.run (gather (domains.map (Domain.removal true)))) true (before ++ told ++ third)
        (networks.map (DefinedKind.network, ·) ++ pools.map (DefinedKind.pool, ·))
      obtain ⟨third', hthird'⟩ := Domain.exists_run_removals hpowered' false domains'
      obtain ⟨last', hlast'⟩ := Removal.exists_run
        (hpowered'.run (gather (domains'.map (Domain.removal false)))) false (before' ++ told' ++ third')
        (networks'.map (DefinedKind.network, ·) ++ pools'.map (DefinedKind.pool, ·))
      simp only [Memory.run_bind, Memory.run_pure, hthird, hlast, hthird', hlast']
      exact .inr ⟨_, _, rfl, rfl⟩

end

/-- **A pass gives results if networks and pools do and if all domains that are not blamed can be written.** -/
theorem exists_run_phases_of_free (hm : m.Uncancelled) {dry : Bool} (timeout : Binary64) {before : List Result}
    (hbefore : (m.run (d.networksAndPools dry)).1.1 = .ok before)
    (hwritten : ∀ x ∈ d.domains.items, x.failedDependencies before = [] → ∃ text, x.written = .ok text) :
    ∃ rs, (m.run (d.phases dry timeout)).1 = .ok rs := by
  rcases hrun : m.run (d.networksAndPools dry) with ⟨⟨first, networks, pools⟩, filled⟩
  rw [hrun] at hbefore
  obtain rfl : first = .ok before := hbefore
  have hfilled := (Memory.follows_of_run hrun).uncancelled hm
  simp only [phases, Memory.run_bind, hrun]
  rcases hrun' : filled.run (d.domainsInLine dry timeout before) with ⟨⟨second, domains⟩, powered⟩
  have hpowered := (Memory.follows_of_run hrun').uncancelled hfilled
  -- a domain that is blamed needs no text
  have hsecond : ∃ told, second = .ok told := by
    rcases htake : filled.run (Stock.take .domain d.domains.isManaged) with ⟨stock, surveyed⟩
    have hvalue := congrArg (·.1.1) hrun'
    simp only [domainsInLine, Memory.run_bind, Memory.run_pure, htake] at hvalue
    rw [← hvalue]
    refine ((Memory.follows_of_run htake).uncancelled hfilled).exists_run_gather fun t ht n hn => ?_
    cases stock with
    | leftAlone results =>
      obtain rfl := List.mem_singleton.1 ht
      exact ⟨_, rfl⟩
    | unknown reason =>
      obtain rfl := List.mem_singleton.1 ht
      exact ⟨_, rfl⟩
    | known names =>
      obtain ⟨x, hx, rfl⟩ := List.mem_map.1 ht
      unfold Domain.task
      dsimp only
      split
      · next hfree =>
        obtain ⟨text, htext⟩ := hwritten x hx (List.isEmpty_iff.1 hfree)
        exact (Domain.isWritable_sync htext dry timeout _).exists_recorded hn _ _
      · exact ⟨_, rfl⟩
  obtain ⟨told, rfl⟩ := hsecond
  obtain ⟨third, hthird⟩ := Domain.exists_run_removals hpowered dry domains
  obtain ⟨last, hlast⟩ := Removal.exists_run
    (hpowered.run (gather (domains.map (Domain.removal dry)))) dry (before ++ told ++ third)
    (networks.map (DefinedKind.network, ·) ++ pools.map (DefinedKind.pool, ·))
  simp only [Memory.run_bind, Memory.run_pure, hthird, hlast]
  exact ⟨_, rfl⟩

/-- A pass gives results if networks and pools do and if all domains can be written. -/
theorem exists_run_phases (hm : m.Uncancelled) (dry : Bool) (timeout : Binary64)
    (hwritten : ∀ x ∈ d.domains.items, ∃ text, x.written = .ok text)
    (hfirst : ∃ rs, (m.run (d.networksAndPools dry)).1.1 = .ok rs) :
    ∃ rs, (m.run (d.phases dry timeout)).1 = .ok rs := by
  obtain ⟨before, hbefore⟩ := hfirst
  exact exists_run_phases_of_free hm timeout hbefore fun x hx _ => hwritten x hx

namespace Course

variable {dry : Bool} {timeout : Binary64}

theorem run_networksAndPools (c : Course d dry timeout m) :
    m.run (d.networksAndPools dry) =
      ((.ok (c.ofNetworks ++ c.ofPools), c.networks.stale (d.names .network),
        c.pools.stale (d.names .pool)), c.filled) := by
  simp only [networksAndPools, Memory.run_bind, Memory.run_pure, Memory.run_gather_append, c.takesNetworks,
    c.takesPools, c.runsNetworks, c.runsPools]
  rfl

theorem run_domainsInLine (c : Course d dry timeout m) :
    c.filled.run (d.domainsInLine dry timeout (c.ofNetworks ++ c.ofPools)) =
      ((.ok c.ofDomains, c.domains.stale (d.names .domain)), c.powered) := by
  simp only [domainsInLine, Memory.run_bind, Memory.run_pure, c.takesDomains, c.runsDomains]
  rfl

/-- The results about declared resources. -/
def declared (c : Course d dry timeout m) : List Result := c.ofNetworks ++ c.ofPools ++ c.ofDomains

/-- **A dry run and a real one tell the same about everything that is declared.** -/
theorem alike_declared (hplain : d.IsPlain) (hvalid : d.Validates) (hm : m.Calm)
    (hrun : d.PoolsRun m.tables) (c : Course d true timeout m) (c' : Course d false timeout m) :
    List.Forall₂ Result.Alike c.declared c'.declared := by
  have hfirst := alike_networksAndPools hplain hvalid hm hrun
  rw [c.run_networksAndPools, c'.run_networksAndPools] at hfirst
  have hbefore := hfirst.results
  have hfilled : c.filled.Calm := by
    have hcalm := hm.run (d.networksAndPools true)
    rwa [c.run_networksAndPools] at hcalm
  have hfilled' : c'.filled.Calm := by
    have hcalm := hm.run (d.networksAndPools false)
    rwa [c'.run_networksAndPools] at hcalm
  have hsame : c'.filled.tables.table .domain = c.filled.tables.table .domain := by
    have hleft := table_domain_networksAndPools (m := m) hplain hvalid true
    have hright := table_domain_networksAndPools (m := m) hplain hvalid false
    rw [c.run_networksAndPools] at hleft
    rw [c'.run_networksAndPools] at hright
    exact hright.trans hleft.symm
  have hsecond := alike_domainsInLine hplain hvalid hfilled timeout hfilled' hsame hbefore
  rw [c.run_domainsInLine, c'.run_domainsInLine] at hsecond
  exact List.rel_append hbefore hsecond.results

end Course

end Desired

end VirtualTopology
