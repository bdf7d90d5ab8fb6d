import VirtualTopology.Proofs.Host.Disrupted
import VirtualTopology.Proofs.Pass.Watch

/-!
# What a pass lists

Each kind is listed when the kinds before it are in line. Calls that go elsewhere neither change the resources of a
kind nor wear off what strikes the call that lists them (`Memory.ListsAlike`), so what a pass takes to be there of
each kind is what the host shows of it before the pass (`Stock.Shows`), whatever fails and whenever the pass is
cancelled.

`Desired.safe_networksAndPools_of` and `Desired.safe_domainsInLine_of` put this in front of what is known of the
tasks for the declared resources.
-/

namespace VirtualTopology

open Dialogue

/-! ### Hosts that list alike -/

/-- A list call of another kind, and a call for one resource, has another word than a list call. -/
theorem Call.word_ne_list {c : Call} {k : DefinedKind} (h : c.target.1 ≠ k) : c.word ≠ (list k).word := by
  rcases htarget : c.target with ⟨l, _ | name⟩
  · cases c with
    | list l' =>
      have hne : l' ≠ k := h
      cases l' <;> cases k <;> first | exact absurd rfl hne | decide
    | read | define | undefine | start | stop | isActive | isAutostart | setAutostart | listVolumes | readVolume
    | createVolume | deleteVolume | resizeVolume => exact absurd (congrArg Prod.snd htarget) (by simp [target])
  · have habout : c.IsAbout l name := htarget
    exact habout.word_ne

namespace Memory

instance (m : Memory) (c : Call) : Decidable (m.Strikes c) :=
  inferInstanceAs (Decidable ((Disruption.strike? c.word c.subject m.disruptions).1.isSome = true))

/-- The names of a kind that a host lists when it is asked for the first time: none if the call is struck. -/
def listed (m : Memory) (k : DefinedKind) : List String :=
  if m.Strikes (.list k) then [] else m.tables.sortedNames k

/-- Whether two hosts list the same resources of a kind. -/
structure ListsAlike (m : Memory) (k : DefinedKind) (n : Memory) : Prop where
  table : n.tables.table k = m.tables.table k
  strikes : n.Strikes (.list k) ↔ m.Strikes (.list k)

theorem ListsAlike.refl (m : Memory) (k : DefinedKind) : m.ListsAlike k m := ⟨rfl, .rfl⟩

/-- A query that goes elsewhere makes no difference to what is listed of a kind. -/
theorem ListsAlike.answer {m n : Memory} {k : DefinedKind} (h : m.ListsAlike k n) {q : Query}
    (hq : q.CallsOnly (·.target.1 ≠ k)) : m.ListsAlike k (n.answer q).2 := by
  have hquery : (query q : Talk q.Reply).Confined (Query.CallsOnly (·.target.1 ≠ k)) fun _ => True :=
    Confined.query hq fun _ => trivial
  constructor
  · exact (table_run_of_ne (hquery.mono (fun _ h => h.mono fun _ hc hk => absurd hk hc) fun _ => id) n).trans h.table
  · exact (strikes_run (hquery.mono (fun _ h => h.mono fun _ hc => Call.word_ne_list hc) fun _ => id) n).trans
      h.strikes

end Memory

/-! ### What a host shows of a kind -/

namespace Stock

variable {m n : Memory} {k : DefinedKind} {managed : Bool} {s : Stock}

/-- What is there of a kind, as it is seen from a host. -/
inductive Shows (m : Memory) (k : DefinedKind) : Bool → Stock → Prop where
  | known (lists : ¬ m.Strikes (.list k)) : Shows m k true (.known (m.tables.sortedNames k))
  | unknown (struck : m.Strikes (.list k)) (reason : String) : Shows m k true (.unknown reason)
  | leftAlone : Shows m k false (.leftAlone ((m.listed k).map fun name =>
      { kind := k.resource, name, outcome := .skippedUnmanaged }))

theorem Shows.of_listsAlike (h : Shows n k managed s) (hsame : m.ListsAlike k n) : Shows m k managed s := by
  have hnames : n.tables.sortedNames k = m.tables.sortedNames k := by
    rw [Tables.sortedNames, Tables.sortedNames, hsame.table]
  have hlisted : n.listed k = m.listed k := by
    simp only [Memory.listed, hsame.strikes, hnames]
  cases h with
  | known lists => exact hnames ▸ .known (mt hsame.strikes.2 lists)
  | unknown struck reason => exact .unknown (hsame.strikes.1 struck) reason
  | leftAlone => exact hlisted ▸ .leftAlone

/-- What is left alone of a kind is of the kind. -/
theorem Shows.kind_of_leftAlone (h : Shows m k managed s) {results : List Result} (hs : s = .leftAlone results)
    {y : Result} (hy : y ∈ results) : y.kind = k.resource := by
  cases h with
  | known lists => exact absurd hs (by simp)
  | unknown struck reason => exact absurd hs (by simp)
  | leftAlone =>
    rw [← Stock.leftAlone.inj hs] at hy
    obtain ⟨name, -, rfl⟩ := List.mem_map.1 hy
    rfl

/-- What is stale of a managed kind is there and not declared. -/
theorem Shows.of_mem_stale (h : Shows m k managed s) {declared : List String} {name : String}
    (hname : name ∈ s.stale declared) :
    managed = true ∧ (m.tables.get? k name).isSome = true ∧ name ∉ declared := by
  cases h with
  | known lists =>
    obtain ⟨hthere, hundeclared⟩ := mem_stale_iff.1 hname
    exact ⟨rfl, Tables.mem_sortedNames_iff.1 hthere, hundeclared⟩
  | unknown struck reason => exact absurd hname (by simp [stale])
  | leftAlone => exact absurd hname (by simp [stale])

/-- **What is taken to be there of a kind is what the host shows of it.** -/
theorem safe_take_shows {p : Memory → Call → Prop} {w : Watched} (hp : p w.host (.list k))
    (hw : m.ListsAlike k w.host) :
    Talk.Safe p (fun s w' => w' = w.after (.call (.list k)) ∧ Shows m k managed s) (take k managed) w := by
  refine Talk.Safe.bind (Talk.Safe.call (Q := fun reply w' => w' = w.after (.call (.list k)) ∧
    reply = (w.host.call (.list k)).1) hp ⟨rfl, rfl⟩) ?_
  rintro reply _ ⟨rfl, hreply⟩
  have hstrikes := w.host.call_list_eq_error_iff k
  rw [← hreply] at hstrikes
  have hlists : ∀ names, reply = .ok names → ¬ w.host.Strikes (.list k) ∧ names = w.host.tables.sortedNames k := by
    rintro names rfl
    have hserve := Memory.serve_eq_of_call_eq_ok hreply.symm
    exact ⟨mt hstrikes.2 (by simp), (Prod.mk.inj (Except.ok.inj hserve)).1.symm⟩
  split
  · next names =>
    obtain ⟨hfree, rfl⟩ := hlists names rfl
    exact .pure ⟨rfl, (Shows.known hfree).of_listsAlike hw⟩
  · next e => exact .pure ⟨rfl, (Shows.unknown (hstrikes.1 ⟨e, rfl⟩) e.message).of_listsAlike hw⟩
  · next names =>
    obtain ⟨hfree, rfl⟩ := hlists names rfl
    have hlisted : w.host.listed k = w.host.tables.sortedNames k := if_neg hfree
    exact .pure ⟨rfl, (hlisted ▸ Shows.leftAlone (m := w.host)).of_listsAlike hw⟩
  · next e =>
    have hlisted : w.host.listed k = [] := if_pos (hstrikes.1 ⟨e, rfl⟩)
    refine .pure ⟨rfl, Shows.of_listsAlike (n := w.host) ?_ hw⟩
    have hshows : Shows w.host k false _ := .leftAlone
    rwa [hlisted] at hshows

end Stock

/-! ### The phases that bring resources in line -/

/-- The calls of a confined dialogue, behind those before it. -/
theorem Talk.Safe.calls {α : Type} {t : Talk α} {P : Call → Prop} {e : α → Prop} (h : t.Confined (Query.CallsOnly P) e)
    (w : Watched) :
    Safe (fun _ _ => True) (fun a w' => e a ∧ ∃ more, w'.calls = w.calls ++ more ∧ ∀ y ∈ more, P y.2) t w := by
  refine .of_confined (I := fun w' => ∃ more, w'.calls = w.calls ++ more ∧ ∀ y ∈ more, P y.2) h ?_
    (fun w q _ _ => by cases q <;> trivial) ⟨[], by simp, by simp⟩
  rintro w' q hq ⟨more, hcalls, hmore⟩
  cases q with
  | call c =>
    refine ⟨more ++ [(w'.host, c)], by rw [Watched.calls_after_call, hcalls, List.append_assoc], fun y hy => ?_⟩
    rcases List.mem_append.1 hy with hy | hy
    · exact hmore y hy
    · rw [List.mem_singleton.1 hy]
      exact hq
  | cancelled => exact ⟨more, hcalls, hmore⟩
  | now => exact ⟨more, hcalls, hmore⟩
  | sleep _ => exact ⟨more, hcalls, hmore⟩

namespace Desired

variable {d : Desired} {dry : Bool} {m : Memory}

/-- **Bringing networks and pools in line**: both kinds are as the host shows them, no call goes to domains, and what
is known of the tasks holds of the results. -/
theorem safe_networksAndPools_of {e : Stock → Stock → Recorded → Prop}
    (h : ∀ networks pools : Stock, networks.Shows m .network (d.manages .network) →
      pools.Shows m .pool (d.manages .pool) →
      (gather (networks.tasks .network d.networks.items (·.name) (fun _ => []) (fun n => n.task dry) ++
        pools.tasks .pool d.pools.items (·.name) Pool.volumesLost (fun p => p.task dry))).Confined
          (Query.CallsOnly (·.target.1 ≠ .domain)) (e networks pools)) :
    Talk.Safe (fun _ _ => True) (fun x w => (m.ListsAlike .domain w.host ∧ ∀ y ∈ w.calls, y.2.target.1 ≠ .domain) ∧
        ∃ networks pools : Stock, networks.Shows m .network (d.manages .network) ∧
          pools.Shows m .pool (d.manages .pool) ∧ x.2.1 = networks.stale (d.names .network) ∧
          x.2.2 = pools.stale (d.names .pool) ∧ e networks pools x.1)
      (d.networksAndPools dry) { host := m } := by
  refine (Stock.safe_take_shows trivial (.refl m .network)).bind ?_
  rintro networks _ ⟨rfl, hnetworks⟩
  -- listing one kind does not change what is shown of another
  have hfirst : ∀ k ≠ .network, m.ListsAlike k ((Watched.mk m [] 0).after (.call (.list .network))).host :=
    fun k hk => (Memory.ListsAlike.refl m k).answer (q := .call (.list .network)) hk.symm
  refine (Stock.safe_take_shows trivial (hfirst .pool (by simp))).bind ?_
  rintro pools _ ⟨rfl, hpools⟩
  have hdomains : m.ListsAlike .domain (((Watched.mk m [] 0).after (.call (.list .network))).after
      (.call (.list .pool))).host :=
    (hfirst .domain (by simp)).answer (q := .call (.list .pool)) (by simp [Query.CallsOnly, Call.target])
  have htasks := h networks pools hnetworks hpools
  refine ((Talk.Safe.of_confined (p := fun _ _ => True) (I := fun w => m.ListsAlike .domain w.host) htasks
    (fun w q hq hw => hw.answer hq) (fun w q _ _ => by cases q <;> trivial) hdomains).and
    (Talk.Safe.calls htasks _)).mono (fun _ _ _ => trivial) (fun _ _ => id) |>.bind ?_
  rintro results w ⟨⟨hresults, hw⟩, -, more, hcalls, hmore⟩
  refine .pure ⟨⟨hw, fun y hy => ?_⟩, networks, pools, hnetworks, hpools, rfl, rfl, hresults⟩
  rw [hcalls, Watched.calls_after_call, Watched.calls_after_call] at hy
  simp only [List.nil_append, List.mem_append, List.mem_singleton] at hy
  rcases hy with (rfl | rfl) | hy
  · simp [Call.target]
  · simp [Call.target]
  · exact hmore y hy

/-- **Bringing domains in line**: they are as the host showed them before the pass, and what is known of the tasks
holds of their calls and of the results. -/
theorem safe_domainsInLine_of {timeout : Binary64} {before : List Result} {P : Call → Prop}
    {e : Stock → Recorded → Prop} {w : Watched} (hw : m.ListsAlike .domain w.host)
    (h : ∀ domains : Stock, domains.Shows m .domain (d.manages .domain) →
      (gather (domains.tasks .domain d.domains.items (·.name) (fun _ => [])
        (fun x => x.task dry timeout before))).Confined (Query.CallsOnly P) (e domains)) :
    Talk.Safe (fun _ _ => True) (fun x w' => (∃ more, w'.calls = w.calls ++ more ∧
        ∀ y ∈ more, y.2 = .list .domain ∨ P y.2) ∧ ∃ domains : Stock, domains.Shows m .domain (d.manages .domain) ∧
          x.2 = domains.stale (d.names .domain) ∧ e domains x.1)
      (d.domainsInLine dry timeout before) w := by
  refine (Stock.safe_take_shows trivial hw).bind ?_
  rintro domains _ ⟨rfl, hdomains⟩
  refine (Talk.Safe.calls (h domains hdomains) _).bind ?_
  rintro results w' ⟨hresults, more, hcalls, hmore⟩
  refine .pure ⟨⟨(w.host, .list .domain) :: more, ?_, ?_⟩, domains, hdomains, rfl, hresults⟩
  · rw [hcalls, Watched.calls_after_call, List.append_assoc]
    rfl
  · rw [List.forall_mem_cons]
    exact ⟨.inl rfl, fun y hy => .inr (hmore y hy)⟩

end Desired

end VirtualTopology
