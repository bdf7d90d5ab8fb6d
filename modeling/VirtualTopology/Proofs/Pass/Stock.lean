import VirtualTopology.Pass.Apply
import VirtualTopology.Proofs.Pass.Removal

/-!
# The resources of a kind

Before the resources of a kind are seen to, those that are there are listed. A list call changes nothing,
and if it goes well it gives the names that are there (`Stock.take_managed`); then each declared resource
gets a task of its own (`Stock.tasks_known`), and otherwise all of them fail (`Stock.run_tasks_unknown`).
Stale resources are those that are there and not declared (`Stock.mem_stale_iff`).
-/

namespace VirtualTopology

open Dialogue

/-- What is left of a list without repetitions has none. -/
theorem nodup_eraseDups {α : Type} [BEq α] [LawfulBEq α] (xs : List α) : xs.eraseDups.Nodup := by
  induction h : xs.length using Nat.strongRecOn generalizing xs with
  | ind n ih =>
    cases xs with
    | nil => simp
    | cons x xs =>
      have hless : (xs.filter fun y => !y == x).length < n := by
        rw [← h]
        exact Nat.lt_succ_of_le (List.length_filter_le _ xs)
      rw [List.eraseDups_cons, List.nodup_cons, List.mem_eraseDups]
      exact ⟨by simp, ih _ hless _ rfl⟩

namespace Stock

variable {kind : DefinedKind} {managed : Bool} {m m' : Memory} {s : Stock}

/-- A list call leaves the tables as they are. -/
theorem tables_take (h : m.run (take kind managed) = (s, m')) : m'.tables = m.tables := by
  have hconfined : (take kind managed).Confined (Query.CallsOnly Removal.Looks) fun _ => True := by
    refine Confined.bind (Confined.query (q := Query.call (.list kind)) (e := fun _ => True) ⟨rfl, rfl⟩
      fun _ => trivial) fun reply _ => ?_
    split <;> exact Confined.pure trivial
  have htables := Removal.tables_run_of_looks hconfined m
  rw [h] at htables
  exact htables

/-- **What is known of a managed kind**: the names that are there, unless the list call fails. -/
theorem take_managed (h : m.run (take kind true) = (s, m')) :
    (∃ e, (m.call (.list kind)).1 = .error e ∧ s = .unknown e.message) ∨
      s = .known (m.tables.sortedNames kind) := by
  have hask : m.run ((Call.list kind).ask : Talk (Except HostError (List String)))
      = m.call (.list kind) := rfl
  simp only [take, Memory.run_bind, hask] at h
  cases hcall : (m.call (.list kind)).1 with
  | error e =>
    rw [hcall] at h
    exact .inl ⟨e, rfl, (Prod.mk.inj h).1.symm⟩
  | ok names =>
    have hserve := Memory.serve_eq_of_call_eq_ok hcall
    rw [hcall] at h
    obtain ⟨hnames, -⟩ := Prod.mk.inj (Except.ok.inj hserve)
    exact .inr ((Prod.mk.inj h).1.symm.trans (congrArg Stock.known hnames.symm))

/-- To see what is there of a kind, the kind is listed; of an unmanaged kind all results say that nothing was
done. -/
theorem confined_take (kind : DefinedKind) (managed : Bool) :
    (take kind managed).Confined (Query.CallsOnly (· = .list kind)) fun s =>
      ∀ results, s = .leftAlone results → ∀ x ∈ results, x.outcome = .skippedUnmanaged := by
  refine Confined.bind (Confined.query (p := Query.CallsOnly (· = .list kind)) (q := .call (.list kind))
    (e := fun _ => True) rfl fun _ => trivial) fun reply _ => ?_
  split
  · exact Confined.pure fun _ h => nomatch h
  · exact Confined.pure fun _ h => nomatch h
  · refine Confined.pure fun results h => ?_
    obtain rfl := Stock.leftAlone.inj h
    exact List.forall_mem_map.2 fun _ _ => rfl
  · refine Confined.pure fun results h => ?_
    obtain rfl := Stock.leftAlone.inj h
    simp

/-- What is there of a kind according to tables. -/
def inTables (t : Tables) (kind : DefinedKind) (managed : Bool) : Stock :=
  if managed then .known (t.sortedNames kind)
  else .leftAlone ((t.sortedNames kind).map fun name =>
    { kind := kind.resource, name, outcome := .skippedUnmanaged })

/-- Of an unmanaged kind nothing is touched. -/
theorem take_unmanaged (h : m.run (take kind false) = (s, m')) :
    ∃ results, s = .leftAlone results ∧
      ∀ x ∈ results, x.kind = kind.resource ∧ x.outcome = .skippedUnmanaged := by
  have hask : m.run ((Call.list kind).ask : Talk (Except HostError (List String)))
      = m.call (.list kind) := rfl
  simp only [take, Memory.run_bind, hask] at h
  cases hcall : (m.call (.list kind)).1 with
  | error e =>
    rw [hcall] at h
    exact ⟨[], (Prod.mk.inj h).1.symm, by simp⟩
  | ok names =>
    rw [hcall] at h
    exact ⟨_, (Prod.mk.inj h).1.symm, List.forall_mem_map.2 fun name _ => ⟨rfl, rfl⟩⟩

theorem mem_stale_iff {names declared : List String} {name : String} :
    name ∈ (known names).stale declared ↔ name ∈ names ∧ name ∉ declared := by
  rw [stale, List.mem_mergeSort, List.mem_eraseDups, List.mem_filter]
  simp

theorem nodup_stale (s : Stock) (declared : List String) : (s.stale declared).Nodup := by
  cases s with
  | leftAlone results => exact List.nodup_nil
  | unknown reason => exact List.nodup_nil
  | known names =>
    rw [stale, List.Perm.nodup_iff (List.mergeSort_perm _ _)]
    exact nodup_eraseDups _

/-- What is known of a kind: nothing of it is touched if it is unmanaged. -/
theorem take_cases {managed : Bool} (h : m.run (take kind managed) = (s, m')) :
    (∃ reason, s = .unknown reason) ∨ s = .known (m.tables.sortedNames kind) ∨
      managed = false ∧ ∃ results, s = .leftAlone results ∧
        ∀ x ∈ results, x.kind = kind.resource ∧ x.outcome = .skippedUnmanaged := by
  cases managed with
  | true => exact (take_managed h).imp (fun ⟨x, _, hs⟩ => ⟨x.message, hs⟩) .inl
  | false => exact .inr (.inr ⟨rfl, take_unmanaged h⟩)

/-- **The tasks for the declared resources of a kind ask what each of them asks**, and their results are as told if
those of each task are. -/
theorem confined_each {α : Type} {declared : List α} {name : α → String} {lost : α → List Result}
    {task : α → Bool → Talk Recorded} {p : Query → Prop} {e : Result → Prop}
    (hleft : ∀ results, s = .leftAlone results → ∀ x ∈ results, e x)
    (htask : ∀ names, s = .known names → ∀ a ∈ declared, ∀ b, (task a b).Confined p (Recorded.All e))
    (hstuck : ∀ a ∈ declared, ∀ reason, e (.stuck kind.resource (name a) .list reason))
    (hlost : ∀ a ∈ declared, ∀ x ∈ lost a, e x) :
    ∀ t ∈ s.tasks kind declared name lost task, t.Confined p (Recorded.All e) := by
  intro t ht
  cases s with
  | leftAlone results =>
    obtain rfl := List.mem_singleton.1 ht
    exact Confined.pure ((Recorded.all_ok_iff _).2 (hleft results rfl))
  | unknown reason =>
    obtain rfl := List.mem_singleton.1 ht
    refine Confined.pure ((Recorded.all_ok_iff _).2 (List.forall_mem_append.2 ⟨?_, fun x hx => ?_⟩))
    · exact List.forall_mem_map.2 fun a ha => hstuck a ha reason
    · obtain ⟨a, ha, hx⟩ := List.mem_flatMap.1 hx
      exact hlost a ha x hx
  | known names =>
    obtain ⟨a, ha, rfl⟩ := List.mem_map.1 ht
    exact htask names rfl a ha _

/-- The tasks for the declared resources of a kind ask what each of them asks, and their results are about
declared resources, unless the kind is unmanaged. -/
theorem confined_tasks {α : Type} {declared : List α} {name : α → String} {lost : α → List Result}
    {task : α → Bool → Talk Recorded} {p : Query → Prop} {e : Result → Prop}
    (htake : m.run (take kind managed) = (s, m'))
    (htask : ∀ a ∈ declared, ∀ b, (task a b).Confined p (Recorded.All e))
    (hstuck : ∀ a ∈ declared, ∀ reason, e (.stuck kind.resource (name a) .list reason))
    (hlost : ∀ a ∈ declared, ∀ x ∈ lost a, e x) :
    (gather (s.tasks kind declared name lost task)).Confined p (Recorded.All fun x =>
      e x ∨ managed = false ∧ x.kind = kind.resource ∧ x.outcome = .skippedUnmanaged) := by
  refine Confined.gather (confined_each (fun results hs x hx => ?_)
    (fun _ _ a ha b => (htask a ha b).mono (fun _ => id) fun _ hr => hr.mono fun _ => .inl)
    (fun a ha reason => .inl (hstuck a ha reason)) fun a ha x hx => .inl (hlost a ha x hx))
  rcases take_cases htake with ⟨reason, hunknown⟩ | hknown | ⟨hunmanaged, results', hleft, hresults⟩
  · exact absurd (hs.symm.trans hunknown) (by simp)
  · exact absurd (hs.symm.trans hknown) (by simp)
  · obtain rfl := Stock.leftAlone.inj (hs.symm.trans hleft)
    exact .inr ⟨hunmanaged, hresults x hx⟩

section

variable {α : Type} {declared : List α} {name : α → String} {lost : α → List Result}
  {task : α → Bool → Talk Recorded}

/-- If a kind could not be listed, all its declared resources fail. -/
theorem run_tasks_unknown (n : Memory) (reason : String) :
    n.run (gather ((unknown reason).tasks kind declared name lost task)) =
      (.ok (declared.map (fun a => .stuck kind.resource (name a) .list reason) ++
        declared.flatMap lost), n) := by
  simp [tasks, Memory.run_gather_cons, Recorded.append, Except.bind, Except.map]

/-- If a kind could be listed, each of its declared resources gets a task, which is told whether the
resource is there. -/
theorem tasks_known (t : Tables) :
    (known (t.sortedNames kind)).tasks kind declared name lost task =
      declared.map fun a => task a (t.get? kind (name a)).isSome := by
  refine List.map_congr_left fun a _ => ?_
  have hthere : (t.sortedNames kind).contains (name a) = (t.get? kind (name a)).isSome := by
    rw [Bool.eq_iff_iff, List.contains_iff_mem]
    exact Tables.mem_sortedNames_iff
  rw [hthere]

/-- Of the failures of resources that could not be listed each is the only one about its resource. -/
theorem isSole_stuck (kind : DefinedKind) {reason : String} {others : List Result}
    (hothers : ∀ x ∈ others, x.kind ≠ kind.resource) {a : α} (ha : a ∈ declared) :
    (Result.stuck kind.resource (name a) .list reason).IsSole
      (declared.map (fun a => .stuck kind.resource (name a) .list reason) ++ others) := by
  refine ⟨List.mem_append_left _ (List.mem_map.2 ⟨a, ha, rfl⟩), fun y hy hkind hname => ?_⟩
  rcases List.mem_append.1 hy with hy | hy
  · obtain ⟨b, -, rfl⟩ := List.mem_map.1 hy
    have hsame : name b = name a := hname
    rw [hsame]
  · exact absurd hkind (hothers y hy)

theorem nodup_pairs (h : (declared.map name).Nodup) : (declared.map fun a => (kind, name a)).Nodup := by
  have hnames : ((declared.map fun a => (kind, name a)).map Prod.snd).Nodup := by
    rw [List.map_map]
    exact h
  exact hnames.of_map _

/-- **Each declared resource of a managed kind has one result**, and what holds of it and of the entry
behind its task holds of them in the end, unless it is a failure. -/
theorem run_tasks_single {e : Recorded → Prop} {Q : α → Result → Option StoredResource → Prop}
    (hdistinct : (declared.map name).Nodup)
    (htask : ∀ a ∈ declared, ∀ b, (task a b).Confined (Query.CallsOnly (Call.IsAbout kind (name a))) e)
    (htake : m.run (take kind true) = (s, m')) {n : Memory}
    (hsame : ∀ a ∈ declared, n.tables.get? kind (name a) = m.tables.get? kind (name a))
    (hsingle : ∀ a ∈ declared, ∀ h : Memory, n.Follows h →
      h.tables.get? kind (name a) = m.tables.get? kind (name a) →
      ∀ rs, (h.run (task a (m.tables.get? kind (name a)).isSome)).1 = .ok rs →
        ∃ x, rs = [x] ∧ x.kind = kind.resource ∧ x.name = name a ∧ (x.outcome = .failed ∨
          Q a x ((h.run (task a (m.tables.get? kind (name a)).isSome)).2.tables.get? kind (name a))))
    {rs : List Result} {n' : Memory}
    (hrs : n.run (gather (s.tasks kind declared name (fun _ => []) task)) = (.ok rs, n')) {a : α}
    (ha : a ∈ declared) :
    ∃ x, x.IsSole rs ∧ x.kind = kind.resource ∧ x.name = name a ∧
      (x.outcome = .failed ∨ Q a x (n'.tables.get? kind (name a))) := by
  rcases take_managed htake with ⟨x, -, rfl⟩ | rfl
  · rw [run_tasks_unknown] at hrs
    obtain ⟨hrs, -⟩ := Prod.mk.inj hrs
    rw [← Except.ok.inj hrs]
    exact ⟨_, isSole_stuck kind (by simp) ha, rfl, rfl, .inl rfl⟩
  · rw [tasks_known] at hrs
    have hend := Memory.run_gather_single (m := n) (fun _ => kind) name
      (Q := fun a x after => x.outcome = .failed ∨ Q a x after) (nodup_pairs hdistinct)
      (fun a ha => htask a ha _) (fun a ha h hfollows hbefore => hsingle a ha h hfollows
        (hbefore.trans (hsame a ha))) (congrArg Prod.fst hrs) ha
    rw [hrs] at hend
    exact hend

end

end Stock

end VirtualTopology
