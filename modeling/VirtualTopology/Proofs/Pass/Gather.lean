import Mathlib.Data.List.Nodup
import VirtualTopology.Proofs.Host.Calm

/-!
# Tasks one after the other

Each of several tasks about different resources runs as if it were alone (`Memory.run_gather_map`): it
finds its resource as it was before all tasks, its resource stays as the task leaves it, and the results
are those of the tasks.
-/

namespace VirtualTopology

open Dialogue

theorem DefinedKind.resource_injective {k l : DefinedKind} (h : k.resource = l.resource) : k = l := by
  cases k <;> cases l <;> first | rfl | exact nomatch h

/-! ### Results of several tasks -/

/-- Whether a result is the only one about its resource. -/
def Result.IsSole (x : Result) (rs : List Result) : Prop :=
  x ∈ rs ∧ ∀ y ∈ rs, y.kind = x.kind → y.name = x.name → y = x

namespace Recorded

/-- The results of several tasks, if all of them have results. -/
def all (rs : List Recorded) : Recorded := rs.foldr append (.ok [])

/-- Whether all results, if there are any, are as told. -/
def All (p : Result → Prop) (r : Recorded) : Prop := ∀ rs, r = .ok rs → ∀ x ∈ rs, p x

variable {p q : Result → Prop} {r s : Recorded} {xs : List Result} {x : Result}

@[simp] theorem all_nil : all [] = .ok [] := rfl

@[simp] theorem all_cons (r : Recorded) (rs : List Recorded) : all (r :: rs) = r.append (all rs) := rfl

theorem append_eq_ok_iff :
    r.append s = .ok xs ↔ ∃ ys zs, r = .ok ys ∧ s = .ok zs ∧ xs = ys ++ zs := by
  constructor
  · intro h
    cases r with
    | error why => exact absurd h (by simp [append, Except.bind])
    | ok ys =>
      cases s with
      | error why => exact absurd h (by simp [append, Except.bind, Except.map])
      | ok zs => exact ⟨ys, zs, rfl, rfl, (Except.ok.inj h).symm⟩
  · rintro ⟨ys, zs, rfl, rfl, rfl⟩
    rfl

theorem append_assoc (r s u : Recorded) : (r.append s).append u = r.append (s.append u) := by
  cases r with
  | error why => rfl
  | ok xs =>
    cases s with
    | error why => rfl
    | ok ys =>
      cases u with
      | error why => rfl
      | ok zs => exact congrArg Except.ok (List.append_assoc xs ys zs)

/-- Among the results of several tasks are those of each task and no others. -/
theorem mem_of_all_eq_ok {rs : List Recorded} (h : all rs = .ok xs) :
    (∀ r ∈ rs, ∃ ys, r = .ok ys) ∧ (x ∈ xs ↔ ∃ ys, .ok ys ∈ rs ∧ x ∈ ys) := by
  induction rs generalizing xs with
  | nil =>
    obtain rfl := Except.ok.inj h
    simp
  | cons r rs ih =>
    obtain ⟨ys, zs, rfl, hrest, rfl⟩ := append_eq_ok_iff.1 h
    obtain ⟨hok, hmem⟩ := ih hrest
    refine ⟨fun s hs => ?_, ?_⟩
    · rcases List.mem_cons.1 hs with rfl | hs
      · exact ⟨ys, rfl⟩
      · exact hok s hs
    · rw [List.mem_append, hmem]
      constructor
      · rintro (hx | ⟨us, hus, hx⟩)
        · exact ⟨ys, by simp, hx⟩
        · exact ⟨us, by simp [hus], hx⟩
      · rintro ⟨us, hus, hx⟩
        rcases List.mem_cons.1 hus with heq | hus
        · exact .inl (by rw [← Except.ok.inj heq]; exact hx)
        · exact .inr ⟨us, hus, hx⟩

/-- **Tasks about different resources give each its only result.** -/
theorem exists_isSole {ι : Type} {items : List ι} {value : ι → Recorded} {kind : ι → ResourceKind}
    {name : ι → String} (hall : all (items.map value) = .ok xs)
    (hdistinct : ∀ a ∈ items, ∀ b ∈ items, kind a = kind b → name a = name b → a = b)
    (hsingle : ∀ a ∈ items, ∀ ys, value a = .ok ys → ∃ y, ys = [y] ∧ y.kind = kind a ∧ y.name = name a)
    {a : ι} (ha : a ∈ items) : ∃ x, value a = .ok [x] ∧ x.IsSole xs := by
  obtain ⟨hok, hmem⟩ : (∀ r ∈ items.map value, ∃ ys, r = .ok ys) ∧
      ∀ x, x ∈ xs ↔ ∃ ys, .ok ys ∈ items.map value ∧ x ∈ ys :=
    ⟨(mem_of_all_eq_ok (x := default) hall).1, fun x => (mem_of_all_eq_ok hall).2⟩
  obtain ⟨ys, hys⟩ := hok _ (List.mem_map.2 ⟨a, ha, rfl⟩)
  obtain ⟨x, rfl, hkind, hname⟩ := hsingle a ha ys hys
  refine ⟨x, hys, (hmem x).2 ⟨[x], hys ▸ List.mem_map.2 ⟨a, ha, rfl⟩, by simp⟩, ?_⟩
  intro y hy hykind hyname
  obtain ⟨zs, hzs, hyz⟩ := (hmem y).1 hy
  obtain ⟨b, hb, hvalue⟩ := List.mem_map.1 hzs
  obtain ⟨z, rfl, hzkind, hzname⟩ := hsingle b hb zs hvalue
  obtain rfl := List.mem_singleton.1 hyz
  obtain rfl := hdistinct a ha b hb (by rw [← hkind, ← hykind, hzkind])
    (by rw [← hname, ← hyname, hzname])
  have hsame := Except.ok.inj (hys.symm.trans hvalue)
  simpa using hsame.symm

theorem All.mono (h : r.All p) (hp : ∀ x, p x → q x) : r.All q :=
  fun rs hr x hx => hp x (h rs hr x hx)

theorem All.append (hr : r.All p) (hs : s.All p) : (r.append s).All p := by
  intro xs h x hx
  obtain ⟨ys, zs, hys, hzs, rfl⟩ := append_eq_ok_iff.1 h
  rcases List.mem_append.1 hx with hx | hx
  · exact hr ys hys x hx
  · exact hs zs hzs x hx

theorem all_ok_iff (xs : List Result) : Recorded.All p (.ok xs) ↔ ∀ x ∈ xs, p x :=
  ⟨fun h => h xs rfl, fun h ys hy x hx => h x (by rw [Except.ok.inj hy]; exact hx)⟩

end Recorded

/-- Tasks and those behind them. -/
theorem gather_append (ss ts : List (Talk Recorded)) :
    gather (ss ++ ts) = (do
      let r ← gather ss
      let rs ← gather ts
      pure (r.append rs)) := by
  induction ss with
  | nil =>
    have hnone : Recorded.append (.ok []) = id := funext fun rs => by cases rs <;> rfl
    simp [gather, hnone]
  | cons s ss ih =>
    have hassoc : ∀ r r' : Recorded, (r.append r').append = fun rs => r.append (r'.append rs) :=
      fun r r' => funext fun rs => Recorded.append_assoc r r' rs
    simp [gather, ih, hassoc]

/-! ### What follows a host -/

namespace Memory

/-- What stays as it is while a host is called. -/
structure Follows (m n : Memory) : Prop where
  polls : n.polls = m.polls
  calm : m.Calm → n.Calm
  uncancelled : m.Uncancelled → n.Uncancelled

theorem Follows.refl (m : Memory) : m.Follows m := ⟨rfl, id, id⟩

theorem Follows.trans {m n o : Memory} (h : m.Follows n) (h' : n.Follows o) : m.Follows o :=
  ⟨h'.polls.trans h.polls, fun hm => h'.calm (h.calm hm),
    fun hm => h'.uncancelled (h.uncancelled hm)⟩

theorem follows_run {α : Type} (m : Memory) (d : Talk α) : m.Follows (m.run d).2 :=
  ⟨polls_run d m, fun h => h.run d, fun h => h.run d⟩

theorem follows_of_run {α : Type} {m n : Memory} {d : Talk α} {a : α} (h : m.run d = (a, n)) :
    m.Follows n := by
  have hfollows := follows_run m d
  rw [h] at hfollows
  exact hfollows

/-! ### Runs of several tasks -/

variable {m : Memory}

@[simp] theorem run_gather_nil (m : Memory) : m.run (gather []) = (.ok [], m) := rfl

theorem run_gather_cons (m : Memory) (t : Talk Recorded) (ts : List (Talk Recorded)) :
    m.run (gather (t :: ts)) =
      ((m.run t).1.append ((m.run t).2.run (gather ts)).1, ((m.run t).2.run (gather ts)).2) := by
  simp [gather]

theorem run_gather_append (m : Memory) (ss ts : List (Talk Recorded)) :
    m.run (gather (ss ++ ts)) =
      ((m.run (gather ss)).1.append ((m.run (gather ss)).2.run (gather ts)).1,
        ((m.run (gather ss)).2.run (gather ts)).2) := by
  rw [gather_append]
  simp

end Memory

namespace Memory

/-- Several tasks that give results run up to one of them, run that one, and run the others. -/
theorem exists_of_run_gather {ι : Type} {task : ι → Talk Recorded} {xs ys : List ι} {y : ι}
    {m n : Memory} {rs : List Result} (h : m.run (gather ((xs ++ y :: ys).map task)) = (.ok rs, n)) :
    ∃ (m₁ m₂ : Memory) (as bs cs : List Result), m.run (gather (xs.map task)) = (.ok as, m₁) ∧
      m₁.run (task y) = (.ok bs, m₂) ∧ m₂.run (gather (ys.map task)) = (.ok cs, n) ∧
      rs = as ++ (bs ++ cs) := by
  rw [List.map_append, List.map_cons, run_gather_append, run_gather_cons] at h
  obtain ⟨hvalue, hhost⟩ := Prod.mk.inj h
  obtain ⟨as, rest, has, hrest, rfl⟩ := Recorded.append_eq_ok_iff.1 hvalue
  obtain ⟨bs, cs, hbs, hcs, rfl⟩ := Recorded.append_eq_ok_iff.1 hrest
  exact ⟨_, _, as, bs, cs, Prod.ext has rfl, Prod.ext hbs rfl, Prod.ext hcs hhost, rfl⟩

end Memory

theorem Dialogue.Confined.gather {p : Query → Prop} {e : Result → Prop} {ts : List (Talk Recorded)}
    (h : ∀ t ∈ ts, t.Confined p (Recorded.All e)) :
    (VirtualTopology.gather ts).Confined p (Recorded.All e) := by
  induction ts with
  | nil => exact Confined.pure ((Recorded.all_ok_iff []).2 (by simp))
  | cons t ts ih =>
    refine (h t (by simp)).bind fun r hr => ?_
    exact (ih fun s hs => h s (by simp [hs])).bind fun rs hrs => Confined.pure (hr.append hrs)

namespace Memory

section

variable {ι : Type} {task : ι → Talk Recorded} {e : Recorded → Prop}

/-- **Tasks about different resources run as if each were alone**: each task runs on a host on which its
resource is as it was before all of them, and its resource stays as the task leaves it. -/
theorem run_gather_map (m : Memory) (kind : ι → DefinedKind) (name : ι → String) (xs : List ι)
    (hdistinct : xs.Pairwise fun x y => (kind x, name x) ≠ (kind y, name y))
    (htask : ∀ x ∈ xs, (task x).Confined (Query.CallsOnly (Call.IsAbout (kind x) (name x))) e) :
    ∃ host : ι → Memory,
      (∀ x ∈ xs, m.Follows (host x) ∧
        (host x).tables.get? (kind x) (name x) = m.tables.get? (kind x) (name x) ∧
        (m.run (gather (xs.map task))).2.tables.get? (kind x) (name x)
          = ((host x).run (task x)).2.tables.get? (kind x) (name x)) ∧
      (m.run (gather (xs.map task))).1 = .all (xs.map fun x => ((host x).run (task x)).1) := by
  classical
  have hspares : ∀ x ∈ xs, ∀ k other, (kind x, name x) ≠ (k, other) →
      (task x).Confined (Query.CallsOnly (Call.Spares k other)) e := fun x hx k other hne =>
    (htask x hx).mono (fun q hq => hq.mono fun c hc => hc.spares hne) fun _ => id
  induction xs generalizing m with
  | nil => exact ⟨fun _ => m, by simp, rfl⟩
  | cons x xs ih =>
    obtain ⟨hne, hdistinct⟩ := List.pairwise_cons.1 hdistinct
    obtain ⟨host, hhost, hvalue⟩ := ih (m.run (task x)).2 hdistinct
      (fun y hy => htask y (by simp [hy])) (fun y hy => hspares y (by simp [hy]))
    obtain ⟨host', hself, hother⟩ : ∃ host' : ι → Memory,
        host' x = m ∧ ∀ y ∈ xs, host' y = host y :=
      ⟨fun y => if y = x then m else host y, if_pos rfl,
        fun y hy => if_neg fun he => hne y hy (by rw [he])⟩
    refine ⟨host', fun y hy => ?_, ?_⟩
    · rw [List.map_cons, run_gather_cons]
      rcases List.mem_cons.1 hy with rfl | hy
      · rw [hself]
        refine ⟨.refl m, rfl, ?_⟩
        -- the tasks behind it are about other resources
        have hrest : (gather (xs.map task)).Confined
            (Query.CallsOnly (Call.Spares (kind y) (name y))) (Recorded.All fun _ => True) := by
          refine Confined.gather fun t ht => ?_
          obtain ⟨z, hz, rfl⟩ := List.mem_map.1 ht
          exact (hspares z (by simp [hz]) (kind y) (name y) (hne z hz).symm).mono (fun _ => id)
            fun _ _ _ _ _ _ => trivial
        exact get?_run_of_spares hrest _
      · obtain ⟨hfollows, hbefore, hafter⟩ := hhost y hy
        rw [hother y hy]
        refine ⟨(follows_run m (task x)).trans hfollows, hbefore.trans ?_, hafter⟩
        exact get?_run_of_spares (hspares x (by simp) (kind y) (name y) (hne y hy)) m
    · have hmap : (xs.map fun y => ((host' y).run (task y)).1)
          = xs.map fun y => ((host y).run (task y)).1 :=
        List.map_congr_left fun y hy => by rw [hother y hy]
      rw [List.map_cons, run_gather_cons, hvalue, List.map_cons, Recorded.all_cons, hself, hmap]

end

/-- **Tasks that give one result each give every resource its only result**, and what holds of the result
and of the entry behind the task holds of them in the end. -/
theorem run_gather_single {m : Memory} {ι : Type} {task : ι → Talk Recorded}
    (kind : ι → DefinedKind) (name : ι → String) {e : Recorded → Prop} {Q : ι → Result → Option StoredResource → Prop}
    {xs : List ι} (hdistinct : (xs.map fun x => (kind x, name x)).Nodup)
    (htask : ∀ x ∈ xs, (task x).Confined (Query.CallsOnly (Call.IsAbout (kind x) (name x))) e)
    (hsingle : ∀ x ∈ xs, ∀ n : Memory, m.Follows n →
      n.tables.get? (kind x) (name x) = m.tables.get? (kind x) (name x) →
      ∀ rs, (n.run (task x)).1 = .ok rs → ∃ y, rs = [y] ∧ y.kind = (kind x).resource ∧
        y.name = name x ∧ Q x y ((n.run (task x)).2.tables.get? (kind x) (name x)))
    {rs : List Result} (hrs : (m.run (gather (xs.map task))).1 = .ok rs) {x : ι} (hx : x ∈ xs) :
    ∃ y, y.IsSole rs ∧ y.kind = (kind x).resource ∧ y.name = name x ∧
      Q x y ((m.run (gather (xs.map task))).2.tables.get? (kind x) (name x)) := by
  obtain ⟨host, hhost, hvalue⟩ := m.run_gather_map kind name xs (List.pairwise_map.1 hdistinct) htask
  rw [hrs] at hvalue
  have hsame : ∀ a ∈ xs, ∀ b ∈ xs, (kind a).resource = (kind b).resource → name a = name b → a = b :=
    fun a ha b hb hkind hname => List.inj_on_of_nodup_map hdistinct ha hb
      (Prod.ext (DefinedKind.resource_injective hkind) hname)
  obtain ⟨y, hy, hsole⟩ := Recorded.exists_isSole hvalue.symm hsame (fun a ha ys hys => by
    obtain ⟨z, hz, hkind, hname, -⟩ := hsingle a ha (host a) (hhost a ha).1 (hhost a ha).2.1 ys hys
    exact ⟨z, hz, hkind, hname⟩) hx
  obtain ⟨z, hz, hkind, hname, hQ⟩ := hsingle x hx (host x) (hhost x hx).1 (hhost x hx).2.1 [y] hy
  obtain rfl : y = z := by simpa using hz
  exact ⟨y, hsole, hkind, hname, (hhost x hx).2.2 ▸ hQ⟩

end Memory

end VirtualTopology
