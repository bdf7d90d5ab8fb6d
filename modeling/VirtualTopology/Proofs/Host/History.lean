import VirtualTopology.Proofs.Host.Rest
import VirtualTopology.Proofs.Host.Watched

/-!
# Histories

A history is a list of calls, each with the host to which it came. The calls of a watched host are a history
(`Watched.calls`), and they are linked: each call comes to the tables that the one before it has left
(`Memory.linked_watch`). So what is there between two calls of a history can be told from the calls in between.
A resource that does not run and runs later was started in between, by a call that went well
(`Linked.start_mem_served`).
-/

namespace VirtualTopology

open Dialogue

/-- Whether a call goes well on a host. -/
def Memory.serves (m : Memory) (c : Call) : Bool := (m.call c).1.isOk

/-- The calls of a history that go well. -/
def served (xs : List (Memory × Call)) : List Call := (xs.filter fun x => x.1.serves x.2).map (·.2)

/-- Whether a resource runs. -/
def Tables.Runs (t : Tables) (k : DefinedKind) (name : String) : Prop :=
  ∃ r, t.get? k name = some r ∧ r.active = true

theorem served_append (xs ys : List (Memory × Call)) : served (xs ++ ys) = served xs ++ served ys := by
  rw [served, List.filter_append, List.map_append]
  rfl

theorem mem_served_iff {xs : List (Memory × Call)} {c : Call} :
    c ∈ served xs ↔ ∃ m, (m, c) ∈ xs ∧ m.serves c = true := by
  simp only [served, List.mem_map, List.mem_filter]
  constructor
  · rintro ⟨⟨m, c'⟩, ⟨hmem, hserves⟩, rfl⟩
    exact ⟨m, hmem, hserves⟩
  · rintro ⟨m, hmem, hserves⟩
    exact ⟨(m, c), ⟨hmem, hserves⟩, rfl⟩

namespace Memory

variable {m : Memory} {c : Call}

theorem serves_eq_true_iff : m.serves c = true ↔ ∃ a, (m.call c).1 = .ok a := by
  unfold serves
  cases (m.call c).1 with
  | error e => simp [Except.isOk, Except.toBool]
  | ok a => simp [Except.isOk, Except.toBool]

/-- **A call fails and leaves the tables as they are, or it is served.** -/
theorem call_cases (m : Memory) (c : Call) :
    (m.serves c = false ∧ (m.call c).2.tables = m.tables) ∨
      (m.serves c = true ∧ ∃ a, (m.call c).1 = .ok a ∧
        m.tables.serve m.polls c = .ok (a, (m.call c).2.tables)) := by
  cases hcall : (m.call c).1 with
  | ok a =>
    refine .inr ⟨serves_eq_true_iff.2 ⟨a, hcall⟩, a, rfl, ?_⟩
    exact serve_eq_of_call_eq_ok hcall
  | error e =>
    refine .inl ⟨?_, ?_⟩
    · rw [serves, hcall]
      rfl
    · rw [call_eq] at hcall ⊢
      split
      · rfl
      · next hstruck =>
        simp only [hstruck] at hcall
        split
        · next a tables hserve =>
          rw [hserve] at hcall
          exact absurd hcall (by simp)
        · rfl

end Memory

/-! ### What runs -/

namespace Tables

variable {t u : Tables} {polls : Table Int} {c : Call} {k : DefinedKind} {name : String}

/-- **Nothing but a start makes a resource run.** -/
theorem Becomes.eq_start (hb : t.Becomes polls c u) (hoff : ¬ t.Runs k name) (hon : u.Runs k name) :
    c = .start k name := by
  obtain ⟨s, hs, hactive⟩ := hon
  -- another entry of the same resource would be off, too
  have hput : ∀ {l : DefinedKind} {other : String} {r : StoredResource},
      (t.put l other r).get? k name = some s → (r.active = true → t.Runs l other) →
      c = .start k name := by
    intro l other r hget hkeeps
    by_cases heq : (l, other) = (k, name)
    · obtain ⟨rfl, rfl⟩ := Prod.mk.inj heq
      rw [get?_put_self] at hget
      obtain rfl := Option.some.inj hget
      exact absurd (hkeeps hactive) hoff
    · rw [get?_put_of_ne heq] at hget
      exact absurd ⟨s, hget, hactive⟩ hoff
  cases hb with
  | still _ => exact absurd ⟨s, hs, hactive⟩ hoff
  | define l document =>
    refine hput hs fun hon => ?_
    cases hold : t.get? l (nameInDocument document) with
    | none =>
      rw [hold] at hon
      exact absurd hon (by simp)
    | some r =>
      rw [hold] at hon
      exact ⟨r, hold, hon⟩
  | undefine l other =>
    rw [get?_erase] at hs
    split at hs
    · exact absurd hs (by simp)
    · exact absurd ⟨s, hs, hactive⟩ hoff
  | @start l other r hr =>
    by_cases heq : (l, other) = (k, name)
    · obtain ⟨rfl, rfl⟩ := Prod.mk.inj heq
      rfl
    · rw [get?_put_of_ne heq] at hs
      exact absurd ⟨s, hs, hactive⟩ hoff
  | stop _ _ => exact hput hs fun hon => absurd hon (by simp [StoredResource.stopped])
  | @ask other r hr =>
    refine hput hs fun hon => ⟨r, hr, ?_⟩
    unfold StoredResource.asked at hon
    split at hon
    · exact hon
    · split at hon
      · exact absurd hon (by simp [StoredResource.stopped])
      · exact hon
  | @look l other r hr =>
    refine hput hs fun hon => ⟨r, hr, ?_⟩
    rw [StoredResource.active_seen] at hon
    exact (Bool.and_eq_true_iff.1 hon).1
  | @autostart l other r hr b => exact hput hs fun hon => ⟨r, hr, hon⟩
  | @create pool document r e hr _ => exact hput hs fun hon => ⟨r, hr, hon⟩
  | @delete pool volume r hr => exact hput hs fun hon => ⟨r, hr, hon⟩
  | @resize pool volume bytes r v hr _ => exact hput hs fun hon => ⟨r, hr, hon⟩

end Tables

namespace Memory

variable {m : Memory} {k : DefinedKind} {name : String}

/-- A network or pool that has been stopped does not run. -/
theorem not_runs_of_stop (hk : k ≠ .domain) {force : Bool} (h : m.serves (.stop k name force) = true) :
    ¬ (m.call (.stop k name force)).2.tables.Runs k name := by
  rcases m.call_cases (.stop k name force) with ⟨hfails, -⟩ | ⟨-, a, -, hserve⟩
  · exact absurd (h.symm.trans hfails) (by simp)
  · generalize (m.call (.stop k name force)).2.tables = u at hserve ⊢
    rintro ⟨s, hs, hactive⟩
    cases Tables.becomes_of_serve hserve with
    | still hstill => exact absurd hstill (by simp [Call.isStill])
    | stop _ _ =>
      rw [Tables.get?_put_self] at hs
      rw [← Option.some.inj hs] at hactive
      exact absurd hactive (by simp [StoredResource.stopped])
    | ask _ => exact absurd rfl hk

/-- **A resource that does not run before a call and runs after it was started by it.** -/
theorem start_of_runs {c : Call} (hoff : ¬ m.tables.Runs k name) (hon : (m.call c).2.tables.Runs k name) :
    c = .start k name ∧ m.serves c = true := by
  rcases m.call_cases c with ⟨-, heq⟩ | ⟨hserves, a, -, hserve⟩
  · rw [heq] at hon
    exact absurd hon hoff
  · exact ⟨(Tables.becomes_of_serve hserve).eq_start hoff hon, hserves⟩

/-- What is seen to run runs. -/
theorem runs_of_isActive (h : (m.call (.isActive k name)).1 = .ok true) : m.tables.Runs k name := by
  obtain ⟨r, hfind, hserve⟩ := Tables.exists_of_bind_eq_ok (serve_eq_of_call_eq_ok h)
  obtain ⟨hseen, -⟩ := Prod.mk.inj (Except.ok.inj hserve)
  rw [StoredResource.active_seen] at hseen
  exact ⟨r, Tables.get?_of_find hfind, (Bool.and_eq_true_iff.1 hseen).1⟩

end Memory

/-! ### Linked histories -/

/-- Whether each call of a history comes to the tables that the one before it has left: the first one to `t`, and
the last one leaves `u`. -/
inductive Linked : Tables → List (Memory × Call) → Tables → Prop where
  | nil (t : Tables) : Linked t [] t
  | cons {m : Memory} {c : Call} {xs : List (Memory × Call)} {u : Tables}
      (rest : Linked (m.call c).2.tables xs u) : Linked m.tables ((m, c) :: xs) u

namespace Linked

variable {t u v : Tables} {xs ys : List (Memory × Call)} {k : DefinedKind} {name : String}

theorem append (h : Linked t xs u) (h' : Linked u ys v) : Linked t (xs ++ ys) v := by
  induction h with
  | nil => exact h'
  | cons rest ih => exact .cons (ih h')

/-- A history falls into two at each place. -/
theorem exists_of_append (h : Linked t (xs ++ ys) v) : ∃ u, Linked t xs u ∧ Linked u ys v := by
  induction xs generalizing t with
  | nil => exact ⟨t, .nil t, h⟩
  | cons x xs ih =>
    cases h with
    | cons rest =>
      obtain ⟨u, hxs, hys⟩ := ih rest
      exact ⟨u, .cons hxs, hys⟩

/-- **What does not run and runs later was started in between.** -/
theorem start_mem_served (h : Linked t xs u) (hoff : ¬ t.Runs k name) (hon : u.Runs k name) :
    .start k name ∈ served xs := by
  induction h with
  | nil t => exact absurd hon hoff
  | @cons m c xs u rest ih =>
    by_cases hnow : (m.call c).2.tables.Runs k name
    · obtain ⟨rfl, hserves⟩ := Memory.start_of_runs hoff hnow
      exact mem_served_iff.2 ⟨m, by simp, hserves⟩
    · obtain ⟨n, hmem, hserves⟩ := mem_served_iff.1 (ih hnow hon)
      exact mem_served_iff.2 ⟨n, by simp [hmem], hserves⟩

/-- **What is stopped and is seen running later was started in between.** The look is one of the later calls. -/
theorem restart_sublist (hk : k ≠ .domain) (h : Linked t (xs ++ ys) u)
    (hstop : .stop k name false ∈ served xs) {y : Memory × Call} (hlook : y ∈ ys)
    (hon : y.1.tables.Runs k name) :
    [Call.stop k name false, .start k name].Sublist (served (xs ++ ys)) := by
  obtain ⟨m, hmem, hserves⟩ := mem_served_iff.1 hstop
  obtain ⟨before, between, rfl⟩ := List.append_of_mem hmem
  obtain ⟨early, late, rfl⟩ := List.append_of_mem hlook
  rw [List.append_assoc, List.cons_append] at h ⊢
  obtain ⟨t', -, hlater⟩ := h.exists_of_append
  cases hlater with
  | cons rest =>
    rw [← List.append_assoc] at rest
    obtain ⟨t'', hbetween, hrest⟩ := rest.exists_of_append
    have hsame : t'' = y.1.tables := by
      cases hrest
      rfl
    have hstart := hbetween.start_mem_served (Memory.not_runs_of_stop hk hserves) (hsame ▸ hon)
    have hhead : served ((m, .stop k name false) :: (between ++ (early ++ y :: late))) =
        .stop k name false :: served (between ++ (early ++ y :: late)) := by
      rw [served, List.filter_cons_of_pos (by exact hserves)]
      rfl
    rw [served_append, hhead, ← List.append_assoc, served_append]
    refine List.Sublist.trans ?_ (List.sublist_append_right _ _)
    refine List.Sublist.cons_cons _ ?_
    exact (List.singleton_sublist.2 hstart).trans (List.sublist_append_left _ _)

end Linked

/-- **The calls of a watched host are linked.** -/
theorem Memory.linked_watch {α : Type} (m : Memory) (cancels : Nat → Bool) (t : Talk α) :
    Linked m.tables (m.watch cancels t).2.calls (m.watch cancels t).2.host.tables := by
  -- in general, the calls of the dialogue come behind earlier ones
  suffices h : ∀ w : Watched, ∃ xs, (t.run (Watched.answer cancels) w).2.calls = w.calls ++ xs ∧
      Linked w.host.tables xs (t.run (Watched.answer cancels) w).2.host.tables by
    obtain ⟨xs, hcalls, hlinked⟩ := h { host := m }
    rw [watch, hcalls]
    exact hlinked
  induction t with
  | done a => exact fun w => ⟨[], (List.append_nil _).symm, .nil _⟩
  | ask q next ih =>
    intro w
    obtain ⟨xs, hcalls, hlinked⟩ := ih (w.reply cancels q) (w.after q)
    cases q with
    | call c =>
      refine ⟨(w.host, c) :: xs, ?_, .cons hlinked⟩
      exact hcalls.trans (List.append_assoc _ _ _)
    | cancelled => exact ⟨xs, hcalls, hlinked⟩
    | now => exact ⟨xs, hcalls, hlinked⟩
    | sleep _ => exact ⟨xs, hcalls, hlinked⟩

end VirtualTopology
