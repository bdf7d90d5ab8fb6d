import VirtualTopology.Proofs.Host.Serving

/-!
# Calm hosts

A host in memory is calm (`Memory.Calm`) if no disruption strikes its calls and the pass is not
cancelled on it. A calm host serves every call that its tables admit, and stays calm.
-/

namespace VirtualTopology

namespace Memory

/-- A host on which nothing is disrupted and the pass is not cancelled. -/
structure Calm (m : Memory) : Prop where
  disruptions : m.disruptions = []
  trigger : m.trigger = none
  cancelled : m.cancelled = false

/-- A host on which the pass is not cancelled. -/
structure Uncancelled (m : Memory) : Prop where
  trigger : m.trigger = none
  cancelled : m.cancelled = false

/-- The host without its disruptions and without a cancellation. -/
def calmed (m : Memory) : Memory :=
  { m with disruptions := [], trigger := none, cancelled := false }

/-- The host after a call has been served. -/
def served (m : Memory) (c : Call) (tables : Tables) : Memory :=
  { m with tables, log := m.log ++ [c] }

variable {m : Memory}

theorem Calm.uncancelled (h : m.Calm) : m.Uncancelled := ⟨h.trigger, h.cancelled⟩

theorem calm_calmed (m : Memory) : m.calmed.Calm := ⟨rfl, rfl, rfl⟩

@[simp] theorem tables_calmed (m : Memory) : m.calmed.tables = m.tables := rfl

@[simp] theorem polls_calmed (m : Memory) : m.calmed.polls = m.polls := rfl

@[simp] theorem tables_served (m : Memory) (c : Call) (t : Tables) :
    (m.served c t).tables = t := rfl

@[simp] theorem polls_served (m : Memory) (c : Call) (t : Tables) :
    (m.served c t).polls = m.polls := rfl

theorem Calm.served (h : m.Calm) (c : Call) (t : Tables) : (m.served c t).Calm :=
  ⟨h.disruptions, h.trigger, h.cancelled⟩

theorem Calm.receive_eq (h : m.Calm) (c : Call) :
    m.receive c = (none, { m with log := m.log ++ [c] }) := by
  simp [receive, h.disruptions, h.trigger]

/-- A call that the tables admit is served. -/
theorem Calm.call_eq_of_serve (h : m.Calm) {c : Call} {a : c.Answer} {t : Tables}
    (hs : m.tables.serve m.polls c = .ok (a, t)) : m.call c = (.ok a, m.served c t) := by
  rw [call_eq, h.receive_eq, hs]
  rfl

/-- A call that the tables do not admit fails and changes nothing. -/
theorem Calm.call_eq_of_refused (h : m.Calm) {c : Call} {e : HostError}
    (hs : m.tables.serve m.polls c = .error e) : m.call c = (.error e, m.served c m.tables) := by
  rw [call_eq, h.receive_eq, hs]
  rfl

/-! ### What every query preserves -/

/-- A call leaves the guests as they are. -/
theorem polls_answer (m : Memory) (q : Query) : (m.answer q).2.polls = m.polls := by
  cases q with
  | call c =>
    show (m.call c).2.polls = m.polls
    rw [call_eq]
    split
    · rfl
    · split <;> rfl
  | cancelled => rfl
  | now => rfl
  | sleep _ => rfl

theorem Uncancelled.answer (h : m.Uncancelled) (q : Query) : (m.answer q).2.Uncancelled := by
  have hreceive : ∀ c, (m.receive c).2.Uncancelled := fun c =>
    ⟨h.trigger, by simp [receive, h.trigger, h.cancelled]⟩
  cases q with
  | call c =>
    show (m.call c).2.Uncancelled
    rw [call_eq]
    split
    · exact hreceive c
    · split
      · exact ⟨(hreceive c).trigger, (hreceive c).cancelled⟩
      · exact hreceive c
  | cancelled => exact h
  | now => exact h
  | sleep _ => exact ⟨h.trigger, h.cancelled⟩

theorem Calm.answer (h : m.Calm) (q : Query) : (m.answer q).2.Calm := by
  cases q with
  | call c =>
    show (m.call c).2.Calm
    rw [call_eq, h.receive_eq]
    split
    · exact ⟨h.disruptions, h.trigger, h.cancelled⟩
    · split <;> exact ⟨h.disruptions, h.trigger, h.cancelled⟩
  | cancelled => exact h
  | now => exact h
  | sleep _ => exact ⟨h.disruptions, h.trigger, h.cancelled⟩

section

variable {α : Type} (d : Talk α)

theorem polls_run (m : Memory) : (m.run d).2.polls = m.polls :=
  Dialogue.run_invariant (I := fun s : Memory => s.polls = m.polls)
    (fun s q hs => (polls_answer s q).trans hs) d rfl

theorem Uncancelled.run (h : m.Uncancelled) : (m.run d).2.Uncancelled :=
  Dialogue.run_invariant (fun _ q hs => hs.answer q) d h

theorem Calm.run (h : m.Calm) : (m.run d).2.Calm :=
  Dialogue.run_invariant (fun _ q hs => hs.answer q) d h

end

/-- A call that goes well on a host goes as well on the calmed host. -/
theorem call_calmed {c : Call} {a : c.Answer} (h : (m.call c).1 = .ok a) :
    m.calmed.call c = (.ok a, (m.call c).2.calmed) := by
  rw [call_eq] at h ⊢
  rw [(calm_calmed m).receive_eq]
  split at h
  · exact absurd h (by simp)
  · next hstruck =>
    rw [call_eq, hstruck]
    cases hs : m.tables.serve m.polls c with
    | error e => rw [hs] at h; exact absurd h (by simp)
    | ok p =>
      rw [hs] at h
      obtain rfl := Except.ok.inj h
      simp [hs, calmed, receive]

end Memory

end VirtualTopology
