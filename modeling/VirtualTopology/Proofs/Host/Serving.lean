import VirtualTopology.Host.Memory
import VirtualTopology.Proofs.Dialogue

/-!
# What calls do to tables

A call changes nothing but the resource that it goes to (`Tables.get?_serve_of_spares`), and so a dialogue
that calls for other resources leaves a resource as it is (`Memory.get?_run_of_spares`).
-/

namespace VirtualTopology

/-! ### What calls are about -/

namespace Call

/-- Whether a call leaves the tables as they are, whatever they are. To look whether a domain runs does
not: a domain that has been asked to shut down counts the looks. -/
def isStill : Call → Bool
  | list _ | read .. | isAutostart .. | listVolumes _ | readVolume .. => true
  | _ => false

/-- Whether a call goes to a resource. -/
def IsAbout (k : DefinedKind) (name : String) (c : Call) : Prop := c.target = (k, some name)

/-- Whether a call leaves a resource as it is, whatever the tables are. -/
def Spares (k : DefinedKind) (name : String) (c : Call) : Prop :=
  c.target = (k, some name) → c.isStill = true

theorem IsAbout.spares {k l : DefinedKind} {name other : String} {c : Call} (h : c.IsAbout k name)
    (hne : (k, name) ≠ (l, other)) : c.Spares l other := by
  intro ht
  rw [h] at ht
  obtain ⟨rfl, hn⟩ := Prod.mk.inj ht
  exact absurd (by rw [Option.some.inj hn]) hne

theorem spares_of_isStill {k : DefinedKind} {name : String} {c : Call} (h : c.isStill = true) :
    c.Spares k name := fun _ => h

end Call

/-- Whether a query is no call but one that is allowed. -/
def Query.CallsOnly (p : Call → Prop) : Query → Prop
  | .call c => p c
  | _ => True

theorem Query.CallsOnly.mono {p p' : Call → Prop} {q : Query} (h : q.CallsOnly p)
    (hp : ∀ c, p c → p' c) : q.CallsOnly p' := by
  cases q with
  | call c => exact hp c h
  | cancelled => trivial
  | now => trivial
  | sleep _ => trivial

/-! ### Tables as functions of names -/

namespace Table

variable {α : Type}

@[simp] theorem put_put (t : Table α) (name : String) (a b : α) :
    (t.put name a).put name b = t.put name b := by
  induction t with
  | nil => simp [put]
  | cons e t ih =>
    obtain ⟨n, c⟩ := e
    by_cases h : n = name
    · simp [put, h]
    · simp [put, h, ih]

/-- To put what is there already changes nothing. -/
theorem put_self {t : Table α} {name : String} {a : α} (h : t.get? name = some a) :
    t.put name a = t := by
  induction t with
  | nil => exact absurd h (by simp)
  | cons e t ih =>
    obtain ⟨n, c⟩ := e
    rw [get?_cons] at h
    by_cases hn : n = name
    · obtain rfl : c = a := by simpa [hn] using h
      simp [put, hn]
    · have ht := ih (by simpa [hn] using h)
      simp [put, hn, ht]

theorem mem_names_iff {t : Table α} {name : String} :
    name ∈ t.names ↔ (t.get? name).isSome = true := by
  induction t with
  | nil => simp [names]
  | cons e t ih =>
    obtain ⟨n, c⟩ := e
    rw [get?_cons]
    by_cases hn : n = name
    · simp [names, hn]
    · simp only [names, List.map_cons, List.mem_cons, Ne.symm hn, false_or, hn, if_false]
      exact ih

end Table

/-! ### Entries -/

namespace StoredResource

variable (r : StoredResource)

@[simp] theorem document_seen : r.seen.document = r.document := by
  unfold seen
  split <;> rfl

@[simp] theorem autostart_seen : r.seen.autostart = r.autostart := by
  unfold seen
  split <;> rfl

@[simp] theorem volumes_seen : r.seen.volumes = r.volumes := by
  unfold seen
  split <;> rfl

/-- A look finds a resource on unless its time is over. -/
theorem active_seen : r.seen.active = (r.active && r.closing != some 0) := by
  unfold seen
  split
  · next h => simp [h]
  · next h => simp [h, stopped]
  · next n h => simp [h]

theorem seen_eq_self {r : StoredResource} (h : r.closing = none) : r.seen = r := by
  unfold seen
  rw [h]

@[simp] theorem started_seen : r.seen.started = r.started := by
  unfold seen
  split <;> rfl

@[simp] theorem started_stopped : r.stopped.started = r.started := rfl

@[simp] theorem started_asked (polls : Int) : (r.asked polls).started = r.started := by
  unfold asked
  split
  · rfl
  · split <;> rfl

end StoredResource

namespace Tables

variable {t : Tables} {k l : DefinedKind} {name other : String} {r s : StoredResource}

@[simp] theorem put_put : (t.put k name r).put k name s = t.put k name s := by
  cases k <;> simp [put, withTable, table]

theorem put_self (h : t.get? k name = some r) : t.put k name r = t := by
  have htable : (t.table k).put name r = t.table k := Table.put_self h
  rw [put, htable]
  cases k <;> rfl

@[simp] theorem get?_put_self : (t.put k name r).get? k name = some r := by simp [get?_put]

theorem get?_put_of_ne (h : (k, name) ≠ (l, other)) :
    (t.put k name r).get? l other = t.get? l other := by
  rw [get?_put, if_neg fun ⟨hk, hn⟩ => h (by rw [hk, hn])]

theorem get?_erase_of_ne (h : (k, name) ≠ (l, other)) :
    (t.erase k name).get? l other = t.get? l other := by
  rw [get?_erase, if_neg fun ⟨hk, hn⟩ => h (by rw [hk, hn])]

theorem mem_sortedNames_iff : name ∈ t.sortedNames k ↔ (t.get? k name).isSome = true := by
  rw [sortedNames, List.mem_mergeSort]
  exact Table.mem_names_iff

@[simp] theorem find_eq_ok (h : t.get? k name = some r) : t.find k name = .ok r := by
  simp [find, h]

theorem get?_of_find (h : t.find k name = .ok r) : t.get? k name = some r := by
  unfold find at h
  split at h
  · next s hs => rw [hs, Except.ok.inj h]
  · exact absurd h (by simp)

/-- A step that went well, and the one behind it. -/
theorem exists_of_bind_eq_ok {ε α β : Type} {x : Except ε α} {f : α → Except ε β} {b : β}
    (h : x >>= f = .ok b) : ∃ a, x = .ok a ∧ f a = .ok b := by
  cases x with
  | error e => exact absurd h (by simp [bind, Except.bind])
  | ok a => exact ⟨a, rfl, h⟩

theorem get?_of_activePool (h : t.activePool name = .ok r) :
    t.get? .pool name = some r ∧ r.active = true := by
  obtain ⟨s, hs, h⟩ := exists_of_bind_eq_ok h
  split at h
  · next hactive =>
    obtain rfl := Except.ok.inj h
    exact ⟨get?_of_find hs, hactive⟩
  · exact absurd h (by simp [throw, throwThe, MonadExceptOf.throw])

theorem activePool_eq_ok (h : t.get? .pool name = some r) (ha : r.active = true) :
    t.activePool name = .ok r := by
  rw [activePool, find_eq_ok h]
  simp [bind, Except.bind, ha, pure, Except.pure]

/-- **What a call can do**: nothing, or put or take out the resource that it goes to. -/
theorem serve_cases {polls : Table Int} {c : Call} {a : c.Answer} {t' : Tables}
    (h : t.serve polls c = .ok (a, t')) :
    t' = t ∨ c.isStill = false ∧ ∃ k name, c.target = (k, some name) ∧
      ((∃ r, t' = t.put k name r) ∨ t' = t.erase k name) := by
  -- a call that is answered has found what it looked for; what is left of it is the entry that it puts or takes out
  cases c with
  | list l =>
    obtain ⟨-, rfl⟩ := Prod.mk.inj (Except.ok.inj h)
    exact .inl rfl
  | read l n =>
    obtain ⟨s, -, h⟩ := exists_of_bind_eq_ok h
    obtain ⟨-, rfl⟩ := Prod.mk.inj (Except.ok.inj h)
    exact .inl rfl
  | define l document =>
    obtain ⟨-, rfl⟩ := Prod.mk.inj (Except.ok.inj h)
    exact .inr ⟨rfl, l, _, rfl, .inl ⟨_, rfl⟩⟩
  | undefine l n =>
    obtain ⟨s, -, h⟩ := exists_of_bind_eq_ok h
    obtain ⟨-, rfl⟩ := Prod.mk.inj (Except.ok.inj h)
    exact .inr ⟨rfl, l, n, rfl, .inr rfl⟩
  | start l n =>
    obtain ⟨s, -, h⟩ := exists_of_bind_eq_ok h
    obtain ⟨-, rfl⟩ := Prod.mk.inj (Except.ok.inj h)
    exact .inr ⟨rfl, l, n, rfl, .inl ⟨_, rfl⟩⟩
  | stop l n force =>
    obtain ⟨s, -, h⟩ := exists_of_bind_eq_ok h
    obtain ⟨-, rfl⟩ := Prod.mk.inj (Except.ok.inj h)
    exact .inr ⟨rfl, l, n, rfl, .inl ⟨_, rfl⟩⟩
  | isActive l n =>
    obtain ⟨s, -, h⟩ := exists_of_bind_eq_ok h
    obtain ⟨-, rfl⟩ := Prod.mk.inj (Except.ok.inj h)
    exact .inr ⟨rfl, l, n, rfl, .inl ⟨_, rfl⟩⟩
  | isAutostart l n =>
    obtain ⟨s, -, h⟩ := exists_of_bind_eq_ok h
    obtain ⟨-, rfl⟩ := Prod.mk.inj (Except.ok.inj h)
    exact .inl rfl
  | setAutostart l n autostart =>
    obtain ⟨s, -, h⟩ := exists_of_bind_eq_ok h
    obtain ⟨-, rfl⟩ := Prod.mk.inj (Except.ok.inj h)
    exact .inr ⟨rfl, l, n, rfl, .inl ⟨_, rfl⟩⟩
  | listVolumes pool =>
    obtain ⟨s, -, h⟩ := exists_of_bind_eq_ok h
    obtain ⟨-, rfl⟩ := Prod.mk.inj (Except.ok.inj h)
    exact .inl rfl
  | readVolume pool n =>
    obtain ⟨s, -, h⟩ := exists_of_bind_eq_ok h
    obtain ⟨v, -, h⟩ := exists_of_bind_eq_ok h
    obtain ⟨-, rfl⟩ := Prod.mk.inj (Except.ok.inj h)
    exact .inl rfl
  | createVolume pool document =>
    obtain ⟨s, -, h⟩ := exists_of_bind_eq_ok h
    split at h
    · exact absurd h (by simp [throw, throwThe, MonadExceptOf.throw])
    · obtain ⟨-, rfl⟩ := Prod.mk.inj (Except.ok.inj h)
      exact .inr ⟨rfl, .pool, pool, rfl, .inl ⟨_, rfl⟩⟩
  | deleteVolume pool n =>
    obtain ⟨s, -, h⟩ := exists_of_bind_eq_ok h
    obtain ⟨v, -, h⟩ := exists_of_bind_eq_ok h
    obtain ⟨-, rfl⟩ := Prod.mk.inj (Except.ok.inj h)
    exact .inr ⟨rfl, .pool, pool, rfl, .inl ⟨_, rfl⟩⟩
  | resizeVolume pool n bytes =>
    obtain ⟨s, -, h⟩ := exists_of_bind_eq_ok h
    obtain ⟨v, -, h⟩ := exists_of_bind_eq_ok h
    obtain ⟨-, rfl⟩ := Prod.mk.inj (Except.ok.inj h)
    exact .inr ⟨rfl, .pool, pool, rfl, .inl ⟨_, rfl⟩⟩

/-- A still call leaves the tables as they are. -/
theorem eq_of_isStill {polls : Table Int} {c : Call} {a : c.Answer} {t' : Tables}
    (h : t.serve polls c = .ok (a, t')) (hc : c.isStill = true) : t' = t := by
  rcases serve_cases h with rfl | ⟨hnot, -⟩
  · rfl
  · exact absurd hc (by simp [hnot])

/-- **A call changes nothing but the resource that it goes to.** -/
theorem get?_serve_of_spares {polls : Table Int} {c : Call} {a : c.Answer} {t' : Tables}
    (h : t.serve polls c = .ok (a, t')) (hc : c.Spares k name) : t'.get? k name = t.get? k name := by
  rcases serve_cases h with rfl | ⟨hnot, l, n, ht, hput⟩
  · rfl
  · have hother : (l, n) ≠ (k, name) := by
      rintro he
      obtain ⟨rfl, rfl⟩ := Prod.mk.inj he
      exact absurd (hc ht) (by simp [hnot])
    rcases hput with ⟨r, rfl⟩ | rfl
    · exact get?_put_of_ne hother
    · exact get?_erase_of_ne hother

/-- A call that goes to another kind, or is still, leaves the table of a kind as it is. -/
theorem table_serve_of_ne {polls : Table Int} {c : Call} {a : c.Answer} {t' : Tables}
    (h : t.serve polls c = .ok (a, t')) (hc : c.target.1 = k → c.isStill = true) :
    t'.table k = t.table k := by
  rcases serve_cases h with rfl | ⟨hnot, l, n, ht, hput⟩
  · rfl
  · have hother : l ≠ k := by
      rintro rfl
      exact absurd (hc (by rw [ht])) (by simp [hnot])
    rcases hput with ⟨r, rfl⟩ | rfl
    · simp [put, hother]
    · simp [erase, hother]

end Tables

/-! ### What a run leaves as it is -/

namespace Memory

variable {m : Memory} {k : DefinedKind} {name : String}

/-- A call as it is answered: struck, refused or served. -/
theorem call_eq (m : Memory) (c : Call) :
    m.call c =
      match (m.receive c).1 with
      | some e => (.error e, (m.receive c).2)
      | none =>
          match m.tables.serve m.polls c with
          | .ok (a, tables) => (.ok a, { (m.receive c).2 with tables })
          | .error e => (.error e, (m.receive c).2) := by
  unfold call
  split
  · next e m' heq => rw [heq]
  · next m' heq =>
    have htables : m'.tables = m.tables := congrArg (fun p => p.2.tables) heq.symm
    have hpolls : m'.polls = m.polls := congrArg (fun p => p.2.polls) heq.symm
    have hserve : m'.tables.serve m'.polls c = m.tables.serve m.polls c := by rw [htables, hpolls]
    cases hs : m.tables.serve m.polls c with
    | ok p => simp only [hserve, hs, heq]
    | error e => simp only [hserve, hs, heq]

/-- After a call the tables are as before, or as the call was served. -/
theorem tables_call (m : Memory) (c : Call) :
    (m.call c).2.tables = m.tables ∨
      ∃ a, m.tables.serve m.polls c = .ok (a, (m.call c).2.tables) := by
  rw [call_eq]
  split
  · exact .inl rfl
  · split
    · next a tables hserve => exact .inr ⟨a, hserve⟩
    · exact .inl rfl

/-- A call that goes well was served. -/
theorem serve_eq_of_call_eq_ok {c : Call} {a : c.Answer} (h : (m.call c).1 = .ok a) :
    m.tables.serve m.polls c = .ok (a, (m.call c).2.tables) := by
  rw [call_eq] at h ⊢
  split at h
  · exact absurd h (by simp)
  · cases hs : m.tables.serve m.polls c with
    | error e =>
      rw [hs] at h
      exact absurd h (by simp)
    | ok p =>
      rw [hs] at h
      obtain rfl := Except.ok.inj h
      rfl

theorem get?_answer_of_spares {q : Query} (h : q.CallsOnly (Call.Spares k name)) :
    (m.answer q).2.tables.get? k name = m.tables.get? k name := by
  cases q with
  | call c =>
    rcases tables_call m c with heq | ⟨a, ha⟩
    · exact congrArg (·.get? k name) heq
    · exact Tables.get?_serve_of_spares ha h
  | cancelled => rfl
  | now => rfl
  | sleep _ => rfl

/-! ### Runs -/

section

variable {α β : Type}

/-- What a dialogue comes to on a host, and the host afterwards. -/
def run (m : Memory) (d : Talk α) : α × Memory := Dialogue.run answer d m

@[simp] theorem run_pure (m : Memory) (a : α) : m.run (pure a) = (a, m) := rfl

@[simp] theorem run_bind (m : Memory) (d : Talk α) (f : α → Talk β) :
    m.run (d >>= f) = (m.run d).2.run (f (m.run d).1) := Dialogue.run_bind answer d f m

@[simp] theorem run_map (m : Memory) (d : Talk α) (f : α → β) :
    m.run (f <$> d) = (f (m.run d).1, (m.run d).2) := by
  rw [← bind_pure_comp, run_bind, run_pure]

@[simp] theorem run_ask (m : Memory) (q : Query) (next : q.Reply → Talk α) :
    m.run (.ask q next) = (m.answer q).2.run (next (m.answer q).1) := rfl

@[simp] theorem run_done (m : Memory) (a : α) : m.run (.done a) = (a, m) := rfl

@[simp] theorem run_query (m : Memory) (q : Query) : m.run (Dialogue.query q) = m.answer q := rfl

@[simp] theorem run_call (m : Memory) (c : Call) : m.run c.ask = m.call c := rfl

/-- What every allowed query preserves, a confined dialogue preserves. -/
theorem run_invariant {d : Talk α} {p : Query → Prop} {e : α → Prop} (h : d.Confined p e)
    {I : Memory → Prop} (hstep : ∀ m q, p q → I m → I (m.answer q).2) {m : Memory} (hm : I m) :
    I (m.run d).2 := h.run_invariant hstep hm

/-- **A dialogue about other resources leaves a resource as it is.** -/
theorem get?_run_of_spares {d : Talk α} {e : α → Prop}
    (h : d.Confined (Query.CallsOnly (Call.Spares k name)) e) (m : Memory) :
    (m.run d).2.tables.get? k name = m.tables.get? k name :=
  run_invariant h (I := fun s => s.tables.get? k name = m.tables.get? k name)
    (fun _ _ hq hs => (get?_answer_of_spares hq).trans hs) rfl

/-- **A dialogue about other kinds leaves the table of a kind as it is.** -/
theorem table_run_of_ne {d : Talk α} {e : α → Prop}
    (h : d.Confined (Query.CallsOnly fun c => c.target.1 = k → c.isStill = true) e) (m : Memory) :
    (m.run d).2.tables.table k = m.tables.table k := by
  refine run_invariant h (I := fun s => s.tables.table k = m.tables.table k) (fun s q hq hs => ?_) rfl
  cases q with
  | call c =>
    rcases tables_call s c with heq | ⟨a, ha⟩
    · exact (congrArg (·.table k) heq).trans hs
    · exact (Tables.table_serve_of_ne ha hq).trans hs
  | cancelled => exact hs
  | now => exact hs
  | sleep _ => exact hs

end

end Memory

end VirtualTopology
