import VirtualTopology.Proofs.Host.Calm

/-!
# Work on one resource

On a calm host the end of a dialogue depends on the tables and on the guests only (`Talk.Ends`), and the
work on a resource that is there depends on its entry only (`Work.Brings`): it takes the entry to another
one and leaves the rest of the tables as it is. The rules for both follow the program: one for a value,
one for a sequence, one for each call.
-/

namespace VirtualTopology

/-! ### Dialogues on calm hosts -/

namespace Talk

variable {α β : Type} {polls : Table Int} {t u : Tables} {a : α}

/-- What holds of the value and of the tables at the end of a dialogue, on every calm host with given
tables and guests. -/
def Ends (polls : Table Int) (t : Tables) (d : Talk α) (Q : α → Tables → Prop) : Prop :=
  ∀ m : Memory, m.Calm → m.polls = polls → m.tables = t → Q (m.run d).1 (m.run d).2.tables

/-- The value and the tables at the end of a dialogue on calm hosts. -/
abbrev Yields (polls : Table Int) (t : Tables) (d : Talk α) (a : α) (u : Tables) : Prop :=
  Ends polls t d fun b v => b = a ∧ v = u

theorem Ends.mono {d : Talk α} {Q R : α → Tables → Prop} (h : Ends polls t d Q)
    (hQ : ∀ a u, Q a u → R a u) : Ends polls t d R :=
  fun m hm hp ht => hQ _ _ (h m hm hp ht)

theorem Ends.pure {Q : α → Tables → Prop} (h : Q a t) : Ends polls t (Pure.pure a) Q := by
  rintro m - - rfl
  exact h

theorem Ends.bind {d : Talk α} {f : α → Talk β} {Q : α → Tables → Prop} {R : β → Tables → Prop}
    (hd : Ends polls t d Q) (hf : ∀ a u, Q a u → Ends polls u (f a) R) :
    Ends polls t (d >>= f) R := by
  intro m hm hp ht
  rw [Memory.run_bind]
  exact hf _ _ (hd m hm hp ht) _ (hm.run d) ((Memory.polls_run d m).trans hp) rfl

/-- A dialogue behind one whose end is known. -/
theorem Yields.bind {d : Talk α} {f : α → Talk β} {R : β → Tables → Prop}
    (hd : Yields polls t d a u) (hf : Ends polls u (f a) R) : Ends polls t (d >>= f) R :=
  Ends.bind hd fun _ _ ⟨ha, hu⟩ => by rw [ha, hu]; exact hf

/-- A call is served if the tables admit it. -/
theorem Yields.call {c : Call} {a : c.Answer} (h : t.serve polls c = .ok (a, u)) :
    Yields polls t c.ask (.ok a) u := by
  rintro m hm rfl rfl
  rw [Memory.run_call, hm.call_eq_of_serve h]
  exact ⟨rfl, rfl⟩

/-- What time it is changes nothing. -/
theorem Ends.now : Ends polls t (Dialogue.query Query.now) fun _ u => u = t := by
  rintro m - - rfl
  rfl

/-- Neither does sleeping. -/
theorem Ends.sleep (seconds : Binary64) :
    Ends polls t (Dialogue.query (Query.sleep seconds)) fun _ u => u = t := by
  rintro m - - rfl
  rfl

/-! ### Work on calm hosts -/

variable {w : Work α} {f : α → Work β} {e : Trouble}

theorem Ends.andThen {Q : Except Trouble α → Tables → Prop} {R : Except Trouble β → Tables → Prop}
    (hw : Ends polls t w.run Q) (hok : ∀ a u, Q (.ok a) u → Ends polls u (f a).run R)
    (herror : ∀ e u, Q (.error e) u → R (.error e) u) : Ends polls t (w >>= f).run R := by
  rw [ExceptT.run_bind]
  refine Ends.bind hw fun a u hQ => ?_
  cases a with
  | ok a => exact hok a u hQ
  | error e => exact Ends.pure (herror e u hQ)

/-- Work behind work that ends well. -/
theorem Yields.andThen {R : Except Trouble β → Tables → Prop} (hw : Yields polls t w.run (.ok a) u)
    (hf : Ends polls u (f a).run R) : Ends polls t (w >>= f).run R :=
  Ends.andThen hw (fun _ _ ⟨ha, hu⟩ => by rw [Except.ok.inj ha, hu]; exact hf)
    fun _ _ ⟨ha, _⟩ => absurd ha (by simp)

/-- A dialogue as part of work. -/
theorem Ends.lift {d : Talk α} {Q : Except Trouble α → Tables → Prop}
    (h : Ends polls t d fun a u => Q (.ok a) u) : Ends polls t (liftM d : Work α).run Q := by
  have hrun : (liftM d : Work α).run = d >>= fun a => Pure.pure (.ok a) :=
    (bind_pure_comp Except.ok d).symm
  rw [hrun]
  exact Ends.bind h fun a u hQ => Ends.pure hQ

theorem Ends.attempt {op : Operation} {c : Call} {Q : Except HostError c.Answer → Tables → Prop}
    {R : Except Trouble c.Answer → Tables → Prop} (h : Ends polls t c.ask Q)
    (hok : ∀ a u, Q (.ok a) u → R (.ok a) u)
    (herror : ∀ e u, Q (.error e) u → R (.error (.failed op e.message e.failureKind)) u) :
    Ends polls t (Work.attempt op c).run R := by
  have hlift : Ends polls t (liftM c.ask : Work _).run fun a u => ∃ b, a = .ok b ∧ Q b u :=
    Ends.lift (h.mono fun b u hQ => ⟨b, rfl, hQ⟩)
  refine Ends.andThen hlift ?_ fun e u ⟨b, he, _⟩ => absurd he (by simp)
  rintro b u ⟨b', hb, hQ⟩
  obtain rfl := Except.ok.inj hb
  cases b with
  | ok a => exact Ends.pure (hok a u hQ)
  | error e => exact Ends.pure (herror e u hQ)

theorem Yields.attempt {op : Operation} {c : Call} {a : c.Answer}
    (h : t.serve polls c = .ok (a, u)) : Yields polls t (Work.attempt op c).run (.ok a) u :=
  Ends.attempt (Yields.call h) (fun _ _ ⟨ha, hu⟩ => ⟨by rw [Except.ok.inj ha], hu⟩)
    fun _ _ ⟨he, _⟩ => absurd he (by simp)

theorem Yields.change {dry : Bool} {op : Operation} {c : Call} {a : c.Answer}
    (h : t.serve polls c = .ok (a, u)) :
    Yields polls t (Work.change dry op c).run (.ok ()) (if dry then t else u) := by
  cases dry with
  | true => exact Ends.pure ⟨rfl, rfl⟩
  | false => exact Yields.andThen (Yields.attempt h) (Ends.pure ⟨rfl, rfl⟩)

end Talk

/-! ### Supervised work -/

/-- How supervised work ends, unless the pass has been cancelled. -/
def Ending.of {α : Type} (kind : ResourceKind) (name : String) : Except Trouble α → Ending α
  | .ok a => .finished a
  | .error (.failed op reason fk) => .failed (.stuck kind name op reason fk)
  | .error (.unwritable why) => .unwritable why

/-- Unless the pass has been cancelled, work is supervised by running it. -/
theorem Memory.Uncancelled.run_supervise {α : Type} {m : Memory} (h : m.Uncancelled)
    (kind : ResourceKind) (name : String) (w : Work α) :
    m.run (supervise kind name w) = (.of kind name (m.run w.run).1, (m.run w.run).2) := by
  have hanswer : m.answer .cancelled = (false, m) := by
    rw [Memory.answer, h.cancelled]
  rw [supervise, run_bind, run_query, hanswer]
  simp only [Bool.false_eq_true, if_false, run_bind]
  rcases (m.run w.run).1 with (_ | _) | _ <;> rfl

/-! ### Work on one entry -/

namespace Work

variable {α β : Type} {polls : Table Int} {k : DefinedKind} {name : String}
  {r r' : StoredResource} {w : Work α} {f : α → Work β} {a : α} {e : Trouble}

/-- What holds of the end of work and of the entry of a resource afterwards, if the resource is there
and nothing disturbs the work. Nothing else is changed. -/
def Brings (polls : Table Int) (k : DefinedKind) (name : String) (r : StoredResource) (w : Work α)
    (Q : Except Trouble α → StoredResource → Prop) : Prop :=
  ∀ t : Tables, t.get? k name = some r →
    Talk.Ends polls t w.run fun a u => ∃ r', u = t.put k name r' ∧ Q a r'

/-- The end of work on a resource that is there, and its entry afterwards. -/
abbrev BringsTo (polls : Table Int) (k : DefinedKind) (name : String) (r : StoredResource)
    (w : Work α) (a : Except Trouble α) (r' : StoredResource) : Prop :=
  Brings polls k name r w fun b s => b = a ∧ s = r'

theorem Brings.mono {Q R : Except Trouble α → StoredResource → Prop}
    (h : Brings polls k name r w Q) (hQ : ∀ a s, Q a s → R a s) : Brings polls k name r w R :=
  fun t ht => (h t ht).mono fun a _ ⟨s, hu, hs⟩ => ⟨s, hu, hQ a s hs⟩

theorem Brings.of_ends {Q : Except Trouble α → StoredResource → Prop}
    (h : ∀ t : Tables, Talk.Ends polls t w.run fun a u => u = t ∧ Q a r) :
    Brings polls k name r w Q :=
  fun t ht => (h t).mono fun _ _ ⟨hu, ha⟩ => ⟨r, by rw [hu, Tables.put_self ht], ha⟩

theorem Brings.pure {Q : Except Trouble α → StoredResource → Prop} (h : Q (.ok a) r) :
    Brings polls k name r (Pure.pure a) Q :=
  .of_ends fun _ => Talk.Ends.pure ⟨rfl, h⟩

theorem Brings.throw {Q : Except Trouble α → StoredResource → Prop} (h : Q (.error e) r) :
    Brings polls k name r (MonadExcept.throw e) Q :=
  .of_ends fun _ => Talk.Ends.pure ⟨rfl, h⟩

theorem Brings.bind {Q : Except Trouble α → StoredResource → Prop}
    {R : Except Trouble β → StoredResource → Prop} (hw : Brings polls k name r w Q)
    (hok : ∀ a s, Q (.ok a) s → Brings polls k name s (f a) R)
    (herror : ∀ e s, Q (.error e) s → R (.error e) s) : Brings polls k name r (w >>= f) R := by
  intro t ht
  refine Talk.Ends.andThen (hw t ht) ?_ ?_
  · rintro a _ ⟨s, rfl, hQ⟩
    refine (hok a s hQ _ Tables.get?_put_self).mono ?_
    rintro b _ ⟨s', rfl, hR⟩
    exact ⟨s', Tables.put_put, hR⟩
  · rintro e _ ⟨s, rfl, hQ⟩
    exact ⟨s, rfl, herror e s hQ⟩

/-- Work behind work that ends well. -/
theorem BringsTo.bind {R : Except Trouble β → StoredResource → Prop}
    (hw : BringsTo polls k name r w (.ok a) r') (hf : Brings polls k name r' (f a) R) :
    Brings polls k name r (w >>= f) R :=
  Brings.bind hw (fun _ _ ⟨ha, hs⟩ => by rw [Except.ok.inj ha, hs]; exact hf)
    fun _ _ ⟨ha, _⟩ => absurd ha (by simp)

/-- Work behind work that fails is left out. -/
theorem BringsTo.stop (hw : BringsTo polls k name r w (.error e) r') :
    BringsTo polls k name r (w >>= f) (.error e) r' :=
  Brings.bind hw (fun _ _ ⟨ha, _⟩ => absurd ha (by simp))
    fun _ _ ⟨he, hs⟩ => ⟨by rw [Except.error.inj he], hs⟩

/-- A dialogue that changes nothing, as part of work. -/
theorem Brings.lift {d : Talk α} (h : ∀ t : Tables, Talk.Ends polls t d fun _ u => u = t) :
    Brings polls k name r (liftM d : Work α) fun b s => (∃ a, b = .ok a) ∧ s = r :=
  .of_ends fun t => Talk.Ends.lift ((h t).mono fun a _ hu => ⟨hu, ⟨a, rfl⟩, rfl⟩)

/-- A step that is left out if there is no need for it. -/
theorem BringsTo.bindIf {w : Work Unit} {f : Unit → Work β}
    {R : Except Trouble β → StoredResource → Prop} {b : Bool}
    (hw : BringsTo polls k name r w (.ok ()) r')
    (hf : Brings polls k name (if b then r' else r) (f ()) R) :
    Brings polls k name r (if b = true then w >>= f else f ()) R := by
  cases b with
  | true => exact BringsTo.bind hw hf
  | false => exact hf

/-! ### The calls about an entry -/

/-- A call that the tables admit whenever the resource is there. -/
def Admits (polls : Table Int) (k : DefinedKind) (name : String) (r : StoredResource) (c : Call)
    (a : c.Answer) (r' : StoredResource) : Prop :=
  ∀ t : Tables, t.get? k name = some r → t.serve polls c = .ok (a, t.put k name r')

/-- A call that leaves the entry as it is leaves the tables as they are. -/
theorem Admits.serve_self {c : Call} {a : c.Answer} {t : Tables} (h : Admits polls k name r c a r)
    (hr : t.get? k name = some r) : t.serve polls c = .ok (a, t) := by
  rw [h t hr, Tables.put_self hr]

theorem Admits.attempt {op : Operation} {c : Call} {a : c.Answer} (h : Admits polls k name r c a r') :
    BringsTo polls k name r (Work.attempt op c) (.ok a) r' :=
  fun t ht => (Talk.Yields.attempt (h t ht)).mono fun _ _ ⟨ha, hu⟩ => ⟨r', hu, ha, rfl⟩

theorem Admits.change {op : Operation} {c : Call} {a : c.Answer} (h : Admits polls k name r c a r')
    (dry : Bool) : BringsTo polls k name r (Work.change dry op c) (.ok ()) (if dry then r else r') := by
  cases dry with
  | true => exact Brings.pure ⟨rfl, rfl⟩
  | false => exact BringsTo.bind h.attempt (Brings.pure ⟨rfl, rfl⟩)

theorem admits_read : Admits polls k name r (.read k name) r.document r := by
  intro t ht
  rw [Tables.put_self ht, Tables.serve, Tables.find_eq_ok ht]
  rfl

theorem admits_isActive : Admits polls k name r (.isActive k name) r.seen.active r.seen := by
  intro t ht
  rw [Tables.serve, Tables.find_eq_ok ht]
  rfl

theorem admits_isAutostart : Admits polls k name r (.isAutostart k name) r.autostart r := by
  intro t ht
  rw [Tables.put_self ht, Tables.serve, Tables.find_eq_ok ht]
  rfl

theorem admits_define {document : String} (h : nameInDocument document = name) :
    Admits polls k name r (.define k document) () { r with document } := by
  intro t ht
  rw [Tables.serve, h, Tables.define, ht]
  rfl

theorem admits_start : Admits polls k name r (.start k name) () r.started := by
  intro t ht
  rw [Tables.serve, Tables.find_eq_ok ht]
  rfl

/-- A network or a pool is stopped at once. -/
theorem admits_stop (hk : k ≠ .domain) (force : Bool) :
    Admits polls k name r (.stop k name force) () r.stopped := by
  intro t ht
  rw [Tables.serve, Tables.find_eq_ok ht]
  cases k with
  | network => rfl
  | pool => rfl
  | domain => exact absurd rfl hk

/-- A domain is asked to shut down. -/
theorem admits_ask :
    Admits polls .domain name r (.stop .domain name false) ()
      (r.asked ((polls.get? name).getD 0)) := by
  intro t ht
  rw [Tables.serve, Tables.find_eq_ok ht]
  rfl

/-- A domain is turned off by force. -/
theorem admits_force : Admits polls .domain name r (.stop .domain name true) () r.stopped := by
  intro t ht
  rw [Tables.serve, Tables.find_eq_ok ht]
  rfl

theorem admits_setAutostart (autostart : Bool) :
    Admits polls k name r (.setAutostart k name autostart) () { r with autostart } := by
  intro t ht
  rw [Tables.serve, Tables.find_eq_ok ht]
  rfl

end Work

end VirtualTopology
