import VirtualTopology.Proofs.Pass.Work

/-!
# What is left whatever fails

On a disrupted host any call can fail, and then it leaves the tables as they are. `Talk.Endures` is the judgement that
something holds at the end of a dialogue, whatever becomes of its calls. `struck` tells whether calls can be struck at
all: where they cannot, only those fail that the tables do not admit. So one judgement speaks of disrupted hosts and of
calm ones, and what it says can depend on `struck`. The time may be any time; the pass is not cancelled.

It is a weakest precondition over the tables alone. Its rules follow the program, and `Endures.run` leads back to runs.
Work on a resource that is there leaves another entry and nothing else behind (`Work.Leaves`), and a call about it is a
step that is made or is not made (`Work.Steps`).
-/

namespace VirtualTopology

open Dialogue

/-- A call that fails leaves the tables as they are. -/
theorem Memory.tables_of_call_eq_error {m : Memory} {c : Call} {e : HostError} (h : (m.call c).1 = .error e) :
    (m.call c).2.tables = m.tables := by
  rw [call_eq] at h ⊢
  split
  · rfl
  · next hreceived =>
    rw [hreceived] at h
    split
    · next a u hserve =>
      rw [hserve] at h
      exact absurd h (by simp)
    · rfl

/-- On a calm host a call fails only if the tables do not admit it. -/
theorem Memory.Calm.serve_eq_of_call_eq_error {m : Memory} (hm : m.Calm) {c : Call} {e : HostError}
    (h : (m.call c).1 = .error e) : m.tables.serve m.polls c = .error e := by
  cases hserve : m.tables.serve m.polls c with
  | ok x =>
    rw [hm.call_eq_of_serve (a := x.1) (t := x.2) hserve] at h
    exact absurd h (by simp)
  | error e' =>
    rw [hm.call_eq_of_refused hserve] at h
    rw [Except.error.inj h]

/-- Whether work ends early with a failure of the resource. -/
def Trouble.IsFailure {α : Type} (a : Except Trouble α) : Prop := ∃ op reason fk, a = .error (.failed op reason fk)

namespace Talk

variable {α β : Type} {struck : Prop} {polls : Table Int} {t u : Tables}

/-- **What holds at the end of a dialogue, whatever becomes of its calls.** -/
def Endures (struck : Prop) (polls : Table Int) (Q : α → Tables → Prop) : Talk α → Tables → Prop
  | .done a, t => Q a t
  | .ask (.call c) next, t =>
      (∀ a u, t.serve polls c = .ok (a, u) → Endures struck polls Q (next (.ok a)) u) ∧
        ∀ e, struck ∨ t.serve polls c = .error e → Endures struck polls Q (next (.error e)) t
  | .ask .cancelled next, t => Endures struck polls Q (next false) t
  | .ask .now next, t => ∀ time, Endures struck polls Q (next time) t
  | .ask (.sleep _) next, t => Endures struck polls Q (next ()) t

/-! ### Dialogues -/

variable {Q R : α → Tables → Prop} {S : β → Tables → Prop} {d : Talk α} {f : α → Talk β}

theorem Endures.pure {a : α} (h : Q a t) : Endures struck polls Q (Pure.pure a) t := h

theorem Endures.bind (h : Endures struck polls Q d t) (hf : ∀ a u, Q a u → Endures struck polls S (f a) u) :
    Endures struck polls S (d >>= f) t := by
  show Endures struck polls S (Dialogue.bind d f) t
  induction d generalizing t with
  | done a => exact hf a t h
  | ask q next ih =>
    cases q with
    | call c => exact ⟨fun a u hserve => ih _ (h.1 a u hserve), fun e he => ih _ (h.2 e he)⟩
    | cancelled => exact ih false h
    | now => exact fun time => ih time (h time)
    | sleep seconds => exact ih () h

theorem Endures.mono (h : Endures struck polls Q d t) (hQ : ∀ a u, Q a u → R a u) :
    Endures struck polls R d t := by
  induction d generalizing t with
  | done a => exact hQ a t h
  | ask q next ih =>
    cases q with
    | call c => exact ⟨fun a u hserve => ih _ (h.1 a u hserve), fun e he => ih _ (h.2 e he)⟩
    | cancelled => exact ih false h
    | now => exact fun time => ih time (h time)
    | sleep seconds => exact ih () h

/-- A call is served, or it fails: because it is struck, or because the tables do not admit it. -/
theorem Endures.call {c : Call} {Q : Except HostError c.Answer → Tables → Prop}
    (hok : ∀ a u, t.serve polls c = .ok (a, u) → Q (.ok a) u)
    (herror : ∀ e, struck ∨ t.serve polls c = .error e → Q (.error e) t) : Endures struck polls Q c.ask t :=
  ⟨hok, herror⟩

/-- The pass has not been cancelled. -/
theorem Endures.cancelled {Q : Bool → Tables → Prop} (hQ : Q false t) :
    Endures struck polls Q (query Query.cancelled : Talk Bool) t := hQ

/-- **What a dialogue endures holds at the end of each run** that is not cancelled; on calm hosts no call is
struck. -/
theorem Endures.run {m : Memory} (h : Endures struck m.polls Q d m.tables) (hm : m.Uncancelled)
    (hcalm : ¬ struck → m.Calm) : Q (m.run d).1 (m.run d).2.tables := by
  induction d generalizing m with
  | done a => exact h
  | ask q next ih =>
    cases q with
    | call c =>
      -- the host behind the call is as calm as the host before it
      have hm' : (m.answer (.call c)).2.Uncancelled := hm.answer _
      have hcalm' : ¬ struck → (m.answer (.call c)).2.Calm := fun hstruck => (hcalm hstruck).answer _
      have hpolls : (m.answer (.call c)).2.polls = m.polls := Memory.polls_answer m _
      rw [Memory.run_ask]
      cases hreply : (m.call c).1 with
      | ok a =>
        have hfirst : (m.answer (.call c)).1 = .ok a := hreply
        rw [hfirst]
        refine ih (.ok a) ?_ hm' hcalm'
        rw [hpolls]
        exact h.1 a _ (Memory.serve_eq_of_call_eq_ok hreply)
      | error e =>
        have hfirst : (m.answer (.call c)).1 = .error e := hreply
        have htables : (m.answer (.call c)).2.tables = m.tables := Memory.tables_of_call_eq_error hreply
        rw [hfirst]
        refine ih (.error e) ?_ hm' hcalm'
        rw [hpolls, htables]
        refine h.2 e ?_
        by_cases hstruck : struck
        · exact .inl hstruck
        · exact .inr ((hcalm hstruck).serve_eq_of_call_eq_error hreply)
    | cancelled =>
      have hfirst : m.answer .cancelled = (false, m) := by rw [Memory.answer, hm.cancelled]
      rw [Memory.run_ask, hfirst]
      exact ih false h hm hcalm
    | now => exact ih m.clock (h m.clock) hm hcalm
    | sleep seconds =>
      exact ih () (m := (m.answer (.sleep seconds)).2) h (hm.answer _) fun hstruck => (hcalm hstruck).answer _

/-! ### Work -/

variable {v : Work α} {g : α → Work β}

theorem Endures.andThen {Q : Except Trouble α → Tables → Prop} {R : Except Trouble β → Tables → Prop}
    (h : Endures struck polls Q v.run t) (hok : ∀ a u, Q (.ok a) u → Endures struck polls R (g a).run u)
    (herror : ∀ e u, Q (.error e) u → R (.error e) u) : Endures struck polls R (v >>= g).run t := by
  rw [ExceptT.run_bind]
  refine h.bind fun a u hQ => ?_
  cases a with
  | ok a => exact hok a u hQ
  | error e => exact .pure (herror e u hQ)

/-- Work that cannot fail, and work behind it. -/
theorem Endures.andNext {Q : α → Tables → Prop} {R : Except Trouble β → Tables → Prop}
    (h : Endures struck polls (fun a u => ∃ b, a = .ok b ∧ Q b u) v.run t)
    (hok : ∀ a u, Q a u → Endures struck polls R (g a).run u) : Endures struck polls R (v >>= g).run t := by
  refine h.andThen ?_ fun e u ⟨b, hb, _⟩ => absurd hb (by simp)
  rintro a u ⟨b, hb, hQ⟩
  rw [Except.ok.inj hb]
  exact hok b u hQ

/-- What time it is is asked as part of work. -/
theorem Endures.now : Endures struck polls (fun a u => ∃ b, a = .ok b ∧ u = t)
    (liftM (Dialogue.query Query.now : Talk Binary64) : Work _).run t :=
  fun time => ⟨time, rfl, rfl⟩

theorem Endures.sleep (seconds : Binary64) : Endures struck polls (fun a u => ∃ b, a = .ok b ∧ u = t)
    (liftM (Dialogue.query (Query.sleep seconds) : Talk Unit) : Work _).run t :=
  ⟨(), rfl, rfl⟩

/-- A call as part of work is served, or it fails and ends the work. -/
theorem Endures.attempt {op : Operation} {c : Call} {Q : Except Trouble c.Answer → Tables → Prop}
    (hok : ∀ a u, t.serve polls c = .ok (a, u) → Q (.ok a) u)
    (herror : ∀ e, struck ∨ t.serve polls c = .error e → Q (.error (.failed op e.message e.failureKind)) t) :
    Endures struck polls Q (Work.attempt op c).run t :=
  ⟨hok, herror⟩

/-- Work behind a change that the tables admit. -/
theorem Endures.change {op : Operation} {c : Call} {a : c.Answer} {f : Unit → Work β}
    {R : Except Trouble β → Tables → Prop} (hserve : t.serve polls c = .ok (a, u))
    (hstruck : struck → ∀ b, Trouble.IsFailure b → R b t) (hf : Endures struck polls R (f ()).run u) :
    Endures struck polls R (Work.change false op c >>= f).run t := by
  -- a change that is admitted fails only if it is struck, and then nothing has changed
  have hchange : Endures struck polls (fun b v => b = .ok () ∧ v = u ∨ struck ∧ Trouble.IsFailure b ∧ v = t)
      (Work.change false op c).run t := by
    refine Endures.andThen (Endures.attempt
      (Q := fun b v => (∃ a, b = .ok a) ∧ v = u ∨ struck ∧ Trouble.IsFailure b ∧ v = t) ?_ ?_) ?_ ?_
    · intro b v hb
      rw [hserve] at hb
      exact .inl ⟨⟨b, rfl⟩, (Prod.mk.inj (Except.ok.inj hb)).2.symm⟩
    · rintro e (hs | hrefused)
      · exact .inr ⟨hs, ⟨_, _, _, rfl⟩, rfl⟩
      · rw [hserve] at hrefused
        exact absurd hrefused (by simp)
    · rintro b v (⟨-, rfl⟩ | ⟨-, ⟨op', reason, fk, hb⟩, -⟩)
      · exact .pure (.inl ⟨rfl, rfl⟩)
      · exact absurd hb (by simp)
    · rintro e v (⟨⟨b, hb⟩, -⟩ | ⟨hs, ⟨op', reason, fk, hb⟩, rfl⟩)
      · exact absurd hb (by simp)
      · exact .inr ⟨hs, ⟨op', reason, fk, by rw [Except.error.inj hb]⟩, rfl⟩
  refine Endures.andThen hchange ?_ ?_
  · rintro b v (⟨-, rfl⟩ | ⟨-, ⟨op', reason, fk, hb⟩, -⟩)
    · exact hf
    · exact absurd hb (by simp)
  · rintro e v (⟨hb, -⟩ | ⟨hs, ⟨op', reason, fk, hb⟩, rfl⟩)
    · exact absurd hb (by simp)
    · exact hstruck hs _ ⟨op', reason, fk, by rw [Except.error.inj hb]⟩

/-- Supervised work is run. -/
theorem Endures.supervise {kind : ResourceKind} {name : String} {Q : Ending α → Tables → Prop}
    (h : Endures struck polls (fun a u => Q (.of kind name a) u) v.run t) :
    Endures struck polls Q (VirtualTopology.supervise kind name v) t := by
  unfold VirtualTopology.supervise
  show Endures struck polls Q (v.run >>= _) t
  refine h.bind fun a u hQ => ?_
  match a with
  | .ok a => exact hQ
  | .error (.failed op reason fk) => exact hQ
  | .error (.unwritable why) => exact hQ

/-- Tasks one after the other keep what each of them keeps. -/
theorem Endures.gather {I : Tables → Prop} {ts : List (Talk Recorded)}
    (h : ∀ s ∈ ts, ∀ u, I u → Endures struck polls (fun _ u => I u) s u) (ht : I t) :
    Endures struck polls (fun _ u => I u) (VirtualTopology.gather ts) t := by
  induction ts generalizing t with
  | nil => exact .pure ht
  | cons s ts ih =>
    refine Endures.bind (h s (by simp) t ht) fun _ u hu => ?_
    exact Endures.bind (ih (fun s' hs' => h s' (by simp [hs'])) hu) fun _ u hu => .pure hu

-- the rules are used from here on, and no dialogue is opened for its calls
attribute [irreducible] Endures

end Talk

/-! ### Work on one entry -/

namespace Work

open Talk

variable {α β : Type} {struck : Prop} {polls : Table Int} {k : DefinedKind} {name : String}
  {r r' : StoredResource} {w : Work α} {f : α → Work β}

/-- What holds at the end of work and of the entry of a resource that is there, whatever becomes of the calls. Nothing
else is changed. -/
def Leaves (struck : Prop) (polls : Table Int) (k : DefinedKind) (name : String) (r : StoredResource) (w : Work α)
    (Q : Except Trouble α → StoredResource → Prop) : Prop :=
  ∀ t : Tables, t.get? k name = some r →
    Endures struck polls (fun a u => ∃ r', u = t.put k name r' ∧ Q a r') w.run t

theorem Leaves.mono {Q R : Except Trouble α → StoredResource → Prop} (h : Leaves struck polls k name r w Q)
    (hQ : ∀ a s, Q a s → R a s) : Leaves struck polls k name r w R :=
  fun t ht => (h t ht).mono fun a _ ⟨s, hu, hs⟩ => ⟨s, hu, hQ a s hs⟩

theorem Leaves.pure {a : α} {Q : Except Trouble α → StoredResource → Prop} (h : Q (.ok a) r) :
    Leaves struck polls k name r (Pure.pure a) Q :=
  fun _ ht => Endures.pure ⟨r, (Tables.put_self ht).symm, h⟩

theorem Leaves.throw {x : Trouble} {Q : Except Trouble α → StoredResource → Prop} (h : Q (.error x) r) :
    Leaves struck polls k name r (MonadExcept.throw x) Q :=
  fun _ ht => Endures.pure (a := Except.error x) ⟨r, (Tables.put_self ht).symm, h⟩

theorem Leaves.bind {Q : Except Trouble α → StoredResource → Prop} {R : Except Trouble β → StoredResource → Prop}
    (hw : Leaves struck polls k name r w Q) (hok : ∀ a s, Q (.ok a) s → Leaves struck polls k name s (f a) R)
    (herror : ∀ e s, Q (.error e) s → R (.error e) s) : Leaves struck polls k name r (w >>= f) R := by
  intro t ht
  refine Endures.andThen (hw t ht) ?_ ?_
  · rintro a _ ⟨s, rfl, hQ⟩
    refine (hok a s hQ _ Tables.get?_put_self).mono ?_
    rintro b _ ⟨s', rfl, hR⟩
    exact ⟨s', Tables.put_put, hR⟩
  · rintro e _ ⟨s, rfl, hQ⟩
    exact ⟨s, rfl, herror e s hQ⟩

/-- What holds of the entry whatever the work comes to holds of it when a value has been made of what it comes to. -/
theorem Leaves.andPure {Q : StoredResource → Prop} (hw : Leaves struck polls k name r w fun _ s => Q s) (g : α → β) :
    Leaves struck polls k name r (w >>= fun a => Pure.pure (g a)) fun _ s => Q s :=
  hw.bind (fun _ _ hs => Leaves.pure hs) fun _ _ hs => hs

/-- A dialogue that cannot fail and changes nothing, as part of work. -/
theorem Leaves.still {Q : Except Trouble β → StoredResource → Prop}
    (hw : ∀ t, Endures struck polls (fun a u => ∃ b, a = .ok b ∧ u = t) w.run t)
    (hf : ∀ a, Leaves struck polls k name r (f a) Q) : Leaves struck polls k name r (w >>= f) Q := by
  intro t ht
  refine Endures.andNext (hw t) ?_
  rintro a _ rfl
  exact hf a _ ht

/-- **Work that is done in one step or not at all**: it comes to a value and an entry, or it is struck and fails with
the entry as it was. -/
abbrev Steps (struck : Prop) (polls : Table Int) (k : DefinedKind) (name : String) (r : StoredResource) (w : Work α)
    (a : α) (r' : StoredResource) : Prop :=
  Leaves struck polls k name r w fun b s => b = .ok a ∧ s = r' ∨ struck ∧ Trouble.IsFailure b ∧ s = r

variable {a : α}

theorem Steps.pure (a : α) : Steps struck polls k name r (Pure.pure a) a r := Leaves.pure (.inl ⟨rfl, rfl⟩)

/-- Work behind a step. -/
theorem Steps.bind {R : Except Trouble β → StoredResource → Prop} (hw : Steps struck polls k name r w a r')
    (hstruck : struck → ∀ b, Trouble.IsFailure b → R b r) (hf : Leaves struck polls k name r' (f a) R) :
    Leaves struck polls k name r (w >>= f) R := by
  refine Leaves.bind hw ?_ ?_
  · rintro b s (⟨hb, rfl⟩ | ⟨-, ⟨op, reason, fk, hb⟩, -⟩)
    · rw [Except.ok.inj hb]
      exact hf
    · exact absurd hb (by simp)
  · rintro e s (⟨hb, -⟩ | ⟨hs, ⟨op, reason, fk, hb⟩, rfl⟩)
    · exact absurd hb (by simp)
    · exact hstruck hs _ ⟨op, reason, fk, by rw [Except.error.inj hb]⟩

/-- A step that is left out if there is no need for it. -/
theorem Steps.bindIf {w : Work Unit} {f : Unit → Work β} {R : Except Trouble β → StoredResource → Prop} {b : Bool}
    (hw : Steps struck polls k name r w () r') (hstruck : struck → ∀ b, Trouble.IsFailure b → R b r)
    (hf : Leaves struck polls k name (if b then r' else r) (f ()) R) :
    Leaves struck polls k name r (if b = true then w >>= f else f ()) R := by
  cases b with
  | true => exact hw.bind hstruck hf
  | false => exact hf

/-- **A call that the tables admit is a step.** -/
theorem Admits.steps {op : Operation} {c : Call} {a : c.Answer} (h : Admits polls k name r c a r') :
    Steps struck polls k name r (Work.attempt op c) a r' := by
  intro t ht
  refine Endures.attempt ?_ ?_
  · intro b u hserve
    rw [h t ht] at hserve
    obtain ⟨rfl, rfl⟩ := Prod.mk.inj (Except.ok.inj hserve)
    exact ⟨r', rfl, .inl ⟨rfl, rfl⟩⟩
  · rintro e (hstruck | hrefused)
    · exact ⟨r, (Tables.put_self ht).symm, .inr ⟨hstruck, ⟨_, _, _, rfl⟩, rfl⟩⟩
    · rw [h t ht] at hrefused
      exact absurd hrefused (by simp)

theorem Admits.steps_change {op : Operation} {c : Call} {a : c.Answer} (h : Admits polls k name r c a r') :
    Steps struck polls k name r (Work.change false op c) () r' :=
  h.steps.bind (fun hs _ hb => .inr ⟨hs, hb, rfl⟩) (Leaves.pure (.inl ⟨rfl, rfl⟩))

end Work

end VirtualTopology
