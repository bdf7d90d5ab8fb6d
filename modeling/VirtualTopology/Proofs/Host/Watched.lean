import VirtualTopology.Proofs.Pass.Work

/-!
# Watched hosts

What a dialogue leaves behind does not tell what it did on the way. A `Watched` host is a host in memory that
keeps, for every call, the host to which the call came, so that a statement about a call can speak of the
tables at that moment. On a watched host the pass may be cancelled at any moment: `cancels n` says whether it
has been cancelled when the query with number `n` comes. `Memory.watch` runs a dialogue on a watched host.

`Talk.Safe p Q t w` is the judgement about such runs: whatever the moment of cancellation, each call of the
dialogue `t` on the watched host `w` comes to a host that allows it (`p`), and in the end `Q` holds of the value
and of the watched host. It is a weakest precondition, and its rules follow the program:

* `Safe.pure`, `Safe.bind` for dialogues, `Safe.call` and `Safe.cancelled` for the queries;
* `Safe.andThen`, `Safe.attempt`, `Safe.change`, `Safe.supervise` for the work on a resource, `Safe.gather`
  for tasks one after the other;
* `Safe.of_confined` for a dialogue whose calls are limited without regard to the host, with an invariant of
  these calls;
* `Safe.invariant` for what all allowed calls keep.

`Safe.watch` leads back to runs: all calls of a safe dialogue are allowed, and its end is as told.

A host that is watched and never cancels is the host itself (`Memory.watch_of_never`).
-/

namespace VirtualTopology

open Dialogue

/-- A host that is watched. -/
structure Watched where
  host : Memory
  /-- The calls so far, each with the host to which it came. -/
  calls : List (Memory × Call) := []
  /-- The number of queries so far. -/
  queries : Nat := 0

namespace Watched

/-- The reply to a query. The pass counts as cancelled if it has been cancelled on the host, or by someone else
before this query. -/
def reply (cancels : Nat → Bool) (w : Watched) : (q : Query) → q.Reply
  | .call c => (w.host.call c).1
  | .cancelled => w.host.cancelled || cancels w.queries
  | .now => w.host.clock
  | .sleep _ => ()

/-- The watched host behind a query. -/
def after (w : Watched) (q : Query) : Watched where
  host := (w.host.answer q).2
  calls :=
    match q with
    | .call c => w.calls ++ [(w.host, c)]
    | _ => w.calls
  queries := w.queries + 1

/-- Answer a query. -/
def answer (cancels : Nat → Bool) (w : Watched) (q : Query) : q.Reply × Watched :=
  (w.reply cancels q, w.after q)

@[simp] theorem host_after (w : Watched) (q : Query) : (w.after q).host = (w.host.answer q).2 := rfl

@[simp] theorem calls_after_call (w : Watched) (c : Call) :
    (w.after (.call c)).calls = w.calls ++ [(w.host, c)] := rfl

/-- A call that leaves the tables as they are leaves those of a watched host as they are. -/
theorem tables_after_of_isStill {c : Call} (hc : c.isStill = true) (w : Watched) :
    (w.after (.call c)).host.tables = w.host.tables := by
  show (w.host.call c).2.tables = _
  rcases Memory.tables_call w.host c with heq | ⟨a, ha⟩
  · exact heq
  · exact Tables.eq_of_isStill ha hc

@[simp] theorem calls_after_cancelled (w : Watched) : (w.after .cancelled).calls = w.calls := rfl

end Watched

/-- What a dialogue comes to on a watched host on which the pass is cancelled as told, and the watched host
afterwards. -/
def Memory.watch {α : Type} (m : Memory) (cancels : Nat → Bool) (t : Talk α) : α × Watched :=
  t.run (Watched.answer cancels) { host := m }

/-- **A host that is watched and never cancels is the host itself.** -/
theorem Memory.watch_of_never {α : Type} (m : Memory) (t : Talk α) :
    ((m.watch (fun _ => false) t).1, (m.watch (fun _ => false) t).2.host) = m.run t := by
  suffices h : ∀ w : Watched, ((t.run (Watched.answer fun _ => false) w).1,
      (t.run (Watched.answer fun _ => false) w).2.host) = w.host.run t from h { host := m }
  induction t with
  | done a => exact fun w => rfl
  | ask q next ih =>
    intro w
    have hreply : w.reply (fun _ => false) q = (w.host.answer q).1 := by
      cases q with
      | call c => rfl
      | cancelled => exact Bool.or_false _
      | now => rfl
      | sleep _ => rfl
    show ((Dialogue.run _ (next (w.reply _ q)) (w.after q)).1,
      (Dialogue.run _ (next (w.reply _ q)) (w.after q)).2.host) = _
    rw [ih, hreply, run_ask]
    rfl

namespace Talk

variable {α β : Type} {p p' : Memory → Call → Prop} {Q R : α → Watched → Prop} {S : β → Watched → Prop}
  {t : Talk α} {f : α → Talk β} {w : Watched}

/-- **Safe dialogues.** Whatever the moment of cancellation, each call comes to a host that allows it, and in
the end what is told holds of the value and of the watched host. -/
def Safe (p : Memory → Call → Prop) (Q : α → Watched → Prop) : Talk α → Watched → Prop
  | .done a, w => Q a w
  | .ask q next, w =>
      q.CallsOnly (p w.host) ∧ ∀ cancels, Safe p Q (next (w.reply cancels q)) (w.after q)

/-! ### Dialogues -/

theorem Safe.pure {a : α} (h : Q a w) : Safe p Q (Pure.pure a) w := h

theorem Safe.bind (h : Safe p Q t w) (hf : ∀ a w, Q a w → Safe p S (f a) w) :
    Safe p S (t >>= f) w := by
  show Safe p S (Dialogue.bind t f) w
  induction t generalizing w with
  | done a => exact hf a w h
  | ask q next ih => exact ⟨h.1, fun cancels => ih _ (h.2 cancels)⟩

theorem Safe.mono (h : Safe p Q t w) (hp : ∀ m c, p m c → p' m c) (hQ : ∀ a w, Q a w → R a w) :
    Safe p' R t w := by
  induction t generalizing w with
  | done a => exact hQ a w h
  | ask q next ih => exact ⟨h.1.mono (hp w.host), fun cancels => ih _ (h.2 cancels)⟩

theorem Safe.and (h : Safe p Q t w) (h' : Safe p' R t w) :
    Safe (fun m c => p m c ∧ p' m c) (fun a w => Q a w ∧ R a w) t w := by
  induction t generalizing w with
  | done a => exact ⟨h, h'⟩
  | ask q next ih =>
    refine ⟨?_, fun cancels => ih _ (h.2 cancels) (h'.2 cancels)⟩
    cases q with
    | call c => exact ⟨h.1, h'.1⟩
    | cancelled => trivial
    | now => trivial
    | sleep _ => trivial

/-- Every dialogue is safe if every call is allowed and nothing is told of its end. -/
theorem safe_true (t : Talk α) (w : Watched) : Safe (fun _ _ => True) (fun _ _ => True) t w := by
  induction t generalizing w with
  | done a => trivial
  | ask q next ih =>
    refine ⟨?_, fun cancels => ih _ _⟩
    cases q <;> trivial

/-- A call is allowed, and what is told holds of its answer. -/
theorem Safe.call {c : Call} {Q : Except HostError c.Answer → Watched → Prop} (hp : p w.host c)
    (hQ : Q (w.host.call c).1 (w.after (.call c))) : Safe p Q c.ask w := ⟨hp, fun _ => hQ⟩

/-- The pass may have been cancelled or not. -/
theorem Safe.cancelled {Q : Bool → Watched → Prop} (hQ : ∀ b, Q b (w.after .cancelled)) :
    Safe p Q (query Query.cancelled : Talk Bool) w := ⟨trivial, fun _ => hQ _⟩

/-- **A confined dialogue is safe**, and keeps what its calls keep. -/
theorem Safe.of_confined {P : Query → Prop} {e : α → Prop} {I : Watched → Prop} (h : t.Confined P e)
    (hstep : ∀ w q, P q → I w → I (w.after q)) (hp : ∀ w q, P q → I w → q.CallsOnly (p w.host))
    (hw : I w) : Safe p (fun a w => e a ∧ I w) t w := by
  induction t generalizing w with
  | done a => exact ⟨h, hw⟩
  | ask q next ih =>
    exact ⟨hp w q h.1 hw, fun cancels => ih _ (h.2 _) (hstep w q h.1 hw)⟩

/-- **What allowed calls keep, a safe dialogue keeps** from its start to its end, so that each of its calls finds
it kept. -/
theorem Safe.invariant {I : Memory → Prop} (h : Safe p Q t w)
    (hstep : ∀ m q, q.CallsOnly (p m) → I m → I (m.answer q).2) (hw : I w.host) :
    Safe (fun m c => p m c ∧ I m) (fun a w => Q a w ∧ I w.host) t w := by
  induction t generalizing w with
  | done a => exact ⟨h, hw⟩
  | ask q next ih =>
    refine ⟨?_, fun cancels => ih _ (h.2 cancels) (hstep w.host q h.1 hw)⟩
    cases q with
    | call c => exact ⟨h.1, hw⟩
    | cancelled => trivial
    | now => trivial
    | sleep _ => trivial

/-- **All calls of a safe dialogue are allowed, and its end is as told**, whatever the moment of
cancellation. -/
theorem Safe.watch {m : Memory} (h : Safe p Q t { host := m }) (cancels : Nat → Bool) :
    (∀ x ∈ (m.watch cancels t).2.calls, p x.1 x.2) ∧
      Q (m.watch cancels t).1 (m.watch cancels t).2 := by
  -- the calls before those of the dialogue are allowed, too
  suffices hall : ∀ w : Watched, Safe p Q t w → (∀ x ∈ w.calls, p x.1 x.2) →
      (∀ x ∈ (t.run (Watched.answer cancels) w).2.calls, p x.1 x.2) ∧
        Q (t.run (Watched.answer cancels) w).1 (t.run (Watched.answer cancels) w).2 from
    hall { host := m } h (by simp)
  clear h
  intro w h hcalls
  induction t generalizing w with
  | done a => exact ⟨hcalls, h⟩
  | ask q next ih =>
    refine ih _ (w.after q) (h.2 cancels) fun x hx => ?_
    cases q with
    | call c =>
      rcases List.mem_append.1 hx with hx | hx
      · exact hcalls x hx
      · rw [List.mem_singleton.1 hx]
        exact h.1
    | cancelled => exact hcalls x hx
    | now => exact hcalls x hx
    | sleep _ => exact hcalls x hx

/-! ### Work -/

variable {v : Work α} {g : α → Work β}

theorem Safe.andThen {Q : Except Trouble α → Watched → Prop} {R : Except Trouble β → Watched → Prop}
    (h : Safe p Q v.run w) (hok : ∀ a w, Q (.ok a) w → Safe p R (g a).run w)
    (herror : ∀ e w, Q (.error e) w → R (.error e) w) : Safe p R (v >>= g).run w := by
  rw [ExceptT.run_bind]
  refine h.bind fun a w hQ => ?_
  cases a with
  | ok a => exact hok a w hQ
  | error e => exact .pure (herror e w hQ)

/-- A call as part of work: it goes well, or it fails and ends the work. -/
theorem Safe.attempt {op : Operation} {c : Call} {Q : Except Trouble c.Answer → Watched → Prop}
    (hp : p w.host c) (hok : ∀ a, (w.host.call c).1 = .ok a → Q (.ok a) (w.after (.call c)))
    (herror : ∀ x, Q (.error x) (w.after (.call c))) : Safe p Q (Work.attempt op c).run w := by
  refine ⟨hp, fun cancels => ?_⟩
  generalize hreply : w.reply cancels (.call c) = reply
  cases reply with
  | ok a => exact hok a hreply
  | error e => exact herror _

/-- A change is made in a real run only. -/
theorem Safe.change {dry : Bool} {op : Operation} {c : Call} {Q : Except Trouble Unit → Watched → Prop}
    (hp : dry = false → p w.host c) (hdry : dry = true → Q (.ok ()) w)
    (hok : ∀ a, dry = false → (w.host.call c).1 = .ok a → Q (.ok ()) (w.after (.call c)))
    (herror : ∀ x, dry = false → Q (.error x) (w.after (.call c))) :
    Safe p Q (Work.change dry op c).run w := by
  cases dry with
  | true => exact .pure (hdry rfl)
  | false =>
    refine .andThen (.attempt (Q := fun a w' => (∃ b, a = .ok b ∧ Q (.ok ()) w') ∨
      ∃ x, a = .error x ∧ Q (.error x) w') (hp rfl) (fun a ha => .inl ⟨a, rfl, hok a rfl ha⟩)
      fun x => .inr ⟨x, rfl, herror x rfl⟩) ?_ ?_
    · rintro a w' (⟨b, -, h⟩ | ⟨x, hx, -⟩)
      · exact .pure h
      · exact absurd hx (by simp)
    · rintro x w' (⟨b, hb, -⟩ | ⟨y, hy, h⟩)
      · exact absurd hb (by simp)
      · rw [Except.error.inj hy]
        exact h

/-- Supervised work is left out if the pass has been cancelled. -/
theorem Safe.supervise {kind : ResourceKind} {name : String} {Q : Ending α → Watched → Prop}
    (hcancelled : Q (.cancelled (.cancelled kind name)) (w.after .cancelled))
    (h : Safe p (fun a w => Q (.of kind name a) w) v.run (w.after .cancelled)) :
    Safe p Q (VirtualTopology.supervise kind name v) w := by
  refine Safe.bind (.cancelled (Q := fun _ w' => w' = w.after .cancelled) fun _ => rfl) ?_
  rintro b _ rfl
  cases b with
  | true => exact .pure hcancelled
  | false =>
    refine h.bind fun a w hQ => ?_
    match a with
    | .ok a => exact .pure hQ
    | .error (.failed op reason fk) => exact .pure hQ
    | .error (.unwritable why) => exact .pure hQ

/-! ### Work that ends well -/

/-- **Whether work, if it ends well, ends as told**, whatever the moment of cancellation. -/
def Leads (v : Work α) (w : Watched) (Q : α → Watched → Prop) : Prop :=
  Safe (fun _ _ => True) (fun a w' => ∀ b, a = .ok b → Q b w') v.run w

theorem Leads.pure {a : α} (h : Q a w) : Leads (Pure.pure a) w Q :=
  Safe.pure fun _ hb => Except.ok.inj hb ▸ h

theorem Leads.throw (e : Trouble) : Leads (throw e : Work α) w Q :=
  Safe.pure fun _ hb => absurd hb (by simp)

theorem Leads.bind (h : Leads v w Q) (hg : ∀ a w, Q a w → Leads (g a) w S) : Leads (v >>= g) w S :=
  Safe.andThen h (fun a w hQ => hg a w (hQ a rfl)) fun _ _ _ _ hb => absurd hb (by simp)

/-- A step that is left out unless it is told. -/
theorem Leads.bindIf {b : Bool} {u : Work Unit} {g : Unit → Work β} {Q : Unit → Watched → Prop}
    (h : Leads (if b then u else Pure.pure ()) w Q) (hg : ∀ a w, Q a w → Leads (g a) w S) :
    Leads (if b then u >>= g else g ()) w S := by
  have hbind := h.bind hg
  cases b with
  | false => exact hbind
  | true => exact hbind

theorem Leads.attempt {op : Operation} {c : Call} {Q : c.Answer → Watched → Prop}
    (hok : ∀ a, (w.host.call c).1 = .ok a → Q a (w.after (.call c))) : Leads (Work.attempt op c) w Q :=
  Safe.attempt trivial (fun a ha b hb => Except.ok.inj hb ▸ hok a ha) fun _ _ hb => absurd hb (by simp)

theorem Leads.change {dry : Bool} {op : Operation} {c : Call} {Q : Unit → Watched → Prop}
    (hdry : dry = true → Q () w)
    (hok : ∀ a, dry = false → (w.host.call c).1 = .ok a → Q () (w.after (.call c))) :
    Leads (Work.change dry op c) w Q :=
  Safe.change (fun _ => trivial) (fun h _ _ => hdry h) (fun a h hcall _ _ => hok a h hcall)
    fun _ _ _ hb => absurd hb (by simp)

/-! ### Tasks -/

/-- Tasks one after the other keep what each of them keeps. -/
theorem Safe.gather {I : Watched → Prop} {ts : List (Talk Recorded)}
    (h : ∀ t ∈ ts, ∀ w, I w → Safe p (fun _ w => I w) t w) (hw : I w) :
    Safe p (fun _ w => I w) (VirtualTopology.gather ts) w := by
  induction ts generalizing w with
  | nil => exact .pure hw
  | cons t ts ih =>
    refine Safe.bind (h t (by simp) w hw) fun _ w hw => ?_
    exact Safe.bind (ih (fun s hs => h s (by simp [hs])) hw) fun _ w hw => .pure hw

end Talk

end VirtualTopology
