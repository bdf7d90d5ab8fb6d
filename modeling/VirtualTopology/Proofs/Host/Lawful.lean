import VirtualTopology.Proofs.Host.Volumes
import VirtualTopology.Proofs.Host.Watched

/-!
# Lawful dialogues

Tables allow a call (`Tables.Allows`) if it is legal in the state that they describe: what it goes to is there,
nothing is started that runs and nothing stopped that does not, and volumes are asked for in active pools only. A call
that is allowed is served (`Tables.exists_serve`).

`Talk.Lawful` is the judgement that each call of a dialogue is allowed when it is issued. It is a weakest precondition
over the tables alone: calls are served from them, the time may be any time, and the pass may be cancelled at any
moment. Its rules follow the program, and `Talk.Lawful.run` leads back to runs on watched hosts without disruptions, where
no call of a lawful dialogue fails.
-/

namespace VirtualTopology

open Dialogue

namespace Tables

variable {t u : Tables} {polls : Table Int} {c : Call}

/-- Whether a pool is there and active, and what it holds is as told. -/
def HasPool (t : Tables) (pool : String) (p : StoredResource → Prop) : Prop :=
  ∃ r, t.get? .pool pool = some r ∧ r.active = true ∧ p r

/-- Whether a call is legal in the state that tables describe. -/
def Allows (t : Tables) : Call → Prop
  | .list _ | .define .. => True
  | .read k name | .isActive k name | .isAutostart k name | .setAutostart k name _ | .undefine k name =>
      (t.get? k name).isSome = true
  | .start k name => ∃ r, t.get? k name = some r ∧ r.active = false
  | .stop k name _ => ∃ r, t.get? k name = some r ∧ r.active = true
  | .listVolumes pool => t.HasPool pool fun _ => True
  | .readVolume pool name | .deleteVolume pool name | .resizeVolume pool name _ =>
      t.HasPool pool fun r => (r.volumes.get? name).isSome = true
  | .createVolume pool document => t.HasPool pool fun r =>
      (Element.read? document).isSome = true ∧ r.volumes.get? (nameInDocument document) = none

/-- **A call that is allowed is served.** -/
theorem exists_serve (h : t.Allows c) (polls : Table Int) : ∃ a u, t.serve polls c = .ok (a, u) := by
  -- what makes a call allowed is what it looks for
  cases c with
  | list k => exact ⟨_, _, rfl⟩
  | define k document => exact ⟨_, _, rfl⟩
  | read k name =>
    obtain ⟨r, hr⟩ := Option.isSome_iff_exists.1 h
    exact ⟨_, _, Work.admits_read t hr⟩
  | isActive k name =>
    obtain ⟨r, hr⟩ := Option.isSome_iff_exists.1 h
    exact ⟨_, _, Work.admits_isActive t hr⟩
  | isAutostart k name =>
    obtain ⟨r, hr⟩ := Option.isSome_iff_exists.1 h
    exact ⟨_, _, Work.admits_isAutostart t hr⟩
  | setAutostart k name autostart =>
    obtain ⟨r, hr⟩ := Option.isSome_iff_exists.1 h
    exact ⟨_, _, Work.admits_setAutostart autostart t hr⟩
  | undefine k name =>
    obtain ⟨r, hr⟩ := Option.isSome_iff_exists.1 h
    refine ⟨(), t.erase k name, ?_⟩
    rw [serve, find_eq_ok hr]
    rfl
  | start k name =>
    obtain ⟨r, hr, -⟩ := h
    exact ⟨_, _, Work.admits_start t hr⟩
  | stop k name force =>
    obtain ⟨r, hr, -⟩ := h
    rw [serve, find_eq_ok hr]
    exact ⟨_, _, rfl⟩
  | listVolumes pool =>
    obtain ⟨r, hr, hactive, -⟩ := h
    exact ⟨_, _, Work.admits_listVolumes hactive t hr⟩
  | readVolume pool name =>
    obtain ⟨r, hr, hactive, hv⟩ := h
    obtain ⟨v, hv⟩ := Option.isSome_iff_exists.1 hv
    exact ⟨_, _, Work.admits_readVolume hactive hv t hr⟩
  | deleteVolume pool name =>
    obtain ⟨r, hr, hactive, hv⟩ := h
    obtain ⟨v, hv⟩ := Option.isSome_iff_exists.1 hv
    exact ⟨_, _, Work.admits_deleteVolume hactive hv t hr⟩
  | resizeVolume pool name bytes =>
    obtain ⟨r, hr, hactive, hv⟩ := h
    obtain ⟨v, hv⟩ := Option.isSome_iff_exists.1 hv
    exact ⟨_, _, Work.admits_resizeVolume hactive hv bytes t hr⟩
  | createVolume pool document =>
    obtain ⟨r, hr, hactive, hread, -⟩ := h
    obtain ⟨e, he⟩ := Option.isSome_iff_exists.1 hread
    exact ⟨_, _, Work.admits_createVolume hactive he rfl t hr⟩

end Tables

/-- Without disruptions a call that is served goes well, and the host behind it has none, either. -/
theorem Memory.call_of_serve {m : Memory} (h : m.disruptions = []) {c : Call} {a : c.Answer} {u : Tables}
    (hserve : m.tables.serve m.polls c = .ok (a, u)) :
    (m.call c).1 = .ok a ∧ (m.call c).2.tables = u ∧ (m.call c).2.polls = m.polls ∧
      (m.call c).2.disruptions = [] := by
  have hreceive : (m.receive c).1 = none ∧ (m.receive c).2.disruptions = [] ∧ (m.receive c).2.polls = m.polls := by
    rw [receive, h]
    exact ⟨rfl, rfl, rfl⟩
  rw [call_eq, hreceive.1, hserve]
  exact ⟨rfl, rfl, hreceive.2.2, hreceive.2.1⟩

namespace Talk

variable {α β : Type} {polls : Table Int} {t u : Tables}

/-- **Lawful dialogues.** Each call is allowed by the tables when it is issued, and in the end what is told holds of the
value and of the tables. -/
def Lawful (polls : Table Int) (Q : α → Tables → Prop) : Talk α → Tables → Prop
  | .done a, t => Q a t
  | .ask (.call c) next, t =>
      t.Allows c ∧ ∀ a u, t.serve polls c = .ok (a, u) → Lawful polls Q (next (.ok a)) u
  | .ask .cancelled next, t => ∀ b, Lawful polls Q (next b) t
  | .ask .now next, t => ∀ time, Lawful polls Q (next time) t
  | .ask (.sleep _) next, t => Lawful polls Q (next ()) t

/-! ### Dialogues -/

variable {Q R : α → Tables → Prop} {S : β → Tables → Prop} {d : Talk α} {f : α → Talk β}

theorem Lawful.pure {a : α} (h : Q a t) : Lawful polls Q (Pure.pure a) t := h

theorem Lawful.bind (h : Lawful polls Q d t) (hf : ∀ a u, Q a u → Lawful polls S (f a) u) :
    Lawful polls S (d >>= f) t := by
  show Lawful polls S (Dialogue.bind d f) t
  induction d generalizing t with
  | done a => exact hf a t h
  | ask q next ih =>
    cases q with
    | call c => exact ⟨h.1, fun a u hserve => ih _ (h.2 a u hserve)⟩
    | cancelled => exact fun b => ih b (h b)
    | now => exact fun time => ih time (h time)
    | sleep seconds => exact ih () h

theorem Lawful.mono (h : Lawful polls Q d t) (hQ : ∀ a u, Q a u → R a u) : Lawful polls R d t := by
  induction d generalizing t with
  | done a => exact hQ a t h
  | ask q next ih =>
    cases q with
    | call c => exact ⟨h.1, fun a u hserve => ih _ (h.2 a u hserve)⟩
    | cancelled => exact fun b => ih b (h b)
    | now => exact fun time => ih time (h time)
    | sleep seconds => exact ih () h

/-- **A lawful dialogue that is confined** keeps what its calls keep when they are served. -/
theorem Lawful.confined {p : Call → Prop} {e : α → Prop} {I : Tables → Prop} (h : Lawful polls Q d t)
    (hd : d.Confined (Query.CallsOnly p) e)
    (hstep : ∀ t u c (a : c.Answer), p c → t.serve polls c = .ok (a, u) → I t → I u) (ht : I t) :
    Lawful polls (fun a u => Q a u ∧ e a ∧ I u) d t := by
  induction d generalizing t with
  | done a => exact ⟨h, hd, ht⟩
  | ask q next ih =>
    cases q with
    | call c => exact ⟨h.1, fun a u hserve => ih _ (h.2 a u hserve) (hd.2 _) (hstep t u c a hd.1 hserve ht)⟩
    | cancelled => exact fun b => ih b (h b) (hd.2 b) ht
    | now => exact fun time => ih time (h time) (hd.2 time) ht
    | sleep seconds => exact ih () h (hd.2 ()) ht

/-- A lawful dialogue that spares some resources leaves them as they are. -/
theorem Lawful.spares {e : α → Prop} {p : Call → Prop} (h : Lawful polls Q d t)
    (hd : d.Confined (Query.CallsOnly p) e) :
    Lawful polls (fun a u => Q a u ∧ e a ∧
      ∀ k name, (∀ c, p c → c.Spares k name) → u.get? k name = t.get? k name) d t := by
  refine h.confined hd (I := fun u => ∀ k name, (∀ c, p c → c.Spares k name) → u.get? k name = t.get? k name) ?_
    fun _ _ _ => rfl
  intro t u c a hp hserve hsame k name hspares
  exact (Tables.get?_serve_of_spares hserve (hspares c hp)).trans (hsame k name hspares)

/-- A call that is allowed goes well. -/
theorem Lawful.call {c : Call} {Q : Except HostError c.Answer → Tables → Prop} (hallow : t.Allows c)
    (hQ : ∀ a u, t.serve polls c = .ok (a, u) → Q (.ok a) u) : Lawful polls Q c.ask t :=
  ⟨hallow, hQ⟩

/-- The pass may have been cancelled or not. -/
theorem Lawful.cancelled {Q : Bool → Tables → Prop} (hQ : ∀ b, Q b t) :
    Lawful polls Q (query Query.cancelled : Talk Bool) t := hQ

/-! ### Runs on watched hosts -/

/-- **On a host without disruptions each call of a lawful dialogue is allowed and goes well**, and its end is as told,
whenever the pass is cancelled. -/
theorem Lawful.run {w : Watched} (h : Lawful polls Q d w.host.tables) (hpolls : w.host.polls = polls)
    (hcalm : w.host.disruptions = []) (cancels : Nat → Bool) :
    (∃ more, (d.run (Watched.answer cancels) w).2.calls = w.calls ++ more ∧
      ∀ x ∈ more, x.1.tables.Allows x.2 ∧ ∃ a, (x.1.call x.2).1 = .ok a) ∧
    Q (d.run (Watched.answer cancels) w).1 (d.run (Watched.answer cancels) w).2.host.tables := by
  -- by induction on the dialogue: a call that is allowed is served, and the rest is lawful behind its answer
  induction d generalizing w with
  | done a => exact ⟨⟨[], (List.append_nil _).symm, by simp⟩, h⟩
  | ask q next ih =>
    cases q with
    | call c =>
      obtain ⟨hallow, hnext⟩ := h
      obtain ⟨a, u, hserve⟩ := Tables.exists_serve hallow w.host.polls
      obtain ⟨hreply, htables, hkept, hstill⟩ := Memory.call_of_serve hcalm hserve
      have hrun : (Dialogue.ask (Query.call c) next).run (Watched.answer cancels) w =
          (next (.ok a)).run (Watched.answer cancels) (w.after (.call c)) := by
        rw [← hreply]
        rfl
      have htail : Lawful polls Q (next (.ok a)) (w.after (.call c)).host.tables := by
        rw [Watched.host_after, Memory.answer, htables]
        exact hnext a u (hpolls ▸ hserve)
      obtain ⟨⟨more, hcalls, hmore⟩, hend⟩ := ih (.ok a) htail (hkept.trans hpolls) hstill
      rw [hrun]
      refine ⟨⟨(w.host, c) :: more, ?_, fun x hx => ?_⟩, hend⟩
      · rw [hcalls, Watched.calls_after_call, List.append_assoc]
        rfl
      · rcases List.mem_cons.1 hx with rfl | hx
        · exact ⟨hallow, a, hreply⟩
        · exact hmore x hx
    | cancelled => exact ih (w.reply cancels .cancelled) (w := w.after .cancelled) (h _) hpolls hcalm
    | now => exact ih w.host.clock (w := w.after .now) (h _) hpolls hcalm
    | sleep seconds => exact ih () (w := w.after (.sleep seconds)) h hpolls hcalm

/-! ### Work -/

variable {v : Work α} {g : α → Work β}

theorem Lawful.andThen {Q : Except Trouble α → Tables → Prop} {R : Except Trouble β → Tables → Prop}
    (h : Lawful polls Q v.run t) (hok : ∀ a u, Q (.ok a) u → Lawful polls R (g a).run u)
    (herror : ∀ e u, Q (.error e) u → R (.error e) u) : Lawful polls R (v >>= g).run t := by
  rw [ExceptT.run_bind]
  refine h.bind fun a u hQ => ?_
  cases a with
  | ok a => exact hok a u hQ
  | error e => exact .pure (herror e u hQ)

/-- Work behind work that ends well. -/
theorem Lawful.andNext {Q : α → Tables → Prop} {R : Except Trouble β → Tables → Prop}
    (h : Lawful polls (fun a u => ∃ b, a = .ok b ∧ Q b u) v.run t)
    (hok : ∀ a u, Q a u → Lawful polls R (g a).run u) : Lawful polls R (v >>= g).run t := by
  refine h.andThen ?_ fun e u ⟨b, hb, _⟩ => absurd hb (by simp)
  rintro a u ⟨b, hb, hQ⟩
  rw [Except.ok.inj hb]
  exact hok b u hQ

/-- What time it is is asked as part of work, and the tables stay as they are. -/
theorem Lawful.now : Lawful polls (fun a u => ∃ b, a = .ok b ∧ u = t)
    (liftM (Dialogue.query Query.now : Talk Binary64) : Work _).run t :=
  fun time => ⟨time, rfl, rfl⟩

theorem Lawful.sleep (seconds : Binary64) : Lawful polls (fun a u => ∃ b, a = .ok b ∧ u = t)
    (liftM (Dialogue.query (Query.sleep seconds) : Talk Unit) : Work _).run t :=
  ⟨(), rfl, rfl⟩

/-- A call as part of work goes well if it is allowed. -/
theorem Lawful.attempt {op : Operation} {c : Call} {Q : c.Answer → Tables → Prop} (hallow : t.Allows c)
    (hQ : ∀ a u, t.serve polls c = .ok (a, u) → Q a u) :
    Lawful polls (fun a u => ∃ b, a = .ok b ∧ Q b u) (Work.attempt op c).run t :=
  ⟨hallow, fun a u hserve => ⟨a, rfl, hQ a u hserve⟩⟩

/-- **A call about an entry** goes well if it is allowed, and takes the entry to another one. -/
theorem Lawful.attempt_admitted {k : DefinedKind} {name : String} {r r' : StoredResource} {op : Operation} {c : Call}
    {a : c.Answer} (hr : t.get? k name = some r) (hallow : t.Allows c) (h : Work.Admits polls k name r c a r') :
    Lawful polls (fun b u => ∃ b', b = .ok b' ∧ b' = a ∧ u = t.put k name r') (Work.attempt op c).run t := by
  refine Lawful.attempt (Q := fun b u => b = a ∧ u = t.put k name r') hallow fun b u hserve => ?_
  rw [h t hr] at hserve
  obtain ⟨rfl, rfl⟩ := Prod.mk.inj (Except.ok.inj hserve)
  exact ⟨rfl, rfl⟩

/-- A change goes well if it is allowed. -/
theorem Lawful.change {op : Operation} {c : Call} (hallow : t.Allows c) :
    Lawful polls (fun b _ => ∃ b', b = .ok b' ∧ True) (Work.change false op c).run t :=
  (Lawful.attempt (Q := fun _ _ => True) hallow fun _ _ _ => trivial).andNext fun _ _ _ => .pure ⟨(), rfl, trivial⟩

/-- A change of an entry. -/
theorem Lawful.change_admitted {k : DefinedKind} {name : String} {r r' : StoredResource} {op : Operation} {c : Call}
    {a : c.Answer} (hr : t.get? k name = some r) (hallow : t.Allows c) (h : Work.Admits polls k name r c a r') :
    Lawful polls (fun b u => ∃ b', b = .ok b' ∧ u = t.put k name r') (Work.change false op c).run t :=
  (Lawful.attempt_admitted hr hallow h).andNext fun _ _ ⟨_, hu⟩ => .pure ⟨(), rfl, hu⟩

section

variable {k : DefinedKind} {name : String} {r : StoredResource} (hr : t.get? k name = some r) (op : Operation)
include hr

/-- A resource that is there can be read. -/
theorem Lawful.reads : Lawful polls (fun b u => ∃ b', b = .ok b' ∧ b' = r.document ∧ u = t)
    (Work.attempt op (.read k name)).run t := by
  have hallow : t.Allows (.read k name) := Option.isSome_iff_exists.2 ⟨r, hr⟩
  have hread : Lawful polls (fun b u => ∃ b', b = .ok b' ∧ b' = r.document ∧ u = t.put k name r)
      (Work.attempt op (.read k name)).run t := Lawful.attempt_admitted hr hallow Work.admits_read
  rwa [Tables.put_self hr] at hread

/-- It can be looked whether it runs. -/
theorem Lawful.looks : Lawful polls (fun b u => ∃ b', b = .ok b' ∧ b' = r.seen.active ∧ u = t.put k name r.seen)
    (Work.attempt op (.isActive k name)).run t :=
  Lawful.attempt_admitted hr (Option.isSome_iff_exists.2 ⟨r, hr⟩ : t.Allows (.isActive k name)) Work.admits_isActive

/-- A resource that does not run can be started. -/
theorem Lawful.starts (hoff : r.active = false) :
    Lawful polls (fun b u => ∃ b', b = .ok b' ∧ u = t.put k name r.started)
      (Work.change false op (.start k name)).run t :=
  Lawful.change_admitted hr (⟨r, hr, hoff⟩ : t.Allows (.start k name)) Work.admits_start

/-- A network or a pool that runs can be stopped. -/
theorem Lawful.stops (hk : k ≠ .domain) (hon : r.active = true) :
    Lawful polls (fun b u => ∃ b', b = .ok b' ∧ u = t.put k name r.stopped)
      (Work.change false op (.stop k name false)).run t :=
  Lawful.change_admitted hr (⟨r, hr, hon⟩ : t.Allows (.stop k name false)) (Work.admits_stop hk false)

/-- A resource that is there can be told whether to start on its own. -/
theorem Lawful.setsAutostart (autostart : Bool) :
    Lawful polls (fun b u => ∃ b', b = .ok b' ∧ u = t.put k name { r with autostart })
      (Work.change false op (.setAutostart k name autostart)).run t :=
  Lawful.change_admitted hr (Option.isSome_iff_exists.2 ⟨r, hr⟩ : t.Allows (.setAutostart k name autostart))
    (Work.admits_setAutostart autostart)

end

section

variable {name : String} {r : StoredResource} (hr : t.get? .domain name = some r) (hon : r.active = true)
  (op : Operation)
include hr hon

/-- A domain that runs can be asked to shut down. -/
theorem Lawful.asks : Lawful polls
    (fun b u => ∃ b', b = .ok b' ∧ u = t.put .domain name (r.asked ((polls.get? name).getD 0)))
    (Work.change false op (.stop .domain name false)).run t :=
  Lawful.change_admitted hr (⟨r, hr, hon⟩ : t.Allows (.stop .domain name false)) Work.admits_ask

/-- A domain that runs can be turned off by force. -/
theorem Lawful.forces : Lawful polls (fun b u => ∃ b', b = .ok b' ∧ u = t.put .domain name r.stopped)
    (Work.change false op (.stop .domain name true)).run t :=
  Lawful.change_admitted hr (⟨r, hr, hon⟩ : t.Allows (.stop .domain name true)) Work.admits_force

end

/-- Supervised work is left out if the pass has been cancelled. -/
theorem Lawful.supervise {kind : ResourceKind} {name : String} {Q : Ending α → Tables → Prop}
    (hcancelled : Q (.cancelled (.cancelled kind name)) t)
    (h : Lawful polls (fun a u => Q (.of kind name a) u) v.run t) :
    Lawful polls Q (VirtualTopology.supervise kind name v) t := by
  unfold VirtualTopology.supervise
  intro b
  cases b with
  | true => exact hcancelled
  | false =>
    show Lawful polls Q (v.run >>= _) t
    refine Lawful.bind h fun a u hQ => ?_
    match a with
    | .ok a => exact hQ
    | .error (.failed op reason fk) => exact hQ
    | .error (.unwritable why) => exact hQ

-- the rules are used from here on, and no dialogue is opened for its calls
attribute [irreducible] Lawful

end Talk

end VirtualTopology
