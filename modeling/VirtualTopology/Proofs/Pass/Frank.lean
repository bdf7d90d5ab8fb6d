import VirtualTopology.Proofs.Pass.Work

/-!
# Frank work

The work on a resource is frank (`Frank`): it makes allowed calls only, a call that fails ends it, and its
value is as told. Frank work that ends well was not disrupted at all, so it ends in the same way on the
calmed host, where its end is known (`Frank.holds_of_run_eq_ok`).
-/

namespace VirtualTopology

open Dialogue

/-- Work that makes allowed calls only, that a failed call ends, and that has allowed values only. -/
inductive Frank {α : Type} (p : Call → Prop) (e : α → Prop) : Talk (Except Trouble α) → Prop where
  | value {a : α} (allowed : e a) : Frank p e (.done (.ok a))
  | trouble (x : Trouble) : Frank p e (.done (.error x))
  | call {c : Call} {next : Except HostError c.Answer → Talk (Except Trouble α)} (allowed : p c)
      (stops : ∀ x, ∃ y, next (.error x) = .done (.error y)) (goes : ∀ a, Frank p e (next (.ok a))) :
      Frank p e (.ask (.call c) next)
  | now {next : Binary64 → Talk (Except Trouble α)} (goes : ∀ time, Frank p e (next time)) :
      Frank p e (.ask .now next)
  | sleep {seconds : Binary64} {next : Unit → Talk (Except Trouble α)} (goes : ∀ u, Frank p e (next u)) :
      Frank p e (.ask (.sleep seconds) next)

namespace Frank

variable {α β : Type} {p : Call → Prop} {e : α → Prop} {e' : β → Prop} {w : Work α} {f : α → Work β}

/-! ### What is frank -/

theorem pure {a : α} (h : e a) : Frank p e (Pure.pure a : Work α).run := value h

theorem throw (x : Trouble) : Frank p e (MonadExcept.throw x : Work α).run := trouble x

theorem bind (hw : Frank p e w.run) (hf : ∀ a, e a → Frank p e' (f a).run) :
    Frank p e' (w >>= f).run := by
  rw [ExceptT.run_bind]
  show Frank p e' (Dialogue.bind w.run _)
  generalize w.run = d at hw
  induction hw with
  | value ha => exact hf _ ha
  | trouble x => exact trouble x
  | call hc hstops _ ih =>
    refine call hc (fun x => ?_) ih
    obtain ⟨y, hy⟩ := hstops x
    exact ⟨y, by rw [hy]; rfl⟩
  | now _ ih => exact now ih
  | sleep _ ih => exact sleep ih

/-- Frank work behind frank work, whatever its value. -/
theorem seq (hw : Frank p (fun _ => True) w.run) (hf : ∀ a, Frank p e' (f a).run) :
    Frank p e' (w >>= f).run := hw.bind fun a _ => hf a

theorem mono {p' : Call → Prop} {e' : α → Prop} {d : Talk (Except Trouble α)} (h : Frank p e d)
    (hp : ∀ c, p c → p' c) (he : ∀ a, e a → e' a) : Frank p' e' d := by
  induction h with
  | value ha => exact value (he _ ha)
  | trouble x => exact trouble x
  | call hc hstops _ ih => exact call (hp _ hc) hstops ih
  | now _ ih => exact now ih
  | sleep _ ih => exact sleep ih

theorem attempt {op : Operation} {c : Call} (h : p c) :
    Frank p (fun _ => True) (Work.attempt op c).run :=
  call h (fun _ => ⟨_, rfl⟩) fun _ => value trivial

theorem change {dry : Bool} {op : Operation} {c : Call} (h : dry = false → p c) :
    Frank p (fun _ => True) (Work.change dry op c).run := by
  cases dry with
  | true => exact value trivial
  | false => exact (attempt (h rfl)).seq fun _ => value trivial

theorem writing (x : Except Unwritable String) : Frank p (x = .ok ·) (Work.writing x).run := by
  cases x with
  | ok text => exact value rfl
  | error why => exact trouble _

theorem stating {sizes : List Nat} {text : String} :
    Frank p (fun _ => True) (Work.stating sizes text).run := by
  unfold Work.stating
  split
  · exact value trivial
  · exact trouble _

theorem askNow : Frank p (fun _ => True) (liftM (query Query.now : Talk Binary64) : Work _).run :=
  now fun _ => value trivial

theorem askSleep (seconds : Binary64) :
    Frank p (fun _ => True) (liftM (query (Query.sleep seconds) : Talk Unit) : Work _).run :=
  sleep fun _ => value trivial

/-- A step that is left out if there is no need for it. -/
theorem seqIf {w : Work Unit} {f : Unit → Work β} {b : Prop} [Decidable b]
    (hw : Frank p (fun _ => True) w.run) (hf : Frank p e' (f ()).run) :
    Frank p e' (if b then w >>= f else f ()).run := by
  split
  · exact hw.seq fun _ => hf
  · exact hf

/-! ### Frank work is confined -/

theorem confined {d : Talk (Except Trouble α)} (h : Frank p e d) :
    d.Confined (Query.CallsOnly p) fun a => ∀ b, a = .ok b → e b := by
  induction h with
  | value ha =>
    rintro b hb
    rw [← Except.ok.inj hb]
    exact ha
  | trouble x => exact fun b hb => absurd hb (by simp)
  | call hc hstops _ ih =>
    refine ⟨hc, fun reply => ?_⟩
    cases reply with
    | ok a => exact ih a
    | error x =>
      obtain ⟨y, hy⟩ := hstops x
      rw [hy]
      exact fun b hb => absurd hb (by simp)
  | now _ ih => exact ⟨trivial, ih⟩
  | sleep _ ih => exact ⟨trivial, ih⟩

/-- Supervised work makes the calls of the work, and it ends with a value of the work, with a failure of
the resource, or with its cancellation. -/
theorem confined_supervise {kind : ResourceKind} {name : String} (h : Frank p e w.run) :
    (supervise kind name w).Confined (Query.CallsOnly p) fun ending =>
      (∃ a, ending = .finished a ∧ e a) ∨
        (∃ op reason fk, ending = .failed (.stuck kind name op reason fk)) ∨
        ending = .cancelled (.cancelled kind name) ∨ ∃ why, ending = .unwritable why := by
  refine Confined.bind (Confined.query (q := Query.cancelled) (e := fun _ => True) trivial
    fun _ => trivial) fun cancelled _ => ?_
  cases cancelled with
  | true => exact .inr (.inr (.inl rfl))
  | false =>
    refine Confined.bind h.confined fun a ha => ?_
    match a with
    | .ok a => exact .inl ⟨a, rfl, ha a rfl⟩
    | .error (.failed op reason fk) => exact .inr (.inl ⟨op, reason, fk, rfl⟩)
    | .error (.unwritable why) => exact .inr (.inr (.inr ⟨why, rfl⟩))

/-! ### Frank work that ends well was not disrupted -/

/-- Frank work that ends well does so on the calmed host, too. -/
theorem run_calmed {d : Talk (Except Trouble α)} (h : Frank p e d) {m : Memory} {a : α}
    (ha : (m.run d).1 = .ok a) : m.calmed.run d = (.ok a, (m.run d).2.calmed) := by
  -- an error of a call would be an error of the work, so all calls went well, and they do so on the calmed host
  induction h generalizing m with
  | value _ =>
    obtain rfl := Except.ok.inj ha
    rfl
  | trouble x => exact absurd ha (by simp)
  | @call c next hc hstops _ ih =>
    rw [Memory.run_ask] at ha ⊢
    rw [Memory.run_ask]
    cases hr : (m.call c).1 with
    | error x =>
      obtain ⟨y, hy⟩ := hstops x
      have hfirst : (m.answer (.call c)).1 = .error x := hr
      rw [hfirst, hy] at ha
      exact absurd ha (by simp)
    | ok b =>
      have hfirst : (m.answer (.call c)).1 = .ok b := hr
      have hcalm : m.calmed.answer (.call c) = (.ok b, (m.answer (.call c)).2.calmed) :=
        Memory.call_calmed hr
      rw [hcalm, hfirst]
      rw [hfirst] at ha
      exact ih b ha
  | now _ ih => exact ih _ ha
  | @sleep seconds next _ ih =>
    have hcalm : m.calmed.answer (.sleep seconds) = ((), (m.answer (.sleep seconds)).2.calmed) := rfl
    rw [Memory.run_ask] at ha ⊢
    rw [Memory.run_ask, hcalm]
    exact ih () ha

/-- **What is known of the end of frank work on calm hosts holds on every host where it ends well.** -/
theorem holds_of_run_eq_ok (h : Frank p e w.run) {m : Memory} {a : α}
    (ha : (m.run w.run).1 = .ok a) {Q : Except Trouble α → Tables → Prop}
    (hw : Talk.Ends m.polls m.tables w.run Q) : Q (.ok a) (m.run w.run).2.tables := by
  have hend := hw m.calmed (Memory.calm_calmed m) rfl rfl
  rw [h.run_calmed ha] at hend
  exact hend

end Frank

end VirtualTopology
