import VirtualTopology.Proofs.Pass.Pools

/-!
# How work ends

Whatever the replies are, work ends with certain values and in certain troubles only (`Work.ComesTo`), and so the
results of a supervised resource are as told (`Work.ComesTo.confined_recorded`). A call that fails gets its work into
trouble that a host can cause (`Trouble.IsOwn`), never into trouble with what the resource depends on.
-/

namespace VirtualTopology

open Dialogue

/-- Trouble that a call, or the work itself, gets into. -/
def Trouble.IsOwn (x : Trouble) : Prop :=
  ∀ op reason fk, x = .failed op reason fk → fk ≠ .dependencyFailed

theorem HostError.failureKind_ne (e : HostError) : e.failureKind ≠ .dependencyFailed := by
  unfold failureKind
  split <;> simp

namespace Work

variable {α β : Type} {e : α → Prop} {e' : β → Prop} {t : Trouble → Prop} {w : Work α} {f : α → Work β}

/-- Whether the values of work, and the troubles in which it ends, are as told. -/
structure ComesTo (e : α → Prop) (t : Trouble → Prop) (w : Work α) : Prop where
  confined : w.run.Confined (fun _ => True) fun a => (∀ b, a = .ok b → e b) ∧ ∀ x, a = .error x → t x

theorem ComesTo.pure {a : α} (h : e a) : ComesTo e t (Pure.pure a) :=
  ⟨Confined.pure ⟨fun b hb => by rw [← Except.ok.inj hb]; exact h, fun x hx => absurd hx (by simp)⟩⟩

theorem ComesTo.throw {x : Trouble} (h : t x) : ComesTo e t (MonadExcept.throw x : Work α) :=
  ⟨Confined.pure ⟨fun b hb => absurd hb (by simp), fun y hy => by rw [← Except.error.inj hy]; exact h⟩⟩

theorem ComesTo.bind (hw : ComesTo e t w) (hf : ∀ a, e a → ComesTo e' t (f a)) : ComesTo e' t (w >>= f) := by
  refine ⟨?_⟩
  rw [ExceptT.run_bind]
  refine hw.confined.bind fun a ha => ?_
  cases a with
  | ok a => exact (hf a (ha.1 a rfl)).confined
  | error x => exact Confined.pure ⟨fun b hb => absurd hb (by simp), fun y hy =>
      by rw [← Except.error.inj hy]; exact ha.2 x rfl⟩

theorem ComesTo.mono {e' : α → Prop} (hw : ComesTo e t w) (he : ∀ a, e a → e' a) : ComesTo e' t w :=
  ⟨hw.confined.mono (fun _ => id) fun _ h => ⟨fun b hb => he b (h.1 b hb), h.2⟩⟩

theorem comesTo_true (w : Work α) : ComesTo (fun _ => True) (fun _ => True) w :=
  ⟨(confined_true w.run).mono (fun _ => id) fun _ _ => ⟨fun _ _ => trivial, fun _ _ => trivial⟩⟩

/-- Work behind other work, whatever that comes to. -/
theorem ComesTo.seq (hw : ComesTo (fun _ => True) t w) (hf : ∀ a, ComesTo e' t (f a)) : ComesTo e' t (w >>= f) :=
  hw.bind fun a _ => hf a

theorem ComesTo.attempt (op : Operation) (c : Call) :
    ComesTo (fun _ => True) Trouble.IsOwn (Work.attempt op c) := by
  refine ⟨trivial, fun reply => ?_⟩
  cases reply with
  | ok a => exact ⟨fun _ _ => trivial, fun x hx => absurd hx (by simp)⟩
  | error x =>
    refine ⟨fun _ _ => trivial, fun y hy => ?_⟩
    rw [← Except.error.inj hy]
    rintro op reason fk h
    obtain ⟨-, -, rfl⟩ := Trouble.failed.inj h
    exact x.failureKind_ne

theorem ComesTo.change (dry : Bool) (op : Operation) (c : Call) :
    ComesTo (fun _ => True) Trouble.IsOwn (Work.change dry op c) := by
  cases dry with
  | true => exact .pure trivial
  | false => exact (attempt op c).seq fun _ => .pure trivial

theorem ComesTo.writing (x : Except Unwritable String) :
    ComesTo (fun _ => True) Trouble.IsOwn (Work.writing x) := by
  cases x with
  | ok text => exact .pure trivial
  | error why => exact .throw fun _ _ _ h => absurd h (by simp)

/-- A step that is left out if there is no need for it. -/
theorem ComesTo.seqIf {v : Work Unit} {g : Unit → Work β} {b : Prop} [Decidable b]
    (hv : ComesTo (fun _ => True) t v) (hg : ComesTo e' t (g ())) :
    ComesTo e' t (if b then v >>= g else g ()) := by
  split
  · exact hv.seq fun _ => hg
  · exact hg

/-- A question other than a call gets no work into trouble. -/
theorem ComesTo.lift (d : Talk α) : ComesTo (fun _ => True) t (liftM d : Work α) := by
  refine ⟨?_⟩
  show Confined _ _ (Except.ok <$> d)
  rw [map_eq_pure_bind]
  exact (confined_true d).bind fun a _ => Confined.pure ⟨fun _ _ => trivial, fun x hx => absurd hx (by simp)⟩

/-- Supervised work has a result of its own, or it fails, or it is cancelled. -/
theorem ComesTo.confined_recorded {kind : ResourceKind} {name : String} {e : Result → Prop} {w : Work Result}
    (h : ComesTo e t w) (hstuck : ∀ op reason fk, t (.failed op reason fk) → e (.stuck kind name op reason fk))
    (hcancelled : e (.cancelled kind name)) :
    (do let ending ← supervise kind name w; return ending.recorded : Talk Recorded).Confined
      (fun _ => True) (Recorded.All e) := by
  have hone : ∀ x, e x → Recorded.All e (.ok [x]) := fun x hx => (Recorded.all_ok_iff _).2 (by simpa using hx)
  have hsupervise : (supervise kind name w).Confined (fun _ => True) fun ending =>
      ending.recorded.All e := by
    refine Confined.bind (Confined.query (q := Query.cancelled) (e := fun _ => True) trivial
      fun _ => trivial) fun cancelled _ => ?_
    cases cancelled with
    | true => exact hone _ hcancelled
    | false =>
      refine h.confined.bind fun a ha => ?_
      match a with
      | .ok x => exact hone x (ha.1 x rfl)
      | .error (.failed op reason fk) => exact hone _ (hstuck op reason fk (ha.2 _ rfl))
      | .error (.unwritable why) => exact fun rs hrs => absurd hrs (by simp [Ending.recorded])
  exact hsupervise.bind fun _ h => Confined.pure h

end Work

end VirtualTopology
