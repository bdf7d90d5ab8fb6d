import VirtualTopology.Proofs.Host.Rest
import VirtualTopology.Proofs.Pass.Work

/-!
# Dialogues that only look

A host has only been looked at (`Memory.Looked`) if nothing but reading calls has been written down and all
the rest is as it was. A dialogue peeks (`Talk.Peeks`) if on calm hosts with given tables it only looks and
comes to a given value. The rules follow the program like those for `Talk.Ends`; a call may be made if it
reads and the tables answer it without a change.
-/

namespace VirtualTopology

/-- Whether a host has only been looked at: reading calls have been written down, and nothing else has
changed. -/
def Memory.Looked (m n : Memory) : Prop :=
  ∃ calls : List Call, (∀ c ∈ calls, c.isReading = true) ∧ n = { m with log := m.log ++ calls }

namespace Memory.Looked

variable {m n o : Memory}

theorem refl (m : Memory) : m.Looked m := ⟨[], by simp, by simp⟩

theorem trans (h : m.Looked n) (h' : n.Looked o) : m.Looked o := by
  obtain ⟨xs, hxs, rfl⟩ := h
  obtain ⟨ys, hys, rfl⟩ := h'
  refine ⟨xs ++ ys, fun c hc => ?_, by simp⟩
  exact (List.mem_append.1 hc).elim (hxs c) (hys c)

theorem tables_eq (h : m.Looked n) : n.tables = m.tables := by
  obtain ⟨xs, -, rfl⟩ := h
  rfl

end Memory.Looked

namespace Talk

variable {α β : Type} {t : Tables} {a : α} {b : β}

/-- The value of a dialogue that only looks, on every calm host with given tables. -/
structure Peeks (t : Tables) (d : Talk α) (a : α) : Prop where
  run : ∀ m : Memory, m.Calm → m.tables = t → (m.run d).1 = a ∧ m.Looked (m.run d).2

namespace Peeks

theorem pure (a : α) : Peeks t (Pure.pure a) a := ⟨fun m _ _ => ⟨rfl, .refl m⟩⟩

theorem bind {d : Talk α} {f : α → Talk β} (hd : Peeks t d a) (hf : Peeks t (f a) b) :
    Peeks t (d >>= f) b := by
  refine ⟨fun m hm ht => ?_⟩
  obtain ⟨ha, hlooked⟩ := hd.run m hm ht
  rw [Memory.run_bind, ha]
  obtain ⟨hb, hlooked'⟩ := hf.run _ (hm.run d) (hlooked.tables_eq.trans ht)
  exact ⟨hb, hlooked.trans hlooked'⟩

/-- A reading call that the tables answer without a change. -/
theorem call {c : Call} {a : c.Answer} (hreading : c.isReading = true)
    (h : ∀ polls, t.serve polls c = .ok (a, t)) : Peeks t c.ask (.ok a) := by
  refine ⟨fun m hm ht => ?_⟩
  subst ht
  rw [Memory.run_call, hm.call_eq_of_serve (h m.polls)]
  exact ⟨rfl, [c], by simpa using hreading, rfl⟩

/-! ### Work -/

variable {w : Work α} {f : α → Work β} {x : Except Trouble β}

theorem andThen (hw : Peeks t w.run (.ok a)) (hf : Peeks t (f a).run x) : Peeks t (w >>= f).run x := by
  rw [ExceptT.run_bind]
  exact hw.bind hf

/-- A step that is left out if there is no need for it. -/
theorem skip {w : Work Unit} {f : Unit → Work β} {p : Prop} [Decidable p] (h : ¬ p)
    (hf : Peeks t (f ()).run x) : Peeks t (if p then w >>= f else f ()).run x := by
  rw [if_neg h]
  exact hf

theorem attempt {op : Operation} {c : Call} {a : c.Answer} (hreading : c.isReading = true)
    (h : ∀ polls, t.serve polls c = .ok (a, t)) : Peeks t (Work.attempt op c).run (.ok a) := by
  have hask : Peeks t (liftM c.ask : Work (Except HostError c.Answer)).run (.ok (.ok a)) :=
    (call hreading h).bind (.pure _)
  exact hask.andThen (.pure _)

theorem supervise {kind : ResourceKind} {name : String} (hw : Peeks t w.run (.ok a)) :
    Peeks t (VirtualTopology.supervise kind name w) (.finished a) := by
  refine ⟨fun m hm ht => ?_⟩
  obtain ⟨ha, hlooked⟩ := hw.run m hm ht
  rw [hm.uncancelled.run_supervise, ha]
  exact ⟨rfl, hlooked⟩

/-- Work that is recorded. -/
theorem record {kind : ResourceKind} {name : String} {w : Work Result} {r : Result}
    (hw : Peeks t w.run (.ok r)) :
    Peeks t (do let ending ← VirtualTopology.supervise kind name w; return ending.recorded)
      (.ok [r]) := hw.supervise.bind (.pure _)

/-! ### Tasks -/

/-- Tasks one after the other give the results of each. -/
theorem gather {ι : Type} {items : List ι} {task : ι → Talk Recorded} {told : ι → List Result}
    (h : ∀ i ∈ items, Peeks t (task i) (.ok (told i))) :
    Peeks t (VirtualTopology.gather (items.map task)) (.ok (items.flatMap told)) := by
  induction items with
  | nil => exact .pure _
  | cons i items ih => exact (h i (by simp)).bind ((ih fun j hj => h j (by simp [hj])).bind (.pure _))

end Peeks

/-! ### Looks at entries -/

variable {k : DefinedKind} {name : String} {r : StoredResource} {op : Operation}

theorem peeks_read (hr : t.get? k name = some r) :
    Peeks t (Work.attempt op (.read k name)).run (.ok r.document) := by
  exact .attempt rfl fun _ => Work.admits_read.serve_self hr

/-- A resource that is not on its way down is not changed by a look. -/
theorem peeks_isActive (hrest : t.AtRest) (hr : t.get? k name = some r) :
    Peeks t (Work.attempt op (.isActive k name)).run (.ok r.active) := by
  have hseen := StoredResource.seen_eq_self (hrest k name r hr)
  refine .attempt rfl fun polls => ?_
  have hserve := hseen ▸ (Work.admits_isActive : Work.Admits polls k name r _ _ _)
  exact hserve.serve_self hr

theorem peeks_isAutostart (hr : t.get? k name = some r) :
    Peeks t (Work.attempt op (.isAutostart k name)).run (.ok r.autostart) := by
  exact .attempt rfl fun _ => Work.admits_isAutostart.serve_self hr

end Talk

end VirtualTopology
