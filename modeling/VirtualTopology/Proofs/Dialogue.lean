import VirtualTopology.Dialogue

/-!
# Confined dialogues

A dialogue is confined (`Dialogue.Confined`) if it asks nothing but allowed queries, whatever the replies
are, and ends with nothing but allowed values. Dialogues one after the other are confined if each of them
is (`Confined.bind`), and what the allowed queries preserve, a confined dialogue preserves from its start
to its end (`Confined.run_invariant`).
-/

namespace VirtualTopology.Dialogue

variable {Query : Type} {Reply : Query → Type} {α β σ : Type}

/-- Whether a dialogue asks allowed queries only and ends with allowed values only. -/
def Confined (p : Query → Prop) (e : α → Prop) : Dialogue Query Reply α → Prop
  | done a => e a
  | ask q next => p q ∧ ∀ r, (next r).Confined p e

variable {p : Query → Prop} {e : α → Prop} {e' : β → Prop} {d : Dialogue Query Reply α}

theorem Confined.pure {a : α} (h : e a) :
    Confined p e (Pure.pure a : Dialogue Query Reply α) := h

theorem Confined.query {q : Query} {e : Reply q → Prop} (hq : p q) (he : ∀ r, e r) :
    Confined p e (Dialogue.query q : Dialogue Query Reply (Reply q)) := ⟨hq, he⟩

theorem Confined.bind (h : d.Confined p e) {f : α → Dialogue Query Reply β}
    (hf : ∀ a, e a → (f a).Confined p e') : (d >>= f).Confined p e' := by
  show (Dialogue.bind d f).Confined p e'
  induction d with
  | done a => exact hf a h
  | ask q next ih => exact ⟨h.1, fun r => ih r (h.2 r)⟩

theorem Confined.mono {p' : Query → Prop} {e' : α → Prop} (h : d.Confined p e)
    (hp : ∀ q, p q → p' q) (he : ∀ a, e a → e' a) : d.Confined p' e' := by
  induction d with
  | done a => exact he a h
  | ask q next ih => exact ⟨hp q h.1, fun r => ih r (h.2 r)⟩

theorem Confined.and {p' : Query → Prop} {e' : α → Prop} (h : d.Confined p e)
    (h' : d.Confined p' e') : d.Confined (fun q => p q ∧ p' q) fun a => e a ∧ e' a := by
  induction d with
  | done a => exact ⟨h, h'⟩
  | ask q next ih => exact ⟨⟨h.1, h'.1⟩, fun r => ih r (h.2 r) (h'.2 r)⟩

/-- A run of a confined dialogue ends with an allowed value. -/
theorem Confined.run_value (h : d.Confined p e) (answer : σ → (q : Query) → Reply q × σ) (s : σ) :
    e (run answer d s).1 := by
  induction d generalizing s with
  | done a => exact h
  | ask q next ih => exact ih _ (h.2 _) _

/-- **What every allowed query preserves, a run of a confined dialogue preserves.** -/
theorem Confined.run_invariant (h : d.Confined p e) {answer : σ → (q : Query) → Reply q × σ}
    {I : σ → Prop} (hstep : ∀ s q, p q → I s → I (answer s q).2) {s : σ} (hs : I s) :
    I (run answer d s).2 := by
  induction d generalizing s with
  | done a => exact hs
  | ask q next ih => exact ih _ (h.2 _) (hstep s q h.1 hs)

/-- Every dialogue is confined to all queries and values. -/
theorem confined_true (d : Dialogue Query Reply α) : d.Confined (fun _ => True) fun _ => True := by
  induction d with
  | done a => trivial
  | ask q next ih => exact ⟨trivial, ih⟩

/-- What every query preserves, every run preserves. -/
theorem run_invariant {answer : σ → (q : Query) → Reply q × σ} {I : σ → Prop}
    (hstep : ∀ s q, I s → I (answer s q).2) (d : Dialogue Query Reply α) {s : σ} (hs : I s) :
    I (run answer d s).2 :=
  (confined_true d).run_invariant (fun s q _ => hstep s q) hs

end VirtualTopology.Dialogue
