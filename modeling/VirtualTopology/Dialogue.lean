/-!
# Dialogues

A `Dialogue` is a program that asks queries, one after the other, and ends with a value. The type of
a reply depends on the query. What a dialogue does is settled by whoever answers: `Dialogue.run`
answers from a state that the answers change, so that the same program can be run against a host in
memory, against a daemon, or against any other.

The laws `run_pure`, `run_ask` and `run_bind` say that running a sequence of dialogues is running one
after the other.
-/

namespace VirtualTopology

/-- A program that asks queries and ends with a value. -/
inductive Dialogue (Query : Type) (Reply : Query → Type) (α : Type) where
  | done (value : α)
  | ask (query : Query) (next : Reply query → Dialogue Query Reply α)

namespace Dialogue

variable {Query : Type} {Reply : Query → Type} {α β γ σ : Type}

/-- Go on with the value at the end. -/
def bind : Dialogue Query Reply α → (α → Dialogue Query Reply β) → Dialogue Query Reply β
  | done a, f => f a
  | ask q next, f => ask q fun r => (next r).bind f

instance : Monad (Dialogue Query Reply) where
  pure := done
  bind := bind

/-- Ask one query and end with the reply. -/
def query (q : Query) : Dialogue Query Reply (Reply q) := ask q done

/-- Run a dialogue with someone who answers from a state. -/
def run (answer : σ → (q : Query) → Reply q × σ) : Dialogue Query Reply α → σ → α × σ
  | done a, s => (a, s)
  | ask q next, s =>
      match answer s q with
      | (r, s) => (next r).run answer s

theorem bind_done (f : α → Dialogue Query Reply β) (a : α) : bind (done a) f = f a := rfl

theorem bind_pure (d : Dialogue Query Reply α) : bind d done = d := by
  induction d with
  | done a => rfl
  | ask q next ih => simp [bind, ih]

theorem bind_assoc (d : Dialogue Query Reply α) (f : α → Dialogue Query Reply β)
    (g : β → Dialogue Query Reply γ) : bind (bind d f) g = bind d fun a => bind (f a) g := by
  induction d with
  | done a => rfl
  | ask q next ih => simp [bind, ih]

instance : LawfulMonad (Dialogue Query Reply) :=
  LawfulMonad.mk' _ (fun d => bind_pure d) (fun a f => bind_done f a)
    (fun d f g => bind_assoc d f g)

@[simp] theorem run_pure (answer : σ → (q : Query) → Reply q × σ) (a : α) (s : σ) :
    run answer (pure a : Dialogue Query Reply α) s = (a, s) := rfl

@[simp] theorem run_query (answer : σ → (q : Query) → Reply q × σ) (q : Query) (s : σ) :
    run answer (query q : Dialogue Query Reply (Reply q)) s = answer s q := rfl

@[simp] theorem run_bind (answer : σ → (q : Query) → Reply q × σ) (d : Dialogue Query Reply α)
    (f : α → Dialogue Query Reply β) (s : σ) :
    run answer (d >>= f) s = run answer (f (run answer d s).1) (run answer d s).2 := by
  show run answer (bind d f) s = _
  induction d generalizing s with
  | done a => rfl
  | ask q next ih => exact ih (answer s q).1 (answer s q).2

end Dialogue

end VirtualTopology
