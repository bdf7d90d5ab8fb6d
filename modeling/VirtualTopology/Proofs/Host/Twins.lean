import VirtualTopology.Proofs.Host.Calm
import VirtualTopology.Proofs.Host.Failures
import VirtualTopology.Proofs.Host.Places

/-!
# Twin hosts

Two hosts are twins as far as some places go (`Memory.Twins`) if these places are the same on both and the
calls that they settle fail alike from now on. A dialogue agrees (`Talk.Agrees`) if on twins it comes to the
same and leaves twins behind; the rules for that follow the program. A dialogue that avoids the places leaves
twins behind, whatever it comes to and whatever the other host goes through (`Memory.Twins.run_left`).

All of this is about hosts in order (`Memory.Orderly`): they are not cancelled, and what strikes their calls
is addressed. The guests that are waited for when they shut down turn off at once or not at all, so that it
does not matter how often they are looked at.
-/

namespace VirtualTopology

open Dialogue

namespace Memory

variable {waits : String → Prop} {m n o : Memory}

/-- A host in order. `waits` tells which guests are waited for. -/
structure Orderly (waits : String → Prop) (m : Memory) : Prop where
  uncancelled : m.Uncancelled
  addressed : ∀ d ∈ m.disruptions, d.IsAddressed
  /-- A guest that is waited for shuts down at once or not at all. -/
  prompt : ∀ name, waits name → (m.polls.get? name).getD 0 ≤ 0
  rests : ∀ name, waits name → m.tables.RestsAt .domain name
  /-- A look at a guest that is waited for and does not shut down fails always or never. -/
  looks : ∀ name, waits name → (m.polls.get? name).getD 0 < 0 →
    ∀ d ∈ m.disruptions, d.concerns (Call.isActive .domain name).word name = true → d.IsSteady

/-- **A host in order stays in order.** -/
theorem Orderly.answer (h : m.Orderly waits) (q : Query) : (m.answer q).2.Orderly waits := by
  have hbecomes : ∀ d' ∈ (m.answer q).2.disruptions, ∃ d ∈ m.disruptions, d.Becomes d' := by
    intro d' hd'
    rw [disruptions_answer] at hd'
    cases q with
    | call c => exact Disruption.exists_becomes_of_mem hd'
    | cancelled | now | sleep _ => exact ⟨d', hd', .refl d'⟩
  refine ⟨h.uncancelled.answer q, fun d' hd' => ?_, fun name hname => ?_, fun name hname => ?_,
    fun name hname hpolls d' hd' hconcerns => ?_⟩
  · obtain ⟨d, hd, hb⟩ := hbecomes d' hd'
    exact hb.isAddressed (h.addressed d hd)
  · rw [polls_answer]
    exact h.prompt name hname
  · cases q with
    | call c =>
      rcases tables_call m c with heq | ⟨a, ha⟩
      · exact heq ▸ h.rests name hname
      · exact (h.rests name hname).becomes (fun _ => h.prompt name hname) (Tables.becomes_of_serve ha)
    | cancelled | now | sleep _ => exact h.rests name hname
  · rw [polls_answer] at hpolls
    obtain ⟨d, hd, hb⟩ := hbecomes d' hd'
    rw [hb.concerns_eq] at hconcerns
    exact hb.isSteady (h.looks name hname hpolls d hd hconcerns)

theorem Orderly.run {α : Type} (h : m.Orderly waits) (d : Talk α) : (m.run d).2.Orderly waits :=
  Dialogue.run_invariant (fun _ q hs => hs.answer q) d h

end Memory

/-! ### Twins -/

/-- Whether some places settle what a call does. -/
def Call.Within (P : Place → Prop) (c : Call) : Prop := ∀ x, c.Reads x → P x

/-- A call that neither changes some places nor moves on what is in store for calls that they settle. -/
structure Call.Avoids (P : Place → Prop) (c : Call) : Prop where
  writes : ∀ x, P x → ¬ c.Writes x
  key : ∀ c' : Call, c'.Within P → c'.key ≠ c.key

/-- A call about a network or domain avoids places that are none of its own. -/
theorem Call.avoids_of_isAbout {P : Place → Prop} {k : DefinedKind} {name : String} {c : Call}
    (hc : c.IsAbout k name) (hk : k ≠ .pool) (hresource : ¬ P (.resource k name)) (hentry : ¬ P (.entry k name))
    (hlisted : ¬ P (.listed k name)) : c.Avoids P := by
  refine ⟨fun x hx hwrites => ?_, fun c' hc' hkey => ?_⟩
  · rcases writes_cases hc hwrites with rfl | rfl | rfl | ⟨hpool, -⟩
    · exact hresource hx
    · exact hentry hx
    · exact hlisted hx
    · exact hk hpool
  · have hvolume : c.volume? = none := by
      cases c with
      | createVolume _ _ | readVolume _ _ | deleteVolume _ _ | resizeVolume _ _ _ =>
        exact absurd (congrArg Prod.fst hc).symm hk
      | list _ | read _ _ | define _ _ | undefine _ _ | start _ _ | stop _ _ _ | isActive _ _ | isAutostart _ _
      | setAutostart _ _ _ | listVolumes _ => rfl
    have habout : c'.IsAbout k name := (target_eq_of_key_eq hkey.symm hvolume).symm.trans hc
    exact hresource (hc' _ (reads_resource habout))

namespace Memory

variable {waits : String → Prop} {P Q : Place → Prop} {m n o : Memory}

/-- Hosts in order that are the same as far as some places go. -/
structure Twins (waits : String → Prop) (P : Place → Prop) (m n : Memory) : Prop where
  left : m.Orderly waits
  right : n.Orderly waits
  same : ∀ x, P x → x.Same m.tables n.tables
  polls : m.polls = n.polls
  failures : ∀ c : Call, c.Within P → c.failures m.disruptions = c.failures n.disruptions

namespace Twins

theorem refl (h : m.Orderly waits) : Twins waits P m m := ⟨h, h, fun x _ => .refl x _, rfl, fun _ _ => rfl⟩

theorem symm (h : Twins waits P m n) : Twins waits P n m :=
  ⟨h.right, h.left, fun x hx => (h.same x hx).symm, h.polls.symm, fun c hc => (h.failures c hc).symm⟩

theorem trans (h : Twins waits P m n) (h' : Twins waits P n o) : Twins waits P m o :=
  ⟨h.left, h'.right, fun x hx => (h.same x hx).trans (h'.same x hx), h.polls.trans h'.polls,
    fun c hc => (h.failures c hc).trans (h'.failures c hc)⟩

theorem mono (h : Twins waits P m n) (hsub : ∀ x, Q x → P x) : Twins waits Q m n :=
  ⟨h.left, h.right, fun x hx => h.same x (hsub x hx), h.polls,
    fun c hc => h.failures c fun x hx => hsub x (hc x hx)⟩

/-- **A call that the places settle** has the same answer on twins and leaves twins behind. -/
theorem call (h : Twins waits P m n) {c : Call} (hc : c.Within P) :
    (m.call c).1 = (n.call c).1 ∧ Twins waits P (m.call c).2 (n.call c).2 := by
  have hstore : ∀ c' : Call, c'.Within P →
      c'.failures (m.call c).2.disruptions = c'.failures (n.call c).2.disruptions := by
    intro c' hc'
    rw [show (m.call c).2.disruptions = _ from disruptions_answer m (.call c),
      show (n.call c).2.disruptions = _ from disruptions_answer n (.call c)]
    exact Call.failures_strike?_congr h.left.addressed h.right.addressed (h.failures c' hc') c
  have hpolls : (m.call c).2.polls = (n.call c).2.polls := by
    rw [show (m.call c).2.polls = _ from polls_answer m (.call c), h.polls]
    exact (polls_answer n (.call c)).symm
  suffices hends : (m.call c).1 = (n.call c).1 ∧ ∀ x, P x → x.Same (m.call c).2.tables (n.call c).2.tables from
    ⟨hends.1, h.left.answer (.call c), h.right.answer (.call c), hends.2, hpolls, hstore⟩
  have hstruck : (m.receive c).1 = (n.receive c).1 := congrFun (h.failures c hc) 0
  rw [call_eq, call_eq, hstruck]
  cases (n.receive c).1 with
  | some e => exact ⟨rfl, h.same⟩
  | none =>
    rw [h.polls]
    have halike : Tables.ServesAlike n.polls m.tables n.tables c := Tables.serve_of_same fun x hx => h.same x (hc x hx)
    rcases halike with ⟨e, hm, hn⟩ | ⟨a, t, u, hm, hn, hsame⟩
    · rw [hm, hn]
      exact ⟨rfl, h.same⟩
    · rw [hm, hn]
      exact ⟨rfl, fun x hx => hsame x (h.same x hx)⟩

/-- **A call elsewhere** leaves twins behind. -/
theorem call_left (h : Twins waits P m n) {c : Call} (hc : c.Avoids P) : Twins waits P (m.call c).2 n := by
  refine ⟨h.left.answer (.call c), h.right, fun x hx => .trans ?_ (h.same x hx), ?_, fun c' hc' => ?_⟩
  · rcases tables_call m c with heq | ⟨a, ha⟩
    · rw [heq]
      exact .refl x _
    · exact (Tables.same_serve ha (hc.writes x hx)).symm
  · exact (polls_answer m (.call c)).trans h.polls
  · rw [show (m.call c).2.disruptions = _ from disruptions_answer m (.call c), ← h.failures c' hc']
    exact Call.failures_strike?_of_key_ne h.left.addressed (hc.key c' hc')

theorem answer_left (h : Twins waits P m n) {q : Query} (hq : q.CallsOnly (Call.Avoids P)) :
    Twins waits P (m.answer q).2 n := by
  cases q with
  | call c => exact h.call_left hq
  | cancelled => exact h
  | now => exact h
  | sleep s => exact ⟨h.left.answer (.sleep s), h.right, h.same, h.polls, h.failures⟩

/-- **A dialogue elsewhere leaves twins behind.** -/
theorem run_left {α : Type} {d : Talk α} {e : α → Prop} (h : Twins waits P m n)
    (hd : d.Confined (Query.CallsOnly (Call.Avoids P)) e) : Twins waits P (m.run d).2 n :=
  run_invariant hd (I := fun s => Twins waits P s n) (fun _ _ hq hs => hs.answer_left hq) h

end Twins

end Memory

/-! ### Dialogues that agree -/

namespace Talk

variable {α β : Type} {waits : String → Prop} {P : Place → Prop}

/-- Whether two dialogues, one on each of two hosts, end as told. -/
def Relates (A : Memory → Memory → Prop) (d : Talk α) (d' : Talk β)
    (B : α → β → Memory → Memory → Prop) : Prop :=
  ∀ m n, A m n → B (m.run d).1 (n.run d').1 (m.run d).2 (n.run d').2

/-- Whether a dialogue comes to the same on twins and leaves twins behind. -/
def Agrees (waits : String → Prop) (P : Place → Prop) (d : Talk α) : Prop :=
  Relates (Memory.Twins waits P) d d fun a b m n => a = b ∧ Memory.Twins waits P m n

namespace Agrees

theorem pure (a : α) : Agrees waits P (Pure.pure a : Talk α) := fun _ _ h => ⟨rfl, h⟩

theorem bind {d : Talk α} {f : α → Talk β} (hd : Agrees waits P d) (hf : ∀ a, Agrees waits P (f a)) :
    Agrees waits P (d >>= f) := by
  intro m n h
  obtain ⟨hvalue, htwins⟩ := hd m n h
  rw [Memory.run_bind, Memory.run_bind, hvalue]
  exact hf _ _ _ htwins

/-- What a dialogue that agrees comes to on twins. -/
theorem of_run {d : Talk α} {m m' n n' : Memory} {a b : α} (hd : Agrees waits P d) (h : Memory.Twins waits P m n)
    (hm : m.run d = (a, m')) (hn : n.run d = (b, n')) : a = b ∧ Memory.Twins waits P m' n' := by
  have hend := hd m n h
  rwa [hm, hn] at hend

/-- A dialogue that agrees comes to the same on a twin. -/
theorem exists_run {d : Talk α} {m m' n : Memory} {a : α} (hd : Agrees waits P d) (h : Memory.Twins waits P m n)
    (hm : m.run d = (a, m')) : ∃ n', n.run d = (a, n') ∧ Memory.Twins waits P m' n' := by
  obtain ⟨hvalue, htwins⟩ := hd m n h
  rw [hm] at hvalue htwins
  exact ⟨(n.run d).2, Prod.ext hvalue.symm rfl, htwins⟩

theorem map {d : Talk α} (hd : Agrees waits P d) (f : α → β) : Agrees waits P (f <$> d) := by
  rw [← bind_pure_comp]
  exact hd.bind fun a => pure (f a)

theorem call {c : Call} (hc : c.Within P) : Agrees waits P c.ask := fun _ _ h => h.call hc

theorem cancelled : Agrees waits P (query Query.cancelled : Talk Bool) := fun _ _ h =>
  ⟨h.left.uncancelled.cancelled.trans h.right.uncancelled.cancelled.symm, h⟩

/-! ### Work -/

section

variable {w : Work α} {f : α → Work β}

theorem seq (hw : Agrees waits P w.run) (hf : ∀ a, Agrees waits P (f a).run) : Agrees waits P (w >>= f).run := by
  rw [ExceptT.run_bind]
  refine hw.bind fun a => ?_
  cases a with
  | ok a => exact hf a
  | error e => exact pure _

theorem attempt {op : Operation} {c : Call} (hc : c.Within P) : Agrees waits P (Work.attempt op c).run := by
  have hlift : Agrees waits P (liftM c.ask : Work _).run := (call hc).map Except.ok
  refine hlift.seq fun reply => ?_
  cases reply with
  | ok a => exact pure _
  | error e => exact pure _

theorem change {dry : Bool} {op : Operation} {c : Call} (hc : dry = false → c.Within P) :
    Agrees waits P (Work.change dry op c).run := by
  cases dry with
  | true => exact pure _
  | false => exact (attempt (hc rfl)).seq fun _ => pure _

/-- What is done with a text, if it can be written. -/
theorem seqWriting {x : Except Unwritable String} {f : String → Work β}
    (hf : ∀ text, x = .ok text → Agrees waits P (f text).run) :
    Agrees waits P (Work.writing x >>= f).run := by
  cases x with
  | ok text => exact hf text rfl
  | error why => exact pure _

theorem stating (sizes : List Nat) (text : String) : Agrees waits P (Work.stating sizes text).run := by
  unfold Work.stating
  split
  · exact pure _
  · exact pure _

/-- A step that is left out if there is no need for it. -/
theorem seqIf {w : Work Unit} {f : Unit → Work β} {b : Prop} [Decidable b] (hw : Agrees waits P w.run)
    (hf : Agrees waits P (f ()).run) : Agrees waits P (if b then w >>= f else f ()).run := by
  split
  · exact hw.seq fun _ => hf
  · exact hf

end

theorem supervise {w : Work α} (hw : Agrees waits P w.run) (kind : ResourceKind) (name : String) :
    Agrees waits P (VirtualTopology.supervise kind name w) := by
  refine cancelled.bind fun gone => ?_
  split
  · exact pure _
  · refine hw.bind fun a => ?_
    split <;> exact pure _

theorem gather {ts : List (Talk Recorded)} (h : ∀ t ∈ ts, Agrees waits P t) :
    Agrees waits P (VirtualTopology.gather ts) := by
  induction ts with
  | nil => exact pure _
  | cons t ts ih =>
    refine (h t (by simp)).bind fun r => ?_
    exact (ih fun s hs => h s (by simp [hs])).bind fun rs => pure _

end Agrees

end Talk

end VirtualTopology
