import VirtualTopology.Proofs.Pass.Steps

/-!
# Exchanges

Whoever answers, a run of a dialogue is an exchange of queries and replies (`Dialogue.exchanges`). A dialogue attests
a relation between what is exchanged in it and its value (`Dialogue.Attests`) if the relation holds whatever the replies
are; then it holds of the exchanges and the value of every run (`Attests.run`).

The work on a resource owns up (`Work.OwnsUp`): if a problem is met in it, then it ends there and fails for the reason
that the problem gives, and nothing but a text that cannot be written ends it in another way.
-/

namespace VirtualTopology

namespace Dialogue

variable {Query : Type} {Reply : Query → Type} {α β σ : Type}

/-- A query and the reply to it. -/
structure Exchange (Query : Type) (Reply : Query → Type) where
  query : Query
  reply : Reply query

/-- What is exchanged in a run. -/
def exchanges (answer : σ → (q : Query) → Reply q × σ) : Dialogue Query Reply α → σ → List (Exchange Query Reply)
  | done _, _ => []
  | ask q next, s => ⟨q, (answer s q).1⟩ :: (next (answer s q).1).exchanges answer (answer s q).2

/-- Whether what is exchanged in a dialogue and its value are related, whatever the replies are. -/
def Attests (P : List (Exchange Query Reply) → α → Prop) : Dialogue Query Reply α → Prop
  | done a => P [] a
  | ask q next => ∀ r, (next r).Attests fun xs a => P (⟨q, r⟩ :: xs) a

namespace Attests

variable {P : List (Exchange Query Reply) → α → Prop} {Q : List (Exchange Query Reply) → β → Prop}
  {d : Dialogue Query Reply α}

theorem pure {a : α} (h : P [] a) : (Pure.pure a : Dialogue Query Reply α).Attests P := h

theorem query {q : Query} {P : List (Exchange Query Reply) → Reply q → Prop} (h : ∀ r, P [⟨q, r⟩] r) :
    (Dialogue.query q : Dialogue Query Reply (Reply q)).Attests P := h

/-- What is exchanged in two dialogues is exchanged in one after the other. -/
theorem bind (h : d.Attests P) {f : α → Dialogue Query Reply β}
    (hf : ∀ xs a, P xs a → (f a).Attests fun ys b => Q (xs ++ ys) b) : (d >>= f).Attests Q := by
  show (Dialogue.bind d f).Attests Q
  induction d generalizing P Q with
  | done a => exact hf [] a h
  | ask q next ih => exact fun r => ih r (h r) fun xs a hP => hf (⟨q, r⟩ :: xs) a hP

theorem mono {P' : List (Exchange Query Reply) → α → Prop} (h : d.Attests P) (hP : ∀ xs a, P xs a → P' xs a) :
    d.Attests P' := by
  induction d generalizing P P' with
  | done a => exact hP [] a h
  | ask q next ih => exact fun r => ih r (h r) fun xs a => hP (⟨q, r⟩ :: xs) a

theorem and {P' : List (Exchange Query Reply) → α → Prop} (h : d.Attests P) (h' : d.Attests P') :
    d.Attests fun xs a => P xs a ∧ P' xs a := by
  induction d generalizing P P' with
  | done a => exact ⟨h, h'⟩
  | ask q next ih => exact fun r => ih r (h r) (h' r)

/-- In a confined dialogue only allowed queries are exchanged. -/
theorem of_confined {p : Query → Prop} {e : α → Prop} (h : d.Confined p e) :
    d.Attests fun xs a => (∀ x ∈ xs, p x.query) ∧ e a := by
  induction d with
  | done a => exact ⟨by simp, h⟩
  | ask q next ih =>
    exact fun r => (ih r (h.2 r)).mono fun xs a hxs => ⟨List.forall_mem_cons.2 ⟨h.1, hxs.1⟩, hxs.2⟩

/-- **In every run what is exchanged and the value are related**, whoever answers. -/
theorem run (h : d.Attests P) (answer : σ → (q : Query) → Reply q × σ) (s : σ) :
    P (d.exchanges answer s) (d.run answer s).1 := by
  induction d generalizing s P with
  | done a => exact h
  | ask q next ih => exact ih _ (h _) _

end Attests

end Dialogue

open Dialogue

/-! ### Problems -/

/-- Whether an exchange of a pass is a problem, for the reason that is told: a call that fails, or the document of a
volume that cannot be read. -/
inductive Dialogue.Exchange.IsProblem : Exchange Query Query.Reply → String → Prop where
  | failed (c : Call) (e : HostError) : IsProblem ⟨.call c, .error e⟩ e.message
  | malformed (pool name document : String) (unreadable : Element.read? document = none) :
      IsProblem ⟨.call (.readVolume pool name), .ok document⟩ "Unreadable live definition: malformed document"

/-- The failure of a call, if an exchange is one. -/
def Dialogue.Exchange.failure? : Exchange Query Query.Reply → Option HostError
  | ⟨.call _, .error e⟩ => some e
  | _ => none

/-- Whether the document of a volume that is exchanged states a size with more digits than can be written. -/
def Dialogue.Exchange.IsTooLong (x : Exchange Query Query.Reply) : Prop :=
  ∃ pool name document stored size, x = ⟨.call (.readVolume pool name), .ok document⟩ ∧
    Element.read? document = some stored ∧ stored.volumeCapacity? = some size ∧ Text.isWritable size = false

namespace Dialogue.Exchange

variable {c : Call} {a : c.Answer} {reason : String}

/-- A reply that answers a call is no problem, unless it is the document of a volume. -/
theorem not_isProblem_ok (hc : ∀ pool name, c ≠ .readVolume pool name) : ¬ IsProblem ⟨.call c, .ok a⟩ reason := by
  intro h
  generalize hx : (⟨.call c, .ok a⟩ : Exchange Query Query.Reply) = x at h
  cases h with
  | failed c' e =>
    cases hx
  | malformed pool name document unreadable =>
    cases hx
    exact hc _ _ rfl

/-- A call that fails is a problem. -/
theorem isProblem_of_failure? {x : Exchange Query Query.Reply} {e : HostError} (h : x.failure? = some e) :
    x.IsProblem e.message := by
  unfold failure? at h
  split at h
  · rw [← Option.some.inj h]
    exact .failed _ _
  · exact absurd h (by simp)

/-- Only calls meet problems. -/
theorem not_isProblem {x : Exchange Query Query.Reply} (hx : ∀ c, x.query ≠ .call c) : ¬ IsProblem x reason := by
  rintro (_ | _)
  · exact hx _ rfl
  · exact hx _ rfl

theorem eq_of_isProblem_error {e : HostError} (h : IsProblem ⟨.call c, .error e⟩ reason) : reason = e.message := by
  generalize hx : (⟨.call c, .error e⟩ : Exchange Query Query.Reply) = x at h
  cases h with
  | failed c' e' =>
    cases hx
    rfl
  | malformed => cases hx

theorem malformed_of_isProblem {pool name document : String}
    (h : IsProblem ⟨.call (.readVolume pool name), .ok document⟩ reason) :
    reason = "Unreadable live definition: malformed document" ∧ Element.read? document = none := by
  generalize hx : (⟨.call (.readVolume pool name), .ok document⟩ : Exchange Query Query.Reply) = x at h
  cases h with
  | failed c' e => cases hx
  | malformed pool name document unreadable =>
    cases hx
    exact ⟨rfl, unreadable⟩

end Dialogue.Exchange

/-! ### Work that owns up -/

namespace Work

variable {α β : Type} {C : Prop} {w : Work α} {f : α → Work β}

/-- Whether work ends as it has to by what is exchanged in it: it fails for the reason of each problem, and it ends
because something cannot be written only if there is cause for that in what is declared or in what is read. -/
structure Owns (C : Prop) (xs : List (Exchange Query Query.Reply)) (v : Except Trouble α) : Prop where
  told : ∀ x ∈ xs, ∀ reason, x.IsProblem reason → ∃ op fk, v = .error (.failed op reason fk)
  unwritable : ∀ why, v = .error (.unwritable why) → C ∨ ∃ x ∈ xs, x.IsTooLong

/-- Whether work owns up, whatever the replies are. -/
def OwnsUp (C : Prop) (w : Work α) : Prop := w.run.Attests (Owns C)

theorem Owns.nil {v : Except Trouble α} (h : ∀ why, v = .error (.unwritable why) → C) : Owns C [] v :=
  ⟨by simp, fun why hv => .inl (h why hv)⟩

theorem Owns.single {x : Exchange Query Query.Reply} {v : Except Trouble α}
    (told : ∀ reason, x.IsProblem reason → ∃ op fk, v = .error (.failed op reason fk))
    (unwritable : ∀ why, v = .error (.unwritable why) → C) : Owns C [x] v := by
  refine ⟨fun y hy reason hproblem => ?_, fun why hv => .inl (unwritable why hv)⟩
  obtain rfl := List.mem_singleton.1 hy
  exact told reason hproblem

/-- The work goes on behind exchanges that were no problem. -/
theorem Owns.behind {xs ys : List (Exchange Query Query.Reply)} {a : α} {v : Except Trouble β}
    (hxs : Owns C xs (.ok a)) (hys : Owns C ys v) : Owns C (xs ++ ys) v := by
  constructor
  · intro x hx reason hproblem
    rcases List.mem_append.1 hx with hx | hx
    · obtain ⟨op, fk, hfailed⟩ := hxs.told x hx reason hproblem
      exact absurd hfailed (by simp)
    · exact hys.told x hx reason hproblem
  · intro why hv
    refine (hys.unwritable why hv).imp_right ?_
    rintro ⟨x, hx, hlong⟩
    exact ⟨x, List.mem_append_right _ hx, hlong⟩

/-- Work that is left out behind trouble ends with the trouble. -/
theorem Owns.error {xs : List (Exchange Query Query.Reply)} {t : Trouble}
    (h : Owns C xs (.error t : Except Trouble α)) : Owns C xs (.error t : Except Trouble β) := by
  refine ⟨fun x hx reason hproblem => ?_, fun why hv => h.unwritable why (by rw [Except.error.inj hv])⟩
  obtain ⟨op, fk, ht⟩ := h.told x hx reason hproblem
  exact ⟨op, fk, by rw [Except.error.inj ht]⟩

/-- Work one after the other: what is exchanged first comes first. -/
theorem attests_bind {P : List (Exchange Query Query.Reply) → Except Trouble α → Prop}
    {Q : List (Exchange Query Query.Reply) → Except Trouble β → Prop} (hw : w.run.Attests P)
    (hok : ∀ xs a, P xs (.ok a) → (f a).run.Attests fun ys v => Q (xs ++ ys) v)
    (herror : ∀ xs t, P xs (.error t) → Q xs (.error t)) : (w >>= f).run.Attests Q := by
  rw [ExceptT.run_bind]
  refine hw.bind fun xs a hP => ?_
  cases a with
  | ok a => exact hok xs a hP
  | error t =>
    refine Attests.pure ?_
    rw [List.append_nil]
    exact herror xs t hP

/-- A call as part of a step. -/
theorem attests_attempt {op : Operation} {c : Call}
    {P : List (Exchange Query Query.Reply) → Except Trouble c.Answer → Prop}
    (hok : ∀ a, P [⟨.call c, .ok a⟩] (.ok a))
    (herror : ∀ e, P [⟨.call c, .error e⟩] (.error (.failed op e.message e.failureKind))) :
    (Work.attempt op c).run.Attests P := by
  intro r
  cases r with
  | ok a => exact hok a
  | error e => exact herror e

theorem attests_lift {q : Query} {P : List (Exchange Query Query.Reply) → Except Trouble q.Reply → Prop}
    (h : ∀ r, P [⟨q, r⟩] (.ok r)) : (liftM (Dialogue.query q : Talk q.Reply) : Work _).run.Attests P := h

namespace OwnsUp

theorem pure (a : α) : OwnsUp C (Pure.pure a : Work α) := Attests.pure (.nil fun _ h => absurd h (by simp))

theorem refuse (op : Operation) (reason : String) : OwnsUp C (Work.refuse op reason : Work α) :=
  Attests.pure (.nil fun _ h => absurd h (by simp))

theorem bind (hw : OwnsUp C w) (hf : ∀ a, OwnsUp C (f a)) : OwnsUp C (w >>= f) :=
  attests_bind hw (fun _ a hxs => (hf a).mono fun _ _ hys => hxs.behind hys) fun _ _ => .error

/-- A step that is left out if there is no need for it. -/
theorem bindIf {u : Work Unit} {g : Unit → Work β} {b : Prop} [Decidable b] (hu : OwnsUp C u)
    (hg : OwnsUp C (g ())) : OwnsUp C (if b then u >>= g else g ()) := by
  split
  · exact hu.bind fun _ => hg
  · exact hg

/-- A call that fails is owned up to. -/
theorem attempt (op : Operation) {c : Call} (hc : ∀ pool name, c ≠ .readVolume pool name) :
    OwnsUp C (Work.attempt op c) := by
  refine attests_attempt (fun a => ?_) fun e => ?_
  · exact .single (fun reason h => absurd h (Exchange.not_isProblem_ok hc)) fun _ h => absurd h (by simp)
  · refine .single (fun reason h => ?_) fun _ h => absurd h (by simp)
    exact ⟨op, e.failureKind, by rw [Exchange.eq_of_isProblem_error h]⟩

theorem change (dry : Bool) (op : Operation) {c : Call} (hc : ∀ pool name, c ≠ .readVolume pool name) :
    OwnsUp C (Work.change dry op c) := by
  cases dry with
  | true => exact pure ()
  | false => exact (attempt op hc).bind fun _ => pure ()

/-- What is not written, because it cannot be, is cause to end. -/
theorem written {x : Except Unwritable String} {f : String → Work β} (hx : ∀ why, x = .error why → C)
    (hf : ∀ text, OwnsUp C (f text)) : OwnsUp C (Work.writing x >>= f) := by
  refine bind ?_ hf
  cases x with
  | ok text => exact pure text
  | error why => exact Attests.pure (.nil fun why' _ => hx why rfl)

theorem stating {sizes : List Nat} (text : String) (h : ∀ n ∈ sizes, Text.isWritable n = false → C) :
    OwnsUp C (Work.stating sizes text) := by
  unfold Work.stating
  split
  · exact pure text
  · next hsizes =>
    refine Attests.pure (.nil fun _ _ => ?_)
    obtain ⟨n, hn, hlong⟩ := List.all_eq_false.1 (Bool.eq_false_iff.2 hsizes)
    exact h n hn (Bool.eq_false_iff.2 hlong)

/-- What is asked besides calls meets no problem. -/
theorem lift {q : Query} (hq : ∀ c, q ≠ .call c) : OwnsUp C (liftM (Dialogue.query q : Talk q.Reply) : Work _) :=
  attests_lift fun _ => .single (fun _ h => absurd h (Exchange.not_isProblem hq)) fun _ h => absurd h (by simp)

end OwnsUp

end Work

/- The rules follow the program; no proof about the work of a pass has to run it. -/
attribute [irreducible] Dialogue.Attests

/-! ### The work of a pass -/

namespace Started

open Work

/-- Behind the storing of its document nothing is written. -/
theorem ownsUp_finish (s : Started) (dry exists_ changed : Bool) {C : Prop} :
    OwnsUp C (s.finish dry exists_ changed) := by
  have hcarry : ∀ running autostart, OwnsUp C (do
        let p := s.plan exists_ changed running autostart
        if p.stop then Work.change dry .stop (.stop s.kind s.name false)
        if p.start then Work.change dry .start (.start s.kind s.name)
        if p.autostart then
          Work.change dry .autostart (.setAutostart s.kind s.name s.autostart)
        let readable := s.active && (running || !dry)
        return (s.result p, readable)) := by
    intro running autostart
    exact .bindIf (.change dry _ (by simp)) (.bindIf (.change dry _ (by simp))
      (.bindIf (.change dry _ (by simp)) (.pure _)))
  unfold finish
  cases exists_ with
  | true =>
    refine .bind (.attempt _ (by simp)) fun running => ?_
    exact .bind (.attempt _ (by simp)) fun autostart => hcarry running autostart
  | false =>
    refine .bind (.pure false) fun running => ?_
    exact .bind (.pure false) fun autostart => hcarry running autostart

/-- **The work on a network or a pool owns up.** -/
theorem ownsUp_sync (s : Started) (dry exists_ : Bool) :
    OwnsUp (∃ why, s.text = .error why) (s.sync dry exists_) := by
  rw [sync_eq]
  refine .written (fun why hwhy => ⟨why, hwhy⟩) fun text => ?_
  have hstore : ∀ changed, OwnsUp (∃ why, s.text = .error why) (do
      if changed then Work.change dry .define (.define s.kind text)
      s.finish dry exists_ changed) := fun changed =>
    .bindIf (.change dry _ (by simp)) (s.ownsUp_finish dry exists_ changed)
  cases exists_ with
  | true => exact .bind (.attempt _ (by simp)) fun stored => .bind (.pure _) hstore
  | false => exact .bind (.pure _) hstore

end Started

namespace VolumeEntry

open Work

/-- Whether an entry asks for a volume whose document cannot be written. -/
def IsUnwritable (e : VolumeEntry) : Prop :=
  e.present = true ∧ ∃ v why, e.volume = some v ∧ v.written = .error why

/-- A size that is declared can be written if the document can. -/
theorem isUnwritable_of_capacity {e : VolumeEntry} {v : Volume} (hpresent : e.present = true)
    (hvolume : e.volume = some v) (hlong : Text.isWritable v.capacity.toBytes = false) : e.IsUnwritable := by
  refine ⟨hpresent, v, .number, hvolume, ?_⟩
  rw [Volume.written, hlong]
  rfl

/-- Behind the reading of its document the work on a volume writes sizes: the one that is stored and the one that is
declared. -/
theorem ownsUp_weigh {e : VolumeEntry} {v : Volume} {document : String} {stored : Element} (dry : Bool) (pool : String)
    (hpresent : e.present = true) (hvolume : e.volume = some v) (hread : Element.read? document = some stored) :
    OwnsUp (e.IsUnwritable ∨ ∃ size, stored.volumeCapacity? = some size ∧ Text.isWritable size = false)
      (e.weigh dry pool v document) := by
  -- of the two sizes one is stored and one is declared, so a size too long to be written is owned up to
  have hsizes : ∀ {size : Nat} (text : String), stored.volumeCapacity? = some size →
      OwnsUp (e.IsUnwritable ∨ ∃ size, stored.volumeCapacity? = some size ∧ Text.isWritable size = false)
        (Work.stating [size, v.capacity.toBytes] text) := by
    intro size text hsize
    refine .stating text fun n hn hlong => ?_
    rcases List.mem_pair.1 hn with rfl | rfl
    · exact .inr ⟨n, hsize, hlong⟩
    · exact .inl (isUnwritable_of_capacity hpresent hvolume hlong)
  unfold weigh parsed
  simp only [hread, pure_bind]
  refine .bindIf (.refuse _ _) ?_
  cases hsize : stored.volumeCapacity? with
  | none => exact .pure _
  | some size =>
    dsimp only
    split
    · exact .pure _
    · rw [← hsize]
      have hgrow := OwnsUp.bind (.change dry .resize (c := .resizeVolume pool e.name v.capacity.toBytes) (by simp))
        fun _ => (hsizes s!"grown from {size} to {v.capacity.toBytes} bytes" hsize).bind fun said =>
          .pure (e.done pool .updated [said])
      split
      · exact (hsizes _ hsize).bind fun said => (OwnsUp.refuse .read said).bind fun _ => hgrow
      · exact hgrow

/-- The work on a volume that is there owns up: a document that is not well formed is a problem. -/
theorem ownsUp_adjust {e : VolumeEntry} {v : Volume} (dry : Bool) (pool : String) (hpresent : e.present = true)
    (hvolume : e.volume = some v) : OwnsUp e.IsUnwritable (e.adjust dry pool v) := by
  rw [adjust_eq]
  refine attests_bind (P := fun xs w => (∀ t, w = .error t → Owns e.IsUnwritable xs w) ∧
    ∀ document, w = .ok document → xs = [⟨.call (.readVolume pool e.name), .ok document⟩])
    (attests_attempt (fun a => ⟨fun t h => absurd h (by simp), fun document h => ?_⟩)
      fun x => ⟨fun t _ => ?_, fun document h => absurd h (by simp)⟩) ?_ fun xs t h => (h.1 t rfl).error
  · rw [Except.ok.inj h]
  · refine .single (fun reason h => ?_) fun _ h => absurd h (by simp)
    exact ⟨_, _, by rw [Exchange.eq_of_isProblem_error h]⟩
  · rintro xs document ⟨-, hxs⟩
    obtain rfl := hxs document rfl
    -- a document that is not well formed is a problem that no call tells, so the work tells it
    cases hread : Element.read? document with
    | none =>
      have hweigh : e.weigh dry pool v document =
          throw (.failed .read "Unreadable live definition: malformed document" .operational) := by
        unfold weigh parsed
        rw [hread]
        rfl
      rw [hweigh]
      refine Attests.pure (.single (fun reason h => ?_) fun _ h => absurd h (by simp))
      exact ⟨_, _, by rw [(Exchange.malformed_of_isProblem h).1]⟩
    | some stored =>
      refine Attests.mono (ownsUp_weigh dry pool hpresent hvolume hread) fun ys w howns => ?_
      have hfirst : ∀ reason, ¬ Exchange.IsProblem ⟨.call (.readVolume pool e.name), .ok document⟩ reason :=
        fun reason h => absurd ((Exchange.malformed_of_isProblem h).2.symm.trans hread) (by simp)
      refine ⟨fun x hx reason hproblem => ?_, fun why hw => ?_⟩
      · rcases List.mem_cons.1 hx with rfl | hx
        · exact absurd hproblem (hfirst reason)
        · exact howns.told x hx reason hproblem
      · rcases howns.unwritable why hw with (hdeclared | ⟨size, hsize, hlong⟩) | ⟨x, hx, hlong⟩
        · exact .inl hdeclared
        · exact .inr ⟨_, List.mem_cons_self, pool, e.name, document, stored, size, rfl, hread, hsize, hlong⟩
        · exact .inr ⟨x, List.mem_cons_of_mem _ hx, hlong⟩

/-- **The work on a volume owns up.** -/
theorem ownsUp_sync (e : VolumeEntry) (dry : Bool) (pool : String) (exists_ : Bool) :
    OwnsUp e.IsUnwritable (e.sync dry pool exists_) := by
  unfold sync
  cases hpresent : e.present with
  | false =>
    simp only [Bool.false_eq_true, if_false]
    split
    · exact .bind (.change dry _ (by simp)) fun _ => .pure _
    · exact .pure _
  | true =>
    simp only [if_true]
    cases hvolume : e.volume with
    | none => exact .pure _
    | some v =>
      cases exists_ with
      | true => exact ownsUp_adjust dry pool hpresent hvolume
      | false =>
        refine .written (fun why hwhy => ⟨hpresent, v, why, hvolume, hwhy⟩) fun text => ?_
        exact .bind (.change dry _ (by simp)) fun _ => .pure _

end VolumeEntry

namespace Domain

open Work

variable {C : Prop}

theorem ownsUp_awaitOff (name : String) (deadline : Binary64) (looks : Nat) :
    OwnsUp C (awaitOff name deadline looks) := by
  induction looks with
  | zero => exact .pure false
  | succ looks ih =>
    refine .bind (.attempt _ (by simp)) fun on => ?_
    split
    · refine .bind (.lift (q := .now) (by simp)) fun now => ?_
      dsimp only
      split
      · exact .pure false
      · exact .bind (.lift (q := .sleep _) (by simp)) fun _ => ih
    · exact .pure true

theorem ownsUp_restartNow (dry : Bool) (timeout : Binary64) (name : String) :
    OwnsUp C (restartNow dry timeout name) := by
  have hwait : OwnsUp C (waitForShutdown name timeout) :=
    .bind (.lift (q := .now) (by simp)) fun now => ownsUp_awaitOff _ _ _
  have hbehind : ∀ off : Bool, OwnsUp C (do
      if !off then Work.change dry .stop (.stop .domain name true)
      Work.change dry .start (.start .domain name)
      return if off then "restarted" else "restarted (forced off)") := fun off =>
    .bindIf (.change dry _ (by simp)) (.bind (.change dry _ (by simp)) fun _ => .pure _)
  refine .bind (.change dry _ (by simp)) fun _ => ?_
  cases dry with
  | true => exact .bind (.pure true) hbehind
  | false => exact .bind hwait hbehind

theorem ownsUp_power (x : Domain) (dry : Bool) (timeout : Binary64) (outcome : Outcome) (running : Bool) :
    OwnsUp C (x.power dry timeout outcome running) := by
  rcases x.power_cases timeout outcome running with ⟨h, -⟩ | ⟨h, -⟩ | ⟨h, -⟩ | ⟨said, h, -⟩
  · rw [h]
    exact .bind (.change dry _ (by simp)) fun _ => .pure _
  · rw [h]
    exact .bind (.change dry _ (by simp)) fun _ => .pure _
  · rw [h]
    exact .bind (ownsUp_restartNow dry timeout x.name) fun _ => .pure _
  · rw [h]
    exact .pure said

/-- **The work on a domain owns up.** -/
theorem ownsUp_sync (x : Domain) (dry : Bool) (timeout : Binary64) (exists_ : Bool) :
    OwnsUp (∃ why, x.written = .error why) (x.sync dry timeout exists_) := by
  rw [sync_eq]
  refine .bind ?_ fun stored => ?_
  · unfold store
    refine .written (fun why hwhy => ⟨why, hwhy⟩) fun text => ?_
    cases exists_ with
    | false => exact .bind (.change dry _ (by simp)) fun _ => .pure _
    | true =>
      refine .bind (.attempt _ (by simp)) fun document => ?_
      split
      · exact .pure _
      · exact .bind (.change dry _ (by simp)) fun _ => .pure _
  · unfold finish
    dsimp only
    split
    · exact .bind (.attempt _ (by simp)) fun running => .bind (x.ownsUp_power _ _ _ _) fun said => .pure _
    · exact .bind (.pure _) fun running => .bind (x.ownsUp_power _ _ _ _) fun said => .pure _

/-- The removal of a domain owns up. -/
theorem ownsUp_remove (dry : Bool) (name : String) : OwnsUp C (remove dry name) :=
  .bind (.attempt _ (by simp)) fun _ => .bind (.change dry _ (by simp)) fun _ => .pure _

end Domain

/-- The removal of a network or a pool owns up. -/
theorem Removal.ownsUp_remove {C : Prop} (dry : Bool) (kind : DefinedKind) (name : String) :
    Work.OwnsUp C (remove dry kind name) :=
  .bind (.change dry _ (by simp)) fun _ => .pure _

end VirtualTopology
