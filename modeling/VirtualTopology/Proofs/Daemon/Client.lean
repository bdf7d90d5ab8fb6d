import VirtualTopology.Daemon.Connection
import VirtualTopology.Proofs.Pass.Exchange

/-!
# Clients of a daemon

A client opens its connection, makes calls over it and closes it again, one act after the other, in any order
(`Connection.Act`). Whoever answers as the daemon, and whichever functions fail, an act is a turn (`Connection.Turn`):
what is done, what is exchanged with the daemon meanwhile, and what comes of it. The turns of a client are
`Connection.turns`.

What a single act can do is said once (`Connection.Does`), with everything that decides about it. A call is carried out
by functions that are applied one after the other until one of them fails (`DaemonWork.Stops`). `Connection.Follows`
strings the acts together, and `Connection.exists_follows` says that the turns of a client are such a string, up to each
turn among them.
-/

namespace VirtualTopology

open Dialogue

/-- What the queries that are exchanged in a run preserve, the run preserves. -/
theorem Dialogue.run_invariant_of_exchanges {Query : Type} {Reply : Query → Type} {α σ : Type} {p : Query → Prop}
    {d : Dialogue Query Reply α} {answer : σ → (q : Query) → Reply q × σ} {s : σ}
    (h : ∀ x ∈ d.exchanges answer s, p x.query) {I : σ → Prop} (hstep : ∀ s q, p q → I s → I (answer s q).2)
    (hs : I s) : I (d.run answer s).2 := by
  induction d generalizing s with
  | done a => exact hs
  | ask q next ih =>
    have hall := List.forall_mem_cons.1 h
    exact ih _ hall.2 (hstep s q hall.1 hs)

/-- A query to a daemon and the reply to it. -/
abbrev DaemonExchange := Exchange DaemonQuery DaemonQuery.Reply

/-! ### Work on a daemon -/

/-- Whether an exchange is a function that has been applied, is allowed, and has not failed. -/
def DaemonExchange.IsFine (p : DaemonCall → Prop) (x : DaemonExchange) : Prop :=
  ∃ f a, p f ∧ x = ⟨.call f, .ok a⟩

namespace DaemonWork

open DaemonExchange

variable {α β : Type} {p : DaemonCall → Prop}

/-- How work on a daemon ends by what is exchanged in it: with a value if no function fails, and otherwise with the
error of the first function that does, behind which none is applied. -/
inductive Stops (p : DaemonCall → Prop) : List DaemonExchange → Except DaemonError α → Prop where
  | value {xs : List DaemonExchange} (fine : ∀ x ∈ xs, IsFine p x) (a : α) : Stops p xs (.ok a)
  | error {xs : List DaemonExchange} (fine : ∀ x ∈ xs, IsFine p x) {f : DaemonCall} (allowed : p f) (e : DaemonError) :
      Stops p (xs ++ [⟨.call f, .error e⟩]) (.error e)

section

variable {xs : List DaemonExchange} {v : Except DaemonError α}

/-- A function that failed was not fine. -/
theorem not_isFine_error {f : DaemonCall} {e : DaemonError} : ¬ IsFine p ⟨.call f, .error e⟩ := by
  rintro ⟨g, a, -, h⟩
  cases h

/-- Only functions that are allowed are applied. -/
theorem Stops.exists_of_mem (h : Stops p xs v) {x : DaemonExchange} (hx : x ∈ xs) :
    ∃ f r, p f ∧ x = ⟨.call f, r⟩ := by
  have hfine : ∀ {x : DaemonExchange}, IsFine p x → ∃ f r, p f ∧ x = ⟨.call f, r⟩ := by
    rintro x ⟨f, a, hf, hx⟩
    exact ⟨f, .ok a, hf, hx⟩
  cases h with
  | value fine a => exact hfine (fine x hx)
  | @error xs fine f allowed e =>
    rcases List.mem_append.1 hx with hx | hx
    · exact hfine (fine x hx)
    · exact ⟨f, .error e, allowed, List.mem_singleton.1 hx⟩

/-- The error of a function is the one that the work ends with. -/
theorem Stops.eq_error (h : Stops p xs v) {f : DaemonCall} {e : DaemonError}
    (hx : (⟨.call f, .error e⟩ : DaemonExchange) ∈ xs) : v = .error e := by
  cases h with
  | value fine a => exact absurd (fine _ hx) not_isFine_error
  | @error xs fine g allowed e' =>
    rcases List.mem_append.1 hx with hx | hx
    · exact absurd (fine _ hx) not_isFine_error
    · cases List.mem_singleton.1 hx
      rfl

/-- Work that ends with an error has met it. -/
theorem Stops.exists_of_error {e : DaemonError} (h : Stops p xs (.error e : Except DaemonError α)) :
    ∃ f, (⟨.call f, .error e⟩ : DaemonExchange) ∈ xs := by
  cases h with
  | @error xs fine f allowed e => exact ⟨f, by simp⟩

end

/-- Whether work on a daemon ends in this way, whatever the replies are. -/
def Applies (p : DaemonCall → Prop) (w : DaemonWork α) : Prop := w.run.Attests (Stops p)

namespace Applies

theorem pure (a : α) : Applies p (Pure.pure a : DaemonWork α) := Attests.pure (.value (by simp) a)

/-- One function. -/
theorem apply {f : DaemonCall} (h : p f) : Applies p f.apply := by
  show (Dialogue.query (DaemonQuery.call f)).Attests (Stops p)
  refine Attests.query (P := Stops p) (q := DaemonQuery.call f) fun r => ?_
  cases r with
  | ok a => exact .value (List.forall_mem_singleton.2 ⟨f, a, h, rfl⟩) a
  | error e =>
    show Stops p ([] ++ [⟨.call f, .error e⟩]) (.error e)
    exact .error (by simp) h e

/-- Work behind other work is left out if that has failed. -/
theorem bind {w : DaemonWork α} {f : α → DaemonWork β} (hw : Applies p w) (hf : ∀ a, Applies p (f a)) :
    Applies p (w >>= f) := by
  unfold Applies
  rw [ExceptT.run_bind]
  refine Attests.bind hw fun xs v hxs => ?_
  cases hxs with
  | value fine a =>
    refine (hf a).mono fun ys v hys => ?_
    cases hys with
    | value fine' b => exact .value (List.forall_mem_append.2 ⟨fine, fine'⟩) b
    | error fine' allowed e =>
      rw [← List.append_assoc]
      exact .error (List.forall_mem_append.2 ⟨fine, fine'⟩) allowed e
  | error fine allowed e =>
    refine Attests.pure ?_
    rw [List.append_nil]
    exact .error fine allowed e

/-- Work that is left out if there is no need for it. -/
theorem bindIf {w : DaemonWork α} {f : DaemonWork β} {b : Prop} [Decidable b] (hw : Applies p w) (hf : Applies p f) :
    Applies p (if b then w >>= fun _ => f else f) := by
  split
  · exact hw.bind fun _ => hf
  · exact hf

end Applies

end DaemonWork

/-- Whether a function is one of those that carry out a call. It is not one of those by which a connection is looked
after, and a reading call does not write. -/
structure DaemonCall.CarriesOut (q : Call) (f : DaemonCall) : Prop where
  ne_version : f ≠ .version
  ne_close : f ≠ .close
  reads : q.isReading = true → f.isWriting = false

namespace Connection

/-- **A call is carried out step by step**, up to the first function that fails. -/
theorem applies_steps (c : Connection) (q : Call) : (c.steps q).Applies (DaemonCall.CarriesOut q) := by
  have hlookup : ∀ (q : Call) k n, DaemonCall.CarriesOut q (.lookup k n) :=
    fun q k n => ⟨by simp, by simp, fun _ => rfl⟩
  have hvolume : ∀ (q : Call) p n, DaemonCall.CarriesOut q (.lookupVolume p n) :=
    fun q p n => ⟨by simp, by simp, fun _ => rfl⟩
  cases q with
  | list k => exact .bind (.apply ⟨by simp, by simp, fun _ => rfl⟩) fun names => .pure _
  | read k n => exact .bind (.apply (hlookup _ k n)) fun _ => .apply ⟨by simp, by simp, fun _ => rfl⟩
  | define k document => exact .apply ⟨by simp, by simp, by simp [Call.isReading]⟩
  | undefine k n =>
    refine .bind (.apply (hlookup _ k n)) fun _ => ?_
    have hundefine : ((DaemonCall.undefine k n (c.undefineFlags k)).apply).Applies
        (DaemonCall.CarriesOut (.undefine k n)) := .apply ⟨by simp, by simp, by simp [Call.isReading]⟩
    split
    · -- a domain is not stopped before
      refine .bind (.apply ⟨by simp, by simp, fun _ => rfl⟩) fun active => ?_
      exact .bindIf (.apply ⟨by simp, by simp, by simp [Call.isReading]⟩) hundefine
    · exact hundefine
  | start k n => exact .bind (.apply (hlookup _ k n)) fun _ => .apply ⟨by simp, by simp, by simp [Call.isReading]⟩
  | stop k n force =>
    refine .bind (.apply (hlookup _ k n)) fun _ => ?_
    split
    · exact .apply ⟨by simp, by simp, by simp [Call.isReading]⟩
    · exact .apply ⟨by simp, by simp, by simp [Call.isReading]⟩
  | isActive k n => exact .bind (.apply (hlookup _ k n)) fun _ => .apply ⟨by simp, by simp, fun _ => rfl⟩
  | isAutostart k n => exact .bind (.apply (hlookup _ k n)) fun _ => .apply ⟨by simp, by simp, fun _ => rfl⟩
  | setAutostart k n autostart =>
    refine .bind (.apply (hlookup _ k n)) fun _ => .bind (.apply ⟨by simp, by simp, fun _ => rfl⟩) fun there => ?_
    exact .bindIf (.apply ⟨by simp, by simp, by simp [Call.isReading]⟩) (.pure ())
  | listVolumes p =>
    refine .bind (.apply (hlookup _ .pool p)) fun _ => .bind (.apply ⟨by simp, by simp, fun _ => rfl⟩) fun _ => ?_
    exact .bind (.apply ⟨by simp, by simp, fun _ => rfl⟩) fun names => .pure _
  | readVolume p n =>
    refine .bind (.apply (hlookup _ .pool p)) fun _ => .bind (.apply (hvolume _ p n)) fun _ => ?_
    exact .apply ⟨by simp, by simp, fun _ => rfl⟩
  | createVolume p document =>
    exact .bind (.apply (hlookup _ .pool p)) fun _ => .apply ⟨by simp, by simp, by simp [Call.isReading]⟩
  | deleteVolume p n =>
    refine .bind (.apply (hlookup _ .pool p)) fun _ => .bind (.apply (hvolume _ p n)) fun _ => ?_
    exact .apply ⟨by simp, by simp, by simp [Call.isReading]⟩
  | resizeVolume p n bytes =>
    refine .bind (.apply (hlookup _ .pool p)) fun _ => .bind (.apply (hvolume _ p n)) fun _ => ?_
    exact .apply ⟨by simp, by simp, by simp [Call.isReading]⟩

/-! ### Refused calls -/

/-- Whether a connection refuses a call: it is for reading only, and the call does more. -/
def Refuses (settings : ConnectionSettings) (q : Call) : Prop := settings.readonly = true ∧ q.isReading = false

section

variable {c : Connection} {q : Call}

theorem refusal?_eq_none_iff : c.refusal? q = none ↔ ¬ Refuses c.settings q := by
  have hright : (right? q).isNone = q.isReading := by cases q <;> rfl
  unfold refusal? Refuses
  cases c.settings.readonly with
  | false => simp
  | true => simp [← Option.isNone_iff_eq_none, hright]

theorem kind_of_refusal? {x : HostError} (h : c.refusal? q = some x) : x.kind = .permission := by
  unfold refusal? at h
  split at h
  · obtain ⟨right, -, rfl⟩ := Option.map_eq_some_iff.1 h
    rfl
  · exact absurd h (by simp)

end

/-! ### Acts and turns -/

/-- What a client does with a connection. -/
inductive Act where
  | connect
  | disconnect
  | call (q : Call)
  deriving Repr, DecidableEq

/-- The type of what an act gives. -/
@[reducible] def Act.Answer : Act → Type
  | connect => Unit
  | disconnect => Unit
  | call q => q.Answer

/-- Perform an act. -/
def perform (c : Connection) : (a : Act) → DaemonTalk (Except HostError a.Answer × Connection)
  | .connect => c.connect
  | .disconnect => do return (.ok (), ← c.disconnect)
  | .call q => c.call q

/-- An act, what is exchanged with the daemon in it, and what comes of it. -/
structure Turn where
  act : Act
  exchanges : List DaemonExchange
  outcome : Except HostError act.Answer

section

variable {σ : Type} (answer : σ → (q : DaemonQuery) → q.Reply × σ)

/-- The connection and the daemon after some acts. -/
def after (c : Connection) (s : σ) : List Act → Connection × σ
  | [] => (c, s)
  | a :: as => after ((c.perform a).run answer s).1.2 ((c.perform a).run answer s).2 as

/-- The turns of a client with a daemon. -/
def turns (c : Connection) (s : σ) : List Act → List Turn
  | [] => []
  | a :: as =>
      ⟨a, (c.perform a).exchanges answer s, ((c.perform a).run answer s).1.1⟩ ::
        turns ((c.perform a).run answer s).1.2 ((c.perform a).run answer s).2 as

end

/-! ### What an act does -/

/-- **What an act does to a connection**: all that can happen, and when it happens. -/
inductive Does (c : Connection) : Turn → Connection → Prop where
  /-- A connection that is open is not opened. -/
  | held (opened : c.isOpen = true) : Does c ⟨.connect, [], .ok ()⟩ c
  | opens (closed : c.isOpen = false) :
      Does c ⟨.connect, [⟨.connect c.settings.readonly c.settings.uri c.settings.timeout, .opened⟩], .ok ()⟩
        { c with isOpen := true }
  | opensNot (closed : c.isOpen = false) {r : Opening} (failed : r ≠ .opened) (message : String) :
      Does c
        ⟨.connect, [⟨.connect c.settings.readonly c.settings.uri c.settings.timeout, r⟩], .error (broken message)⟩ c
  | closes (opened : c.isOpen = true) (r : Except DaemonError Unit) :
      Does c ⟨.disconnect, [⟨.call .close, r⟩], .ok ()⟩ { c with isOpen := false }
  | closesNothing (closed : c.isOpen = false) : Does c ⟨.disconnect, [], .ok ()⟩ { c with isOpen := false }
  /-- The connection has no right to the call. -/
  | refuses {q : Call} {e : HostError} (refused : c.refusal? q = some e) : Does c ⟨.call q, [], .error e⟩ c
  | lacks {q : Call} (allowed : c.refusal? q = none) (closed : c.isOpen = false) :
      Does c ⟨.call q, [], .error (broken "Not connected to libvirt")⟩ c
  /-- The daemon does not answer any more. -/
  | loses {q : Call} (allowed : c.refusal? q = none) (opened : c.isOpen = true) (e : DaemonError) :
      Does c ⟨.call q, [⟨.call .version, .error e⟩], .error (broken "Libvirt connection lost")⟩
        { c with isOpen := false }
  | serves {q : Call} (allowed : c.refusal? q = none) (opened : c.isOpen = true) {xs : List DaemonExchange}
      {v : Except DaemonError q.Answer} (stops : DaemonWork.Stops (DaemonCall.CarriesOut q) xs v) :
      Does c ⟨.call q, ⟨.call .version, .ok ()⟩ :: xs, v.mapError (hostError q)⟩ c

variable {c d e : Connection} {t : Turn} {ts : List Turn}

theorem attests_connect (c : Connection) :
    c.connect.Attests fun xs v => c.Does ⟨.connect, xs, v.1⟩ v.2 := by
  unfold connect
  by_cases hopen : c.isOpen
  · rw [if_pos hopen]
    exact Attests.pure (.held hopen)
  · have hclosed : c.isOpen = false := by simpa using hopen
    rw [if_neg hopen]
    refine Attests.bind (P := fun xs r => xs = [⟨.connect c.settings.readonly c.settings.uri c.settings.timeout, r⟩])
      (Attests.query fun r => rfl) ?_
    rintro xs r rfl
    cases r with
    | opened => exact Attests.pure (.opens hclosed)
    | timedOut => exact Attests.pure (.opensNot hclosed (by simp) _)
    | refused e => exact Attests.pure (.opensNot hclosed (by simp) _)

theorem attests_disconnect (c : Connection) :
    c.disconnect.Attests fun xs d => c.Does ⟨.disconnect, xs, .ok ()⟩ d := by
  unfold disconnect
  by_cases hopen : c.isOpen
  · rw [if_pos hopen]
    refine Attests.bind (P := fun xs r => xs = [⟨.call .close, r⟩]) (Attests.query fun r => rfl) ?_
    rintro xs r rfl
    exact Attests.pure (.closes hopen r)
  · rw [if_neg hopen]
    exact Attests.pure (.closesNothing (by simpa using hopen))

/-- How it goes when the daemon is asked whether it still answers. -/
inductive Checks (c : Connection) : List DaemonExchange → Except HostError Unit × Connection → Prop where
  | lacks (closed : c.isOpen = false) : Checks c [] (.error (broken "Not connected to libvirt"), c)
  | loses (opened : c.isOpen = true) (e : DaemonError) :
      Checks c [⟨.call .version, .error e⟩] (.error (broken "Libvirt connection lost"), { c with isOpen := false })
  | answers (opened : c.isOpen = true) : Checks c [⟨.call .version, .ok ()⟩] (.ok (), c)

theorem attests_check (c : Connection) : c.check.Attests c.Checks := by
  unfold check
  by_cases hopen : c.isOpen
  · rw [if_neg (by simp [hopen])]
    refine Attests.bind (P := fun xs r => xs = [⟨.call .version, r⟩]) (Attests.query fun r => rfl) ?_
    rintro xs r rfl
    cases r with
    | ok a => exact Attests.pure (.answers hopen)
    | error e => exact Attests.pure (.loses hopen e)
  · rw [if_pos (by simpa using hopen)]
    exact Attests.pure (.lacks (by simpa using hopen))

theorem attests_call (c : Connection) (q : Call) :
    (c.call q).Attests fun xs v => c.Does ⟨.call q, xs, v.1⟩ v.2 := by
  unfold call
  cases hrefusal : c.refusal? q with
  | some e => exact Attests.pure (.refuses hrefusal)
  | none =>
    refine Attests.bind c.attests_check fun xs v hxs => ?_
    cases hxs with
    | lacks closed => exact Attests.pure (.lacks hrefusal closed)
    | loses opened e => exact Attests.pure (.loses hrefusal opened e)
    | answers opened =>
      refine Attests.bind (c.applies_steps q) fun ys v hys => ?_
      refine Attests.pure ?_
      rw [List.append_nil]
      exact .serves hrefusal opened hys

/-- **An act does what it can do**, whatever the replies are. -/
theorem attests_perform (c : Connection) (a : Act) :
    (c.perform a).Attests fun xs v => c.Does ⟨a, xs, v.1⟩ v.2 := by
  cases a with
  | connect => exact c.attests_connect
  | disconnect =>
    refine c.attests_disconnect.bind fun xs d hd => Attests.pure ?_
    rw [List.append_nil]
    exact hd
  | call q => exact c.attests_call q

theorem Does.settings_eq (h : c.Does t d) : d.settings = c.settings := by
  cases h <;> rfl

/-! ### One act after the other -/

/-- Whether turns lead from one connection to another, each doing what it can do. -/
inductive Follows (c : Connection) : List Turn → Connection → Prop where
  | nil : Follows c [] c
  | snoc {ts : List Turn} {d e : Connection} {t : Turn} (earlier : Follows c ts d) (last : d.Does t e) :
      Follows c (ts ++ [t]) e

theorem Follows.cons (h : c.Does t d) (hs : d.Follows ts e) : c.Follows (t :: ts) e := by
  induction hs with
  | nil => exact .snoc .nil h
  | snoc _ last ih => exact .snoc ih last

theorem Follows.settings_eq (h : c.Follows ts d) : d.settings = c.settings := by
  induction h with
  | nil => rfl
  | snoc _ last ih => exact last.settings_eq.trans ih

variable {σ : Type} (answer : σ → (q : DaemonQuery) → q.Reply × σ)

/-- **The turns of a client follow one another**, and each of them does what it can do with the connection that the
earlier ones lead to. -/
theorem exists_follows (c : Connection) (s : σ) (acts : List Act) {before after : List Turn} {t : Turn}
    (h : c.turns answer s acts = before ++ t :: after) : ∃ d e, c.Follows before d ∧ d.Does t e := by
  induction acts generalizing c s before with
  | nil => exact absurd h (by simp [turns])
  | cons a as ih =>
    have hdoes := (c.attests_perform a).run answer s
    rw [turns] at h
    cases before with
    | nil =>
      obtain ⟨rfl, -⟩ := List.cons.inj h
      exact ⟨c, _, .nil, hdoes⟩
    | cons u before =>
      obtain ⟨rfl, hrest⟩ := List.cons.inj h
      obtain ⟨d, e, hbefore, ht⟩ := ih _ _ hrest
      exact ⟨d, e, hbefore.cons hdoes, ht⟩

end Connection

end VirtualTopology
