import VirtualTopology.Proofs.Completeness
import VirtualTopology.Proofs.Pass.Steps

/-!
# Turns

A pass is a sequence of turns (`Turn`). In most of them it goes on an errand (`Errand`): it works on one network,
pool, volume or domain, or it removes one resource. Between errands it lists and reads, and it tells results of
resources that it does not work on. The errands come in the order of the agenda (`Desired.agenda`); some of them
may be left out.

Every turn is proper (`Turn.Proper`). Its changes are steps of its errand, its results are about the resource of its
errand, and if the pass has been cancelled before the turn comes then nothing is changed in it and nothing is told
but failures and cancellations. This holds whatever the host answers (`Desired.goes_phases`).

`Talk.Goes` is the judgement about runs that fall into turns; its rules follow the program.
-/

namespace VirtualTopology

open Dialogue

/-! ### Errands -/

/-- What a turn of a pass is for. -/
inductive Errand where
  /-- To bring a network or a pool in line. -/
  | started (s : Started)
  /-- To bring the volume of an entry in line. -/
  | volume (pool : String) (e : VolumeEntry)
  /-- To bring a domain in line. -/
  | domain (x : Domain)
  /-- To remove what is no longer declared. -/
  | removal (kind : DefinedKind) (name : String)

namespace Errand

/-- The changes that can be made on an errand, in order. -/
def steps : Errand → List Call
  | started s => s.steps
  | volume pool e => e.steps pool
  | domain x => x.steps
  | removal kind name => [.undefine kind name]

/-- What the result of an errand is about. -/
def key : Errand → ResourceKind × String
  | started s => (s.kind.resource, s.name)
  | volume pool e => (.volume, e.label pool)
  | domain x => (.domain, x.name)
  | removal kind name => (kind.resource, name)

end Errand

/-! ### Turns -/

/-- Whether a watched host is seen before another one: queries only come to it, and once the pass has been cancelled
on it this stays so. -/
structure Watched.Precedes (w w' : Watched) : Prop where
  queries : w.queries ≤ w'.queries
  cancelled : w.host.cancelled = true → w'.host.cancelled = true

namespace Watched.Precedes

variable {w w' w'' : Watched}

theorem refl (w : Watched) : w.Precedes w := ⟨le_refl _, id⟩

theorem trans (h : w.Precedes w') (h' : w'.Precedes w'') : w.Precedes w'' :=
  ⟨h.queries.trans h'.queries, h'.cancelled ∘ h.cancelled⟩

/-- A query takes a watched host on. -/
theorem after (w : Watched) (q : Query) : w.Precedes (w.after q) := by
  refine ⟨Nat.le_succ _, fun hcancelled => ?_⟩
  cases q with
  | call c =>
    -- whether the call fails or not, it has been received
    have hcall : (w.host.call c).2.cancelled = (w.host.receive c).2.cancelled := by
      unfold Memory.call
      split
      · next h => rw [h]
      · next h => split <;> rw [h]
    rw [host_after, Memory.answer, hcall]
    show (w.host.cancelled || _) = true
    rw [hcancelled, Bool.true_or]
  | cancelled => exact hcancelled
  | now => exact hcancelled
  | sleep _ => exact hcancelled

/-- So does a run. -/
theorem run {α : Type} (t : Talk α) (cancels : Nat → Bool) (w : Watched) :
    w.Precedes (t.run (Watched.answer cancels) w).2 :=
  Dialogue.run_invariant (I := fun s => w.Precedes s) (fun s q h => h.trans (after s q)) t (refl w)

/-- **Once a pass has been cancelled it stays cancelled.** -/
theorem reply_cancelled (h : w.Precedes w') {since : Nat}
    (hcancelled : w.reply (fun n => decide (since ≤ n)) .cancelled = true) :
    w'.reply (fun n => decide (since ≤ n)) .cancelled = true := by
  have hcases : w.host.cancelled = true ∨ since ≤ w.queries := by
    simpa only [Watched.reply, Bool.or_eq_true, decide_eq_true_eq] using hcancelled
  have hlater : w'.host.cancelled = true ∨ since ≤ w'.queries :=
    hcases.imp h.cancelled fun hle => hle.trans h.queries
  simpa only [Watched.reply, Bool.or_eq_true, decide_eq_true_eq] using hlater

end Watched.Precedes

/-- A turn of a pass: its errand, if there is one, the watched host when the turn comes, the calls that are made in
it, and the results that are recorded in it. -/
structure Turn where
  errand : Option Errand
  start : Watched
  calls : List (Memory × Call)
  results : List Result

/-- Whether a run goes from one watched host to another one in turns: each turn starts where the one before it has
ended. -/
inductive Turns : Watched → List Turn → Watched → Prop where
  | nil (w : Watched) : Turns w [] w
  | cons {T : Turn} {w w' : Watched} {ts : List Turn} (calls : w.calls = T.start.calls ++ T.calls)
      (precedes : T.start.Precedes w) (rest : Turns w ts w') : Turns T.start (T :: ts) w'

namespace Turns

variable {w w' w'' : Watched} {ts ts' : List Turn}

/-- A run of one turn. -/
theorem single {T : Turn} (start : T.start = w) (calls : w'.calls = w.calls ++ T.calls) (precedes : w.Precedes w') :
    Turns w [T] w' := by
  subst start
  exact .cons calls precedes (.nil w')

theorem append (h : Turns w ts w') (h' : Turns w' ts' w'') : Turns w (ts ++ ts') w'' := by
  induction h with
  | nil w => exact h'
  | cons calls precedes _ ih => exact .cons calls precedes (ih h')

/-- **The calls of a run are those of its turns**, one behind the other. -/
theorem calls_eq (h : Turns w ts w') : w'.calls = w.calls ++ ts.flatMap (·.calls) := by
  induction h with
  | nil w => rw [List.flatMap_nil, List.append_nil]
  | @cons T w w' ts calls _ _ ih => rw [ih, calls, List.append_assoc, List.flatMap_cons]

/-- A turn starts no earlier than the first one. -/
theorem precedes_start (h : Turns w ts w') {T : Turn} (hT : T ∈ ts) : w.Precedes T.start := by
  induction h with
  | nil w => exact absurd hT (by simp)
  | @cons T' w w' ts _ precedes _ ih =>
    rcases List.mem_cons.1 hT with rfl | hT
    · exact .refl _
    · exact precedes.trans (ih hT)

end Turns

/-- Whether the pass has been cancelled when a turn comes. -/
def Turn.isLate (cancels : Nat → Bool) (T : Turn) : Bool := T.start.reply cancels .cancelled

/-- A result that tells of no work: a failure, a cancellation, or a resource of a kind that is not managed. -/
def Desired.TellsNoWork (d : Desired) (x : Result) : Prop :=
  x.outcome = .failed ∨ x.outcome = .cancelled ∨
    x.outcome = .skippedUnmanaged ∧ ∃ k, x.kind = DefinedKind.resource k ∧ d.manages k = false

/-- Whether a turn of a pass is as it should be. -/
structure Turn.Proper (d : Desired) (cancels : Nat → Bool) (T : Turn) : Prop where
  /-- On an errand only its steps are taken, in order. -/
  steps : ∀ e, T.errand = some e → (changes T.calls).Sublist e.steps
  /-- The results of an errand are about its resource. -/
  about : ∀ e, T.errand = some e → ∀ x ∈ T.results, x.key = e.key
  /-- Between errands, and when the pass has been cancelled, no work is done. -/
  idle : T.errand = none ∨ T.isLate cancels = true →
    changes T.calls = [] ∧ ∀ x ∈ T.results, d.TellsNoWork x

/-! ### Runs in turns -/

namespace Talk

variable {d : Desired} {cancels : Nat → Bool} {α β : Type} {t : Talk α} {f : α → Talk β} {w : Watched}

/-- Whether a dialogue, run on a watched host, goes in proper turns, and what is told holds of these turns and of its
value. -/
def Goes (d : Desired) (cancels : Nat → Bool) (P : List Turn → α → Prop) (t : Talk α) (w : Watched) : Prop :=
  ∃ ts, Turns w ts (t.run (Watched.answer cancels) w).2 ∧ (∀ T ∈ ts, T.Proper d cancels) ∧
    P ts (t.run (Watched.answer cancels) w).1

theorem Goes.pure {P : List Turn → α → Prop} {a : α} (h : P [] a) : Goes d cancels P (Pure.pure a) w :=
  ⟨[], .nil w, by simp, h⟩

theorem Goes.mono {P P' : List Turn → α → Prop} (h : Goes d cancels P t w) (hP : ∀ ts a, P ts a → P' ts a) :
    Goes d cancels P' t w := by
  obtain ⟨ts, hturns, hproper, htold⟩ := h
  exact ⟨ts, hturns, hproper, hP ts _ htold⟩

theorem Goes.bind {P : List Turn → α → Prop} {R : List Turn → β → Prop} (h : Goes d cancels P t w)
    (hf : ∀ ts a w, P ts a → Goes d cancels (fun ts' b => R (ts ++ ts') b) (f a) w) :
    Goes d cancels R (t >>= f) w := by
  obtain ⟨ts, hturns, hproper, htold⟩ := h
  obtain ⟨ts', hturns', hproper', htold'⟩ := hf ts _ (t.run (Watched.answer cancels) w).2 htold
  rw [Goes, run_bind]
  refine ⟨ts ++ ts', hturns.append hturns', fun T hT => ?_, htold'⟩
  exact (List.mem_append.1 hT).elim (hproper T) (hproper' T)

/-- A turn between errands, in which nothing is changed. -/
theorem Goes.look {P : α → Prop} (h : KeepsTo [] t) (hP : P (t.run (Watched.answer cancels) w).1) :
    Goes d cancels (fun ts a => (∃ T, ts = [T] ∧ T.errand = none ∧ T.results = []) ∧ P a) t w := by
  obtain ⟨more, hcalls, hsub⟩ := h.exists_calls cancels w
  refine ⟨[⟨none, w, more, []⟩], .single rfl hcalls (.run t cancels w), ?_, ⟨_, rfl, rfl, rfl⟩, hP⟩
  intro T hT
  obtain rfl := List.mem_singleton.1 hT
  exact ⟨fun e he => absurd he (by simp), fun e he => absurd he (by simp),
    fun _ => ⟨List.sublist_nil.1 hsub, by simp⟩⟩

/-- What tells of no work is told between errands. -/
theorem Goes.tell {xs : List Result} (h : ∀ x ∈ xs, d.TellsNoWork x) :
    Goes d cancels (fun ts r => r = .ok xs ∧ ∃ T, ts = [T] ∧ T.errand = none ∧ T.results = xs)
      (Pure.pure (.ok xs) : Talk Recorded) w := by
  refine ⟨[⟨none, w, [], xs⟩], .single rfl (List.append_nil _).symm (.refl w), ?_, rfl, _, rfl, rfl, rfl⟩
  intro T hT
  obtain rfl := List.mem_singleton.1 hT
  exact ⟨fun e he => absurd he (by simp), fun e he => absurd he (by simp), fun _ => ⟨rfl, h⟩⟩

end Talk

/-- The results of supervised work, given the result of its value. -/
def Ending.results {α : Type} (result : α → Result) : Ending α → List Result
  | finished a => [result a]
  | failed x | cancelled x => [x]
  | unwritable _ => []

/-- Supervised work asks whether the pass has been cancelled, and is left out if so. -/
theorem supervise_eq {α : Type} (kind : ResourceKind) (name : String) (v : Work α) :
    supervise kind name v = (do
      if ← (query Query.cancelled : Talk Bool) then return .cancelled (.cancelled kind name)
      else return .of kind name (← v.run)) := by
  unfold supervise
  congr 1
  funext b
  cases b with
  | true => rfl
  | false =>
    show v.run >>= _ = v.run >>= _
    congr 1
    funext a
    match a with
    | .ok a => rfl
    | .error (.failed op reason fk) => rfl
    | .error (.unwritable why) => rfl

theorem Ending.key_of_mem_results_of {α : Type} {kind : ResourceKind} {name : String} {a : Except Trouble α}
    {result : α → Result} (h : ∀ b, a = .ok b → (result b).key = (kind, name)) {x : Result}
    (hx : x ∈ (Ending.of kind name a).results result) : x.key = (kind, name) := by
  match a with
  | .ok b =>
    rw [List.mem_singleton.1 hx]
    exact h b rfl
  | .error (.failed op reason fk) =>
    rw [List.mem_singleton.1 hx]
    rfl
  | .error (.unwritable why) => exact absurd hx (by simp [Ending.of, results])

namespace Talk

variable {d : Desired} {cancels : Nat → Bool} {w : Watched}

/-- **Supervised work is a turn**: it is left out if the pass has been cancelled. -/
theorem Goes.supervise {α : Type} {e : Errand} {kind : ResourceKind} {name : String} {v : Work α}
    {result : α → Result} {p : Query → Prop} (hkey : e.key = (kind, name)) (hsteps : KeepsTo e.steps v.run)
    (hvalue : v.run.Confined p fun a => ∀ b, a = .ok b → (result b).key = (kind, name)) :
    Goes d cancels (fun ts ending => ∃ T, ts = [T] ∧ T.errand = some e ∧ T.results = ending.results result)
      (VirtualTopology.supervise kind name v) w := by
  rw [supervise_eq]
  cases hcancelled : w.reply cancels .cancelled with
  | true =>
    -- the turn comes too late
    have hrun : (do
        if ← (query Query.cancelled : Talk Bool) then return .cancelled (.cancelled kind name)
        else return .of kind name (← v.run) : Talk (Ending α)).run (Watched.answer cancels) w =
        (.cancelled (.cancelled kind name), w.after .cancelled) := by
      rw [run_bind, run_query, Watched.answer, hcancelled]
      rfl
    rw [Goes, hrun]
    refine ⟨[⟨some e, w, [], [.cancelled kind name]⟩], ?_, fun T hT => ?_, _, rfl, rfl, rfl⟩
    · exact .single rfl (List.append_nil _).symm (.after w .cancelled)
    · obtain rfl := List.mem_singleton.1 hT
      refine ⟨fun e' _ => List.nil_sublist _, fun e' he' x hx => ?_, fun _ => ⟨rfl, fun x hx => ?_⟩⟩
      · obtain rfl := Option.some.inj he'
        rw [List.mem_singleton.1 hx, hkey]
        rfl
      · rw [List.mem_singleton.1 hx]
        exact .inr (.inl rfl)
  | false =>
    obtain ⟨more, hcalls, hsub⟩ := hsteps.exists_calls cancels (w.after .cancelled)
    have hrun : (do
        if ← (query Query.cancelled : Talk Bool) then return .cancelled (.cancelled kind name)
        else return .of kind name (← v.run) : Talk (Ending α)).run (Watched.answer cancels) w =
        (.of kind name (v.run.run (Watched.answer cancels) (w.after .cancelled)).1,
          (v.run.run (Watched.answer cancels) (w.after .cancelled)).2) := by
      rw [run_bind, run_query, Watched.answer, hcancelled]
      show Dialogue.run _ (v.run >>= _) _ = _
      rw [run_bind]
      rfl
    rw [Goes, hrun]
    have hprecedes := (Watched.Precedes.after w .cancelled).trans (.run v.run cancels (w.after .cancelled))
    refine ⟨[⟨some e, w, more, _⟩], .single rfl hcalls hprecedes, fun T hT => ?_, _, rfl, rfl, rfl⟩
    obtain rfl := List.mem_singleton.1 hT
    refine ⟨fun e' he' => ?_, fun e' he' x hx => ?_, fun hidle => ?_⟩
    · obtain rfl := Option.some.inj he'
      exact hsub
    · obtain rfl := Option.some.inj he'
      rw [hkey]
      exact Ending.key_of_mem_results_of (hvalue.run_value _ _) hx
    · rcases hidle with hnone | hlate
      · exact absurd hnone (by simp)
      · exact absurd (hcancelled.symm.trans hlate) (by simp)

/-! ### Tasks -/

/-- Whether turns go on errands in the order of an agenda, some of which may be left out, and what is recorded, if
there are results, is what is told in the turns. -/
structure Recounts (agenda : List Errand) (ts : List Turn) (r : Recorded) : Prop where
  errands : (ts.filterMap (·.errand)).Sublist agenda
  results : ∀ rs, r = .ok rs → rs = ts.flatMap (·.results)

/-- Whether a task goes on the errands of an agenda. -/
abbrev GoesOn (d : Desired) (cancels : Nat → Bool) (agenda : List Errand) (t : Talk Recorded) (w : Watched) :
    Prop :=
  Goes d cancels (Recounts agenda) t w

variable {agenda agenda' : List Errand} {t : Talk Recorded} {ts ts' : List Turn} {r r' : Recorded}

namespace Recounts

theorem nil (agenda : List Errand) : Recounts agenda [] (.ok []) :=
  ⟨List.nil_sublist _, fun _ hrs => (Except.ok.inj hrs).symm⟩

theorem mono (h : Recounts agenda ts r) (hsub : agenda.Sublist agenda') : Recounts agenda' ts r :=
  ⟨h.errands.trans hsub, h.results⟩

/-- A turn between errands in which nothing is told. -/
theorem look {T : Turn} (herrand : T.errand = none) (hresults : T.results = []) (h : Recounts agenda ts r) :
    Recounts agenda (T :: ts) r := by
  refine ⟨?_, fun rs hrs => ?_⟩
  · rw [List.filterMap_cons_none herrand]
    exact h.errands
  · rw [List.flatMap_cons, hresults, List.nil_append]
    exact h.results rs hrs

/-- What is told one after the other. -/
theorem append (h : Recounts agenda ts r) (h' : Recounts agenda' ts' r') :
    Recounts (agenda ++ agenda') (ts ++ ts') (r.append r') := by
  refine ⟨?_, fun rs hrs => ?_⟩
  · rw [List.filterMap_append]
    exact h.errands.append h'.errands
  · obtain ⟨ys, zs, hys, hzs, rfl⟩ := Recorded.append_eq_ok_iff.1 hrs
    rw [List.flatMap_append, ← h.results ys hys, ← h'.results zs hzs]

/-- The turn of an errand. -/
theorem errand {T : Turn} {e : Errand} (herrand : T.errand = some e) (hr : ∀ rs, r = .ok rs → rs = T.results) :
    Recounts [e] [T] r := by
  refine ⟨?_, fun rs hrs => ?_⟩
  · rw [List.filterMap_cons_some herrand]
    exact .refl _
  · rw [List.flatMap_singleton]
    exact hr rs hrs

end Recounts

theorem GoesOn.mono (h : GoesOn d cancels agenda t w) (hsub : agenda.Sublist agenda') :
    GoesOn d cancels agenda' t w :=
  Goes.mono h fun _ _ htold => htold.mono hsub

/-- What tells of no work takes no errand. -/
theorem GoesOn.tell {xs : List Result} (h : ∀ x ∈ xs, d.TellsNoWork x) :
    GoesOn d cancels agenda (pure (.ok xs)) w := by
  refine Goes.mono (Goes.tell h) ?_
  rintro ts r ⟨rfl, T, rfl, hnone, rfl⟩
  refine ⟨?_, fun rs hrs => ?_⟩
  · rw [List.filterMap_cons_none hnone]
    exact List.nil_sublist _
  · rw [← Except.ok.inj hrs, List.flatMap_singleton]

/-- A look takes no errand. -/
theorem GoesOn.after_look {α : Type} {u : Talk α} {f : α → Talk Recorded} {P : α → Prop} (hu : KeepsTo [] u)
    (hP : P (u.run (Watched.answer cancels) w).1) (hf : ∀ a w, P a → GoesOn d cancels agenda (f a) w) :
    GoesOn d cancels agenda (u >>= f) w := by
  refine (Goes.look hu hP).bind ?_
  rintro ts a w ⟨⟨T, rfl, hnone, hnothing⟩, ha⟩
  refine Goes.mono (hf a w ha) fun ts' r htold => ?_
  exact htold.look hnone hnothing

/-- Recorded work goes on its errand. -/
theorem GoesOn.supervise {e : Errand} {kind : ResourceKind} {name : String} {v : Work Result} {p : Query → Prop}
    (hkey : e.key = (kind, name)) (hsteps : KeepsTo e.steps v.run)
    (hvalue : v.run.Confined p fun a => ∀ x, a = .ok x → x.kind = kind ∧ x.name = name) :
    GoesOn d cancels [e] (do let ending ← VirtualTopology.supervise kind name v; return ending.recorded) w := by
  have hgoes : Goes d cancels (fun ts ending => ∃ T, ts = [T] ∧ T.errand = some e ∧ T.results = ending.results id)
      (VirtualTopology.supervise kind name v) w := Goes.supervise hkey hsteps
    (hvalue.mono (fun _ => id) fun a ha x hx => Prod.ext (ha x hx).1 (ha x hx).2)
  refine hgoes.bind ?_
  rintro ts ending w ⟨T, rfl, herrand, hresults⟩
  refine .pure (.errand herrand fun rs hrs => ?_)
  rw [hresults]
  cases ending with
  | finished x => exact (Except.ok.inj hrs).symm
  | failed x => exact (Except.ok.inj hrs).symm
  | cancelled x => exact (Except.ok.inj hrs).symm
  | unwritable why => exact absurd hrs (by simp [Ending.recorded])

/-- What is recorded by one task and then by another one. -/
theorem GoesOn.append {t' : Talk Recorded} (h : GoesOn d cancels agenda t w)
    (h' : ∀ w, GoesOn d cancels agenda' t' w) :
    GoesOn d cancels (agenda ++ agenda') (do let r ← t; let rs ← t'; pure (r.append rs)) w := by
  refine Goes.bind h fun ts r w htold => Goes.bind (h' w) fun ts' r' w htold' => .pure ?_
  rw [List.append_nil]
  exact htold.append htold'

/-- **Tasks one after the other go on their errands one after the other.** -/
theorem GoesOn.gather {ι : Type} {task : ι → Talk Recorded} {errands : ι → List Errand} {xs : List ι}
    (h : ∀ x ∈ xs, ∀ w, GoesOn d cancels (errands x) (task x) w) (w : Watched) :
    GoesOn d cancels (xs.flatMap errands) (VirtualTopology.gather (xs.map task)) w := by
  induction xs generalizing w with
  | nil => exact .pure (.nil _)
  | cons x xs ih => exact (h x (by simp) w).append (ih fun y hy => h y (by simp [hy]))

end Talk

/-! ### The tasks of a pass -/

section

open Talk

variable {d : Desired} {cancels : Nat → Bool}

theorem Network.goesOn_task (n : Network) (dry exists_ : Bool) (w : Watched) :
    GoesOn d cancels [.started n.started] (n.task dry exists_) w := by
  refine GoesOn.supervise rfl ?_ (n.frank_makes dry exists_).confined
  show KeepsTo _ ((·.1) <$> n.started.sync dry exists_ : Work Result).run
  rw [map_eq_pure_bind]
  exact Work.keepsTo_then (n.started.keepsTo_sync dry exists_) fun a => Work.keepsTo_pure a.1

namespace Pool

/-- The errands for a pool: the pool itself, and then each of its volumes. -/
def errands (p : Pool) : List Errand := .started p.started :: p.volumes.map (.volume p.name)

variable {p : Pool}

theorem tellsNoWork_volumesFailed (operation : Operation) (reason : String) (fk : FailureKind) :
    ∀ x ∈ p.volumesFailed operation reason fk, d.TellsNoWork x :=
  List.forall_mem_map.2 fun _ _ => .inl rfl

/-- Volumes one after the other: the first one gives what is recorded of it, and the rest follows unless it cannot be
written. -/
theorem syncVolumes_cons (p : Pool) (dry : Bool) (there : List String) (e : VolumeEntry) (es : List VolumeEntry) :
    p.syncVolumes dry there (e :: es) = (do
      let r ← (do
        let ending ← supervise .volume (e.label p.name) (e.sync dry p.name (there.contains e.name))
        return ending.recorded : Talk Recorded)
      match r with
      | .error why => pure (.error why)
      | .ok r => do
          let rs ← p.syncVolumes dry there es
          pure (rs.map (r ++ ·))) := by
  rw [LawfulMonad.bind_assoc]
  rfl

theorem goesOn_syncVolumes (p : Pool) (dry : Bool) (there : List String) (es : List VolumeEntry) (w : Watched) :
    GoesOn d cancels (es.map (.volume p.name)) (p.syncVolumes dry there es) w := by
  induction es generalizing w with
  | nil => exact .pure (.nil _)
  | cons e es ih =>
    have hvolume : GoesOn d cancels [.volume p.name e] (do
        let ending ← supervise .volume (e.label p.name) (e.sync dry p.name (there.contains e.name))
        return ending.recorded) w :=
        GoesOn.supervise rfl (e.keepsTo_sync dry p.name (there.contains e.name)) (e.frank_makes dry p.name _).confined
    rw [syncVolumes_cons]
    refine Goes.bind hvolume fun ts r w htold => ?_
    cases r with
    | error why =>
      -- the entries behind this one are left out
      refine .pure ?_
      rw [List.append_nil]
      exact htold.mono (by simp)
    | ok r =>
      refine (ih w).bind fun ts' r' w htold' => .pure ?_
      rw [List.append_nil]
      exact htold.append htold'

theorem goesOn_syncContents (p : Pool) (dry readable : Bool) (w : Watched) :
    GoesOn d cancels (p.volumes.map (.volume p.name)) (p.syncContents dry readable) w := by
  unfold syncContents
  split
  · exact .pure (.nil _)
  · split
    · refine GoesOn.after_look (P := fun _ => True) (KeepsTo.query (q := .call (.listVolumes p.name)) rfl) trivial ?_
      intro reply w _
      cases reply with
      | ok there => exact p.goesOn_syncVolumes dry there p.volumes w
      | error x => exact .tell (tellsNoWork_volumesFailed _ _ _)
    · exact p.goesOn_syncVolumes dry [] p.volumes w

/-- **The task for a pool**: a turn for the pool, and then one for each of its volumes. -/
theorem goesOn_task (p : Pool) (dry exists_ : Bool) (w : Watched) :
    GoesOn d cancels p.errands (p.task dry exists_) w := by
  have hpool : Goes d cancels (fun ts ending => ∃ T, ts = [T] ∧ T.errand = some (.started p.started) ∧
      T.results = ending.results (·.1)) (supervise .pool p.name (p.started.sync dry exists_)) w := Goes.supervise rfl
    (p.started.keepsTo_sync dry exists_)
    ((p.started.frank_makes dry exists_).confined.mono (fun _ => id) fun a ha x hx => by
      obtain ⟨⟨q, hq⟩, -⟩ := ha x hx
      rw [hq]
      rfl)
  refine Goes.bind hpool ?_
  rintro ts ending w ⟨T, rfl, herrand, hresults⟩
  -- what is told behind the turn of the pool
  have hbehind : ∀ {x : Result} {contents : Talk Recorded}, T.results = [x] →
      GoesOn d cancels (p.volumes.map (.volume p.name)) contents w →
      Goes d cancels (fun ts' r => Recounts p.errands ([T] ++ ts') r)
        (contents >>= fun rs => pure (rs.map (x :: ·))) w := by
    intro x contents hx hcontents
    refine Goes.bind hcontents fun ts' r w htold => .pure ?_
    rw [List.append_nil]
    exact (Recounts.errand (r := .ok [x]) herrand fun rs hrs => (Except.ok.inj hrs).symm.trans hx.symm).append htold
  cases ending with
  | finished x => exact hbehind hresults (p.goesOn_syncContents dry x.2 w)
  | failed x => exact hbehind hresults (.tell (tellsNoWork_volumesFailed _ _ _))
  | cancelled x => exact hbehind hresults (.tell (List.forall_mem_map.2 fun _ _ => .inr (.inl rfl)))
  | unwritable why =>
    refine .pure ?_
    have htold := Recounts.errand (r := .error why) herrand fun rs hrs => absurd hrs (by simp)
    exact htold.mono (List.singleton_sublist.2 (by simp [errands]))

end Pool

namespace Domain

/-- The work on a domain is frank. -/
theorem frank_makes (x : Domain) (dry : Bool) (timeout : Binary64) (exists_ : Bool) :
    Frank x.Makes (fun y => y.kind = .domain ∧ y.name = x.name) (x.sync dry timeout exists_).run :=
  frank_sync_of .look (fun _ text _ => .define text) (fun _ => .start) (fun _ => .stop) timeout exists_

theorem goesOn_task (x : Domain) (dry : Bool) (timeout : Binary64) (before : List Result) (exists_ : Bool)
    (w : Watched) : GoesOn d cancels [.domain x] (x.task dry timeout before exists_) w := by
  unfold task
  dsimp only
  split
  · have hfrank := x.frank_makes dry timeout exists_
    have hkeeps := x.keepsTo_sync dry timeout exists_
    -- the work stays closed: a restart waits through very many looks
    generalize x.sync dry timeout exists_ = work at hfrank hkeeps ⊢
    exact GoesOn.supervise rfl hkeeps hfrank.confined
  · -- a domain that depends on something that failed is not worked on
    refine .tell fun y hy => ?_
    rw [List.mem_singleton.1 hy]
    exact .inl rfl

theorem goesOn_removal (dry : Bool) (name : String) (w : Watched) :
    GoesOn d cancels [.removal .domain name] (removal dry name) w := by
  rw [removal_eq]
  exact GoesOn.supervise rfl (keepsTo_remove dry name) (frank_remove dry name).confined

end Domain

namespace Removal

theorem goesOn_task (dry : Bool) (refs : List References) (kind : DefinedKind) (name : String) (w : Watched) :
    GoesOn d cancels [.removal kind name] (task dry refs kind name) w := by
  rw [task_eq]
  split
  · exact GoesOn.supervise rfl (keepsTo_remove dry kind name) (frank_remove dry kind name).confined
  · refine .tell fun y hy => ?_
    rw [List.mem_singleton.1 hy]
    exact .inl rfl

/-- To see what domains refer to is no step. -/
theorem keepsTo_references (results : List Result) : KeepsTo [] (references results) := by
  have hof : ∀ domains, KeepsTo [] (referencesOf results domains) := by
    intro domains
    induction domains with
    | nil => exact .done [] _
    | cons domain domains ih =>
      unfold referencesOf
      split
      · exact ih
      · refine .look rfl fun reply => ?_
        cases reply with
        | error x => exact .done [] _
        | ok document =>
          simp only [bind_done]
          split
          · exact .done [] _
          · exact ih.bind fun rest => .done [] _
  refine .look rfl fun reply => ?_
  cases reply with
  | error x => exact .done [] _
  | ok domains => exact hof domains

/-- **Removing networks and pools**: a turn for each of them. -/
theorem goesOn_run (dry : Bool) (results : List Result) (stale : List (DefinedKind × String)) (w : Watched) :
    GoesOn d cancels (stale.map fun s => .removal s.1 s.2) (run dry results stale) w := by
  unfold run
  split
  · exact .pure (.nil _)
  · refine GoesOn.after_look (P := fun _ => True) (KeepsTo.query (q := .cancelled) trivial) trivial ?_
    intro b w _
    cases b with
    | true => exact .tell (List.forall_mem_map.2 fun _ _ => .inr (.inl rfl))
    | false =>
      refine GoesOn.after_look (P := fun _ => True) (keepsTo_references results) trivial ?_
      intro refs w _
      cases refs with
      | error reason => exact .tell (List.forall_mem_map.2 fun _ _ => .inl rfl)
      | ok refs =>
        have hgather : GoesOn d cancels (stale.flatMap fun s => [.removal s.1 s.2])
            (gather (stale.map fun s => task dry refs s.1 s.2)) w :=
          GoesOn.gather (fun s _ w => goesOn_task dry refs s.1 s.2 w) w
        rwa [← List.map_eq_flatMap] at hgather

end Removal

end

/-! ### The agenda of a pass -/

namespace Stock

open Talk

variable {d : Desired} {cancels : Nat → Bool}

/-- What a stock says of a kind: if it is known then the kind is managed, and if it is left alone then it is not. -/
structure Speaks (kind : DefinedKind) (managed : Bool) (s : Stock) : Prop where
  known : ∀ names, s = .known names → managed = true
  leftAlone : ∀ results, s = .leftAlone results →
    managed = false ∧ ∀ x ∈ results, x.kind = kind.resource ∧ x.outcome = .skippedUnmanaged

theorem speaks_take (kind : DefinedKind) (managed : Bool) :
    (take kind managed).Confined (fun _ => True) (Speaks kind managed) := by
  refine (Confined.query (q := Query.call (.list kind)) trivial fun _ => trivial).bind ?_
  intro reply (_ : True)
  match managed, reply with
  | true, .ok names => exact .pure ⟨fun _ _ => rfl, nofun⟩
  | true, .error e => exact .pure ⟨nofun, nofun⟩
  | false, .ok names =>
    refine .pure ⟨nofun, fun results h => ⟨rfl, fun x hx => ?_⟩⟩
    rw [← Stock.leftAlone.inj h] at hx
    obtain ⟨name, -, rfl⟩ := List.mem_map.1 hx
    exact ⟨rfl, rfl⟩
  | false, .error e =>
    refine .pure ⟨nofun, fun results h => ⟨rfl, fun x hx => ?_⟩⟩
    rw [← Stock.leftAlone.inj h] at hx
    exact absurd hx List.not_mem_nil

/-- To see what is there is a look. -/
theorem keepsTo_take (kind : DefinedKind) (managed : Bool) : KeepsTo [] (take kind managed) := by
  refine .look rfl fun reply => ?_
  cases managed <;> cases reply <;> exact .done _ _

/-- **The tasks for the declared resources of a kind** go on the errands of each of them. -/
theorem goesOn_tasks {kind : DefinedKind} {s : Stock} {α : Type} {declared : List α} {name : α → String}
    {lost : α → List Result} {task : α → Bool → Talk Recorded} {errands : α → List Errand}
    (hs : Speaks kind (d.manages kind) s)
    (htask : ∀ a ∈ declared, ∀ there w, GoesOn d cancels (errands a) (task a there) w)
    (hlost : ∀ a ∈ declared, ∀ x ∈ lost a, x.outcome = .failed) (w : Watched) :
    GoesOn d cancels (declared.flatMap errands) (gather (s.tasks kind declared name lost task)) w := by
  have halone : ∀ {xs : List Result}, (∀ x ∈ xs, d.TellsNoWork x) →
      GoesOn d cancels (declared.flatMap errands) (gather [pure (.ok xs)]) w := fun h => by
    have htell : GoesOn d cancels [] (pure (.ok _)) w := .tell h
    have hnone : ∀ w, GoesOn d cancels [] (gather []) w := fun w => .pure (.nil [])
    exact (htell.append hnone).mono (List.nil_sublist _)
  cases s with
  | leftAlone results =>
    obtain ⟨hunmanaged, hskipped⟩ := hs.leftAlone results rfl
    refine halone fun x hx => .inr (.inr ⟨(hskipped x hx).2, kind, (hskipped x hx).1, hunmanaged⟩)
  | unknown reason =>
    refine halone fun x hx => .inl ?_
    rcases List.mem_append.1 hx with hx | hx
    · obtain ⟨a, -, rfl⟩ := List.mem_map.1 hx
      rfl
    · obtain ⟨a, ha, hx⟩ := List.mem_flatMap.1 hx
      exact hlost a ha x hx
  | known names => exact GoesOn.gather (fun a ha => htask a ha (names.contains (name a))) w

end Stock

namespace Desired

open Talk

variable {d : Desired} {cancels : Nat → Bool} {dry : Bool}

/-- The errands for declared networks and pools, in order. -/
def foundations (d : Desired) : List Errand :=
  d.networks.items.map (.started ·.started) ++ d.pools.items.flatMap Pool.errands

/-- The errands for declared domains, in order. -/
def machines (d : Desired) : List Errand := d.domains.items.map .domain

/-- The errands of a pass, in order: networks and pools, domains, stale domains, stale networks and pools. -/
def agenda (d : Desired) (domains : List String) (rest : List (DefinedKind × String)) : List Errand :=
  d.foundations ++ d.machines ++ domains.map (.removal .domain) ++ rest.map fun s => .removal s.1 s.2

/-- Whether resources are of managed kinds and not declared, and each is named once. -/
structure Undeclared (d : Desired) (stale : List (DefinedKind × String)) : Prop where
  nodup : stale.Nodup
  managed : ∀ s ∈ stale, d.manages s.1 = true
  undeclared : ∀ s ∈ stale, s.2 ∉ d.names s.1

namespace Undeclared

theorem nil (d : Desired) : d.Undeclared [] := ⟨List.nodup_nil, by simp, by simp⟩

/-- What is listed and not declared. -/
theorem of_stock {k : DefinedKind} {s : Stock} (hs : s.Speaks k (d.manages k)) :
    d.Undeclared ((s.stale (d.names k)).map (k, ·)) := by
  have hmem : ∀ name ∈ s.stale (d.names k), d.manages k = true ∧ name ∉ d.names k := by
    intro name hname
    cases s with
    | leftAlone results => exact absurd hname (by simp [Stock.stale])
    | unknown reason => exact absurd hname (by simp [Stock.stale])
    | known names => exact ⟨hs.known names rfl, (Stock.mem_stale_iff.1 hname).2⟩
  refine ⟨(Stock.nodup_stale _ _).map fun _ _ he => (Prod.mk.inj he).2, ?_, ?_⟩
  · exact List.forall_mem_map.2 fun name hname => (hmem name hname).1
  · exact List.forall_mem_map.2 fun name hname => (hmem name hname).2

theorem append {xs ys : List (DefinedKind × String)} (h : d.Undeclared xs) (h' : d.Undeclared ys)
    (hne : ∀ s ∈ xs, ∀ s' ∈ ys, s.1 ≠ s'.1) : d.Undeclared (xs ++ ys) := by
  refine ⟨h.nodup.append h'.nodup fun s hs hs' => hne s hs s hs' rfl, ?_, ?_⟩
  · exact fun s hs => (List.mem_append.1 hs).elim (h.managed s) (h'.managed s)
  · exact fun s hs => (List.mem_append.1 hs).elim (h.undeclared s) (h'.undeclared s)

end Undeclared

/-- Networks and pools: their errands come in the order of the foundations. -/
theorem goes_networksAndPools (w : Watched) :
    Goes d cancels (fun ts x => Recounts d.foundations ts x.1 ∧
      d.Undeclared (x.2.1.map (DefinedKind.network, ·) ++ x.2.2.map (DefinedKind.pool, ·)))
      (d.networksAndPools dry) w := by
  refine (Goes.look (Stock.keepsTo_take .network _) ((Stock.speaks_take .network _).run_value _ w)).bind ?_
  rintro _ networks w ⟨⟨T, rfl, herrand, hresults⟩, hnetworks⟩
  refine (Goes.look (Stock.keepsTo_take .pool _) ((Stock.speaks_take .pool _).run_value _ w)).bind ?_
  rintro _ pools w ⟨⟨T', rfl, herrand', hresults'⟩, hpools⟩
  have hfirst : GoesOn d cancels (d.networks.items.flatMap fun n => [.started n.started])
      (gather (networks.tasks .network d.networks.items (·.name) (fun _ => []) fun n => n.task dry)) w :=
    Stock.goesOn_tasks hnetworks (fun n _ there w => n.goesOn_task dry there w) (fun _ _ x hx => absurd hx (by simp)) w
  have hsecond : ∀ w, GoesOn d cancels (d.pools.items.flatMap Pool.errands)
      (gather (pools.tasks .pool d.pools.items (·.name) Pool.volumesLost fun p => p.task dry)) w :=
    Stock.goesOn_tasks hpools (fun p _ there w => p.goesOn_task dry there w)
      fun p _ => List.forall_mem_map.2 fun _ _ => rfl
  have htasks := hfirst.append hsecond
  rw [← gather_append, ← List.map_eq_flatMap] at htasks
  refine Goes.bind htasks fun ts r w htold => .pure ⟨?_, ?_⟩
  · rw [List.append_nil]
    exact (htold.look herrand' hresults').look herrand hresults
  · refine (Undeclared.of_stock hnetworks).append (Undeclared.of_stock hpools) fun s hs s' hs' => ?_
    obtain ⟨name, -, rfl⟩ := List.mem_map.1 hs
    obtain ⟨name', -, rfl⟩ := List.mem_map.1 hs'
    exact nofun

/-- Domains: their errands come in the order of the machines. -/
theorem goes_domainsInLine (timeout : Binary64) (before : List Result) (w : Watched) :
    Goes d cancels (fun ts x => Recounts d.machines ts x.1 ∧ d.Undeclared (x.2.map (DefinedKind.domain, ·)))
      (d.domainsInLine dry timeout before) w := by
  refine (Goes.look (Stock.keepsTo_take .domain _) ((Stock.speaks_take .domain _).run_value _ w)).bind ?_
  rintro _ domains w ⟨⟨T, rfl, herrand, hresults⟩, hdomains⟩
  have htasks : GoesOn d cancels (d.domains.items.flatMap fun x => [.domain x])
      (gather (domains.tasks .domain d.domains.items (·.name) (fun _ => []) fun x => x.task dry timeout before)) w :=
    Stock.goesOn_tasks hdomains (fun x _ there w => x.goesOn_task dry timeout before there w)
      (fun _ _ x hx => absurd hx (by simp)) w
  rw [← List.map_eq_flatMap] at htasks
  refine Goes.bind htasks fun ts r w htold => .pure ⟨?_, Undeclared.of_stock hdomains⟩
  rw [List.append_nil]
  exact htold.look herrand hresults

/-- **A pass goes in proper turns**, and its errands come in the order of its agenda, whatever the host answers and
whenever it is cancelled. -/
theorem goes_phases (timeout : Binary64) (w : Watched) :
    Goes d cancels (fun ts r => ∃ domains rest, d.Undeclared (domains.map (DefinedKind.domain, ·)) ∧
      d.Undeclared rest ∧ (∀ s ∈ rest, s.1 ≠ .domain) ∧ Recounts (d.agenda domains rest) ts r)
      (d.phases dry timeout) w := by
  refine Goes.bind (goes_networksAndPools w) ?_
  rintro ts ⟨first, networks, pools⟩ w ⟨hfirst, hrest⟩
  have hkinds : ∀ s ∈ networks.map (DefinedKind.network, ·) ++ pools.map (DefinedKind.pool, ·),
      s.1 ≠ .domain := by
    intro s hs
    rcases List.mem_append.1 hs with hs | hs <;> obtain ⟨name, -, rfl⟩ := List.mem_map.1 hs <;> exact nofun
  have hnone : d.Undeclared ([].map (DefinedKind.domain, ·)) := .nil d
  -- the agenda of a pass that ends early is not gone through to its end
  cases first with
  | error why =>
    refine .pure ⟨[], _, hnone, hrest, hkinds, ?_⟩
    rw [List.append_nil]
    exact hfirst.mono (by simp [agenda])
  | ok first =>
  refine Goes.bind (goes_domainsInLine timeout first w) ?_
  rintro ts₂ ⟨second, domains⟩ w ⟨hsecond, hdomains⟩
  have htwo := hfirst.append hsecond
  cases second with
  | error why =>
    refine .pure ⟨domains, _, hdomains, hrest, hkinds, ?_⟩
    rw [List.append_nil]
    exact htwo.mono (by simp [agenda])
  | ok second =>
  have hremovals : GoesOn d cancels (domains.flatMap fun name => [.removal .domain name])
      (gather (domains.map (Domain.removal dry))) w :=
    GoesOn.gather (fun name _ w => Domain.goesOn_removal dry name w) w
  rw [← List.map_eq_flatMap] at hremovals
  refine Goes.bind hremovals fun ts₃ third w hthird => ?_
  have hthree := htwo.append hthird
  cases third with
  | error why =>
    refine .pure ⟨domains, _, hdomains, hrest, hkinds, ?_⟩
    rw [List.append_nil, ← List.append_assoc]
    exact hthree.mono (by simp [agenda])
  | ok third =>
  refine Goes.bind (Removal.goesOn_run dry _ _ w) fun ts₄ last w hlast => ?_
  have hfour := hthree.append hlast
  refine .pure ⟨domains, _, hdomains, hrest, hkinds, ?_⟩
  rw [List.append_nil, ← List.append_assoc, ← List.append_assoc]
  exact hfour

end Desired

/-- **A whole pass goes in proper turns**, and its report has the results that are told in them. -/
theorem Settings.goes_apply (s : Settings) (d : Desired) (dryRun : Option Bool) (cancels : Nat → Bool)
    (w : Watched) : Talk.Goes d cancels (fun ts answer => ∃ domains rest,
      d.Undeclared (domains.map (DefinedKind.domain, ·)) ∧ d.Undeclared rest ∧ (∀ x ∈ rest, x.1 ≠ .domain) ∧
      (ts.filterMap (·.errand)).Sublist (d.agenda domains rest) ∧
      ∀ report, answer = .ok report → report = .of (ts.flatMap (·.results)) (s.isDry dryRun))
      (s.apply d dryRun) w := by
  unfold apply
  dsimp only
  split
  · refine Talk.Goes.bind (Desired.goes_phases s.pass.shutdownTimeout w) ?_
    rintro ts recorded w ⟨domains, rest, hdomains, hrest, hkinds, htold⟩
    cases recorded with
    | error why =>
      refine .pure ⟨domains, rest, hdomains, hrest, hkinds, ?_, fun report hreport => absurd hreport (by simp)⟩
      rw [List.append_nil]
      exact htold.errands
    | ok results =>
      refine .pure ⟨domains, rest, hdomains, hrest, hkinds, ?_, fun report hreport => ?_⟩
      · rw [List.append_nil]
        exact htold.errands
      · rw [List.append_nil, ← htold.results results rfl]
        exact (Except.ok.inj hreport).symm
  · -- a desired state with issues is not worked on
    refine .pure ⟨[], [], .nil d, .nil d, by simp, List.nil_sublist _, fun report hreport => ?_⟩
    exact absurd hreport (by simp)

end VirtualTopology
