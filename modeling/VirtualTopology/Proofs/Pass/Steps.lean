import VirtualTopology.Proofs.Pass.Watch

/-!
# Steps

Work has a plan: the changes that it can make, in the order in which it makes them (`Started.steps`,
`VolumeEntry.steps`, `Domain.steps`). Work keeps to its plan (`Talk.KeepsTo`): whatever the replies are, the
changes that it makes are some of the steps, in this order, and each at most once. Looks are no steps and may
come anywhere.

`Talk.KeepsTo` follows the program; `KeepsTo.exists_calls` says what it means for the calls of a run on a
watched host.
-/

namespace VirtualTopology

open Dialogue

/-- The calls of a history that change something, in order. -/
def changes (xs : List (Memory × Call)) : List Call := (xs.map (·.2)).filter (!·.isReading)

@[simp] theorem changes_nil : changes [] = [] := rfl

@[simp] theorem changes_append (xs ys : List (Memory × Call)) :
    changes (xs ++ ys) = changes xs ++ changes ys := by
  rw [changes, List.map_append, List.filter_append]
  rfl

theorem changes_single_of_reading {m : Memory} {c : Call} (h : c.isReading = true) : changes [(m, c)] = [] := by
  simp [changes, h]

/-! ### Keeping to steps -/

namespace Talk

variable {α β : Type} {cs cs' : List Call} {t : Talk α} {f : α → Talk β}

/-- Whether the changes that a dialogue makes are among the steps that are told, in this order and each at most
once, whatever the replies are. -/
inductive KeepsTo : List Call → Talk α → Prop where
  | done (cs : List Call) (a : α) : KeepsTo cs (.done a)
  /-- A query that changes nothing. -/
  | look {cs : List Call} {q : Query} {next : q.Reply → Talk α} (looks : q.CallsOnly (·.isReading = true))
      (goes : ∀ r, KeepsTo cs (next r)) : KeepsTo cs (.ask q next)
  /-- The next step is taken. -/
  | step {c : Call} {cs : List Call} {next : (Query.call c).Reply → Talk α} (goes : ∀ r, KeepsTo cs (next r)) :
      KeepsTo (c :: cs) (.ask (.call c) next)
  /-- The next step is left out. -/
  | skip {c : Call} {cs : List Call} {t : Talk α} (keeps : KeepsTo cs t) : KeepsTo (c :: cs) t

namespace KeepsTo

/-- More steps may be left out in front. -/
theorem skips (cs : List Call) (h : KeepsTo cs' t) : KeepsTo (cs ++ cs') t := by
  induction cs with
  | nil => exact h
  | cons c cs ih => exact ih.skip

/-- **More steps may be left out anywhere.** -/
theorem mono (h : KeepsTo cs t) (hsub : cs.Sublist cs') : KeepsTo cs' t := by
  induction h generalizing cs' with
  | done cs a => exact .done cs' a
  | look looks _ ih => exact .look looks fun r => ih r hsub
  | @step c cs next _ ih =>
    -- the step stands somewhere in the longer plan, and the others stand behind it
    obtain ⟨before, after, rfl, hmem, hafter⟩ := List.cons_sublist_iff.1 hsub
    obtain ⟨xs, ys, rfl⟩ := List.append_of_mem hmem
    rw [List.append_assoc, List.cons_append]
    exact .skips xs (.step fun r => ih r (hafter.trans (List.sublist_append_right ys after)))
  | skip _ ih => exact ih ((List.sublist_cons_self _ _).trans hsub)

/-- The steps of a dialogue, and then those of the one behind it. -/
theorem bind (h : KeepsTo cs t) (hf : ∀ a, KeepsTo cs' (f a)) : KeepsTo (cs ++ cs') (t >>= f) := by
  show KeepsTo (cs ++ cs') (Dialogue.bind t f)
  induction h with
  | done cs a => exact (hf a).skips cs
  | look looks _ ih => exact .look looks fun r => ih r
  | step _ ih => exact .step fun r => ih r
  | skip _ ih => exact ih.skip

/-- A look, which is no step. -/
theorem query {q : Query} (h : q.CallsOnly (·.isReading = true)) :
    KeepsTo [] (Dialogue.query q : Talk q.Reply) := .look h fun r => .done [] r

/-- **The changes in a run of a dialogue are among its steps**, in this order. -/
theorem exists_calls (h : KeepsTo cs t) (cancels : Nat → Bool) (w : Watched) :
    ∃ more, (t.run (Watched.answer cancels) w).2.calls = w.calls ++ more ∧ (changes more).Sublist cs := by
  -- a look adds no change, a step adds its call, and a step that is left out adds none
  induction h generalizing w with
  | done cs a => exact ⟨[], (List.append_nil _).symm, List.nil_sublist _⟩
  | @look cs q next looks _ ih =>
    obtain ⟨more, hcalls, hsub⟩ := ih (w.reply cancels q) (w.after q)
    cases q with
    | call c =>
      refine ⟨(w.host, c) :: more, ?_, ?_⟩
      · show (Dialogue.run _ (next _) (w.after _)).2.calls = _
        rw [hcalls, Watched.calls_after_call, List.append_assoc]
        rfl
      · have hlooks : changes [(w.host, c)] = [] := changes_single_of_reading looks
        rw [← List.singleton_append, changes_append, hlooks, List.nil_append]
        exact hsub
    | cancelled => exact ⟨more, hcalls, hsub⟩
    | now => exact ⟨more, hcalls, hsub⟩
    | sleep _ => exact ⟨more, hcalls, hsub⟩
  | @step c cs next _ ih =>
    obtain ⟨more, hcalls, hsub⟩ := ih (w.reply cancels (.call c)) (w.after (.call c))
    refine ⟨(w.host, c) :: more, ?_, ?_⟩
    · show (Dialogue.run _ (next _) (w.after _)).2.calls = _
      rw [hcalls, Watched.calls_after_call, List.append_assoc]
      rfl
    · rw [← List.singleton_append, changes_append]
      have hone : (changes [(w.host, c)]).Sublist [c] := List.filter_sublist
      exact hone.append hsub
  | skip _ ih =>
    obtain ⟨more, hcalls, hsub⟩ := ih w
    exact ⟨more, hcalls, hsub.cons _⟩

end KeepsTo

end Talk

namespace Work

open Talk

variable {α β : Type} {cs cs' : List Call} {v : Work α} {g : α → Work β}

/-- The steps of work, and then those of the work behind it. -/
theorem keepsTo_bind (h : KeepsTo cs v.run) (hg : ∀ a, KeepsTo cs' (g a).run) :
    KeepsTo (cs ++ cs') (v >>= g).run := by
  rw [ExceptT.run_bind]
  refine h.bind fun a => ?_
  cases a with
  | ok a => exact hg a
  | error x => exact .done _ _

/-- Work without steps behind other work. -/
theorem keepsTo_then (h : KeepsTo cs v.run) (hg : ∀ a, KeepsTo [] (g a).run) : KeepsTo cs (v >>= g).run := by
  have hbind := keepsTo_bind h hg
  rwa [List.append_nil] at hbind

/-- Work behind work without steps. -/
theorem keepsTo_after (h : KeepsTo [] v.run) (hg : ∀ a, KeepsTo cs (g a).run) : KeepsTo cs (v >>= g).run :=
  keepsTo_bind h hg

/-- A step that is left out if there is no need for it. -/
theorem keepsTo_if {u : Work Unit} {g : Unit → Work β} {b : Prop} [Decidable b] (h : KeepsTo cs u.run)
    (hg : KeepsTo cs' (g ()).run) : KeepsTo (cs ++ cs') (if b then u >>= g else g ()).run := by
  split
  · exact keepsTo_bind h fun _ => hg
  · exact hg.skips cs

/-- A step in front of work without steps, left out if there is no need for it. -/
theorem keepsTo_ifLast {u : Work Unit} {g : Unit → Work β} {b : Prop} [Decidable b] (h : KeepsTo cs u.run)
    (hg : KeepsTo [] (g ()).run) : KeepsTo cs (if b then u >>= g else g ()).run := by
  have hif := keepsTo_if (b := b) h hg
  rwa [List.append_nil] at hif

theorem keepsTo_pure (a : α) : KeepsTo [] (Pure.pure a : Work α).run := .done [] _

theorem keepsTo_throw (x : Trouble) : KeepsTo [] (MonadExcept.throw x : Work α).run := .done [] _

/-- To look is no step. -/
theorem keepsTo_attempt {op : Operation} {c : Call} (h : c.isReading = true) :
    KeepsTo [] (Work.attempt op c).run := by
  refine .look h fun reply => ?_
  cases reply with
  | ok a => exact .done [] _
  | error x => exact .done [] _

/-- A change is one step. -/
theorem keepsTo_change (dry : Bool) (op : Operation) (c : Call) : KeepsTo [c] (Work.change dry op c).run := by
  cases dry with
  | true => exact .skip (.done [] _)
  | false =>
    refine .step fun reply => ?_
    cases reply with
    | ok a => exact .done [] _
    | error x => exact .done [] _

/-- Work behind a text, if it can be written. -/
theorem keepsTo_written {x : Except Unwritable String} {g : String → Work β}
    (hg : ∀ text, x = .ok text → KeepsTo cs (g text).run) : KeepsTo cs (Work.writing x >>= g).run := by
  cases x with
  | ok text => exact hg text rfl
  | error why => exact .done cs _

theorem keepsTo_stating (sizes : List Nat) (text : String) : KeepsTo [] (Work.stating sizes text).run := by
  rcases VolumeEntry.stating_cases sizes text with ⟨h, -⟩ | h
  · rw [h]
    exact keepsTo_pure text
  · rw [h]
    exact keepsTo_throw _

/-- A question other than a call is no step. -/
theorem keepsTo_lift {q : Query} (h : ∀ c, q ≠ .call c) :
    KeepsTo [] (liftM (Dialogue.query q : Talk q.Reply) : Work q.Reply).run := by
  refine .look ?_ fun r => .done [] _
  cases q with
  | call c => exact absurd rfl (h c)
  | cancelled => trivial
  | now => trivial
  | sleep _ => trivial

end Work

/-! ### The steps of the work on a resource -/

namespace Started

open Work Talk

/-- The changes that the work on a network or a pool can make, in order. -/
def steps (s : Started) : List Call :=
  s.text.toOption.toList.map (.define s.kind) ++
    [.stop s.kind s.name false, .start s.kind s.name, .setAutostart s.kind s.name s.autostart]

/-- Behind the storing of its document a resource is stopped, started, and told whether to start on its own. -/
theorem keepsTo_finish (s : Started) (dry exists_ changed : Bool) :
    KeepsTo [.stop s.kind s.name false, .start s.kind s.name, .setAutostart s.kind s.name s.autostart]
      (s.finish dry exists_ changed).run := by
  have hcarry : ∀ running autostart, KeepsTo
      [.stop s.kind s.name false, .start s.kind s.name, .setAutostart s.kind s.name s.autostart] (do
        let p := s.plan exists_ changed running autostart
        if p.stop then Work.change dry .stop (.stop s.kind s.name false)
        if p.start then Work.change dry .start (.start s.kind s.name)
        if p.autostart then
          Work.change dry .autostart (.setAutostart s.kind s.name s.autostart)
        let readable := s.active && (running || !dry)
        return (s.result p, readable) : Work _).run := by
    intro running autostart
    exact keepsTo_if (keepsTo_change dry _ _) (keepsTo_if (keepsTo_change dry _ _)
      (keepsTo_ifLast (keepsTo_change dry _ _) (keepsTo_pure _)))
  unfold finish
  cases exists_ with
  | true =>
    refine keepsTo_after (keepsTo_attempt rfl) fun running => ?_
    exact keepsTo_after (keepsTo_attempt rfl) fun autostart => hcarry running autostart
  | false =>
    refine keepsTo_after (keepsTo_pure false) fun running => ?_
    exact keepsTo_after (keepsTo_pure false) fun autostart => hcarry running autostart

/-- **The work on a network or a pool keeps to its steps.** -/
theorem keepsTo_sync (s : Started) (dry exists_ : Bool) : KeepsTo s.steps (s.sync dry exists_).run := by
  rw [sync_eq]
  refine keepsTo_written fun text htext => ?_
  have hsteps : s.steps = [.define s.kind text] ++
      [.stop s.kind s.name false, .start s.kind s.name, .setAutostart s.kind s.name s.autostart] := by
    rw [steps, htext]
    rfl
  have hstore : ∀ changed, KeepsTo s.steps (do
      if changed then Work.change dry .define (.define s.kind text)
      s.finish dry exists_ changed : Work _).run := fun changed => by
    rw [hsteps]
    exact keepsTo_if (keepsTo_change dry _ _) (s.keepsTo_finish dry exists_ changed)
  cases exists_ with
  | true => exact keepsTo_after (keepsTo_attempt rfl) fun stored => keepsTo_after (keepsTo_pure _) hstore
  | false => exact keepsTo_after (keepsTo_pure _) hstore

end Started

namespace VolumeEntry

open Work Talk

/-- The changes that the work on the volume of an entry can make. -/
def steps (e : VolumeEntry) (pool : String) : List Call :=
  (e.volume.toList.flatMap fun v =>
    v.written.toOption.toList.map (.createVolume pool) ++ [.resizeVolume pool e.name v.capacity.toBytes]) ++
    [.deleteVolume pool e.name]

/-- **The work on a volume keeps to its steps.** -/
theorem keepsTo_sync (e : VolumeEntry) (dry : Bool) (pool : String) (exists_ : Bool) :
    KeepsTo (e.steps pool) (e.sync dry pool exists_).run := by
  -- in each branch one call at most changes something
  have hone : ∀ {w : Work Result} {c : Call}, c ∈ e.steps pool → KeepsTo [c] w.run →
      KeepsTo (e.steps pool) w.run := fun hc hw => hw.mono (List.singleton_sublist.2 hc)
  have hnone : ∀ {w : Work Result}, KeepsTo [] w.run → KeepsTo (e.steps pool) w.run :=
    fun hw => hw.mono (List.nil_sublist _)
  cases hp : e.present with
  | false =>
    rw [sync, hp]
    cases exists_ with
    | false => exact hnone (keepsTo_pure _)
    | true =>
      exact hone (by simp [steps]) (keepsTo_then (keepsTo_change dry _ (.deleteVolume pool e.name))
        fun _ => keepsTo_pure _)
  | true =>
    rw [sync, hp]
    cases hv : e.volume with
    | none => exact hnone (keepsTo_pure _)
    | some v =>
      cases exists_ with
      | false =>
        refine keepsTo_written fun text htext => ?_
        have hmem : Call.createVolume pool text ∈ e.steps pool := by
          rw [steps, hv, Option.toList_some, List.flatMap_singleton, htext]
          exact List.mem_append_left _ (List.mem_append_left _ (by simp [Except.toOption]))
        exact hone hmem
          (keepsTo_then (keepsTo_change dry _ (.createVolume pool text)) fun _ => keepsTo_pure _)
      | true =>
        show KeepsTo _ (e.adjust dry pool v).run
        rw [adjust_eq]
        refine keepsTo_after (keepsTo_attempt rfl) fun document => ?_
        rcases weigh_cases e pool v document with ⟨x, hweigh⟩ |
          ⟨x, -, -, ⟨-, hweigh⟩ | ⟨size, text, -, -, hweigh⟩⟩
        · rw [hweigh]
          exact hnone (keepsTo_throw x)
        · rw [hweigh]
          exact hnone (keepsTo_pure _)
        · rw [hweigh]
          refine hone (by simp [steps, hv])
            (keepsTo_then (keepsTo_change dry _ (.resizeVolume pool e.name v.capacity.toBytes)) fun _ => ?_)
          exact keepsTo_after (keepsTo_stating _ _) fun _ => keepsTo_pure _

end VolumeEntry

namespace Domain

open Work Talk

variable {x : Domain}

/-- The changes of seeing to the power of a domain, in order: it is asked to shut down, turned off by force, and
started. -/
def powerSteps (x : Domain) : List Call :=
  [.stop .domain x.name false, .stop .domain x.name true, .start .domain x.name]

/-- The changes that the work on a domain can make, in order. -/
def steps (x : Domain) : List Call := x.written.toOption.toList.map (.define .domain) ++ x.powerSteps

/-- To wait for a domain is no step. -/
theorem keepsTo_awaitOff (name : String) (deadline : Binary64) (looks : Nat) :
    KeepsTo [] (awaitOff name deadline looks).run := by
  induction looks with
  | zero => exact keepsTo_pure false
  | succ looks ih =>
    refine keepsTo_after (keepsTo_attempt rfl) fun on => ?_
    split
    · refine keepsTo_after (keepsTo_lift (q := .now) fun _ h => nomatch h) fun now => ?_
      dsimp only
      split
      · exact keepsTo_pure false
      · exact keepsTo_after (keepsTo_lift (q := .sleep _) fun _ h => nomatch h) fun _ => ih
    · exact keepsTo_pure true

/-- A restart asks for a shutdown, turns the domain off by force if it takes too long, and starts it. -/
theorem keepsTo_restartNow (x : Domain) (dry : Bool) (timeout : Binary64) :
    KeepsTo x.powerSteps (restartNow dry timeout x.name).run := by
  cases dry with
  | true => exact .done _ _
  | false =>
    show KeepsTo ([.stop .domain x.name false] ++ [.stop .domain x.name true, .start .domain x.name]) _
    refine keepsTo_bind (keepsTo_change false _ _) fun _ => ?_
    have hwait : KeepsTo [] (waitForShutdown x.name timeout).run :=
      keepsTo_after (keepsTo_lift (q := .now) fun _ h => nomatch h) fun now => keepsTo_awaitOff _ _ _
    refine keepsTo_after hwait fun off => ?_
    exact keepsTo_if (keepsTo_change false _ _) (keepsTo_then (keepsTo_change false _ _) fun _ => keepsTo_pure _)

/-- **Seeing to the power of a domain keeps to its steps.** -/
theorem keepsTo_power (x : Domain) (dry : Bool) (timeout : Binary64) (outcome : Outcome) (running : Bool) :
    KeepsTo x.powerSteps (x.power dry timeout outcome running).run := by
  rcases x.power_cases timeout outcome running with ⟨h, -⟩ | ⟨h, -⟩ | ⟨h, -⟩ | ⟨said, h, -⟩
  · rw [h]
    have hstart := keepsTo_then (keepsTo_change dry .start (.start .domain x.name))
      fun _ => keepsTo_pure ["started"]
    exact hstart.mono (by simp [powerSteps])
  · rw [h]
    have hstop := keepsTo_then (keepsTo_change dry .stop (.stop .domain x.name false))
      fun _ => keepsTo_pure ["shutdown requested"]
    exact hstop.mono (by simp [powerSteps])
  · rw [h]
    exact keepsTo_then (x.keepsTo_restartNow dry timeout) fun told => keepsTo_pure _
  · rw [h]
    exact (keepsTo_pure said).mono (List.nil_sublist _)

/-- **The work on a domain keeps to its steps.** -/
theorem keepsTo_sync (x : Domain) (dry : Bool) (timeout : Binary64) (exists_ : Bool) :
    KeepsTo x.steps (x.sync dry timeout exists_).run := by
  rw [sync_eq]
  have hfinish : ∀ outcome details, KeepsTo x.powerSteps
      (x.finish dry timeout exists_ outcome details).run := fun outcome details => by
    unfold finish
    dsimp only
    split
    · exact keepsTo_after (keepsTo_attempt rfl) fun running => keepsTo_then (x.keepsTo_power _ _ _ _)
        fun said => keepsTo_pure _
    · exact keepsTo_after (keepsTo_pure _) fun running => keepsTo_then (x.keepsTo_power _ _ _ _)
        fun said => keepsTo_pure _
  refine keepsTo_bind ?_ fun stored => hfinish stored.1 stored.2
  unfold store
  refine keepsTo_written fun text htext => ?_
  have hdefine : ∀ result : Outcome × List String, KeepsTo (x.written.toOption.toList.map (.define .domain))
      (Work.change dry .define (.define .domain text) >>= fun _ => pure result : Work _).run := fun result => by
    rw [htext]
    exact keepsTo_then (keepsTo_change dry .define (.define .domain text)) fun _ => keepsTo_pure _
  cases exists_ with
  | false => exact hdefine _
  | true =>
    refine keepsTo_after (keepsTo_attempt rfl) fun stored => ?_
    split
    · exact (keepsTo_pure _).mono (List.nil_sublist _)
    · exact hdefine _

/-- The removal of a domain has one step. -/
theorem keepsTo_remove (dry : Bool) (name : String) :
    KeepsTo [.undefine .domain name] (remove dry name).run :=
  keepsTo_after (keepsTo_attempt rfl) fun _ => keepsTo_then (keepsTo_change dry _ _) fun _ => keepsTo_pure _

end Domain

/-- The removal of a network or a pool has one step. -/
theorem Removal.keepsTo_remove (dry : Bool) (kind : DefinedKind) (name : String) :
    Talk.KeepsTo [.undefine kind name] (remove dry kind name).run :=
  Work.keepsTo_then (Work.keepsTo_change dry _ _) fun _ => Work.keepsTo_pure _

end VirtualTopology
