import VirtualTopology.Proofs.Host.History
import VirtualTopology.Proofs.Pass.Watch
import VirtualTopology.Proofs.Power

/-!
# Running networks and pools pick up their definitions

A running network or pool picks up a new definition when it is started again. A pass finds out that this is due by
comparing documents, and storing the new document makes the difference vanish: if the pass gets no further, the
next one sees nothing to do.

Whether a restart is due can be told from the calls so far (`Started.Pending`): the resource was redefined while it
was running, and has not been stopped since. At each moment of a pass, results and calls account for the resource
(`Started.IsAccounted`): if a restart is due, one of the results is a failure of the resource, and if one of them
says that there was nothing to do, the resource was seen running. So if a later pass says that there was nothing
to do, the resource was stopped and started in between, unless the pass that redefined it failed to stop it and
said so (`Settings.restarted_of_unchanged`). In this one case the restart never comes
(`Settings.not_restarted_withScratch`).
-/

namespace VirtualTopology

open Dialogue

/-- Whether a resource runs and has not been asked to stop. -/
def Tables.IsUp (t : Tables) (k : DefinedKind) (name : String) : Prop :=
  ∃ r ∈ t.get? k name, r.active = true ∧ r.closing = none

instance (t : Tables) (k : DefinedKind) (name : String) : Decidable (t.IsUp k name) :=
  inferInstanceAs (Decidable (∃ r ∈ t.get? k name, r.active = true ∧ r.closing = none))

/-- Whether a call stores a document that gives a name. -/
def Call.isDefinitionOf (k : DefinedKind) (name : String) : Call → Bool
  | .define l text => l == k && nameInDocument text == name
  | _ => false

theorem Call.isDefinitionOf_iff {k : DefinedKind} {name : String} {c : Call} :
    c.isDefinitionOf k name = true ↔ ∃ text, c = .define k text ∧ nameInDocument text = name := by
  cases c <;> simp [isDefinitionOf, and_assoc]

namespace Memory

variable {m : Memory} {k : DefinedKind} {name : String}

/-- A resource that is redefined while it runs keeps running. -/
theorem isUp_call_define {text : String} (hname : nameInDocument text = name) (h : m.tables.IsUp k name) :
    (m.call (.define k text)).2.tables.IsUp k name := by
  rcases m.tables_call (.define k text) with heq | ⟨a, ha⟩
  · rw [heq]
    exact h
  · obtain ⟨r, hr, hactive, hclosing⟩ := h
    obtain ⟨-, htables⟩ := Prod.mk.inj (Except.ok.inj ha)
    rw [← htables, hname, Tables.define, hr]
    exact ⟨_, Tables.get?_put_self, hactive, hclosing⟩

/-- A look at a resource that runs and has not been asked to stop sees it running. -/
theorem eq_true_of_isUp {running : Bool} (hcall : (m.call (.isActive k name)).1 = .ok running)
    (h : m.tables.IsUp k name) : running = true := by
  obtain ⟨r, hr, hactive, hclosing⟩ := h
  obtain ⟨s, hfind, hserve⟩ := Tables.exists_of_bind_eq_ok (serve_eq_of_call_eq_ok hcall)
  obtain rfl : r = s := Option.some.inj (hr.symm.trans (Tables.get?_of_find hfind))
  obtain ⟨hseen, -⟩ := Prod.mk.inj (Except.ok.inj hserve)
  rw [← hseen, StoredResource.seen_eq_self hclosing, hactive]

end Memory

namespace Started

variable {x : Started} {ys zs : List (Memory × Call)} {y : Memory × Call} {rs us : List Result}

/-! ### Redefinitions -/

/-- Whether a call does not define a resource. -/
def Leaves (x : Started) (c : Call) : Prop :=
  ∀ text, c = .define x.kind text → nameInDocument text ≠ x.name

/-- Whether a resource is redefined while it is running, by a call that goes well. -/
structure Redefines (x : Started) (y : Memory × Call) : Prop where
  defines : y.2.isDefinitionOf x.kind x.name = true
  serves : y.1.serves y.2 = true
  running : y.1.tables.IsUp x.kind x.name

instance (x : Started) (y : Memory × Call) : Decidable (x.Redefines y) :=
  decidable_of_iff (y.2.isDefinitionOf x.kind x.name = true ∧ y.1.serves y.2 = true ∧
    y.1.tables.IsUp x.kind x.name) ⟨fun ⟨hd, hs, hr⟩ => ⟨hd, hs, hr⟩, fun ⟨hd, hs, hr⟩ => ⟨hd, hs, hr⟩⟩

theorem Redefines.not_leaves (h : x.Redefines y) : ¬ x.Leaves y.2 := by
  obtain ⟨text, hdefine, hname⟩ := Call.isDefinitionOf_iff.1 h.defines
  exact fun hleaves => hleaves text hdefine hname

/-- Whether a restart is due behind some calls: the resource was redefined while it was running, and has not been
stopped since. -/
def Pending (x : Started) (ys : List (Memory × Call)) : Prop :=
  ∃ before y after, ys = before ++ y :: after ∧ x.Redefines y ∧ .stop x.kind x.name false ∉ served after

theorem not_pending_nil : ¬ x.Pending [] := by
  rintro ⟨before, y, after, heq, -⟩
  exact absurd heq (by simp)

/-- **A restart is due because of the last call, or it was due before** and the last call has not stopped the
resource. -/
theorem Pending.of_snoc (h : x.Pending (ys ++ [y])) :
    x.Redefines y ∨ x.Pending ys ∧ ¬ (y.2 = .stop x.kind x.name false ∧ y.1.serves y.2 = true) := by
  obtain ⟨before, z, after, heq, hredefines, hstop⟩ := h
  rcases List.eq_nil_or_concat after with rfl | ⟨after, last, rfl⟩
  · obtain ⟨-, hlast⟩ := List.append_inj' heq rfl
    rw [List.singleton_inj.1 hlast]
    exact .inl hredefines
  · rw [List.concat_eq_append] at heq hstop
    rw [← List.cons_append, ← List.append_assoc] at heq
    obtain ⟨rfl, hlast⟩ := List.append_inj' heq rfl
    obtain rfl := List.singleton_inj.1 hlast
    rw [served_append, List.mem_append, not_or] at hstop
    refine .inr ⟨⟨before, z, after, rfl, hredefines, hstop.1⟩, ?_⟩
    rintro ⟨hcall, hserves⟩
    exact hstop.2 (mem_served_iff.2 ⟨y.1, by simp [← hcall], hcall ▸ hserves⟩)

/-- A call that does not define the resource makes no restart due. -/
theorem Pending.of_snoc_leaves (h : x.Pending (ys ++ [y])) (hleaves : x.Leaves y.2) : x.Pending ys :=
  h.of_snoc.elim (fun hredefines => absurd hleaves hredefines.not_leaves) (·.1)

/-! ### What results and calls account for -/

/-- Whether a result does not say that there was nothing to do for a resource. -/
def Skips (x : Started) (r : Result) : Prop :=
  ¬ (r.isAbout x.kind.resource x.name = true ∧ r.outcome = .unchanged)

/-- **Whether results and calls account for a resource that is declared to run.** -/
structure IsAccounted (x : Started) (rs : List Result) (ys : List (Memory × Call)) : Prop where
  /-- If there was nothing to do, the resource was seen running. -/
  seen : (∃ r ∈ rs, ¬ x.Skips r) → ∃ y ∈ ys, y.1.tables.Runs x.kind x.name
  /-- If a restart is due, the resource has failed. -/
  told : x.Pending ys → ∃ r ∈ rs, r.isAbout x.kind.resource x.name = true ∧ r.outcome = .failed

namespace IsAccounted

theorem nil (h : ¬ x.Pending ys) : x.IsAccounted [] ys :=
  ⟨by simp, fun hpending => absurd hpending h⟩

/-- Results that do not say that there was nothing to do change nothing. -/
theorem mono (h : x.IsAccounted rs ys) (hrs : ∀ r ∈ rs, r ∈ us) (hus : ∀ r ∈ us, r ∈ rs ∨ x.Skips r) :
    x.IsAccounted us ys := by
  refine ⟨?_, fun hpending => ?_⟩
  · rintro ⟨r, hr, hunchanged⟩
    exact h.seen ⟨r, (hus r hr).resolve_right hunchanged, hunchanged⟩
  · obtain ⟨r, hr, hfailed⟩ := h.told hpending
    exact ⟨r, hrs r hr, hfailed⟩

theorem append (h : x.IsAccounted rs ys) (hus : ∀ r ∈ us, x.Skips r) : x.IsAccounted (rs ++ us) ys :=
  h.mono (fun _ => List.mem_append_left _) fun r hr => (List.mem_append.1 hr).imp id (hus r)

theorem snoc (h : x.IsAccounted rs ys) (hy : x.Leaves y.2) : x.IsAccounted rs (ys ++ [y]) := by
  refine ⟨fun hunchanged => ?_, fun hpending => h.told (hpending.of_snoc_leaves hy)⟩
  obtain ⟨z, hz, hruns⟩ := h.seen hunchanged
  exact ⟨z, List.mem_append_left _ hz, hruns⟩

/-- A failure of the resource accounts for everything. -/
theorem of_failed {r : Result} (habout : r.isAbout x.kind.resource x.name = true) (hfailed : r.outcome = .failed)
    (ys : List (Memory × Call)) : x.IsAccounted [r] ys := by
  refine ⟨?_, fun _ => ⟨r, by simp, habout, hfailed⟩⟩
  rintro ⟨r', hr', hunchanged⟩
  obtain rfl := List.mem_singleton.1 hr'
  exact absurd (fun h => absurd (hfailed.symm.trans h.2) (by simp)) hunchanged

/-- A query that does not define the resource keeps what is accounted for. -/
theorem after {w : Watched} {q : Query} (h : x.IsAccounted rs w.calls) (hq : q.CallsOnly x.Leaves) :
    x.IsAccounted rs (w.after q).calls := by
  cases q with
  | call c => exact h.snoc hq
  | cancelled => exact h
  | now => exact h
  | sleep _ => exact h

end IsAccounted

/-! ### The work on the resource itself -/

section

variable {w : Watched} {p : StartedPlan} {dry exists_ changed readable : Bool}

/-- A call that defines nothing does not define the resource. -/
theorem leaves_of_ne {c : Call} (h : ∀ k text, c ≠ .define k text) : x.Leaves c :=
  fun text hc => absurd hc (h _ text)

/-- A step that keeps what results and calls account for. -/
theorem leads_step {op : Operation} {c : Call} {b : Bool} (hw : x.IsAccounted rs w.calls) (hc : x.Leaves c) :
    Talk.Leads (if b then Work.change dry op c else pure ()) w fun _ w' => x.IsAccounted rs w'.calls := by
  cases b with
  | false => exact .pure hw
  | true => exact .change (fun _ => hw) fun _ _ _ => hw.snoc hc

/-- **A stop settles a restart that is due.** -/
theorem leads_stop (hpending : x.Pending w.calls → p.stop = true ∧ dry = false)
    (hseen : ¬ x.Skips (x.result p) → ∃ y ∈ w.calls, y.1.tables.Runs x.kind x.name) :
    Talk.Leads (if p.stop then Work.change dry .stop (.stop x.kind x.name false) else pure ()) w
      fun _ w' => x.IsAccounted [x.result p] w'.calls := by
  have hsettled : ∀ {w' : Watched}, (∀ y ∈ w.calls, y ∈ w'.calls) → ¬ x.Pending w'.calls →
      x.IsAccounted [x.result p] w'.calls := by
    refine fun hsub hnone => ⟨?_, fun h => absurd h hnone⟩
    rintro ⟨r, hr, hunchanged⟩
    obtain rfl := List.mem_singleton.1 hr
    obtain ⟨y, hy, hruns⟩ := hseen hunchanged
    exact ⟨y, hsub y hy, hruns⟩
  cases hstop : p.stop with
  | false => exact .pure (hsettled (fun _ => id) fun h => absurd (hpending h).1 (by simp [hstop]))
  | true =>
    refine .change (fun hdry => hsettled (fun _ => id) fun h => ?_)
      fun a _ hcall => hsettled (fun _ => List.mem_append_left _) fun h => ?_
    · exact absurd (hdry.symm.trans (hpending h).2) (by simp)
    · rcases h.of_snoc with hredefines | ⟨-, hnot⟩
      · exact absurd (leaves_of_ne (by simp)) hredefines.not_leaves
      · exact hnot ⟨rfl, Memory.serves_eq_true_iff.2 ⟨a, hcall⟩⟩

/-- The steps of a plan. -/
theorem leads_steps (hpending : x.Pending w.calls → p.stop = true ∧ dry = false)
    (hseen : ¬ x.Skips (x.result p) → ∃ y ∈ w.calls, y.1.tables.Runs x.kind x.name) :
    Talk.Leads (do
      if p.stop then Work.change dry .stop (.stop x.kind x.name false)
      if p.start then Work.change dry .start (.start x.kind x.name)
      if p.autostart then Work.change dry .autostart (.setAutostart x.kind x.name x.autostart)
      return (x.result p, readable)) w fun r w' => x.IsAccounted [r.1] w'.calls := by
  refine (leads_stop hpending hseen).bindIf fun _ w hw => ?_
  refine (leads_step hw (leaves_of_ne (by simp))).bindIf fun _ w hw => ?_
  exact (leads_step hw (leaves_of_ne (by simp))).bindIf fun _ w hw => .pure hw

/-- If nothing is to be done to a resource that is declared to run, it is there and runs. -/
theorem running_of_unchanged (hactive : x.active = true) {running autostart : Bool}
    (h : ¬ x.Skips (x.result (x.plan exists_ changed running autostart))) :
    exists_ = true ∧ running = true := by
  have hunchanged : (x.result (x.plan exists_ changed running autostart)).outcome = .unchanged :=
    (not_not.1 h).2
  cases exists_ with
  | false => exact absurd hunchanged (by simp [result, plan])
  | true =>
    refine ⟨rfl, ?_⟩
    by_contra hrunning
    exact absurd hunchanged (by simp [result, details, plan, hactive, Bool.not_eq_true _ ▸ hrunning])

/-- **Behind the storing of its document** the resource is seen running if a restart is due, and stopped. -/
theorem leads_finish (hactive : x.active = true)
    (hpending : x.Pending w.calls → exists_ = true ∧ changed = true ∧ dry = false ∧
      w.host.tables.IsUp x.kind x.name) :
    Talk.Leads (x.finish dry exists_ changed) w fun r w' => x.IsAccounted [r.1] w'.calls := by
  unfold finish
  cases exists_ with
  | false =>
    refine Talk.Leads.bind (Q := fun running w' => running = false ∧ ¬ x.Pending w'.calls)
      (.pure ⟨rfl, fun h => absurd (hpending h).1 (by simp)⟩) ?_
    rintro _ w ⟨rfl, hnone⟩
    refine Talk.Leads.bind (Q := fun _ w' => ¬ x.Pending w'.calls) (.pure hnone) fun autostart w hnone => ?_
    exact leads_steps (fun h => absurd h hnone) fun h => absurd (running_of_unchanged hactive h).1 (by simp)
  | true =>
    -- what has been seen to run runs, and so does what has been redefined
    let Seen (running : Bool) (w : Watched) : Prop :=
      (x.Pending w.calls → changed = true ∧ dry = false ∧ running = true) ∧
        (running = true → ∃ y ∈ w.calls, y.1.tables.Runs x.kind x.name)
    refine Talk.Leads.bind (Q := Seen) (.attempt fun running hcall => ⟨fun h => ?_, ?_⟩) ?_
    · obtain ⟨-, hchanged, hreal, hup⟩ := hpending (h.of_snoc_leaves (leaves_of_ne (by simp)))
      exact ⟨hchanged, hreal, Memory.eq_true_of_isUp hcall hup⟩
    · rintro rfl
      exact ⟨_, List.mem_append_right _ (List.mem_singleton_self _), Memory.runs_of_isActive hcall⟩
    · intro running w hw
      refine Talk.Leads.bind (Q := fun _ w' => Seen running w') (.attempt fun autostart _ => ⟨fun h =>
        hw.1 (h.of_snoc_leaves (leaves_of_ne (by simp))), fun h => ?_⟩) fun autostart w hw => ?_
      · obtain ⟨y, hy, hruns⟩ := hw.2 h
        exact ⟨y, List.mem_append_left _ hy, hruns⟩
      · refine leads_steps (fun h => ?_) fun h => hw.2 (running_of_unchanged hactive h).2
        obtain ⟨rfl, hreal, rfl⟩ := hw.1 h
        exact ⟨by simp [plan], hreal⟩

/-- Whether no restart is due, and a resource that was not listed is not there. -/
structure IsFresh (x : Started) (exists_ : Bool) (w : Watched) : Prop where
  settled : ¬ x.Pending w.calls
  absent : exists_ = false → w.host.tables.get? x.kind x.name = none

/-- A query that does not define the resource keeps it fresh. -/
theorem IsFresh.after {q : Query} (h : x.IsFresh exists_ w) (hq : q.CallsOnly x.Leaves) :
    x.IsFresh exists_ (w.after q) := by
  refine ⟨fun hpending => ?_, fun habsent => ?_⟩
  · refine h.settled ?_
    cases q with
    | call c => exact hpending.of_snoc_leaves hq
    | cancelled => exact hpending
    | now => exact hpending
    | sleep _ => exact hpending
  · exact Memory.get?_answer_eq_none (h.absent habsent) hq

/-- **A restart is due behind the storing of a document** only if the resource is there, and it still runs. -/
theorem leads_define {text : String} (hw : x.IsFresh exists_ w) :
    Talk.Leads (if changed then Work.change dry .define (.define x.kind text) else pure ()) w
      fun _ w' => x.Pending w'.calls → exists_ = true ∧ changed = true ∧ dry = false ∧
        w'.host.tables.IsUp x.kind x.name := by
  cases changed with
  | false => exact .pure fun h => absurd h hw.settled
  | true =>
    refine .change (fun _ h => absurd h hw.settled) fun a hreal hcall hpending => ?_
    rcases hpending.of_snoc with ⟨hdefines, -, hup⟩ | ⟨hpending, -⟩
    · have hname : nameInDocument text = x.name := by
        obtain ⟨text', heq, hname⟩ := Call.isDefinitionOf_iff.1 hdefines
        rw [(Call.define.inj heq).2]
        exact hname
      have hthere : exists_ = true := by
        cases hexists : exists_ with
        | true => rfl
        | false =>
          obtain ⟨r, hr, -⟩ := hup
          exact absurd (hr.symm.trans (hw.absent hexists)) (by simp)
      exact ⟨hthere, rfl, hreal, Memory.isUp_call_define hname hup⟩
    · exact absurd hpending hw.settled

/-- **The work on the resource accounts for it**, if it ends well. -/
theorem leads_sync (hactive : x.active = true) (hw : x.IsFresh exists_ w) :
    Talk.Leads (x.sync dry exists_) w fun r w' => x.IsAccounted [r.1] w'.calls := by
  rw [sync_eq]
  cases htext : x.text with
  | error why => exact .throw (.unwritable why)
  | ok text =>
    refine Talk.Leads.bind (Q := fun a w' => a = text ∧ x.IsFresh exists_ w') (.pure ⟨rfl, hw⟩) ?_
    rintro text w ⟨rfl, hw⟩
    have hstore : ∀ changed w, x.IsFresh exists_ w → Talk.Leads (do
        if changed then Work.change dry .define (.define x.kind text)
        x.finish dry exists_ changed) w fun r w' => x.IsAccounted [r.1] w'.calls := fun changed w hw =>
      (leads_define hw).bindIf fun _ w hw => leads_finish hactive hw
    cases exists_ with
    | false => exact Talk.Leads.bind (.pure hw) hstore
    | true =>
      refine Talk.Leads.bind (Q := fun _ w' => x.IsFresh true w')
        (.attempt fun _ _ => hw.after (leaves_of_ne (by simp))) fun stored w hw => ?_
      exact Talk.Leads.bind (.pure hw) hstore

/-- **Supervised work on the resource accounts for it**, whether it is left out, fails or ends well. -/
theorem safe_supervise {α : Type} {v : Work α} (result : α → Result)
    (hv : ∀ w, x.IsFresh exists_ w → Talk.Leads v w fun a w' => x.IsAccounted [result a] w'.calls)
    (hw : x.IsFresh exists_ w) :
    Talk.Safe (fun _ _ => True) (fun ending w' =>
        (∀ a, ending = .finished a → x.IsAccounted [result a] w'.calls) ∧
        ∀ r, ending = .failed r ∨ ending = .cancelled r → x.IsAccounted [r] w'.calls)
      (supervise x.kind.resource x.name v) w := by
  have hw := hw.after (q := .cancelled) trivial
  refine .supervise ⟨by simp, ?_⟩ ((hv _ hw).mono (fun _ _ => id) fun a w h => ?_)
  · rintro r (h | h)
    · exact absurd h (by simp)
    · obtain rfl := Ending.cancelled.inj h
      have hskips : ∀ r ∈ [Result.cancelled x.kind.resource x.name], x.Skips r := fun r hr => by
        obtain rfl := List.mem_singleton.1 hr
        exact fun h => absurd h.2 (by simp [Result.cancelled])
      exact (IsAccounted.nil hw.settled).append hskips
  · -- a failure accounts for the resource, whatever was done about it
    cases a with
    | ok a => exact ⟨fun b hb => Ending.finished.inj hb ▸ h a rfl, by simp [Ending.of]⟩
    | error e =>
      cases e with
      | failed op reason fk =>
        refine ⟨by simp [Ending.of], ?_⟩
        rintro r (hr | hr)
        · obtain rfl := Ending.failed.inj hr
          exact .of_failed (Result.isAbout_iff.2 ⟨rfl, rfl⟩) rfl _
        · exact absurd hr (by simp [Ending.of])
      | unwritable why => exact ⟨by simp [Ending.of], by simp [Ending.of]⟩

end

/-! ### Tasks -/

section

variable {w : Watched} {dry exists_ : Bool}

/-- Whether results and calls account for a resource behind a task, if it has results, and behind earlier ones. -/
abbrev Accounts (x : Started) (rs : List Result) (r : Recorded) (w : Watched) : Prop :=
  ∀ us, r = .ok us → x.IsAccounted (rs ++ us) w.calls

/-- A task that does not define a resource and does not say that there was nothing to do for it. -/
abbrev IsApart (x : Started) (t : Talk Recorded) : Prop :=
  t.Confined (Query.CallsOnly x.Leaves) (Recorded.All x.Skips)

/-- A dialogue that does not define the resource keeps what is accounted for. -/
theorem IsAccounted.safe {α : Type} {t : Talk α} {e : α → Prop} (hw : x.IsAccounted rs w.calls)
    (ht : t.Confined (Query.CallsOnly x.Leaves) e) :
    Talk.Safe (fun _ _ => True) (fun a w => e a ∧ x.IsAccounted rs w.calls) t w :=
  .of_confined ht (fun _ _ hq hw => hw.after hq) (fun _ _ hq _ => hq.mono fun _ _ => trivial) hw

/-- Behind a task for something else, results and calls account for the resource as before. -/
theorem IsApart.safe {t : Talk Recorded} (ht : x.IsApart t) (hw : x.IsAccounted rs w.calls) :
    Talk.Safe (fun _ _ => True) (x.Accounts rs) t w :=
  (hw.safe ht).mono (fun _ _ => id) fun _ _ h us hus => h.2.append (h.1 us hus)

/-- **Among tasks for other things, the task for the resource accounts for it.** -/
theorem safe_gather {before after : List (Talk Recorded)} {t : Talk Recorded}
    (hbefore : ∀ s ∈ before, x.IsApart s) (hafter : ∀ s ∈ after, x.IsApart s)
    (ht : ∀ w, x.IsFresh exists_ w → Talk.Safe (fun _ _ => True) (x.Accounts []) t w) (hw : x.IsFresh exists_ w) :
    Talk.Safe (fun _ _ => True) (x.Accounts []) (gather (before ++ t :: after)) w := by
  rw [gather_append]
  -- the tasks in front keep the resource fresh, and those behind keep its account
  have hfirst : Talk.Safe (fun _ _ => True) (fun r w => Recorded.All x.Skips r ∧ x.IsFresh exists_ w)
      (gather before) w :=
    .of_confined (Confined.gather hbefore) (fun _ _ hq hw => hw.after hq)
      (fun _ _ hq _ => hq.mono fun _ _ => trivial) hw
  refine hfirst.bind fun r w ⟨hr, hw⟩ => ?_
  refine Talk.Safe.bind (Q := x.Accounts []) ?_ fun s w hs => .pure fun us hus => ?_
  · refine (ht w hw).bind fun r w hr => ?_
    cases r with
    | error why =>
      refine (Talk.safe_true _ w).bind fun s w _ => .pure fun us hus => ?_
      obtain ⟨as, bs, has, -⟩ := Recorded.append_eq_ok_iff.1 hus
      exact absurd has (by simp)
    | ok as =>
      refine (IsApart.safe (Confined.gather hafter) (hr as rfl)).bind fun s w hs => .pure fun us hus => ?_
      obtain ⟨as', bs, has, hbs, rfl⟩ := Recorded.append_eq_ok_iff.1 hus
      rw [← Except.ok.inj has]
      exact hs bs hbs
  · obtain ⟨as, bs, has, hbs, rfl⟩ := Recorded.append_eq_ok_iff.1 hus
    have haccounted : x.IsAccounted bs w.calls := hs bs hbs
    show x.IsAccounted (as ++ bs) w.calls
    exact haccounted.mono (fun _ => List.mem_append_right _) fun r' hr' =>
      (List.mem_append.1 hr').symm.imp id (hr as has r')

/-- The task for a network accounts for it. -/
theorem safe_networkTask {n : Network} (hactive : n.active = true) (hw : n.started.IsFresh exists_ w) :
    Talk.Safe (fun _ _ => True) (n.started.Accounts []) (n.task dry exists_) w := by
  have hwork : ∀ w, n.started.IsFresh exists_ w →
      Talk.Leads ((·.1) <$> n.started.sync dry exists_ : Work Result) w fun r w' =>
        n.started.IsAccounted [r] w'.calls := by
    intro w hw
    rw [map_eq_pure_bind]
    exact (leads_sync hactive hw).bind fun _ _ h => .pure h
  refine (safe_supervise id hwork hw).bind ?_
  rintro ending w ⟨hfinished, hstopped⟩
  refine .pure fun us hus => ?_
  cases ending with
  | finished r => exact Except.ok.inj hus ▸ hfinished r rfl
  | failed r => exact Except.ok.inj hus ▸ hstopped r (.inl rfl)
  | cancelled r => exact Except.ok.inj hus ▸ hstopped r (.inr rfl)
  | unwritable why => exact absurd hus (by simp [Ending.recorded])

/-- A result for a volume says nothing of a network or pool. -/
theorem skips_of_kind {r : Result} (h : r.kind ≠ x.kind.resource) : x.Skips r :=
  fun ⟨habout, _⟩ => h (Result.isAbout_iff.1 habout).1

theorem leaves_of_reading {c : Call} (h : c.isReading = true) : x.Leaves c :=
  leaves_of_ne fun k text hc => absurd h (by simp [hc, Call.isReading])

/-- The work on a volume defines nothing. -/
theorem leaves_of_volume {e : VolumeEntry} {pool : String} {c : Call} (h : e.Makes dry pool c) : x.Leaves c :=
  leaves_of_ne fun k text hc => by
    rw [hc] at h
    cases h

/-- The task for a pool accounts for it: what is done to its volumes is apart from it. -/
theorem safe_poolTask {q : Pool} (hactive : q.active = true) (hw : q.started.IsFresh exists_ w) :
    Talk.Safe (fun _ _ => True) (q.started.Accounts []) (q.task dry exists_) w := by
  have hvolume : ∀ r, q.ReportsVolume r → q.started.Skips r := fun r hr =>
    skips_of_kind (by rw [hr.1]; simp [DefinedKind.resource])
  have hlost : ∀ {f : VolumeEntry → Result}, (∀ e ∈ q.volumes, q.ReportsVolume (f e)) →
      ∀ r ∈ q.volumes.map f, q.started.Skips r := fun hf =>
    List.forall_mem_map.2 fun e he => hvolume _ (hf e he)
  refine (safe_supervise Prod.fst (fun _ hw => leads_sync hactive hw) hw).bind ?_
  rintro ending w ⟨hfinished, hstopped⟩
  cases ending with
  | finished a =>
    have hcontents : q.started.IsApart (q.syncContents dry a.2) :=
      (Pool.confined_syncContents (leaves_of_reading rfl) (fun e _ c hc => leaves_of_volume hc) a.2).mono
        (fun _ => id) fun _ hr => hr.mono hvolume
    refine (hcontents.safe (hfinished a rfl)).bind fun r w hr => .pure fun us hus => ?_
    cases r with
    | error why => exact absurd hus (by simp [Except.map])
    | ok rs => exact Except.ok.inj hus ▸ hr rs rfl
  | failed r =>
    exact .pure fun us hus => Except.ok.inj hus ▸ (hstopped r (.inl rfl)).append
      (hlost fun e he => ⟨rfl, e, he, rfl⟩)
  | cancelled r =>
    exact .pure fun us hus => Except.ok.inj hus ▸ (hstopped r (.inr rfl)).append
      (hlost fun e he => ⟨rfl, e, he, rfl⟩)
  | unwritable why => exact .pure fun us hus => absurd hus (by simp)

/-! ### Other tasks -/

/-- A call for another resource does not define this one. -/
theorem leaves_of_about {k : DefinedKind} {name : String} {c : Call} (habout : c.IsAbout k name)
    (hne : (k, name) ≠ (x.kind, x.name)) : x.Leaves c := by
  rintro text rfl hname
  obtain ⟨hkind, hsame⟩ := Prod.mk.inj habout
  exact hne (by rw [← hkind, ← hname, ← Option.some.inj hsame])

/-- The work on a network or pool does not define another one if its document has another name. -/
theorem leaves_of_makes {s : Started} {c : Call} (h : s.Makes dry c)
    (hother : s.kind = x.kind → ∀ text, s.text = .ok text → nameInDocument text ≠ x.name) : x.Leaves c := by
  intro text hc hname
  cases h with
  | look about reads => exact leaves_of_reading reads text hc hname
  | define _ written =>
    obtain ⟨hkind, rfl⟩ := Call.define.inj hc
    exact hother hkind _ written hname
  | stop _ => exact absurd hc (by simp)
  | start _ => exact absurd hc (by simp)
  | autostart _ => exact absurd hc (by simp)

theorem isApart_networkTask {n : Network} (hne : (.network, n.name) ≠ (x.kind, x.name))
    (hother : .network = x.kind → ∀ text, n.started.text = .ok text → nameInDocument text ≠ x.name) (b : Bool) :
    x.IsApart (n.task dry b) := by
  refine (n.confined_makes dry b).mono (fun _ hq => hq.mono fun c hc => leaves_of_makes hc hother)
    fun _ hr => hr.mono fun r hr habout => hne ?_
  obtain ⟨hkind, hname⟩ := Result.isAbout_iff.1 habout.1
  rw [DefinedKind.resource_injective (k := .network) (l := x.kind) (hr.1.symm.trans hkind), ← hname, hr.2]

theorem isApart_poolTask {q : Pool} (hne : (.pool, q.name) ≠ (x.kind, x.name))
    (hother : .pool = x.kind → ∀ text, q.started.text = .ok text → nameInDocument text ≠ x.name) (b : Bool) :
    x.IsApart (q.task dry b) := by
  refine (q.confined_makes dry b).mono (fun _ hq => hq.mono fun c hc => ?_) fun _ hr => hr.mono fun r hr => ?_
  · cases hc with
    | started makes => exact leaves_of_makes makes hother
    | volumes => exact leaves_of_reading rfl
    | volume _ makes => exact leaves_of_volume makes
  · rintro ⟨habout, -⟩
    obtain ⟨hkind, hname⟩ := Result.isAbout_iff.1 habout
    rcases hr with ⟨hpool, hsame⟩ | ⟨hvolume, -⟩
    · refine hne ?_
      rw [DefinedKind.resource_injective (k := .pool) (l := x.kind) (hpool.symm.trans hkind), ← hname, hsame]
    · cases hx : x.kind <;> rw [hx, hvolume] at hkind <;> exact absurd hkind (by simp [DefinedKind.resource])

end

end Started

/-! ### Passes -/

/-- The networks and pools that are declared. -/
def Desired.started (d : Desired) : List Started :=
  d.networks.items.map Network.started ++ d.pools.items.map Pool.started

theorem Desired.kind_of_started {d : Desired} {x : Started} (hx : x ∈ d.started) : x.kind ≠ .domain := by
  rcases List.mem_append.1 hx with hx | hx
  · obtain ⟨n, -, rfl⟩ := List.mem_map.1 hx
    simp
  · obtain ⟨q, -, rfl⟩ := List.mem_map.1 hx
    simp

theorem Desired.name_of_started {d : Desired} {x : Started} (hx : x ∈ d.started) : x.name ∈ d.names x.kind := by
  rcases List.mem_append.1 hx with hx | hx
  · obtain ⟨n, hn, rfl⟩ := List.mem_map.1 hx
    exact List.mem_map_of_mem hn
  · obtain ⟨q, hq, rfl⟩ := List.mem_map.1 hx
    exact List.mem_map_of_mem hq

/-- Whether no document of another resource has the name of this one. -/
def Desired.SetsApart (d : Desired) (x : Started) : Prop :=
  ∀ s ∈ d.started, s.kind = x.kind → s.name ≠ x.name → ∀ text, s.text = .ok text → nameInDocument text ≠ x.name

/-- **Plain documents have the names of their own resources.** -/
theorem Desired.IsPlain.setsApart {d : Desired} (hplain : d.IsPlain) (hvalid : d.Validates) (x : Started) :
    d.SetsApart x := by
  intro s hs _ hne text htext hname
  refine hne (Eq.trans ?_ hname)
  rcases List.mem_append.1 hs with hs | hs
  · obtain ⟨n, hn, rfl⟩ := List.mem_map.1 hs
    exact (Network.nameInDocument_of_started (hplain.network hn) htext).symm
  · obtain ⟨q, hq, rfl⟩ := List.mem_map.1 hs
    exact (Pool.nameInDocument_of_started (hvalid.pool_isSound hplain hq) htext).symm

namespace Started

variable {x : Started} {w : Watched} {dry : Bool}

theorem skips_of_outcome {r : Result} (h : r.outcome ≠ .unchanged) : x.Skips r := fun habout => h habout.2

/-- The failure of a resource that could not be listed does not say that there was nothing to do. -/
theorem skips_stuck (kind : ResourceKind) (name : String) (op : Operation) (reason : String) :
    x.Skips (.stuck kind name op reason) := skips_of_outcome (by simp [Result.stuck, Result.failure])

/-- Behind the listing of its kind a resource is fresh if nothing has been done to it. -/
theorem isFresh_listed {names : List String} (hnames : names = w.host.tables.sortedNames x.kind)
    (hsettled : ¬ x.Pending w.calls) : x.IsFresh (names.contains x.name) w := by
  refine ⟨hsettled, fun habsent => ?_⟩
  by_contra hthere
  have hmem : x.name ∈ names := by
    rw [hnames, Tables.mem_sortedNames_iff, Option.isSome_iff_ne_none]
    exact hthere
  rw [List.contains_iff_mem.2 hmem] at habsent
  exact absurd habsent (by simp)

/-- **Among the tasks of its kind** there is one for the resource, which accounts for it, unless the kind could not
be listed or is left alone. -/
theorem safe_gather_tasks {α : Type} {s : Stock} {kind : DefinedKind} {declared : List α} {name : α → String}
    {lost : α → List Result} {task : α → Bool → Talk Recorded} {a : α} {before after : List (Talk Recorded)}
    (ha : a ∈ declared) (hname : name a = x.name) (hnames : (declared.map name).Nodup)
    (hbefore : ∀ t ∈ before, x.IsApart t) (hafter : ∀ t ∈ after, x.IsApart t)
    (hleft : ∀ results, s = .leftAlone results → ∀ r ∈ results, r.outcome = .skippedUnmanaged)
    (hlost : ∀ b ∈ declared, ∀ r ∈ lost b, x.Skips r)
    (hothers : ∀ b ∈ declared, name b ≠ x.name → ∀ there, x.IsApart (task b there))
    (htask : ∀ there w, x.IsFresh there w → Talk.Safe (fun _ _ => True) (x.Accounts []) (task a there) w)
    (hlisted : ∀ names, s = .known names → names = w.host.tables.sortedNames x.kind)
    (hsettled : ¬ x.Pending w.calls) :
    Talk.Safe (fun _ _ => True) (x.Accounts [])
      (gather (before ++ (s.tasks kind declared name lost task ++ after))) w := by
  have hstuck : ∀ b ∈ declared, ∀ reason, x.Skips (.stuck kind.resource (name b) .list reason) :=
    fun b _ => skips_stuck _ _ _
  have hskipped : ∀ results, s = .leftAlone results → ∀ r ∈ results, x.Skips r := fun results hs r hr =>
    skips_of_outcome (by rw [hleft results hs r hr]; simp)
  -- a kind that is not known has no task for the resource
  have hapart : (∀ t ∈ s.tasks kind declared name lost task, x.IsApart t) → Talk.Safe (fun _ _ => True)
      (x.Accounts []) (gather (before ++ (s.tasks kind declared name lost task ++ after))) w := fun hts =>
    IsApart.safe (Confined.gather (List.forall_mem_append.2 ⟨hbefore, List.forall_mem_append.2 ⟨hts, hafter⟩⟩))
      (.nil hsettled)
  cases s with
  | leftAlone results => exact hapart (Stock.confined_each hskipped (by simp) hstuck hlost)
  | unknown reason => exact hapart (Stock.confined_each hskipped (by simp) hstuck hlost)
  | known names =>
    obtain ⟨xs, ys, rfl⟩ := List.append_of_mem ha
    rw [List.map_append, List.map_cons, List.nodup_middle, List.nodup_cons] at hnames
    have hne : ∀ b ∈ xs ++ ys, name b ≠ x.name := fun b hb he => hnames.1 (by
      rw [hname, ← he, ← List.map_append]
      exact List.mem_map_of_mem hb)
    have htasks : (Stock.known names).tasks kind (xs ++ a :: ys) name lost task =
        xs.map (fun b => task b (names.contains (name b))) ++
          task a (names.contains (name a)) :: ys.map fun b => task b (names.contains (name b)) := by
      simp [Stock.tasks]
    rw [htasks, List.append_assoc, ← List.append_assoc, List.cons_append]
    have hfresh : x.IsFresh (names.contains x.name) w := isFresh_listed (hlisted names rfl) hsettled
    refine safe_gather (List.forall_mem_append.2 ⟨hbefore, ?_⟩) (List.forall_mem_append.2 ⟨?_, hafter⟩)
      (fun w hw => htask _ w hw) (hname ▸ hfresh)
    · exact List.forall_mem_map.2 fun b hb => hothers b (by simp [hb]) (hne b (by simp [hb])) _
    · exact List.forall_mem_map.2 fun b hb => hothers b (by simp [hb]) (hne b (by simp [hb])) _

section

variable {d : Desired} (hapart : d.SetsApart x)

include hapart

theorem isApart_network {n : Network} (hn : n ∈ d.networks.items) (hne : (.network, n.name) ≠ (x.kind, x.name))
    (b : Bool) : x.IsApart (n.task dry b) :=
  isApart_networkTask hne (fun hk => hapart n.started (List.mem_append_left _ (List.mem_map_of_mem hn)) hk
    fun he => hne (Prod.ext hk he)) b

theorem isApart_pool {q : Pool} (hq : q ∈ d.pools.items) (hne : (.pool, q.name) ≠ (x.kind, x.name))
    (b : Bool) : x.IsApart (q.task dry b) :=
  isApart_poolTask hne (fun hk => hapart q.started (List.mem_append_right _ (List.mem_map_of_mem hq)) hk
    fun he => hne (Prod.ext hk he)) b

/-- **The first phase accounts for each network and pool that is declared to run.** -/
theorem safe_networksAndPools (hvalid : d.Validates) (hx : x ∈ d.started) (hactive : x.active = true) (m : Memory) :
    Talk.Safe (fun _ _ => True) (fun a w => x.Accounts [] a.1 w ∧
        (∀ name ∈ a.2.1, name ∉ d.names .network) ∧ ∀ name ∈ a.2.2, name ∉ d.names .pool)
      (d.networksAndPools dry) { host := m } := by
  refine (Stock.safe_take trivial).bind ?_
  rintro networks _ ⟨rfl, hnetworks, hnetworksLeft⟩
  refine (Stock.safe_take trivial).bind ?_
  rintro pools _ ⟨rfl, hpools, hpoolsLeft⟩
  refine Talk.Safe.bind (Q := x.Accounts []) ?_ fun r w hr => .pure ⟨hr, fun _ => Stock.not_mem_of_stale,
    fun _ => Stock.not_mem_of_stale⟩
  -- nothing has been done but listing
  have hfirst : ((Watched.mk m [] 0).after (.call (.list .network))).host.tables = m.tables :=
    Watched.tables_after_of_isStill rfl _
  have hboth : (((Watched.mk m [] 0).after (.call (.list .network))).after
      (.call (.list .pool))).host.tables = m.tables := by
    rw [Watched.tables_after_of_isStill rfl, hfirst]
  have hsettled : ¬ x.Pending ([] ++ [(m, .list .network)] ++
      [(((Watched.mk m [] 0).after (.call (.list .network))).host, .list .pool)]) := fun h =>
    not_pending_nil ((h.of_snoc_leaves (leaves_of_reading rfl)).of_snoc_leaves (leaves_of_reading rfl))
  have hlost : ∀ q ∈ d.pools.items, ∀ r ∈ q.volumesLost, x.Skips r := fun q _ =>
    List.forall_mem_map.2 fun e he => skips_of_outcome (by simp [Result.stuck, Result.failure])
  rcases List.mem_append.1 hx with hx | hx
  · obtain ⟨n, hn, rfl⟩ := List.mem_map.1 hx
    rw [← List.nil_append (networks.tasks .network d.networks.items _ _ _ ++ _)]
    refine safe_gather_tasks hn rfl hvalid.networks (by simp) ?_ hnetworksLeft (by simp)
      (fun n' hn' hne => isApart_network hapart hn' fun he => hne (Prod.mk.inj he).2)
      (fun _ w hw => safe_networkTask hactive hw) (fun names hs => ?_) hsettled
    · exact Stock.confined_each (fun results hs r hr => skips_of_outcome (by rw [hpoolsLeft results hs r hr]; simp))
        (fun _ _ q hq => isApart_pool hapart hq (by simp)) (fun q _ => skips_stuck _ _ _) hlost
    · rw [hboth]
      exact (hnetworks names hs).2
  · obtain ⟨q, hq, rfl⟩ := List.mem_map.1 hx
    rw [← List.append_nil (pools.tasks .pool d.pools.items _ _ _)]
    refine safe_gather_tasks hq rfl hvalid.pools ?_ (by simp) hpoolsLeft hlost
      (fun q' hq' hne => isApart_pool hapart hq' fun he => hne (Prod.mk.inj he).2)
      (fun _ w hw => safe_poolTask hactive hw) (fun names hs => ?_) hsettled
    · exact Stock.confined_each (fun results hs r hr => skips_of_outcome (by rw [hnetworksLeft results hs r hr]; simp))
        (fun _ _ n hn => isApart_network hapart hn (by simp)) (fun n _ => skips_stuck _ _ _) (by simp)
    · rw [hboth, ← hfirst]
      exact (hpools names hs).2

omit hapart

/-- Bringing domains in line is apart from networks and pools. -/
theorem isApart_domainsInLine (hk : x.kind ≠ .domain) (timeout : Binary64) (before : List Result) :
    (d.domainsInLine dry timeout before).Confined (Query.CallsOnly x.Leaves) fun a => a.1.All x.Skips := by
  have hkind : ∀ {r : Result}, r.kind = .domain → x.Skips r := fun hr => skips_of_kind fun he =>
    hk (DefinedKind.resource_injective (k := x.kind) (l := .domain) (he.symm.trans hr))
  refine ((Stock.confined_take .domain _).mono (fun _ hq => hq.mono fun c hc => leaves_of_reading (by rw [hc]; rfl))
    fun _ => id).bind fun domains hdomains => ?_
  refine (Confined.gather (Stock.confined_each (fun results hs r hr => skips_of_outcome ?_) (fun _ _ y _ b => ?_)
    (fun _ _ => skips_stuck _ _ _) (by simp))).bind fun results hresults => Confined.pure hresults
  · rw [hdomains results hs r hr]
    simp
  · refine (y.confined_makes dry timeout before b).mono (fun _ hq => hq.mono fun c hc => ?_)
      fun _ hr => hr.mono fun r hr => hkind hr.1
    cases hc with
    | look _ reads => exact leaves_of_reading reads
    | define document => exact fun text he => absurd (Call.define.inj he).1.symm hk
    | start => exact leaves_of_ne (by simp)
    | stop _ _ => exact leaves_of_ne (by simp)

/-- So is removing domains. -/
theorem isApart_removals (hk : x.kind ≠ .domain) (names : List String) :
    x.IsApart (gather (names.map (Domain.removal dry))) := by
  refine Confined.gather (List.forall_mem_map.2 fun name _ => ?_)
  refine (Domain.confined_removal dry name).mono (fun _ hq => hq.mono fun c hc => ?_) fun _ hr => hr.mono fun r hr => ?_
  · exact leaves_of_about hc.about fun he => hk (Prod.mk.inj he).1.symm
  · exact skips_of_kind fun he => hk (DefinedKind.resource_injective (k := x.kind) (l := .domain)
      (he.symm.trans hr.1))

/-- Removing other networks and pools is apart from this one. -/
theorem isApart_removeRest {stale : List (DefinedKind × String)} (hstale : ∀ s ∈ stale, s ≠ (x.kind, x.name))
    (before : List Result) : x.IsApart (Removal.run dry before stale) := by
  refine (Removal.confined_run dry before stale).mono (fun _ hq => hq.mono fun c hc => ?_)
    fun _ hr => hr.mono fun r hr => ?_
  · rcases hc with hlooks | ⟨s, hs, hproper⟩
    · exact leaves_of_reading hlooks.2
    · exact leaves_of_about hproper.about (hstale s hs)
  · obtain ⟨s, hs, hkind, hname⟩ := hr
    rintro ⟨habout, -⟩
    obtain ⟨hxkind, hxname⟩ := Result.isAbout_iff.1 habout
    exact hstale s hs (Prod.ext (DefinedKind.resource_injective (hkind.symm.trans hxkind))
      (hname.symm.trans hxname))

include hapart

/-- **A pass accounts for each network and pool that is declared to run.** -/
theorem safe_phases (hvalid : d.Validates) (hx : x ∈ d.started) (hactive : x.active = true) (timeout : Binary64)
    (m : Memory) : Talk.Safe (fun _ _ => True) (x.Accounts []) (d.phases dry timeout) { host := m } := by
  have hk := Desired.kind_of_started hx
  have hname := Desired.name_of_started hx
  have hnone : ∀ {why : Unwritable} {w : Watched}, x.Accounts [] (.error why) w := fun _ hus => absurd hus (by simp)
  unfold Desired.phases
  refine (safe_networksAndPools hapart hvalid hx hactive m).bind ?_
  rintro ⟨first, networks, pools⟩ w ⟨hfirst, hnetworks, hpools⟩
  cases first with
  | error why => exact .pure hnone
  | ok first =>
    -- what is removed is not declared, so the account of the resource is not touched behind the first phase
    have hstale : ∀ s ∈ networks.map (DefinedKind.network, ·) ++ pools.map (DefinedKind.pool, ·),
        s ≠ (x.kind, x.name) := by
      rintro s hs rfl
      rcases List.mem_append.1 hs with hs | hs
      · obtain ⟨name, hmem, he⟩ := List.mem_map.1 hs
        obtain ⟨hkind, rfl⟩ := Prod.mk.inj he
        exact hnetworks _ hmem (hkind ▸ hname)
      · obtain ⟨name, hmem, he⟩ := List.mem_map.1 hs
        obtain ⟨hkind, rfl⟩ := Prod.mk.inj he
        exact hpools _ hmem (hkind ▸ hname)
    have hw : x.IsAccounted first w.calls := hfirst first rfl
    refine (hw.safe (isApart_domainsInLine hk timeout first)).bind ?_
    rintro ⟨second, domains⟩ w ⟨hsecond, hw⟩
    cases second with
    | error why => exact .pure hnone
    | ok second =>
      refine ((isApart_removals hk domains).safe (hw.append (hsecond second rfl))).bind fun third w hthird => ?_
      cases third with
      | error why => exact .pure hnone
      | ok third =>
        refine ((isApart_removeRest hstale _).safe (hthird third rfl)).bind fun last w hlast => .pure fun us hus => ?_
        cases last with
        | error why => exact absurd hus (by simp [Except.map])
        | ok last => exact Except.ok.inj hus ▸ hlast last rfl

/-- So the report of a pass accounts for it, whatever fails and whenever the pass is cancelled. -/
theorem isAccounted_report {s : Settings} {dryRun : Option Bool} {m : Memory} {cancels : Nat → Bool} {report : Report}
    (hvalid : d.Validates) (hx : x ∈ d.started) (hactive : x.active = true)
    (hreport : (m.watch cancels (s.apply d dryRun)).1 = .ok report) :
    x.IsAccounted report.results (m.watch cancels (s.apply d dryRun)).2.calls := by
  have hsafe := Settings.safe_report dryRun fun _ => safe_phases hapart hvalid hx hactive s.pass.shutdownTimeout m
  obtain ⟨rs, rfl, hrs⟩ := (hsafe.watch cancels).2 report hreport
  have haccounted : x.IsAccounted rs (m.watch cancels (s.apply d dryRun)).2.calls := hrs
  exact haccounted.mono (fun r hr => Report.mem_of.2 hr) fun r hr => .inl (Report.mem_of.1 hr)

end

end Started

/-! ### Passes one after the other -/

/-- What disturbs a pass: calls that fail, and cancellations. -/
structure Disturbance where
  disruptions : List (Disruption HostErrorKind) := []
  cancels : Nat → Bool := fun _ => false

namespace Settings

/-- A disturbed pass over a watched host. -/
def watch (s : Settings) (d : Desired) (dryRun : Option Bool) (m : Memory) (x : Disturbance) :
    Except PassError Report × Watched :=
  (m.disrupted x.disruptions).watch x.cancels (s.apply d dryRun)

/-- The calls of disturbed passes, one after the other, and the host behind them. -/
def watchAll (s : Settings) (d : Desired) (dryRun : Option Bool) (m : Memory) :
    List Disturbance → List (Memory × Call) × Memory
  | [] => ([], m)
  | x :: xs =>
      let w := (s.watch d dryRun m x).2
      let rest := s.watchAll d dryRun w.host xs
      (w.calls ++ rest.1, rest.2)

variable {s : Settings} {d : Desired} {dryRun : Option Bool}

theorem linked_watch (m : Memory) (x : Disturbance) :
    Linked m.tables (s.watch d dryRun m x).2.calls (s.watch d dryRun m x).2.host.tables :=
  (m.disrupted x.disruptions).linked_watch x.cancels (s.apply d dryRun)

theorem linked_watchAll (m : Memory) (xs : List Disturbance) :
    Linked m.tables (s.watchAll d dryRun m xs).1 (s.watchAll d dryRun m xs).2.tables := by
  induction xs generalizing m with
  | nil => exact .nil m.tables
  | cons x xs ih => exact (linked_watch m x).append (ih _)

/-- **A running network or pool picks up its new definition, or the pass that stored it reports a failure.** Let
passes go over a host, each disturbed in its own way; let the first one redefine a network or pool that is running
and is declared to run, and let the last one report that there was nothing to do for it. Then the resource was
stopped and started again in between, or else the first pass did not get to stop it and reports it failed. -/
theorem restarted_of_unchanged {x : Started} {m n : Memory} {first last : Disturbance} {others : List Disturbance}
    {result : Except PassError Report} {report : Report} {w w' : Watched}
    {before after later : List (Memory × Call)} {y : Memory × Call}
    (hvalid : d.Validates) (hx : x ∈ d.started) (hactive : x.active = true) (hapart : d.SetsApart x)
    (hfirst : s.watch d dryRun m first = (result, w)) (hcalls : w.calls = before ++ y :: after)
    (hredefines : x.Redefines y) (hothers : s.watchAll d dryRun w.host others = (later, n))
    (hlast : s.watch d dryRun n last = (.ok report, w'))
    (hunchanged : ∃ r ∈ report.about x.kind.resource x.name, r.outcome = .unchanged) :
    [.stop x.kind x.name false, .start x.kind x.name].Sublist (served (after ++ (later ++ w'.calls))) ∨
      .stop x.kind x.name false ∉ served after ∧ ∀ report, result = .ok report →
        ∃ r ∈ report.about x.kind.resource x.name, r.outcome = .failed := by
  have haccounted : ∀ {m : Memory} {z : Disturbance} {report : Report} {w : Watched},
      s.watch d dryRun m z = (.ok report, w) → x.IsAccounted report.results w.calls := fun h => by
    have hreport := x.isAccounted_report hapart hvalid hx hactive (congrArg Prod.fst h)
    rwa [show (Memory.watch _ _ _).2 = _ from congrArg Prod.snd h] at hreport
  by_cases hstop : .stop x.kind x.name false ∈ served after
  · left
    obtain ⟨r, hr, houtcome⟩ := hunchanged
    obtain ⟨hmem, habout⟩ := List.mem_filter.1 hr
    obtain ⟨z, hz, hruns⟩ := (haccounted hlast).seen ⟨r, hmem, not_not.2 ⟨habout, houtcome⟩⟩
    -- the calls behind the definition are linked
    have hwhole : Linked m.tables (s.watch d dryRun m first).2.calls _ := linked_watch m first
    rw [hfirst, hcalls] at hwhole
    obtain ⟨t, -, hafter⟩ := hwhole.exists_of_append
    cases hafter with
    | cons hafter =>
      have hlater : Linked w.host.tables (s.watchAll d dryRun w.host others).1 _ := linked_watchAll w.host others
      have hend : Linked n.tables (s.watch d dryRun n last).2.calls _ := linked_watch n last
      rw [hothers] at hlater
      rw [hlast] at hend
      exact (hafter.append (hlater.append hend)).restart_sublist (Desired.kind_of_started hx) hstop
        (List.mem_append_right _ hz) hruns
  · refine .inr ⟨hstop, fun report hreport => ?_⟩
    obtain ⟨r, hr, habout, hfailed⟩ := (haccounted (hreport ▸ hfirst)).told
      ⟨before, y, after, hcalls, hredefines, hstop⟩
    exact ⟨r, List.mem_filter.2 ⟨hr, habout⟩, hfailed⟩

end Settings

/-! ### A restart that never comes -/

/-- A pool that is to run. -/
def Pool.scratch : Pool :=
  { name := "scratch", identifier := none, kind := "dir", target := "/a", volumes := [], active := true
    autostart := false }

/-- A desired state with this pool. -/
def Desired.withScratch : Desired :=
  { networks := .unmanaged [], pools := .managed [.scratch], domains := .unmanaged [] }

theorem Desired.validates_withScratch : Desired.withScratch.Validates :=
  ⟨by simp [withScratch, Declared.items, Pool.scratch], Audit.audit_eq_nil_iff.2 (by
    simp [withScratch, Declared.items, Pool.scratch, Audit.checkBridges_nil, Audit.checkPool, Audit.claims,
      Audit.checkClaims, Audit.repeatedTexts_eq_nil_iff])⟩

/-- A host on which the pool runs with another document. -/
def Memory.withScratchOn : Memory :=
  { tables := { pools := [("scratch", { document := "<pool/>", active := true })] } }

namespace Settings

/-- A pass that cannot stop the pool. -/
def stuckPass : Except PassError Report × Watched :=
  ({} : Settings).watch .withScratch none .withScratchOn
    { disruptions := [{ word := "stop_pool", error := .operation }] }

/-- The pass behind it, which nothing disturbs. -/
def quietPass : Except PassError Report × Watched := ({} : Settings).watch .withScratch none stuckPass.2.host {}

/-- The first pass redefines the pool, and the second one finds nothing to do. No pass stops it. -/
theorem stuckPass_quietPass :
    (∃ y ∈ stuckPass.2.calls, Pool.scratch.started.Redefines y) ∧
      .stop .pool "scratch" false ∉ served stuckPass.2.calls ∧
      .stop .pool "scratch" false ∉ served quietPass.2.calls ∧
      ∃ report ∈ quietPass.1.toOption, ∃ r ∈ report.about .pool "scratch", r.outcome = .unchanged := by
  decide +kernel

/-- So behind the redefinition the pool is never stopped. -/
theorem exists_redefinition :
    ∃ before y after report, stuckPass.2.calls = before ++ y :: after ∧ Pool.scratch.started.Redefines y ∧
      quietPass.1 = .ok report ∧ (∃ r ∈ report.about .pool "scratch", r.outcome = .unchanged) ∧
      .stop .pool "scratch" false ∉ served (after ++ quietPass.2.calls) := by
  obtain ⟨⟨y, hy, hredefines⟩, hfirst, hlast, report, hreport, hunchanged⟩ := stuckPass_quietPass
  obtain ⟨before, after, hcalls⟩ := List.append_of_mem hy
  refine ⟨before, y, after, report, hcalls, hredefines, Except.eq_ok_of_mem_toOption hreport, hunchanged, ?_⟩
  rw [served_append, List.mem_append, not_or]
  refine ⟨fun hstop => hfirst ?_, hlast⟩
  obtain ⟨m, hmem, hserves⟩ := mem_served_iff.1 hstop
  exact mem_served_iff.2 ⟨m, hcalls ▸ List.mem_append_right _ (List.mem_cons_of_mem _ hmem), hserves⟩

theorem scratch_mem_started : Pool.scratch.started ∈ Desired.withScratch.started := by
  simp [Desired.started, Desired.withScratch, Declared.items]

/-- The pass that does not get to stop the pool reports it failed, and the one behind it finds nothing to do. -/
theorem restarted_of_unchanged_withScratch :
    ∃ before y after report, stuckPass.2.calls = before ++ y :: after ∧ Pool.scratch.started.Redefines y ∧
      quietPass.1 = .ok report ∧ (∃ r ∈ report.about .pool "scratch", r.outcome = .unchanged) ∧
      .stop .pool "scratch" false ∉ served after ∧ ∀ report, stuckPass.1 = .ok report →
        ∃ r ∈ report.about .pool "scratch", r.outcome = .failed := by
  obtain ⟨before, y, after, report, hcalls, hredefines, hreport, hunchanged, hnone⟩ := exists_redefinition
  have hplain : Desired.withScratch.IsPlain := by decide
  have hbetween : ({} : Settings).watchAll .withScratch none stuckPass.2.host [] = ([], stuckPass.2.host) := rfl
  have hquiet : ({} : Settings).watch .withScratch none stuckPass.2.host {} = (.ok report, quietPass.2) :=
    Prod.ext hreport rfl
  have hrestarted := restarted_of_unchanged Desired.validates_withScratch scratch_mem_started rfl
    (hplain.setsApart Desired.validates_withScratch _) (Prod.eta stuckPass).symm hcalls hredefines hbetween hquiet
    hunchanged
  exact ⟨before, y, after, report, hcalls, hredefines, hreport, hunchanged,
    hrestarted.resolve_left fun hsub => hnone (hsub.subset List.mem_cons_self)⟩

/-- **A redefinition of a running pool is lost** if the pool cannot be stopped once: the document is stored, so the
next pass finds no difference, and reports that there was nothing to do for a pool that still runs with the old
one. -/
theorem not_restarted_withScratch :
    Desired.withScratch.Validates ∧ Pool.scratch.started ∈ Desired.withScratch.started ∧
      Pool.scratch.started.active = true ∧
      ∃ before y after report, stuckPass.2.calls = before ++ y :: after ∧ Pool.scratch.started.Redefines y ∧
        quietPass.1 = .ok report ∧ (∃ r ∈ report.about .pool "scratch", r.outcome = .unchanged) ∧
        ¬ [Call.stop .pool "scratch" false, .start .pool "scratch"].Sublist
          (served (after ++ quietPass.2.calls)) := by
  obtain ⟨before, y, after, report, hcalls, hredefines, hreport, hunchanged, hnone⟩ := exists_redefinition
  exact ⟨Desired.validates_withScratch, scratch_mem_started, rfl, before, y, after, report, hcalls, hredefines,
    hreport, hunchanged, fun hsub => hnone (hsub.subset List.mem_cons_self)⟩

end Settings

end VirtualTopology
