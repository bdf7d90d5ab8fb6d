import VirtualTopology.Proofs.Host.Enduring
import VirtualTopology.Proofs.Pass.Domains

/-!
# Where work on a resource leads

The goal of the work on a resource is what a real run that nothing disturbs leaves of it, apart from how long a guest
that is shutting down will still be seen on (`Started.goal`, `Domain.goal`). Wherever a failure stops the work, the
goal is what it was before (`Started.endures_sync`, `Domain.endures_sync`). So a later run gets to where the first one
was going.

For a guest that was asked to shut down before, the goal can depend on how often it is looked at. `Domain.IsSteady`
says that it does not. What a goal does not depend on is told by a projection that is there already: of an entry, what
it is once it has been started (`StoredResource.started`).
-/

namespace VirtualTopology

namespace StoredResource

/-- What is kept of a resource for good, apart from how long it will still be seen on. -/
def standing (r : StoredResource) : StoredResource := { r with closing := none }

/-- Whether two resources are the same, with the same volumes, apart from how long they will still be seen on. -/
def Resembles (r r' : StoredResource) : Prop := r.standing.AgreeBut [] r'.standing

theorem Resembles.refl (r : StoredResource) : r.Resembles r := AgreeBut.refl [] r.standing

theorem Resembles.document {r r' : StoredResource} (h : r.Resembles r') : r'.document = r.document := by
  rw [show r'.document = r'.standing.document from rfl, h.rest]
  rfl

variable (r : StoredResource) {text : String}

theorem documented_started : r.started.documented text = (r.documented text).started := by
  rw [documented, documented, apply_ite started]
  rfl

theorem documented_seen : r.seen.documented text = (r.documented text).seen := by
  have hseen : ({ r.seen with document := text } : StoredResource) =
      ({ r with document := text } : StoredResource).seen := by
    obtain ⟨document, active, autostart, volumes, closing, persistent, liveDocument⟩ := r
    match closing with
    | none => rfl
    | some 0 => rfl
    | some (n + 1) => rfl
  rw [documented, documented, document_seen, apply_ite seen, hseen]

theorem documented_autostart (autostart : Bool) :
    ({ r with autostart } : StoredResource).documented text = { r.documented text with autostart } := by
  unfold documented
  show (if _ then _ else _) = _
  split <;> rfl

theorem documented_volumes (volumes : Table StoredVolume) :
    ({ r with volumes } : StoredResource).documented text = { r.documented text with volumes } := by
  unfold documented
  show (if _ then _ else _) = _
  split <;> rfl

/-- A document is stored once. -/
theorem documented_documented (hself : documentsMatch text text = true) :
    (r.documented text).documented text = r.documented text := by
  rw [documented, documentsMatch_documented r hself]
  rfl

theorem documented_new (hself : documentsMatch text text = true) :
    ({ document := text } : StoredResource).documented text = { document := text } := by
  rw [documented]
  simp only [hself]
  rfl

theorem active_asked (polls : Int) : (r.asked polls).active = (r.active && polls != 0) := by
  unfold asked
  split
  · next hnever => simp [show polls ≠ 0 by omega]
  · split
    · next hprompt => simp [hprompt, stopped]
    · next hlater => simp [hlater]

/-- A resource that has just been asked to shut down is seen on unless it is off. -/
theorem active_seen_asked (polls : Int) (h : r.seen.active = true) :
    (r.asked polls).seen.active = (r.asked polls).active := by
  unfold asked
  split
  · rw [h]
    rw [active_seen, Bool.and_eq_true] at h
    exact h.1.symm
  · split
    · rfl
    · next hnever hprompt =>
      rw [active_seen]
      simp
      omega

end StoredResource

open Talk Work

/-! ### Networks and pools -/

namespace Started

variable (s : Started) (text : String)

/-- Where the work on a network or a pool leads. -/
def goal (old : Option StoredResource) : StoredResource := (s.settled text old).standing

variable {s} {text} (r : StoredResource)

theorem goal_some : s.goal text (some r) =
    { r.started.documented text with active := s.active, autostart := s.autostart } := by
  have hcarried : ∀ (p : StartedPlan) (x : StoredResource), (s.carried p x).standing =
      { x.started with active := (s.carried p x).active, autostart := (s.carried p x).autostart } := by
    intro p x
    unfold carried
    cases p.stop <;> cases p.start <;> cases p.autostart <;> rfl
  show (s.brought text r).standing = _
  rw [brought, hcarried, StoredResource.started_seen, r.documented_started,
    show (s.carried (s.planFor text r) (r.documented text).seen).active = s.active from active_brought s text r,
    show (s.carried (s.planFor text r) (r.documented text).seen).autostart = s.autostart from
      autostart_brought s text r]

theorem goal_none (hself : documentsMatch text text = true) :
    s.goal text none = s.goal text (some { document := text }) := by
  rw [goal_some, StoredResource.documented_started, StoredResource.documented_new hself]
  show (s.made text).standing = _
  unfold made carried planForNew plan
  cases s.active <;> cases s.autostart <;> rfl

@[simp] theorem goal_seen : s.goal text (some r.seen) = s.goal text (some r) := by
  rw [goal_some, goal_some, StoredResource.started_seen]

@[simp] theorem goal_stopped : s.goal text (some r.stopped) = s.goal text (some r) := by
  rw [goal_some, goal_some, StoredResource.started_stopped]

@[simp] theorem goal_started : s.goal text (some r.started) = s.goal text (some r) := by
  rw [goal_some, goal_some]
  rfl

@[simp] theorem goal_autostart (autostart : Bool) :
    s.goal text (some { r with autostart }) = s.goal text (some r) := by
  have hstarted : ({ r with autostart } : StoredResource).started = { r.started with autostart } := rfl
  rw [goal_some, goal_some, hstarted, StoredResource.documented_autostart]

theorem goal_volumes (volumes : Table StoredVolume) :
    s.goal text (some { r with volumes }) = { s.goal text (some r) with volumes } := by
  rw [goal_some, goal_some, show ({ r with volumes } : StoredResource).started = { r.started with volumes } from rfl,
    StoredResource.documented_volumes]

theorem goal_documented (hself : documentsMatch text text = true) :
    s.goal text (some (r.documented text)) = s.goal text (some r) := by
  rw [goal_some, goal_some, ← r.documented_started, r.started.documented_documented hself]

variable {r} {struck : Prop} {polls : Table Int}

/-- What the work on a resource leaves behind: where it leads is as before, and either it comes to its end or it is
struck. -/
structure Persists (s : Started) (text : String) (struck : Prop) (old : Option StoredResource)
    (a : Except Trouble (Result × Bool)) (new : Option StoredResource) : Prop where
  goal : s.goal text new = s.goal text old
  done : a = .ok (s.reported text old, s.active) ∧ new = some (s.settled text old) ∨ struck ∧ Trouble.IsFailure a

/-- The steps behind the looks. -/
theorem leaves_carried (text : String) (hk : s.kind ≠ .domain) (p : StartedPlan) {α : Type} (a : α) :
    Work.Leaves struck polls s.kind s.name r
      (do
        if p.stop then Work.change false .stop (.stop s.kind s.name false)
        if p.start then Work.change false .start (.start s.kind s.name)
        if p.autostart then Work.change false .autostart (.setAutostart s.kind s.name s.autostart)
        return a)
      fun b r' => s.goal text (some r') = s.goal text (some r) ∧
        (b = .ok a ∧ r' = s.carried p r ∨ struck ∧ Trouble.IsFailure b) := by
  have hgoal : ∀ (b : Bool) {x y : StoredResource}, s.goal text (some x) = s.goal text (some y) →
      s.goal text (some (if b then x else y)) = s.goal text (some y) := by
    intro b x y h
    cases b
    · rfl
    · exact h
  have hstop := hgoal p.stop (goal_stopped r)
  have hstart := (hgoal p.start (goal_started (if p.stop then r.stopped else r))).trans hstop
  refine Steps.bindIf (admits_stop hk false).steps_change (fun hs b hb => ⟨rfl, .inr ⟨hs, hb⟩⟩) ?_
  refine Steps.bindIf admits_start.steps_change (fun hs b hb => ⟨hstop, .inr ⟨hs, hb⟩⟩) ?_
  refine Steps.bindIf (admits_setAutostart s.autostart).steps_change (fun hs b hb => ⟨hstart, .inr ⟨hs, hb⟩⟩) ?_
  exact Work.Leaves.pure ⟨(hgoal p.autostart (goal_autostart _ s.autostart)).trans hstart, .inl ⟨rfl, rfl⟩⟩

/-- **Wherever the work on a resource that is there stops, it leads to where it led before.** -/
theorem leaves_sync (hk : s.kind ≠ .domain) (htext : s.text = .ok text) (hname : nameInDocument text = s.name)
    (hself : documentsMatch text text = true) :
    Work.Leaves struck polls s.kind s.name r (s.sync false true)
      fun a r' => s.Persists text struck (some r) a (some r') := by
  have hdocumented := goal_documented (s := s) r hself
  rw [sync, htext]
  refine Steps.bind (Steps.pure _) (fun hs a ha => ⟨rfl, .inr ⟨hs, ha⟩⟩) ?_
  refine Steps.bind admits_read.steps (fun hs a ha => ⟨rfl, .inr ⟨hs, ha⟩⟩) ?_
  refine Steps.bind (Steps.pure _) (fun hs a ha => ⟨rfl, .inr ⟨hs, ha⟩⟩) ?_
  refine Steps.bindIf (admits_define hname).steps_change (fun hs a ha => ⟨rfl, .inr ⟨hs, ha⟩⟩) ?_
  have hentry : (if (!documentsMatch text r.document) = true then { r with document := text } else r)
      = r.documented text := rfl
  rw [hentry]
  refine Steps.bind admits_isActive.steps (fun hs a ha => ⟨hdocumented, .inr ⟨hs, ha⟩⟩) ?_
  refine Steps.bind admits_isAutostart.steps (fun hs a ha => ⟨(goal_seen _).trans hdocumented, .inr ⟨hs, ha⟩⟩) ?_
  rw [r.active_seen_documented, StoredResource.autostart_seen, r.autostart_documented]
  refine (leaves_carried text hk (s.planFor text r) _).mono ?_
  rintro a r' ⟨hgoal, hdone⟩
  constructor
  · rw [hgoal, goal_seen, hdocumented]
  · refine hdone.imp_left ?_
    rintro ⟨ha, hr'⟩
    refine ⟨?_, congrArg some hr'⟩
    rw [ha]
    simp only [Bool.not_false, Bool.or_true, Bool.and_true]
    rfl

/-- **Wherever the work on a resource stops, it leads to where it led before**, whether it was there or not. -/
theorem endures_sync (hk : s.kind ≠ .domain) (htext : s.text = .ok text) (hname : nameInDocument text = s.name)
    (hself : documentsMatch text text = true) (t : Tables) :
    Endures struck polls (fun a u => s.Persists text struck (t.get? s.kind s.name) a (u.get? s.kind s.name))
      (s.sync false (t.get? s.kind s.name).isSome).run t := by
  cases ht : t.get? s.kind s.name with
  | some r =>
    refine (leaves_sync hk htext hname hself t ht).mono ?_
    rintro a _ ⟨r', rfl, hpersists⟩
    rw [Tables.get?_put_self]
    exact hpersists
  | none =>
    -- the resource is defined, and what is left to do is what is planned for a new one
    have hdefine : t.serve polls (.define s.kind text) = .ok ((), t.put s.kind s.name { document := text }) := by
      rw [Tables.serve, hname, Tables.define, ht]
      rfl
    show Endures struck polls _ (s.sync false false).run t
    rw [sync, htext]
    refine Endures.andNext (Q := fun b u => b = text ∧ u = t) (.pure ⟨text, rfl, rfl, rfl⟩) ?_
    intro b u hb
    rw [hb.1, hb.2]
    refine Endures.andNext (Q := fun b u => b = true ∧ u = t) (.pure ⟨true, rfl, rfl, rfl⟩) ?_
    intro b u hb
    rw [hb.1, hb.2]
    refine Endures.change hdefine (fun hs a ha => ?_) ?_
    · rw [ht]
      exact ⟨rfl, .inr ⟨hs, ha⟩⟩
    · refine Endures.andNext (Q := fun b u => b = false ∧ u = _) (.pure ⟨false, rfl, rfl, rfl⟩) ?_
      intro b u hb
      rw [hb.1, hb.2]
      refine Endures.andNext (Q := fun b u => b = false ∧ u = _) (.pure ⟨false, rfl, rfl, rfl⟩) ?_
      intro b u hb
      rw [hb.1, hb.2]
      refine (leaves_carried text hk s.planForNew _ _ Tables.get?_put_self).mono ?_
      rintro a _ ⟨r, rfl, hgoal, hdone⟩
      rw [Tables.get?_put_self]
      refine ⟨hgoal.trans (goal_none hself).symm, hdone.imp_left ?_⟩
      rintro ⟨ha, hr⟩
      refine ⟨?_, congrArg some hr⟩
      rw [ha]
      simp only [Bool.not_false, Bool.or_true, Bool.and_true]
      rfl

end Started

/-! ### Domains -/

namespace Domain

/-- Whether it makes no difference to a domain how often it is looked at. One that is declared off is looked at in
each run, and one whose power is not declared if its document is stored. -/
def IsSteady (d : Domain) (r : StoredResource) : Prop :=
  match d.active with
  | some true => True
  | some false => r.seen.seen.active = r.seen.active
  | none => r.seen.active = r.active

variable (d : Domain) (text : String) (n : Int)

/-- Where the work on a domain leads. -/
def goal (old : Option StoredResource) : StoredResource := (d.settled text n old).standing

/-- Whether a domain that is there is on in the end. -/
def endsOn (r : StoredResource) : Bool :=
  match d.active with
  | some true => true
  | some false => r.seen.active && n != 0
  | none => if documentsMatch text r.document then r.active else r.seen.active

variable {d} (r : StoredResource)

theorem wantsRestart_eq_false (hactive : d.active ≠ some true) (hrestart : d.restart ≠ some true) (outcome : Outcome) :
    d.wantsRestart outcome = false := by
  unfold wantsRestart
  cases hr : d.restart with
  | none => simp [hactive]
  | some b =>
    cases b with
    | true => exact absurd hr hrestart
    | false => rfl

theorem started_powered (outcome : Outcome) (running : Bool) :
    (d.powered n outcome running r).started = r.started := by
  unfold powered
  split
  · rfl
  · split
    · exact r.started_asked n
    · split <;> rfl

theorem powered_of_off (hoff : d.active = some false) (hrestart : d.restart ≠ some true) (outcome : Outcome)
    (running : Bool) : d.powered n outcome running r = if running then r.asked n else r := by
  have hwants := wantsRestart_eq_false (d := d) (by simp [hoff]) hrestart outcome
  unfold powered
  cases running <;> simp [hoff, hwants]

theorem powered_of_unset (hunset : d.active = none) (hrestart : d.restart ≠ some true) (outcome : Outcome)
    (running : Bool) : d.powered n outcome running r = r := by
  have hwants := wantsRestart_eq_false (d := d) (by simp [hunset]) hrestart outcome
  unfold powered
  simp [hunset, hwants]

theorem active_settled_some (hrestart : d.restart ≠ some true) :
    (d.settled text n (some r)).active = d.endsOn text n r := by
  unfold endsOn
  split
  · next hon => exact active_settled_of_on text n (some r) hon
  · next hoff =>
    have hlooks : d.looks (stores text r) = true := by simp [looks, hoff]
    rw [settled, powered_of_off n _ hoff hrestart, runs, hlooks, stored, if_pos hlooks, Bool.true_and]
    cases hseen : r.seen.active with
    | false => simp [r.active_seen_documented, hseen]
    | true => simp [StoredResource.active_asked, r.active_seen_documented, hseen]
  · next hunset =>
    rw [settled, powered_of_unset n _ hunset hrestart, stored]
    cases hmatch : documentsMatch text r.document with
    | true =>
      have hlooks : d.looks (stores text r) = false := by simp [looks, stores, hunset, hrestart, hmatch]
      rw [hlooks]
      exact r.active_documented text
    | false =>
      have hlooks : d.looks (stores text r) = true := by simp [looks, stores, hmatch]
      rw [hlooks]
      exact r.active_seen_documented text

theorem goal_some (hrestart : d.restart ≠ some true) :
    d.goal text n (some r) = { r.started.documented text with active := d.endsOn text n r } := by
  have hstarted : (d.settled text n (some r)).started = r.started.documented text := by
    rw [settled, started_powered, stored, r.documented_started]
    split
    · exact StoredResource.started_seen _
    · rfl
  rw [← hstarted, ← active_settled_some text n r hrestart]
  rfl

variable {text n}

/-- What is stored once more leads to where it led. -/
theorem goal_congr (hrestart : d.restart ≠ some true) {r r' : StoredResource}
    (hstarted : r'.started.documented text = r.started.documented text)
    (hon : d.endsOn text n r' = d.endsOn text n r) : d.goal text n (some r') = d.goal text n (some r) := by
  rw [goal_some text n r' hrestart, goal_some text n r hrestart, hstarted, hon]

variable {r} {polls : Table Int} {name : String}

/-! #### The work -/

/-- While a domain is waited for, it stays what it is apart from its power. -/
theorem leaves_awaitOff (deadline : Binary64) (looks : Nat) :
    Leaves True polls .domain name r (awaitOff name deadline looks) fun _ s => s.started = r.started := by
  induction looks generalizing r with
  | zero => exact Leaves.pure rfl
  | succ looks ih =>
    refine Steps.bind admits_isActive.steps (fun _ _ _ => rfl) ?_
    split
    · refine Leaves.still (fun t => Endures.now) fun now => ?_
      dsimp only
      split
      · exact Leaves.pure r.started_seen
      · refine Leaves.still (fun t => Endures.sleep _) fun _ => ?_
        exact ih.mono fun _ s hs => hs.trans r.started_seen
    · exact Leaves.pure r.started_seen

/-- A restart that stops somewhere leaves the domain what it is apart from its power. -/
theorem leaves_restartNow (timeout : Binary64) :
    Leaves True polls .domain name r (restartNow false timeout name) fun _ s => s.started = r.started := by
  refine Steps.bind admits_ask.steps_change (fun _ _ _ => rfl) ?_
  refine Leaves.bind (Q := fun _ s => s.started = r.started) ?_ ?_ fun _ _ => id
  · refine Leaves.still (fun t => Endures.now) fun now => ?_
    exact (leaves_awaitOff _ _).mono fun _ s hs => hs.trans (r.started_asked _)
  · intro off s hs
    refine Steps.bindIf admits_force.steps_change (fun _ _ _ => hs) ?_
    have hforced : (if !off then s.stopped else s).started = r.started := by
      cases off <;> exact hs
    refine Steps.bind admits_start.steps_change (fun _ _ _ => hforced) ?_
    exact Leaves.pure hforced

/-- **What becomes of a domain whose power is seen to, wherever this stops.** Unless the domain is declared on or is
to be restarted, it can only be asked to shut down. -/
theorem leaves_power (timeout : Binary64) (outcome : Outcome) (running : Bool) :
    Leaves True polls .domain d.name r (d.power false timeout outcome running) fun _ s =>
      s.started = r.started ∧ (d.active ≠ some true → d.restart ≠ some true →
        s = r ∨ d.active = some false ∧ running = true ∧ s = r.asked ((polls.get? d.name).getD 0)) := by
  unfold power
  split
  · next hon =>
    refine Steps.bind admits_start.steps_change (fun _ _ _ => ⟨rfl, fun _ _ => .inl rfl⟩) ?_
    exact Leaves.pure ⟨rfl, fun hactive => absurd hon.1 hactive⟩
  · split
    · next hoff =>
      refine Steps.bind admits_ask.steps_change (fun _ _ _ => ⟨rfl, fun _ _ => .inl rfl⟩) ?_
      exact Leaves.pure ⟨r.started_asked _, fun _ _ => .inr ⟨hoff.1, hoff.2, rfl⟩⟩
    · split
      · next hwants =>
        have hnever : d.active ≠ some true → d.restart ≠ some true → False := fun hactive hrestart => by
          rw [wantsRestart_eq_false hactive hrestart, Bool.and_false] at hwants
          exact absurd hwants (by simp)
        refine Leaves.bind (leaves_restartNow timeout) ?_ ?_
        · intro _ s hs
          exact Leaves.pure ⟨hs, fun hactive hrestart => (hnever hactive hrestart).elim⟩
        · exact fun _ s hs => ⟨hs, fun hactive hrestart => (hnever hactive hrestart).elim⟩
      · split <;> exact Leaves.pure ⟨rfl, fun _ _ => .inl rfl⟩

/-- What becomes of a domain that is there behind the storing of its document. -/
theorem leaves_finish (timeout : Binary64) (outcome : Outcome) (changes : List String) :
    Leaves True polls .domain d.name r (d.finish false timeout true outcome changes) fun _ s =>
      s.started = r.started ∧ (d.active ≠ some true → d.restart ≠ some true →
        s = r ∨ d.looks outcome = true ∧ (s = r.seen ∨
          d.active = some false ∧ r.seen.active = true ∧ s = r.seen.asked ((polls.get? d.name).getD 0))) := by
  unfold finish
  cases hlook : d.looks outcome with
  | true =>
    simp only [looks] at hlook
    simp only [hlook, Bool.true_and, if_true]
    refine Steps.bind admits_isActive.steps (fun _ _ _ => ⟨rfl, fun _ _ => .inl rfl⟩) ?_
    refine Leaves.andPure ((leaves_power timeout outcome _).mono fun _ s hs => ?_) _
    refine ⟨hs.1.trans r.started_seen, fun hactive hrestart => .inr ⟨trivial, ?_⟩⟩
    exact hs.2 hactive hrestart
  | false =>
    simp only [looks] at hlook
    simp only [hlook, Bool.true_and, Bool.false_eq_true, if_false]
    refine Steps.bind (Steps.pure false) (fun _ _ _ => ⟨rfl, fun _ _ => .inl rfl⟩) ?_
    refine Leaves.andPure ((leaves_power timeout outcome _).mono fun _ s hs => ?_) _
    refine ⟨hs.1, fun hactive hrestart => .inl ?_⟩
    rcases hs.2 hactive hrestart with heq | ⟨-, hrunning, -⟩
    · exact heq
    · exact absurd hrunning (by simp)

/-- The document of a domain that is there is stored in one step. -/
theorem leaves_store (htext : d.written = .ok text) (hname : nameInDocument text = d.name) :
    ∃ changes, Steps True polls .domain d.name r (d.store false true) (stores text r, changes)
      (r.documented text) := by
  unfold store stores StoredResource.documented
  rw [htext]
  cases hmatch : documentsMatch text r.document with
  | true =>
    refine ⟨[], Steps.bind (Steps.pure text) (fun hs _ hb => .inr ⟨hs, hb, rfl⟩) ?_⟩
    refine Steps.bind admits_read.steps (fun hs _ hb => .inr ⟨hs, hb, rfl⟩) ?_
    simp only [hmatch, if_true]
    exact Leaves.pure (.inl ⟨rfl, rfl⟩)
  | false =>
    refine ⟨[describeChange text r.document], Steps.bind (Steps.pure text) (fun hs _ hb => .inr ⟨hs, hb, rfl⟩) ?_⟩
    refine Steps.bind admits_read.steps (fun hs _ hb => .inr ⟨hs, hb, rfl⟩) ?_
    simp only [hmatch, Bool.false_eq_true, if_false]
    refine Steps.bind (admits_define hname).steps_change (fun hs _ hb => .inr ⟨hs, hb, rfl⟩) ?_
    exact Leaves.pure (.inl ⟨rfl, rfl⟩)

theorem goal_documented (hself : documentsMatch text text = true) (hrestart : d.restart ≠ some true)
    (hsteady : d.IsSteady r) : d.goal text n (some (r.documented text)) = d.goal text n (some r) := by
  refine goal_congr hrestart ?_ ?_
  · rw [← r.documented_started, r.started.documented_documented hself]
  · unfold IsSteady at hsteady
    unfold endsOn
    split
    · rfl
    · rw [r.active_seen_documented]
    · next hunset =>
      rw [hunset] at hsteady
      rw [StoredResource.documentsMatch_documented r hself, if_pos rfl, r.active_documented, hsteady, ite_self]

theorem goal_seen (hrestart : d.restart ≠ some true) (hsteady : d.IsSteady r)
    (hmatch : documentsMatch text r.document = true) : d.goal text n (some r.seen) = d.goal text n (some r) := by
  refine goal_congr hrestart (by rw [StoredResource.started_seen]) ?_
  unfold IsSteady at hsteady
  unfold endsOn
  split
  · rfl
  · next hoff =>
    rw [hoff] at hsteady
    rw [hsteady]
  · next hunset =>
    rw [hunset] at hsteady
    rw [StoredResource.document_seen, hmatch, if_pos rfl, if_pos rfl, hsteady]

theorem goal_asked (hrestart : d.restart ≠ some true) (hoff : d.active = some false) (hsteady : d.IsSteady r)
    (hon : r.seen.active = true) : d.goal text n (some (r.seen.asked n)) = d.goal text n (some r) := by
  refine goal_congr hrestart (by rw [StoredResource.started_asked, StoredResource.started_seen]) ?_
  unfold IsSteady at hsteady
  rw [hoff] at hsteady
  have hagain : r.seen.seen.active = true := Eq.trans hsteady hon
  unfold endsOn
  rw [hoff]
  show ((r.seen.asked n).seen.active && n != 0) = (r.seen.active && n != 0)
  rw [StoredResource.active_seen_asked _ n hagain, StoredResource.active_asked, Bool.and_assoc, Bool.and_self]

theorem goal_none (hself : documentsMatch text text = true) (hrestart : d.restart ≠ some true) :
    d.goal text n none = d.goal text n (some { document := text }) := by
  rw [goal_some text n _ hrestart, StoredResource.documented_started, StoredResource.documented_new hself]
  have hstarted := started_powered (d := d) n { document := text } .created false
  have hactive : (d.powered n .created false { document := text }).active = d.endsOn text n { document := text } := by
    unfold endsOn
    split
    · next hon => exact active_settled_of_on text n none hon
    · next hoff =>
      rw [powered_of_off n _ hoff hrestart]
      rfl
    · next hunset =>
      rw [powered_of_unset n _ hunset hrestart, hself, if_pos rfl]
  rw [← hstarted, ← hactive]
  rfl

/-- What can have become of a domain by work that stops somewhere: it leads to where it led before, and if it was there
it is there, with the document that it had or with the one that is stored. -/
structure Persists (d : Domain) (text : String) (n : Int) (old new : Option StoredResource) : Prop where
  goal : d.goal text n new = d.goal text n old
  document : ∀ r, old = some r → ∃ s, new = some s ∧
    (s.document = r.document ∨ s.document = (r.documented text).document)

theorem Persists.refl (d : Domain) (text : String) (n : Int) (old : Option StoredResource) :
    d.Persists text n old old :=
  ⟨rfl, fun r hr => ⟨r, hr, .inl rfl⟩⟩

/-- **Wherever the work on a domain that is there stops, it leads to where it led before**, unless the domain is to be
restarted in any case. -/
theorem leaves_sync (htext : d.written = .ok text) (hname : nameInDocument text = d.name)
    (hself : documentsMatch text text = true) (hrestart : d.restart ≠ some true) (hsteady : d.IsSteady r)
    (timeout : Binary64) :
    Leaves True polls .domain d.name r (d.sync false timeout true) fun _ s =>
      d.Persists text ((polls.get? d.name).getD 0) (some r) (some s) := by
  obtain ⟨changes, hstore⟩ : ∃ changes, Steps True polls .domain d.name r (d.store false true)
      (stores text r, changes) (r.documented text) := leaves_store htext hname
  have hdocumented := goal_documented (n := (polls.get? d.name).getD 0) hself hrestart hsteady
  have hmatch := StoredResource.documentsMatch_documented r hself
  have hstill : d.IsSteady (r.documented text) := by
    unfold IsSteady at hsteady ⊢
    rw [r.active_seen_documented, r.active_documented, ← r.documented_seen, r.seen.active_seen_documented]
    exact hsteady
  rw [sync_eq]
  refine hstore.bind (fun _ _ _ => .refl _ _ _ _) ?_
  refine (leaves_finish timeout (stores text r) changes).mono fun _ s hs => ⟨?_, fun r' hr' => ⟨s, rfl, .inr ?_⟩⟩
  case refine_2 =>
    obtain rfl := Option.some.inj hr'
    exact congrArg (·.document) hs.1
  rw [← hdocumented]
  -- a domain that shall be on leads there from wherever the work stops
  by_cases hon : d.active = some true
  · refine goal_congr hrestart (by rw [hs.1]) ?_
    unfold endsOn
    rw [hon]
  · rcases hs.2 hon hrestart with rfl | ⟨-, rfl | ⟨hoff, hactive, rfl⟩⟩
    · rfl
    · exact goal_seen hrestart hstill hmatch
    · exact goal_asked hrestart hoff hstill hactive

/-- **Wherever the work on a domain stops, it leads to where it led before**, whether the domain was there or not. -/
theorem endures_sync (htext : d.written = .ok text) (hname : nameInDocument text = d.name)
    (hself : documentsMatch text text = true) (hrestart : d.restart ≠ some true) (t : Tables)
    (hsteady : ∀ r ∈ t.get? .domain d.name, d.IsSteady r) (timeout : Binary64) :
    Endures True polls (fun _ u => d.Persists text ((polls.get? d.name).getD 0) (t.get? .domain d.name)
        (u.get? .domain d.name))
      (d.sync false timeout (t.get? .domain d.name).isSome).run t := by
  cases ht : t.get? .domain d.name with
  | some r =>
    refine (leaves_sync htext hname hself hrestart (hsteady r ht) timeout t ht).mono ?_
    rintro a _ ⟨s, rfl, hpersists⟩
    rw [Tables.get?_put_self]
    exact hpersists
  | none =>
    have hdefine : t.serve polls (.define .domain text) = .ok ((), t.put .domain d.name { document := text }) := by
      rw [Tables.serve, hname, Tables.define, ht]
      rfl
    have hstore : Endures True polls (fun a u => a = .ok (.created, []) ∧
        u = t.put .domain d.name { document := text } ∨ Trouble.IsFailure a ∧ u = t) (d.store false false).run t := by
      unfold store
      rw [htext]
      refine Endures.andNext (Q := fun b u => b = text ∧ u = t) (.pure ⟨text, rfl, rfl, rfl⟩) ?_
      intro b u hb
      rw [hb.1, hb.2]
      exact Endures.change hdefine (fun _ a ha => .inr ⟨ha, rfl⟩) (.pure (.inl ⟨rfl, rfl⟩))
    show Endures True polls _ (d.sync false timeout false).run t
    rw [sync_eq]
    refine hstore.andThen ?_ ?_
    · rintro x u (⟨hx, rfl⟩ | ⟨⟨op, reason, fk, hx⟩, -⟩)
      · rw [Except.ok.inj hx]
        -- what is new is not looked at, and is at most started
        have hfinish : Leaves True polls .domain d.name { document := text }
            (d.finish false timeout false .created []) fun _ s =>
              d.goal text ((polls.get? d.name).getD 0) (some s) = d.goal text ((polls.get? d.name).getD 0) none := by
          refine Steps.bind (Steps.pure false) (fun _ _ _ => (goal_none hself hrestart).symm) ?_
          refine Leaves.andPure ((leaves_power timeout .created false).mono fun _ s hs => ?_) _
          rw [goal_none hself hrestart]
          by_cases hon : d.active = some true
          · refine goal_congr hrestart (by rw [hs.1]) ?_
            unfold endsOn
            rw [hon]
          · rcases hs.2 hon hrestart with rfl | ⟨-, hrunning, -⟩
            · rfl
            · exact absurd hrunning (by simp)
        refine (hfinish _ Tables.get?_put_self).mono ?_
        rintro a _ ⟨s, rfl, hgoal⟩
        rw [Tables.get?_put_self]
        exact ⟨hgoal, by simp⟩
      · exact absurd hx (by simp)
    · rintro e u (⟨he, -⟩ | ⟨-, rfl⟩)
      · exact absurd he (by simp)
      · rw [ht]
        exact .refl _ _ _ _

end Domain

end VirtualTopology
