import VirtualTopology.Pass.Domains
import VirtualTopology.Proofs.Document.Declared
import VirtualTopology.Proofs.Document.Matching
import VirtualTopology.Proofs.Pass.Pools

/-!
# Domains come in line

The work on a domain takes its entry to `Domain.settled`, and its outcome is `Domain.verdict`
(`Domain.ends_sync`): the document matches the declared one, a domain that is to run runs, and one that is
to be off has been asked to shut down. A restart ends with the domain running, however long it takes to
shut down (`Domain.brings_restartNow`). If the result is not a failure, all this holds whatever failed
around the domain (`Domain.run_task`).
-/

namespace VirtualTopology

open Work

namespace Domain

variable {d : Domain} {polls : Table Int} {name : String} {r : StoredResource}

/-! ### Restarts -/

/-- While a domain is waited for, it stays what it is apart from being off in the end. -/
theorem brings_awaitOff (deadline : Binary64) (looks : Nat) :
    Brings polls .domain name r (awaitOff name deadline looks) fun a s =>
      (∃ off, a = .ok off) ∧ s.started = r.started := by
  induction looks generalizing r with
  | zero => exact Brings.pure ⟨⟨false, rfl⟩, rfl⟩
  | succ looks ih =>
    refine BringsTo.bind admits_isActive.attempt ?_
    split
    · refine Brings.bind (Brings.lift fun _ => Talk.Ends.now) ?_
        fun _ _ ⟨⟨_, he⟩, _⟩ => absurd he (by simp)
      rintro now _ ⟨-, rfl⟩
      dsimp only
      split
      · exact Brings.pure ⟨⟨false, rfl⟩, r.started_seen⟩
      · refine Brings.bind (Brings.lift fun _ => Talk.Ends.sleep _) ?_
          fun _ _ ⟨⟨_, he⟩, _⟩ => absurd he (by simp)
        rintro _ _ ⟨-, rfl⟩
        exact ih.mono fun a s ⟨ha, hs⟩ => ⟨ha, hs.trans r.started_seen⟩
    · exact Brings.pure ⟨⟨true, rfl⟩, r.started_seen⟩

/-- **A restart ends with the domain running**, forced off or not. -/
theorem brings_restartNow (timeout : Binary64) :
    Brings polls .domain name r (restartNow false timeout name) fun a s =>
      (∃ told, a = .ok told) ∧ s = r.started := by
  have hask : BringsTo polls .domain name r (Work.change false .stop (.stop .domain name false))
      (.ok ()) (r.asked ((polls.get? name).getD 0)) := admits_ask.change false
  refine BringsTo.bind hask (Brings.bind (Q := fun a s => (∃ off, a = .ok off) ∧
    s.started = r.started) ?_ ?_ fun _ _ ⟨⟨_, he⟩, _⟩ => absurd he (by simp))
  · refine Brings.bind (Brings.lift fun _ => Talk.Ends.now) ?_
      fun _ _ ⟨⟨_, he⟩, _⟩ => absurd he (by simp)
    rintro now _ ⟨-, rfl⟩
    exact (brings_awaitOff _ _).mono fun a s ⟨ha, hs⟩ => ⟨ha, hs.trans (r.started_asked _)⟩
  · rintro off s ⟨-, hs⟩
    refine BringsTo.bindIf (admits_force.change false) ?_
    refine BringsTo.bind (admits_start.change false) (Brings.pure ⟨⟨_, rfl⟩, ?_⟩)
    rw [← hs]
    cases off <;> rfl

/-! ### Power -/

/-- Whether anything is said about the power of a domain. -/
def acts (d : Domain) (outcome : Outcome) (running : Bool) : Bool :=
  (d.active == some true && !running) || (d.active == some false && running) ||
    (running && d.wantsRestart outcome) || (running && outcome == .updated)

/-- What becomes of a domain whose power is seen to. `polls` says how it shuts down. -/
def powered (d : Domain) (polls : Int) (outcome : Outcome) (running : Bool) (r : StoredResource) :
    StoredResource :=
  if d.active = some true ∧ !running then r.started
  else if d.active = some false ∧ running then r.asked polls
  else if running && d.wantsRestart outcome then r.started
  else r

/-- **What can be done about the power of a domain**: it is started, asked to shut down, restarted, or
left alone. -/
theorem power_cases (d : Domain) (timeout : Binary64) (outcome : Outcome) (running : Bool) :
    ((∀ dry, d.power dry timeout outcome running = do
          Work.change dry .start (.start .domain d.name)
          return ["started"]) ∧
        d.acts outcome running = true ∧ ∀ n r, d.powered n outcome running r = r.started) ∨
      ((∀ dry, d.power dry timeout outcome running = do
          Work.change dry .stop (.stop .domain d.name false)
          return ["shutdown requested"]) ∧
        d.acts outcome running = true ∧ ∀ n r, d.powered n outcome running r = r.asked n) ∨
      ((∀ dry, d.power dry timeout outcome running =
          do return [← restartNow dry timeout d.name]) ∧
        d.acts outcome running = true ∧ ∀ n r, d.powered n outcome running r = r.started) ∨
      ∃ said : List String, (∀ dry, d.power dry timeout outcome running = pure said) ∧
        said.isEmpty = !d.acts outcome running ∧ ∀ n r, d.powered n outcome running r = r := by
  -- the branches exclude each other in this order
  unfold power powered acts
  by_cases hstart : d.active = some true ∧ !running
  · simp only [if_pos hstart]
    exact .inl ⟨fun _ => trivial, by simp [hstart.1, hstart.2], fun _ _ => trivial⟩
  · simp only [if_neg hstart]
    by_cases hstop : d.active = some false ∧ running
    · simp only [if_pos hstop]
      exact .inr (.inl ⟨fun _ => trivial, by simp [hstop.1, hstop.2], fun _ _ => trivial⟩)
    · simp only [if_neg hstop]
      by_cases hrestart : (running && d.wantsRestart outcome) = true
      · simp only [if_pos hrestart]
        exact .inr (.inr (.inl ⟨fun _ => trivial, by simp [hrestart], fun _ _ => trivial⟩))
      · simp only [if_neg hrestart]
        have hquiet : ((d.active == some true && !running) || (d.active == some false && running) ||
            (running && d.wantsRestart outcome)) = false := by
          simp only [Bool.or_eq_false_iff]
          exact ⟨⟨by simpa using hstart, by simpa using hstop⟩, by simpa using hrestart⟩
        refine .inr (.inr (.inr ?_))
        split
        · next h => exact ⟨_, fun _ => rfl, by simp [hquiet, h], fun _ _ => trivial⟩
        · next h => exact ⟨_, fun _ => rfl, by simp [hquiet, h], fun _ _ => trivial⟩

/-- In a dry run the power of a domain is told and nothing else. -/
theorem power_dry (d : Domain) (timeout : Binary64) (outcome : Outcome) (running : Bool) :
    ∃ said, d.power true timeout outcome running = pure said ∧
      said.isEmpty = !d.acts outcome running := by
  rcases power_cases d timeout outcome running with ⟨hpower, hacts, -⟩ | ⟨hpower, hacts, -⟩ |
    ⟨hpower, hacts, -⟩ | ⟨said, hpower, hacts, -⟩
  · exact ⟨_, (hpower true).trans rfl, by rw [hacts]; rfl⟩
  · exact ⟨_, (hpower true).trans rfl, by rw [hacts]; rfl⟩
  · exact ⟨_, (hpower true).trans rfl, by rw [hacts]; rfl⟩
  · exact ⟨said, hpower true, hacts⟩

/-- **What seeing to the power of a domain comes to.** -/
theorem brings_power (dry : Bool) (timeout : Binary64) (outcome : Outcome) (running : Bool) :
    Brings polls .domain d.name r (d.power dry timeout outcome running) fun a s =>
      (∃ said, a = .ok said ∧ said.isEmpty = !d.acts outcome running) ∧
        s = if dry then r else d.powered ((polls.get? d.name).getD 0) outcome running r := by
  cases dry with
  | true =>
    obtain ⟨said, hpower, hacts⟩ := power_dry d timeout outcome running
    rw [hpower]
    exact Brings.pure ⟨⟨said, rfl, hacts⟩, rfl⟩
  | false =>
    rcases power_cases d timeout outcome running with ⟨hpower, hacts, hpowered⟩ |
      ⟨hpower, hacts, hpowered⟩ | ⟨hpower, hacts, hpowered⟩ | ⟨said, hpower, hacts, hpowered⟩
    · rw [hpower, hpowered, hacts]
      exact BringsTo.bind (admits_start.change false) (Brings.pure ⟨⟨_, rfl, rfl⟩, rfl⟩)
    · rw [hpower, hpowered, hacts]
      exact BringsTo.bind (admits_ask.change false) (Brings.pure ⟨⟨_, rfl, rfl⟩, rfl⟩)
    · rw [hpower, hpowered, hacts]
      refine Brings.bind (brings_restartNow timeout) ?_ fun _ _ ⟨⟨_, he⟩, _⟩ => absurd he (by simp)
      rintro told _ ⟨-, rfl⟩
      exact Brings.pure ⟨⟨_, rfl, rfl⟩, rfl⟩
    · rw [hpower, hpowered]
      exact Brings.pure ⟨⟨said, rfl, hacts⟩, rfl⟩

/-! ### What is stored in the end -/

/-- Whether it is looked whether a domain that is there runs. -/
def looks (d : Domain) (outcome : Outcome) : Bool :=
  d.active.isSome || d.restart == some true || outcome == .updated

/-- The outcome of storing the document of a domain that is there. -/
def stores (text : String) (r : StoredResource) : Outcome :=
  if documentsMatch text r.document then .unchanged else .updated

/-- The entry of a domain that is there, before its power is seen to. -/
def stored (d : Domain) (text : String) (r : StoredResource) : StoredResource :=
  if d.looks (stores text r) then (r.documented text).seen else r.documented text

/-- Whether a domain that is there is seen running. -/
def runs (d : Domain) (text : String) (r : StoredResource) : Bool :=
  d.looks (stores text r) && r.seen.active

/-- What is stored of a domain in the end. -/
def settled (d : Domain) (text : String) (polls : Int) (old : Option StoredResource) :
    StoredResource :=
  match old with
  | some r => d.powered polls (stores text r) (d.runs text r) (d.stored text r)
  | none => d.powered polls .created false { document := text }

/-- The outcome for a domain. -/
def verdict (d : Domain) (text : String) (old : Option StoredResource) : Outcome :=
  match old with
  | some r => if stores text r = .unchanged ∧ d.acts .unchanged (d.runs text r) then .updated
      else stores text r
  | none => .created

section

variable (d : Domain) (text : String) (n : Int) (old : Option StoredResource)

@[simp] theorem document_powered (outcome : Outcome) (running : Bool) (r : StoredResource) :
    (d.powered n outcome running r).document = r.document := by
  unfold powered StoredResource.asked
  split
  · rfl
  · split
    · split
      · rfl
      · split <;> rfl
    · split <;> rfl

theorem document_stored (r : StoredResource) :
    (d.stored text r).document = (r.documented text).document := by
  unfold stored
  split
  · exact StoredResource.document_seen _
  · rfl

/-- **A domain in line has a document that matches the declared one.** -/
theorem documentsMatch_settled (hself : documentsMatch text text = true) :
    documentsMatch text (d.settled text n old).document = true := by
  cases old with
  | some r =>
    rw [settled, document_powered, document_stored]
    exact r.documentsMatch_documented hself
  | none =>
    rw [settled, document_powered]
    exact hself

variable {d}

theorem active_stored_of_looks {r : StoredResource} (h : d.looks (stores text r) = true) :
    (d.stored text r).active = r.seen.active := by
  rw [stored, if_pos h]
  exact r.active_seen_documented text

/-- **A domain that is declared on is on in the end.** -/
theorem active_settled_of_on (h : d.active = some true) : (d.settled text n old).active = true := by
  cases old with
  | some r =>
    have hlooks : d.looks (stores text r) = true := by simp [looks, h]
    have hactive := active_stored_of_looks text hlooks
    rw [settled, runs, hlooks, powered]
    cases hrunning : r.seen.active with
    | false => simp [h, StoredResource.started]
    | true =>
      rw [hrunning] at hactive
      cases d.wantsRestart (stores text r) <;> simp [h, hactive, StoredResource.started]
  | none => simp [settled, powered, h, StoredResource.started]

/-- **A domain that is declared off is off in the end**, unless it does not turn off when it is asked, or
takes its time: then it is on its way down. -/
theorem active_settled_of_off (h : d.active = some false) :
    (d.settled text n old).active = false ∨ n < 0 ∨
      0 < n ∧ (d.settled text n old).closing.isSome = true := by
  cases old with
  | some r =>
    have hlooks : d.looks (stores text r) = true := by simp [looks, h]
    have hactive := active_stored_of_looks text hlooks
    rw [settled, runs, hlooks, powered]
    cases hrunning : r.seen.active with
    | false =>
      rw [hrunning] at hactive
      exact .inl (by simpa [h] using hactive)
    | true =>
      simp only [h, StoredResource.asked]
      by_cases hignores : n < 0
      · exact .inr (.inl hignores)
      · by_cases hprompt : n = 0
        · exact .inl (by simp [hprompt, StoredResource.stopped])
        · exact .inr (.inr ⟨by omega, by simp [hignores, hprompt]⟩)
  | none => exact .inl (by simp [settled, powered, h])

/-- **A domain whose power is not declared keeps it**, unless it was on its way down. -/
theorem active_settled_of_unset (h : d.active = none) (hclosing : ∀ r ∈ old, r.closing = none) :
    (d.settled text n old).active = old.any (·.active) := by
  cases old with
  | some r =>
    have hseen : r.seen = r := StoredResource.seen_eq_self (hclosing r rfl)
    have hdocumented : (r.documented text).seen = r.documented text :=
      StoredResource.seen_eq_self (by rw [r.closing_documented, hclosing r rfl])
    have hstored : d.stored text r = r.documented text := by
      rw [stored, hdocumented, ite_self]
    rw [settled, hstored, runs, hseen, powered]
    simp only [h, Option.any_some]
    split
    · next hon => exact absurd hon.1 (by simp)
    · split
      · next hoff => exact absurd hoff.1 (by simp)
      · split
        · next hrestart =>
          simp only [Bool.and_eq_true] at hrestart
          exact hrestart.1.2.symm
        · exact r.active_documented text
  | none => simp [settled, powered, h]

end

theorem finalOutcome_eq {outcome : Outcome} {said changes : List String}
    (hchanges : outcome = .unchanged → changes = []) {b : Bool} (hsaid : said.isEmpty = !b) :
    finalOutcome outcome (changes ++ said) = if outcome = .unchanged ∧ b then .updated else outcome := by
  unfold finalOutcome
  by_cases h : outcome = .unchanged
  · rw [hchanges h]
    simp [hsaid]
  · simp [h]

/-! ### The work -/

/-- The work on a domain behind the storing of its document. -/
def finish (d : Domain) (dry : Bool) (timeout : Binary64) (exists_ : Bool) (outcome : Outcome)
    (changes : List String) : Work Result := do
  let look := exists_ && (d.active.isSome || d.restart == some true || outcome == .updated)
  let running ← if look then Work.attempt .read (.isActive .domain d.name) else pure false
  let details := changes ++ (← d.power dry timeout outcome running)
  return { kind := .domain, name := d.name, outcome := finalOutcome outcome details, details }

theorem sync_eq (d : Domain) (dry : Bool) (timeout : Binary64) (exists_ : Bool) :
    d.sync dry timeout exists_ =
      d.store dry exists_ >>= fun x => d.finish dry timeout exists_ x.1 x.2 := rfl

variable {text : String}

/-- The document of a domain that is there is stored if it has changed. -/
theorem brings_store (htext : d.written = .ok text) (hname : nameInDocument text = d.name)
    (dry : Bool) :
    Brings polls .domain d.name r (d.store dry true) fun a s =>
      (∃ changes, a = .ok (stores text r, changes) ∧ (stores text r = .unchanged → changes = [])) ∧
        s = if dry then r else r.documented text := by
  unfold store stores StoredResource.documented
  rw [htext]
  refine BringsTo.bind (Brings.pure ⟨rfl, rfl⟩) (BringsTo.bind admits_read.attempt ?_)
  by_cases hmatch : documentsMatch text r.document = true
  · simp only [hmatch, if_true, Bool.not_true, Bool.false_eq_true, if_false, ite_self]
    exact Brings.pure ⟨⟨[], rfl, fun _ => rfl⟩, rfl⟩
  · simp only [hmatch, Bool.not_false, if_true]
    refine BringsTo.bind ((admits_define hname).change dry) (Brings.pure ⟨⟨_, rfl, ?_⟩, rfl⟩)
    simp

/-- The end of the work on a domain, with its outcome. -/
def Tells (d : Domain) (outcome : Outcome) (a : Except Trouble Result) : Prop :=
  ∃ details, a = .ok { kind := .domain, name := d.name, outcome, details }

/-- The work on a domain behind the look. -/
theorem brings_told (dry : Bool) (timeout : Binary64) (outcome : Outcome) (running : Bool)
    {changes : List String} (hchanges : outcome = .unchanged → changes = []) :
    Brings polls .domain d.name r
      (do
        let said ← d.power dry timeout outcome running
        let details := changes ++ said
        return { kind := .domain, name := d.name, outcome := finalOutcome outcome details, details }
        : Work Result)
      fun a s =>
        d.Tells (if outcome = .unchanged ∧ d.acts outcome running then .updated else outcome) a ∧
          s = if dry then r else d.powered ((polls.get? d.name).getD 0) outcome running r := by
  refine Brings.bind (brings_power dry timeout outcome running) ?_
    fun _ _ ⟨⟨_, he, _⟩, _⟩ => absurd he (by simp)
  rintro said _ ⟨⟨_, heq, hsaid⟩, rfl⟩
  obtain rfl := Except.ok.inj heq
  rw [← finalOutcome_eq hchanges hsaid]
  exact Brings.pure ⟨⟨_, rfl⟩, rfl⟩

/-- What a domain that is there comes to once its document is stored. -/
theorem brings_finish (dry : Bool) (timeout : Binary64) (outcome : Outcome) {changes : List String}
    (hchanges : outcome = .unchanged → changes = []) :
    Brings polls .domain d.name r (d.finish dry timeout true outcome changes) fun a s =>
      d.Tells (if outcome = .unchanged ∧ d.acts outcome (d.looks outcome && r.seen.active)
        then .updated else outcome) a ∧
      s = if dry then (if d.looks outcome then r.seen else r)
        else d.powered ((polls.get? d.name).getD 0) outcome (d.looks outcome && r.seen.active)
          (if d.looks outcome then r.seen else r) := by
  unfold finish
  cases hlook : d.looks outcome with
  | true =>
    simp only [looks] at hlook
    simp only [hlook, Bool.true_and, if_true]
    exact BringsTo.bind admits_isActive.attempt (brings_told dry timeout outcome _ hchanges)
  | false =>
    simp only [looks] at hlook
    simp only [hlook, Bool.true_and, Bool.false_eq_true, if_false, Bool.false_and]
    exact BringsTo.bind (Brings.pure ⟨rfl, rfl⟩) (brings_told dry timeout outcome _ hchanges)

/-- What a domain comes to that is there. -/
theorem brings_sync (htext : d.written = .ok text) (hname : nameInDocument text = d.name)
    (dry : Bool) (timeout : Binary64) :
    Brings polls .domain d.name r (d.sync dry timeout true) fun a s =>
      d.Tells (d.verdict text (some r)) a ∧
        s = if dry then (if d.looks (stores text r) then r.seen else r)
          else d.settled text ((polls.get? d.name).getD 0) (some r) := by
  rw [sync_eq]
  refine Brings.bind (brings_store htext hname dry) ?_
    fun _ _ ⟨⟨_, he, _⟩, _⟩ => absurd he (by simp)
  rintro x s ⟨⟨changes, hx, hchanges⟩, hs⟩
  obtain rfl := Except.ok.inj hx
  refine (brings_finish dry timeout (stores text r) hchanges).mono ?_
  rintro a s' ⟨ha, hs'⟩
  -- storing a document does not turn the domain on or off
  have hactive : s.seen.active = r.seen.active := by
    rw [hs]
    cases dry
    · exact r.active_seen_documented text
    · rfl
  rw [hactive] at ha hs'
  refine ⟨?_, ?_⟩
  · have hverdict : d.verdict text (some r) = if stores text r = .unchanged ∧
        d.acts (stores text r) (d.looks (stores text r) && r.seen.active) = true
        then .updated else stores text r := by
      by_cases h : stores text r = .unchanged <;> simp [verdict, runs, h]
    rw [hverdict]
    exact ha
  · rw [hs', hs]
    cases dry <;> rfl

/-- **What the work on a domain comes to**, whether it is there or not. -/
theorem ends_sync (htext : d.written = .ok text) (hname : nameInDocument text = d.name) (t : Tables)
    (dry : Bool) (timeout : Binary64) :
    Talk.Ends polls t (d.sync dry timeout (t.get? .domain d.name).isSome).run fun a u =>
      d.Tells (d.verdict text (t.get? .domain d.name)) a ∧
      u.get? .domain d.name =
        if dry then (t.get? .domain d.name).map fun r => if d.looks (stores text r) then r.seen else r
        else some (d.settled text ((polls.get? d.name).getD 0) (t.get? .domain d.name)) := by
  cases ht : t.get? .domain d.name with
  | some r =>
    refine (brings_sync htext hname dry timeout t ht).mono ?_
    rintro a _ ⟨s, rfl, ha, rfl⟩
    refine ⟨ha, ?_⟩
    rw [Tables.get?_put_self]
    cases dry <;> rfl
  | none =>
    -- a domain that is not there is defined as new, and nothing is stored in a dry run
    have hdefine : t.serve polls (.define .domain text)
        = .ok ((), t.put .domain d.name { document := text }) := by
      rw [Tables.serve, hname, Tables.define, ht]
      rfl
    have hstore : Talk.Yields polls t (d.store dry false).run (.ok (.created, []))
        (if dry then t else t.put .domain d.name { document := text }) := by
      unfold store
      rw [htext]
      exact Talk.Yields.andThen (Talk.Ends.pure ⟨rfl, rfl⟩)
        (Talk.Yields.andThen (Talk.Yields.change hdefine) (Talk.Ends.pure ⟨rfl, rfl⟩))
    show Talk.Ends polls t (d.sync dry timeout false).run _
    rw [sync_eq]
    refine Talk.Yields.andThen hstore ?_
    cases dry with
    | true =>
      obtain ⟨said, hpower, -⟩ := power_dry d timeout .created false
      have hfinish : d.finish true timeout false .created [] = (do
          let said ← d.power true timeout .created false
          let details := [] ++ said
          return { kind := .domain, name := d.name, outcome := finalOutcome .created details, details }
          : Work Result) := rfl
      rw [hfinish, hpower]
      exact Talk.Ends.pure ⟨⟨_, rfl⟩, ht⟩
    | false =>
      refine (brings_told false timeout .created false (fun h => absurd h (by simp)) _
        Tables.get?_put_self).mono ?_
      rintro a _ ⟨s, rfl, ha, rfl⟩
      rw [Tables.get?_put_self]
      exact ⟨ha, rfl⟩

theorem frank_awaitOff {p : Call → Prop} (hlook : p (.isActive .domain name)) (deadline : Binary64)
    (looks : Nat) : Frank p (fun _ => True) (awaitOff name deadline looks).run := by
  induction looks with
  | zero => exact .pure trivial
  | succ looks ih =>
    refine .seq (.attempt hlook) fun on => ?_
    split
    · refine .seq .askNow fun now => ?_
      dsimp only
      split
      · exact .pure trivial
      · exact .seq (.askSleep _) fun _ => ih
    · exact .pure trivial

theorem frank_restartNow {p : Call → Prop} {dry : Bool} (hlook : p (.isActive .domain name))
    (hstop : dry = false → ∀ force, p (.stop .domain name force))
    (hstart : dry = false → p (.start .domain name)) (timeout : Binary64) :
    Frank p (fun _ => True) (restartNow dry timeout name).run := by
  cases dry with
  | true => exact .value trivial
  | false =>
    refine .seq (.change fun hd => hstop hd _) fun _ => .seq (.seq .askNow fun now =>
      frank_awaitOff hlook _ _) fun off => ?_
    exact .seqIf (.change fun hd => hstop hd _) (.seq (.change hstart) fun _ => .pure trivial)

/-- Whether a domain is ever turned off: it is declared off, or it is restarted. -/
def MayStop (d : Domain) : Prop :=
  d.active = some false ∨ d.restart.getD (d.active == some true) = true

theorem restart_of_wantsRestart {outcome : Outcome} (h : d.wantsRestart outcome = true) :
    d.restart.getD (d.active == some true) = true := by
  unfold wantsRestart at h
  cases hr : d.restart with
  | some b => rwa [hr] at h
  | none =>
    rw [hr, Option.getD_none, Bool.and_eq_true] at h
    exact h.1

/-- **The calls of seeing to the power of a domain**: a look, and, unless the run is dry, the one that starts
a domain that is declared on, the one that asks a domain that is declared off to shut down, and those of a
restart. -/
theorem frank_finish_of {p : Call → Prop} {dry : Bool} (hlook : p (.isActive .domain d.name))
    (hstart : dry = false → d.active = some true → p (.start .domain d.name))
    (hstop : dry = false → d.active = some false → p (.stop .domain d.name false))
    (hrestart : dry = false → d.restart.getD (d.active == some true) = true →
      p (.start .domain d.name) ∧ ∀ force, p (.stop .domain d.name force))
    (timeout : Binary64) (exists_ : Bool) (outcome : Outcome) (changes : List String) :
    Frank p (fun x => x.kind = .domain ∧ x.name = d.name)
      (d.finish dry timeout exists_ outcome changes).run := by
  have hpower : ∀ running, Frank p (fun _ => True) (d.power dry timeout outcome running).run := by
    intro running
    unfold power
    split
    · next hon => exact .seq (.change fun hd => hstart hd hon.1) fun _ => .pure trivial
    · split
      · next hoff => exact .seq (.change fun hd => hstop hd hoff.1) fun _ => .pure trivial
      · split
        · next hwants =>
          have hmay := restart_of_wantsRestart (Bool.and_eq_true_iff.1 hwants).2
          exact .seq (frank_restartNow hlook (fun hd => (hrestart hd hmay).2)
            (fun hd => (hrestart hd hmay).1) timeout) fun _ => .pure trivial
        · split <;> exact .pure trivial
  unfold finish
  dsimp only
  split
  · exact .seq (.attempt hlook) fun running => .seq (hpower _) fun said => .pure ⟨rfl, rfl⟩
  · exact .seq (.pure trivial) fun running => .seq (hpower _) fun said => .pure ⟨rfl, rfl⟩

/-- **The calls of the work on a domain**: looks at the domain, and, unless the run is dry, the ones that store
its document, start it, and turn it off. -/
theorem frank_sync_of {p : Call → Prop} {dry : Bool}
    (hlook : ∀ {c : Call}, c.IsAbout .domain d.name → c.isReading = true → p c)
    (hdefine : dry = false → ∀ text, d.written = .ok text → p (.define .domain text))
    (hstart : dry = false → p (.start .domain d.name))
    (hstop : dry = false → d.MayStop → ∀ force, p (.stop .domain d.name force))
    (timeout : Binary64) (exists_ : Bool) :
    Frank p (fun x => x.kind = .domain ∧ x.name = d.name) (d.sync dry timeout exists_).run := by
  have hstore : Frank p (fun _ => True) (d.store dry exists_).run := by
    unfold store
    refine (Frank.writing d.written).bind fun text htext => ?_
    cases exists_ with
    | true =>
      refine .seq (.attempt (hlook rfl rfl)) fun stored => ?_
      split
      · exact .pure trivial
      · exact .seq (.change fun hd => hdefine hd text htext) fun _ => .pure trivial
    | false => exact .seq (.change fun hd => hdefine hd text htext) fun _ => .pure trivial
  rw [sync_eq]
  exact hstore.seq fun x => frank_finish_of (hlook rfl rfl) (fun hd _ => hstart hd)
    (fun hd hoff => hstop hd (.inl hoff) false)
    (fun hd hrestart => ⟨hstart hd, hstop hd (.inr hrestart)⟩) timeout exists_ x.1 x.2

/-- The work on a domain goes to the domain. -/
theorem frank_sync (hname : ∀ text, d.written = .ok text → nameInDocument text = d.name)
    (dry : Bool) (timeout : Binary64) (exists_ : Bool) :
    Frank (Call.IsProper dry .domain d.name) (fun x => x.kind = .domain ∧ x.name = d.name)
      (d.sync dry timeout exists_).run := by
  have hreal : ∀ {c : Call}, dry = false → c.IsAbout .domain d.name →
      Call.IsProper dry .domain d.name c :=
    fun hd habout => ⟨habout, fun hdry => absurd hdry (by simp [hd])⟩
  refine frank_sync_of (fun habout hreads => ⟨habout, fun _ => hreads⟩)
    (fun hd text htext => hreal hd ?_) (fun hd => hreal hd rfl) (fun hd _ force => hreal hd rfl) timeout
    exists_
  rw [← hname text htext]
  rfl

/-! ### Tasks for domains -/

section

variable (h : Text.ArePlain d.texts)

include h

theorem eq_print_of_written (htext : d.written = .ok text) : text = d.document.print := by
  rw [written_eq h] at htext
  split at htext
  · exact (Except.ok.inj htext).symm
  · exact absurd htext (by simp)

theorem nameInDocument_of_written (htext : d.written = .ok text) : nameInDocument text = d.name := by
  rw [eq_print_of_written h htext]
  exact nameInDocument_written h

/-- The task for a domain asks about the domain only, and so is its result. -/
theorem confined_task (dry : Bool) (timeout : Binary64) (before : List Result) (exists_ : Bool) :
    (d.task dry timeout before exists_).Confined (Query.CallsOnly (Call.IsProper dry .domain d.name))
      (Recorded.All fun x => x.kind = .domain ∧ x.name = d.name) := by
  unfold task
  dsimp only
  split
  · exact (frank_sync (fun _ => nameInDocument_of_written h) dry timeout exists_).confined_recorded
  · exact Dialogue.Confined.pure ((Recorded.all_ok_iff _).2 (by simp [Result.stuck, Result.failure]))

/-- **A domain whose result is not a failure is in line**, whatever failed around it. -/
theorem run_task {m : Memory} (hm : m.Uncancelled) {timeout : Binary64} {before : List Result}
    {rs : List Result}
    (hrs : (m.run (d.task false timeout before (m.tables.get? .domain d.name).isSome)).1 = .ok rs) :
    ∃ x, rs = [x] ∧ x.kind = .domain ∧ x.name = d.name ∧
      (x.outcome = .failed ∨ d.written = .ok d.document.print ∧
        x.outcome = d.verdict d.document.print (m.tables.get? .domain d.name) ∧
        (m.run (d.task false timeout before
            (m.tables.get? .domain d.name).isSome)).2.tables.get? .domain d.name
          = some (d.settled d.document.print ((m.polls.get? d.name).getD 0)
              (m.tables.get? .domain d.name))) := by
  unfold task at hrs ⊢
  dsimp only at hrs ⊢
  split at hrs
  · next hblocked =>
    simp only [if_pos hblocked, Memory.run_bind, hm.run_supervise, Memory.run_pure] at hrs ⊢
    -- a result that is there is the one of the work, or tells that it failed
    rcases Ending.recorded_of_eq_ok hrs with ⟨x, hx, rfl⟩ | ⟨op, reason, fk, rfl⟩
    · cases htext : d.written with
      | error why =>
        have hsync : (d.sync false timeout (m.tables.get? .domain d.name).isSome).run
            = .done (.error (.unwritable why)) := by
          unfold sync store
          rw [htext]
          rfl
        rw [hsync] at hx
        exact absurd hx (by simp)
      | ok text =>
        have hframe := frank_sync (fun _ => nameInDocument_of_written h) false timeout
          (m.tables.get? .domain d.name).isSome
        obtain ⟨⟨details, heq⟩, htables⟩ := hframe.holds_of_run_eq_ok hx
          (ends_sync htext (nameInDocument_of_written h htext) m.tables false timeout)
        obtain rfl := Except.ok.inj heq
        obtain rfl := eq_print_of_written h htext
        exact ⟨_, rfl, rfl, rfl, .inr ⟨rfl, rfl, htables⟩⟩
    · exact ⟨_, rfl, rfl, rfl, .inl rfl⟩
  · next hblocked =>
    exact ⟨_, (Except.ok.inj hrs).symm, rfl, rfl, .inl rfl⟩

end

/-! ### Removals -/

/-- The work on a domain that is to be removed. -/
def remove (dry : Bool) (name : String) : Work Result := do
  let running ← Work.attempt .read (.isActive .domain name)
  Work.change dry .undefine (.undefine .domain name)
  return { kind := .domain, name, outcome := .deleted
           details := if running then ["still running until shut down"] else [] }

theorem removal_eq (dry : Bool) (name : String) :
    removal dry name =
      (do let ending ← supervise .domain name (remove dry name); return ending.recorded) := rfl

theorem frank_remove (dry : Bool) (name : String) :
    Frank (Call.IsProper dry .domain name) (fun x => x.kind = .domain ∧ x.name = name)
      (remove dry name).run :=
  .seq (.attempt ⟨rfl, fun _ => rfl⟩) fun _ =>
    .seq (.change fun hd => ⟨rfl, fun hdry => absurd hdry (by simp [hd])⟩) fun _ => .pure ⟨rfl, rfl⟩

/-- The removal of a domain asks about the domain only, and so is its result. -/
theorem confined_removal (dry : Bool) (name : String) :
    (removal dry name).Confined (Query.CallsOnly (Call.IsProper dry .domain name))
      (Recorded.All fun x => x.kind = .domain ∧ x.name = name) :=
  (frank_remove dry name).confined_recorded

/-- What the removal of a domain that is there comes to. -/
theorem ends_remove {t : Tables} (ht : t.get? .domain name = some r) (dry : Bool) :
    Talk.Ends polls t (remove dry name).run fun a u =>
      (∃ x, a = .ok x ∧ x.outcome = .deleted ∧ x.kind = .domain ∧ x.name = name) ∧
        u.get? .domain name = if dry then some r.seen else none := by
  have hlook : Talk.Yields polls t (Work.attempt .read (.isActive .domain name)).run
      (.ok r.seen.active) (t.put .domain name r.seen) := Talk.Yields.attempt (admits_isActive t ht)
  have hundefine : (t.put .domain name r.seen).serve polls (.undefine .domain name)
      = .ok ((), (t.put .domain name r.seen).erase .domain name) := by
    rw [Tables.serve, Tables.find_eq_ok Tables.get?_put_self]
    rfl
  refine Talk.Yields.andThen hlook (Talk.Yields.andThen (Talk.Yields.change hundefine)
    (Talk.Ends.pure ⟨⟨_, rfl, rfl, rfl, rfl⟩, ?_⟩))
  cases dry
  · simp [Tables.get?_erase]
  · exact Tables.get?_put_self

/-- **A domain that is reported deleted is gone**, whatever failed around it. -/
theorem run_removal {m : Memory} (hm : m.Uncancelled) (ht : m.tables.get? .domain name = some r)
    {rs : List Result} (hrs : (m.run (removal false name)).1 = .ok rs) :
    ∃ x, rs = [x] ∧ x.kind = .domain ∧ x.name = name ∧
      (x.outcome = .failed ∨ x.outcome = .deleted ∧
        (m.run (removal false name)).2.tables.get? .domain name = none) := by
  simp only [removal_eq, Memory.run_bind, hm.run_supervise, Memory.run_pure] at hrs ⊢
  rcases Ending.recorded_of_eq_ok hrs with ⟨x, hx, rfl⟩ | ⟨op, reason, fk, rfl⟩
  · obtain ⟨⟨y, heq, houtcome, hkind, hname⟩, htables⟩ :=
      (frank_remove false name).holds_of_run_eq_ok hx (ends_remove ht false)
    obtain rfl := Except.ok.inj heq
    exact ⟨x, rfl, hkind, hname, .inr ⟨houtcome, htables⟩⟩
  · exact ⟨_, rfl, rfl, rfl, .inl rfl⟩

end Domain

end VirtualTopology
