import VirtualTopology.Pass.Started
import VirtualTopology.Proofs.Pass.Frank

/-!
# Networks and pools come in line

The work on a network or a pool that is there takes its entry to `Started.brought`
(`Started.brings_sync`), and one that is not there is made like that (`Started.yields_sync`): what is
stored in the end is `Started.settled`, whose document matches the declared one, and which runs and starts
on its own exactly as declared. The result, `Started.reported`, depends on what was there before, not on
whether the run is dry (`Started.ends_sync`).
-/

namespace VirtualTopology

/-- Whether a call goes to a resource, and only looks in a dry run. -/
structure Call.IsProper (dry : Bool) (k : DefinedKind) (name : String) (c : Call) : Prop where
  about : c.IsAbout k name
  reading : dry = true → c.isReading = true

/-- The entry with the declared document, if its own does not match it. -/
def StoredResource.documented (r : StoredResource) (text : String) : StoredResource :=
  if !documentsMatch text r.document then { r with document := text } else r

namespace StoredResource

variable (r : StoredResource) (text : String)

theorem active_documented : (r.documented text).active = r.active := by
  unfold documented
  split <;> rfl

theorem closing_documented : (r.documented text).closing = r.closing := by
  unfold documented
  split <;> rfl

theorem autostart_documented : (r.documented text).autostart = r.autostart := by
  unfold documented
  split <;> rfl

theorem volumes_documented : (r.documented text).volumes = r.volumes := by
  unfold documented
  split <;> rfl

theorem active_seen_documented : (r.documented text).seen.active = r.seen.active := by
  rw [active_seen, active_seen, active_documented, closing_documented]

/-- **A documented entry has a document that matches the declared one.** -/
theorem documentsMatch_documented {text : String} (hself : documentsMatch text text = true) :
    documentsMatch text (r.documented text).document = true := by
  rw [documented]
  cases h : documentsMatch text r.document with
  | true => exact h
  | false => exact hself

end StoredResource

namespace Started

open Work

/-- What is stored for a declared resource after it has been brought in line. -/
def carried (s : Started) (p : StartedPlan) (r : StoredResource) : StoredResource :=
  let r := if p.stop then r.stopped else r
  let r := if p.start then r.started else r
  if p.autostart then { r with autostart := s.autostart } else r

/-- What is to be done to a resource that is there. -/
def planFor (s : Started) (text : String) (r : StoredResource) : StartedPlan :=
  s.plan true (!documentsMatch text r.document) r.seen.active r.autostart

/-- What becomes of a resource that is there. -/
def brought (s : Started) (text : String) (r : StoredResource) : StoredResource :=
  s.carried (s.planFor text r) (r.documented text).seen

/-- What is to be done to a resource that is not there. -/
def planForNew (s : Started) : StartedPlan := s.plan false true false false

/-- What becomes of a resource that was not there. -/
def made (s : Started) (text : String) : StoredResource :=
  s.carried s.planForNew { document := text }

/-! ### What is stored in the end -/

section

variable (s : Started) (text : String) (p : StartedPlan) (r : StoredResource)

@[simp] theorem document_carried : (s.carried p r).document = r.document := by
  unfold carried
  split <;> split <;> split <;> rfl

@[simp] theorem volumes_carried : (s.carried p r).volumes = r.volumes := by
  unfold carried
  split <;> split <;> split <;> rfl

theorem active_carried :
    (s.carried p r).active = (p.start || (!p.stop && r.active)) := by
  unfold carried
  cases p.stop <;> cases p.start <;> cases p.autostart <;> simp [StoredResource.started, StoredResource.stopped]

theorem autostart_carried :
    (s.carried p r).autostart = if p.autostart then s.autostart else r.autostart := by
  unfold carried
  cases p.stop <;> cases p.start <;> cases p.autostart <;> rfl

/-- **A resource that was there runs as declared.** -/
theorem active_brought : (s.brought text r).active = s.active := by
  rw [brought, active_carried, StoredResource.active_seen_documented, planFor, plan]
  cases s.active <;> cases r.seen.active <;> simp

/-- **A resource that was there starts on its own as declared.** -/
theorem autostart_brought : (s.brought text r).autostart = s.autostart := by
  rw [brought, autostart_carried, StoredResource.autostart_seen, StoredResource.autostart_documented, planFor, plan]
  cases s.autostart <;> cases r.autostart <;> rfl

/-- **A resource that was there has a document that matches the declared one.** -/
theorem documentsMatch_brought (hself : documentsMatch text text = true) :
    documentsMatch text (s.brought text r).document = true := by
  rw [brought, document_carried, StoredResource.document_seen]
  exact r.documentsMatch_documented hself

theorem volumes_brought : (s.brought text r).volumes = r.volumes := by
  rw [brought, volumes_carried, StoredResource.volumes_seen, StoredResource.volumes_documented]

theorem document_made : (s.made text).document = text := document_carried _ _ _

theorem active_made : (s.made text).active = s.active := by
  rw [made, active_carried, planForNew, plan]
  cases s.active <;> rfl

theorem autostart_made : (s.made text).autostart = s.autostart := by
  rw [made, autostart_carried, planForNew, plan]
  cases s.autostart <;> rfl

theorem volumes_made : (s.made text).volumes = [] := volumes_carried _ _ _

/-- What is stored in the end. -/
def settled (old : Option StoredResource) : StoredResource :=
  match old with
  | some r => s.brought text r
  | none => s.made text

/-- What is reported. -/
def reported (old : Option StoredResource) : Result :=
  match old with
  | some r => s.result (s.planFor text r)
  | none => s.result s.planForNew

variable (old : Option StoredResource)

/-- **A resource in line runs as declared.** -/
@[simp] theorem active_settled : (s.settled text old).active = s.active := by
  cases old with
  | some r => exact active_brought s text r
  | none => exact active_made s text

/-- **A resource in line starts on its own as declared.** -/
@[simp] theorem autostart_settled : (s.settled text old).autostart = s.autostart := by
  cases old with
  | some r => exact autostart_brought s text r
  | none => exact autostart_made s text

/-- **A resource in line has a document that matches the declared one.** -/
theorem documentsMatch_settled (hself : documentsMatch text text = true) :
    documentsMatch text (s.settled text old).document = true := by
  cases old with
  | some r => exact documentsMatch_brought s text r hself
  | none =>
    rw [settled, document_made]
    exact hself

/-- A resource in line keeps its volumes. -/
theorem get?_volumes_settled (name : String) :
    (s.settled text old).volumes.get? name = old.bind (·.volumes.get? name) := by
  cases old with
  | some r => exact congrArg (·.get? name) (volumes_brought s text r)
  | none => exact congrArg (·.get? name) (volumes_made s text)

theorem result_cases : (s.result p).kind = s.kind.resource ∧ (s.result p).name = s.name ∧
    (s.result p).outcome ∈ [Outcome.created, .updated, .unchanged] := by
  refine ⟨rfl, rfl, ?_⟩
  simp only [result]
  split
  · simp
  · split <;> simp

theorem reported_cases : (s.reported text old).kind = s.kind.resource ∧
    (s.reported text old).name = s.name ∧
    (s.reported text old).outcome ∈ [Outcome.created, .updated, .unchanged] := by
  cases old <;> exact result_cases s _

end

/-! ### The work -/

variable {s : Started} {text : String} {polls : Table Int} {r : StoredResource}

/-- The steps behind the looks take an entry to what is carried out. -/
theorem bringsTo_carried (hk : s.kind ≠ .domain) (dry : Bool) (p : StartedPlan) {α : Type} (a : α) :
    BringsTo polls s.kind s.name r
      (do
        if p.stop then Work.change dry .stop (.stop s.kind s.name false)
        if p.start then Work.change dry .start (.start s.kind s.name)
        if p.autostart then Work.change dry .autostart (.setAutostart s.kind s.name s.autostart)
        return a)
      (.ok a) (if dry then r else s.carried p r) := by
  refine BringsTo.bindIf ((admits_stop hk false).change dry) ?_
  refine BringsTo.bindIf (admits_start.change dry) ?_
  refine BringsTo.bindIf ((admits_setAutostart s.autostart).change dry) (Brings.pure ⟨rfl, ?_⟩)
  unfold carried
  cases dry <;> cases p.stop <;> cases p.start <;> cases p.autostart <;> rfl

/-- **What the work on a resource that is there comes to.** -/
theorem brings_sync (hk : s.kind ≠ .domain) (htext : s.text = .ok text)
    (hname : nameInDocument text = s.name) (dry : Bool) :
    BringsTo polls s.kind s.name r (s.sync dry true)
      (.ok (s.result (s.planFor text r), s.active && (r.seen.active || !dry)))
      (if dry then r.seen else s.brought text r) := by
  rw [sync, htext]
  refine BringsTo.bind (Brings.pure ⟨rfl, rfl⟩) (BringsTo.bind admits_read.attempt ?_)
  refine BringsTo.bind (Brings.pure ⟨rfl, rfl⟩) ?_
  refine BringsTo.bindIf ((admits_define hname).change dry) ?_
  have hentry : (if (!documentsMatch text r.document) = true then
      if dry = true then r else { r with document := text } else r)
      = if dry then r else r.documented text := by
    unfold StoredResource.documented
    cases dry <;> split <;> rfl
  have hactive : (if dry then r else r.documented text).seen.active = r.seen.active := by
    cases dry
    · exact r.active_seen_documented text
    · rfl
  have hautostart : (if dry then r else r.documented text).seen.autostart = r.autostart := by
    rw [StoredResource.autostart_seen]
    cases dry
    · exact r.autostart_documented text
    · rfl
  rw [hentry]
  refine BringsTo.bind admits_isActive.attempt (BringsTo.bind admits_isAutostart.attempt ?_)
  rw [hactive, hautostart]
  refine (bringsTo_carried hk dry (s.planFor text r) _).mono fun a u ⟨ha, hu⟩ => ⟨ha, ?_⟩
  rw [hu]
  cases dry <;> rfl

/-- **What the work on a resource that is not there comes to.** -/
theorem yields_sync (hk : s.kind ≠ .domain) (htext : s.text = .ok text)
    (hname : nameInDocument text = s.name) {t : Tables} (ht : t.get? s.kind s.name = none)
    (dry : Bool) :
    Talk.Yields polls t (s.sync dry false).run (.ok (s.result s.planForNew, s.active && !dry))
      (if dry then t else t.put s.kind s.name (s.made text)) := by
  have hdefine : t.serve polls (.define s.kind text)
      = .ok ((), t.put s.kind s.name { document := text }) := by
    rw [Tables.serve, hname, Tables.define, ht]
    rfl
  rw [sync, htext]
  refine Talk.Yields.andThen (Talk.Ends.pure ⟨rfl, rfl⟩) ?_
  refine Talk.Yields.andThen (Talk.Ends.pure ⟨rfl, rfl⟩) ?_
  refine Talk.Yields.andThen (Talk.Yields.change hdefine) ?_
  refine Talk.Yields.andThen (Talk.Ends.pure ⟨rfl, rfl⟩) ?_
  refine Talk.Yields.andThen (Talk.Ends.pure ⟨rfl, rfl⟩) ?_
  cases dry with
  | true =>
    obtain ⟨kind, name, text, active, autostart⟩ := s
    cases active <;> cases autostart <;> exact Talk.Ends.pure ⟨rfl, rfl⟩
  | false =>
    refine (bringsTo_carried hk false s.planForNew _ _ Tables.get?_put_self).mono ?_
    rintro a _ ⟨r, rfl, ha, rfl⟩
    exact ⟨ha, Tables.put_put⟩

/-- **What the work on a resource comes to**, whether it is there or not. -/
theorem ends_sync (hk : s.kind ≠ .domain) (htext : s.text = .ok text)
    (hname : nameInDocument text = s.name) (t : Tables) (dry : Bool) :
    Talk.Ends polls t (s.sync dry (t.get? s.kind s.name).isSome).run fun a u =>
      a = .ok (s.reported text (t.get? s.kind s.name),
        s.active && ((t.get? s.kind s.name).any (·.seen.active) || !dry)) ∧
      u.get? s.kind s.name =
        if dry then (t.get? s.kind s.name).map (·.seen)
        else some (s.settled text (t.get? s.kind s.name)) := by
  cases ht : t.get? s.kind s.name with
  | some r =>
    refine (brings_sync hk htext hname dry t ht).mono ?_
    rintro a _ ⟨r', rfl, ha, rfl⟩
    refine ⟨ha, ?_⟩
    rw [Tables.get?_put_self]
    cases dry <;> rfl
  | none =>
    refine (yields_sync hk htext hname ht dry).mono ?_
    rintro a _ ⟨ha, rfl⟩
    refine ⟨by simp [ha, reported], ?_⟩
    cases dry
    · exact Tables.get?_put_self
    · exact ht

/-- The work on a resource behind the storing of its document. -/
def finish (s : Started) (dry exists_ changed : Bool) : Work (Result × Bool) := do
  let running ← if exists_ then Work.attempt .read (.isActive s.kind s.name) else pure false
  let autostart ← if exists_ then Work.attempt .read (.isAutostart s.kind s.name) else pure false
  let p := s.plan exists_ changed running autostart
  if p.stop then Work.change dry .stop (.stop s.kind s.name false)
  if p.start then Work.change dry .start (.start s.kind s.name)
  if p.autostart then
    Work.change dry .autostart (.setAutostart s.kind s.name s.autostart)
  let readable := s.active && (running || !dry)
  return (s.result p, readable)

theorem sync_eq (s : Started) (dry exists_ : Bool) :
    s.sync dry exists_ = (do
      let text ← Work.writing s.text
      let changed ← if exists_ then do
          let stored ← Work.attempt .read (.read s.kind s.name)
          pure (!documentsMatch text stored)
        else pure true
      if changed then Work.change dry .define (.define s.kind text)
      s.finish dry exists_ changed) := rfl

/-- A call that the work on a resource can make: a look at it, and, unless the run is dry, the ones that store
its document, stop it, start it, and tell whether it starts on its own. -/
inductive Makes (s : Started) (dry : Bool) : Call → Prop where
  | look {c : Call} (about : c.IsAbout s.kind s.name) (reads : c.isReading = true) : Makes s dry c
  | define (real : dry = false) {text : String} (written : s.text = .ok text) :
      Makes s dry (.define s.kind text)
  | stop (real : dry = false) : Makes s dry (.stop s.kind s.name false)
  | start (real : dry = false) : Makes s dry (.start s.kind s.name)
  | autostart (real : dry = false) : Makes s dry (.setAutostart s.kind s.name s.autostart)

/-- What the work on a resource comes to if it ends well: a result, and whether what is inside can be read. -/
def Gives (s : Started) (dry : Bool) (x : Result × Bool) : Prop :=
  (∃ q, x.1 = s.result q) ∧ (dry = false → x.2 = s.active)

/-- The calls behind the storing of the document. -/
theorem frank_finish (s : Started) (dry exists_ changed : Bool) :
    Frank (s.Makes dry) (s.Gives dry) (s.finish dry exists_ changed).run := by
  have hrest : ∀ running autostart, Frank (s.Makes dry) (s.Gives dry) (do
      let p := s.plan exists_ changed running autostart
      if p.stop then Work.change dry .stop (.stop s.kind s.name false)
      if p.start then Work.change dry .start (.start s.kind s.name)
      if p.autostart then
        Work.change dry .autostart (.setAutostart s.kind s.name s.autostart)
      let readable := s.active && (running || !dry)
      return (s.result p, readable) : Work _).run := by
    intro running autostart
    have hgives : s.Gives dry (s.result (s.plan exists_ changed running autostart),
        s.active && (running || !dry)) := by
      refine ⟨⟨_, rfl⟩, fun hreal => ?_⟩
      rw [hreal]
      simp
    exact .seqIf (.change .stop) (.seqIf (.change .start) (.seqIf (.change .autostart) (.pure hgives)))
  unfold finish
  cases exists_ with
  | true =>
    exact .seq (.attempt (.look rfl rfl)) fun running => .seq (.attempt (.look rfl rfl)) fun autostart =>
      hrest running autostart
  | false =>
    exact .seq (.pure trivial) fun running => .seq (.pure trivial) fun autostart => hrest running autostart

/-- **The calls of the work on a resource.** -/
theorem frank_makes (s : Started) (dry exists_ : Bool) :
    Frank (s.Makes dry) (s.Gives dry) (s.sync dry exists_).run := by
  rw [sync_eq]
  refine (Frank.writing s.text).bind fun text htext => ?_
  have hstore : Frank (s.Makes dry) (fun _ => True) (Work.change dry .define (.define s.kind text)).run :=
    .change fun hreal => .define hreal htext
  cases exists_ with
  | true =>
    refine .seq (.attempt (.look rfl rfl)) fun stored => .seq (.pure trivial) fun changed => ?_
    exact .seqIf hstore (s.frank_finish dry true changed)
  | false =>
    exact .seq (.pure trivial) fun changed => .seqIf hstore (s.frank_finish dry false changed)

/-- A call that the work on a resource can make goes to the resource, if its document gives its name. -/
theorem Makes.isProper (hname : ∀ text, s.text = .ok text → nameInDocument text = s.name) {dry : Bool}
    {c : Call} (h : s.Makes dry c) : c.IsProper dry s.kind s.name := by
  have hreal : dry = false → dry = true → c.isReading = true := fun hd hdry =>
    absurd hdry (by simp [hd])
  cases h with
  | look about reads => exact ⟨about, fun _ => reads⟩
  | define real written =>
    refine ⟨?_, hreal real⟩
    rw [← hname _ written]
    rfl
  | stop real => exact ⟨rfl, hreal real⟩
  | start real => exact ⟨rfl, hreal real⟩
  | autostart real => exact ⟨rfl, hreal real⟩

/-- The work on a resource goes to the resource. -/
theorem frank_sync (hname : ∀ text, s.text = .ok text → nameInDocument text = s.name)
    (dry exists_ : Bool) :
    Frank (Call.IsProper dry s.kind s.name) (s.Gives dry) (s.sync dry exists_).run :=
  (s.frank_makes dry exists_).mono (fun _ => Makes.isProper hname) fun _ => id

end Started

end VirtualTopology
