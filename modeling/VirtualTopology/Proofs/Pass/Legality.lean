import VirtualTopology.Proofs.Host.Lawful
import VirtualTopology.Proofs.Pass.Watch

/-!
# Lawful work

The work on a resource is lawful (`Talk.Lawful`) if it is told rightly whether the resource is there: its picture of the
resource from its last looks is the state of the resource. So are the tasks, and tasks for different resources one
behind the other (`Lawful.gather`).

Where no call fails, a failure is excused (`Result.IsExcused`): it is a change that would need the resource to be made
anew, something that depends on such a failure, something that is in use, or a document that cannot be read.
-/

namespace VirtualTopology

open Dialogue Talk

/-! ### Excused failures -/

/-- Whether the work on a resource may end early although no call fails. -/
def Trouble.IsExcused : Trouble → Prop
  | .failed _ reason kind =>
      kind = .unsupportedChange ∨ reason = "Unreadable live definition: malformed document"
  | .unwritable _ => True

/-- Whether a result may be a failure although no call fails. -/
def Result.IsExcused (x : Result) : Prop :=
  x.outcome = .failed →
    x.failureKind = some .unsupportedChange ∨ x.failureKind = some .dependencyFailed ∨ x.failureKind = some .inUse ∨
    x.reason = some "Unreadable live definition: malformed document" ∨
    ∃ domain, x.reason = some ("Unreadable definition of domain " ++ domain ++ ": malformed document")

theorem Result.isExcused_of_ne {x : Result} (h : x.outcome ≠ .failed) : x.IsExcused := fun hf => absurd hf h

/-- Whether work ends with a result that is no failure, or early with an excuse. -/
structure EndsWell {α : Type} (result : α → Result) (a : Except Trouble α) : Prop where
  result : ∀ x, a = .ok x → (result x).outcome ≠ .failed
  excused : ∀ e, a = .error e → e.IsExcused

namespace EndsWell

variable {α : Type} {result : α → Result}

theorem ok {x : α} (h : (result x).outcome ≠ .failed) : EndsWell result (.ok x) :=
  ⟨fun y hy => by rw [← Except.ok.inj hy]; exact h, fun e he => absurd he (by simp)⟩

theorem error {e : Trouble} (h : e.IsExcused) : EndsWell result (.error e : Except Trouble α) :=
  ⟨fun y hy => absurd hy (by simp), fun e' he => by rw [← Except.error.inj he]; exact h⟩

/-- The failure of work with an excuse is excused. -/
theorem stuck {kind : ResourceKind} {name : String} {op : Operation} {reason : String} {fk : FailureKind}
    (h : EndsWell result (.error (.failed op reason fk) : Except Trouble α)) :
    (Result.stuck kind name op reason fk).IsExcused := by
  intro _
  rcases h.excused _ rfl with rfl | rfl
  · exact .inl rfl
  · exact .inr (.inr (.inr (.inl rfl)))

/-- What is recorded of work that ends well is excused. -/
theorem recorded {a : Except Trouble Result} (h : EndsWell id a) (kind : ResourceKind) (name : String) :
    (Ending.of kind name a).recorded.All Result.IsExcused := by
  match a with
  | .ok x => exact (Recorded.all_ok_iff _).2 (by simpa using Result.isExcused_of_ne (h.result x rfl))
  | .error (.failed op reason fk) => exact (Recorded.all_ok_iff _).2 (by simpa using h.stuck)
  | .error (.unwritable why) => exact fun rs hrs => absurd hrs (by simp [Ending.of, Ending.recorded])

end EndsWell

namespace Talk.Lawful

variable {polls : Table Int} {t : Tables}

/-- A step that is left out if there is no need for it. -/
theorem bindIf {β : Type} {b : Bool} {v : Work Unit} {g : Unit → Work β} {Q : Tables → Prop}
    {R : Except Trouble β → Tables → Prop} (hstep : b = true → Lawful polls (fun a u => ∃ c, a = .ok c ∧ Q u) v.run t)
    (hskip : b = false → Q t) (hg : ∀ u, Q u → Lawful polls R (g ()).run u) :
    Lawful polls R (if b = true then v >>= g else g ()).run t := by
  cases b with
  | true => exact (hstep rfl).andNext fun _ u hQ => hg u hQ
  | false => exact hg t (hskip rfl)

/-- What is recorded of supervised work is excused if the work ends well. -/
theorem recorded {kind : ResourceKind} {name : String} {v : Work Result}
    (h : Lawful polls (fun a _ => EndsWell id a) v.run t) :
    Lawful polls (fun r _ => r.All Result.IsExcused)
      (do let ending ← VirtualTopology.supervise kind name v; return ending.recorded) t := by
  refine Lawful.bind (Lawful.supervise (Q := fun ending _ => ending.recorded.All Result.IsExcused) ?_ ?_)
    fun ending u hall => .pure hall
  · exact (Recorded.all_ok_iff _).2 (by
      simpa [Ending.recorded] using Result.isExcused_of_ne (by simp [Result.cancelled]))
  · exact h.mono fun a _ ha => ha.recorded kind name

/-- **The storing of a document** under the name that it gives. -/
theorem define {k : DefinedKind} {name text : String} (hname : nameInDocument text = name) (op : Operation) :
    Lawful polls (fun a u => ∃ b, a = .ok b ∧ ∃ r, u.get? k name = some r ∧
        r.active = (t.get? k name).any (·.active) ∧ r.volumes = ((t.get? k name).map (·.volumes)).getD [])
      (Work.change false op (.define k text)).run t := by
  refine Lawful.andNext (Lawful.attempt (Q := fun _ u => u = t.define k name text) trivial fun a u hserve => ?_) ?_
  · rw [Tables.serve, hname] at hserve
    exact (Prod.mk.inj (Except.ok.inj hserve)).2.symm
  · rintro _ u rfl
    refine .pure ⟨(), rfl, { (t.get? k name).getD { document := text } with document := text }, ?_, ?_, ?_⟩
    · rw [Tables.define, Tables.get?_put_self]
    · cases t.get? k name <;> rfl
    · cases t.get? k name <;> rfl

end Talk.Lawful

/-! ### Networks and pools -/

namespace Started

variable {s : Started} {polls : Table Int} {t : Tables} {r : StoredResource} {text : String}

/-- What work on a resource that is started comes to: a result that is no failure, and an entry that runs as
declared. -/
def Settles (s : Started) (a : Except Trouble (Result × Bool)) (u : Tables) : Prop :=
  (∃ x, a = .ok (x, s.active) ∧ x.outcome ≠ .failed) ∧ ∃ r, u.get? s.kind s.name = some r ∧ r.active = s.active

theorem outcome_result_ne (s : Started) (p : StartedPlan) : (s.result p).outcome ≠ .failed := by
  unfold result
  dsimp only
  split
  · exact nofun
  · split <;> exact nofun

/-- **The steps of a plan are legal** if the resource was seen as it is: it is stopped if it runs, and started if it
does not. -/
theorem lawful_carry (hk : s.kind ≠ .domain) (hr : t.get? s.kind s.name = some r) {on : Bool} (hon : r.active = on)
    (exists_ changed autostart : Bool) : Lawful polls s.Settles (do
      let p := s.plan exists_ changed on autostart
      if p.stop then Work.change false .stop (.stop s.kind s.name false)
      if p.start then Work.change false .start (.start s.kind s.name)
      if p.autostart then
        Work.change false .autostart (.setAutostart s.kind s.name s.autostart)
      return (s.result p, s.active) : Work (Result × Bool)).run t := by
  subst hon
  -- what is known of the entry behind each step
  let On : Bool → Tables → Prop := fun b u => ∃ r', u.get? s.kind s.name = some r' ∧ r'.active = b
  refine Lawful.bindIf (Q := On (r.active && !(r.active && (changed || !s.active)))) ?_ ?_ fun u hu => ?_
  · intro hstop
    have hactive : r.active = true := (Bool.and_eq_true_iff.1 hstop).1
    refine (Lawful.stops hr .stop hk hactive).mono ?_
    rintro a u ⟨b, rfl, rfl⟩
    have hplan : (r.active && (changed || !s.active)) = true := hstop
    exact ⟨b, rfl, _, Tables.get?_put_self, by rw [hplan]; simp [StoredResource.stopped]⟩
  · intro hstop
    have hplan : (r.active && (changed || !s.active)) = false := hstop
    exact ⟨r, hr, by rw [hplan]; simp⟩
  obtain ⟨r₁, hr₁, hon₁⟩ := hu
  refine Lawful.bindIf (Q := On s.active) ?_ ?_ fun u hu => ?_
  · intro hstart
    obtain ⟨hdeclared, hoff⟩ := Bool.and_eq_true_iff.1 hstart
    have hactive : r₁.active = false := by
      rw [hon₁]
      revert hoff hdeclared
      cases r.active <;> cases changed <;> cases s.active <;> simp
    refine (Lawful.starts hr₁ .start hactive).mono ?_
    rintro a u ⟨b, rfl, rfl⟩
    exact ⟨b, rfl, _, Tables.get?_put_self, hdeclared.symm⟩
  · intro hstart
    have hplan : (s.active && (!r.active || (r.active && (changed || !s.active)))) = false := hstart
    refine ⟨r₁, hr₁, ?_⟩
    rw [hon₁]
    revert hplan
    cases s.active <;> cases r.active <;> cases changed <;> simp
  obtain ⟨r₂, hr₂, hon₂⟩ := hu
  refine Lawful.bindIf (Q := On s.active) ?_ (fun _ => ⟨r₂, hr₂, hon₂⟩) fun u hu => ?_
  · intro _
    refine (Lawful.setsAutostart hr₂ .autostart s.autostart).mono ?_
    rintro a u ⟨b, rfl, rfl⟩
    exact ⟨b, rfl, _, Tables.get?_put_self, hon₂⟩
  · exact .pure ⟨⟨_, rfl, outcome_result_ne s _⟩, hu⟩

/-- Behind the storing of its document a resource is looked at, and then its plan is carried out. -/
theorem lawful_finish (hk : s.kind ≠ .domain) (hr : t.get? s.kind s.name = some r) (exists_ changed : Bool)
    (hnew : exists_ = false → r.active = false) : Lawful polls s.Settles (s.finish false exists_ changed).run t := by
  have hreadable : ∀ running : Bool, (s.active && (running || !false)) = s.active := by simp
  unfold finish
  cases exists_ with
  | false =>
    refine Lawful.andNext (Q := fun b u => b = false ∧ u = t) (.pure ⟨false, rfl, rfl, rfl⟩) ?_
    rintro _ u ⟨rfl, rfl⟩
    refine Lawful.andNext (Q := fun b v => b = false ∧ v = u) (.pure ⟨false, rfl, rfl, rfl⟩) ?_
    rintro _ v ⟨rfl, rfl⟩
    simp only [hreadable]
    exact s.lawful_carry hk hr (hnew rfl) false changed false
  | true =>
    refine Lawful.andNext (Lawful.looks hr .read) ?_
    rintro _ u ⟨rfl, rfl⟩
    have hseen : (t.put s.kind s.name r.seen).get? s.kind s.name = some r.seen := Tables.get?_put_self
    have hallow : (t.put s.kind s.name r.seen).Allows (.isAutostart s.kind s.name) :=
      Option.isSome_iff_exists.2 ⟨_, hseen⟩
    refine Lawful.andNext (Lawful.attempt_admitted hseen hallow Work.admits_isAutostart) ?_
    rintro autostart u ⟨-, rfl⟩
    simp only [hreadable]
    exact s.lawful_carry hk Tables.get?_put_self rfl true changed autostart

/-- **The work on a network or a pool is lawful** if it is told rightly whether the resource is there. -/
theorem lawful_sync (hk : s.kind ≠ .domain) (htext : s.text = .ok text) (hname : nameInDocument text = s.name)
    {there : Bool} (hthere : (t.get? s.kind s.name).isSome = there) :
    Lawful polls s.Settles (s.sync false there).run t := by
  -- a new resource is defined in any case, and one that is there if its document does not match
  have hstore : ∀ changed, (there = false → changed = true) → Lawful polls s.Settles (do
      if changed then Work.change false .define (.define s.kind text)
      s.finish false there changed : Work _).run t := by
    intro changed hnew
    refine Lawful.bindIf (Q := fun u => ∃ r, u.get? s.kind s.name = some r ∧ (there = false → r.active = false))
      ?_ ?_ fun u ⟨r, hr, hoff⟩ => s.lawful_finish hk hr there changed hoff
    · intro _
      refine (Lawful.define hname .define).mono ?_
      rintro a u ⟨b, rfl, r, hr, hactive, -⟩
      refine ⟨b, rfl, r, hr, fun h => ?_⟩
      rw [hactive]
      rw [h, Option.isSome_eq_false_iff, Option.isNone_iff_eq_none] at hthere
      rw [hthere]
      rfl
    · intro hchanged
      cases hold : t.get? s.kind s.name with
      | none =>
        rw [hold] at hthere
        exact absurd (hnew hthere.symm) (by simp [hchanged])
      | some r =>
        rw [hold] at hthere
        exact ⟨r, rfl, fun h => absurd (hthere.trans h) (by simp)⟩
  rw [sync_eq, htext]
  refine Lawful.andNext (Q := fun b u => b = text ∧ u = t) (.pure ⟨text, rfl, rfl, rfl⟩) ?_
  rintro _ u ⟨rfl, rfl⟩
  cases there with
  | false =>
    refine Lawful.andNext (Q := fun b v => b = true ∧ v = u) (.pure ⟨true, rfl, rfl, rfl⟩) ?_
    rintro _ v ⟨rfl, rfl⟩
    exact hstore true fun _ => rfl
  | true =>
    obtain ⟨r, hr⟩ := Option.isSome_iff_exists.1 hthere
    refine Lawful.andNext (Lawful.reads hr .read) ?_
    rintro stored v ⟨-, rfl⟩
    refine Lawful.andNext (Q := fun _ u => u = v) (.pure ⟨_, rfl, rfl⟩) ?_
    rintro changed _ rfl
    exact hstore changed fun h => absurd h (by simp)

end Started

/-! ### Volumes -/

namespace VolumeEntry

variable {e : VolumeEntry} {pool : String} {polls : Table Int} {t : Tables} {r : StoredResource}

/-- What work on a volume comes to: it ends well, and nothing else in the pool has changed. -/
def Settles (e : VolumeEntry) (pool : String) (r : StoredResource) (a : Except Trouble Result) (u : Tables) : Prop :=
  EndsWell id a ∧ ∃ r', u.get? .pool pool = some r' ∧ r.AgreeBut [e.name] r'

theorem Settles.same (hr : t.get? .pool pool = some r) {a : Except Trouble Result} (h : EndsWell id a) :
    e.Settles pool r a t := ⟨h, r, hr, .refl _ r⟩

theorem endsWell_done (details : List String) {outcome : Outcome} (h : outcome ≠ .failed) :
    EndsWell id (.ok (e.done pool outcome details)) := .ok h

/-- A size stands in a text, or it cannot be written. -/
theorem lawful_stating {sizes : List Nat} {text : String} {β : Type} {g : String → Work β}
    {R : Except Trouble β → Tables → Prop} (hok : ∀ text, Lawful polls R (g text).run t)
    (herror : R (.error (.unwritable .number)) t) : Lawful polls R (Work.stating sizes text >>= g).run t := by
  rcases stating_cases sizes text with ⟨h, -⟩ | h
  · rw [h, pure_bind]
    exact hok text
  · rw [h]
    show Lawful polls R (Pure.pure (.error (.unwritable .number))) t
    exact .pure herror

/-- **What the document of a volume leads to is lawful**: an excuse, nothing, or another size. -/
theorem lawful_weigh (hr : t.get? .pool pool = some r) (hactive : r.active = true) {s : StoredVolume}
    (hs : r.volumes.get? e.name = some s) (v : Volume) (document : String) :
    Lawful polls (e.Settles pool r) (e.weigh false pool v document).run t := by
  have hexcused : ∀ {x : Trouble}, x.IsExcused → e.Settles pool r (.error x) t := fun h => .same hr (.error h)
  unfold weigh parsed
  cases hread : Element.read? document with
  | none => exact .pure (hexcused (.inr rfl))
  | some x =>
    simp only [pure_bind]
    by_cases hformat : x.volumeFormat?.getD v.format = v.format
    · simp only [ne_eq, hformat, not_true_eq_false, if_false]
      cases hcapacity : x.volumeCapacity? with
      | none => exact .pure (.same hr (endsWell_done [] nofun))
      | some size =>
        by_cases hsize : size = v.capacity.toBytes
        · simp only [if_pos hsize]
          exact .pure (.same hr (endsWell_done [] nofun))
        · simp only [if_neg hsize]
          by_cases hless : v.capacity.toBytes < size
          · -- it would have to be shrunk
            simp only [if_pos hless]
            exact lawful_stating (fun text => .pure (hexcused (.inl rfl))) (hexcused trivial)
          · -- it is grown
            simp only [if_neg hless]
            have hallow : t.Allows (.resizeVolume pool e.name v.capacity.toBytes) :=
              ⟨r, hr, hactive, Option.isSome_iff_exists.2 ⟨s, hs⟩⟩
            refine Lawful.andNext (Lawful.change_admitted hr hallow (Work.admits_resizeVolume hactive hs _)) ?_
            rintro _ u rfl
            have hgrown : ∀ {a : Except Trouble Result}, EndsWell id a → e.Settles pool r a (t.put .pool pool
                { r with volumes := r.volumes.put e.name (s.resized v.capacity.toBytes) }) :=
              fun h => ⟨h, _, Tables.get?_put_self, .put _ _ _⟩
            exact lawful_stating (fun text => .pure (hgrown (endsWell_done _ nofun))) (hgrown (.error trivial))
    · simp only [ne_eq, hformat, not_false_eq_true, if_true]
      exact .pure (hexcused (.inl rfl))

/-- **The work on a volume of an active pool is lawful** if it is told rightly whether the volume is there. -/
theorem lawful_sync (he : e.IsSound) (hr : t.get? .pool pool = some r) (hactive : r.active = true) :
    Lawful polls (e.Settles pool r) (e.sync false pool (r.volumes.get? e.name).isSome).run t := by
  cases hp : e.present with
  | false =>
    rw [sync, hp]
    cases hs : r.volumes.get? e.name with
    | none => exact .pure (.same hr (endsWell_done [] (by decide)))
    | some s =>
      have hallow : t.Allows (.deleteVolume pool e.name) := ⟨r, hr, hactive, Option.isSome_iff_exists.2 ⟨s, hs⟩⟩
      refine Lawful.andNext (Lawful.change_admitted hr hallow (Work.admits_deleteVolume hactive hs)) ?_
      rintro _ u rfl
      exact .pure ⟨endsWell_done [] (by decide), _, Tables.get?_put_self, .erase _ _⟩
  | true =>
    obtain ⟨v, hv, hname, hplain⟩ := he hp
    rw [sync, hp, hv]
    cases hs : r.volumes.get? e.name with
    | some s =>
      show Lawful polls _ (e.adjust false pool v).run t
      rw [adjust_eq]
      have hallow : t.Allows (.readVolume pool e.name) := ⟨r, hr, hactive, Option.isSome_iff_exists.2 ⟨s, hs⟩⟩
      refine Lawful.andNext (Lawful.attempt_admitted hr hallow (Work.admits_readVolume hactive hs)) ?_
      rintro document u ⟨-, rfl⟩
      rw [Tables.put_self hr]
      exact lawful_weigh hr hactive hs v document
    | none =>
      have hwritten := Volume.written_eq hplain
      cases hwritable : Text.isWritable v.capacity.toBytes with
      | false =>
        rw [hwritable] at hwritten
        show Lawful polls _ (Work.writing v.written >>= _ : Work Result).run t
        rw [hwritten]
        exact .pure (.same hr (.error trivial))
      | true =>
        rw [hwritable] at hwritten
        have hread := (Volume.legible hplain).read?_print
        have hnamed := (Volume.nameInDocument_written hplain).trans hname
        -- the volume is not there, as the work was told
        have hallow : t.Allows (.createVolume pool v.document.print) :=
          ⟨r, hr, hactive, Option.isSome_iff_exists.2 ⟨_, hread⟩, by rw [hnamed, hs]⟩
        show Lawful polls _ (Work.writing v.written >>= _ : Work Result).run t
        rw [hwritten]
        refine Lawful.andNext (Q := fun text u => text = v.document.print ∧ u = t) (.pure ⟨_, rfl, rfl, rfl⟩) ?_
        rintro _ _ ⟨rfl, rfl⟩
        refine Lawful.andNext (Lawful.change_admitted hr hallow (Work.admits_createVolume hactive hread hnamed)) ?_
        rintro _ u rfl
        exact .pure ⟨endsWell_done [] (by decide), _, Tables.get?_put_self, .put _ _ _⟩

end VolumeEntry

/-! ### Tasks for networks and pools -/

theorem Network.lawful_task {n : Network} (h : Text.ArePlain n.texts) {polls : Table Int} {t : Tables} {there : Bool}
    (hthere : (t.get? .network n.name).isSome = there) :
    Lawful polls (fun r _ => r.All Result.IsExcused) (n.task false there) t := by
  refine Lawful.recorded ?_
  rw [map_eq_pure_bind]
  refine Lawful.andThen (n.started.lawful_sync (by simp) (n.started_text h)
    (n.nameInDocument_of_started h (n.started_text h)) hthere) ?_ ?_
  · rintro x u ⟨⟨y, hy, houtcome⟩, -⟩
    obtain rfl := Except.ok.inj hy
    exact .pure (.ok houtcome)
  · rintro e u ⟨⟨y, hy, -⟩, -⟩
    exact absurd hy (by simp)

namespace Pool

variable {p : Pool} {polls : Table Int} {t : Tables} {r : StoredResource}

/-- **The work on the volumes of an active pool is lawful**, one behind the other. -/
theorem lawful_syncVolumes {es : List VolumeEntry} (hsound : ∀ e ∈ es, e.IsSound) (hnames : (es.map (·.name)).Nodup)
    {there : List String} (hr : t.get? .pool p.name = some r) (hactive : r.active = true)
    (hthere : ∀ e ∈ es, there.contains e.name = (r.volumes.get? e.name).isSome) :
    Lawful polls (fun rs _ => rs.All Result.IsExcused) (p.syncVolumes false there es) t := by
  induction es generalizing r t with
  | nil => exact .pure ((Recorded.all_ok_iff _).2 (by simp))
  | cons e es ih =>
    have hvolume : Lawful polls (e.Settles p.name r) (e.sync false p.name (there.contains e.name)).run t := by
      rw [hthere e (by simp)]
      exact e.lawful_sync (hsound e (by simp)) hr hactive
    refine Lawful.bind (Lawful.supervise (Q := fun ending u => ending.recorded.All Result.IsExcused ∧
      ∃ r', u.get? .pool p.name = some r' ∧ r.AgreeBut [e.name] r') ?_ ?_) ?_
    · refine ⟨(Recorded.all_ok_iff _).2 ?_, r, hr, .refl _ r⟩
      exact List.forall_mem_singleton.2 (Result.isExcused_of_ne nofun)
    · exact hvolume.mono fun a u h => ⟨h.1.recorded _ _, h.2⟩
    · rintro ending u ⟨hall, r', hr', hagree⟩
      generalize ending.recorded = recorded at hall ⊢
      cases recorded with
      | error why => exact .pure fun rs hrs => absurd hrs (by simp)
      | ok rs =>
        -- the entries behind this one are about other volumes
        have hfresh := List.nodup_cons.1 hnames
        refine Lawful.bind (ih (fun e' he' => hsound e' (by simp [he'])) hfresh.2 hr' (hagree.active.trans hactive)
          fun e' he' => ?_) fun rs' u hall' => .pure ((Recorded.All.append hall hall'))
        have hother : e'.name ∉ [e.name] := fun h =>
          hfresh.1 (List.mem_map.2 ⟨e', he', List.mem_singleton.1 h⟩)
        rw [hagree.others e'.name hother]
        exact hthere e' (by simp [he'])

/-- So is the work on what a pool holds. -/
theorem lawful_syncContents (hp : p.IsSound) (hr : t.get? .pool p.name = some r) (hactive : r.active = p.active) :
    Lawful polls (fun rs _ => rs.All Result.IsExcused) (p.syncContents false p.active) t := by
  unfold syncContents
  split
  · exact .pure ((Recorded.all_ok_iff _).2 (by simp))
  · next hsome =>
    have hon : p.active = true := hp.active (by simpa using hsome)
    have hruns : r.active = true := hactive.trans hon
    rw [if_pos hon]
    have hallow : t.Allows (.listVolumes p.name) := ⟨r, hr, hruns, trivial⟩
    refine Lawful.bind (Lawful.call (Q := fun reply u => reply = .ok (r.volumes.names.mergeSort fun a b =>
      decide (a ≤ b)) ∧ u = t) hallow fun a u hserve => ?_) ?_
    · rw [Work.admits_listVolumes hruns t hr, Tables.put_self hr] at hserve
      obtain ⟨rfl, rfl⟩ := Prod.mk.inj (Except.ok.inj hserve)
      exact ⟨rfl, rfl⟩
    · rintro reply u ⟨rfl, rfl⟩
      refine lawful_syncVolumes hp.sound hp.names hr hruns fun e _ => ?_
      rw [Bool.eq_iff_iff, List.contains_iff_mem, List.mem_mergeSort, Table.mem_names_iff]

/-- **The task for a pool is lawful**: when its volumes are seen to, the pool is active. -/
theorem lawful_task (hp : p.IsSound) {there : Bool} (hthere : (t.get? .pool p.name).isSome = there) :
    Lawful polls (fun r _ => r.All Result.IsExcused) (p.task false there) t := by
  have hsync : Lawful polls p.started.Settles (p.started.sync false there).run t :=
    p.started.lawful_sync (by simp) (p.started_text hp) (p.nameInDocument_of_started hp (p.started_text hp)) hthere
  refine Lawful.bind (Lawful.supervise (Q := fun ending u => ending = .cancelled (.cancelled .pool p.name) ∨
    ∃ x, ending = .finished (x, p.active) ∧ x.outcome ≠ .failed ∧
      ∃ r, u.get? .pool p.name = some r ∧ r.active = p.active) (.inl rfl) (hsync.mono ?_)) ?_
  · rintro a u ⟨⟨x, rfl, hx⟩, r, hr, hactive⟩
    exact .inr ⟨x, rfl, hx, r, hr, hactive⟩
  · rintro ending u (rfl | ⟨x, rfl, hx, r, hr, hactive⟩)
    · refine .pure ((Recorded.all_ok_iff _).2 fun x hx => Result.isExcused_of_ne ?_)
      rcases List.mem_cons.1 hx with rfl | hx
      · exact nofun
      · obtain ⟨e, -, rfl⟩ := List.mem_map.1 hx
        exact nofun
    · refine Lawful.bind (lawful_syncContents hp hr hactive) fun rs u hall => .pure ?_
      have hone : Recorded.All Result.IsExcused (.ok [x]) :=
        (Recorded.all_ok_iff _).2 (List.forall_mem_singleton.2 (Result.isExcused_of_ne hx))
      exact hone.append hall

end Pool

/-! ### Domains -/

namespace Domain

variable {x : Domain} {polls : Table Int} {t : Tables} {r : StoredResource} {name text : String}

/-- **While a domain is waited for** it is only looked at. In the end it is off or on as told: the last look saw it
so. -/
theorem lawful_awaitOff (deadline : Binary64) {looks : Nat} (hr : t.get? .domain name = some r)
    (hlooks : looks = 0 → r.active = true) :
    Lawful polls (fun a u => ∃ off, a = .ok off ∧ ∃ r', u.get? .domain name = some r' ∧ r'.active = !off)
      (awaitOff name deadline looks).run t := by
  induction looks generalizing r t with
  | zero => exact .pure ⟨false, rfl, r, hr, hlooks rfl⟩
  | succ looks ih =>
    refine Lawful.andNext (Lawful.looks hr .stop) ?_
    rintro on u ⟨hon, rfl⟩
    have hseen : (t.put .domain name r.seen).get? .domain name = some r.seen := Tables.get?_put_self
    split
    · next h =>
      have hactive : r.seen.active = true := hon.symm.trans h
      refine Lawful.andNext (Q := fun _ u => u = t.put .domain name r.seen) Lawful.now ?_
      rintro now u rfl
      dsimp only
      split
      · exact .pure ⟨false, rfl, r.seen, hseen, hactive⟩
      · refine Lawful.andNext (Q := fun _ u => u = t.put .domain name r.seen) (Lawful.sleep _) ?_
        rintro _ u rfl
        exact ih hseen fun _ => hactive
    · next h =>
      exact .pure ⟨true, rfl, r.seen, hseen, by rw [← hon]; simpa using h⟩

/-- **A restart is lawful** for a domain that runs: it is asked to shut down, turned off by force if it is still seen
on, and started when it is off. -/
theorem lawful_restartNow (timeout : Binary64) (hr : t.get? .domain name = some r) (hon : r.active = true) :
    Lawful polls (fun a _ => ∃ told, a = .ok told) (restartNow false timeout name).run t := by
  refine Lawful.andNext (Lawful.asks hr hon .stop) ?_
  rintro _ u rfl
  have hwait : Lawful polls (fun a u => ∃ off, a = .ok off ∧
      ∃ r', u.get? .domain name = some r' ∧ r'.active = !off) (waitForShutdown name timeout).run
      (t.put .domain name (r.asked ((polls.get? name).getD 0))) := by
    refine Lawful.andNext (Q := fun _ u => u = t.put .domain name (r.asked ((polls.get? name).getD 0))) Lawful.now ?_
    rintro now u rfl
    exact lawful_awaitOff _ Tables.get?_put_self fun h => absurd h (by simp)
  refine Lawful.andNext hwait ?_
  rintro off u ⟨r', hr', hactive⟩
  refine Lawful.bindIf (Q := fun u => ∃ r', u.get? .domain name = some r' ∧ r'.active = false) ?_ ?_ ?_
  · intro hoff
    refine (Lawful.forces hr' (hactive.trans hoff) .stop).mono ?_
    rintro a u ⟨b, rfl, rfl⟩
    exact ⟨b, rfl, _, Tables.get?_put_self, rfl⟩
  · intro hoff
    exact ⟨r', hr', hactive.trans hoff⟩
  · rintro u ⟨r', hr', hoff⟩
    exact (Lawful.starts hr' .start hoff).andNext fun _ _ _ => .pure ⟨_, rfl⟩

/-- **Seeing to the power of a domain is lawful** if it was seen as it is, or need not be known. -/
theorem lawful_power (timeout : Binary64) (outcome : Outcome) {running : Bool} (hr : t.get? .domain x.name = some r)
    (hknown : x.active.isSome = true → running = r.active) (hrunning : running = true → r.active = true) :
    Lawful polls (fun a _ => ∃ said, a = .ok said) (x.power false timeout outcome running).run t := by
  unfold power
  split
  · next h =>
    have hoff : r.active = false := by
      rw [← hknown (by rw [h.1]; rfl)]
      simpa using h.2
    exact (Lawful.starts hr .start hoff).andNext fun _ _ _ => .pure ⟨_, rfl⟩
  split
  · next h => exact (Lawful.asks hr (hrunning h.2) .stop).andNext fun _ _ _ => .pure ⟨_, rfl⟩
  split
  · next h =>
    have hon := hrunning (Bool.and_eq_true_iff.1 h).1
    exact ((lawful_restartNow timeout hr hon).mono fun a _ ⟨told, ha⟩ => ⟨told, ha, trivial⟩).andNext
      (Q := fun _ _ => True) fun _ _ _ => .pure ⟨_, rfl⟩
  split
  · exact .pure ⟨_, rfl⟩
  · exact .pure ⟨_, rfl⟩

theorem finalOutcome_ne {outcome : Outcome} (h : outcome ≠ .failed) (details : List String) :
    finalOutcome outcome details ≠ .failed := by
  unfold finalOutcome
  split
  · exact nofun
  · exact h

/-- Behind the storing of its document a domain is looked at if that matters, and its power is seen to. -/
theorem lawful_finish (timeout : Binary64) {exists_ : Bool} {outcome : Outcome} (houtcome : outcome ≠ .failed)
    (changes : List String) (hr : t.get? .domain x.name = some r) (hnew : exists_ = false → r.active = false) :
    Lawful polls (fun a _ => EndsWell id a) (x.finish false timeout exists_ outcome changes).run t := by
  have hpower : ∀ {u : Tables} {r' : StoredResource} {running : Bool}, u.get? .domain x.name = some r' →
      (x.active.isSome = true → running = r'.active) → (running = true → r'.active = true) →
      Lawful polls (fun a _ => EndsWell id a) (do
        let details := changes ++ (← x.power false timeout outcome running)
        return { kind := .domain, name := x.name, outcome := finalOutcome outcome details, details } :
          Work Result).run u := by
    intro u r' running hr' hknown hrunning
    refine ((lawful_power timeout outcome hr' hknown hrunning).mono fun a _ ⟨said, ha⟩ => ⟨said, ha, trivial⟩).andNext
      (Q := fun _ _ => True) fun said u _ => .pure (.ok (finalOutcome_ne houtcome _))
  unfold finish
  dsimp only
  split
  · refine Lawful.andNext (Lawful.looks hr .read) ?_
    rintro running u ⟨rfl, rfl⟩
    exact hpower Tables.get?_put_self (fun _ => rfl) id
  · next hlook =>
    refine Lawful.andNext (Q := fun running u => running = false ∧ u = t) (.pure ⟨false, rfl, rfl, rfl⟩) ?_
    rintro _ u ⟨rfl, rfl⟩
    refine hpower hr (fun hsome => ?_) fun h => absurd h (by simp)
    cases exists_ with
    | false => exact (hnew rfl).symm
    | true => exact absurd hlook (by simp [hsome])

/-- **Storing the document of a domain is lawful** if it is told rightly whether the domain is there; a new one is off
behind it. -/
theorem lawful_store (hname : ∀ text, x.written = .ok text → nameInDocument text = x.name) {there : Bool}
    (hthere : (t.get? .domain x.name).isSome = there) :
    Lawful polls (fun a u => (∀ e, a = .error e → e.IsExcused) ∧ ∀ stored, a = .ok stored → stored.1 ≠ .failed ∧
        ∃ r, u.get? .domain x.name = some r ∧ (there = false → r.active = false))
      (x.store false there).run t := by
  unfold store
  cases hwritten : x.written with
  | error why => exact .pure ⟨fun e he => by rw [← Except.error.inj he]; trivial, fun _ h => absurd h (by simp)⟩
  | ok text =>
  have hended : ∀ {stored : Outcome × List String} {u : Tables} {r : StoredResource}, stored.1 ≠ .failed →
      u.get? .domain x.name = some r → (there = false → r.active = false) →
      Lawful polls (fun a u => (∀ e, a = .error e → e.IsExcused) ∧ ∀ stored, a = .ok stored → stored.1 ≠ .failed ∧
        ∃ r, u.get? .domain x.name = some r ∧ (there = false → r.active = false))
        (Pure.pure stored : Work (Outcome × List String)).run u := by
    intro stored u r houtcome hr hoff
    refine .pure ⟨fun e he => absurd he (by simp), fun stored' h => ?_⟩
    rw [← Except.ok.inj h]
    exact ⟨houtcome, r, hr, hoff⟩
  refine Lawful.andNext (Q := fun b u => b = text ∧ u = t) (.pure ⟨text, rfl, rfl, rfl⟩) ?_
  rintro text u ⟨rfl, rfl⟩
  have hdefine : Lawful polls (fun a v => ∃ b, a = .ok b ∧ ∃ r, v.get? .domain x.name = some r ∧
      r.active = (u.get? .domain x.name).any (·.active) ∧
      r.volumes = ((u.get? .domain x.name).map (·.volumes)).getD [])
      (Work.change false .define (.define .domain text)).run u := Lawful.define (hname _ hwritten) .define
  -- a new domain is defined at once; of one that is there the document is read first
  cases there with
  | false =>
    rw [Option.isSome_eq_false_iff, Option.isNone_iff_eq_none] at hthere
    refine Lawful.andNext hdefine ?_
    rintro _ v ⟨r, hr, hactive, -⟩
    refine hended nofun hr fun _ => ?_
    rw [hactive, hthere]
    rfl
  | true =>
    obtain ⟨r, hr⟩ := Option.isSome_iff_exists.1 hthere
    refine Lawful.andNext (Lawful.reads hr .read) ?_
    rintro stored _ ⟨-, rfl⟩
    split
    · exact hended nofun hr fun h => absurd h (by simp)
    · refine Lawful.andNext hdefine ?_
      rintro _ v ⟨r', hr', -⟩
      exact hended nofun hr' fun h => absurd h (by simp)

/-- **The work on a domain is lawful** if it is told rightly whether the domain is there. -/
theorem lawful_sync (hname : ∀ text, x.written = .ok text → nameInDocument text = x.name) (timeout : Binary64)
    {there : Bool} (hthere : (t.get? .domain x.name).isSome = there) :
    Lawful polls (fun a _ => EndsWell id a) (x.sync false timeout there).run t := by
  rw [sync_eq]
  refine Lawful.andThen (lawful_store hname hthere) ?_ fun e u h => .error (h.1 e rfl)
  rintro stored u ⟨-, hstored⟩
  obtain ⟨houtcome, r, hr, hoff⟩ := hstored stored rfl
  exact lawful_finish timeout houtcome stored.2 hr hoff

/-- **The task for a domain is lawful**: a domain that depends on something that failed is excused. -/
theorem lawful_task (h : Text.ArePlain x.texts) (timeout : Binary64) (before : List Result) {there : Bool}
    (hthere : (t.get? .domain x.name).isSome = there) :
    Lawful polls (fun r _ => r.All Result.IsExcused) (x.task false timeout before there) t := by
  unfold task
  dsimp only
  split
  · exact Lawful.recorded (lawful_sync (fun _ => nameInDocument_of_written h) timeout hthere)
  · refine .pure ((Recorded.all_ok_iff _).2 (List.forall_mem_singleton.2 fun _ => ?_))
    exact .inr (.inl rfl)

/-- **A domain that is there can be removed.** -/
theorem lawful_removal (hthere : (t.get? .domain name).isSome = true) :
    Lawful polls (fun r _ => r.All Result.IsExcused) (removal false name) t := by
  obtain ⟨r, hr⟩ := Option.isSome_iff_exists.1 hthere
  rw [removal_eq]
  refine Lawful.recorded (Lawful.andNext (Lawful.looks hr .read) ?_)
  rintro running u ⟨-, rfl⟩
  have hallow : (t.put .domain name r.seen).Allows (.undefine .domain name) :=
    Option.isSome_iff_exists.2 ⟨_, Tables.get?_put_self⟩
  refine Lawful.andNext (Lawful.change hallow) fun _ u _ => .pure (.ok nofun)

end Domain

/-! ### Tasks one after the other -/

section

variable {polls : Table Int} {t : Tables}

/-- **Tasks for different resources are lawful one behind the other**, if each is told rightly whether its resource is
there: the tasks before it leave the resource as it was. -/
theorem Talk.Lawful.gather {ι : Type} {task : ι → Talk Recorded} {place : ι → DefinedKind × String} {there : ι → Bool}
    {e : Recorded → Prop} {xs : List ι} (hdistinct : (xs.map place).Nodup)
    (habout : ∀ x ∈ xs, (task x).Confined (Query.CallsOnly (Call.IsAbout (place x).1 (place x).2)) e)
    (htask : ∀ x ∈ xs, ∀ t : Tables, (t.get? (place x).1 (place x).2).isSome = there x →
      Lawful polls (fun r _ => r.All Result.IsExcused) (task x) t)
    (ht : ∀ x ∈ xs, (t.get? (place x).1 (place x).2).isSome = there x) :
    Lawful polls (fun r u => r.All Result.IsExcused ∧ ∀ k name, (∀ x ∈ xs, place x ≠ (k, name)) →
      u.get? k name = t.get? k name) (VirtualTopology.gather (xs.map task)) t := by
  induction xs generalizing t with
  | nil => exact .pure ⟨(Recorded.all_ok_iff _).2 (by simp), fun _ _ _ => rfl⟩
  | cons x xs ih =>
    have hfresh := List.nodup_cons.1 hdistinct
    have hfirst := (htask x (by simp) t (ht x (by simp))).spares (habout x (by simp))
    refine Lawful.bind hfirst ?_
    rintro r u ⟨hall, -, hsame⟩
    have hspared : ∀ {k name}, place x ≠ (k, name) → u.get? k name = t.get? k name := fun hne =>
      hsame _ _ fun c hc => hc.spares hne
    refine Lawful.bind (ih (t := u) hfresh.2 (fun y hy => habout y (by simp [hy]))
      (fun y hy => htask y (by simp [hy])) fun y hy => ?_) ?_
    · have hne : place x ≠ ((place y).1, (place y).2) := fun h => hfresh.1 (List.mem_map.2 ⟨y, hy, h.symm⟩)
      rw [hspared hne]
      exact ht y (by simp [hy])
    · rintro rs v ⟨hall', hsame'⟩
      refine .pure ⟨hall.append hall', fun k name hne => ?_⟩
      rw [hsame' k name fun y hy => hne y (by simp [hy]), hspared (hne x (by simp))]

/-- A kind can always be listed. -/
theorem Talk.Lawful.list (k : DefinedKind) :
    Lawful polls (fun a u => a = .ok (t.sortedNames k) ∧ u = t) (Call.list k).ask t := by
  refine Lawful.call trivial fun a u hserve => ?_
  obtain ⟨rfl, rfl⟩ := Prod.mk.inj (Except.ok.inj hserve)
  exact ⟨rfl, rfl⟩

namespace Stock

variable {kind : DefinedKind} {managed : Bool}

theorem lawful_take (kind : DefinedKind) (managed : Bool) :
    Lawful polls (fun s u => s = inTables t kind managed ∧ u = t) (take kind managed) t := by
  refine Lawful.bind (.list kind) ?_
  rintro reply u ⟨rfl, rfl⟩
  cases managed <;> exact .pure ⟨rfl, rfl⟩

/-- **The tasks for the declared resources of a kind are lawful**, and leave everything else as it is. -/
theorem lawful_tasks {α : Type} {declared : List α} {name : α → String} {lost : α → List Result}
    {task : α → Bool → Talk Recorded} {e : Recorded → Prop} (hnames : (declared.map name).Nodup)
    (habout : ∀ a ∈ declared, ∀ there, (task a there).Confined (Query.CallsOnly (Call.IsAbout kind (name a))) e)
    (htask : ∀ a ∈ declared, ∀ (there : Bool) (t : Tables), (t.get? kind (name a)).isSome = there →
      Lawful polls (fun r _ => r.All Result.IsExcused) (task a there) t)
    {listed : Tables} (ht : ∀ a, t.get? kind (name a) = listed.get? kind (name a)) :
    Lawful polls (fun r u => r.All Result.IsExcused ∧ ∀ k other, (∀ a ∈ declared, (kind, name a) ≠ (k, other)) →
      u.get? k other = t.get? k other)
      (VirtualTopology.gather ((inTables listed kind managed).tasks kind declared name lost task)) t := by
  cases managed with
  | true =>
    show Lawful polls _
      (VirtualTopology.gather ((known (listed.sortedNames kind)).tasks kind declared name lost task)) t
    rw [tasks_known]
    refine Lawful.gather ?_ (fun a ha => habout a ha _) (fun a ha t ht => htask a ha _ t ht) fun a _ => by rw [ht]
    exact Stock.nodup_pairs hnames
  | false =>
    -- what is not managed is left alone
    refine Lawful.bind (Q := fun r u => r.All Result.IsExcused ∧ u = t) (.pure ⟨?_, rfl⟩) ?_
    · refine (Recorded.all_ok_iff _).2 fun x hx => Result.isExcused_of_ne ?_
      obtain ⟨name, -, rfl⟩ := List.mem_map.1 hx
      exact nofun
    · rintro r u ⟨hall, rfl⟩
      refine .pure ⟨hall.append ((Recorded.all_ok_iff _).2 (by simp)), fun _ _ _ => rfl⟩

end Stock

end

end VirtualTopology
