import VirtualTopology.Proofs.Host.Calm

/-!
# Hosts at rest

A host is at rest if none of its resources is on its way down (`Tables.AtRest`). A resource gets on its way
down only by a guest that takes its time when it is asked to shut down, and so a host whose guests shut down
at once or not at all (`Memory.IsPrompt`) stays at rest, whatever it is asked (`Memory.Quiet.run`).
-/

namespace VirtualTopology

/-- Whether no resource is on its way down. -/
def Tables.AtRest (t : Tables) : Prop := ∀ k name r, t.get? k name = some r → r.closing = none

/-- Whether each guest that is asked to shut down is off at once, or does not turn off at all. -/
def Memory.IsPrompt (m : Memory) : Prop := ∀ name, (m.polls.get? name).getD 0 ≤ 0

namespace StoredResource

variable {r : StoredResource}

theorem closing_asked (h : r.closing = none) {polls : Int} (hpolls : polls ≤ 0) :
    (r.asked polls).closing = none := by
  unfold asked
  split
  · exact h
  · rw [if_pos (by omega)]
    rfl

end StoredResource

namespace Tables

variable {t u : Tables} {k : DefinedKind} {name : String} {r : StoredResource} {polls : Table Int}

/-- The tables after a call that has been served: as they were, or with another entry for what the call goes
to, or without it. -/
inductive Becomes (polls : Table Int) (t : Tables) : Call → Tables → Prop where
  | still {c : Call} (still : c.isStill = true) : Becomes polls t c t
  | define (k : DefinedKind) (document : String) :
      Becomes polls t (.define k document) (t.define k (nameInDocument document) document)
  | undefine (k : DefinedKind) (name : String) : Becomes polls t (.undefine k name) (t.erase k name)
  | start {k : DefinedKind} {name : String} {r : StoredResource} (there : t.get? k name = some r) :
      Becomes polls t (.start k name) (t.put k name r.started)
  | stop {k : DefinedKind} {name : String} {force : Bool} {r : StoredResource}
      (there : t.get? k name = some r) (forced : k = .domain → force = true) :
      Becomes polls t (.stop k name force) (t.put k name r.stopped)
  | ask {name : String} {r : StoredResource} (there : t.get? .domain name = some r) :
      Becomes polls t (.stop .domain name false)
        (t.put .domain name (r.asked ((polls.get? name).getD 0)))
  | look {k : DefinedKind} {name : String} {r : StoredResource} (there : t.get? k name = some r) :
      Becomes polls t (.isActive k name) (t.put k name r.seen)
  | autostart {k : DefinedKind} {name : String} {r : StoredResource} (there : t.get? k name = some r)
      (autostart : Bool) :
      Becomes polls t (.setAutostart k name autostart) (t.put k name { r with autostart })
  | create {pool document : String} {r : StoredResource} {e : Element} (there : t.get? .pool pool = some r)
      (read : Element.read? document = some e) :
      Becomes polls t (.createVolume pool document)
        (t.putVolume pool r (nameInDocument document) (.ofDocument e))
  | delete {pool volume : String} {r : StoredResource} (there : t.get? .pool pool = some r) :
      Becomes polls t (.deleteVolume pool volume)
        (t.put .pool pool { r with volumes := r.volumes.erase volume })
  | resize {pool volume : String} {bytes : Int} {r : StoredResource} {v : StoredVolume}
      (there : t.get? .pool pool = some r) (stored : r.volumes.get? volume = some v) :
      Becomes polls t (.resizeVolume pool volume bytes) (t.putVolume pool r volume (v.resized bytes))

/-- **What a call does to the tables.** -/
theorem becomes_of_serve {c : Call} {a : c.Answer} (hs : t.serve polls c = .ok (a, u)) :
    t.Becomes polls c u := by
  -- calls that only read come first, and one case for each of the others
  cases c with
  | list l | read l n | isAutostart l n | listVolumes pool | readVolume pool n =>
    rw [eq_of_isStill hs rfl]
    exact .still rfl
  | define l document =>
    obtain ⟨-, rfl⟩ := Prod.mk.inj (Except.ok.inj hs)
    exact .define l document
  | undefine l n =>
    obtain ⟨s, -, hs⟩ := exists_of_bind_eq_ok hs
    obtain ⟨-, rfl⟩ := Prod.mk.inj (Except.ok.inj hs)
    exact .undefine l n
  | start l n =>
    obtain ⟨s, hfind, hs⟩ := exists_of_bind_eq_ok hs
    obtain ⟨-, rfl⟩ := Prod.mk.inj (Except.ok.inj hs)
    exact .start (get?_of_find hfind)
  | stop l n force =>
    obtain ⟨s, hfind, hs⟩ := exists_of_bind_eq_ok hs
    obtain ⟨-, rfl⟩ := Prod.mk.inj (Except.ok.inj hs)
    have hthere := get?_of_find hfind
    cases l with
    | network => exact .stop hthere fun h => absurd h (by simp)
    | pool => exact .stop hthere fun h => absurd h (by simp)
    | domain =>
      cases force with
      | true => exact .stop hthere fun _ => rfl
      | false => exact .ask hthere
  | isActive l n =>
    obtain ⟨s, hfind, hs⟩ := exists_of_bind_eq_ok hs
    obtain ⟨-, rfl⟩ := Prod.mk.inj (Except.ok.inj hs)
    exact .look (get?_of_find hfind)
  | setAutostart l n autostart =>
    obtain ⟨s, hfind, hs⟩ := exists_of_bind_eq_ok hs
    obtain ⟨-, rfl⟩ := Prod.mk.inj (Except.ok.inj hs)
    exact .autostart (get?_of_find hfind) autostart
  | createVolume pool document =>
    obtain ⟨s, hfind, hs⟩ := exists_of_bind_eq_ok hs
    split at hs
    · exact absurd hs (by simp [throw, throwThe, MonadExceptOf.throw])
    · next e he =>
      obtain ⟨-, rfl⟩ := Prod.mk.inj (Except.ok.inj hs)
      have hnamed : (e.resourceName?).getD "" = nameInDocument document := by
        rw [nameInDocument, he]
        rfl
      rw [hnamed]
      exact .create (get?_of_activePool hfind).1 he
  | deleteVolume pool n =>
    obtain ⟨s, hfind, hs⟩ := exists_of_bind_eq_ok hs
    obtain ⟨v, -, hs⟩ := exists_of_bind_eq_ok hs
    obtain ⟨-, rfl⟩ := Prod.mk.inj (Except.ok.inj hs)
    exact .delete (get?_of_activePool hfind).1
  | resizeVolume pool n bytes =>
    obtain ⟨s, hfind, hs⟩ := exists_of_bind_eq_ok hs
    obtain ⟨v, hv, hs⟩ := exists_of_bind_eq_ok hs
    obtain ⟨-, rfl⟩ := Prod.mk.inj (Except.ok.inj hs)
    refine .resize (get?_of_activePool hfind).1 ?_
    unfold findVolume at hv
    split at hv
    · next v' hv' => rw [hv', Except.ok.inj hv]
    · exact absurd hv (by simp)

/-- **A resource that is there is taken away only by the call that does that.** -/
theorem isSome_becomes {c : Call} (h : (t.get? k name).isSome = true) (hc : c ≠ .undefine k name)
    (hb : t.Becomes polls c u) : (u.get? k name).isSome = true := by
  have hput : ∀ (l : DefinedKind) (other : String) (s : StoredResource),
      ((t.put l other s).get? k name).isSome = true := by
    intro l other s
    rw [get?_put]
    split
    · rfl
    · exact h
  cases hb with
  | still _ => exact h
  | undefine l other =>
    have hne : (l, other) ≠ (k, name) := by
      intro heq
      obtain ⟨rfl, rfl⟩ := Prod.mk.inj heq
      exact hc rfl
    rw [get?_erase_of_ne hne]
    exact h
  | define l document => exact hput _ _ _
  | start _ => exact hput _ _ _
  | stop _ _ => exact hput _ _ _
  | ask _ => exact hput _ _ _
  | look _ => exact hput _ _ _
  | autostart _ _ => exact hput _ _ _
  | create _ _ => exact hput _ _ _
  | delete _ => exact hput _ _ _
  | resize _ _ => exact hput _ _ _

/-- **What is not there comes to be there only if a document of its name is stored.** -/
theorem get?_becomes_eq_none {c : Call} (h : t.get? k name = none)
    (hc : ∀ document, c = .define k document → nameInDocument document ≠ name)
    (hb : t.Becomes polls c u) : u.get? k name = none := by
  have hput : ∀ {l : DefinedKind} {other : String} {r : StoredResource} (s : StoredResource),
      t.get? l other = some r → (t.put l other s).get? k name = none := by
    intro l other r s hr
    rw [get?_put_of_ne, h]
    intro heq
    obtain ⟨rfl, rfl⟩ := Prod.mk.inj heq
    exact absurd (h.symm.trans hr) (by simp)
  cases hb with
  | still _ => exact h
  | undefine l other => rw [get?_erase]; simp [h]
  | define l document =>
    refine (get?_put_of_ne fun heq => ?_).trans h
    obtain ⟨rfl, hname⟩ := Prod.mk.inj heq
    exact hc document rfl hname
  | start hr => exact hput _ hr
  | stop hr _ => exact hput _ hr
  | ask hr => exact hput _ hr
  | look hr => exact hput _ hr
  | autostart hr _ => exact hput _ hr
  | create hr _ => exact hput _ hr
  | delete hr => exact hput _ hr
  | resize hr _ => exact hput _ hr

/-! ### Resources that are not on their way down -/

/-- Whether a resource is not on its way down. -/
def RestsAt (t : Tables) (k : DefinedKind) (name : String) : Prop :=
  ∀ r, t.get? k name = some r → r.closing = none

/-- **A call leaves a resource at rest**, if its guest is prompt. -/
theorem RestsAt.becomes (h : t.RestsAt k name) (hpolls : k = .domain → (polls.get? name).getD 0 ≤ 0) {c : Call}
    (hc : t.Becomes polls c u) : u.RestsAt k name := by
  -- only what is put at the resource itself matters
  have hput : ∀ {l other s}, (k = l → name = other → s.closing = none) → (t.put l other s).RestsAt k name := by
    intro l other s hs r hr
    rw [get?_put] at hr
    split at hr
    · next heq =>
      rw [← Option.some.inj hr]
      exact hs heq.1.symm heq.2.symm
    · exact h r hr
  have hkeep : ∀ {l other r s}, t.get? l other = some r → s.closing = r.closing →
      (t.put l other s).RestsAt k name := by
    intro l other r s hr hs
    refine hput ?_
    rintro rfl rfl
    rw [hs]
    exact h r hr
  cases hc with
  | still _ => exact h
  | define l document =>
    refine hput ?_
    rintro rfl rfl
    cases hold : t.get? k (nameInDocument document) with
    | none => rfl
    | some s => exact h s hold
  | undefine l other =>
    intro r hr
    rw [get?_erase] at hr
    split at hr
    · exact absurd hr (by simp)
    · exact h r hr
  | start _ => exact hput fun _ _ => rfl
  | stop _ _ => exact hput fun _ _ => rfl
  | ask hthere =>
    refine hput ?_
    rintro rfl rfl
    exact StoredResource.closing_asked (h _ hthere) (hpolls rfl)
  | look hthere =>
    refine hput ?_
    rintro rfl rfl
    rw [StoredResource.seen_eq_self (h _ hthere)]
    exact h _ hthere
  | autostart hthere _ => exact hkeep hthere rfl
  | create hthere _ => exact hkeep hthere rfl
  | delete hthere => exact hkeep hthere rfl
  | resize hthere _ => exact hkeep hthere rfl

/-- A call leaves a host at rest, if its guests are prompt. -/
theorem AtRest.becomes (h : t.AtRest) (hpolls : ∀ n, (polls.get? n).getD 0 ≤ 0) {c : Call}
    (hc : t.Becomes polls c u) : u.AtRest :=
  fun k name => RestsAt.becomes (h k name) (fun _ => hpolls name) hc

end Tables

namespace Memory

variable {m n : Memory}

/-- A resource that is there is taken away only by the query that does that. -/
theorem isSome_answer {k : DefinedKind} {name : String} {q : Query}
    (h : (m.tables.get? k name).isSome = true) (hq : q.CallsOnly (· ≠ .undefine k name)) :
    ((m.answer q).2.tables.get? k name).isSome = true := by
  cases q with
  | call c =>
    show ((m.call c).2.tables.get? k name).isSome = true
    rcases tables_call m c with heq | ⟨a, ha⟩
    · rw [heq]
      exact h
    · exact Tables.isSome_becomes h hq (Tables.becomes_of_serve ha)
  | cancelled => exact h
  | now => exact h
  | sleep _ => exact h

/-- What is not there comes to be there only if a document of its name is stored. -/
theorem get?_answer_eq_none {k : DefinedKind} {name : String} {q : Query}
    (h : m.tables.get? k name = none)
    (hq : q.CallsOnly fun c => ∀ document, c = .define k document → nameInDocument document ≠ name) :
    (m.answer q).2.tables.get? k name = none := by
  cases q with
  | call c =>
    show (m.call c).2.tables.get? k name = none
    rcases tables_call m c with heq | ⟨a, ha⟩
    · rw [heq]
      exact h
    · exact Tables.get?_becomes_eq_none h hq (Tables.becomes_of_serve ha)
  | cancelled => exact h
  | now => exact h
  | sleep _ => exact h

/-- A host at rest whose guests are prompt. -/
structure Quiet (m : Memory) : Prop where
  rest : m.tables.AtRest
  prompt : m.IsPrompt

theorem Quiet.answer (h : m.Quiet) (q : Query) : (m.answer q).2.Quiet := by
  refine ⟨?_, ?_⟩
  · cases q with
    | call c =>
      rcases tables_call m c with heq | ⟨a, ha⟩
      · exact heq ▸ h.rest
      · exact h.rest.becomes h.prompt (Tables.becomes_of_serve ha)
    | cancelled => exact h.rest
    | now => exact h.rest
    | sleep _ => exact h.rest
  · rw [IsPrompt, polls_answer]
    exact h.prompt

/-- **A host with prompt guests stays at rest.** -/
theorem Quiet.run {α : Type} (h : m.Quiet) (d : Talk α) : (m.run d).2.Quiet :=
  Dialogue.run_invariant (fun _ q hs => hs.answer q) d h

end Memory

end VirtualTopology
