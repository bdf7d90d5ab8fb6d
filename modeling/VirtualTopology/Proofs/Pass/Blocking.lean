import VirtualTopology.Proofs.Pass.Removal

/-!
# What stands in the way of a removal

A document stands in the way of the removal of a network or a pool if it refers to the resource, and one that
cannot be read stands in the way of all (`Removal.Blocks`). A resource is blocked if the document of a domain
that remains stands in its way (`Removal.IsBlocked`). On a calm host a resource that is blocked stays and fails, and
every other one is deleted (`Removal.run_of_calm`), in a dry run as in a real one.
-/

namespace VirtualTopology

open Dialogue

namespace Removal

/-- Whether a document stands in the way of the removal of a resource. -/
def Blocks (document : String) (kind : DefinedKind) (name : String) : Prop :=
  ∀ e ∈ Element.read? document, (References.of "" e).uses kind name = true

/-- Whether a resource is blocked by one of the domains on a host that have not been removed. -/
def IsBlocked (t : Tables) (results : List Result) (kind : DefinedKind) (name : String) : Prop :=
  ∃ domain r, t.get? .domain domain = some r ∧ wasRemoved results domain = false ∧
    Blocks r.document kind name

/-- What is known of domains stands in the way of what they block: it is not known of all, or one of them
refers to the resource. -/
structure Knows (t : Tables) (results : List Result) (domains : List String)
    (reply : Except String (List References)) : Prop where
  unread : ∀ reason, reply = .error reason → ∀ kind name, ∃ domain ∈ domains, ∃ r,
    t.get? .domain domain = some r ∧ wasRemoved results domain = false ∧ Blocks r.document kind name
  read : ∀ refs, reply = .ok refs → ∀ kind name, refs.any (·.uses kind name) = true ↔
    ∃ domain ∈ domains, ∃ r, t.get? .domain domain = some r ∧ wasRemoved results domain = false ∧
      Blocks r.document kind name

section

variable {t : Tables} {results : List Result} {domain : String} {domains : List String}

theorem uses_of (domain : String) (e : Element) (kind : DefinedKind) (name : String) :
    (References.of domain e).uses kind name = (References.of "" e).uses kind name := by
  cases kind <;> rfl

theorem blocks_iff {document : String} {e : Element} (h : Element.read? document = some e)
    (kind : DefinedKind) (name : String) :
    Blocks document kind name ↔ (References.of "" e).uses kind name = true := by
  simp [Blocks, h]

theorem Knows.nil (t : Tables) (results : List Result) : Knows t results [] (.ok []) := by
  refine ⟨fun reason h => by simp at h, fun refs hrefs kind name => ?_⟩
  rw [← Except.ok.inj hrefs]
  simp

/-- A domain that has been removed does not count. -/
theorem Knows.skip {reply : Except String (List References)} (h : Knows t results domains reply)
    (hremoved : wasRemoved results domain = true) : Knows t results (domain :: domains) reply := by
  refine ⟨fun reason hreason kind name => ?_, fun refs hrefs kind name => ?_⟩
  · obtain ⟨other, hother, hblocks⟩ := h.unread reason hreason kind name
    exact ⟨other, by simp [hother], hblocks⟩
  · rw [h.read refs hrefs kind name]
    constructor
    · rintro ⟨other, hother, hblocks⟩
      exact ⟨other, by simp [hother], hblocks⟩
    · rintro ⟨other, hother, r, hr, hremains, hblocks⟩
      rcases List.mem_cons.1 hother with rfl | hother
      · exact absurd (hremains.symm.trans hremoved) (by simp)
      · exact ⟨other, hother, r, hr, hremains, hblocks⟩

/-- A domain whose document can be read counts with what it refers to. -/
theorem Knows.cons {reply : Except String (List References)} {r : StoredResource} {e : Element}
    (h : Knows t results domains reply) (hr : t.get? .domain domain = some r)
    (hremains : wasRemoved results domain = false) (he : Element.read? r.document = some e) :
    Knows t results (domain :: domains) (reply.map (References.of domain e :: ·)) := by
  refine ⟨fun reason hreason kind name => ?_, fun refs hrefs kind name => ?_⟩
  · cases reply with
    | ok rest => exact absurd hreason (by simp [Except.map])
    | error reason' =>
      obtain ⟨other, hother, hblocks⟩ := h.unread reason' rfl kind name
      exact ⟨other, by simp [hother], hblocks⟩
  · cases reply with
    | error reason => exact absurd hrefs (by simp [Except.map])
    | ok rest =>
      obtain rfl := Except.ok.inj hrefs
      rw [List.any_cons, Bool.or_eq_true, uses_of, ← blocks_iff he, h.read rest rfl kind name]
      constructor
      · rintro (hblocks | ⟨other, hother, hblocks⟩)
        · exact ⟨domain, by simp, r, hr, hremains, hblocks⟩
        · exact ⟨other, by simp [hother], hblocks⟩
      · rintro ⟨other, hother, r', hr', hremains', hblocks⟩
        rcases List.mem_cons.1 hother with rfl | hother
        · obtain rfl := Option.some.inj (hr.symm.trans hr')
          exact .inl hblocks
        · exact .inr ⟨other, hother, r', hr', hremains', hblocks⟩

/-- **What is read of domains tells what they block.** -/
theorem ends_referencesOf {polls : Table Int} (hthere : ∀ n ∈ domains, (t.get? .domain n).isSome = true) :
    Talk.Ends polls t (referencesOf results domains) fun a u => u = t ∧ Knows t results domains a := by
  induction domains with
  | nil => exact Talk.Ends.pure ⟨rfl, .nil t results⟩
  | cons domain domains ih =>
    have hrest := ih fun n hn => hthere n (by simp [hn])
    obtain ⟨r, hr⟩ := Option.isSome_iff_exists.1 (hthere domain (by simp))
    unfold referencesOf
    cases hremoved : wasRemoved results domain with
    | true =>
      simp only [if_true]
      refine hrest.mono ?_
      rintro a u ⟨hu, ha⟩
      exact ⟨hu, ha.skip hremoved⟩
    | false =>
      simp only [Bool.false_eq_true, if_false]
      have hread : t.serve polls (.read .domain domain) = .ok (r.document, t) := by
        rw [Tables.serve, Tables.find_eq_ok hr]
        rfl
      refine Talk.Yields.bind (Talk.Yields.call hread) ?_
      simp only
      split
      · next hmalformed =>
        -- nothing can be told of a domain whose document is malformed, so it blocks everything
        refine Talk.Ends.pure ⟨rfl, .mk (fun reason _ kind name => ?_) fun refs h => by simp at h⟩
        exact ⟨domain, by simp, r, hr, hremoved, by simp [Blocks, hmalformed]⟩
      · next e he =>
        refine Talk.Ends.bind hrest ?_
        rintro a u ⟨hu, ha⟩
        rw [hu]
        exact Talk.Ends.pure ⟨rfl, ha.cons hr hremoved he⟩

theorem exists_mem_sortedNames_iff {kind : DefinedKind} {name : String} :
    (∃ domain ∈ t.sortedNames .domain, ∃ r, t.get? .domain domain = some r ∧ wasRemoved results domain = false ∧
      Blocks r.document kind name) ↔ IsBlocked t results kind name := by
  refine ⟨fun ⟨domain, _, r, hblocks⟩ => ⟨domain, r, hblocks⟩, ?_⟩
  rintro ⟨domain, r, hr, hblocks⟩
  exact ⟨domain, Tables.mem_sortedNames_iff.2 (by rw [hr]; rfl), r, hr, hblocks⟩

/-- A resource has users among all domains if it is blocked. -/
theorem Knows.users_iff {refs : List References} (h : Knows t results (t.sortedNames .domain) (.ok refs))
    (kind : DefinedKind) (name : String) :
    (References.users refs kind name).isEmpty = false ↔ IsBlocked t results kind name := by
  rw [← exists_mem_sortedNames_iff, ← h.read refs rfl, List.any_eq_true, References.users,
    List.isEmpty_eq_false_iff, ← List.length_pos_iff, List.length_mergeSort, List.length_pos_iff_exists_mem]
  simp only [List.mem_eraseDups, List.mem_map, List.mem_filter]
  constructor
  · rintro ⟨_, x, ⟨hx, huses⟩, -⟩
    exact ⟨x, hx, huses⟩
  · rintro ⟨x, hx, huses⟩
    exact ⟨x.domain, x, ⟨hx, huses⟩, rfl⟩

/-- **The references of all domains tell what is blocked.** -/
theorem ends_references (polls : Table Int) (t : Tables) (results : List Result) :
    Talk.Ends polls t (references results) fun a u => u = t ∧
      (∀ reason, a = .error reason → ∀ kind name, IsBlocked t results kind name) ∧
      ∀ refs, a = .ok refs → ∀ kind name,
        (References.users refs kind name).isEmpty = false ↔ IsBlocked t results kind name := by
  have hlist : Talk.Yields polls t (Call.list .domain).ask (.ok (t.sortedNames .domain)) t :=
    Talk.Yields.call rfl
  refine Talk.Yields.bind hlist ?_
  refine (ends_referencesOf fun n hn => Tables.mem_sortedNames_iff.1 hn).mono fun a u ⟨hu, ha⟩ => ?_
  refine ⟨hu, fun reason hreason kind name => exists_mem_sortedNames_iff.1 (ha.unread reason hreason kind name),
    fun refs hrefs kind name => ?_⟩
  rw [hrefs] at ha
  exact ha.users_iff kind name

end

/-! ### Removals on calm hosts -/

variable {m : Memory}

/-- What becomes of a resource that is to be removed: it fails if there are domains that use it. -/
theorem run_task_of_calm (hm : m.Calm) {kind : DefinedKind} {name : String} {r : StoredResource}
    (ht : m.tables.get? kind name = some r) (dry : Bool) (refs : List References) :
    ∃ x : Result, (m.run (task dry refs kind name)).1 = .ok [x] ∧ x.kind = kind.resource ∧ x.name = name ∧
      x.outcome = if (References.users refs kind name).isEmpty then .deleted else .failed := by
  rw [task_eq]
  split
  · have hend := ends_remove ht dry m hm rfl rfl
    simp only [Memory.run_bind, hm.uncancelled.run_supervise, Memory.run_pure, hend.1]
    exact ⟨_, rfl, rfl, rfl, rfl⟩
  · exact ⟨_, rfl, rfl, rfl, rfl⟩

/-- **On a calm host a stale resource fails if it is blocked, and is deleted otherwise.** -/
theorem run_of_calm (hm : m.Calm) {dry : Bool} {stale : List (DefinedKind × String)}
    (hdistinct : stale.Nodup) (hthere : ∀ s ∈ stale, (m.tables.get? s.1 s.2).isSome = true)
    {results rs : List Result} (hrs : (m.run (run dry results stale)).1 = .ok rs)
    {s : DefinedKind × String} (hs : s ∈ stale) :
    ∃ x : Result, x.IsSole rs ∧ x.kind = s.1.resource ∧ x.name = s.2 ∧
      (IsBlocked m.tables results s.1 s.2 → x.outcome = .failed) ∧
      (¬ IsBlocked m.tables results s.1 s.2 → x.outcome = .deleted) := by
  have hne : stale.isEmpty = false := by
    rw [List.isEmpty_eq_false_iff]
    exact List.ne_nil_of_mem hs
  have hask : m.run (Dialogue.query Query.cancelled : Talk Bool) = (false, m) :=
    congrArg (·, m) hm.cancelled
  unfold run at hrs
  simp only [hne, Bool.false_eq_true, if_false, Memory.run_bind, hask] at hrs
  obtain ⟨htables, hunread, hread⟩ := ends_references m.polls m.tables results m hm rfl rfl
  have hcalm : (m.run (references results)).2.Calm := hm.run _
  generalize m.run (references results) = refs at hrs htables hunread hread hcalm
  obtain ⟨reply, n⟩ := refs
  -- if the references are not known everything is blocked, otherwise what a domain uses
  cases reply with
  | error reason =>
    rw [← Except.ok.inj hrs]
    refine ⟨.stuck s.1.resource s.2 .checkReferences reason, ⟨List.mem_map.2 ⟨s, hs, rfl⟩, ?_⟩, rfl, rfl,
      fun _ => rfl, fun hfree => absurd (hunread reason rfl s.1 s.2) hfree⟩
    rintro y hy hkind hname
    obtain ⟨s', -, rfl⟩ := List.mem_map.1 hy
    show Result.stuck s'.1.resource s'.2 .checkReferences reason = _
    rw [show s'.1.resource = s.1.resource from hkind, show s'.2 = s.2 from hname]
  | ok refs =>
    refine Memory.run_gather_single (m := n) Prod.fst Prod.snd (e := fun _ => True)
      (Q := fun s x _ => (IsBlocked m.tables results s.1 s.2 → x.outcome = .failed) ∧
        (¬ IsBlocked m.tables results s.1 s.2 → x.outcome = .deleted))
      (by simpa using hdistinct) (fun s _ => (confined_task dry refs s.1 s.2).mono
        (fun q hq => hq.mono fun c hc => hc.about) fun _ _ => trivial) ?_ hrs hs
    intro s hs h hfollows hbefore xs hxs
    obtain ⟨r, hr⟩ := Option.isSome_iff_exists.1 (hthere s hs)
    rw [show n.tables = m.tables from htables, hr] at hbefore
    obtain ⟨x, hx, hkind, hname, houtcome⟩ := run_task_of_calm (hfollows.calm hcalm) hbefore dry refs
    obtain rfl := Except.ok.inj (hxs.symm.trans hx)
    refine ⟨x, rfl, hkind, hname, ?_⟩
    rw [← hread refs rfl, houtcome]
    cases (References.users refs s.1 s.2).isEmpty <;> simp

end Removal

end VirtualTopology
