import VirtualTopology.Proofs.Pass.Undisturbed

/-!
# What a dry run predicts

A dry run over a calm host says of each declared resource what a real pass from the same state says of it
(`Settings.dryRun_predicts_declared`), details apart. The host that the real pass works on changes under its
later steps; the dry run never changes it. That both still say the same is `Course.alike_declared`. What is
left here is that a report says nothing else about a declared resource: the sorting of results keeps those of
one resource in their order (`Report.about_of`), and nothing stale is declared (`Course.about_eq`).
-/

namespace VirtualTopology

/-! ### What a report says about one resource -/

/-- Whether a result is about a resource. -/
def Result.isAbout (kind : ResourceKind) (name : String) (x : Result) : Bool :=
  x.kind == kind && x.name == name

theorem Result.isAbout_iff {kind : ResourceKind} {name : String} {x : Result} :
    x.isAbout kind name = true ↔ x.kind = kind ∧ x.name = name := by
  simp [isAbout]

/-- The results of a report that are about a resource. -/
def Report.about (r : Report) (kind : ResourceKind) (name : String) : List Result :=
  r.results.filter (·.isAbout kind name)

section

variable {x y z : Result}

theorem Result.before_trans (hxy : x.before y = true) (hyz : y.before z = true) : x.before z = true := by
  simp only [before, Bool.or_eq_true, Bool.and_eq_true, decide_eq_true_eq, beq_iff_eq] at *
  rcases hxy with hxy | ⟨hkind, hname⟩
  · rcases hyz with hyz | ⟨hkind, -⟩
    · exact .inl (hxy.trans hyz)
    · exact .inl (hkind ▸ hxy)
  · rcases hyz with hyz | ⟨hkind', hname'⟩
    · exact .inl (hkind ▸ hyz)
    · exact .inr ⟨hkind.trans hkind', String.le_trans hname hname'⟩

theorem Result.before_total (x y : Result) : (x.before y || y.before x) = true := by
  simp only [before, Bool.or_eq_true, Bool.and_eq_true, decide_eq_true_eq, beq_iff_eq]
  rcases lt_trichotomy x.kind.rank y.kind.rank with h | h | h
  · exact .inl (.inl h)
  · have hkind : x.kind = y.kind := ResourceKind.rank_injective h
    rcases String.le_total x.name y.name with hname | hname
    · exact .inl (.inr ⟨hkind, hname⟩)
    · exact .inr (.inr ⟨hkind.symm, hname⟩)
  · exact .inr (.inl h)

theorem Result.before_of_isAbout {kind : ResourceKind} {name : String} (hx : x.isAbout kind name = true)
    (hy : y.isAbout kind name = true) : x.before y = true := by
  obtain ⟨rfl, rfl⟩ := isAbout_iff.1 hx
  obtain ⟨hkind, hname⟩ := isAbout_iff.1 hy
  simp [before, hkind, hname]

end

/-- **A report keeps the results of a resource in the order in which they were recorded.** -/
theorem Report.about_of (rs : List Result) (dry : Bool) (kind : ResourceKind) (name : String) :
    (Report.of rs dry).about kind name = rs.filter (·.isAbout kind name) := by
  -- results of one resource are sorted already, so sorting keeps them as a sublist
  have hsorted : (rs.filter (·.isAbout kind name)).Pairwise fun x y => x.before y = true := by
    refine List.pairwise_of_forall_mem_list fun x hx y hy => ?_
    exact Result.before_of_isAbout (List.mem_filter.1 hx).2 (List.mem_filter.1 hy).2
  have hsub : List.Sublist (rs.filter (·.isAbout kind name)) (rs.mergeSort Result.before) := by
    refine List.sublist_mergeSort (fun x y z hxy hyz => ?_) ?_ hsorted List.filter_sublist
    · exact Result.before_trans hxy hyz
    · exact Result.before_total
  have hfilter := hsub.filter (·.isAbout kind name)
  simp only [List.filter_filter, Bool.and_self] at hfilter
  refine (hfilter.eq_of_length ?_).symm
  exact ((List.mergeSort_perm rs Result.before).filter _).length_eq.symm

/-! ### Declared resources -/

/-- Whether a resource is declared: a network, a pool or a domain, or a volume by its label. -/
def Desired.Declares (d : Desired) (kind : ResourceKind) (name : String) : Prop :=
  match kind with
  | .network => name ∈ d.names .network
  | .pool => name ∈ d.names .pool
  | .volume => ∃ p ∈ d.pools.items, ∃ e ∈ p.volumes, e.label p.name = name
  | .domain => name ∈ d.names .domain

namespace Desired.Course

variable {d : Desired} {dry : Bool} {timeout : Binary64} {m : Memory}

/-- **What is said of a declared resource is said when it is brought in line.** -/
theorem about_eq (c : Course d dry timeout m) (hplain : d.IsPlain) (hvalid : d.Validates)
    {kind : ResourceKind} {name : String} (h : d.Declares kind name) :
    c.results.filter (·.isAbout kind name) = c.declared.filter (·.isAbout kind name) := by
  have hstale : ∀ k : DefinedKind, k.resource = kind → name ∉ c.stale k := by
    rintro k rfl hname
    have hundeclared := (c.mem_stale hplain hvalid hname).2.2
    cases k <;> exact hundeclared h
  have hremovals : c.ofRemovals.filter (·.isAbout kind name) = [] := by
    refine List.filter_eq_nil_iff.2 fun x hx habout => ?_
    obtain ⟨hkind, hname⟩ := Result.isAbout_iff.1 habout
    obtain ⟨hdomain, hmem⟩ := c.about_removals hx
    exact hstale .domain (hdomain.symm.trans hkind) (hname ▸ hmem)
  have hrest : c.ofRest.filter (·.isAbout kind name) = [] := by
    refine List.filter_eq_nil_iff.2 fun x hx habout => ?_
    obtain ⟨hkind, hname⟩ := Result.isAbout_iff.1 habout
    obtain ⟨k, hk, -, hmem⟩ := c.about_rest hx
    exact hstale k (hk.symm.trans hkind) (hname ▸ hmem)
  rw [results, declared, List.filter_append, List.filter_append, hremovals, hrest, List.append_nil,
    List.append_nil]

/-- A real pass says something of each declared resource. -/
theorem exists_about (c : Course d false timeout m) (hm : m.Uncancelled) (hplain : d.IsPlain)
    (hvalid : d.Validates) {kind : ResourceKind} {name : String} (h : d.Declares kind name) :
    ∃ x ∈ c.results, x.isAbout kind name = true := by
  cases kind with
  | network =>
    obtain ⟨n, hn, rfl⟩ := List.mem_map.1 h
    obtain ⟨x, hsole, hkind, hname, -⟩ := c.network hm hplain hvalid hn
    exact ⟨x, hsole.1, Result.isAbout_iff.2 ⟨hkind, hname⟩⟩
  | pool =>
    obtain ⟨p, hp, rfl⟩ := List.mem_map.1 h
    obtain ⟨x, -, hsole, hkind, hname, -⟩ := c.pool hm hplain hvalid hp
    exact ⟨x, hsole.1, Result.isAbout_iff.2 ⟨hkind, hname⟩⟩
  | volume =>
    obtain ⟨p, hp, e, he, rfl⟩ := h
    obtain ⟨y, xs, -, -, -, hxs, hfills⟩ := c.pool hm hplain hvalid hp
    obtain ⟨x, hx, hkind, hname, -⟩ := hfills.volume he
    exact ⟨x, hxs x hx, Result.isAbout_iff.2 ⟨hkind, hname⟩⟩
  | domain =>
    obtain ⟨y, hy, rfl⟩ := List.mem_map.1 h
    obtain ⟨x, hsole, hkind, hname, -⟩ := c.domain hm hplain hvalid hy
    exact ⟨x, hsole.1, Result.isAbout_iff.2 ⟨hkind, hname⟩⟩

end Desired.Course

/-! ### The prediction -/

/-- Results that tell the same are about the same resource. -/
theorem Result.Alike.isAbout_eq {x y : Result} (h : x.Alike y) (kind : ResourceKind) (name : String) :
    y.isAbout kind name = x.isAbout kind name := by
  rw [isAbout, isAbout, h.kind, h.name]

theorem Result.forall₂_filter_isAbout {xs ys : List Result} (h : List.Forall₂ Alike xs ys)
    (kind : ResourceKind) (name : String) :
    List.Forall₂ Alike (xs.filter (·.isAbout kind name)) (ys.filter (·.isAbout kind name)) := by
  induction h with
  | nil => exact .nil
  | cons hxy _ ih =>
    rw [List.filter_cons, List.filter_cons, hxy.isAbout_eq]
    split
    · exact .cons hxy ih
    · exact ih

/-- **A dry run and a real pass both have a course, or neither gives a report**, for the same reason. -/
theorem Settings.apply_cases {s : Settings} {d : Desired} {dry real : Option Bool} {m : Memory}
    (hvalid : d.Validates) (hplain : d.IsPlain) (hcalm : m.Calm) (hpools : d.PoolsRun m.tables)
    (hdry : s.isDry dry = true) (hreal : s.isDry real = false) :
    (∃ why, (m.run (s.apply d dry)).1 = .error why ∧ (m.run (s.apply d real)).1 = .error why) ∨
      ∃ (c : d.Course true s.pass.shutdownTimeout m) (c' : d.Course false s.pass.shutdownTimeout m),
        (m.run (s.apply d dry)).1 = .ok (.of c.results true) ∧
        (m.run (s.apply d real)).1 = .ok (.of c'.results false) := by
  rcases Desired.phases_cases hplain hvalid hcalm hpools s.pass.shutdownTimeout with
    ⟨why, hfirst, hsecond⟩ | ⟨rs, rs', hfirst, hsecond⟩
  · rw [← hdry] at hfirst
    rw [← hreal] at hsecond
    exact .inl ⟨_, run_apply_of_unwritable hvalid hfirst, run_apply_of_unwritable hvalid hsecond⟩
  · have hplan : (m.run (s.apply d dry)).1 = .ok (.of rs true) := by
      rw [← hdry] at hfirst ⊢
      exact apply_eq_ok_of_phases hvalid hfirst
    have hreport : (m.run (s.apply d real)).1 = .ok (.of rs' false) := by
      rw [← hreal] at hsecond ⊢
      exact apply_eq_ok_of_phases hvalid hsecond
    obtain ⟨c, rfl, -⟩ := Desired.exists_course hfirst
    obtain ⟨c', rfl, -⟩ := Desired.exists_course hsecond
    exact .inr ⟨c, c', hplan, hreport⟩

/-- **A dry run predicts what becomes of everything that is declared.** On a host without disruptions, if each
declared pool that is there and lists volumes runs, a dry run and a real pass both give a report or both give
none, for the same reason. For each declared network, pool, volume or domain both reports have results, and
these tell the same in the same order: the same outcome, step, reason and kind of failure. -/
theorem Settings.dryRun_predicts_declared {s : Settings} {d : Desired} {dry real : Option Bool} {m : Memory}
    (hvalid : d.Validates) (hplain : d.IsPlain) (hcalm : m.Calm) (hpools : d.PoolsRun m.tables)
    (hdry : s.isDry dry = true) (hreal : s.isDry real = false) :
    (∃ why, (m.run (s.apply d dry)).1 = .error why ∧ (m.run (s.apply d real)).1 = .error why) ∨
      ∃ plan report, (m.run (s.apply d dry)).1 = .ok plan ∧ (m.run (s.apply d real)).1 = .ok report ∧
        ∀ kind name, d.Declares kind name → report.about kind name ≠ [] ∧
          List.Forall₂ Result.Alike (plan.about kind name) (report.about kind name) := by
  rcases apply_cases hvalid hplain hcalm hpools hdry hreal with herror | ⟨c, c', hplan, hreport⟩
  · exact .inl herror
  · refine .inr ⟨_, _, hplan, hreport, fun kind name hdeclared => ?_⟩
    rw [Report.about_of, Report.about_of]
    obtain ⟨x, hx, habout⟩ := c'.exists_about hcalm.uncancelled hplain hvalid hdeclared
    refine ⟨List.ne_nil_of_mem (List.mem_filter.2 ⟨hx, habout⟩), ?_⟩
    rw [c.about_eq hplain hvalid hdeclared, c'.about_eq hplain hvalid hdeclared]
    exact Result.forall₂_filter_isAbout (c.alike_declared hplain hvalid hcalm hpools c') kind name

/-- A host on which a pool runs, with another document and with a volume that is too small. -/
def Memory.withSmallDisk : Memory :=
  { tables := { pools := [("images",
      { document := "<pool/>", active := true
        volumes := [("disk", .sized (some 512) (.known "qcow2"))] })] } }

/-- The dry run says that the volume is grown, and so it is. -/
theorem Settings.dryRun_predicts_withSmallDisk :
    ∃ plan report,
      (Memory.withSmallDisk.run (({} : Settings).apply .withImages (some true))).1 = .ok plan ∧
      (Memory.withSmallDisk.run (({} : Settings).apply .withImages)).1 = .ok report ∧
      List.Forall₂ Result.Alike (plan.about .volume "images/disk") (report.about .volume "images/disk") ∧
      ∃ x ∈ plan.about .volume "images/disk", x.outcome = .updated := by
  have hphases : (Memory.withSmallDisk.run (Desired.withImages.phases true
      ({} : Settings).pass.shutdownTimeout)).1 =
        .ok [{ kind := .pool, name := "images", outcome := .updated
               details := ["definition changed", "restarted", "autostart enabled"] },
          { kind := .volume, name := "images/disk", outcome := .updated
            details := ["grown from 512 to 1073741824 bytes"] }] := by
    decide +kernel
  have hplan : Memory.withSmallDisk.run (({} : Settings).apply .withImages (some true)) = _ :=
    run_apply_of_phases Desired.validates_withImages (Prod.ext hphases rfl)
  have hpools : Desired.withImages.PoolsRun Memory.withSmallDisk.tables := by
    intro p hp _ r hr
    obtain rfl := List.mem_singleton.1 hp
    obtain rfl := Option.some.inj hr
    rfl
  have hdry : ({} : Settings).isDry (some true) = true := rfl
  have hreal : ({} : Settings).isDry none = false := rfl
  rcases dryRun_predicts_declared Desired.validates_withImages Desired.isPlain_withImages
    (m := Memory.withSmallDisk) ⟨rfl, rfl, rfl⟩ hpools hdry hreal with
    ⟨why, hwhy, -⟩ | ⟨plan, report, hok, hreport, hsame⟩
  · rw [hplan] at hwhy
    exact absurd hwhy (by simp)
  · refine ⟨plan, report, hok, hreport, (hsame .volume "images/disk" ?_).2, ?_⟩
    · exact ⟨.images, List.mem_singleton.2 rfl, _, List.mem_singleton.2 rfl, by decide⟩
    · rw [hplan] at hok
      rw [← Except.ok.inj hok, Report.about_of]
      exact ⟨_, List.mem_filter.2 ⟨List.mem_cons_of_mem _ List.mem_cons_self, by decide⟩, rfl⟩

/-! ### Stale resources -/

namespace Desired

/-- Whether a resource is stale: it is there, its kind is managed, and it is not declared. -/
def IsStale (d : Desired) (t : Tables) (k : DefinedKind) (name : String) : Prop :=
  d.manages k = true ∧ (t.get? k name).isSome = true ∧ name ∉ d.names k

/-- Whether a declared domain has a document that stands in the way of a removal and is out of date. -/
def Drops (d : Desired) (t : Tables) (k : DefinedKind) (name : String) : Prop :=
  ∃ y ∈ d.domains.items, ∃ r, t.get? .domain y.name = some r ∧
    documentsMatch y.document.print r.document = false ∧ Removal.Blocks r.document k name

namespace Course

variable {d : Desired} {timeout : Binary64} {m : Memory} (hm : m.Calm) (hplain : d.IsPlain)
  (hvalid : d.Validates) {k : DefinedKind} {name : String}

include hm hplain hvalid

/-- **What a dry run and a real pass say of a stale resource.** What stands in its way in the real pass stands
in its way in the dry run, too, and is there in the real pass unless it is dropped. -/
theorem outcomes_of_stale (c : Course d true timeout m) (c' : Course d false timeout m)
    (hstale : d.IsStale m.tables k name) :
    ∃ x x' : Result, x.IsSole c.results ∧ x'.IsSole c'.results ∧
      x.isAbout k.resource name = true ∧ x'.isAbout k.resource name = true ∧
      (x.outcome = .deleted ∨ x.outcome = .failed) ∧
      (x'.outcome = x.outcome ∨
        d.Drops m.tables k name ∧ x.outcome = .failed ∧ x'.outcome = .deleted) := by
  have hmem := (c.mem_stale_iff hm hplain hvalid).2 hstale
  have hmem' := (c'.mem_stale_iff hm hplain hvalid).2 hstale
  have hsame : ∀ n, n ∈ c.stale .domain ↔ n ∈ c'.stale .domain := fun n => by
    rw [c.mem_stale_iff hm hplain hvalid, c'.mem_stale_iff hm hplain hvalid]
  by_cases hk : k = .domain
  · subst hk
    obtain ⟨x, hsole, hkind, hname, hdeleted, -⟩ := c.removal_of_calm hm hplain hvalid hmem
    obtain ⟨x', hsole', hkind', hname', hdeleted', -⟩ := c'.removal_of_calm hm hplain hvalid hmem'
    exact ⟨x, x', c.isSole_of_stale (k := .domain) hplain hvalid hsole hkind (hname ▸ hmem),
      c'.isSole_of_stale (k := .domain) hplain hvalid hsole' hkind' (hname' ▸ hmem'),
      Result.isAbout_iff.2 ⟨hkind, hname⟩, Result.isAbout_iff.2 ⟨hkind', hname'⟩, .inl hdeleted,
      .inl (hdeleted'.trans hdeleted.symm)⟩
  · obtain ⟨x, hsole, hkind, hname, hfailed, hdeleted⟩ := c.rest_of_calm hm hplain hvalid hk hmem
    obtain ⟨x', hsole', hkind', hname', hfailed', hdeleted'⟩ := c'.rest_of_calm hm hplain hvalid hk hmem'
    refine ⟨x, x', hsole, hsole', Result.isAbout_iff.2 ⟨hkind, hname⟩,
      Result.isAbout_iff.2 ⟨hkind', hname'⟩, ?_⟩
    -- the documents that a dry run reads are those of before
    have hdry : ∀ n, n ∉ c.stale .domain → (c.cleared.tables.get? .domain n).map (·.document)
        = (m.tables.get? .domain n).map (·.document) := fun n hn => by
      rcases c.document_cleared hm hplain hvalid hn with hkept | ⟨hfalse, -⟩
      · exact hkept
      · exact absurd hfalse (by simp)
    have hentry : ∀ {t u : Tables} {n : String} {r : StoredResource}, t.get? .domain n = some r →
        (u.get? .domain n).map (·.document) = (t.get? .domain n).map (·.document) →
        ∃ r', u.get? .domain n = some r' ∧ r'.document = r.document := fun hr hmap => by
      rw [hr, Option.map_some, Option.map_eq_some_iff] at hmap
      exact hmap
    by_cases hblocked : ∃ n r, c'.cleared.tables.get? .domain n = some r ∧ n ∉ c'.stale .domain ∧
        Removal.Blocks r.document k name
    · -- what stands in the way in the real pass was there before
      obtain ⟨n, r, hr, hn, hblocks⟩ := hblocked
      rcases c'.document_cleared hm hplain hvalid hn with hkept | ⟨-, y, hy, -, -, hprint, -⟩
      · obtain ⟨r₁, hr₁, hdocument⟩ :=
          hentry hr ((hdry n ((hsame n).not.2 hn)).trans hkept.symm)
        have hblocks₁ : Removal.Blocks r₁.document k name := hdocument ▸ hblocks
        have hboth := hfailed ⟨n, r₁, hr₁, (hsame n).not.2 hn, hblocks₁⟩
        have hboth' := hfailed' ⟨n, r, hr, hn, hblocks⟩
        exact ⟨.inr hboth, .inl (hboth'.trans hboth.symm)⟩
      · rw [hr, Option.map_some] at hprint
        rw [Option.some.inj hprint] at hblocks
        exact absurd (hvalid.mem_names_of_blocks hplain hy hstale.1 hblocks) hstale.2.2
    · have hdeleted' := hdeleted' hblocked
      by_cases hblocked₁ : ∃ n r, c.cleared.tables.get? .domain n = some r ∧ n ∉ c.stale .domain ∧
          Removal.Blocks r.document k name
      · -- what stands in the way in the dry run alone is dropped
        have hfailed := hfailed hblocked₁
        obtain ⟨n, r, hr, hn, hblocks⟩ := hblocked₁
        obtain ⟨r₀, hr₀, hdocument₀⟩ := hentry hr (hdry n hn).symm
        have hblocks₀ : Removal.Blocks r₀.document k name := hdocument₀ ▸ hblocks
        refine ⟨.inr hfailed, .inr ⟨?_, hfailed, hdeleted'⟩⟩
        rcases c'.document_cleared hm hplain hvalid ((hsame n).not.1 hn) with
          hkept | ⟨-, y, hy, rfl, -, -, hdiffers⟩
        · obtain ⟨r', hr', hdocument⟩ := hentry hr₀ hkept
          exact absurd ⟨n, r', hr', (hsame n).not.1 hn, hdocument ▸ hblocks₀⟩ hblocked
        · exact ⟨y, hy, r₀, hr₀, hdiffers r₀ hr₀, hblocks₀⟩
      · have hdeleted := hdeleted hblocked₁
        exact ⟨.inl hdeleted, .inl (hdeleted'.trans hdeleted.symm)⟩

omit hm hplain hvalid in
/-- A result is about something that is declared or unmanaged, or about something stale. -/
theorem declared_or_stale {dry : Bool} (c : Course d dry timeout m) {x : Result} (hx : x ∈ c.results) :
    x ∈ c.declared ∨ ∃ k, x.kind = DefinedKind.resource k ∧ x.name ∈ c.stale k := by
  rcases List.mem_append.1 hx with hx | hx
  · rcases List.mem_append.1 hx with hx | hx
    · exact .inl hx
    · obtain ⟨hkind, hname⟩ := c.about_removals hx
      exact .inr ⟨.domain, hkind, hname⟩
  · obtain ⟨k, hkind, -, hname⟩ := c.about_rest hx
    exact .inr ⟨k, hkind, hname⟩

/-- If the dry run is a success, so is the real pass; and the other way round, unless something is dropped. -/
theorem success_of_plan (hrun : d.PoolsRun m.tables) (c : Course d true timeout m)
    (c' : Course d false timeout m) :
    ((∀ x ∈ c.results, x.outcome.isSuccess = true) → ∀ x ∈ c'.results, x.outcome.isSuccess = true) ∧
      ((∀ x ∈ c'.results, x.outcome.isSuccess = true) →
        (∀ k name, d.IsStale m.tables k name → ¬ d.Drops m.tables k name) →
        ∀ x ∈ c.results, x.outcome.isSuccess = true) := by
  have hdeclared := Result.forall_isSuccess_iff (c.alike_declared hplain hvalid hm hrun c')
  have hinto : ∀ {dry : Bool} (c : Course d dry timeout m), ∀ x ∈ c.declared, x ∈ c.results :=
    fun c x hx => List.mem_append_left _ (List.mem_append_left _ hx)
  -- declared resources fare alike in both runs, and stale ones do unless they are dropped
  refine ⟨fun hplan x' hx' => ?_, fun hreport hkept x hx => ?_⟩
  · rcases c'.declared_or_stale hx' with hx' | ⟨k, hkind, hname⟩
    · exact hdeclared.1 (fun x hx => hplan x (hinto c x hx)) x' hx'
    · obtain ⟨x, y, hsole, hsole', -, habout', -, houtcome⟩ :=
        outcomes_of_stale hm hplain hvalid c c' ((c'.mem_stale_iff hm hplain hvalid).1 hname)
      obtain ⟨hykind, hyname⟩ := Result.isAbout_iff.1 habout'
      obtain rfl := hsole'.2 x' hx' (hkind.trans hykind.symm) hyname.symm
      rcases houtcome with hsame | ⟨-, -, hdeleted⟩
      · rw [hsame]
        exact hplan x hsole.1
      · rw [hdeleted]
        rfl
  · rcases c.declared_or_stale hx with hx | ⟨k, hkind, hname⟩
    · exact hdeclared.2 (fun x' hx' => hreport x' (hinto c' x' hx')) x hx
    · have hstale := (c.mem_stale_iff hm hplain hvalid).1 hname
      obtain ⟨y, x', hsole, hsole', habout, -, -, houtcome⟩ :=
        outcomes_of_stale hm hplain hvalid c c' hstale
      obtain ⟨hykind, hyname⟩ := Result.isAbout_iff.1 habout
      obtain rfl := hsole.2 x hx (hkind.trans hykind.symm) hyname.symm
      rcases houtcome with hsame | ⟨hdrops, -⟩
      · rw [← hsame]
        exact hreport x' hsole'.1
      · exact absurd hdrops (hkept k x.name hstale)

end Course

end Desired

/-- **What a dry run predicts of what it would remove.** On a host without disruptions, if each declared pool
that is there and lists volumes runs, a dry run and a real pass both give a report or both give none. Of each
stale resource both say that it is deleted or that it fails, and they say the same, with one exception: a
declared domain stands in the way with a document that is out of date. Then the dry run, which reads that
document, can say that the resource fails, and the real pass, which replaces the document first, deletes it.
So a real pass is a success if the dry run is one, and the other way round if there is no exception. -/
theorem Settings.dryRun_predicts_removals {s : Settings} {d : Desired} {dry real : Option Bool} {m : Memory}
    (hvalid : d.Validates) (hplain : d.IsPlain) (hcalm : m.Calm) (hpools : d.PoolsRun m.tables)
    (hdry : s.isDry dry = true) (hreal : s.isDry real = false) :
    (∃ why, (m.run (s.apply d dry)).1 = .error why ∧ (m.run (s.apply d real)).1 = .error why) ∨
      ∃ plan report, (m.run (s.apply d dry)).1 = .ok plan ∧ (m.run (s.apply d real)).1 = .ok report ∧
        (∀ k name, d.IsStale m.tables k name →
          ∃ x x' : Result, x.IsSole plan.results ∧ x'.IsSole report.results ∧
            x.isAbout k.resource name = true ∧ x'.isAbout k.resource name = true ∧
            (x.outcome = .deleted ∨ x.outcome = .failed) ∧
            (x'.outcome = x.outcome ∨
              d.Drops m.tables k name ∧ x.outcome = .failed ∧ x'.outcome = .deleted)) ∧
        (plan.success = true → report.success = true) ∧
        (report.success = true → (∀ k name, d.IsStale m.tables k name → ¬ d.Drops m.tables k name) →
          plan.success = true) := by
  rcases apply_cases hvalid hplain hcalm hpools hdry hreal with herror | ⟨c, c', hplan, hreport⟩
  · exact .inl herror
  · obtain ⟨hforth, hback⟩ := Desired.Course.success_of_plan hcalm hplain hvalid hpools c c'
    refine .inr ⟨_, _, hplan, hreport, fun k name hstale => ?_, ?_, ?_⟩
    · obtain ⟨x, x', hsole, hsole', hrest⟩ :=
        Desired.Course.outcomes_of_stale hcalm hplain hvalid c c' hstale
      exact ⟨x, x', Report.isSole_of.2 hsole, Report.isSole_of.2 hsole', hrest⟩
    · rw [Report.success_of_iff, Report.success_of_iff]
      exact hforth
    · rw [Report.success_of_iff, Report.success_of_iff]
      exact hback

/-- A domain without disks and interfaces. -/
def Domain.vm : Domain := { name := "vm", identifier := some ⟨1⟩, memory := ⟨1, .GiB⟩ }

/-- A desired state with a domain and no networks. -/
def Desired.withMachine : Desired :=
  { networks := .managed [], pools := .unmanaged [], domains := .managed [.vm] }

/-- The document of a domain on a network. -/
def Domain.oldDocument : String :=
  "<domain><devices><interface><source network='old'/></interface></devices></domain>"

/-- A host with a network and a domain on it. -/
def Memory.withUser : Memory :=
  { tables := { networks := [("old", { document := "<network/>" })]
                domains := [("vm", { document := Domain.oldDocument })] } }

/-- A desired state with one domain that refers to nothing has no issues. -/
theorem Desired.audit_single {x : Domain} (hdisks : x.disks = []) (hinterfaces : x.interfaces = [])
    (hshares : x.shares = []) :
    ({ networks := .managed [], pools := .unmanaged [], domains := .managed [x] } : Desired).audit = [] := by
  rw [Audit.audit_eq_nil_iff]
  simp [Declared.items, Audit.checkBridges_nil, Audit.checkDomain, Audit.repeated_eq_nil_iff,
    Audit.repeatedTexts_eq_nil_iff, Audit.claims, Audit.checkClaims, hdisks, hinterfaces, hshares]

/-- A pass over a host with no networks and no pools and with the declared domain comes to what the task for the
domain comes to. -/
theorem Desired.run_phases_single {x : Domain} {dry : Bool} {timeout : Binary64} {m counted listed surveyed n : Memory}
    {y : Result} (hnetworks : m.run (Stock.take .network true) = (.known [], counted))
    (hpools : counted.run (Stock.take .pool false) = (.leftAlone [], listed))
    (hdomains : listed.run (Stock.take .domain true) = (.known [x.name], surveyed))
    (htask : surveyed.run (x.task dry timeout [] true) = (.ok [y], n)) :
    m.run (({ networks := .managed [], pools := .unmanaged [], domains := .managed [x] } : Desired).phases dry
      timeout) = (.ok [y], n) := by
  -- no networks and no pools are declared, so the first phase only lists them
  have hfirst : m.run (({ networks := .managed [], pools := .unmanaged [], domains := .managed [x] } :
      Desired).networksAndPools dry) = ((.ok [], [], []), listed) := by
    show m.run (Stock.take .network true >>= fun networks => Stock.take .pool false >>= fun pools =>
      gather (networks.tasks .network ([] : List Network) (·.name) (fun _ => []) (fun n => n.task dry) ++
        pools.tasks .pool ([] : List Pool) (·.name) Pool.volumesLost fun p => p.task dry) >>= fun results =>
          pure (results, networks.stale [], pools.stale [])) = _
    simp only [Memory.run_bind, hnetworks, hpools]
    simp [Stock.tasks, Stock.stale, Memory.run_gather_cons, Recorded.append, Except.bind, Except.map]
  have hsecond : listed.run (({ networks := .managed [], pools := .unmanaged [], domains := .managed [x] } :
      Desired).domainsInLine dry timeout []) = ((.ok [y], []), n) := by
    show listed.run (Stock.take .domain true >>= fun domains =>
      gather (domains.tasks .domain [x] (·.name) (fun _ => []) fun x => x.task dry timeout []) >>= fun results =>
        pure (results, domains.stale [x.name])) = _
    rw [Memory.run_bind, hdomains]
    have htasks : (Stock.known [x.name]).tasks .domain [x] (·.name) (fun _ => [])
        (fun x => x.task dry timeout []) = [x.task dry timeout [] true] := by
      simp [Stock.tasks]
    dsimp only
    rw [htasks, Memory.run_bind, Memory.run_gather_cons, htask]
    simp [Stock.stale, Recorded.append, Except.bind, Except.map]
  unfold phases
  rw [Memory.run_bind, hfirst]
  simp only [Memory.run_bind, hsecond]
  rfl

theorem Desired.validates_withMachine : Desired.withMachine.Validates :=
  ⟨by simp [withMachine, Declared.items], Desired.audit_single rfl rfl rfl⟩

theorem Desired.isPlain_withMachine : Desired.withMachine.IsPlain := by decide

theorem Desired.poolsRun_withMachine : Desired.withMachine.PoolsRun Memory.withUser.tables := by
  intro p hp
  exact absurd hp (by simp [withMachine, Declared.items])

theorem Desired.isStale_withUser : Desired.withMachine.IsStale Memory.withUser.tables .network "old" :=
  ⟨rfl, rfl, by simp [names, withMachine, Declared.items]⟩

/-- What is said of the network: that it fails or is deleted, unless its user is out of date. -/
theorem Settings.dryRun_predicts_withUser :
    Desired.withMachine.IsStale Memory.withUser.tables .network "old" ∧
      ((∃ why, (Memory.withUser.run (({} : Settings).apply .withMachine (some true))).1 = .error why) ∨
        ∃ plan report,
          (Memory.withUser.run (({} : Settings).apply .withMachine (some true))).1 = .ok plan ∧
          (Memory.withUser.run (({} : Settings).apply .withMachine)).1 = .ok report ∧
          ∃ x x' : Result, x.IsSole plan.results ∧ x'.IsSole report.results ∧
            x.isAbout .network "old" = true ∧ x'.isAbout .network "old" = true ∧
            (x'.outcome = x.outcome ∨ Desired.withMachine.Drops Memory.withUser.tables .network "old" ∧
              x.outcome = .failed ∧ x'.outcome = .deleted)) := by
  have hdry : ({} : Settings).isDry (some true) = true := rfl
  have hreal : ({} : Settings).isDry none = false := rfl
  refine ⟨Desired.isStale_withUser, ?_⟩
  rcases dryRun_predicts_removals Desired.validates_withMachine Desired.isPlain_withMachine
    (m := Memory.withUser) ⟨rfl, rfl, rfl⟩ Desired.poolsRun_withMachine hdry hreal with
    ⟨why, hwhy, -⟩ | ⟨plan, report, hplan, hreport, hstale, -⟩
  · exact .inl ⟨why, hwhy⟩
  · obtain ⟨x, x', hsole, hsole', habout, habout', -, houtcome⟩ := hstale _ _ Desired.isStale_withUser
    exact .inr ⟨plan, report, hplan, hreport, x, x', hsole, hsole', habout, habout', houtcome⟩

theorem Domain.documentsMatch_oldDocument : documentsMatch Domain.vm.document.print oldDocument = false := by
  rw [documentsMatch, (legible (d := .vm) (by decide)).read?_print]
  decide +kernel

theorem Domain.blocks_oldDocument : Removal.Blocks oldDocument .network "old" := by
  have huses : (Element.read? oldDocument).all (fun e => (References.of "" e).uses .network "old") = true := by
    decide +kernel
  intro e he
  rw [Option.mem_def.1 he] at huses
  exact huses

theorem Domain.written_vm : ∃ text, Domain.vm.written = .ok text :=
  ⟨_, (written_eq (d := .vm) (by decide)).trans (if_pos (Text.isWritable_of_lt (by decide)))⟩

/-- On the host with the domain every pass gives results. -/
theorem Desired.exists_run_withUser (dry : Bool) (timeout : Binary64) :
    ∃ rs, (Memory.withUser.run (Desired.withMachine.phases dry timeout)).1 = .ok rs := by
  refine exists_run_phases ⟨rfl, rfl⟩ dry timeout (fun x hx => ?_) ⟨[], ?_⟩
  · obtain rfl := List.mem_singleton.1 hx
    exact Domain.written_vm
  · cases dry <;> decide +kernel

/-- **A dry run can say that a removal fails that goes well.** A network is not declared any more, and neither
is the interface of the domain on it. The dry run reads the old document of the domain and says that the
network is in use; the real pass replaces that document and deletes the network. -/
theorem Settings.dryRun_mispredicts_withUser :
    Desired.withMachine.Validates ∧ Desired.withMachine.IsPlain ∧ Memory.withUser.Calm ∧
      Desired.withMachine.PoolsRun Memory.withUser.tables ∧
      Desired.withMachine.IsStale Memory.withUser.tables .network "old" ∧
      ∃ plan report, (Memory.withUser.run (({} : Settings).apply .withMachine (some true))).1 = .ok plan ∧
        (Memory.withUser.run (({} : Settings).apply .withMachine)).1 = .ok report ∧
        (∃ x : Result, x.IsSole plan.results ∧ x.isAbout .network "old" = true ∧ x.outcome = .failed) ∧
        (∃ x : Result, x.IsSole report.results ∧ x.isAbout .network "old" = true ∧ x.outcome = .deleted) ∧
        plan.success = false := by
  have hvalid := Desired.validates_withMachine
  have hplain := Desired.isPlain_withMachine
  have hcalm : Memory.withUser.Calm := ⟨rfl, rfl, rfl⟩
  refine ⟨hvalid, hplain, hcalm, Desired.poolsRun_withMachine, Desired.isStale_withUser, ?_⟩
  have hdry : ({} : Settings).isDry (some true) = true := rfl
  have hreal : ({} : Settings).isDry none = false := rfl
  rcases apply_cases hvalid hplain hcalm Desired.poolsRun_withMachine hdry hreal with
    ⟨why, hwhy, -⟩ | ⟨c, c', hplan, hreport⟩
  · obtain ⟨rs, hrs⟩ := Desired.exists_run_withUser true ({} : Settings).pass.shutdownTimeout
    rw [← hdry] at hrs
    exact absurd ((apply_eq_ok_of_phases hvalid hrs).symm.trans hwhy) (by simp)
  · have hmem := (c.mem_stale_iff hcalm hplain hvalid).2 Desired.isStale_withUser
    have hmem' := (c'.mem_stale_iff hcalm hplain hvalid).2 Desired.isStale_withUser
    have hvm : Domain.vm ∈ Desired.withMachine.domains.items := List.mem_singleton.2 rfl
    have hdeclared : "vm" ∈ Desired.withMachine.names .domain := List.mem_map.2 ⟨.vm, hvm, rfl⟩
    have hfresh : "vm" ∉ c.stale .domain := fun h => (c.mem_stale hplain hvalid h).2.2 hdeclared
    have hfresh' : "vm" ∉ c'.stale .domain := fun h => (c'.mem_stale hplain hvalid h).2.2 hdeclared
    obtain ⟨x, hsole, hkind, hname, hfailed, -⟩ := c.rest_of_calm hcalm hplain hvalid (by simp) hmem
    obtain ⟨x', hsole', hkind', hname', -, hdeleted⟩ := c'.rest_of_calm hcalm hplain hvalid (by simp) hmem'
    -- the dry run reads the old document
    have hold : (c.cleared.tables.get? .domain "vm").map (·.document) = some Domain.oldDocument := by
      rcases c.document_cleared hcalm hplain hvalid hfresh with hkept | ⟨hfalse, -⟩
      · exact hkept
      · exact absurd hfalse (by simp)
    obtain ⟨r, hr, hdocument⟩ := Option.map_eq_some_iff.1 hold
    have houtcome := hfailed ⟨"vm", r, hr, hfresh, hdocument ▸ Domain.blocks_oldDocument⟩
    -- the real pass reads the declared one
    have hnew : (c'.cleared.tables.get? .domain "vm").map (·.document) = some Domain.vm.document.print := by
      rw [c'.get?_cleared (fun _ => hfresh')]
      obtain ⟨y, -, -, -, ⟨-, hblamed, -⟩ | ⟨-, -, -, hentry⟩⟩ := c'.domain_of_calm hcalm hplain hvalid hvm
      · exact absurd hblamed (by simp [Domain.failedDependencies, Domain.vm])
      · have hbefore : Memory.withUser.tables.get? .domain Domain.vm.name
            = some { document := Domain.oldDocument } := rfl
        rw [hbefore] at hentry
        rw [show "vm" = Domain.vm.name from rfl, hentry]
        simp only [Bool.false_eq_true, if_false, Option.map_some, Domain.settled, Domain.document_powered,
          Domain.document_stored, StoredResource.documented, Domain.documentsMatch_oldDocument,
          Bool.not_false, if_true]
    have houtcome' : x'.outcome = .deleted := by
      refine hdeleted ?_
      rintro ⟨n, r', hr', hn, hblocks⟩
      by_cases hn' : n = "vm"
      · subst hn'
        rw [hr', Option.map_some] at hnew
        rw [Option.some.inj hnew] at hblocks
        have hmentioned := hvalid.mem_names_of_blocks hplain hvm rfl hblocks
        exact absurd hmentioned (by simp [Desired.names, Desired.withMachine, Declared.items])
      · rcases c'.document_cleared hcalm hplain hvalid hn with hkept | ⟨-, y, hy, hyname, -⟩
        · have hnone : Memory.withUser.tables.get? .domain n = none := by
            simp [Memory.withUser, Tables.get?, Tables.table, Table.get?_cons, Ne.symm hn']
          rw [hr', hnone] at hkept
          exact absurd hkept (by simp)
        · obtain rfl := List.mem_singleton.1 hy
          exact absurd hyname.symm hn'
    refine ⟨_, _, hplan, hreport, ⟨x, Report.isSole_of.2 hsole, Result.isAbout_iff.2 ⟨hkind, hname⟩, houtcome⟩,
      ⟨x', Report.isSole_of.2 hsole', Result.isAbout_iff.2 ⟨hkind', hname'⟩, houtcome'⟩, ?_⟩
    refine Bool.eq_false_iff.2 fun hsuccess => ?_
    have hgood := Report.success_of_iff.1 hsuccess x hsole.1
    rw [houtcome] at hgood
    exact absurd hgood (by simp [Outcome.isSuccess])

end VirtualTopology
