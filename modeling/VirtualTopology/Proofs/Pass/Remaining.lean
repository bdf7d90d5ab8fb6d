import VirtualTopology.Proofs.InUse
import VirtualTopology.Proofs.Pass.Faring

/-!
# What stands in the way, wherever a run stops

Networks and pools that are not declared are removed if they are free. Whatever fails, one that is blocked by a domain
that remains is left as it is (`Removal.endures_run`). In the end of a pass it is enough to look at the domains that
are there then, for those that count as removed are gone (`Course.lacksRemoved`): what is not free stays
(`Course.stays_of_not_isFree`), and if nothing is struck, what is free is gone (`Course.gone_of_isFree`).
-/

namespace VirtualTopology

open Talk Dialogue

namespace Removal

variable {struck : Prop} {polls : Table Int} {t : Tables} {results : List Result} {k : DefinedKind} {name : String}

/-- What could be read of domains tells what they block. -/
theorem endures_referencesOf (domains : List String) :
    Endures struck polls (fun reply u => u = t ∧ ∀ refs, reply = .ok refs → Knows t results domains reply)
      (referencesOf results domains) t := by
  -- domain by domain: one that was removed blocks nothing, and of the others the document is read
  induction domains with
  | nil => exact .pure ⟨rfl, fun _ _ => .nil t results⟩
  | cons domain domains ih =>
    unfold referencesOf
    split
    · next hremoved =>
      refine ih.mono ?_
      rintro reply u ⟨hu, h⟩
      exact ⟨hu, fun refs hrefs => (h refs hrefs).skip hremoved⟩
    · next hremains =>
      refine Endures.bind (Q := fun reply u => u = t ∧ ∀ document, reply = .ok document →
        ∃ r, t.get? .domain domain = some r ∧ r.document = document)
        (Endures.call (fun document u hserve => ?_) fun e _ => ⟨rfl, by simp⟩) ?_
      · obtain ⟨r, hfind, hread⟩ := Tables.exists_of_bind_eq_ok hserve
        obtain ⟨rfl, rfl⟩ := Prod.mk.inj (Except.ok.inj hread)
        refine ⟨rfl, fun document hdocument => ⟨r, Tables.get?_of_find hfind, Except.ok.inj hdocument⟩⟩
      · rintro reply _ ⟨rfl, hreply⟩
        split
        · exact .pure ⟨rfl, by simp⟩
        · next document =>
          split
          · exact .pure ⟨rfl, by simp⟩
          · next e he =>
            obtain ⟨r, hr, rfl⟩ := hreply document rfl
            refine ih.bind ?_
            rintro rest _ ⟨rfl, hrest⟩
            refine .pure ⟨rfl, fun refs hrefs => ?_⟩
            cases rest with
            | error reason => exact absurd hrefs (by simp [Except.map])
            | ok rest => exact (hrest rest rfl).cons hr (by simpa using hremains) he

/-- If the references of all domains are known, a resource without users is not blocked. -/
theorem endures_references :
    Endures struck polls (fun reply u => u = t ∧ ∀ refs, reply = .ok refs → ∀ k name,
      (References.users refs k name).isEmpty = true → ¬ IsBlocked t results k name) (references results) t := by
  refine Endures.bind (Q := fun reply u => u = t ∧ ∀ names, reply = .ok names → names = t.sortedNames .domain)
    (Endures.call (fun names u hserve => ?_) fun e _ => ⟨rfl, by simp⟩) ?_
  · obtain ⟨rfl, rfl⟩ := Prod.mk.inj (Except.ok.inj hserve)
    exact ⟨rfl, fun names hnames => (Except.ok.inj hnames).symm⟩
  · rintro reply _ ⟨rfl, hreply⟩
    split
    · exact .pure ⟨rfl, by simp⟩
    · next names =>
      obtain rfl := hreply names rfl
      refine (endures_referencesOf _).mono fun reply u ⟨hu, hknows⟩ =>
        ⟨hu, fun refs hrefs k name hunused hblocked => ?_⟩
      have hall := hknows refs hrefs
      rw [hrefs] at hall
      rw [(hall.users_iff k name).2 hblocked] at hunused
      exact absurd hunused (by simp)

/-- A resource that is to be removed stays, or nobody uses it and it is gone. -/
theorem endures_task (refs : List References) :
    Endures struck polls (fun _ u => u = t ∨ (References.users refs k name).isEmpty = true ∧ u = t.erase k name)
      (task false refs k name) t := by
  rw [task_eq]
  split
  · next hunused =>
    have hundefine : Endures struck polls (fun _ u => u = t ∨ u = t.erase k name)
        (Work.change false .undefine (.undefine k name)).run t := by
      refine Endures.andThen (Endures.attempt (Q := fun _ u => u = t ∨ u = t.erase k name) ?_ fun _ _ => .inl rfl)
        (fun _ _ h => .pure h) fun _ _ h => h
      intro a u hserve
      obtain ⟨r, -, hgone⟩ := Tables.exists_of_bind_eq_ok hserve
      exact .inr (Prod.mk.inj (Except.ok.inj hgone)).2.symm
    have hremove : Endures struck polls (fun _ u => u = t ∨ u = t.erase k name) (remove false k name).run t :=
      Endures.andThen hundefine (fun _ _ h => .pure h) fun _ _ h => h
    refine Endures.bind (Endures.supervise (hremove.mono fun _ u h => ?_)) fun _ _ h => .pure h
    exact h.imp_right fun hu => ⟨hunused, hu⟩
  · exact .pure (.inl rfl)

/-- **Whatever fails while networks and pools are removed, each resource stays as it is, or it is gone and was not
blocked.** -/
theorem endures_run (stale : List (DefinedKind × String)) :
    Endures struck polls (fun _ u => ∀ k name, u.get? k name = t.get? k name ∨
      u.get? k name = none ∧ ¬ IsBlocked t results k name) (run false results stale) t := by
  unfold run
  split
  · exact .pure fun _ _ => .inl rfl
  · refine Endures.bind (Endures.cancelled (Q := fun b u => b = false ∧ u = t) ⟨rfl, rfl⟩) ?_
    rintro _ _ ⟨rfl, rfl⟩
    simp only [Bool.false_eq_true, if_false]
    refine endures_references.bind ?_
    rintro reply _ ⟨rfl, hunused⟩
    split
    · exact .pure fun _ _ => .inl rfl
    · next refs =>
      refine Endures.gather (fun s hs u hu => ?_) fun _ _ => .inl rfl
      obtain ⟨⟨l, other⟩, -, rfl⟩ := List.mem_map.1 hs
      refine (endures_task refs).mono ?_
      rintro _ _ (rfl | ⟨hfree, rfl⟩)
      · exact hu
      · intro k name
        rw [Tables.get?_erase]
        split
        · next hsame =>
          obtain ⟨rfl, rfl⟩ := hsame
          exact .inr ⟨rfl, hunused refs rfl _ _ hfree⟩
        · exact hu k name

end Removal

/-- What is not free is blocked by the document of a domain. -/
theorem Tables.exists_blocks_of_not_isFree {t : Tables} {k : DefinedKind} {name : String} (h : ¬ t.IsFree k name) :
    ∃ domain r, t.get? .domain domain = some r ∧ Removal.Blocks r.document k name := by
  simp only [IsFree, not_forall] at h
  obtain ⟨domain, r, hr, hnot⟩ := h
  refine ⟨domain, r, hr, fun e he => ?_⟩
  by_contra hunused
  exact hnot ⟨e, he, by rw [Removal.uses_of]; simpa using hunused⟩

theorem Tables.IsFree.not_blocks {t : Tables} {k : DefinedKind} {name domain : String} {r : StoredResource}
    (h : t.IsFree k name) (hr : t.get? .domain domain = some r) : ¬ Removal.Blocks r.document k name := by
  obtain ⟨e, he, hunused⟩ := h domain r hr
  intro hblocks
  rw [Removal.uses_of, hblocks e he] at hunused
  exact absurd hunused (by simp)

namespace Desired.Course

variable {d : Desired} {timeout : Binary64} {m : Memory} (c : Course d false timeout m) (hm : m.Uncancelled)
  (hplain : d.IsPlain) (hvalid : d.Validates) {k : DefinedKind} {name : String}

include hplain hvalid

/-- **Domains that count as removed are gone.** -/
theorem lacksRemoved (hm : m.Uncancelled) : c.cleared.tables.LacksRemoved c.soFar := by
  intro x hx ⟨hkind, hdeleted⟩
  rcases c.about_results hplain hvalid (k := .domain) (c.mem_results_of_soFar hx) hkind with ⟨hx, -⟩ | ⟨hx, hstale⟩
  · -- what is brought in line is not deleted
    have hkept := (d.confined_kept false timeout (c.ofNetworks ++ c.ofPools)).run_value Memory.answer c.filled
    rw [show Dialogue.run Memory.answer _ c.filled = _ from c.run_domainsInLine] at hkept
    exact absurd ⟨hkind, hdeleted⟩ (hkept _ rfl x hx)
  · obtain ⟨y, hsole, hykind, hyname, hend⟩ := c.gone_domain hm hplain hvalid hstale
    obtain rfl := hsole.2 x hx (hkind.trans hykind.symm) hyname.symm
    exact (hend.resolve_left fun hfailed => absurd (hfailed.symm.trans hdeleted) (by simp)).2

omit hplain hvalid in
theorem get?_final_domain (name : String) :
    c.final.tables.get? .domain name = c.cleared.tables.get? .domain name :=
  c.get?_final fun h => (c.mem_rest_iff.1 h).1 rfl

/-- Networks and pools that are not declared are left as they are until they are removed. -/
theorem get?_cleared_of_undeclared (hk : k ≠ .domain) (hundeclared : name ∉ d.names k) :
    c.cleared.tables.get? k name = m.tables.get? k name := by
  rw [c.get?_cleared (fun h => absurd h hk), c.get?_powered hplain (fun h => absurd h hk),
    c.get?_filled hplain hvalid (by rintro rfl; exact hundeclared),
    c.get?_wired hplain (by rintro rfl; exact hundeclared)]

include hm in
/-- **What is not free in the end stays as it is**, whatever fails. -/
theorem stays_of_not_isFree (hk : k ≠ .domain) (hundeclared : name ∉ d.names k)
    (h : ¬ c.final.tables.IsFree k name) : c.final.tables.get? k name = m.tables.get? k name := by
  have hendures : Endures True c.cleared.polls (fun _ u => ∀ k name,
      u.get? k name = c.cleared.tables.get? k name ∨
        u.get? k name = none ∧ ¬ Removal.IsBlocked c.cleared.tables c.soFar k name)
      (Removal.run false c.soFar c.rest) c.cleared.tables := Removal.endures_run c.rest
  have hend := hendures.run (c.follows_cleared.uncancelled hm) fun hnot => absurd trivial hnot
  rw [show c.cleared.run (Removal.run false c.soFar c.rest) = _ from c.runs_rest] at hend
  rcases hend k name with hsame | ⟨-, hfree⟩
  · exact hsame.trans (c.get?_cleared_of_undeclared hplain hvalid hk hundeclared)
  · obtain ⟨domain, r, hr, hblocks⟩ := Tables.exists_blocks_of_not_isFree h
    rw [c.get?_final_domain] at hr
    refine absurd ⟨domain, r, hr, ?_, hblocks⟩ hfree
    by_contra hremoved
    have hgone := (c.lacksRemoved hplain hvalid hm).get?_eq_none (by simpa using hremoved)
    exact absurd (hgone.symm.trans hr) (by simp)

/-- **On a calm host a stale resource that is free in the end is gone.** -/
theorem gone_of_isFree (hm : m.Calm) (hk : k ≠ .domain) (hname : name ∈ c.stale k)
    (h : c.final.tables.IsFree k name) : c.final.tables.get? k name = none := by
  obtain ⟨x, hsole, hkind, hx, -, hdeleted⟩ := c.rest_of_calm hm hplain hvalid hk hname
  obtain ⟨y, hsole', hkind', hy, hend⟩ := c.gone hm.uncancelled hplain hvalid hname
  obtain rfl := hsole.2 y hsole'.1 (hkind'.trans hkind.symm) (hy.trans hx.symm)
  refine (hend.resolve_left fun hfailed => ?_).2
  rw [hdeleted ?_] at hfailed
  · exact absurd hfailed (by simp)
  · rintro ⟨domain, r, hr, -, hblocks⟩
    rw [← c.get?_final_domain] at hr
    exact h.not_blocks hr hblocks

end Desired.Course

end VirtualTopology
