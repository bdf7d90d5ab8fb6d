import VirtualTopology.Proofs.Completeness
import VirtualTopology.Proofs.Pass.Apart

/-!
# One result for each resource

If there is no slash in the names of pools, no two results of a pass are about the same resource, except for equal
ones (`Desired.Course.areSole_results`); there can be equal ones only of a kind that is not managed, if a name is
listed twice. So results in another order are sorted alike (`Report.of_perm`), and what is said first of a resource
is the same in every order (`Result.find?_perm`).
-/

namespace VirtualTopology

open Dialogue

/-! ### Results that are the only ones about their resources -/

namespace Result

variable {xs ys : List Result}

/-- Whether each result is the only one about its resource. -/
def AreSole (xs : List Result) : Prop := ∀ x ∈ xs, x.IsSole xs

theorem AreSole.eq (h : AreSole xs) {x y : Result} (hx : x ∈ xs) (hy : y ∈ xs) (hkind : y.kind = x.kind)
    (hname : y.name = x.name) : y = x :=
  (h x hx).2 y hy hkind hname

theorem AreSole.subset (h : AreSole ys) (hsub : xs ⊆ ys) : AreSole xs := fun _ hx =>
  ⟨hx, fun _ hy hkind hname => h.eq (hsub hx) (hsub hy) hkind hname⟩

/-- Results about different resources. -/
theorem areSole_of_nodup (h : (xs.map key).Nodup) : AreSole xs := fun _ hx =>
  ⟨hx, fun _ hy hkind hname => List.inj_on_of_nodup_map h hy hx (Prod.ext hkind hname)⟩

/-- What is said first of a resource. -/
theorem find?_perm (h : AreSole xs) (hperm : xs.Perm ys) (kind : ResourceKind) (name : String) :
    xs.find? (fun x => x.kind == kind && x.name == name) = ys.find? fun x => x.kind == kind && x.name == name := by
  cases hx : xs.find? fun x => x.kind == kind && x.name == name with
  | none =>
    refine (List.find?_eq_none.2 fun y hy => ?_).symm
    exact List.find?_eq_none.1 hx y (hperm.mem_iff.2 hy)
  | some x =>
    have hmem := List.mem_of_find?_eq_some hx
    have habout : x.kind = kind ∧ x.name = name := by simpa using List.find?_some hx
    cases hy : ys.find? fun x => x.kind == kind && x.name == name with
    | none =>
      have hnot := List.find?_eq_none.1 hy x (hperm.mem_iff.1 hmem)
      exact absurd hnot (by simp [habout])
    | some y =>
      have habout' : y.kind = kind ∧ y.name = name := by simpa using List.find?_some hy
      rw [h.eq hmem (hperm.mem_iff.2 (List.mem_of_find?_eq_some hy)) (habout'.1.trans habout.1.symm)
        (habout'.2.trans habout.2.symm)]

end Result

/-- Results that are the only ones about their resources are sorted alike in every order. -/
theorem Report.of_perm {xs ys : List Result} (h : Result.AreSole xs) (hperm : xs.Perm ys) (dry : Bool) :
    Report.of xs dry = .of ys dry := by
  have hsorted : ∀ zs : List Result, (zs.mergeSort Result.before).Pairwise fun x y => x.before y = true :=
    List.pairwise_mergeSort (fun _ _ _ => Result.before_trans) Result.before_total
  have hsame : xs.mergeSort Result.before = ys.mergeSort Result.before := by
    refine List.Perm.eq_of_pairwise (fun x y hx hy hxy hyx => ?_) (hsorted xs) (hsorted ys)
      ((List.mergeSort_perm xs _).trans (hperm.trans (List.mergeSort_perm ys _).symm))
    simp only [Result.before, Bool.or_eq_true, Bool.and_eq_true, decide_eq_true_eq, beq_iff_eq] at hxy hyx
    have hkind : x.kind = y.kind := by
      rcases hxy with hxy | hxy
      · rcases hyx with hyx | hyx
        · omega
        · exact hyx.1.symm
      · exact hxy.1
    rw [hkind] at hxy hyx
    have hname : x.name = y.name := String.le_antisymm (by simpa using hxy) (by simpa using hyx)
    exact h.eq (hperm.mem_iff.2 (List.mem_mergeSort.1 hy)) (List.mem_mergeSort.1 hx) hkind hname
  rw [of, of, hsame]

/-! ### The results of a kind -/

theorem Recorded.Covers.areSole {keys : List (ResourceKind × String)} {rs : List Result}
    (h : Recorded.Covers keys (.ok rs)) (hkeys : keys.Nodup) : Result.AreSole rs :=
  Result.areSole_of_nodup ((h rs rfl).nodup_iff.2 hkeys)

/-- What a dialogue that covers different resources comes to. -/
theorem Dialogue.Confined.areSole {t : Talk Recorded} {p : Query → Prop} {keys : List (ResourceKind × String)}
    {m n : Memory} {rs : List Result} (h : t.Confined p (Recorded.Covers keys)) (hkeys : keys.Nodup)
    (hrun : m.run t = (.ok rs, n)) : Result.AreSole rs := by
  have hvalue := h.run_value Memory.answer m
  rw [show Dialogue.run Memory.answer t m = _ from hrun] at hvalue
  exact hvalue.areSole hkeys

namespace Stock

variable {α : Type} {kind : DefinedKind} {managed : Bool} {m m' n n' : Memory} {s : Stock} {declared : List α}
  {name : α → String} {lost : α → List Result} {task : α → Bool → Talk Recorded}

/-- What is left alone is only named. -/
theorem take_leftAlone {results : List Result} (h : m.run (take kind managed) = (.leftAlone results, m'))
    {x : Result} (hx : x ∈ results) : x = { kind := kind.resource, name := x.name, outcome := .skippedUnmanaged } := by
  have hconfined : (take kind managed).Confined (fun _ => True) fun s => ∀ results, s = .leftAlone results →
      ∀ x ∈ results, x = { kind := kind.resource, name := x.name, outcome := .skippedUnmanaged } := by
    refine (confined_true (Call.list kind).ask).bind fun reply _ => ?_
    split
    · exact Confined.pure fun _ h => nomatch h
    · exact Confined.pure fun _ h => nomatch h
    · refine Confined.pure fun results h => ?_
      obtain rfl := Stock.leftAlone.inj h
      exact List.forall_mem_map.2 fun _ _ => rfl
    · refine Confined.pure fun results h => ?_
      obtain rfl := Stock.leftAlone.inj h
      simp
  have hvalue := hconfined.run_value Memory.answer m
  rw [show Dialogue.run Memory.answer _ m = _ from h] at hvalue
  exact hvalue results rfl x hx

/-- **Each result for the resources of a kind is the only one about its resource**, if their tasks cover different
resources. -/
theorem areSole_tasks {p : Query → Prop} {more : α → List (ResourceKind × String)}
    (htake : m.run (take kind managed) = (s, m'))
    (htask : ∀ a ∈ declared, ∀ b, (task a b).Confined p (Recorded.Covers ((kind.resource, name a) :: more a)))
    (hlost : ∀ a ∈ declared, Recorded.Covers (more a) (.ok (lost a)))
    (hkeys : (declared.flatMap fun a => (kind.resource, name a) :: more a).Nodup) {rs : List Result}
    (hrun : n.run (gather (s.tasks kind declared name lost task)) = (.ok rs, n')) : Result.AreSole rs := by
  cases s with
  | leftAlone results =>
    have hrs : results ++ [] = rs := Except.ok.inj (congrArg Prod.fst hrun)
    rw [List.append_nil] at hrs
    subst hrs
    refine fun x hx => ⟨hx, fun y hy _ hname => ?_⟩
    rw [take_leftAlone htake hx, take_leftAlone htake hy, hname]
  | unknown reason =>
    rw [run_tasks_unknown] at hrun
    obtain rfl := Except.ok.inj (congrArg Prod.fst hrun)
    refine Result.areSole_of_nodup (List.Perm.nodup_iff ?_ |>.2 hkeys)
    refine List.Perm.trans ?_ (List.map_append_flatMap_perm declared _ more)
    rw [List.map_append, List.map_map, List.map_flatMap]
    exact List.Perm.append_left _ (List.Perm.flatMap_left declared fun a ha => hlost a ha _ rfl)
  | known names => exact (Confined.gather_covers fun a ha => htask a ha _).areSole hkeys hrun

/-- Each result for the resources of a kind is the only one about its resource, if each task has one. -/
theorem areSole_single {p : Query → Prop} (htake : m.run (take kind managed) = (s, m'))
    (htask : ∀ a ∈ declared, ∀ b, (task a b).Confined p (Recorded.Covers [(kind.resource, name a)]))
    (hnames : (declared.map name).Nodup) {rs : List Result}
    (hrun : n.run (gather (s.tasks kind declared name (fun _ => []) task)) = (.ok rs, n')) : Result.AreSole rs := by
  refine areSole_tasks htake htask (fun _ _ => Recorded.covers_ok (.refl _)) ?_ hrun
  rw [← List.map_eq_flatMap (f := fun a => (kind.resource, name a))]
  have hnodup := hnames.map fun _ _ heq => congrArg Prod.snd (show (kind.resource, _) = (kind.resource, _) from heq)
  rwa [List.map_map] at hnodup

end Stock

/-! ### The results of a pass -/

namespace Desired

variable {d : Desired}

/-- **Pools and volumes have different labels**, if there is no slash in the names of pools. -/
theorem Validates.nodup_poolKeys (hvalid : d.Validates) (hslash : ∀ p ∈ d.pools.items, '/' ∉ p.name.toList) :
    (d.pools.items.flatMap fun p => (ResourceKind.pool, p.name) :: p.volumeKeys p.volumes).Nodup := by
  refine List.nodup_flatMap.2 ⟨fun p hp => List.nodup_cons.2 ⟨by simp [Pool.volumeKeys], ?_⟩, ?_⟩
  · have hlabels := List.pairwise_map.1 (hvalid.volumes hp)
    refine List.pairwise_map.2 (hlabels.imp fun hne heq => hne ?_)
    exact (volumeLabel_inj (hslash p hp) (hslash p hp) (Prod.mk.inj heq).2).2
  · refine (List.pairwise_map.1 hvalid.pools).imp_of_mem fun {p q} hp hq hne => ?_
    refine List.disjoint_left.2 fun key hkey hkey' => ?_
    rcases List.mem_cons.1 hkey with rfl | hkey
    · rcases List.mem_cons.1 hkey' with heq | hkey'
      · exact hne (Prod.mk.inj heq).2
      · obtain ⟨e, -, heq⟩ := List.mem_map.1 hkey'
        exact absurd heq (by simp)
    · obtain ⟨e, -, rfl⟩ := List.mem_map.1 hkey
      rcases List.mem_cons.1 hkey' with heq | hkey'
      · exact absurd heq (by simp)
      · obtain ⟨e', -, heq⟩ := List.mem_map.1 hkey'
        exact hne (volumeLabel_inj (hslash q hq) (hslash p hp) (Prod.mk.inj heq).2).1.symm

namespace Course

variable {dry : Bool} {timeout : Binary64} {m : Memory} (c : d.Course dry timeout m) (hplain : d.IsPlain)
  (hvalid : d.Validates) (hslash : ∀ p ∈ d.pools.items, '/' ∉ p.name.toList)

include hvalid hslash in
theorem areSole_ofDeclared (k : DefinedKind) : Result.AreSole (c.ofDeclared k) := by
  cases k with
  | network =>
    have hcovers : ∀ n ∈ d.networks.items, ∀ b, (n.task dry b).Confined (fun _ => True)
        (Recorded.Covers [(DefinedKind.network.resource, n.name)]) := fun n _ b =>
      (n.covers dry b).mono (fun _ _ => trivial) fun _ => id
    exact Stock.areSole_single c.takesNetworks hcovers hvalid.networks c.runsNetworks
  | pool =>
    exact Stock.areSole_tasks c.takesPools (fun p _ b => p.covers dry b) (fun p _ => Pool.covers_volumesFailed _ _ _)
      (hvalid.nodup_poolKeys hslash) c.runsPools
  | domain =>
    exact Stock.areSole_single c.takesDomains (fun x _ b => x.covers dry timeout _ b) hvalid.domains c.runsDomains

theorem areSole_ofStale (k : DefinedKind) : Result.AreSole (c.ofStale k) := by
  have hrest : Result.AreSole c.ofRest := by
    refine (Removal.covers_run dry _ c.rest).areSole (c.nodup_rest.map fun s s' heq => ?_) c.runs_rest
    obtain ⟨hkind, hname⟩ := Prod.mk.inj heq
    exact Prod.ext (DefinedKind.resource_injective hkind) hname
  cases k with
  | network | pool => exact hrest
  | domain =>
    have hremoval : ∀ name ∈ c.domains.stale (d.names .domain),
        (Domain.removal dry name).Confined (Query.CallsOnly (Call.IsProper dry .domain name))
          (Recorded.Covers [(.domain, name)]) := fun name _ => (Domain.frank_remove dry name).covers_recorded
    have hcovers : (gather ((c.domains.stale (d.names .domain)).map (Domain.removal dry))).Confined (fun _ => True)
        (Recorded.Covers ((c.domains.stale (d.names .domain)).flatMap fun name => [(.domain, name)])) :=
      Confined.gather_covers fun name hname => (hremoval name hname).mono (fun _ _ => trivial) fun _ => id
    refine hcovers.areSole ?_ c.runsRemovals
    rw [← List.map_eq_flatMap (f := fun name => (ResourceKind.domain, name))]
    exact (Stock.nodup_stale _ _).map fun _ _ heq => (Prod.mk.inj heq).2

include hplain in
/-- What is said of volumes is said when pools are brought in line. -/
theorem mem_ofPools_of_volume {x : Result} (hx : x ∈ c.results) (hkind : x.kind = .volume) : x ∈ c.ofPools := by
  rcases c.mem_results_iff.1 hx with hx | hx | hx | hx | hx
  · exact absurd ((c.about_networks hplain hx).1.symm.trans hkind) (by simp)
  · exact hx
  · exact absurd ((c.about_domains hplain hx).1.symm.trans hkind) (by simp)
  · exact absurd ((c.about_removals hx).1.symm.trans hkind) (by simp)
  · obtain ⟨k, hk, -⟩ := c.about_rest hx
    exact absurd (hk.symm.trans hkind) (by cases k <;> simp [DefinedKind.resource])

include hplain hvalid hslash in
/-- **Each result of a pass is the only one about its resource.** -/
theorem areSole_results : Result.AreSole c.results := by
  intro x hx
  -- the results of a kind are about what is declared, about all there is if it is not managed, or about what is stale
  have hdefined : ∀ k : DefinedKind, x.kind = k.resource → x.IsSole c.results := fun k hkind => by
    rcases c.about_results hplain hvalid hx hkind with ⟨hdeclared, hname | hunmanaged⟩ | ⟨hstale, hname⟩
    · exact c.isSole_of_declared hplain hvalid (c.areSole_ofDeclared hvalid hslash k x hdeclared) hkind hname
    · refine ⟨hx, fun y hy hykind hyname => ?_⟩
      rcases c.about_results hplain hvalid hy (hykind.trans hkind) with ⟨hydeclared, -⟩ | ⟨-, hystale⟩
      · exact (c.areSole_ofDeclared hvalid hslash k).eq hdeclared hydeclared hykind hyname
      · exact absurd ((c.mem_stale hplain hvalid hystale).1.symm.trans hunmanaged) (by simp)
    · exact c.isSole_of_stale hplain hvalid (c.areSole_ofStale k x hstale) hkind hname
  cases hkind : x.kind with
  | network => exact hdefined .network hkind
  | pool => exact hdefined .pool hkind
  | domain => exact hdefined .domain hkind
  | volume =>
    refine ⟨hx, fun y hy hykind hyname => ?_⟩
    have hxpool := c.mem_ofPools_of_volume hplain hx hkind
    have hypool := c.mem_ofPools_of_volume hplain hy (hykind.trans hkind)
    exact (c.areSole_ofDeclared hvalid hslash .pool).eq hxpool hypool hykind hyname

end Course

end Desired

end VirtualTopology
