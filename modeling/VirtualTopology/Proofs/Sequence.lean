import VirtualTopology.Proofs.Pass.Turns

/-!
# The sequence of changes

The changes of a pass come in phases, and in each phase one resource after the other is seen to. This is read off the
turns of the pass: as no errand is on the agenda twice (`Desired.nodup_agenda`), the changes are those of the errands
of the agenda, one behind the other (`Desired.exists_calls`), and those of an errand are some of its steps.

`Settings.phases_apart` says so of whole passes. If all texts are plain then a change on an errand goes to the
resource of the errand (`Desired.target_of_mem_steps`), so that the changes of a resource can be told by their target,
too.
-/

namespace VirtualTopology

namespace Errand

/-- The resource that an errand is about, which for a volume is its pool. -/
def target : Errand → DefinedKind × String
  | started s => (s.kind, s.name)
  | volume pool _ => (.pool, pool)
  | domain x => (.domain, x.name)
  | removal kind name => (kind, name)

end Errand

namespace Pool

variable {p : Pool}

theorem target_of_mem_errands {e : Errand} (he : e ∈ p.errands) : e.target = (.pool, p.name) := by
  rcases List.mem_cons.1 he with rfl | he
  · rfl
  · obtain ⟨entry, -, rfl⟩ := List.mem_map.1 he
    rfl

/-- No errand for a pool comes twice. -/
theorem nodup_errands (h : (p.volumes.map (·.name)).Nodup) : p.errands.Nodup := by
  refine List.nodup_cons.2 ⟨by simp, ?_⟩
  exact (List.Nodup.of_map _ h).map fun a b he => (Errand.volume.inj he).2

end Pool

namespace Desired

variable {d : Desired}

/-! ### The agenda -/

/-- Networks and pools are worked on once each, and so are volumes. -/
theorem nodup_foundations (h : d.Validates) : d.foundations.Nodup := by
  refine List.Nodup.append ?_ (List.nodup_flatMap.2 ⟨fun p hp => Pool.nodup_errands (h.volumes hp), ?_⟩) ?_
  · refine List.Nodup.of_map (fun e => e.target.2) ?_
    rw [List.map_map]
    exact h.networks
  · refine (List.pairwise_map.1 h.pools).imp fun {p q} hne => ?_
    intro e hp hq
    exact hne (congrArg Prod.snd ((Pool.target_of_mem_errands hp).symm.trans (Pool.target_of_mem_errands hq)))
  · intro e hn hp
    obtain ⟨n, -, rfl⟩ := List.mem_map.1 hn
    obtain ⟨p, -, hp⟩ := List.mem_flatMap.1 hp
    exact absurd (congrArg Prod.fst (Pool.target_of_mem_errands hp)) nofun

theorem nodup_machines (h : d.Validates) : d.machines.Nodup := by
  refine List.Nodup.of_map (fun e => e.target.2) ?_
  rw [machines, List.map_map]
  exact h.domains

theorem eq_of_mem_foundations {e : Errand} (he : e ∈ d.foundations) :
    (∃ s, e = .started s) ∨ ∃ pool entry, e = .volume pool entry := by
  rcases List.mem_append.1 he with he | he
  · obtain ⟨n, -, rfl⟩ := List.mem_map.1 he
    exact .inl ⟨_, rfl⟩
  · obtain ⟨p, -, he⟩ := List.mem_flatMap.1 he
    rcases List.mem_cons.1 he with rfl | he
    · exact .inl ⟨_, rfl⟩
    · obtain ⟨entry, -, rfl⟩ := List.mem_map.1 he
      exact .inr ⟨_, _, rfl⟩

theorem eq_of_mem_machines {e : Errand} (he : e ∈ d.machines) : ∃ x ∈ d.domains.items, e = .domain x := by
  obtain ⟨x, hx, rfl⟩ := List.mem_map.1 he
  exact ⟨x, hx, rfl⟩

/-- **No errand is on the agenda twice.** -/
theorem nodup_agenda (h : d.Validates) {domains : List String} {rest : List (DefinedKind × String)}
    (hdomains : d.Undeclared (domains.map (DefinedKind.domain, ·))) (hrest : d.Undeclared rest)
    (hkinds : ∀ s ∈ rest, s.1 ≠ .domain) : (d.agenda domains rest).Nodup := by
  have hworks : ∀ e ∈ d.foundations ++ d.machines, ∀ k name, e ≠ .removal k name := by
    intro e he k name
    rcases List.mem_append.1 he with he | he
    · rcases eq_of_mem_foundations he with ⟨s, rfl⟩ | ⟨pool, entry, rfl⟩ <;> exact nofun
    · obtain ⟨x, -, rfl⟩ := eq_of_mem_machines he
      exact nofun
  have hdeclared : (d.foundations ++ d.machines).Nodup := by
    refine (nodup_foundations h).append (nodup_machines h) fun e hf hm => ?_
    obtain ⟨x, -, rfl⟩ := eq_of_mem_machines hm
    rcases eq_of_mem_foundations hf with ⟨s, hs⟩ | ⟨pool, entry, he⟩
    · exact absurd hs nofun
    · exact absurd he nofun
  -- a domain is not removed together with networks and pools
  refine List.Nodup.append (hdeclared.append ?_ fun e he hr => ?_) ?_ fun e he hr => ?_
  · exact (List.Nodup.of_map _ hdomains.nodup).map fun a b hab => (Errand.removal.inj hab).2
  · obtain ⟨name, -, rfl⟩ := List.mem_map.1 hr
    exact hworks _ he _ _ rfl
  · exact hrest.nodup.map fun a b hab => Prod.ext (Errand.removal.inj hab).1 (Errand.removal.inj hab).2
  · obtain ⟨x, hx, rfl⟩ := List.mem_map.1 hr
    rcases List.mem_append.1 he with he | he
    · exact hworks _ he _ _ rfl
    · obtain ⟨name, -, hname⟩ := List.mem_map.1 he
      exact hkinds x hx (Errand.removal.inj hname).1.symm

/-! ### The changes of the errands -/

/-- **The changes of proper turns are those of the errands of an agenda**, one behind the other, if no errand is on it
twice. -/
theorem exists_calls {cancels : Nat → Bool} {ts : List Turn} (hproper : ∀ T ∈ ts, T.Proper d cancels)
    {agenda : List Errand} (hnodup : agenda.Nodup) (hsub : (ts.filterMap (·.errand)).Sublist agenda) :
    ∃ calls : Errand → List Call, (∀ e, (calls e).Sublist e.steps) ∧
      changes (ts.flatMap (·.calls)) = agenda.flatMap calls := by
  classical
  induction ts generalizing agenda with
  | nil => exact ⟨fun _ => [], fun e => List.nil_sublist _, by simp⟩
  | cons T ts ih =>
    have hT := hproper T (by simp)
    have htail : ∀ T ∈ ts, T.Proper d cancels := fun T' hT' => hproper T' (by simp [hT'])
    rw [List.flatMap_cons, changes_append]
    cases herrand : T.errand with
    | none =>
      -- nothing is changed between errands
      rw [List.filterMap_cons_none herrand] at hsub
      obtain ⟨calls, hsteps, hcalls⟩ := ih htail hnodup hsub
      exact ⟨calls, hsteps, by rw [(hT.idle (.inl herrand)).1, List.nil_append, hcalls]⟩
    | some e =>
      -- the errands before this one have been left out
      rw [List.filterMap_cons_some herrand] at hsub
      obtain ⟨skipped, after, rfl, he, hafter⟩ := List.cons_sublist_iff.1 hsub
      obtain ⟨before, between, rfl⟩ := List.append_of_mem he
      rw [List.append_assoc, List.cons_append] at hnodup ⊢
      have hsplit := List.nodup_append.1 hnodup
      have hfresh := List.nodup_cons.1 hsplit.2.1
      obtain ⟨calls, hsteps, hcalls⟩ := ih htail hfresh.2 (hafter.trans (List.sublist_append_right _ _))
      refine ⟨fun x => if x = e then changes T.calls else if x ∈ before then [] else calls x, fun x => ?_, ?_⟩
      · dsimp only
        split
        · next hx => exact hx ▸ hT.steps e herrand
        · split
          · exact List.nil_sublist _
          · exact hsteps x
      · have hbefore : before.flatMap (fun x => if x = e then changes T.calls else if x ∈ before then [] else
            calls x) = [] := by
          refine List.flatMap_eq_nil_iff.2 fun x hx => ?_
          rw [if_neg (fun hxe => hsplit.2.2 x hx e (by simp) hxe), if_pos hx]
        have hrest : (between ++ after).flatMap (fun x => if x = e then changes T.calls else if x ∈ before then []
            else calls x) = (between ++ after).flatMap calls := by
          refine List.flatMap_congr fun x hx => ?_
          rw [if_neg (fun hxe : x = e => hfresh.1 (hxe ▸ hx)), if_neg (fun hb => hsplit.2.2 x hb x (by simp [hx]) rfl)]
        rw [List.flatMap_append, hbefore, List.nil_append, List.flatMap_cons, if_pos rfl, hrest, hcalls]

/-- The steps of an errand for a network or a pool go to it if its document has its name. -/
theorem target_of_mem_started {s : Started} (hname : ∀ text, s.text = .ok text → nameInDocument text = s.name)
    {c : Call} (hc : c ∈ s.steps) : c.target = (s.kind, some s.name) := by
  rcases List.mem_append.1 hc with hc | hc
  · obtain ⟨text, htext, rfl⟩ := List.mem_map.1 hc
    have hok := Except.eq_ok_of_mem_toOption (Option.mem_toList.1 htext)
    rw [Call.target, hname text hok]
  · simp only [List.mem_cons, List.not_mem_nil, or_false] at hc
    rcases hc with rfl | rfl | rfl <;> rfl

/-- **If all texts are plain, the steps of an errand go to its resource.** -/
theorem target_of_mem_steps (h : d.Validates) (hplain : d.IsPlain) {domains : List String}
    {rest : List (DefinedKind × String)} {e : Errand} (he : e ∈ d.agenda domains rest) {c : Call}
    (hc : c ∈ e.steps) : c.target = (e.target.1, some e.target.2) := by
  -- the documents of plain texts have the names of their resources, and all other calls name them directly
  cases e with
  | started s =>
    refine target_of_mem_started (fun text htext => ?_) hc
    have hs : .started s ∈ d.foundations := by
      simpa [agenda, machines] using he
    rcases List.mem_append.1 hs with hs | hs
    · obtain ⟨n, hn, hs⟩ := List.mem_map.1 hs
      obtain rfl := Errand.started.inj hs
      exact n.nameInDocument_of_started (hplain.network hn) htext
    · obtain ⟨p, hp, hs⟩ := List.mem_flatMap.1 hs
      rcases List.mem_cons.1 hs with hs | hs
      · obtain rfl := Errand.started.inj hs
        exact p.nameInDocument_of_started (h.pool_isSound hplain hp) htext
      · exact absurd hs (by simp)
  | volume pool entry =>
    rcases List.mem_append.1 hc with hc | hc
    · obtain ⟨v, -, hc⟩ := List.mem_flatMap.1 hc
      rcases List.mem_append.1 hc with hc | hc
      · obtain ⟨text, -, rfl⟩ := List.mem_map.1 hc
        rfl
      · rw [List.mem_singleton.1 hc]
        rfl
    · rw [List.mem_singleton.1 hc]
      rfl
  | domain x =>
    have hx : x ∈ d.domains.items := by
      simpa [agenda, foundations, machines, Pool.errands] using he
    rcases List.mem_append.1 hc with hc | hc
    · obtain ⟨text, htext, rfl⟩ := List.mem_map.1 hc
      have hok := Except.eq_ok_of_mem_toOption (Option.mem_toList.1 htext)
      rw [Call.target, x.nameInDocument_of_written (hplain.domain hx) hok]
      rfl
    · simp only [Domain.powerSteps, List.mem_cons, List.not_mem_nil, or_false] at hc
      rcases hc with rfl | rfl | rfl <;> rfl
  | removal kind name =>
    rw [List.mem_singleton.1 hc]
    rfl


/-- Whether changes come in the phases of a pass. Each errand has its own changes (`calls`), which are some of its
steps, in order; and those of networks and pools with their volumes come first, then those of domains, then those of
stale domains, and last those of stale networks and pools. -/
def InPhases (d : Desired) (cs : List Call) : Prop :=
  ∃ (calls : Errand → List Call) (domains : List String) (rest : List (DefinedKind × String)),
    d.Undeclared (domains.map (DefinedKind.domain, ·)) ∧ d.Undeclared rest ∧ (∀ x ∈ rest, x.1 ≠ .domain) ∧
    (d.agenda domains rest).Nodup ∧ (∀ e, (calls e).Sublist e.steps) ∧
    cs = d.foundations.flatMap calls ++ d.machines.flatMap calls ++
      (domains.map (.removal .domain)).flatMap calls ++
      (rest.map fun x => .removal x.1 x.2).flatMap calls ∧
    (d.IsPlain → ∀ e ∈ d.agenda domains rest, ∀ c ∈ calls e, c.target = (e.target.1, some e.target.2))

end Desired

end VirtualTopology
