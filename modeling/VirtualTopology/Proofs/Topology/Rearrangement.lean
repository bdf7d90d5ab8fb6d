import Mathlib.Data.List.Forall2
import VirtualTopology.Proofs.Topology.Coherence

/-!
# Rearranged desired states

A desired state is rearranged if its networks, pools and domains, and the entries for volumes inside each pool,
are declared in another order (`Desired.Rearranges`). A rearranged desired state has the same texts and validates
as well (`Desired.Rearranges.validates`): every check is about each resource on its own, about what is repeated, or
about what names lead to, and if no name is repeated a name leads to the same.
-/

namespace VirtualTopology

/-! ### Lists in another order -/

/-- A pool with its entries for volumes in another order. -/
structure Pool.Rearranges (p q : Pool) : Prop where
  volumes : p.volumes.Perm q.volumes
  rest : { p with volumes := q.volumes } = q

namespace Pool.Rearranges

variable {p q : Pool} (h : p.Rearranges q)

include h

theorem name : p.name = q.name := by
  rw [← h.rest]

theorem active : p.active = q.active := by
  rw [← h.rest]

theorem texts {s : String} (hs : s ∈ q.texts) : s ∈ p.texts := by
  rw [← h.rest] at hs
  exact (List.Perm.append_left _ (h.volumes.symm.flatMap_right _)).mem_iff.1 hs

/-- A name leads to the same entry for a volume, if no name is repeated. -/
theorem entry? (hnodup : (p.volumes.map (·.name)).Nodup) (volume : String) : p.entry? volume = q.entry? volume := by
  have hfound : ∀ {xs : List VolumeEntry}, (xs.map (·.name)).Nodup → ∀ {e : VolumeEntry},
      xs.find? (·.name == volume) = some e ↔ e ∈ xs ∧ e.name = volume := fun {xs} hxs e => by
    have hlast : Audit.lastNamed? (·.name) xs.reverse volume = some e ↔ e ∈ xs.reverse ∧ e.name = volume :=
      Audit.lastNamed?_eq_some_iff (by rw [List.map_reverse, List.nodup_reverse]; exact hxs)
    rwa [Audit.lastNamed?, List.reverse_reverse, List.mem_reverse] at hlast
  refine Option.ext fun e => ?_
  rw [Pool.entry?, Pool.entry?, hfound hnodup, hfound ((h.volumes.map _).nodup_iff.1 hnodup), h.volumes.mem_iff]

/-- A sound pool is sound in every order. -/
theorem isSound (hp : p.IsSound) : q.IsSound where
  plain s hs := hp.plain s (h.texts hs)
  sound e he := hp.sound e (h.volumes.mem_iff.2 he)
  names := (h.volumes.map _).nodup_iff.1 hp.names
  active hne := h.active ▸ hp.active fun hnil => hne (List.perm_nil.1 (hnil ▸ h.volumes.symm))

end Pool.Rearranges

/-! ### What is declared of a kind -/

/-- The same resources of a kind in another order, as far as they are the same in some sense. -/
inductive Declared.Rearranges {α : Type} (R : α → α → Prop) : Declared α → Declared α → Prop where
  | unmanaged (assumed : List String) : Rearranges R (.unmanaged assumed) (.unmanaged assumed)
  | managed {as bs cs : List α} (same : List.Forall₂ R as cs) (perm : bs.Perm cs) :
      Rearranges R (.managed as) (.managed bs)

namespace Declared.Rearranges

variable {α β : Type} {R : α → α → Prop} {x y : Declared α} (h : x.Rearranges R y)

include h

theorem isManaged : x.isManaged = y.isManaged := by
  cases h <;> rfl

theorem exists_perm : ∃ cs, List.Forall₂ R x.items cs ∧ y.items.Perm cs := by
  cases h with
  | unmanaged assumed => exact ⟨[], .nil, .nil⟩
  | managed same perm => exact ⟨_, same, perm⟩

/-- What has been declared before. -/
theorem exists_of_mem {b : α} (hb : b ∈ y.items) : ∃ a ∈ x.items, R a b := by
  obtain ⟨cs, hsame, hperm⟩ := h.exists_perm
  obtain ⟨i, hi, rfl⟩ := List.getElem_of_mem (hperm.mem_iff.1 hb)
  have hix : i < x.items.length := hsame.length_eq ▸ hi
  exact ⟨x.items[i], List.getElem_mem hix, hsame.get hix hi⟩

/-- What is still declared. -/
theorem exists_mem {a : α} (ha : a ∈ x.items) : ∃ b ∈ y.items, R a b := by
  obtain ⟨cs, hsame, hperm⟩ := h.exists_perm
  obtain ⟨i, hi, rfl⟩ := List.getElem_of_mem ha
  have hic : i < cs.length := hsame.length_eq ▸ hi
  exact ⟨cs[i], hperm.mem_iff.2 (List.getElem_mem hic), hsame.get hi hic⟩

/-- What does not tell resources that are the same from each other is in another order, too. -/
theorem perm_map {f : α → β} (hf : ∀ a b, R a b → f a = f b) : (x.items.map f).Perm (y.items.map f) := by
  obtain ⟨cs, hsame, hperm⟩ := h.exists_perm
  have heq : x.items.map f = cs.map f := by
    rw [← List.forall₂_eq_eq_eq, List.forall₂_map_left_iff, List.forall₂_map_right_iff]
    exact hsame.imp hf
  rw [heq]
  exact (hperm.map f).symm

/-- What comes with each resource. -/
theorem perm_flatMap {f : α → List β} (hf : ∀ a b, R a b → (f a).Perm (f b)) :
    (x.items.flatMap f).Perm (y.items.flatMap f) := by
  obtain ⟨cs, hsame, hperm⟩ := h.exists_perm
  refine List.Perm.trans ?_ (hperm.flatMap_right f).symm
  clear hperm
  generalize x.items = as at hsame
  induction hsame with
  | nil => exact .nil
  | cons hab _ ih =>
    rw [List.flatMap_cons, List.flatMap_cons]
    exact (hf _ _ hab).append ih

theorem resolves (nameOf : α → String) (hname : ∀ a b, R a b → nameOf a = nameOf b) (name : String) :
    Audit.resolves x nameOf name = Audit.resolves y nameOf name := by
  have hperm := h.perm_map hname
  cases h with
  | unmanaged assumed => rfl
  | managed same perm =>
    have hany : ∀ as : List α, as.any (nameOf · == name) = (as.map nameOf).any (· == name) := fun as => by
      rw [List.any_map]
      rfl
    rw [Audit.resolves, Audit.resolves, hany, hany]
    exact hperm.any_eq

omit h in
theorem perm {xs ys : Declared α} (h : xs.Rearranges (· = ·) ys) : xs.items.Perm ys.items := by
  have hmap := h.perm_map (f := id) fun _ _ => id
  rwa [List.map_id, List.map_id] at hmap

/-- A name leads to the same resource, if no name is repeated. -/
theorem lastNamed? (nameOf : α → String) (hname : ∀ a b, R a b → nameOf a = nameOf b)
    (hnodup : (x.items.map nameOf).Nodup) (wanted : String) :
    (Audit.lastNamed? nameOf x.items wanted = none ∧ Audit.lastNamed? nameOf y.items wanted = none) ∨
      ∃ a b, Audit.lastNamed? nameOf x.items wanted = some a ∧ Audit.lastNamed? nameOf y.items wanted = some b ∧
        a ∈ x.items ∧ R a b := by
  have hnodup' := (h.perm_map hname).nodup_iff.1 hnodup
  cases hx : Audit.lastNamed? nameOf x.items wanted with
  | none =>
    refine .inl ⟨rfl, Option.eq_none_iff_forall_not_mem.2 fun b hb => ?_⟩
    obtain ⟨hmem, hwanted⟩ := (Audit.lastNamed?_eq_some_iff hnodup').1 hb
    obtain ⟨a, ha, hab⟩ := h.exists_of_mem hmem
    have hfound := (Audit.lastNamed?_eq_some_iff hnodup).2 ⟨ha, (hname a b hab).trans hwanted⟩
    exact absurd (hx.symm.trans hfound) (by simp)
  | some a =>
    obtain ⟨ha, hwanted⟩ := (Audit.lastNamed?_eq_some_iff hnodup).1 hx
    obtain ⟨b, hb, hab⟩ := h.exists_mem ha
    exact .inr ⟨a, b, rfl, (Audit.lastNamed?_eq_some_iff hnodup').2 ⟨hb, (hname a b hab).symm.trans hwanted⟩, ha, hab⟩

end Declared.Rearranges

/-! ### Desired states -/

/-- A desired state with its networks, pools and domains, and the entries for volumes inside each pool, declared in
another order. -/
structure Desired.Rearranges (d d' : Desired) : Prop where
  networks : d.networks.Rearranges (· = ·) d'.networks
  pools : d.pools.Rearranges Pool.Rearranges d'.pools
  domains : d.domains.Rearranges (· = ·) d'.domains

namespace Desired.Rearranges

open Audit

variable {d d' : Desired} (h : d.Rearranges d')

include h

theorem poolNames : (d.pools.items.map (·.name)).Perm (d'.pools.items.map (·.name)) :=
  h.pools.perm_map fun _ _ hpq => hpq.name

/-- **The texts of a rearranged desired state** are those from before. -/
theorem isPlain (hplain : d.IsPlain) : d'.IsPlain := by
  have hkind : ∀ {α : Type} {R : α → α → Prop} {x y : Declared α} {item : α → List String}, x.Rearranges R y →
      (∀ a b, R a b → ∀ s ∈ item b, s ∈ item a) → ∀ s ∈ y.texts item, s ∈ x.texts item := by
    intro α R x y item hxy hitem s hs
    have hmem := fun b => hxy.exists_of_mem (b := b)
    cases hxy with
    | unmanaged assumed => exact hs
    | managed same perm =>
      obtain ⟨b, hb, hs⟩ := List.mem_flatMap.1 hs
      obtain ⟨a, ha, hab⟩ := hmem b hb
      exact List.mem_flatMap.2 ⟨a, ha, hitem a b hab s hs⟩
  intro s hs
  refine hplain s ?_
  simp only [Desired.texts, List.mem_append] at hs ⊢
  rcases hs with (hs | hs) | hs
  · exact .inl (.inl (hkind h.networks (fun _ _ heq s hs => heq ▸ hs) s hs))
  · exact .inl (.inr (hkind h.pools (fun _ _ hpq s hs => hpq.texts hs) s hs))
  · exact .inr (hkind h.domains (fun _ _ heq s hs => heq ▸ hs) s hs)

/-- A disk has the same issues, if no name is repeated. -/
theorem checkDisk_eq (hpools : (d.pools.items.map (·.name)).Nodup)
    (hvolumes : ∀ p ∈ d.pools.items, (p.volumes.map (·.name)).Nodup) (k : Disk) :
    checkDisk d k = checkDisk d' k := by
  unfold checkDisk
  rw [h.pools.resolves (·.name) fun _ _ hpq => hpq.name]
  rcases h.pools.lastNamed? (·.name) (fun _ _ hpq => hpq.name) hpools k.pool with ⟨hx, hy⟩ | ⟨p, q, hx, hy, hp, hpq⟩
  · rw [hx, hy]
  · rw [hx, hy]
    dsimp only
    rw [hpq.entry? (hvolumes p hp)]

/-- **A rearranged desired state validates**, if the desired state does. -/
theorem validates (hvalid : d.Validates) : d'.Validates := by
  obtain ⟨hnetworks, hpools, hdomains, hnetwork, hbridges, hpool, hdomain, hclaims⟩ :=
    audit_eq_nil_iff.1 hvalid.audit
  have hwired := h.networks.perm
  have hguests := h.domains.perm
  -- names are distinct, so the last network of a name is the only one
  have hplaced : ∀ wanted, lastNamed? (·.name) d.networks.items wanted
      = lastNamed? (·.name) d'.networks.items wanted := by
    intro wanted
    rcases h.networks.lastNamed? (·.name) (fun _ _ => congrArg _) hnetworks wanted with
      ⟨hx, hy⟩ | ⟨a, b, hx, hy, -, rfl⟩
    · rw [hx, hy]
    · rw [hx, hy]
  refine ⟨fun q hq e he => ?_,
    audit_eq_nil_iff.2 ⟨?_, ?_, ?_, fun n hn => ?_, ?_, fun q hq => ?_, fun x hx => ?_, ?_⟩⟩
  · obtain ⟨p, hp, hpq⟩ := h.pools.exists_of_mem hq
    exact hvalid.entries p hp e (hpq.volumes.mem_iff.2 he)
  · exact (hwired.map _).nodup_iff.1 hnetworks
  · exact h.poolNames.nodup_iff.1 hpools
  · exact (hguests.map _).nodup_iff.1 hdomains
  · exact hnetwork n (hwired.mem_iff.2 hn)
  · rw [checkBridges_eq_nil_iff] at hbridges ⊢
    exact (hwired.map _).nodup_iff.1 hbridges
  · obtain ⟨p, hp, hpq⟩ := h.pools.exists_of_mem hq
    have hcheck := hpool p hp
    have hempty : p.volumes.isEmpty = q.volumes.isEmpty := by
      rw [Bool.eq_iff_iff, List.isEmpty_iff, List.isEmpty_iff, ← List.length_eq_zero_iff, ← List.length_eq_zero_iff,
        hpq.volumes.length_eq]
    simp only [checkPool, List.append_eq_nil_iff, List.map_eq_nil_iff, repeatedTexts_eq_nil_iff] at hcheck ⊢
    rw [← hpq.active, ← hempty]
    refine ⟨(hpq.volumes.map _).nodup_iff.1 hcheck.1, ?_⟩
    split
    · next hidle => exact absurd (if_pos hidle ▸ hcheck.2) (by simp)
    · rfl
  · rw [← hdomain x (hguests.mem_iff.2 hx)]
    have hdisks : checkDisk d = checkDisk d' := funext (h.checkDisk_eq hpools fun p hp => hvalid.volumes hp)
    unfold checkDomain
    simp only [hdisks, h.networks.resolves (·.name) fun _ _ => congrArg _]
  · rw [checkClaims_eq_nil_iff] at hclaims ⊢
    have hperm : (claims d.domains.items).Perm (claims d'.domains.items) := hguests.flatMap_right _
    refine ⟨fun c hc => ⟨?_, by simp⟩, (hperm.pairwise_iff fun {b c} hbc hcb => hbc hcb.symm).1 hclaims.2⟩
    rw [← (hclaims.1 c (hperm.mem_iff.2 hc)).1]
    unfold checkClaim
    rw [hplaced]

end Desired.Rearranges

end VirtualTopology
