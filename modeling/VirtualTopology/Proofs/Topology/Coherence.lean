import VirtualTopology.Proofs.Topology.Validation

/-!
# Coherent desired states

The audit of a desired state counts names, looks resources up by name and keeps a list of the static addresses
that have been claimed so far. What it decides can be said without any of this: a desired state is coherent
(`Desired.IsCoherent`) if names, bridges, disks, mount tags and static addresses are given once, references lead
somewhere, and addresses fit their networks. The main result is `Desired.audit_eq_nil_iff_isCoherent`: no issue is
found if and only if the desired state is coherent.

Each check has a lemma that says when it finds nothing. A look-up takes the last resource of a name; where no name
is repeated it is the only one (`Audit.lastNamed?_eq_some_iff`), so the checks that look something up are decided
under the condition that the names are given once.
-/

namespace VirtualTopology

/-! ### What is coherent -/

/-- Whether a name is that of a declared resource, or of one that is taken to be present. -/
def Declared.Offers {α : Type} (nameOf : α → String) (name : String) : Declared α → Prop
  | .unmanaged assumed => name ∈ assumed
  | .managed items => ∃ a ∈ items, nameOf a = name

/-- Whether a range of addresses suits its network. -/
structure DhcpRange.Suits (r : DhcpRange) (n : Network) : Prop where
  ordered : r.start ≤ r.finish
  start_inside : n.subnet.contains r.start = true
  finish_inside : n.subnet.contains r.finish = true
  spares_gateway : ¬ (r.start ≤ n.gateway ∧ n.gateway ≤ r.finish)

/-- Whether a guest can give itself an address on a network. -/
structure Network.Admits (n : Network) (a : Address) : Prop where
  inside : n.subnet.contains a = true
  ne_gateway : a ≠ n.gateway
  unserved : ∀ r, n.dhcp = some r → ¬ (r.start ≤ a ∧ a ≤ r.finish)

/-- Whether a domain finds what it refers to, and repeats nothing. -/
structure Domain.FitsInto (x : Domain) (d : Desired) : Prop where
  networks : ∀ i ∈ x.interfaces, d.networks.Offers (·.name) i.network
  pools : ∀ k ∈ x.disks, d.pools.Offers (·.name) k.pool
  volumes : ∀ k ∈ x.disks, ∀ p ∈ d.pools.items, p.name = k.pool →
    ∃ e ∈ p.volumes, e.name = k.volume ∧ e.present = true
  disks : (x.disks.map fun k => (k.pool, k.volume)).Nodup
  mountTags : (x.shares.map (·.mountTag)).Nodup
  hostPaths : ∀ s ∈ x.shares, s.hostPath.toList.head? = some '/'

/-- Whether two interfaces do not give themselves the same address on the same network. -/
def Interface.Differs (i j : Interface) : Prop :=
  ∀ a, i.staticAddress = some a → j.staticAddress = some a → i.network ≠ j.network

/-- Whether a desired state makes sense. -/
structure Desired.IsCoherent (d : Desired) : Prop where
  networkNames : (d.networks.items.map (·.name)).Nodup
  poolNames : (d.pools.items.map (·.name)).Nodup
  domainNames : (d.domains.items.map (·.name)).Nodup
  volumeNames : ∀ p ∈ d.pools.items, (p.volumes.map (·.name)).Nodup
  bridges : (d.networks.items.map (·.bridge)).Nodup
  ranges : ∀ n ∈ d.networks.items, ∀ r, n.dhcp = some r → r.Suits n
  idlePools : ∀ p ∈ d.pools.items, p.active = false → p.volumes = []
  domains : ∀ x ∈ d.domains.items, x.FitsInto d
  staticAddresses : (d.domains.items.flatMap (·.interfaces)).Pairwise Interface.Differs
  admitted : ∀ x ∈ d.domains.items, ∀ i ∈ x.interfaces, ∀ a, i.staticAddress = some a →
    ∀ n ∈ d.networks.items, n.name = i.network → n.Admits a

namespace Audit

/-! ### Look-ups and references -/

/-- **Where no name is repeated**, the first member of a name is the only one. -/
theorem find?_named_eq_some_iff {α : Type} {nameOf : α → String} {xs : List α} (h : (xs.map nameOf).Nodup)
    {name : String} {a : α} : xs.find? (nameOf · == name) = some a ↔ a ∈ xs ∧ nameOf a = name := by
  constructor
  · intro hfind
    exact ⟨List.mem_of_find?_eq_some hfind, by simpa using List.find?_some hfind⟩
  · rintro ⟨ha, rfl⟩
    cases hfind : xs.find? (nameOf · == nameOf a) with
    | none => simpa using List.find?_eq_none.1 hfind a ha
    | some b =>
      have hname : nameOf b = nameOf a := by simpa using List.find?_some hfind
      rw [List.inj_on_of_nodup_map h (List.mem_of_find?_eq_some hfind) ha hname]

/-- So is the last one. -/
theorem lastNamed?_eq_some_iff {α : Type} {nameOf : α → String} {xs : List α} (h : (xs.map nameOf).Nodup)
    {name : String} {a : α} : lastNamed? nameOf xs name = some a ↔ a ∈ xs ∧ nameOf a = name := by
  have hreverse : (xs.reverse.map nameOf).Nodup := by rwa [List.map_reverse, List.nodup_reverse]
  rw [lastNamed?, find?_named_eq_some_iff hreverse, List.mem_reverse]

theorem lastNamed?_eq_none_iff {α : Type} {nameOf : α → String} {xs : List α} {name : String} :
    lastNamed? nameOf xs name = none ↔ ∀ a ∈ xs, nameOf a ≠ name := by
  simp [lastNamed?]

theorem resolves_iff {α : Type} {x : Declared α} {nameOf : α → String} {name : String} :
    resolves x nameOf name = true ↔ x.Offers nameOf name := by
  cases x with
  | unmanaged assumed => simp [resolves, Declared.Offers]
  | managed items => simp [resolves, Declared.Offers]

/-! ### Networks and pools -/

theorem contains_eq_false_iff {r : DhcpRange} {a : Address} :
    r.contains a = false ↔ ¬ (r.start ≤ a ∧ a ≤ r.finish) := by
  rw [Bool.eq_false_iff, DhcpRange.contains, ne_eq, Bool.and_eq_true, decide_eq_true_eq, decide_eq_true_eq]

theorem checkNetwork_eq_nil_iff {n : Network} :
    checkNetwork n = [] ↔ ∀ r, n.dhcp = some r → r.Suits n := by
  cases hdhcp : n.dhcp with
  | none => simp [checkNetwork, hdhcp]
  | some r =>
    have hchecks : checkNetwork n = [] ↔ r.start ≤ r.finish ∧
        (n.subnet.contains r.start = true ∧ n.subnet.contains r.finish = true) ∧
          r.contains n.gateway = false := by
      simp [checkNetwork, hdhcp, List.filter_eq_nil_iff, and_assoc]
    rw [hchecks, contains_eq_false_iff]
    constructor
    · rintro ⟨hordered, ⟨hstart, hfinish⟩, hgateway⟩ _ ⟨⟩
      exact ⟨hordered, hstart, hfinish, hgateway⟩
    · intro h
      obtain ⟨hordered, hstart, hfinish, hgateway⟩ := h r rfl
      exact ⟨hordered, ⟨hstart, hfinish⟩, hgateway⟩

/-- **No bridge is shared if and only if none is declared twice.** -/
theorem checkBridges_eq_nil_iff {networks : List Network} :
    checkBridges networks = [] ↔ (networks.map (·.bridge)).Nodup := by
  rw [← repeated_eq_nil_iff, checkBridges, List.flatMap_eq_nil_iff]
  refine ⟨fun h => List.eq_nil_iff_forall_not_mem.2 fun e he => ?_, fun h e he => absurd he (by simp [h])⟩
  obtain ⟨b, hb, rfl⟩ := List.mem_map.1 (List.mem_filter.1 he).1
  obtain ⟨n, hn, rfl⟩ := List.mem_map.1 (List.mem_eraseDups.1 hb)
  have hnone := h _ he
  rw [List.map_eq_nil_iff, ← List.length_eq_zero_iff, List.length_mergeSort, List.length_map,
    List.length_eq_zero_iff, List.filter_eq_nil_iff] at hnone
  exact hnone n hn (by simp)

theorem checkPool_eq_nil_iff {p : Pool} :
    checkPool p = [] ↔ (p.volumes.map (·.name)).Nodup ∧ (p.active = false → p.volumes = []) := by
  rw [checkPool, List.append_eq_nil_iff, List.map_eq_nil_iff, repeatedTexts_eq_nil_iff]
  cases p.active <;> simp

/-! ### Domains -/

theorem isAbsolute_iff {s : String} :
    (PosixPath.ofText s).isAbsolute = true ↔ s.toList.head? = some '/' := by
  rw [PosixPath.isAbsolute, PosixPath.ofText, bne_iff_ne]
  generalize s.toList = cs
  unfold PosixPath.rootOf
  split
  · simp
  · simp
  · simp
  · next h =>
    cases cs with
    | nil => simp
    | cons c cs => simpa using fun hc => h cs (by rw [hc])

/-- A disk leads somewhere, and to a present volume if its pool is declared. -/
theorem checkDisk_eq_nil_iff {d : Desired} (hpools : (d.pools.items.map (·.name)).Nodup)
    (hvolumes : ∀ p ∈ d.pools.items, (p.volumes.map (·.name)).Nodup) {k : Disk} :
    checkDisk d k = [] ↔ d.pools.Offers (·.name) k.pool ∧
      ∀ p ∈ d.pools.items, p.name = k.pool → ∃ e ∈ p.volumes, e.name = k.volume ∧ e.present = true := by
  rw [← resolves_iff, checkDisk]
  cases hresolves : resolves d.pools (·.name) k.pool with
  | false => simp
  | true =>
    simp only [Bool.not_true, Bool.false_eq_true, if_false, true_and]
    cases hpool : lastNamed? (·.name) d.pools.items k.pool with
    | none => simpa using fun p hp hname => absurd hname (lastNamed?_eq_none_iff.1 hpool p hp)
    | some p =>
      obtain ⟨hp, hname⟩ := (lastNamed?_eq_some_iff hpools).1 hpool
      -- names are distinct, so the pool that is looked up is the only one of its name
      have honly : ∀ q ∈ d.pools.items, q.name = k.pool → q = p :=
        fun q hq hqname => List.inj_on_of_nodup_map hpools hq hp (hqname.trans hname.symm)
      cases hentry : p.entry? k.volume with
      | none =>
        simp only [hentry]
        refine iff_of_false (by simp) fun h => ?_
        obtain ⟨e, he, hvolume, -⟩ := h p hp hname
        simpa [hvolume] using List.find?_eq_none.1 hentry e he
      | some e =>
        obtain ⟨he, hvolume⟩ := (find?_named_eq_some_iff (hvolumes p hp)).1 hentry
        have hpresent : (if e.present then [] else [Complaint.volumeMarkedAbsent k.pool k.volume]) = [] ↔
            e.present = true := by simp
        simp only [hentry, hpresent]
        constructor
        · intro hpresent q hq hqname
          obtain rfl := honly q hq hqname
          exact ⟨e, he, hvolume, hpresent⟩
        · intro h
          obtain ⟨f, hf, hfname, hpresent⟩ := h p hp hname
          rwa [List.inj_on_of_nodup_map (hvolumes p hp) he hf (hvolume.trans hfname.symm)]

theorem checkDomain_eq_nil_iff {d : Desired} (hpools : (d.pools.items.map (·.name)).Nodup)
    (hvolumes : ∀ p ∈ d.pools.items, (p.volumes.map (·.name)).Nodup) {x : Domain} :
    checkDomain d x = [] ↔ x.FitsInto d := by
  simp only [checkDomain, List.map_eq_nil_iff, List.append_eq_nil_iff, List.filter_eq_nil_iff,
    List.flatMap_eq_nil_iff, repeated_eq_nil_iff, repeatedTexts_eq_nil_iff, Bool.not_eq_true',
    Bool.not_eq_false, resolves_iff, isAbsolute_iff, checkDisk_eq_nil_iff hpools hvolumes]
  constructor
  · rintro ⟨⟨⟨⟨hnetworks, hdisks⟩, hattached⟩, htags⟩, hpaths⟩
    exact ⟨hnetworks, fun k hk => (hdisks k hk).1, fun k hk => (hdisks k hk).2, hattached, htags, hpaths⟩
  · intro h
    exact ⟨⟨⟨⟨h.networks, fun k hk => ⟨h.pools k hk, h.volumes k hk⟩⟩, h.disks⟩, h.mountTags⟩, h.hostPaths⟩

/-! ### Static addresses -/

/-- The gateway of a network is inside its subnet, so the two complaints about it exclude each other and no case
is left out. -/
theorem checkPlace_eq_nil_iff {n : Network} {a : Address} : checkPlace n a = [] ↔ n.Admits a := by
  have hserved : n.dhcp.any (·.contains a) = false ↔
      ∀ r, n.dhcp = some r → ¬ (r.start ≤ a ∧ a ≤ r.finish) := by
    cases n.dhcp with
    | none => simp
    | some r => simp [contains_eq_false_iff]
  have hplace : checkPlace n a = [] ↔
      (n.subnet.contains a = true ∧ a ≠ n.gateway) ∧ n.dhcp.any (·.contains a) = false := by
    rw [checkPlace, List.append_eq_nil_iff]
    cases n.subnet.contains a <;> cases n.dhcp.any (·.contains a) <;> simp
  rw [hplace, hserved]
  exact ⟨fun ⟨⟨hinside, hgateway⟩, hfree⟩ => ⟨hinside, hgateway, hfree⟩,
    fun ⟨hinside, hgateway, hfree⟩ => ⟨⟨hinside, hgateway⟩, hfree⟩⟩

/-- Whether two claims are about the same address. -/
def Claim.Clashes (b c : Claim) : Prop := b.network = c.network ∧ b.address = c.address

theorem Claim.Clashes.symm {b c : Claim} (h : b.Clashes c) : c.Clashes b := ⟨h.1.symm, h.2.symm⟩

theorem checkOwner_eq_nil_iff {before : List Claim} {c : Claim} :
    checkOwner before c = [] ↔ ∀ b ∈ before, ¬ b.Clashes c := by
  unfold checkOwner
  cases hfound : before.find? fun b => b.network == c.network && b.address == c.address with
  | none => simpa [Claim.Clashes] using hfound
  | some b =>
    have hclash : b.Clashes c := by simpa [Claim.Clashes] using List.find?_some hfound
    exact ⟨fun h => absurd h (by simp), fun h => absurd hclash (h b (List.mem_of_find?_eq_some hfound))⟩

/-- **There is no issue with claims if and only if none has one with its network and no two clash.** -/
theorem checkClaims_eq_nil_iff {networks : List Network} (before claims : List Claim) :
    checkClaims networks before claims = [] ↔
      (∀ c ∈ claims, checkClaim networks [] c = [] ∧ ∀ b ∈ before, ¬ b.Clashes c) ∧
        claims.Pairwise fun b c => ¬ b.Clashes c := by
  have hfirst : ∀ (before : List Claim) (c : Claim), checkClaim networks before c = [] ↔
      checkClaim networks [] c = [] ∧ ∀ b ∈ before, ¬ b.Clashes c := fun before c => by
    simp only [checkClaim, List.map_eq_nil_iff, List.append_eq_nil_iff, checkOwner_eq_nil_iff]
    simp [and_comm]
  induction claims generalizing before with
  | nil => simp [checkClaims]
  | cons c cs ih =>
    rw [checkClaims, List.append_eq_nil_iff, List.pairwise_cons]
    refine (and_congr (hfirst before c) (ih _)).trans ?_
    simp only [List.forall_mem_cons, List.forall_mem_append]
    grind

theorem checkClaim_eq_nil_iff {ns : List Network} (hnetworks : (ns.map (·.name)).Nodup)
    {before : List Claim} {c : Claim} : checkClaim ns before c = [] ↔
      (∀ b ∈ before, ¬ b.Clashes c) ∧ ∀ n ∈ ns, n.name = c.network → n.Admits c.address := by
  rw [checkClaim, List.map_eq_nil_iff, List.append_eq_nil_iff, checkOwner_eq_nil_iff]
  refine and_congr_right fun _ => ?_
  cases hnetwork : lastNamed? (·.name) ns c.network with
  | none => simpa using fun n hn hname => absurd hname (lastNamed?_eq_none_iff.1 hnetwork n hn)
  | some n =>
    obtain ⟨hn, hname⟩ := (lastNamed?_eq_some_iff hnetworks).1 hnetwork
    rw [checkPlace_eq_nil_iff]
    constructor
    · intro h m hm hmname
      rwa [List.inj_on_of_nodup_map hnetworks hm hn (hmname.trans hname.symm)]
    · exact fun h => h n hn hname

theorem mem_claims {xs : List Domain} {c : Claim} : c ∈ claims xs ↔
    ∃ x ∈ xs, ∃ i ∈ x.interfaces, ∃ a, i.staticAddress = some a ∧ Claim.mk x.name i.network a = c := by
  simp [claims, Option.map_eq_some_iff]

/-- The claim of an interface of a domain. -/
def claim? (x : Domain) (i : Interface) : Option Claim := i.staticAddress.map fun a => ⟨x.name, i.network, a⟩

/-- The claims of two interfaces differ if and only if the interfaces do, whosever they are. -/
theorem claim?_differs_iff {x y : Domain} {i j : Interface} :
    (∀ b, claim? x i = some b → ∀ c, claim? y j = some c → ¬ b.Clashes c) ↔ i.Differs j := by
  simp only [claim?, Option.map_eq_some_iff, forall_exists_index, and_imp, forall_apply_eq_imp_iff₂]
  constructor
  · exact fun h a hi hj hnetwork => h a hi a hj ⟨hnetwork, rfl⟩
  · rintro h a hi b hj ⟨hnetwork, rfl⟩
    exact h a hi hj hnetwork

theorem pairwise_claims_iff {xs : List Domain} :
    ((claims xs).Pairwise fun b c => ¬ b.Clashes c) ↔ (xs.flatMap (·.interfaces)).Pairwise Interface.Differs := by
  have hclaims : claims xs = xs.flatMap fun x => x.interfaces.filterMap (claim? x) := rfl
  rw [hclaims, List.pairwise_flatMap, List.pairwise_flatMap]
  refine and_congr (forall₂_congr fun x _ => ?_) (List.Pairwise.iff fun x y => ?_)
  · rw [List.pairwise_filterMap]
    exact List.Pairwise.iff fun i j => claim?_differs_iff
  · simp only [List.mem_filterMap, forall_exists_index, and_imp]
    constructor
    · exact fun h i hi j hj => claim?_differs_iff.1 fun b hb c hc => h b i hi hb c j hj hc
    · exact fun h b i hi hb c j hj hc => claim?_differs_iff.2 (h i hi j hj) b hb c hc

end Audit

open Audit in
/-- **No issue is found in a desired state if and only if it is coherent.** -/
theorem Desired.audit_eq_nil_iff_isCoherent {d : Desired} : d.audit = [] ↔ d.IsCoherent := by
  -- each check finds nothing exactly if its part of coherence holds
  rw [audit_eq_nil_iff]
  constructor
  · rintro ⟨hnetworks, hpools, hdomains, hnetwork, hbridges, hpool, hdomain, hclaims⟩
    have hvolumes : ∀ p ∈ d.pools.items, (p.volumes.map (·.name)).Nodup :=
      fun p hp => (checkPool_eq_nil_iff.1 (hpool p hp)).1
    obtain ⟨hfit, hdiffer⟩ := (checkClaims_eq_nil_iff [] _).1 hclaims
    exact {
      networkNames := hnetworks
      poolNames := hpools
      domainNames := hdomains
      volumeNames := hvolumes
      bridges := checkBridges_eq_nil_iff.1 hbridges
      ranges := fun n hn => checkNetwork_eq_nil_iff.1 (hnetwork n hn)
      idlePools := fun p hp => (checkPool_eq_nil_iff.1 (hpool p hp)).2
      domains := fun x hx => (checkDomain_eq_nil_iff hpools hvolumes).1 (hdomain x hx)
      staticAddresses := pairwise_claims_iff.1 hdiffer
      admitted := fun x hx i hi a ha =>
        ((checkClaim_eq_nil_iff hnetworks).1 (hfit _ (mem_claims.2 ⟨x, hx, i, hi, a, ha, rfl⟩)).1).2 }
  · intro h
    refine ⟨h.networkNames, h.poolNames, h.domainNames, fun n hn => checkNetwork_eq_nil_iff.2 (h.ranges n hn),
      checkBridges_eq_nil_iff.2 h.bridges,
      fun p hp => checkPool_eq_nil_iff.2 ⟨h.volumeNames p hp, h.idlePools p hp⟩,
      fun x hx => (checkDomain_eq_nil_iff h.poolNames h.volumeNames).2 (h.domains x hx),
      (checkClaims_eq_nil_iff [] _).2 ⟨fun c hc => ⟨?_, by simp⟩, pairwise_claims_iff.2 h.staticAddresses⟩⟩
    obtain ⟨x, hx, i, hi, a, ha, rfl⟩ := mem_claims.1 hc
    exact (checkClaim_eq_nil_iff h.networkNames).2 ⟨by simp, h.admitted x hx i hi a ha⟩

end VirtualTopology
