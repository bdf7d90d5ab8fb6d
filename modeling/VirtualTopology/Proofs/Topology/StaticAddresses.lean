import VirtualTopology.Proofs.Topology.Coherence

/-!
# Static addresses are audited exactly

An interface claims an address on a network. The audit goes through the claims in the order of the declaration and
keeps a list of those that it has passed. What it reports can be said without the list, for each address on each
network (`Desired.reports_staticAddresses`):

* an address that is claimed `k` times is reported as claimed before exactly `k - 1` times, once for each claim but the
  first, and each time the first claim is the one that is named;
* each claim on a declared network is reported once for being outside the subnet, once for being the gateway, and once
  for lying in the range that is handed out, whatever else is said about it or about earlier claims.

The invariant is that the first claim of an address among those that were passed stays the first one
(`Audit.filter_checkClaims_of_claimed`); up to it nothing is reported (`Audit.filter_checkClaims_of_new`). The gateway
of a network is in its subnet, so asking for the gateway only inside the subnet leaves out nothing
(`Network.contains_gateway`).
-/

namespace VirtualTopology

/-- The network and the address that a complaint about a static address is about. -/
def Complaint.place? : Complaint → Option (String × Address)
  | .duplicateStaticAddress a network _ => some (network, a)
  | .staticAddressOutsideSubnet a _ network => some (network, a)
  | .staticAddressIsGateway a network => some (network, a)
  | .staticAddressInDhcpRange a network => some (network, a)
  | _ => none

/-- The codes of complaints about static addresses. -/
def Complaint.placeCodes : List String :=
  ["duplicate-static-address", "static-address-outside-subnet", "static-address-is-gateway",
    "static-address-in-dhcp-range"]

/-- Each complaint with one of these codes is about one address on one network, and no other one is. -/
theorem Complaint.isSome_place?_iff (c : Complaint) : c.place?.isSome = true ↔ c.code ∈ placeCodes := by
  cases c <;> simp [place?, code, placeCodes]

/-- Whether a complaint has a code and is about an address on a network. -/
def Complaint.isAbout (code network : String) (a : Address) (c : Complaint) : Bool :=
  c.code == code && c.place? == some (network, a)

/-- What an issue says: of which resource, and in which words. -/
def Issue.said (i : Issue) : ResourceKind × String × String := (i.kind, i.name, i.complaint.message)

/-- The issues with a code about an address on a network. -/
def Desired.issuesAbout (d : Desired) (code network : String) (a : Address) : List Issue :=
  d.audit.filter fun i => i.complaint.isAbout code network a

/-- The gateway of a network is in its subnet. -/
theorem Network.contains_gateway (n : Network) : n.subnet.contains n.gateway = true := by
  rw [subnet, Subnet.around, Subnet.contains, beq_self_eq_true]

namespace Audit

/-- Whether a claim is one of an address on a network. -/
def Claim.isOf (network : String) (a : Address) (c : Claim) : Bool := c.network == network && c.address == a

/-- A report of a claim: it is about the domain that makes the claim. -/
def Claim.told (message : String) (c : Claim) : ResourceKind × String × String := (.domain, c.domain, message)

/-- How the owner of an earlier claim is named in the report of a later one. -/
def Claim.ownerOf (first c : Claim) : String :=
  if first.domain = c.domain then "another of its interfaces" else first.domain

variable {code network : String} {a : Address}

theorem isAbout_eq_false {c : Complaint} (h : c.place? = none) : c.isAbout code network a = false := by
  rw [Complaint.isAbout, h, Bool.and_eq_false_iff]
  exact .inr rfl

/-! ### The other checks -/

theorem place?_of_mem_checkNames {kind : ResourceKind} {names : List String} {i : Issue}
    (h : i ∈ checkNames kind names) : i.complaint.place? = none := by
  obtain ⟨e, -, rfl⟩ := List.mem_map.1 h
  rfl

theorem place?_of_mem_checkNetwork {n : Network} {i : Issue} (h : i ∈ checkNetwork n) :
    i.complaint.place? = none := by
  unfold checkNetwork at h
  split at h
  · exact absurd h (by simp)
  · obtain ⟨c, hc, rfl⟩ := List.mem_map.1 h
    rcases List.mem_append.1 hc with hc | hc
    · rcases List.mem_append.1 hc with hc | hc
      · split at hc
        · exact absurd hc (by simp)
        · rw [List.mem_singleton.1 hc]
          rfl
      · obtain ⟨b, -, rfl⟩ := List.mem_map.1 hc
        rfl
    · split at hc
      · rw [List.mem_singleton.1 hc]
        rfl
      · exact absurd hc (by simp)

theorem place?_of_mem_checkBridges {networks : List Network} {i : Issue} (h : i ∈ checkBridges networks) :
    i.complaint.place? = none := by
  obtain ⟨e, -, he⟩ := List.mem_flatMap.1 h
  obtain ⟨owner, -, rfl⟩ := List.mem_map.1 he
  rfl

theorem place?_of_mem_checkPool {p : Pool} {i : Issue} (h : i ∈ checkPool p) : i.complaint.place? = none := by
  rcases List.mem_append.1 h with h | h
  · obtain ⟨e, -, rfl⟩ := List.mem_map.1 h
    rfl
  · split at h
    · rw [List.mem_singleton.1 h]
      rfl
    · exact absurd h (by simp)

theorem place?_of_mem_checkDisk {d : Desired} {k : Disk} {c : Complaint} (h : c ∈ checkDisk d k) :
    c.place? = none := by
  unfold checkDisk at h
  split at h
  · rw [List.mem_singleton.1 h]
    rfl
  · split at h
    · exact absurd h (by simp)
    · split at h
      · rw [List.mem_singleton.1 h]
        rfl
      · split at h
        · exact absurd h (by simp)
        · rw [List.mem_singleton.1 h]
          rfl

theorem place?_of_mem_checkDomain {d : Desired} {x : Domain} {i : Issue} (h : i ∈ checkDomain d x) :
    i.complaint.place? = none := by
  obtain ⟨c, hc, rfl⟩ := List.mem_map.1 h
  simp only [List.mem_append, List.mem_map, List.mem_flatMap] at hc
  rcases hc with (((⟨_, -, rfl⟩ | ⟨k, -, hc⟩) | ⟨_, -, rfl⟩) | ⟨_, -, rfl⟩) | ⟨_, -, rfl⟩
  · rfl
  · exact place?_of_mem_checkDisk hc
  · rfl
  · rfl
  · rfl

/-- **Only the check of the claims speaks about addresses on networks.** -/
theorem issuesAbout_eq (d : Desired) : d.issuesAbout code network a =
    (checkClaims d.networks.items [] (claims d.domains.items)).filter fun i =>
      i.complaint.isAbout code network a := by
  rw [Desired.issuesAbout, Desired.audit, List.filter_append, List.append_left_eq_self, List.filter_eq_nil_iff]
  intro i hi
  rw [isAbout_eq_false, Bool.false_eq_true]
  · exact not_false
  · simp only [List.mem_append, List.mem_flatMap] at hi
    rcases hi with (((((hi | hi) | hi) | ⟨n, -, hi⟩) | hi) | ⟨p, -, hi⟩) | ⟨x, -, hi⟩
    · exact place?_of_mem_checkNames hi
    · exact place?_of_mem_checkNames hi
    · exact place?_of_mem_checkNames hi
    · exact place?_of_mem_checkNetwork hi
    · exact place?_of_mem_checkBridges hi
    · exact place?_of_mem_checkPool hi
    · exact place?_of_mem_checkDomain hi

/-! ### One claim -/

/-- The complaints about the address of a claim within its network, if that is declared. -/
def placeComplaints (networks : List Network) (c : Claim) : List Complaint :=
  (lastNamed? (·.name) networks c.network).elim [] (checkPlace · c.address)

theorem checkClaim_eq (networks : List Network) (before : List Claim) (c : Claim) : checkClaim networks before c =
    (checkOwner before c ++ placeComplaints networks c).map (Issue.mk .domain c.domain) := by
  rw [checkClaim, placeComplaints]
  cases lastNamed? (·.name) networks c.network <;> rfl

theorem filter_checkClaim (networks : List Network) (before : List Claim) (c : Claim) :
    (checkClaim networks before c).filter (fun i => i.complaint.isAbout code network a) =
      ((checkOwner before c).filter (Complaint.isAbout code network a) ++
        (placeComplaints networks c).filter (Complaint.isAbout code network a)).map (Issue.mk .domain c.domain) := by
  rw [checkClaim_eq, List.filter_map, List.filter_append]
  rfl

theorem place?_of_mem_checkOwner {before : List Claim} {c : Claim} {x : Complaint} (h : x ∈ checkOwner before c) :
    x.code = "duplicate-static-address" ∧ x.place? = some (c.network, c.address) := by
  unfold checkOwner at h
  split at h
  · exact absurd h (by simp)
  · rw [List.mem_singleton.1 h]
    exact ⟨rfl, rfl⟩

theorem place?_of_mem_checkPlace {n : Network} {b : Address} {x : Complaint} (h : x ∈ checkPlace n b) :
    x.code ≠ "duplicate-static-address" ∧ x.place? = some (n.name, b) := by
  rcases List.mem_append.1 h with h | h
  · split at h
    · rw [List.mem_singleton.1 h]
      exact ⟨show "static-address-outside-subnet" ≠ _ by decide, rfl⟩
    · split at h
      · rw [List.mem_singleton.1 h]
        exact ⟨show "static-address-is-gateway" ≠ _ by decide, rfl⟩
      · exact absurd h (by simp)
  · split at h
    · rw [List.mem_singleton.1 h]
      exact ⟨show "static-address-in-dhcp-range" ≠ _ by decide, rfl⟩
    · exact absurd h (by simp)

theorem place?_of_mem_placeComplaints {networks : List Network} {c : Claim} {x : Complaint}
    (h : x ∈ placeComplaints networks c) :
    x.code ≠ "duplicate-static-address" ∧ x.place? = some (c.network, c.address) := by
  rw [placeComplaints] at h
  cases hnetwork : lastNamed? (·.name) networks c.network with
  | none => simp [hnetwork] at h
  | some n =>
    rw [hnetwork] at h
    have hname : n.name = c.network := by simpa using List.find?_some hnetwork
    exact hname ▸ place?_of_mem_checkPlace h

/-- A complaint is about the address of the claim it is made about. -/
theorem filter_eq_nil_of_not_isOf {xs : List Complaint} {c : Claim}
    (hxs : ∀ x ∈ xs, x.place? = some (c.network, c.address)) (h : ¬ c.isOf network a = true) :
    xs.filter (Complaint.isAbout code network a) = [] := by
  refine List.filter_eq_nil_iff.2 fun x hx hx' => h ?_
  rw [Complaint.isAbout, hxs x hx, Bool.and_eq_true, beq_iff_eq, beq_iff_eq, Option.some.injEq, Prod.mk.injEq] at hx'
  simpa [Claim.isOf] using hx'.2

/-! ### Addresses that are claimed again -/

theorem checkOwner_of_isOf {before : List Claim} {c : Claim} (h : c.isOf network a = true) :
    checkOwner before c = (before.find? (·.isOf network a)).elim [] fun b =>
      [.duplicateStaticAddress a network (if b.domain = c.domain then none else some b.domain)] := by
  obtain ⟨rfl, rfl⟩ : c.network = network ∧ c.address = a := by simpa [Claim.isOf] using h
  have hfirst : (before.find? fun b => b.network == c.network && b.address == c.address) =
      before.find? (·.isOf c.network c.address) := rfl
  rw [checkOwner, hfirst]
  cases before.find? (·.isOf c.network c.address) <;> rfl

/-- What is reported again about a claim is what its check for an owner says. -/
theorem filter_checkClaim_duplicate (networks : List Network) (before : List Claim) (c : Claim) :
    (checkClaim networks before c).filter (fun i => i.complaint.isAbout "duplicate-static-address" network a) =
      if c.isOf network a then (checkOwner before c).map (Issue.mk .domain c.domain) else [] := by
  have hplace : (placeComplaints networks c).filter (Complaint.isAbout "duplicate-static-address" network a) = [] :=
    List.filter_eq_nil_iff.2 fun x hx => by simp [Complaint.isAbout, (place?_of_mem_placeComplaints hx).1]
  rw [filter_checkClaim, hplace, List.append_nil]
  split
  · next hof =>
    obtain ⟨rfl, rfl⟩ : c.network = network ∧ c.address = a := by simpa [Claim.isOf] using hof
    rw [List.filter_eq_self.2 fun x hx => by simp [Complaint.isAbout, place?_of_mem_checkOwner hx]]
  · next hof => rw [filter_eq_nil_of_not_isOf (fun x hx => (place?_of_mem_checkOwner hx).2) hof, List.map_nil]

/-- The report of a claim of an address that another one has claimed first. -/
def duplicateIssue (network : String) (a : Address) (first c : Claim) : Issue :=
  ⟨.domain, c.domain, .duplicateStaticAddress a network (if first.domain = c.domain then none else some first.domain)⟩

/-- **Once an address is claimed**, each further claim of it is reported, and the first one is named. -/
theorem filter_checkClaims_of_claimed (networks : List Network) {before : List Claim} {first : Claim}
    (h : before.find? (·.isOf network a) = some first) (cs : List Claim) :
    (checkClaims networks before cs).filter (fun i => i.complaint.isAbout "duplicate-static-address" network a) =
      (cs.filter (·.isOf network a)).map (duplicateIssue network a first) := by
  induction cs generalizing before with
  | nil => rfl
  | cons c cs ih =>
    have hstill : (before ++ [c]).find? (·.isOf network a) = some first := by
      rw [List.find?_append, h, Option.some_or]
    rw [checkClaims, List.filter_append, ih hstill, filter_checkClaim_duplicate, List.filter_cons]
    split
    · next hof =>
      rw [checkOwner_of_isOf hof, h]
      rfl
    · rfl

/-- **The first claim of an address** is not reported. -/
theorem filter_checkClaims_of_new (networks : List Network) {before : List Claim}
    (h : before.find? (·.isOf network a) = none) (cs : List Claim) :
    (checkClaims networks before cs).filter (fun i => i.complaint.isAbout "duplicate-static-address" network a) =
      match cs.filter (·.isOf network a) with
      | [] => []
      | first :: later => later.map (duplicateIssue network a first) := by
  induction cs generalizing before with
  | nil => rfl
  | cons c cs ih =>
    rw [checkClaims, List.filter_append, filter_checkClaim_duplicate, List.filter_cons]
    split
    · next hof =>
      have hfirst : (before ++ [c]).find? (·.isOf network a) = some c := by
        rw [List.find?_append, h, Option.none_or, List.find?_cons_of_pos hof]
      rw [checkOwner_of_isOf hof, h, filter_checkClaims_of_claimed networks hfirst]
      rfl
    · next hof =>
      have hnone : (before ++ [c]).find? (·.isOf network a) = none := by
        rw [List.find?_append, h, Option.none_or, List.find?_cons_of_neg hof]
        rfl
      rw [ih hnone, List.nil_append]

/-! ### Addresses within their networks -/

/-- What is said about a claim within its network is what the check of the place says. -/
theorem filter_checkClaim_place {code : String} (hcode : code ≠ "duplicate-static-address") (networks : List Network)
    (before : List Claim) (c : Claim) :
    (checkClaim networks before c).filter (fun i => i.complaint.isAbout code network a) =
      ((placeComplaints networks c).filter (Complaint.isAbout code network a)).map (Issue.mk .domain c.domain) := by
  have howner : (checkOwner before c).filter (Complaint.isAbout code network a) = [] :=
    List.filter_eq_nil_iff.2 fun x hx => by
      rw [Complaint.isAbout, (place?_of_mem_checkOwner hx).1]
      simp [Ne.symm hcode]
  rw [filter_checkClaim, howner, List.nil_append]

theorem filter_checkClaims_place {code : String} (hcode : code ≠ "duplicate-static-address") (networks : List Network)
    (before cs : List Claim) :
    (checkClaims networks before cs).filter (fun i => i.complaint.isAbout code network a) =
      cs.flatMap fun c =>
        ((placeComplaints networks c).filter (Complaint.isAbout code network a)).map (Issue.mk .domain c.domain) := by
  induction cs generalizing before with
  | nil => rfl
  | cons c cs ih =>
    rw [checkClaims, List.filter_append, filter_checkClaim_place hcode, ih, List.flatMap_cons]

section

variable {networks : List Network} {n : Network} (hnames : (networks.map (·.name)).Nodup) (hn : n ∈ networks)

include hnames hn

/-- The complaints about an address on a declared network, of a claim. -/
theorem filter_placeComplaints (code : String) (c : Claim) :
    (placeComplaints networks c).filter (Complaint.isAbout code n.name a) =
      if c.isOf n.name a then (checkPlace n a).filter (Complaint.isAbout code n.name a) else [] := by
  split
  · next hof =>
    obtain ⟨hnetwork, rfl⟩ : c.network = n.name ∧ c.address = a := by simpa [Claim.isOf] using hof
    rw [placeComplaints, hnetwork, (lastNamed?_eq_some_iff hnames).2 ⟨hn, rfl⟩, Option.elim_some]
  · next hof => exact filter_eq_nil_of_not_isOf (fun x hx => (place?_of_mem_placeComplaints hx).2) hof

/-- **What is said about an address on a declared network** is what its check says, once for each claim of it. -/
theorem filter_checkClaims_of_mem {code : String} (hcode : code ≠ "duplicate-static-address")
    (before cs : List Claim) :
    (checkClaims networks before cs).filter (fun i => i.complaint.isAbout code n.name a) =
      (cs.filter (·.isOf n.name a)).flatMap fun c =>
        ((checkPlace n a).filter (Complaint.isAbout code n.name a)).map (Issue.mk .domain c.domain) := by
  rw [filter_checkClaims_place hcode]
  induction cs with
  | nil => rfl
  | cons c cs ih =>
    rw [List.flatMap_cons, ih, filter_placeComplaints hnames hn, List.filter_cons]
    split
    · rw [List.flatMap_cons]
    · rw [List.map_nil, List.nil_append]

end

/-- Nothing is said about an address within a network that is not declared. -/
theorem filter_checkClaims_of_forall_ne {networks : List Network} (h : ∀ n ∈ networks, n.name ≠ network)
    {code : String} (hcode : code ≠ "duplicate-static-address") (before cs : List Claim) :
    (checkClaims networks before cs).filter (fun i => i.complaint.isAbout code network a) = [] := by
  rw [filter_checkClaims_place hcode, List.flatMap_eq_nil_iff]
  intro c _
  rw [List.map_eq_nil_iff]
  by_cases hof : c.isOf network a = true
  · obtain ⟨rfl, rfl⟩ : c.network = network ∧ c.address = a := by simpa [Claim.isOf] using hof
    rw [placeComplaints, lastNamed?_eq_none_iff.2 h]
    rfl
  · exact filter_eq_nil_of_not_isOf (fun x hx => (place?_of_mem_placeComplaints hx).2) hof

theorem filter_checkPlace_outside (n : Network) (a : Address) :
    (checkPlace n a).filter (Complaint.isAbout "static-address-outside-subnet" n.name a) =
      if !n.subnet.contains a then [.staticAddressOutsideSubnet a n.subnet n.name] else [] := by
  unfold checkPlace
  cases n.subnet.contains a <;> cases n.dhcp.any (·.contains a) <;> by_cases ha : a = n.gateway <;>
    simp [Complaint.isAbout, Complaint.code, Complaint.place?, ha]

theorem filter_checkPlace_gateway (n : Network) (a : Address) :
    (checkPlace n a).filter (Complaint.isAbout "static-address-is-gateway" n.name a) =
      if a = n.gateway then [.staticAddressIsGateway a n.name] else [] := by
  unfold checkPlace
  by_cases ha : a = n.gateway
  · subst ha
    rw [n.contains_gateway]
    cases n.dhcp.any (·.contains n.gateway) <;> simp [Complaint.isAbout, Complaint.code, Complaint.place?]
  · cases n.subnet.contains a <;> cases n.dhcp.any (·.contains a) <;>
      simp [Complaint.isAbout, Complaint.code, Complaint.place?, ha]

theorem filter_checkPlace_served (n : Network) (a : Address) :
    (checkPlace n a).filter (Complaint.isAbout "static-address-in-dhcp-range" n.name a) =
      if n.dhcp.any (·.contains a) then [.staticAddressInDhcpRange a n.name] else [] := by
  unfold checkPlace
  cases n.subnet.contains a <;> cases n.dhcp.any (·.contains a) <;> by_cases ha : a = n.gateway <;>
    simp [Complaint.isAbout, Complaint.code, Complaint.place?, ha]

end Audit

/-! ### All claims -/

open Audit

/-- What is reported about an address on a network that is claimed a number of times. -/
structure Desired.AuditsClaims (d : Desired) (network : String) (a : Address) (claimed : List Claim) : Prop where
  /-- Each claim but the first is reported, on the domain that makes it. -/
  duplicates : ∀ first later, claimed = first :: later →
    (d.issuesAbout "duplicate-static-address" network a).map Issue.said = later.map fun c =>
      c.told ("static address " ++ a.text ++ " on " ++ network ++ " is also used by " ++ first.ownerOf c)
  count : (d.issuesAbout "duplicate-static-address" network a).length = claimed.length - 1
  outside : ∀ n ∈ d.networks.items, n.name = network →
    (d.issuesAbout "static-address-outside-subnet" network a).map Issue.said =
      if !n.subnet.contains a then
        claimed.map (·.told ("static address " ++ a.text ++ " is outside " ++ n.subnet.text ++ " of " ++ network))
      else []
  gateway : ∀ n ∈ d.networks.items, n.name = network →
    (d.issuesAbout "static-address-is-gateway" network a).map Issue.said =
      if a = n.gateway then claimed.map (·.told ("static address " ++ a.text ++ " is the gateway of " ++ network))
      else []
  served : ∀ n ∈ d.networks.items, n.name = network →
    (d.issuesAbout "static-address-in-dhcp-range" network a).map Issue.said =
      if n.dhcp.any (·.contains a) then
        claimed.map (·.told ("static address " ++ a.text ++ " overlaps the DHCP range of " ++ network))
      else []
  /-- Within a network that is not declared nothing is reported. -/
  undeclared : (∀ n ∈ d.networks.items, n.name ≠ network) →
    ∀ code, code ≠ "duplicate-static-address" → d.issuesAbout code network a = []

namespace Desired

theorem issuesAbout_duplicate (d : Desired) (network : String) (a : Address) :
    d.issuesAbout "duplicate-static-address" network a =
      match (claims d.domains.items).filter (·.isOf network a) with
      | [] => []
      | first :: later => later.map (duplicateIssue network a first) := by
  rw [issuesAbout_eq]
  exact filter_checkClaims_of_new d.networks.items rfl (claims d.domains.items)

theorem said_duplicateIssue (network : String) (a : Address) (first c : Claim) :
    (duplicateIssue network a first c).said =
      c.told ("static address " ++ a.text ++ " on " ++ network ++ " is also used by " ++ first.ownerOf c) := by
  rw [Issue.said, duplicateIssue, Claim.told, Claim.ownerOf]
  split <;> rfl

/-- One complaint that each of several claims gives rise to. -/
theorem map_said_flatMap (cs : List Claim) (p : Prop) [Decidable p] (x : Complaint) :
    (cs.flatMap fun c => (if p then [x] else []).map (Issue.mk .domain c.domain)).map Issue.said =
      if p then cs.map (·.told x.message) else [] := by
  split
  · rw [List.map_flatMap, List.map_eq_flatMap]
    rfl
  · simp

/-- **Static addresses are audited exactly.** If no two networks have the same name, then each address on each network
is reported as its claims are, in the order of the declaration: each claim but the first is one too many, and each
has to fit its network. -/
theorem reports_staticAddresses (d : Desired) (hnames : (d.networks.items.map (·.name)).Nodup) (network : String)
    (a : Address) : d.AuditsClaims network a ((claims d.domains.items).filter (·.isOf network a)) where
  duplicates first later hclaimed := by
    rw [issuesAbout_duplicate, hclaimed, List.map_map]
    exact List.map_congr_left fun c _ => said_duplicateIssue network a first c
  count := by
    rw [issuesAbout_duplicate]
    cases (claims d.domains.items).filter (·.isOf network a) with
    | nil => rfl
    | cons first later => simp
  outside := by
    rintro n hn rfl
    rw [issuesAbout_eq, filter_checkClaims_of_mem hnames hn (by decide), filter_checkPlace_outside]
    exact map_said_flatMap _ _ _
  gateway := by
    rintro n hn rfl
    rw [issuesAbout_eq, filter_checkClaims_of_mem hnames hn (by decide), filter_checkPlace_gateway]
    exact map_said_flatMap _ _ _
  served := by
    rintro n hn rfl
    rw [issuesAbout_eq, filter_checkClaims_of_mem hnames hn (by decide), filter_checkPlace_served]
    exact map_said_flatMap _ _ _
  undeclared hnone code hcode := by
    rw [issuesAbout_eq]
    exact filter_checkClaims_of_forall_ne hnone hcode [] _

/-- Two domains on a network: the first claims one address twice and the gateway, the second claims the same address
and one outside. -/
def withClaims : Desired where
  networks := .managed [{
    name := "lab", identifier := none, forward := .nat, bridge := "virbr10", gateway := .ofQuads 10 0 0 1
    netmask := Network.defaultNetmask, dhcp := some ⟨.ofQuads 10 0 0 100, .ofQuads 10 0 0 200⟩
    active := true, autostart := true }]
  pools := .managed []
  domains := .managed [
    { name := "a", memory := ⟨1, .GiB⟩
      interfaces := [{ network := "lab", staticAddress := some (.ofQuads 10 0 0 150) },
        { network := "lab", staticAddress := some (.ofQuads 10 0 0 150) },
        { network := "lab", staticAddress := some (.ofQuads 10 0 0 1) }] },
    { name := "b", memory := ⟨1, .GiB⟩
      interfaces := [{ network := "lab", staticAddress := some (.ofQuads 10 0 0 150) },
        { network := "lab", staticAddress := some (.ofQuads 10 1 0 1) }] }]

/-- The address that is claimed three times is reported twice as claimed before, and three times as served. -/
theorem reports_staticAddresses_withClaims :
    (withClaims.networks.items.map (·.name)).Nodup ∧
    (withClaims.issuesAbout "duplicate-static-address" "lab" (.ofQuads 10 0 0 150)).map Issue.said =
      [(.domain, "a", "static address 10.0.0.150 on lab is also used by another of its interfaces"),
       (.domain, "b", "static address 10.0.0.150 on lab is also used by a")] ∧
    (withClaims.issuesAbout "static-address-in-dhcp-range" "lab" (.ofQuads 10 0 0 150)).map (·.name) =
      ["a", "a", "b"] ∧
    (withClaims.issuesAbout "static-address-is-gateway" "lab" (.ofQuads 10 0 0 1)).map Issue.said =
      [(.domain, "a", "static address 10.0.0.1 is the gateway of lab")] ∧
    (withClaims.issuesAbout "static-address-outside-subnet" "lab" (.ofQuads 10 1 0 1)).map Issue.said =
      [(.domain, "b", "static address 10.1.0.1 is outside 10.0.0.0/24 of lab")] := by
  have hnames : (withClaims.networks.items.map (·.name)).Nodup := by decide
  have hall := reports_staticAddresses withClaims hnames "lab"
  have hlab : withClaims.networks.items.head (by decide) ∈ withClaims.networks.items := List.head_mem _
  refine ⟨hnames, (hall (.ofQuads 10 0 0 150)).duplicates _ _ rfl, ?_, (hall (.ofQuads 10 0 0 1)).gateway _ hlab rfl,
    (hall (.ofQuads 10 1 0 1)).outside _ hlab rfl⟩
  have hserved := congrArg (List.map (·.2.1)) ((hall (.ofQuads 10 0 0 150)).served _ hlab rfl)
  rw [List.map_map] at hserved
  exact hserved

end Desired

end VirtualTopology
