import VirtualTopology.Proofs.Document.Faithful
import VirtualTopology.Topology.Audit

/-!
# The netmask of a network and its subnet

A netmask is meant to be a run of ones followed by zeros, and then it decides everything: an address lies in the subnet
of a network if and only if it is the same as the gateway under the mask, the audit measures ranges and static
addresses by that, and the mask is the one that the document of the network states
(`Network.decidedBy_netmask`).

There is one exception. A run of zeros followed by ones, a host mask, passes the check of a netmask as well; it is
stated as it is given, but the subnet is that of its complement. So an address can be the same as the gateway under
the stated mask and still be reported as outside (`Network.not_decidedBy_hostMask`).

The argument goes bit by bit, the most significant first: a mask of a prefix length has ones up to that length
(`Address.hasOnes_mask`), and a mask is known by its bits (`Address.HasOnes.eq_mask`).
-/

namespace VirtualTopology

/-! ### Masks, bit by bit -/

namespace Address

/-- Whether a mask is a number of ones followed by zeros. -/
def HasOnes (m : Address) (k : Nat) : Prop := ∀ i < 32, m.bits.getMsbD i = decide (i < k)

/-- Whether a mask is one or more zeros followed by one or more ones. -/
def IsHostMask (m : Address) : Prop := ∃ k, 0 < k ∧ k < 32 ∧ m.complement.HasOnes k

/-- Whether two addresses are the same under a mask. -/
def SameUnder (m a b : Address) : Prop := a.bits &&& m.bits = b.bits &&& m.bits

instance (m : Address) (k : Nat) : Decidable (m.HasOnes k) :=
  inferInstanceAs (Decidable (∀ i < 32, m.bits.getMsbD i = decide (i < k)))

instance (m a b : Address) : Decidable (m.SameUnder a b) :=
  inferInstanceAs (Decidable (a.bits &&& m.bits = b.bits &&& m.bits))

theorem hasOnes_mask {k : Nat} (hk : k ≤ 32) : (mask k).HasOnes k := by
  intro i hi
  rw [mask, BitVec.getMsbD_shiftLeft, BitVec.getMsbD_allOnes]
  congr 1
  rw [eq_iff_iff]
  omega

/-- **A mask is known by its ones.** -/
theorem HasOnes.eq_mask {m : Address} {k : Nat} (h : m.HasOnes k) (hk : k ≤ 32) : m = mask k := by
  have hbits : m.bits = (mask k).bits := BitVec.eq_of_getMsbD_eq fun i hi => by rw [h i hi, hasOnes_mask hk i hi]
  cases m
  exact congrArg Address.mk hbits

/-- Up to the length of an address, the number of ones is the only one. -/
theorem HasOnes.unique {m : Address} {j k : Nat} (hj : m.HasOnes j) (hk : m.HasOnes k) (hjle : j ≤ 32)
    (hkle : k ≤ 32) : j = k := by
  by_contra hne
  rcases Nat.lt_or_gt_of_ne hne with hlt | hlt
  · have hbit := (hj j (by omega)).symm.trans (hk j (by omega))
    simp [hlt] at hbit
  · have hbit := (hj k (by omega)).symm.trans (hk k (by omega))
    simp [hlt] at hbit

theorem leadingOnes?_eq_some_iff {m : Address} {k : Nat} : m.leadingOnes? = some k ↔ k ≤ 32 ∧ m.HasOnes k := by
  constructor
  · intro h
    have hk : k ≤ 32 := Nat.lt_succ_iff.1 (List.mem_range.1 (List.mem_of_find?_eq_some h))
    obtain rfl : mask k = m := by simpa using List.find?_some h
    exact ⟨hk, hasOnes_mask hk⟩
  · rintro ⟨hk, h⟩
    have hsome : m.leadingOnes?.isSome = true := by
      rw [leadingOnes?, List.find?_isSome]
      exact ⟨k, List.mem_range.2 (by omega), by simp [h.eq_mask hk]⟩
    obtain ⟨j, hj⟩ := Option.isSome_iff_exists.1 hsome
    have hjle : j ≤ 32 := Nat.lt_succ_iff.1 (List.mem_range.1 (List.mem_of_find?_eq_some hj))
    obtain rfl : mask j = m := by simpa using List.find?_some hj
    rw [hj, (hasOnes_mask hjle).unique h hjle hk]

/-- A host mask does not begin with ones that only zeros follow: its first bit is zero and its last one is one. -/
theorem IsHostMask.not_hasOnes {m : Address} (h : m.IsHostMask) (k : Nat) : ¬ m.HasOnes k := by
  intro hones
  obtain ⟨j, hpos, hlt, hj⟩ := h
  have hbit : ∀ i < 32, m.bits.getMsbD i = !decide (i < j) := fun i hi => by
    have hturned := hj i hi
    rw [complement, BitVec.getMsbD_not, decide_eq_true hi, Bool.true_and] at hturned
    rw [← hturned, Bool.not_not]
  have hfirst := (hbit 0 (by omega)).symm.trans (hones 0 (by omega))
  have hlast := (hbit 31 (by omega)).symm.trans (hones 31 (by omega))
  simp only [hpos, decide_true, Bool.not_true, Bool.false_eq, decide_eq_false_iff_not] at hfirst
  have hnone : ¬ 31 < k := by omega
  have hstill : ¬ 31 < j := by omega
  simp [hnone, hstill] at hlast

/-- **What a netmask stands for**: its ones, or if it is a host mask, its zeros. -/
theorem prefixLength?_cases {m : Address} (h : m.prefixLength?.isSome = true) :
    (∃ k ≤ 32, m.HasOnes k ∧ m.prefixLength? = some k) ∨
      m.IsHostMask ∧ ∃ k ≤ 32, m.complement.HasOnes k ∧ m.prefixLength? = some k := by
  cases hones : m.leadingOnes? with
  | some k =>
    obtain ⟨hk, hhas⟩ := leadingOnes?_eq_some_iff.1 hones
    exact .inl ⟨k, hk, hhas, by rw [prefixLength?, hones]⟩
  | none =>
    have hlength : m.prefixLength? = m.complement.leadingOnes? := by rw [prefixLength?, hones]
    obtain ⟨k, hk⟩ := Option.isSome_iff_exists.1 (hlength ▸ h)
    obtain ⟨hle, hhas⟩ := leadingOnes?_eq_some_iff.1 hk
    have hnot : ∀ j ≤ 32, ¬ m.HasOnes j := fun j hj hm => by
      rw [leadingOnes?_eq_some_iff.2 ⟨hj, hm⟩] at hones
      exact nomatch hones
    -- a complement without ones, or without zeros, is that of a mask with ones in front
    have hturned : ∀ i < 32, m.bits.getMsbD i = !decide (i < k) := fun i hi => by
      rw [← hhas i hi, complement, BitVec.getMsbD_not, decide_eq_true hi, Bool.true_and, Bool.not_not]
    have hpos : k ≠ 0 := by
      rintro rfl
      exact hnot 32 le_rfl fun i hi => by simp [hturned i hi, hi]
    have hlt : k ≠ 32 := by
      rintro rfl
      exact hnot 0 (by omega) fun i hi => by simp [hturned i hi, hi]
    exact .inr ⟨⟨k, by omega, by omega, hhas⟩, k, hle, hhas, hlength.trans hk⟩

end Address

/-! ### Subnets -/

/-- **An address lies in a subnet** if and only if it is the same under the mask as the address that the subnet is
around. -/
theorem Subnet.contains_around_iff {gateway m a : Address} {k : Nat} (hk : k ≤ 32) (h : m.HasOnes k) :
    (around gateway k).contains a = true ↔ m.SameUnder a gateway := by
  rw [contains, around, beq_iff_eq, h.eq_mask hk]
  rfl

namespace Network

open Audit

/-- Whether a mask decides what belongs to a network, and what the audit says about ranges and static addresses. -/
structure DecidedBy (n : Network) (m : Address) : Prop where
  subnet : ∀ a, n.subnet.contains a = true ↔ m.SameUnder a n.gateway
  ranges : ∀ r, n.dhcp = some r → ∀ b, Issue.mk .network n.name (.dhcpOutsideSubnet b n.subnet) ∈ checkNetwork n ↔
    (b = r.start ∨ b = r.finish) ∧ ¬ m.SameUnder b n.gateway
  addresses : ∀ a, .staticAddressOutsideSubnet a n.subnet n.name ∈ checkPlace n a ↔ ¬ m.SameUnder a n.gateway

variable {n : Network}

theorem dhcpOutsideSubnet_mem_checkNetwork_iff {r : DhcpRange} (hr : n.dhcp = some r) {b : Address} :
    Issue.mk .network n.name (.dhcpOutsideSubnet b n.subnet) ∈ checkNetwork n ↔
      (b = r.start ∨ b = r.finish) ∧ n.subnet.contains b = false := by
  simp only [checkNetwork, hr, List.map_append, List.mem_append, List.mem_map, List.mem_filter]
  constructor
  · rintro ((⟨c, hc, heq⟩ | ⟨c, ⟨b', ⟨hb, hout⟩, rfl⟩, heq⟩) | ⟨c, hc, heq⟩)
    · split at hc
      · exact absurd hc (by simp)
      · obtain rfl := List.mem_singleton.1 hc
        cases heq
    · cases heq
      exact ⟨by simpa using hb, by simpa using hout⟩
    · split at hc
      · obtain rfl := List.mem_singleton.1 hc
        cases heq
      · exact absurd hc (by simp)
  · rintro ⟨hb, hout⟩
    exact .inl (.inr ⟨_, ⟨b, ⟨by simpa using hb, by simpa using hout⟩, rfl⟩, rfl⟩)

theorem outsideSubnet_mem_checkPlace_iff {a : Address} :
    .staticAddressOutsideSubnet a n.subnet n.name ∈ checkPlace n a ↔ n.subnet.contains a = false := by
  unfold checkPlace
  cases n.subnet.contains a
  · simp
  · simp only [Bool.not_true, Bool.false_eq_true, if_false, List.mem_append]
    split <;> split <;> simp

/-- A mask that decides the subnet decides what the audit says. -/
theorem decidedBy_of_subnet {m : Address} (h : ∀ a, n.subnet.contains a = true ↔ m.SameUnder a n.gateway) :
    n.DecidedBy m where
  subnet := h
  ranges r hr b := by rw [dhcpOutsideSubnet_mem_checkNetwork_iff hr, ← h, Bool.not_eq_true]
  addresses a := by rw [outsideSubnet_mem_checkPlace_iff, ← h, Bool.not_eq_true]

theorem decidedBy_of_hasOnes {m : Address} {k : Nat} (hk : k ≤ 32) (h : m.HasOnes k)
    (hlength : n.netmask.prefixLength? = some k) : n.DecidedBy m := by
  refine decidedBy_of_subnet fun a => ?_
  rw [subnet, hlength, Option.getD_some]
  exact Subnet.contains_around_iff hk h

/-- A netmask that was read stands for a prefix length. -/
theorem isSome_prefixLength?_of_reading {data : Data} (h : reading data = .valid n) :
    n.netmask.prefixLength?.isSome = true := by
  obtain ⟨m, hm⟩ := Reading.eq_valid_of_record h
  have hfields := Reading.eq_valid_of_sealed hm
  simp only [Checked.seq_eq_valid_iff, Checked.map_eq_valid_iff] at hfields
  obtain ⟨_, autostart, ⟨_, active, ⟨_, dhcp, ⟨_, netmask, ⟨_, gateway, ⟨_, bridge, ⟨_, forward, ⟨_, identifier,
    ⟨name, -, rfl⟩, -, rfl⟩, -, rfl⟩, -, rfl⟩, -, rfl⟩, hnetmask, rfl⟩, -, rfl⟩, -, rfl⟩, -, rfl⟩ := hfields
  rcases Reading.eq_or_read_of_defaulted hnetmask with rfl | ⟨e, he⟩
  · exact (by decide : defaultNetmask.prefixLength?.isSome = true)
  · obtain ⟨a, -, ha⟩ := Checked.andThen_eq_valid_iff.1 he
    split at ha
    · next hlength =>
      obtain rfl := Checked.valid.inj ha
      exact hlength
    · exact nomatch ha

end Network

/-! ### Documents -/

namespace Element

/-- The mask that the document of a network states. -/
def statedMask? (e : Element) : Option Address :=
  (e.descend ["ip"]).head?.bind fun ip => (ip.attribute? "netmask").bind Address.ofText?

end Element

open Element Document

/-- **The document of a network states its netmask.** -/
theorem Network.statedMask?_written {n : Network} {text : String} (h : n.written = .ok text) :
    (Element.read? text).bind statedMask? = some n.netmask := by
  have hread := (Declaration.network n).orderly.framed.read?_render h
  have hip : n.document.descend ["ip"] = [n.addressElement] := by
    rw [descend, n.all_document.2.2.2.2]
    rfl
  have hattribute : n.addressElement.attribute? "netmask" = some n.netmask.text := rfl
  have hshown : shown n.netmask.text = n.netmask.text :=
    shown_eq_self (Text.onOneLine_of_isVisible (isVisible_address n.netmask))
  have hmask : statedMask? (n.document.asRead 0) = some n.netmask := by
    rw [statedMask?, keepsShape_asRead.descend_eq, hip, List.map_singleton, List.head?_cons, Option.bind_some,
      attribute?_asRead, hattribute, Option.map_some, hshown, Option.bind_some, Address.ofText?_text]
  rw [hread]
  exact hmask

/-! ### Netmasks that were read -/

namespace Network

/-- **The netmask decides**: a network that was read states its netmask, and by that mask its subnet is what is the same
as the gateway, unless the mask is a host mask; then it is the complement that decides. -/
theorem decidedBy_netmask {data : Data} {n : Network} (h : reading data = .valid n) :
    (∀ text, n.written = .ok text → (Element.read? text).bind statedMask? = some n.netmask) ∧
    (¬ n.netmask.IsHostMask → (∃ k ≤ 32, n.netmask.HasOnes k) ∧ n.DecidedBy n.netmask) ∧
    (n.netmask.IsHostMask → n.DecidedBy n.netmask.complement) := by
  have hcases := Address.prefixLength?_cases (isSome_prefixLength?_of_reading h)
  refine ⟨fun _ => statedMask?_written, fun hnot => ?_, fun hhost => ?_⟩
  · rcases hcases with ⟨k, hk, hones, hlength⟩ | ⟨hhost, -⟩
    · exact ⟨⟨k, hk, hones⟩, decidedBy_of_hasOnes hk hones hlength⟩
    · exact absurd hhost hnot
  · rcases hcases with ⟨k, -, hones, -⟩ | ⟨-, k, hk, hones, hlength⟩
    · exact absurd hones (hhost.not_hasOnes k)
    · exact decidedBy_of_hasOnes hk hones hlength

/-- A network with a host mask. -/
def withHostMask : Network := { withRange with netmask := .ofQuads 0 0 0 255 }

theorem isHostMask_withHostMask : withHostMask.netmask.IsHostMask := ⟨24, by decide, by decide, by decide⟩

/-- The netmask decides for a network with 24 ones, and its complement for one with 24 zeros. -/
theorem decidedBy_netmask_withRange :
    (reading withRange.dump = .valid withRange ∧ ¬ withRange.netmask.IsHostMask ∧
      withRange.netmask.HasOnes 24 ∧ withRange.DecidedBy withRange.netmask) ∧
    reading withHostMask.dump = .valid withHostMask ∧ withHostMask.netmask.IsHostMask ∧
      withHostMask.DecidedBy withHostMask.netmask.complement := by
  have hrange : reading withRange.dump = .valid withRange := by rfl
  have hhost : reading withHostMask.dump = .valid withHostMask := by rfl
  have hones : withRange.netmask.HasOnes 24 := by decide
  have hnot : ¬ withRange.netmask.IsHostMask := fun h => h.not_hasOnes 24 hones
  exact ⟨⟨hrange, hnot, hones, ((decidedBy_netmask hrange).2.1 hnot).2⟩, hhost, isHostMask_withHostMask,
    (decidedBy_netmask hhost).2.2 isHostMask_withHostMask⟩

/-- **A host mask is accepted**: this network is read, its mask is no run of ones, and the address `10.0.1.1` is the
same as its gateway under the mask, but it is not in the subnet, and a static address there is reported. -/
theorem not_decidedBy_hostMask : reading withHostMask.dump = .valid withHostMask ∧
    (∀ k, ¬ withHostMask.netmask.HasOnes k) ∧
    withHostMask.netmask.SameUnder (.ofQuads 10 0 1 1) withHostMask.gateway ∧
    withHostMask.subnet.contains (.ofQuads 10 0 1 1) = false ∧
    .staticAddressOutsideSubnet (.ofQuads 10 0 1 1) withHostMask.subnet "lab" ∈
      Audit.checkPlace withHostMask (.ofQuads 10 0 1 1) := by
  refine ⟨by rfl, isHostMask_withHostMask.not_hasOnes, by decide, by decide, ?_⟩
  exact outsideSubnet_mem_checkPlace_iff.2 (by decide)

end Network

end VirtualTopology
