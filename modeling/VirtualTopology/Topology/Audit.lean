import VirtualTopology.PosixPath
import VirtualTopology.Topology.Desired

/-!
# Auditing a desired state

A desired state can be well formed and still make no sense: two resources of one name, a reference
that leads nowhere, an address twice. `Desired.audit` looks at the declaration only and lists every
`Issue`, in a fixed order: repeated names by kind, then each network, shared bridges, each pool,
each domain, and last the static addresses of all interfaces.
-/

namespace VirtualTopology

/-- What is wrong with a declaration. -/
inductive Complaint where
  | duplicateName (times : Nat)
  | duplicateVolume (pool : String) (times : Nat)
  | duplicateBridge (bridge : String) (others : List String)
  | invalidDhcpRange (range : DhcpRange)
  | dhcpOutsideSubnet (bound : Address) (subnet : Subnet)
  | gatewayInDhcpRange (gateway : Address)
  | inactivePoolVolumes
  | unresolvedNetwork (network : String)
  | unresolvedPool (pool : String)
  | unresolvedVolume (pool volume : String)
  | volumeMarkedAbsent (pool volume : String)
  | duplicateDisk (pool volume : String) (times : Nat)
  | duplicateMountTag (tag : String) (times : Nat)
  | relativeSharePath (tag path : String)
  /-- The owner is the domain that claimed the address first; `none` if it is the same one. -/
  | duplicateStaticAddress (address : Address) (network : String) (owner : Option String)
  | staticAddressOutsideSubnet (address : Address) (subnet : Subnet) (network : String)
  | staticAddressIsGateway (address : Address) (network : String)
  | staticAddressInDhcpRange (address : Address) (network : String)
  deriving Repr, DecidableEq

namespace Complaint

/-- The word for a complaint. -/
def code : Complaint → String
  | duplicateName _ => "duplicate-name"
  | duplicateVolume .. => "duplicate-name"
  | duplicateBridge .. => "duplicate-bridge"
  | invalidDhcpRange _ => "invalid-dhcp-range"
  | dhcpOutsideSubnet .. => "dhcp-outside-subnet"
  | gatewayInDhcpRange _ => "gateway-in-dhcp-range"
  | inactivePoolVolumes => "inactive-pool-volumes"
  | unresolvedNetwork _ => "unresolved-network"
  | unresolvedPool _ => "unresolved-pool"
  | unresolvedVolume .. => "unresolved-volume"
  | volumeMarkedAbsent .. => "volume-marked-absent"
  | duplicateDisk .. => "duplicate-disk"
  | duplicateMountTag .. => "duplicate-mount-tag"
  | relativeSharePath .. => "relative-share-path"
  | duplicateStaticAddress .. => "duplicate-static-address"
  | staticAddressOutsideSubnet .. => "static-address-outside-subnet"
  | staticAddressIsGateway .. => "static-address-is-gateway"
  | staticAddressInDhcpRange .. => "static-address-in-dhcp-range"

/-- The text of a complaint. -/
def message : Complaint → String
  | duplicateName times => s!"declared {times} times"
  | duplicateVolume pool times => s!"listed {times} times in pool {pool}"
  | duplicateBridge bridge others =>
      "bridge " ++ bridge ++ " is also used by " ++ ", ".intercalate others
  | invalidDhcpRange range =>
      "DHCP range starts at " ++ range.start.text ++ " after its end " ++ range.finish.text
  | dhcpOutsideSubnet bound subnet =>
      "DHCP address " ++ bound.text ++ " is outside " ++ subnet.text
  | gatewayInDhcpRange gateway => "gateway " ++ gateway.text ++ " lies inside the DHCP range"
  | inactivePoolVolumes => "volumes can only be managed in an active pool"
  | unresolvedNetwork network => "interface references unknown network " ++ network
  | unresolvedPool pool => "disk references unknown pool " ++ pool
  | unresolvedVolume pool volume =>
      "disk references unknown volume " ++ volumeLabel pool volume
  | volumeMarkedAbsent pool volume =>
      "disk references volume " ++ volumeLabel pool volume ++ " which is marked for deletion"
  | duplicateDisk pool volume times =>
      "volume " ++ volumeLabel pool volume ++ s!" is attached {times} times"
  | duplicateMountTag tag times => "mount tag " ++ tag ++ s!" is used {times} times"
  | relativeSharePath tag path => "share " ++ tag ++ " has relative host path " ++ path
  | duplicateStaticAddress address network owner =>
      "static address " ++ address.text ++ " on " ++ network ++ " is also used by " ++
        owner.getD "another of its interfaces"
  | staticAddressOutsideSubnet address subnet network =>
      "static address " ++ address.text ++ " is outside " ++ subnet.text ++ " of " ++ network
  | staticAddressIsGateway address network =>
      "static address " ++ address.text ++ " is the gateway of " ++ network
  | staticAddressInDhcpRange address network =>
      "static address " ++ address.text ++ " overlaps the DHCP range of " ++ network

end Complaint

/-- A complaint about a resource. -/
structure Issue where
  kind : ResourceKind
  name : String
  complaint : Complaint
  deriving Repr, DecidableEq

namespace Issue

/-- The line for an issue. -/
def text (i : Issue) : String :=
  i.kind.word ++ " " ++ Text.quoted i.name ++ ": " ++ i.complaint.message

/-- The record of an issue. -/
def dump (i : Issue) : Data :=
  .record [("kind", .text i.kind.word), ("name", .text i.name), ("code", .text i.complaint.code),
    ("message", .text i.complaint.message)]

end Issue

namespace Audit

/-! ### Counting -/

/-- The values of a list with the number of times they occur, in order of first occurrence. -/
def tally {α : Type} [BEq α] (xs : List α) : List (α × Nat) :=
  xs.eraseDups.map fun x => (x, xs.count x)

/-- The values that occur more than once. -/
def repeated {α : Type} [BEq α] (xs : List α) : List (α × Nat) :=
  (tally xs).filter fun e => decide (1 < e.2)

/-- The texts that occur more than once, sorted. -/
def repeatedTexts (xs : List String) : List (String × Nat) :=
  (repeated xs).mergeSort fun a b => decide (a.1 ≤ b.1)

/-- The last resource with a name. -/
def lastNamed? {α : Type} (name : α → String) (xs : List α) (wanted : String) : Option α :=
  xs.reverse.find? (name · == wanted)

/-! ### Names, networks and pools -/

/-- Names that are declared more than once. -/
def checkNames (kind : ResourceKind) (names : List String) : List Issue :=
  (repeatedTexts names).map fun e => ⟨kind, e.1, .duplicateName e.2⟩

/-- The issues of a network on its own. -/
def checkNetwork (n : Network) : List Issue :=
  match n.dhcp with
  | none => []
  | some r =>
      let complaints :=
        (if r.start ≤ r.finish then [] else [.invalidDhcpRange r]) ++
        ([r.start, r.finish].filter fun b => !n.subnet.contains b).map
          (Complaint.dhcpOutsideSubnet · n.subnet) ++
        (if r.contains n.gateway then [.gatewayInDhcpRange n.gateway] else [])
      complaints.map (Issue.mk .network n.name)

/-- The networks that share a bridge. -/
def checkBridges (networks : List Network) : List Issue :=
  (repeated (networks.map (·.bridge))).flatMap fun e =>
    let owners := ((networks.filter (·.bridge == e.1)).map (·.name)).mergeSort
      fun a b => decide (a ≤ b)
    owners.map fun owner =>
      ⟨.network, owner, .duplicateBridge e.1 (owners.filter (· != owner))⟩

/-- The issues of a pool on its own. -/
def checkPool (p : Pool) : List Issue :=
  (repeatedTexts (p.volumes.map (·.name))).map (fun e =>
    ⟨.volume, volumeLabel p.name e.1, .duplicateVolume p.name e.2⟩) ++
  (if !p.active && !p.volumes.isEmpty then [⟨.pool, p.name, .inactivePoolVolumes⟩] else [])

/-! ### Domains -/

/-- Whether a reference to a resource of a kind leads somewhere. -/
def resolves {α : Type} (declared : Declared α) (nameOf : α → String) (name : String) : Bool :=
  match declared with
  | .unmanaged assumed => assumed.contains name
  | .managed items => items.any (nameOf · == name)

/-- The complaints about a disk. -/
def checkDisk (desired : Desired) (d : Disk) : List Complaint :=
  if !resolves desired.pools (·.name) d.pool then [.unresolvedPool d.pool]
  else
    match lastNamed? (·.name) desired.pools.items d.pool with
    | none => []
    | some pool =>
        match pool.entry? d.volume with
        | none => [.unresolvedVolume d.pool d.volume]
        | some entry => if entry.present then [] else [.volumeMarkedAbsent d.pool d.volume]

/-- The issues of a domain, static addresses apart. -/
def checkDomain (desired : Desired) (d : Domain) : List Issue :=
  let complaints :=
    (d.interfaces.filter fun i => !resolves desired.networks (·.name) i.network).map
      (fun i => Complaint.unresolvedNetwork i.network) ++
    d.disks.flatMap (checkDisk desired) ++
    (repeated (d.disks.map fun k => (k.pool, k.volume))).map
      (fun e => .duplicateDisk e.1.1 e.1.2 e.2) ++
    (repeatedTexts (d.shares.map (·.mountTag))).map (fun e => .duplicateMountTag e.1 e.2) ++
    (d.shares.filter fun s => !(PosixPath.ofText s.hostPath).isAbsolute).map
      (fun s => .relativeSharePath s.mountTag s.hostPath)
  complaints.map (Issue.mk .domain d.name)

/-! ### Static addresses -/

/-- A static address that an interface claims on a network. -/
structure Claim where
  domain : String
  network : String
  address : Address
  deriving Repr, DecidableEq

/-- All claims, in order. -/
def claims (domains : List Domain) : List Claim :=
  domains.flatMap fun d => d.interfaces.filterMap fun i =>
    i.staticAddress.map fun a => ⟨d.name, i.network, a⟩

/-- The complaints about the address of a claim within its network. -/
def checkPlace (n : Network) (a : Address) : List Complaint :=
  (if !n.subnet.contains a then [.staticAddressOutsideSubnet a n.subnet n.name]
   else if a = n.gateway then [.staticAddressIsGateway a n.name]
   else []) ++
  (if n.dhcp.any (·.contains a) then [.staticAddressInDhcpRange a n.name] else [])

/-- The complaint that an address was claimed before, by the first of the earlier claims. -/
def checkOwner (before : List Claim) (c : Claim) : List Complaint :=
  match before.find? fun b => b.network == c.network && b.address == c.address with
  | none => []
  | some b =>
      [.duplicateStaticAddress c.address c.network
        (if b.domain = c.domain then none else some b.domain)]

/-- The issues of a claim, given the earlier ones. -/
def checkClaim (networks : List Network) (before : List Claim) (c : Claim) : List Issue :=
  let place :=
    match lastNamed? (·.name) networks c.network with
    | none => []
    | some n => checkPlace n c.address
  (checkOwner before c ++ place).map (Issue.mk .domain c.domain)

/-- The issues of several claims, given the ones before them. -/
def checkClaims (networks : List Network) : (before : List Claim) → List Claim → List Issue
  | _, [] => []
  | before, c :: cs => checkClaim networks before c ++ checkClaims networks (before ++ [c]) cs

end Audit

open Audit in
/-- Every issue of a desired state. -/
def Desired.audit (d : Desired) : List Issue :=
  checkNames .network (d.networks.items.map (·.name)) ++
  checkNames .pool (d.pools.items.map (·.name)) ++
  checkNames .domain (d.domains.items.map (·.name)) ++
  d.networks.items.flatMap checkNetwork ++
  checkBridges d.networks.items ++
  d.pools.items.flatMap checkPool ++
  d.domains.items.flatMap (checkDomain d) ++
  checkClaims d.networks.items [] (claims d.domains.items)

/-- The line that sums up issues. -/
def Issue.summary (issues : List Issue) : String :=
  s!"Desired state failed validation with {issues.length} issue(s): " ++
    "; ".intercalate (issues.map (·.text))

end VirtualTopology
