import VirtualTopology.PosixPath
import VirtualTopology.Settings
import VirtualTopology.Topology.Network
import VirtualTopology.Topology.Storage

/-!
# Expanding profiles

A profile and a few parameters stand for a complete domain: firmware that checks signatures, one
disk in the common pool, one interface on the lab network, the common shares and the install media.
`GuestSettings.expand` builds the domain.

The module also has short ways to declare the other resources: a network behind NAT, a pool that is
a directory, and a volume.
-/

namespace VirtualTopology

/-- What is said about one guest that is expanded from a profile. -/
structure GuestParameters where
  name : String
  /-- The volume of the first disk. -/
  volume : String
  identifier : Option Identifier := none
  memory : Option Quantity := none
  installMedia : Option String := none
  /-- The address that the guest gives its first interface. -/
  staticAddress : Option Address := none
  /-- The interfaces behind the first one. -/
  extraInterfaces : List Interface := []
  active : Option Bool := none
  restart : Option Bool := none
  nvram : Option String := none
  deriving Repr, DecidableEq

namespace GuestParameters

/-- The parameters of a guest. -/
def fields : List String :=
  ["name", "volume", "identifier", "memory", "install_media", "static_address",
   "extra_interfaces", "active", "restart", "nvram"]

/-- The reading of parameters. -/
def reading : Reading GuestParameters :=
  Reading.record fun m => Reading.sealed fields m
    (GuestParameters.mk <$> Reading.required m "name" Reading.name
      <*> Reading.required m "volume" Reading.name
      <*> Reading.defaulted m "identifier" none (Reading.optional Reading.identifier)
      <*> Reading.defaulted m "memory" none (Reading.optional Quantity.reading)
      <*> Reading.defaulted m "install_media" none (Reading.optional Reading.text)
      <*> Reading.defaulted m "static_address" none (Reading.optional Reading.address)
      <*> Reading.defaulted m "extra_interfaces" [] (Reading.list Interface.reading)
      <*> Reading.defaulted m "active" none (Reading.optional Reading.bool)
      <*> Reading.defaulted m "restart" none (Reading.optional Reading.bool)
      <*> Reading.defaulted m "nvram" none (Reading.optional Reading.text))

/-- The record of parameters. -/
def dump (p : GuestParameters) : Data :=
  .record [("name", .text p.name), ("volume", .text p.volume),
    ("identifier", .text? (p.identifier.map (·.text))),
    ("memory", (p.memory.map (·.dump)).getD .null),
    ("install_media", .text? p.installMedia),
    ("static_address", .text? (p.staticAddress.map (·.text))),
    ("extra_interfaces", .list (p.extraInterfaces.map (·.dump))),
    ("active", Domain.flag p.active), ("restart", Domain.flag p.restart),
    ("nvram", .text? p.nvram)]

end GuestParameters

/-- Why a profile is not expanded. -/
inductive ExpansionError where
  /-- The name of a profile cannot be a list or a mapping. -/
  | notAName
  | unknownProfile (profile : String) (available : List String)
  /-- A number that is given as a profile has too many digits to be shown. -/
  | unwritable
  /-- The settings do not fit into a domain. -/
  | rejected (r : Rejection)
  deriving Repr

namespace GuestSettings

/-- The names of the profiles, sorted. -/
def profileNames (s : GuestSettings) : List String :=
  (s.profiles.map (·.1)).mergeSort fun a b => decide (a ≤ b)

/-- The profile with a name. -/
def profile? (s : GuestSettings) (name : Data) : Except ExpansionError Profile :=
  let unknown : ExpansionError :=
    (name.display?).elim .unwritable (.unknownProfile · s.profileNames)
  match name with
  | .scalar (.text t) => (s.profiles.lookup t).elim (.error unknown) .ok
  | .scalar _ => .error unknown
  | _ => .error .notAName

/-- The path of a medium: a relative one is in the directory of install media. -/
def mediumPath (s : GuestSettings) (medium : String) : String :=
  ((PosixPath.ofText s.isoDirectory).join (PosixPath.ofText medium)).text

/-- The path of the variable store that belongs to a volume. -/
def nvramPath (s : GuestSettings) (volume : String) : String :=
  ((PosixPath.ofText s.nvramDirectory).join
    (PosixPath.ofText ((PosixPath.ofText volume).stem ++ ".nvram"))).text

/-- The first of two texts that is there and not empty. -/
def firstGiven (a b : Option String) : Option String :=
  match a with
  | some s => if s.isEmpty then b else a
  | none => b

/-- The media of a guest: the one to install from, then the common one. -/
def media (s : GuestSettings) (p : Profile) (g : GuestParameters) : List String :=
  ([firstGiven g.installMedia p.installMedia, s.driverMedia].filterMap
    fun m => m.filter (!·.isEmpty)).map s.mediumPath

/-- A common share with the program that serves it. -/
def servedShare (s : GuestSettings) (share : Share) : Share :=
  { share with binaryPath := firstGiven share.binaryPath s.shareServer }

/-- The first interface of a guest. -/
def firstInterface (s : GuestSettings) (g : GuestParameters) : Except Rejection Interface :=
  (Interface.reading (.record [("network", .text s.labNetwork), ("model", .text s.nicModel),
    ("static_address", .text? (g.staticAddress.map (·.text)))])).titled "InterfaceSpec"

/-- The first disk of a guest. -/
def firstDisk (s : GuestSettings) (g : GuestParameters) : Except Rejection Disk :=
  (Disk.reading (.record [("pool", .text s.pool), ("volume", .text g.volume),
    ("bus", .text s.diskBus)])).titled "DiskAttachment"

/-- The complete domain for a guest with a profile. -/
def guest (s : GuestSettings) (p : Profile) (g : GuestParameters) : Except Rejection Domain := do
  let interface ← s.firstInterface g
  let disk ← s.firstDisk g
  pure {
    name := g.name
    identifier := g.identifier
    memory := g.memory.getD p.memory
    vcpus := s.vcpus
    firmware := .uefi
    tpm := true
    disks := [disk]
    interfaces := interface :: g.extraInterfaces
    shares := s.shares.map s.servedShare
    installMedia := s.media p g
    nvram := firstGiven g.nvram (some (s.nvramPath g.volume))
    active := g.active
    restart := g.restart }

/-- The complete domain for a guest with the profile of a name. -/
def expand (s : GuestSettings) (profile : Data) (g : GuestParameters) :
    Except ExpansionError Domain := do
  let p ← s.profile? profile
  (s.guest p g).mapError .rejected

/-- An interface that faces the internet. -/
def secondaryInterface (s : GuestSettings) (model : Option String := none) :
    Except Rejection Interface :=
  (Interface.reading (.record [("network", .text s.secondaryNetwork),
    ("model", .text ((firstGiven model none).getD s.nicModel))])).titled "InterfaceSpec"

end GuestSettings

/-! ### Short declarations -/

/-- Why a short declaration is refused. -/
inductive DeclarationError where
  | subnetByte (given : Int)
  | dhcpRange (first last : Int)
  | rejected (r : Rejection)
  deriving Repr

/-- The text of a refusal that has one of its own. -/
def DeclarationError.message? : DeclarationError → Option String
  | subnetByte given => some s!"Invalid subnet byte: {given}"
  | dhcpRange first last => some s!"Invalid DHCP range: .{first}-.{last}"
  | rejected _ => none

/-- A network on `192.168.n.0/24` that reaches the outside through NAT. The host has the address
that ends in 1, and the addresses from `first` to `last` are handed out. -/
def Network.behindNat (name : Data) (subnetByte : Int) (identifier bridge : Data := .null)
    (first : Int := 2) (last : Int := 254) : Except DeclarationError Network := do
  if subnetByte < 0 ∨ 255 < subnetByte then throw (.subnetByte subnetByte)
  if first < 2 ∨ last < first ∨ 254 < last then throw (.dhcpRange first last)
  let address (n : Int) : Data :=
    .text (Address.ofQuads 192 168 subnetByte.toNat n.toNat).text
  let bridge := if bridge.isBare then .text s!"virbr{subnetByte}" else bridge
  (((Network.reading (.record [("name", name), ("identifier", identifier),
    ("forward", .text ForwardMode.nat.word), ("bridge", bridge), ("gateway", address 1),
    ("dhcp", .record [("start", address first), ("end", address last)])])).titled
      "NetworkSpec")).mapError .rejected

/-- A pool that is a directory. -/
def Pool.directory (name target : Data) (volumes : List VolumeEntry := [])
    (identifier : Data := .null) : Except Rejection Pool := do
  let pool ← (Pool.reading (.record [("name", name), ("identifier", identifier),
    ("kind", .text "dir"), ("target", target)])).titled "StoragePoolSpec"
  pure { pool with volumes }

/-- An entry that asks for a volume in the format `qcow2`. -/
def VolumeEntry.qcow2 (name : Data) (capacity : Quantity) : Except Rejection VolumeEntry := do
  let volume ← (Volume.reading (.record [("name", name), ("capacity", capacity.dump),
    ("format", .text "qcow2")])).titled "VolumeSpec"
  pure { name := volume.name, present := true, volume := some volume }

end VirtualTopology
