import VirtualTopology.HardwareAddress
import VirtualTopology.Topology.Quantity

/-!
# Declared domains

A domain is a virtual machine: memory, processors, firmware, and ordered lists of disks, interfaces,
shared directories and install media. Its power state is left alone unless `active` says otherwise,
and `restart` decides whether a running one is restarted.
-/

namespace VirtualTopology

/-- How a guest is started. -/
inductive Firmware where
  | legacy
  /-- Firmware that can check signatures. -/
  | uefi
  deriving Repr, DecidableEq, Inhabited

namespace Firmware

/-- All firmware. -/
def all : List Firmware := [legacy, uefi]

/-- The word for a firmware. -/
def word : Firmware → String
  | legacy => "legacy"
  | uefi => "uefi"

end Firmware

/-- A disk: a volume of a pool, on a bus. -/
structure Disk where
  pool : String
  volume : String
  bus : String := "sata"
  format : String := "qcow2"
  deriving Repr, DecidableEq, Inhabited

namespace Disk

/-- The reading of a disk. -/
def reading : Reading Disk :=
  Reading.record fun m => Reading.sealed ["pool", "volume", "bus", "format"] m
    (Disk.mk <$> Reading.required m "pool" Reading.name
      <*> Reading.required m "volume" Reading.name
      <*> Reading.defaulted m "bus" "sata" Reading.text
      <*> Reading.defaulted m "format" "qcow2" Reading.text)

/-- The record of a disk. -/
def dump (d : Disk) : Data :=
  .record [("pool", .text d.pool), ("volume", .text d.volume), ("bus", .text d.bus),
    ("format", .text d.format)]

end Disk

/-- An interface on a network. -/
structure Interface where
  network : String
  model : String := "virtio"
  /-- The declared hardware address. -/
  mac : Option String := none
  /-- The address that the guest gives itself. -/
  staticAddress : Option Address := none
  deriving Repr, DecidableEq, Inhabited

namespace Interface

/-- The reading of a hardware address: it is kept in small letters. -/
def macReading : Reading String := fun d =>
  (Reading.text d).andThen fun s =>
    let s := Text.lower s
    if HardwareAddress.accepts s.toList then .valid s
    else .fault (.objection (.hardwareAddress s))

/-- The reading of an interface. -/
def reading : Reading Interface :=
  Reading.record fun m => Reading.sealed ["network", "model", "mac", "static_address"] m
    (Interface.mk <$> Reading.required m "network" Reading.name
      <*> Reading.defaulted m "model" "virtio" Reading.text
      <*> Reading.defaulted m "mac" none (Reading.optional macReading)
      <*> Reading.defaulted m "static_address" none (Reading.optional Reading.address))

/-- The record of an interface. -/
def dump (i : Interface) : Data :=
  .record [("network", .text i.network), ("model", .text i.model), ("mac", .text? i.mac),
    ("static_address", .text? (i.staticAddress.map (·.text)))]

end Interface

/-- A directory of the host that the guest can mount. -/
structure Share where
  hostPath : String
  mountTag : String
  /-- The program that serves the directory. -/
  binaryPath : Option String := none
  deriving Repr, DecidableEq, Inhabited

namespace Share

/-- The reading of a share. -/
def reading : Reading Share :=
  Reading.record fun m => Reading.sealed ["host_path", "mount_tag", "binary_path"] m
    (Share.mk <$> Reading.required m "host_path" Reading.name
      <*> Reading.required m "mount_tag" Reading.name
      <*> Reading.defaulted m "binary_path" none (Reading.optional Reading.text))

/-- The record of a share. -/
def dump (s : Share) : Data :=
  .record [("host_path", .text s.hostPath), ("mount_tag", .text s.mountTag),
    ("binary_path", .text? s.binaryPath)]

end Share

/-- A declared domain. -/
structure Domain where
  name : String
  identifier : Option Identifier := none
  memory : Quantity
  vcpus : Int := 2
  firmware : Firmware := .legacy
  tpm : Bool := false
  machine : String := "q35"
  disks : List Disk := []
  interfaces : List Interface := []
  shares : List Share := []
  installMedia : List String := []
  nvram : Option String := none
  /-- Whether the domain is to run; nothing leaves its power alone. -/
  active : Option Bool := none
  /-- Whether a running domain is restarted; nothing means after a change of a domain that is to
  run. -/
  restart : Option Bool := none
  deriving Repr, DecidableEq

namespace Domain

/-- The fields of a domain. -/
def fields : List String :=
  ["name", "identifier", "memory", "vcpus", "firmware", "tpm", "machine", "disks", "interfaces",
   "shares", "install_media", "nvram", "active", "restart"]

/-- The reading of a domain. -/
def reading : Reading Domain :=
  Reading.record fun m => Reading.sealed fields m
    (Domain.mk <$> Reading.required m "name" Reading.name
      <*> Reading.defaulted m "identifier" none (Reading.optional Reading.identifier)
      <*> Reading.required m "memory" Quantity.reading
      <*> Reading.defaulted m "vcpus" 2 (Reading.integerIn 1 256)
      <*> Reading.defaulted m "firmware" .legacy
        (Reading.among (Firmware.all.map fun f => (f.word, f)))
      <*> Reading.defaulted m "tpm" false Reading.bool
      <*> Reading.defaulted m "machine" "q35" Reading.text
      <*> Reading.defaulted m "disks" [] (Reading.list Disk.reading)
      <*> Reading.defaulted m "interfaces" [] (Reading.list Interface.reading)
      <*> Reading.defaulted m "shares" [] (Reading.list Share.reading)
      <*> Reading.defaulted m "install_media" [] (Reading.list Reading.text)
      <*> Reading.defaulted m "nvram" none (Reading.optional Reading.text)
      <*> Reading.defaulted m "active" none (Reading.optional Reading.bool)
      <*> Reading.defaulted m "restart" none (Reading.optional Reading.bool))

/-- A truth value or null. -/
def flag : Option Bool → Data
  | some b => .bool b
  | none => .null

/-- The record of a domain. -/
def dump (d : Domain) : Data :=
  .record [("name", .text d.name),
    ("identifier", .text? (d.identifier.map (·.text))),
    ("memory", d.memory.dump),
    ("vcpus", .int d.vcpus),
    ("firmware", .text d.firmware.word),
    ("tpm", .bool d.tpm),
    ("machine", .text d.machine),
    ("disks", .list (d.disks.map (·.dump))),
    ("interfaces", .list (d.interfaces.map (·.dump))),
    ("shares", .list (d.shares.map (·.dump))),
    ("install_media", .list (d.installMedia.map .text)),
    ("nvram", .text? d.nvram),
    ("active", flag d.active),
    ("restart", flag d.restart)]

/-- The declared identifier, or the derived one. -/
def resolvedIdentifier (d : Domain) : Identifier :=
  d.identifier.getD (.derive .domain d.name)

/-- The domain with one more interface behind the others. -/
def withInterface (d : Domain) (i : Interface) : Domain :=
  { d with interfaces := d.interfaces ++ [i] }

/-- The domain with one more share behind the others. -/
def withShare (d : Domain) (s : Share) : Domain := { d with shares := d.shares ++ [s] }

end Domain

end VirtualTopology
