import VirtualTopology.Document.Printer
import VirtualTopology.HardwareAddress
import VirtualTopology.Topology.Domain
import VirtualTopology.Topology.Network
import VirtualTopology.Topology.Storage

/-!
# The documents of declared resources

Each declared resource has one document, and the same declaration always has the same one: what a
declaration leaves open (identifiers, hardware addresses, names of disk devices) is derived from
names and places.

The devices of disks are named like this: the bus gives the first two letters (`devicePrefix`), and
the disks with the same letters are counted `a`, `b`, … `z`, `aa`, … in document order
(`deviceSuffix`).

A document states sizes in small units, so a size may have too many digits there although it was read;
then the document has no text (`Volume.written`, `Domain.written`).
-/

namespace VirtualTopology

open Element

/-! ### Networks -/

/-- The document of a network. -/
def Network.document (n : Network) : Element :=
  branch "network" <|
    [leaf "name" n.name, leaf "uuid" n.resolvedIdentifier.text] ++
    (match n.forward with
     | .isolated => []
     | mode => [empty "forward" [("mode", mode.word)]]) ++
    [empty "bridge" [("name", n.bridge)],
     branch "ip"
       (match n.dhcp with
        | none => []
        | some r =>
            [branch "dhcp" [empty "range" [("start", r.start.text), ("end", r.finish.text)]]])
       [("address", n.gateway.text), ("netmask", n.netmask.text)]]

/-- The text of the document of a network. -/
def Network.written (n : Network) : Except Unwritable String := n.document.render

/-! ### Storage -/

/-- The document of a pool, without its volumes. -/
def Pool.document (p : Pool) : Element :=
  branch "pool"
    [leaf "name" p.name, leaf "uuid" p.resolvedIdentifier.text,
     branch "target" [leaf "path" p.target]]
    [("type", p.kind)]

/-- The text of the document of a pool. -/
def Pool.written (p : Pool) : Except Unwritable String := p.document.render

/-- The document of a volume; its capacity is in bytes. -/
def Volume.document (v : Volume) : Element :=
  branch "volume"
    [leaf "name" v.name,
     leaf "capacity" (toString v.capacity.toBytes) [("unit", "bytes")],
     branch "target" [empty "format" [("type", v.format)]]]

/-- The text of the document of a volume. -/
def Volume.written (v : Volume) : Except Unwritable String :=
  if Text.isWritable v.capacity.toBytes then v.document.render else .error .number

/-! ### Names of disk devices -/

/-- The letters for a number in bijective base 26: `a` is 0, `z` is 25, `aa` is 26. -/
def deviceSuffix (n : Nat) : List Char :=
  let letter := Char.ofNat (97 + n % 26)
  if n < 26 then [letter] else deviceSuffix (n / 26 - 1) ++ [letter]
termination_by n

/-- The first two letters of a device on a bus. -/
def devicePrefix (bus : String) : String :=
  if bus = "virtio" then "vd" else if bus = "ide" then "hd" else "sd"

/-- The names of the devices on several buses, in order. `before` holds the letters of the devices
that are named already. -/
def deviceNamesFrom (before : List String) : List String → List String
  | [] => []
  | bus :: buses =>
      let letters := devicePrefix bus
      (letters ++ String.ofList (deviceSuffix (before.count letters))) ::
        deviceNamesFrom (before ++ [letters]) buses

/-- The names of the devices on several buses, in order. -/
def deviceNames (buses : List String) : List String := deviceNamesFrom [] buses

/-! ### Domains -/

namespace Domain

/-- The bus of install media. -/
def mediaBus : String := "sata"

/-- The buses of all drives: the disks, then the install media. -/
def buses (d : Domain) : List String :=
  d.disks.map (·.bus) ++ d.installMedia.map fun _ => mediaBus

/-- The element of a disk under a device name. -/
def diskElement (disk : Disk) (device : String) : Element :=
  branch "disk"
    [empty "driver" [("name", "qemu"), ("type", disk.format)],
     empty "source" [("pool", disk.pool), ("volume", disk.volume)],
     empty "target" [("dev", device), ("bus", disk.bus)]]
    [("type", "volume"), ("device", "disk")]

/-- The element of an install medium under a device name. -/
def mediumElement (medium : String) (device : String) : Element :=
  branch "disk"
    [empty "driver" [("name", "qemu"), ("type", "raw")],
     empty "source" [("file", medium)],
     empty "target" [("dev", device), ("bus", mediaBus)],
     empty "readonly"]
    [("type", "file"), ("device", "cdrom")]

/-- The elements of all drives. -/
def driveElements (d : Domain) : List Element :=
  List.zipWith (fun element device => element device)
    (d.disks.map diskElement ++ d.installMedia.map mediumElement) (deviceNames d.buses)

/-- The hardware address of an interface: the declared one, or the one derived from the identifier
of the domain and the place of the interface. -/
def hardwareAddress (d : Domain) (place : Nat) (i : Interface) : String :=
  match i.mac with
  | some mac => if mac.isEmpty then HardwareAddress.derive d.resolvedIdentifier.text place else mac
  | none => HardwareAddress.derive d.resolvedIdentifier.text place

/-- The element of the interface at a place. -/
def interfaceElement (d : Domain) (place : Nat) (i : Interface) : Element :=
  branch "interface"
    [empty "mac" [("address", d.hardwareAddress place i)],
     empty "source" [("network", i.network)],
     empty "model" [("type", i.model)]]
    [("type", "network")]

/-- A text that is there and not empty. -/
def given (s : Option String) : Option String := s.filter (!·.isEmpty)

/-- The element of a share. -/
def shareElement (s : Share) : Element :=
  branch "filesystem"
    ([empty "driver" [("type", "virtiofs")]] ++
     (given s.binaryPath).toList.map (fun path => empty "binary" [("path", path)]) ++
     [empty "source" [("dir", s.hostPath)],
      empty "target" [("dir", s.mountTag)]])
    [("type", "mount"), ("accessmode", "passthrough")]

/-- The elements of all devices. -/
def deviceElements (d : Domain) : List Element :=
  d.driveElements ++
  d.interfaces.mapIdx d.interfaceElement ++
  d.shares.map shareElement ++
  (if d.tpm then
    [branch "tpm" [empty "backend" [("type", "emulator"), ("version", "2.0")]]
      [("model", "tpm-tis")]]
   else []) ++
  [empty "input" [("type", "tablet"), ("bus", "usb")],
   empty "graphics" [("type", "spice"), ("autoport", "yes")],
   branch "video" [empty "model" [("type", "qxl")]],
   empty "memballoon" [("model", "virtio")]]

/-- How the guest is started: the machine, the firmware, and the drives in the order in which they
are tried; an empty disk falls through to the install media. -/
def startElement (d : Domain) : Element :=
  branch "os"
    ([leaf "type" "hvm" [("arch", "x86_64"), ("machine", d.machine)]] ++
     (match d.firmware with
      | .legacy => []
      | .uefi =>
          [branch "firmware"
            [empty "feature" [("enabled", "yes"), ("name", "secure-boot")],
             empty "feature" [("enabled", "yes"), ("name", "enrolled-keys")]]]) ++
     (given d.nvram).toList.map (leaf "nvram") ++
     [empty "boot" [("dev", "hd")]] ++
     (if d.installMedia.isEmpty then [] else [empty "boot" [("dev", "cdrom")]]))
    (match d.firmware with
     | .legacy => []
     | .uefi => [("firmware", "efi")])

/-- The features of the machine; checking signatures needs system management mode. -/
def featureElement (d : Domain) : Element :=
  branch "features"
    ([empty "acpi", empty "apic"] ++
     (match d.firmware with
      | .legacy => []
      | .uefi => [empty "smm" [("state", "on")]]))

/-- The clock, the same for every domain. -/
def clockElement : Element :=
  branch "clock"
    [empty "timer" [("name", "rtc"), ("tickpolicy", "catchup")],
     empty "timer" [("name", "pit"), ("tickpolicy", "delay")],
     empty "timer" [("name", "hpet"), ("present", "no")]]
    [("offset", "utc")]

/-- Memory that can be shared with the programs that serve directories. -/
def sharedMemory : Element :=
  branch "memoryBacking"
    [empty "source" [("type", "memfd")], empty "access" [("mode", "shared")]]

/-- The document of a domain; its memory is in KiB. -/
def document (d : Domain) : Element :=
  branch "domain"
    ([leaf "name" d.name, leaf "uuid" d.resolvedIdentifier.text,
      leaf "memory" (toString d.memory.toKiB) [("unit", "KiB")],
      leaf "vcpu" (toString d.vcpus)] ++
     (if d.shares.isEmpty then [] else [sharedMemory]) ++
     [d.startElement, d.featureElement, empty "cpu" [("mode", "host-model")], clockElement,
      branch "devices" d.deviceElements])
    [("type", "kvm")]

/-- The text of the document of a domain. -/
def written (d : Domain) : Except Unwritable String :=
  if Text.isWritable d.memory.toKiB then d.document.render else .error .number

end Domain

end VirtualTopology
