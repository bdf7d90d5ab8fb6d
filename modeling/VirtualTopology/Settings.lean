import VirtualTopology.Text.Capital
import VirtualTopology.Topology.Domain

/-!
# Settings

Settings say how a host is reached, how a pass is run, what the profiles of guests are, and what is
logged. Every value has a default, and keys that are not known are ignored.
-/

namespace VirtualTopology

/-- How a host is reached. -/
structure ConnectionSettings where
  uri : String := "qemu:///system"
  /-- The number of seconds to wait for a connection. -/
  timeout : Int := 30
  /-- Whether the connection can only read; every pass is then a dry run. -/
  readonly : Bool := false
  deriving Repr, DecidableEq

namespace ConnectionSettings

/-- The reading of connection settings. -/
def reading : Reading ConnectionSettings :=
  Reading.record fun m =>
    ConnectionSettings.mk
      <$> Reading.defaulted m "uri" "qemu:///system" Reading.text
      <*> Reading.defaulted m "timeout" 30 (Reading.integerIn 1 300)
      <*> Reading.defaulted m "readonly" false Reading.bool

/-- The record of connection settings. -/
def dump (s : ConnectionSettings) : Data :=
  .record [("uri", .text s.uri), ("timeout", .int s.timeout), ("readonly", .bool s.readonly)]

end ConnectionSettings

/-- How a pass is run. -/
structure PassSettings where
  /-- How many resources may be worked on at once. -/
  maxWorkers : Int := 4
  /-- Whether changes are reported and not made. -/
  dryRun : Bool := false
  /-- The number of seconds that a domain has to shut down before it is turned off. -/
  shutdownTimeout : Binary64 := .ofInt 60
  deriving Repr, DecidableEq

namespace PassSettings

/-- The reading of pass settings. -/
def reading : Reading PassSettings :=
  Reading.record fun m =>
    PassSettings.mk
      <$> Reading.defaulted m "max_workers" 4 (Reading.integerIn 1 32)
      <*> Reading.defaulted m "dry_run" false Reading.bool
      <*> Reading.defaulted m "shutdown_timeout" (.ofInt 60)
        (Reading.numberIn (.ofInt 0) (.ofInt 3600))

/-- The record of pass settings. -/
def dump (s : PassSettings) : Data :=
  .record [("max_workers", .int s.maxWorkers), ("dry_run", .bool s.dryRun),
    ("shutdown_timeout", .float s.shutdownTimeout)]

end PassSettings

/-- A profile: what tells one sort of guest from another. -/
structure Profile where
  memory : Quantity
  /-- The install medium, a file in the directory of install media unless its path is absolute. -/
  installMedia : Option String := none
  deriving Repr, DecidableEq

namespace Profile

/-- The reading of a profile. -/
def reading : Reading Profile :=
  Reading.record fun m =>
    Profile.mk
      <$> Reading.required m "memory" Quantity.reading
      <*> Reading.defaulted m "install_media" none (Reading.optional Reading.text)

/-- The record of a profile. -/
def dump (p : Profile) : Data :=
  .record [("memory", p.memory.dump), ("install_media", .text? p.installMedia)]

/-- The profiles of settings that define none. -/
def standard : List (String × Profile) :=
  [("server", { memory := ⟨4, .GiB⟩, installMedia := some "windows-server-2022.iso" }),
   ("client", { memory := ⟨2, .GiB⟩, installMedia := some "windows-11.iso" })]

end Profile

/-- What all guests that are expanded from profiles have in common. -/
structure GuestSettings where
  /-- The network of the first interface. -/
  labNetwork : String := "lab-net"
  /-- The network of an interface that faces the internet. -/
  secondaryNetwork : String := "default"
  /-- The pool of the first disk. -/
  pool : String := "homelab"
  /-- The directory of install media. -/
  isoDirectory : String := "/var/lib/libvirt/iso"
  /-- A medium that every guest gets behind its install medium. -/
  driverMedia : Option String := none
  /-- The directory of variable stores. -/
  nvramDirectory : String := "/var/lib/libvirt/qemu/nvram"
  /-- The program that serves shared directories. -/
  shareServer : Option String := none
  nicModel : String := "e1000e"
  diskBus : String := "sata"
  vcpus : Int := 2
  shares : List Share := []
  profiles : List (String × Profile) := Profile.standard
  deriving Repr, DecidableEq

namespace GuestSettings

/-- The reading of guest settings. -/
def reading : Reading GuestSettings :=
  Reading.record fun m =>
    GuestSettings.mk
      <$> Reading.defaulted m "lab_network" "lab-net" Reading.text
      <*> Reading.defaulted m "secondary_network" "default" Reading.text
      <*> Reading.defaulted m "pool" "homelab" Reading.text
      <*> Reading.defaulted m "iso_dir" "/var/lib/libvirt/iso" Reading.text
      <*> Reading.defaulted m "driver_media" none (Reading.optional Reading.text)
      <*> Reading.defaulted m "nvram_dir" "/var/lib/libvirt/qemu/nvram" Reading.text
      <*> Reading.defaulted m "virtiofsd_path" none (Reading.optional Reading.text)
      <*> Reading.defaulted m "nic_model" "e1000e" Reading.text
      <*> Reading.defaulted m "disk_bus" "sata" Reading.text
      <*> Reading.defaulted m "vcpus" 2 (Reading.integerIn 1 256)
      <*> Reading.defaulted m "shares" [] (Reading.list Share.reading)
      <*> Reading.defaulted m "profiles" Profile.standard (Reading.mapping Profile.reading)

/-- The record of guest settings. -/
def dump (s : GuestSettings) : Data :=
  .record [("lab_network", .text s.labNetwork),
    ("secondary_network", .text s.secondaryNetwork),
    ("pool", .text s.pool),
    ("iso_dir", .text s.isoDirectory),
    ("driver_media", .text? s.driverMedia),
    ("nvram_dir", .text s.nvramDirectory),
    ("virtiofsd_path", .text? s.shareServer),
    ("nic_model", .text s.nicModel),
    ("disk_bus", .text s.diskBus),
    ("vcpus", .int s.vcpus),
    ("shares", .list (s.shares.map (·.dump))),
    ("profiles", .record (s.profiles.map fun p => (p.1, p.2.dump)))]

end GuestSettings

/-- What is logged, and where. -/
structure LogSettings where
  level : String := "INFO"
  file : Option String := none
  /-- When a new log file is started. -/
  rotation : String := "10 MB"
  /-- How long old log files are kept. -/
  retention : String := "30 days"
  deriving Repr, DecidableEq

namespace LogSettings

/-- The reading of a log level: one of the known names, kept in capitals. -/
def levelReading : Reading String := fun d =>
  (Reading.text d).andThen fun s =>
    let s := Text.upper s
    if logLevels.contains s then .valid s else .fault (.objection .logLevel)

/-- The reading of log settings. -/
def reading : Reading LogSettings :=
  Reading.record fun m =>
    LogSettings.mk
      <$> Reading.defaulted m "level" "INFO" levelReading
      <*> Reading.defaulted m "file" none (Reading.optional Reading.text)
      <*> Reading.defaulted m "rotation" "10 MB" Reading.text
      <*> Reading.defaulted m "retention" "30 days" Reading.text

/-- The record of log settings. -/
def dump (s : LogSettings) : Data :=
  .record [("level", .text s.level), ("file", .text? s.file), ("rotation", .text s.rotation),
    ("retention", .text s.retention)]

end LogSettings

/-- All settings. -/
structure Settings where
  connection : ConnectionSettings := {}
  pass : PassSettings := {}
  guests : GuestSettings := {}
  log : LogSettings := {}
  deriving Repr, DecidableEq

namespace Settings

/-- The reading of settings. -/
def reading : Reading Settings :=
  Reading.record fun m =>
    Settings.mk
      <$> Reading.defaulted m "libvirt" {} ConnectionSettings.reading
      <*> Reading.defaulted m "reconcile" {} PassSettings.reading
      <*> Reading.defaulted m "generator" {} GuestSettings.reading
      <*> Reading.defaulted m "logging" {} LogSettings.reading

/-- The record of settings. -/
def dump (s : Settings) : Data :=
  .record [("libvirt", s.connection.dump), ("reconcile", s.pass.dump),
    ("generator", s.guests.dump), ("logging", s.log.dump)]

end Settings

end VirtualTopology
