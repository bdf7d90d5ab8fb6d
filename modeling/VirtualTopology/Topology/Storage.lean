import VirtualTopology.Topology.Quantity

/-!
# Declared storage

A pool lists entries for volumes. An entry asks for a volume, which it then defines under its own
name, or for its absence; a volume that is not listed is left alone.
-/

namespace VirtualTopology

/-- A declared volume. -/
structure Volume where
  name : String
  capacity : Quantity
  format : String
  deriving Repr, DecidableEq, Inhabited

namespace Volume

/-- The reading of a volume. -/
def reading : Reading Volume :=
  Reading.record fun m => Reading.sealed ["name", "capacity", "format"] m
    (Volume.mk <$> Reading.required m "name" Reading.name
      <*> Reading.required m "capacity" Quantity.reading
      <*> Reading.defaulted m "format" "qcow2" Reading.text)

/-- The record of a volume. -/
def dump (v : Volume) : Data :=
  .record [("name", .text v.name), ("capacity", v.capacity.dump), ("format", .text v.format)]

end Volume

/-- An entry in the list of volumes of a pool. -/
structure VolumeEntry where
  name : String
  present : Bool
  volume : Option Volume
  deriving Repr, DecidableEq, Inhabited

namespace VolumeEntry

/-- A present volume needs a definition, and a definition has the name of its entry. -/
def agree (e : VolumeEntry) : Checked VolumeEntry :=
  match e.volume with
  | none => if e.present then .fault (.objection (.volumeUndefined e.name)) else .valid e
  | some v =>
      if v.name = e.name then .valid e
      else .fault (.objection (.volumeMisnamed e.name v.name))

/-- The reading of an entry. -/
def reading : Reading VolumeEntry :=
  Reading.record fun m =>
    (Reading.sealed ["name", "present", "volume"] m
      (VolumeEntry.mk <$> Reading.required m "name" Reading.name
        <*> Reading.defaulted m "present" true Reading.bool
        <*> Reading.defaulted m "volume" none (Reading.optional Volume.reading))).andThen agree

/-- The record of an entry. -/
def dump (e : VolumeEntry) : Data :=
  .record [("name", .text e.name), ("present", .bool e.present),
    ("volume", (e.volume.map (·.dump)).getD .null)]

end VolumeEntry

/-- A declared storage pool. -/
structure Pool where
  name : String
  identifier : Option Identifier
  kind : String
  target : String
  volumes : List VolumeEntry
  active : Bool
  autostart : Bool
  deriving Repr, DecidableEq

namespace Pool

/-- The fields of a pool. -/
def fields : List String :=
  ["name", "identifier", "kind", "target", "volumes", "active", "autostart"]

/-- The reading of a pool. -/
def reading : Reading Pool :=
  Reading.record fun m => Reading.sealed fields m
    (Pool.mk <$> Reading.required m "name" Reading.name
      <*> Reading.defaulted m "identifier" none (Reading.optional Reading.identifier)
      <*> Reading.defaulted m "kind" "dir" Reading.text
      <*> Reading.required m "target" Reading.name
      <*> Reading.defaulted m "volumes" [] (Reading.list VolumeEntry.reading)
      <*> Reading.defaulted m "active" true Reading.bool
      <*> Reading.defaulted m "autostart" true Reading.bool)

/-- The record of a pool. -/
def dump (p : Pool) : Data :=
  .record [("name", .text p.name),
    ("identifier", .text? (p.identifier.map (·.text))),
    ("kind", .text p.kind),
    ("target", .text p.target),
    ("volumes", .list (p.volumes.map (·.dump))),
    ("active", .bool p.active),
    ("autostart", .bool p.autostart)]

/-- The declared identifier, or the derived one. -/
def resolvedIdentifier (p : Pool) : Identifier :=
  p.identifier.getD (.derive .pool p.name)

/-- The first entry with a name. -/
def entry? (p : Pool) (name : String) : Option VolumeEntry := p.volumes.find? (·.name == name)

end Pool

end VirtualTopology
