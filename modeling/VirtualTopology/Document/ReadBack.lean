import VirtualTopology.Document.Reader
import VirtualTopology.Text.Letter
import VirtualTopology.Topology.Quantity

/-!
# Reading stored documents back

What a pass needs to know about documents that a host stores: the interfaces of a domain, the
networks and pools that it refers to, and the capacity and format of a volume.
-/

namespace VirtualTopology

/-- What a stored domain says about one interface. -/
structure InterfaceEntry where
  network : Option String
  model : Option String
  mac : Option String
  deriving Repr, DecidableEq

namespace Element

/-- An attribute that is there and not empty. -/
def given? (e : Element) (name : String) : Option String :=
  (e.attribute? name).filter (!·.isEmpty)

/-- The network of the source of an interface: the one it names, or else its bridge. -/
def sourceNetwork? (source : Element) : Option String :=
  (source.given? "network").orElse fun _ => source.attribute? "bridge"

/-- What an interface element says. -/
def interfaceEntry (e : Element) : InterfaceEntry where
  network := (e.first? "source").bind sourceNetwork?
  model := (e.first? "model").bind (·.attribute? "type")
  mac := ((e.first? "mac").bind (·.given? "address")).map Text.lower

/-- The interfaces of a domain, in order. -/
def interfaceEntries (domain : Element) : List InterfaceEntry :=
  (domain.descend ["devices", "interface"]).map interfaceEntry

/-- The networks that a domain refers to. -/
def networkReferences (domain : Element) : List String :=
  (domain.descend ["devices", "interface", "source"]).filterMap (·.given? "network")

/-- The pools that a domain refers to. -/
def poolReferences (domain : Element) : List String :=
  (domain.descend ["devices", "disk", "source"]).filterMap (·.given? "pool")

/-- The capacity of a volume in bytes, if it is stated as a number of known units and not
negative. -/
def volumeCapacity? (volume : Element) : Option Nat := do
  let capacity ← volume.first? "capacity"
  let unit ← SizeUnit.ofWord? ((capacity.attribute? "unit").getD "bytes")
  match Text.integer? capacity.lead with
  | .ok (.ofNat count) => some (Quantity.toBytes ⟨count, unit⟩)
  | _ => none

/-- The format of a volume, if it is stated. -/
def volumeFormat? (volume : Element) : Option String :=
  (volume.descend ["target", "format"]).head?.bind (·.attribute? "type")

/-- The name that a document gives to its resource. -/
def resourceName? (e : Element) : Option String := (e.first? "name").map (·.lead)

end Element

end VirtualTopology
