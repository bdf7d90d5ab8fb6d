import VirtualTopology.Data.Checked

/-!
# Declared networks

A network has a bridge device, an address of the host on it (the gateway), a netmask, and possibly a
range of addresses that it hands out. `Network.reading` admits a netmask only if it stands for a
prefix length, so that `Network.subnet` is always the subnet of the mask that is declared.
-/

namespace VirtualTopology

/-- How traffic leaves a network. -/
inductive ForwardMode where
  | nat
  | route
  | isolated
  deriving Repr, DecidableEq, Inhabited

namespace ForwardMode

/-- All modes. -/
def all : List ForwardMode := [nat, route, isolated]

/-- The word for a mode. -/
def word : ForwardMode → String
  | nat => "nat"
  | route => "route"
  | isolated => "isolated"

end ForwardMode

/-- The addresses that a network hands out, both ends included. -/
structure DhcpRange where
  start : Address
  finish : Address
  deriving Repr, DecidableEq

namespace DhcpRange

/-- Whether an address is handed out. -/
def contains (r : DhcpRange) (a : Address) : Bool := decide (r.start ≤ a) && decide (a ≤ r.finish)

/-- The reading of a range. -/
def reading : Reading DhcpRange :=
  Reading.record fun m => Reading.sealed ["start", "end"] m
    (DhcpRange.mk <$> Reading.required m "start" Reading.address
      <*> Reading.required m "end" Reading.address)

/-- The record of a range. -/
def dump (r : DhcpRange) : Data :=
  .record [("start", .text r.start.text), ("end", .text r.finish.text)]

end DhcpRange

/-- A declared network. -/
structure Network where
  name : String
  identifier : Option Identifier
  forward : ForwardMode
  bridge : String
  gateway : Address
  netmask : Address
  dhcp : Option DhcpRange
  active : Bool
  autostart : Bool
  deriving Repr, DecidableEq

namespace Network

/-- The netmask of a network that declares none. -/
def defaultNetmask : Address := .ofQuads 255 255 255 0

/-- The reading of a netmask: an address that stands for a prefix length. -/
def netmaskReading : Reading Address := fun d =>
  (Reading.address d).andThen fun m =>
    if m.prefixLength?.isSome then .valid m else .fault (.objection (.netmask m))

/-- The fields of a network. -/
def fields : List String :=
  ["name", "identifier", "forward", "bridge", "gateway", "netmask", "dhcp", "active", "autostart"]

/-- The reading of a network. -/
def reading : Reading Network :=
  Reading.record fun m => Reading.sealed fields m
    (Network.mk <$> Reading.required m "name" Reading.name
      <*> Reading.defaulted m "identifier" none (Reading.optional Reading.identifier)
      <*> Reading.defaulted m "forward" .nat
        (Reading.among (ForwardMode.all.map fun f => (f.word, f)))
      <*> Reading.required m "bridge" Reading.name
      <*> Reading.required m "gateway" Reading.address
      <*> Reading.defaulted m "netmask" defaultNetmask netmaskReading
      <*> Reading.defaulted m "dhcp" none (Reading.optional DhcpRange.reading)
      <*> Reading.defaulted m "active" true Reading.bool
      <*> Reading.defaulted m "autostart" true Reading.bool)

/-- The record of a network. -/
def dump (n : Network) : Data :=
  .record [("name", .text n.name),
    ("identifier", .text? (n.identifier.map (·.text))),
    ("forward", .text n.forward.word),
    ("bridge", .text n.bridge),
    ("gateway", .text n.gateway.text),
    ("netmask", .text n.netmask.text),
    ("dhcp", (n.dhcp.map (·.dump)).getD .null),
    ("active", .bool n.active),
    ("autostart", .bool n.autostart)]

/-- The subnet of a network: what shares the gateway's prefix under the netmask. -/
def subnet (n : Network) : Subnet :=
  .around n.gateway (n.netmask.prefixLength?.getD 32)

/-- The declared identifier, or the derived one. -/
def resolvedIdentifier (n : Network) : Identifier :=
  n.identifier.getD (.derive .network n.name)

end Network

end VirtualTopology
