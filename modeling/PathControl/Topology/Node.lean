/-
  PathControl/Topology/Node.lean
  ==============================
  **Hosts and switches.**

  A node of the network is a host, which only sends and receives, or a switch,
  which forwards and is known to the controller by its datapath id. Nodes are
  numbered in the order in which they are added.
-/
import PathControl.Address

namespace PathControl

/-- The number of a node: how many nodes were added before it. -/
abbrev NodeId := Nat

/-- The datapath id of a switch. -/
abbrev Dpid := UInt64

/-- The number of a port of a node; the first port is 1. -/
abbrev Port := Nat

/-- A host that sends and receives. -/
structure Host where
  name : String
  /-- The IPv4 address, for a host that speaks IP. -/
  ip : Option Ipv4Address
  mac : MacAddress
deriving DecidableEq

/-- A switch. Its name is also the device that forecasts are made for. -/
structure Switch where
  name : String
  dpid : Dpid
deriving DecidableEq

inductive Node where
  | host (data : Host)
  | switch (data : Switch)
deriving DecidableEq

namespace Node

def name : Node → String
  | host h => h.name
  | switch s => s.name

def host? : Node → Option Host
  | host h => some h
  | switch _ => none

def switch? : Node → Option Switch
  | host _ => none
  | switch s => some s

/-- The addresses by which a node is found; a switch has none. -/
def addresses : Node → List HostAddress
  | host h => (h.ip.map HostAddress.ip).toList ++ [.mac h.mac]
  | switch _ => []

end Node

/-- How error messages write a node. -/
def nodeText (n : NodeId) : String := s!"NodeIndex({decimal n})"

end PathControl
