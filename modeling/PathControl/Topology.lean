/-
  PathControl/Topology.lean
  =========================
  **The network: nodes and the links between them.**

  Nodes are numbered as they are added. A link joins two nodes, or a node with
  itself; the same two nodes may be joined more than once. Each end of a link sits
  on a port of its node, and a node gives its ports out one after another, from 1.

  Only nodes, links and the count of ports given out are kept; who has a datapath
  id, who answers to an address, who is next to whom and through which port is read
  off them. Where several answers are possible the latest addition wins, and links
  that name a node first come before links that name it second.
-/
import PathControl.Error
import Std.Data.TreeMap

namespace PathControl

/-- A cable between two nodes, with the port that each of its ends sits on. -/
structure Link where
  source : NodeId
  target : NodeId
  sourcePort : Port
  targetPort : Port
deriving DecidableEq

/-- The port on which a link leaves one of its nodes; of a link from a node to itself, the port
    of its first end. -/
def Link.portOn (l : Link) (n : NodeId) : Port :=
  if l.source = n then l.sourcePort else l.targetPort

/-- The nodes in order, the links latest first, and how many ports each node has given out. -/
structure Topology where
  nodes : Array Node := #[]
  links : List Link := []
  portsGiven : Std.TreeMap NodeId Nat := ∅
  endsExist : ∀ l ∈ links, l.source < nodes.size ∧ l.target < nodes.size := by simp

namespace Topology

def empty : Topology := {}

/-! ### Building -/

/-- Add a node, which gets the next number. -/
def addNode (t : Topology) (node : Node) : Topology where
  nodes := t.nodes.push node
  links := t.links
  portsGiven := t.portsGiven
  endsExist l hl := by
    have ends := t.endsExist l hl
    simp only [Array.size_push]
    exact ⟨Nat.lt_succ_of_lt ends.1, Nat.lt_succ_of_lt ends.2⟩

def addHost (t : Topology) (name : String) (ip : Option Ipv4Address) (mac : MacAddress) :
    Topology :=
  t.addNode (.host ⟨name, ip, mac⟩)

/-- Add a switch. It takes its datapath id from any switch that had it before. -/
def addSwitch (t : Topology) (name : String) (dpid : Dpid) : Topology :=
  t.addNode (.switch ⟨name, dpid⟩)

/-- The port that a node gives out next. -/
def nextPort (t : Topology) (n : NodeId) : Port := t.portsGiven.getD n 0 + 1

/-- Give out the next port of a node. A number without a node gives out ports, too. -/
def givePort (t : Topology) (n : NodeId) : Topology :=
  { t with portsGiven := t.portsGiven.insert n (t.nextPort n) }

def contains (t : Topology) (n : NodeId) : Bool := n < t.nodes.size

/-- Join `a` and `b`. Both ends get their ports first, that of `a` before that of `b`; there is
    no link if one of the nodes does not exist. -/
def addLink (t : Topology) (a b : NodeId) : Topology :=
  let ready := (t.givePort a).givePort b
  if h : a < ready.nodes.size ∧ b < ready.nodes.size then
    { ready with
      links := ⟨a, b, t.nextPort a, (t.givePort a).nextPort b⟩ :: ready.links
      endsExist := by
        intro l hl
        rcases List.mem_cons.1 hl with rfl | hl
        · exact h
        · exact ready.endsExist l hl }
  else ready

/-- Join pairs of nodes in order, up to and including the first pair that cannot be joined. The
    second part says whether all pairs were joined. -/
def addLinks (t : Topology) : List (NodeId × NodeId) → Topology × Bool
  | [] => (t, true)
  | (a, b) :: rest =>
    if t.contains a && t.contains b then (t.addLink a b).addLinks rest
    else (t.addLink a b, false)

/-! ### Nodes -/

def size (t : Topology) : Nat := t.nodes.size

/-- The numbers of all nodes, in order. -/
def nodeIds (t : Topology) : List NodeId := List.range t.size

def switch? (t : Topology) (n : NodeId) : Option Switch := t.nodes[n]?.bind Node.switch?

def host? (t : Topology) (n : NodeId) : Option Host := t.nodes[n]?.bind Node.host?

def isSwitch (t : Topology) (n : NodeId) : Bool := (t.switch? n).isSome

def isHost (t : Topology) (n : NodeId) : Bool := (t.host? n).isSome

def switches (t : Topology) : List NodeId := t.nodeIds.filter t.isSwitch

def hosts (t : Topology) : List NodeId := t.nodeIds.filter t.isHost

/-- The name of a node, a question mark for a number without a node. -/
def name (t : Topology) (n : NodeId) : String := (t.nodes[n]?.map Node.name).getD "?"

/-- The last of the first `count` nodes that satisfies `p`. -/
def lastNode (t : Topology) (p : Node → Bool) : Nat → Option NodeId
  | 0 => none
  | n + 1 => if t.nodes[n]?.any p then some n else t.lastNode p n

/-- The switch that has a datapath id: the latest one that was added with it. -/
def switchWith? (t : Topology) (dpid : Dpid) : Option NodeId :=
  t.lastNode (fun node => node.switch?.any (·.dpid == dpid)) t.size

def switchWith (t : Topology) (dpid : Dpid) : Except Error NodeId :=
  match t.switchWith? dpid with
  | some n => .ok n
  | none => .error (.unknownSwitch dpid)

/-- The datapath id of a switch, unless a later switch took it. -/
def dpid? (t : Topology) (n : NodeId) : Option Dpid :=
  match t.switch? n with
  | some s => if t.switchWith? s.dpid = some n then some s.dpid else none
  | none => none

def dpidOf (t : Topology) (n : NodeId) : Except Error Dpid :=
  match t.dpid? n with
  | some d => .ok d
  | none => .error (.unknownNode n)

/-- The switches that rules can be sent to, with their datapath ids. -/
def reachable (t : Topology) : List (NodeId × Dpid) :=
  t.switches.filterMap fun n => (t.dpid? n).map fun d => (n, d)

/-- The host that answers to an address: the latest one that was added with it. -/
def hostWith? (t : Topology) (address : HostAddress) : Option NodeId :=
  t.lastNode (fun node => node.addresses.contains address) t.size

def hostWith (t : Topology) (address : HostAddress) : Except Error NodeId :=
  match t.hostWith? address with
  | some n => .ok n
  | none => .error (.unresolvedAddress address)

/-! ### Links -/

/-- The nodes at the other ends of the links of a node. A node that is joined more than once
    stands there as often. -/
def neighbors (t : Topology) (n : NodeId) : List NodeId :=
  (t.links.filter (·.source == n)).map Link.target ++
    (t.links.filter fun l => l.target == n && l.source != n).map Link.source

/-- The link that leads from `a` to `b`, in whichever order it names them. -/
def link? (t : Topology) (a b : NodeId) : Option Link :=
  (t.links.find? fun l => l.source == a && l.target == b).or
    (t.links.find? fun l => l.source == b && l.target == a)

/-- Whether some link joins two nodes. -/
def linked (t : Topology) (a b : NodeId) : Bool := (t.link? a b).isSome

/-- The port of `a` that leads to `b`. -/
def portTowards? (t : Topology) (a b : NodeId) : Option Port :=
  (t.link? a b).map (·.portOn a)

/-- The node that the host of an address is joined to. -/
def attachment (t : Topology) (address : HostAddress) : Except Error NodeId := do
  let host ← t.hostWith address
  match (t.neighbors host).head? with
  | some n => return n
  | none => throw (.unresolvedAddress address)

/-- The order of pairs of a node and a port: the node first, then the port. -/
def attachmentOrder (a b : NodeId × Port) : Bool :=
  a.1 < b.1 || (a.1 == b.1 && a.2 ≤ b.2)

/-- The hosts next to a node with the ports that lead to them, in order; a host that is joined
    more than once stands there as often. -/
def attachedHosts (t : Topology) (n : NodeId) : List (NodeId × Port) :=
  let hosts := (t.neighbors n).filter t.isHost
  (hosts.filterMap fun h => (t.portTowards? n h).map fun p => (h, p)).mergeSort attachmentOrder

/-! ### Paths -/

/-- Whether a link joins each node of a list to the next one. -/
def isPath (t : Topology) : List NodeId → Bool
  | a :: b :: rest => t.linked a b && t.isPath (b :: rest)
  | _ => true

def pathText (t : Topology) (path : List NodeId) : String :=
  "[" ++ ", ".intercalate (path.map t.name) ++ "]"

end Topology

end PathControl
