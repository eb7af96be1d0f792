/-
  PathControl/Flow/Header.lean
  ============================
  **Header fields of a packet, and the flow they name.**

  A switch reports some of the header fields of a packet. The flow of the packet
  is read off the fields that identify it; the first of them that is missing is
  the reason why there is no flow. The priority of the flow grows with the detail
  of its key: a base, one step more for IPv4, and another step for TCP and UDP.
-/
import PathControl.Flow

namespace PathControl

/-! ### Fields -/

/-- The header fields that a switch may report. -/
inductive HeaderField where
  | ethType | ethSrc | ethDst | ipv4Src | ipv4Dst | ipProto | tcpSrc | tcpDst | udpSrc | udpDst
deriving DecidableEq

def HeaderField.name : HeaderField → String
  | ethType => "eth_type"
  | ethSrc => "eth_src"
  | ethDst => "eth_dst"
  | ipv4Src => "ipv4_src"
  | ipv4Dst => "ipv4_dst"
  | ipProto => "ip_proto"
  | tcpSrc => "tcp_src"
  | tcpDst => "tcp_dst"
  | udpSrc => "udp_src"
  | udpDst => "udp_dst"

/-- The reported header fields of a packet; `none` for a field that was not reported. -/
structure Header where
  ethType : Option UInt16 := none
  ethSrc : Option MacAddress := none
  ethDst : Option MacAddress := none
  ipv4Src : Option Ipv4Address := none
  ipv4Dst : Option Ipv4Address := none
  ipProto : Option UInt8 := none
  tcpSrc : Option UInt16 := none
  tcpDst : Option UInt16 := none
  udpSrc : Option UInt16 := none
  udpDst : Option UInt16 := none
deriving DecidableEq

namespace Header

/-- The header of a frame that does not carry IPv4. -/
def ethernet (ethType : UInt16) (src dst : MacAddress) : Header :=
  { ethType := some ethType, ethSrc := some src, ethDst := some dst }

/-- The header of an IPv4 packet without ports. -/
def ipv4 (src dst : Ipv4Address) (proto : UInt8) : Header :=
  { ethType := some ethTypeIpv4, ipv4Src := some src, ipv4Dst := some dst, ipProto := some proto }

def tcp (src dst : Ipv4Address) (srcPort dstPort : UInt16) : Header :=
  { ipv4 src dst protoTcp with tcpSrc := some srcPort, tcpDst := some dstPort }

def udp (src dst : Ipv4Address) (srcPort dstPort : UInt16) : Header :=
  { ipv4 src dst protoUdp with udpSrc := some srcPort, udpDst := some dstPort }

end Header

/-! ### Priorities -/

/-- How the priority of a flow is made up. -/
structure PriorityScheme where
  /-- The priority of traffic other than IPv4. -/
  base : UInt16 := 500
  /-- What IPv4 adds, and TCP and UDP once more. -/
  step : UInt16 := 500
deriving DecidableEq

namespace PriorityScheme

/-- The base and a number of steps, at most the largest priority. -/
def after (s : PriorityScheme) (steps : Nat) : UInt16 :=
  UInt16.ofNat (min 65535 (s.base.toNat + steps * s.step.toNat))

end PriorityScheme

/-! ### The flow of a header -/

namespace Header

def require {α : Type} (name : HeaderField) : Option α → Except HeaderField α
  | some a => .ok a
  | none => .error name

/-- The ports of a protocol, zero for a protocol without ports. -/
def ports (h : Header) (proto : UInt8) : Except HeaderField (UInt16 × UInt16) :=
  if proto = protoTcp then do
    let src ← require .tcpSrc h.tcpSrc
    let dst ← require .tcpDst h.tcpDst
    return (src, dst)
  else if proto = protoUdp then do
    let src ← require .udpSrc h.udpSrc
    let dst ← require .udpDst h.udpDst
    return (src, dst)
  else return (0, 0)

/-- The steps that the priority grows by for a protocol. -/
def stepsOf (proto : UInt8) : Nat :=
  if proto = protoTcp ∨ proto = protoUdp then 2 else 1

/-- The flow that the header names, or the first identifying field that is missing. -/
def flow (h : Header) (scheme : PriorityScheme) : Except HeaderField Flow := do
  let ethType ← require .ethType h.ethType
  if ethType = ethTypeIpv4 then
    let src ← require .ipv4Src h.ipv4Src
    let dst ← require .ipv4Dst h.ipv4Dst
    let proto ← require .ipProto h.ipProto
    let (srcPort, dstPort) ← h.ports proto
    return ⟨.ipv4 src dst proto srcPort dstPort, scheme.after (stepsOf proto)⟩
  else
    let src ← require .ethSrc h.ethSrc
    let dst ← require .ethDst h.ethDst
    return ⟨.ethernet ethType src dst, scheme.after 0⟩

end Header

end PathControl
