/-
  PathControl/Flow.lean
  =====================
  **Flows and their order.**

  A flow is a key, which says whose traffic it is, and the priority of the rules
  installed for it. Frames other than IPv4 are told apart by their hardware
  addresses, IPv4 packets by their addresses, protocol and ports.

  Flows are ordered field by field: every Ethernet key before every IPv4 key, then
  the fields of the key from the left, then the priority. The order decides which
  flow of a switch is looked at first.
-/
import PathControl.Address

namespace PathControl

/-! ### Numbers of the protocols -/

def ethTypeIpv4 : UInt16 := 0x0800

def protoTcp : UInt8 := 6

def protoUdp : UInt8 := 17

/-! ### Keys -/

/-- The fields that identify a flow. The ports of a protocol without ports are zero. -/
inductive FlowKey where
  | ethernet (ethType : UInt16) (src dst : MacAddress)
  | ipv4 (src dst : Ipv4Address) (proto : UInt8) (srcPort dstPort : UInt16)
deriving DecidableEq

namespace FlowKey

/-- Ethernet keys first, then field by field from the left. -/
instance : Ord FlowKey where
  compare
    | ethernet t s d, ethernet t' s' d' =>
      (compare t t').then <| (compare s s').then <| compare d d'
    | ethernet .., ipv4 .. => .lt
    | ipv4 .., ethernet .. => .gt
    | ipv4 s d p sp dp, ipv4 s' d' p' sp' dp' =>
      (compare s s').then <| (compare d d').then <| (compare p p').then <|
        (compare sp sp').then <| compare dp dp'

def isIpv4 : FlowKey → Bool
  | ethernet .. => false
  | ipv4 .. => true

/-- The address of the host that sends the traffic. -/
def source : FlowKey → HostAddress
  | ethernet _ s _ => .mac s
  | ipv4 s _ _ _ _ => .ip s

/-- The address of the host that the traffic is sent to. -/
def destination : FlowKey → HostAddress
  | ethernet _ _ d => .mac d
  | ipv4 _ d _ _ _ => .ip d

/-- Sender, arrow and receiver, with the Ethernet type or the protocol in brackets. -/
def text : FlowKey → String
  | ethernet t s d => s!"{s} -> {d} (eth_type=0x{hexadecimalPadded 4 t.toNat})"
  | ipv4 s d p sp dp =>
    s!"{s}:{decimal sp.toNat} -> {d}:{decimal dp.toNat} (proto={decimal p.toNat})"

end FlowKey

/-! ### Flows -/

/-- A key with the priority of the rules for it. -/
structure Flow where
  key : FlowKey
  priority : UInt16
deriving DecidableEq

namespace Flow

/-- The key decides first, the priority second. -/
instance : Ord Flow where
  compare f g := (compare f.key g.key).then (compare f.priority g.priority)

/-- The text of the key; the priority is not shown. -/
def text (f : Flow) : String := f.key.text

instance : ToString Flow := ⟨text⟩

end Flow

end PathControl
