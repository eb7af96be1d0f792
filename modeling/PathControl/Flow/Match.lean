/-
  PathControl/Flow/Match.lean
  ===========================
  **What the rule of a flow matches on.**

  A rule names its priority and the header fields that identify its flow, as
  `field=value` pairs with commas between them. `Flow.matchFields` is the list of
  these pairs, `Flow.matchText` its text, and `Header.ofMatch` the header made of
  just the fields that a match names.
-/
import PathControl.Flow.Header

namespace PathControl

/-- One pair of a match. -/
inductive MatchField where
  | priority (value : UInt16)
  | ethDst (value : MacAddress)
  | ethSrc (value : MacAddress)
  | ethType (value : UInt16)
  | ipProto (value : UInt8)
  | ipSrc (value : Ipv4Address)
  | ipDst (value : Ipv4Address)
  | tcpSrc (value : UInt16)
  | tcpDst (value : UInt16)
  | udpSrc (value : UInt16)
  | udpDst (value : UInt16)
deriving DecidableEq

namespace MatchField

def name : MatchField → String
  | priority _ => "prio"
  | ethDst _ => "eth_dst"
  | ethSrc _ => "eth_src"
  | ethType _ => "eth_type"
  | ipProto _ => "ip_proto"
  | ipSrc _ => "ip_src"
  | ipDst _ => "ip_dst"
  | tcpSrc _ => "tcp_src"
  | tcpDst _ => "tcp_dst"
  | udpSrc _ => "udp_src"
  | udpDst _ => "udp_dst"

/-- The value after the equals sign: Ethernet types in hexadecimal, other numbers in decimal. -/
def valueText : MatchField → String
  | ethType t => "0x" ++ hexadecimal t.toNat
  | ethDst a | ethSrc a => a.text
  | ipSrc a | ipDst a => a.text
  | ipProto p => decimal p.toNat
  | priority n | tcpSrc n | tcpDst n | udpSrc n | udpDst n => decimal n.toNat

def text (m : MatchField) : String := m.name ++ "=" ++ m.valueText

/-- Enter the field into a header; a priority is no header field. -/
def enter (h : Header) : MatchField → Header
  | priority _ => h
  | ethDst a => { h with ethDst := some a }
  | ethSrc a => { h with ethSrc := some a }
  | ethType t => { h with ethType := some t }
  | ipProto p => { h with ipProto := some p }
  | ipSrc a => { h with ipv4Src := some a }
  | ipDst a => { h with ipv4Dst := some a }
  | tcpSrc n => { h with tcpSrc := some n }
  | tcpDst n => { h with tcpDst := some n }
  | udpSrc n => { h with udpSrc := some n }
  | udpDst n => { h with udpDst := some n }

end MatchField

/-- The header made of just the fields that a match names. -/
def Header.ofMatch (fields : List MatchField) : Header := fields.foldl MatchField.enter {}

/-- The port fields of a protocol. -/
def FlowKey.portFields (proto : UInt8) (src dst : UInt16) : List MatchField :=
  if proto = protoTcp then [.tcpSrc src, .tcpDst dst]
  else if proto = protoUdp then [.udpSrc src, .udpDst dst]
  else []

/-- The header fields that identify the key, in the order in which rules name them. -/
def FlowKey.matchFields : FlowKey → List MatchField
  | .ethernet t s d => [.ethDst d, .ethSrc s, .ethType t]
  | .ipv4 s d p sp dp =>
    [.ethType ethTypeIpv4, .ipProto p, .ipSrc s, .ipDst d] ++ portFields p sp dp

/-- The pairs of the rules of a flow: the priority, then the identifying fields. -/
def Flow.matchFields (f : Flow) : List MatchField := .priority f.priority :: f.key.matchFields

def Flow.matchText (f : Flow) : String := ",".intercalate (f.matchFields.map MatchField.text)

end PathControl
