/-
  PathControl/Rule.lean
  =====================
  **Instructions for switches.**

  A path becomes one rule at each of its nodes but the last: send the flow out of the
  port towards the next node. The rules are installed from the end of the path
  backwards, so that no packet meets a switch without its rule. Rules of nodes that a
  flow has left are deleted, except at the last of them, where the rule ends by
  itself. A switch that connects gets a rule for packets without a rule, and a route
  to each of its hosts.

  Each instruction is one command of the switch console. A rule of a flow ends when it
  has been idle for the idle timeout. Rules of flows report their end (flag 1) and reset
  their counters (flag 4) when they are entered.
-/
import PathControl.Flow.Match
import PathControl.Notice
import PathControl.Topology

namespace PathControl

inductive Instruction where
  /-- Send the flow out of a port. -/
  | install (dpid : Dpid) (flow : Flow) (port : Port)
  /-- Forget the rule of the flow. -/
  | delete (dpid : Dpid) (flow : Flow)
  /-- Report packets without a rule. -/
  | tableMiss (dpid : Dpid)
  /-- Report them without their contents. -/
  | missConfig (dpid : Dpid)
  /-- Send what is for a host out of a port. -/
  | hostRoute (dpid : Dpid) (ip : Ipv4Address) (port : Port)
deriving DecidableEq

def Instruction.dpid : Instruction → Dpid
  | install d _ _ | delete d _ | tableMiss d | missConfig d | hostRoute d _ _ => d

namespace Topology

/-- The rule that sends a flow from one node to the next. -/
def hopRule (t : Topology) (flow : Flow) (hop : NodeId × NodeId) : Except Error Instruction :=
  match t.portTowards? hop.1 hop.2 with
  | none => .error (.invariantViolation (.notAdjacent (t.name hop.1) (t.name hop.2)))
  | some port => do return .install (← t.dpidOf hop.1) flow port

/-- The rules of a flow along a path, the last hop first. -/
def installRules (t : Topology) (path : List NodeId) (flow : Flow) :
    Except Error (List Instruction) :=
  (path.zip path.tail).reverse.mapM (t.hopRule flow)

/-- Forget the rules of a flow at all nodes of a list but the last. -/
def deleteRules (t : Topology) (nodes : List NodeId) (flow : Flow) :
    Except Error (List Instruction) :=
  nodes.dropLast.mapM fun n => do return .delete (← t.dpidOf n) flow

/-- What a switch is told when it connects. -/
def handshake (t : Topology) (switch : NodeId) : Except Error (List Instruction) := do
  let dpid ← t.dpidOf switch
  let routes := (t.attachedHosts switch).filterMap fun (host, port) =>
    ((t.host? host).bind Host.ip).map fun ip => .hostRoute dpid ip port
  return .tableMiss dpid :: .missConfig dpid :: routes

end Topology

/-! ### Commands -/

/-- The flag of rules that report their end. -/
def reportRemoval : UInt16 := 1

/-- The flag of rules that start counting afresh. -/
def resetCounters : UInt16 := 4

/-- The idle timeout of rules where none is set, in seconds. -/
def defaultIdleTimeout : UInt16 := 60

def flagsText (flags : UInt16) : String := s!"flags=0x{hexadecimalPadded 4 flags.toNat}"

namespace Instruction

/-- The command that carries out an instruction. -/
def command (idleTimeout : UInt16) : Instruction → String
  | install _ flow port =>
    s!"flow-mod cmd=add,table=0,idle={decimal idleTimeout.toNat}," ++
      s!"{flagsText (reportRemoval ||| resetCounters)},{flow.matchText} " ++
      s!"apply:output={decimal port}"
  | delete _ flow =>
    s!"flow-mod cmd=del,table=0,{flagsText reportRemoval},{flow.matchText}"
  | tableMiss _ => "flow-mod cmd=add,table=0,prio=0 apply:output=ctrl:0"
  | missConfig _ => "set-config miss=0"
  | hostRoute _ ip port =>
    s!"flow-mod cmd=add,table=0,{flagsText resetCounters} eth_type=0x800,ip_dst={ip} " ++
      s!"apply:output={decimal port}"

def notice (idleTimeout : UInt16) (i : Instruction) : Notice :=
  .commandSent i.dpid (i.command idleTimeout)

end Instruction

end PathControl
