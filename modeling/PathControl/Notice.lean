/-
  PathControl/Notice.lean
  =======================
  **What is worth telling an operator.**

  The parts of the library that decide something say so in notices, in the order of
  the decisions. A notice has a level and one line of text. A rebalance pass counts
  what it does, and its report is kept after the pass.
-/
import PathControl.Error
import PathControl.Event

namespace PathControl

/-! ### The report of a pass -/

/-- The counts of a rebalance pass. -/
structure RebalanceReport where
  /-- Switches that carry flows and violate their budgets. -/
  violating : Nat := 0
  /-- Visits to a flow on a violating switch. -/
  examined : Nat := 0
  /-- Visits that moved the flow. -/
  rerouted : Nat := 0
  /-- Visits that found the installed segment to be the best. -/
  unchanged : Nat := 0
  /-- Visits to a flow that no longer runs through the switch. -/
  skipped : Nat := 0
  /-- Visits that found no replacement. -/
  failed : Nat := 0
deriving DecidableEq

namespace RebalanceReport

/-- The counts as a line of text. -/
def text (r : RebalanceReport) : String :=
  s!"{decimal r.violating} violating switches, {decimal r.examined} flows: " ++
    s!"{decimal r.rerouted} rerouted, {decimal r.unchanged} unchanged, " ++
    s!"{decimal r.skipped} skipped, {decimal r.failed} failed"

end RebalanceReport

/-! ### Notices -/

/-- How much a notice matters. -/
inductive NoticeLevel where
  | error | warn | info | debug | trace
deriving DecidableEq

def NoticeLevel.name : NoticeLevel → String
  | error => "ERROR"
  | warn => "WARN"
  | info => "INFO"
  | debug => "DEBUG"
  | trace => "TRACE"

inductive Notice where
  /-- The margin of a switch is unknown and counts as zero. -/
  | marginUnknown (cause : Error)
  /-- A poll passed over a switch that has not connected. -/
  | sampleSkipped (switch : String)
  /-- A forecast ends before the day does. -/
  | forecastIncomplete (device : String) (buckets total : Nat)
  | commandSent (dpid : Dpid) (command : String)
  /-- A switch that carries flows violates its budget. -/
  | violation (switch : String) (flows : Nat)
  | rerouteFailed (flow : Flow) (switch : String) (cause : Error)
  | rerouted (flow : Flow) (old new : String)
  | switchConnected (switch : String)
  /-- A flow gets its first path. -/
  | flowInstalled (flow : Flow) (path : String)
  /-- A packet came up at a switch that its flow does not run through. -/
  | offPath (switch : String) (path : String) (flow : Flow)
  | flowExpired (flow : Flow)
  /-- The removal of a rule says nothing about its flow. -/
  | removalIgnored (dpid : Dpid) (reason : RemovalReason)
  /-- A rule that a flow left behind has ended. -/
  | staleRuleExpired (dpid : Dpid) (flow : Flow)
  /-- A pass found violating switches. -/
  | passFinished (report : RebalanceReport)
  /-- A pass found none. -/
  | passIdle

namespace Notice

/-- How much the notice matters. A margin without a sample is a fault of the controller, other
    unknown margins are gaps in what it was given. -/
def level : Notice → NoticeLevel
  | marginUnknown (.noSample _) => .error
  | marginUnknown _ | forecastIncomplete .. | rerouteFailed .. | offPath .. => .warn
  | rerouted .. | switchConnected _ | flowInstalled .. | passFinished _ => .info
  | commandSent .. | violation .. | flowExpired _ | passIdle => .debug
  | sampleSkipped _ | removalIgnored .. | staleRuleExpired .. => .trace

def text : Notice → String
  | marginUnknown e => s!"{e}; assuming a margin of 0"
  | sampleSkipped s => s!"Skip energy sample of unregistered switch {s}"
  | forecastIncomplete d n total =>
    s!"Forecast for {d} only covers {decimal n} of {decimal total} buckets"
  | commandSent d c => s!"[{decimal d.toNat}]: {c}"
  | violation s n => s!"{s} violates its budget, carrying {decimal n} flows"
  | rerouteFailed f s e => s!"Cannot reroute {f} around {s}: {e}"
  | rerouted f old new => s!"Reroute {f}: {old} -> {new}"
  | switchConnected s => s!"Switch {s} connected"
  | flowInstalled f p => s!"New flow {f}: {p}"
  | offPath s p f => s!"{s} is not on the path {p} of {f}"
  | flowExpired f => s!"Flow {f} expired"
  | removalIgnored d r => s!"[{decimal d.toNat}]: ignore flow removal ({r.text})"
  | staleRuleExpired d f => s!"[{decimal d.toNat}]: stale rule of {f} expired"
  | passFinished r => s!"Rebalance: {r.text}"
  | passIdle => "Rebalance: no violating switch carries flows"

end Notice

end PathControl
