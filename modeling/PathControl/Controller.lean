/-
  PathControl/Controller.lean
  ===========================
  **Reacting to events.**

  A controller knows the network, what its switches report, and where every flow runs.
  When a switch meets a packet without a rule, the controller finds a path for the
  flow, sends the rules, and says where the packet goes. When the rule of a flow ends
  on its path, the flow is forgotten. Polls and rebalance passes come back at fixed
  intervals.

  Every handler gives the controller after the event, the result, and the notices. A
  handler that refuses an event leaves the controller as it was.
-/
import PathControl.Event
import PathControl.Metric
import PathControl.Rebalance
import PathControl.Settings

namespace PathControl

/-! ### State -/

/-- Everything that a controller knows. -/
structure Controller (W : Type) where
  metric : Metric W
  settings : Settings
  topology : Topology
  telemetry : Telemetry
  forecast : Forecast
  energy : EnergyTracker
  table : FlowTable
  /-- All instructions, in the order in which they were sent. -/
  sent : Array Instruction
  /-- The report of the latest rebalance pass. -/
  lastReport : Option RebalanceReport

/-- Where a switch sends a packet that it asked about. -/
structure PacketOut where
  dpid : Dpid
  inPort : UInt32
  outPort : Port
deriving DecidableEq

/-- The controller after an event, with the result and what there is to tell. -/
structure Reaction (W α : Type) where
  controller : Controller W
  result : Except Error α
  notices : List Notice := []

namespace Controller

variable {W : Type} [Weight W]

/-- A controller without flows, if it can run with the settings. -/
def start? (metric : Metric W) (settings : Settings) (topology : Topology)
    (telemetry : Telemetry) (forecast : Forecast) : Except Error (Controller W) := do
  settings.check
  return {
    metric, settings, topology, telemetry, forecast
    energy := .empty settings.pollStrategy
    table := .empty
    sent := #[]
    lastReport := none }

def snapshot (k : Controller W) (now : Time) : Snapshot where
  topology := k.topology
  telemetry := k.telemetry
  energy := k.energy
  forecast := k.forecast
  now := now

def calculator (k : Controller W) (now : Time) : Calculator W :=
  k.metric.calculator (k.snapshot now)

def send (k : Controller W) (rules : List Instruction) : Controller W :=
  { k with sent := k.sent ++ rules }

def sendNotices (k : Controller W) (rules : List Instruction) : List Notice :=
  rules.map (·.notice k.settings.idleTimeout)

/-! ### Switches -/

/-- The switch with a datapath id, and what it is told when it connects. -/
def greeting (k : Controller W) (dpid : Dpid) : Except Error (NodeId × List Instruction) := do
  let n ← k.topology.switchWith dpid
  return (n, ← k.topology.handshake n)

/-- A switch has connected: tell it its first rules, and take its first sample. -/
def switchConnected (k : Controller W) (dpid : Dpid) (now : Time) : Reaction W Unit :=
  match k.greeting dpid with
  | .error e => { controller := k, result := .error e }
  | .ok (n, rules) =>
    { controller :=
        { k.send rules with
          energy := k.energy.register dpid (k.telemetry.powerOf n) now }
      result := .ok ()
      notices := k.sendNotices rules ++ [.switchConnected (k.topology.name n)] }

/-! ### Flows -/

/-- The flow that a header names, by the priorities of the settings. -/
def flowOf (k : Controller W) (header : Header) : Except Error Flow :=
  (header.flow k.settings.priorities).mapError .missingField

/-- The switches of a new path for a flow, and the rules along them. -/
def route (k : Controller W) (flow : Flow) (now : Time) :
    Except Error (List NodeId × List Instruction) := do
  let full ←
    k.topology.shortestPathBetween (k.calculator now) flow.key.source flow.key.destination
  match full.head?, full.getLast? with
  | some source, some target =>
    let path := full.filter k.topology.isSwitch
    if path.isEmpty then throw (.noPath source target)
    return (path, ← k.topology.installRules path flow)
  | _, _ => throw (.invariantViolation .emptyPath)

/-- The port on which a switch of a path sends the packets of a flow on: towards the next switch,
    or from the last switch towards the host of the destination. -/
def nextHop? (k : Controller W) (switch : NodeId) (path : List NodeId) (flow : Flow) :
    Option Port := do
  let i ← path.idxOf? switch
  let next ← path[i + 1]?.or (k.topology.hostWith? flow.key.destination)
  k.topology.portTowards? switch next

/-- Answer a switch about a packet of a flow with a path. -/
def answer (k : Controller W) (dpid : Dpid) (switch : NodeId) (flow : Flow) (inPort : UInt32)
    (path : List NodeId) : Reaction W (Option PacketOut) :=
  match k.nextHop? switch path flow with
  | some outPort => { controller := k, result := .ok (some { dpid, inPort, outPort }) }
  | none =>
    { controller := k
      result := .ok none
      notices := [.offPath (k.topology.name switch) (k.topology.pathText path) flow] }

/-- Find a path for a new flow, send its rules, and enter it; then answer. -/
def installFlow (k : Controller W) (dpid : Dpid) (switch : NodeId) (flow : Flow)
    (inPort : UInt32) (now : Time) : Reaction W (Option PacketOut) :=
  let weighing := k.metric.allNotices (k.snapshot now)
  match k.route flow now with
  | .error e =>
    -- addresses are looked up when the weights are known
    { controller := k, result := .error e, notices := weighing }
  | .ok (path, rules) =>
    let installed := { k.send rules with table := k.table.install flow path }
    let reply := installed.answer dpid switch flow inPort path
    { reply with
      notices := weighing ++ k.sendNotices rules ++
        .flowInstalled flow (k.topology.pathText path) :: reply.notices }

def reported (k : Controller W) (dpid : Dpid) (header : Header) :
    Except Error (NodeId × Flow) := do
  let switch ← k.topology.switchWith dpid
  return (switch, ← k.flowOf header)

/-- A switch has met a packet without a rule. -/
def packetIn (k : Controller W) (dpid : Dpid) (header : Header) (inPort : UInt32) (now : Time) :
    Reaction W (Option PacketOut) :=
  match k.reported dpid header with
  | .error e => { controller := k, result := .error e }
  | .ok (switch, flow) =>
    match k.table.path? flow with
    | some path => k.answer dpid switch flow inPort path
    | none => k.installFlow dpid switch flow inPort now

/-- The rule of a flow has idled out: the flow has ended if the switch is on its path. The result
    says whether it has. -/
def flowIdle (k : Controller W) (dpid : Dpid) (header : Header) : Reaction W Bool :=
  match k.reported dpid header with
  | .error e => { controller := k, result := .error e }
  | .ok (switch, flow) =>
    match k.table.path? flow with
    | none => { controller := k, result := .ok false }
    | some path =>
      if switch ∈ path then
        { controller := { k with table := k.table.evict flow }
          result := .ok true
          notices := [.flowExpired flow] }
      else
        { controller := k, result := .ok false, notices := [.staleRuleExpired dpid flow] }

/-- A switch has removed the rule of a flow. Only an idle rule says that the flow has ended. -/
def flowRemoved (k : Controller W) (dpid : Dpid) (header : Header) (reason : RemovalReason) :
    Reaction W Bool :=
  if reason = .idleTimeout then k.flowIdle dpid header
  else { controller := k, result := .ok false, notices := [.removalIgnored dpid reason] }

/-! ### Periodic work -/

def pollEnergy (k : Controller W) (now : Time) : Controller W :=
  { k with energy := k.energy.refreshAll k.topology k.telemetry now }

def pollNotices (k : Controller W) : List Notice :=
  (k.energy.unregistered k.topology).map fun n => .sampleSkipped (k.topology.name n)

/-- Move flows around violating switches, by the weights of the moment. -/
def moveFlows (k : Controller W) (now : Time) : Controller W × RebalanceReport × List Notice :=
  let pass := PathControl.rebalance k.topology (k.calculator now) k.settings.idleTimeout k.table
  ({ k.send pass.sent with table := pass.table }, pass.report,
    k.metric.allNotices (k.snapshot now) ++ pass.notices)

def reportNotice (report : RebalanceReport) : Notice :=
  if 0 < report.violating then .passFinished report else .passIdle

/-- A rebalance pass. With per-flow readings the switches are polled before it, so that the pass
    looks at the time between the last two polls; otherwise after it, so that the pass looks at
    the time since the last poll. -/
def rebalance (k : Controller W) (now : Time) : Reaction W RebalanceReport :=
  match k.energy.strategy with
  | .perFlowRead =>
    let (moved, report, notices) := (k.pollEnergy now).moveFlows now
    { controller := { moved with lastReport := some report }
      result := .ok report
      notices := k.pollNotices ++ notices ++ [reportNotice report] }
  | .forecastNormalized =>
    let (moved, report, notices) := k.moveFlows now
    { controller := { moved.pollEnergy now with lastReport := some report }
      result := .ok report
      notices := notices ++ k.pollNotices ++ [reportNotice report] }

/-! ### Events -/

inductive Outcome where
  | done (packet : Option PacketOut)
  | rejected (cause : Error)
  /-- The next occurrence of the event lies beyond what the clock can show. -/
  | clockOverflow

/-- The controller and its queue after an event. -/
structure Handled (W : Type) where
  controller : Controller W
  queue : EventQueue
  outcome : Outcome
  notices : List Notice

/-- The outcome of an event that comes only once. -/
def Handled.ofReaction {α : Type} (queue : EventQueue) (packet : α → Option PacketOut)
    (r : Reaction W α) : Handled W where
  controller := r.controller
  queue := queue
  outcome := match r.result with
    | .ok a => .done (packet a)
    | .error e => .rejected e
  notices := r.notices

/-- The outcome of an event that comes again after an interval. -/
def Handled.again (k : Controller W) (queue : EventQueue) (interval : Time) (event : Event)
    (notices : List Notice) : Handled W :=
  match queue.schedule interval event with
  | some queue => { controller := k, queue, outcome := .done none, notices }
  | none => { controller := k, queue, outcome := .clockOverflow, notices }

/-- Handle an event at a time. Periodic events put in their next occurrence. -/
def handle (k : Controller W) (event : Event) (now : Time) (queue : EventQueue) : Handled W :=
  match event with
  | .switchConnected dpid => .ofReaction queue (fun _ => none) (k.switchConnected dpid now)
  | .packetIn dpid header inPort => .ofReaction queue id (k.packetIn dpid header inPort now)
  | .flowRemoved dpid header reason =>
    .ofReaction queue (fun _ => none) (k.flowRemoved dpid header reason)
  | .pollEnergy =>
    .again (k.pollEnergy now) queue k.settings.pollTime .pollEnergy k.pollNotices
  | .rebalance =>
    let r := k.rebalance now
    .again r.controller queue k.settings.rebalanceTime .rebalance r.notices

/-- Put in the first poll and the first rebalance pass. The second part is `false` if one of them
    lies beyond what the clock can show; what was put in before it stays. -/
def schedulePeriodic (k : Controller W) (queue : EventQueue) : EventQueue × Bool :=
  queue.scheduleAll
    [(k.settings.pollTime, .pollEnergy), (k.settings.rebalanceTime, .rebalance)]

end Controller

end PathControl
