/-
  PathControl/Simulation.lean
  ===========================
  **A controller on a simulated ring.**

  Every switch connects at the start. Flows begin at random times between random hosts
  and end after a random lifetime. The clock goes on in steps of the poll interval:
  what is due is given to the controller, and then every switch draws power for one
  step. A switch draws more the more flows it carries, and a hot switch draws more
  than its budget allows.

  What is drawn at random is settled before the first step, and a simulation runs on
  whatever is drawn. It is refused if the network does not fit: if a switch has lost its
  datapath id, or a flow does not join two hosts with addresses.
-/
import PathControl.Controller.Run
import PathControl.Simulation.Ring

namespace PathControl

/-! ### What a simulation starts from -/

/-- The parameters of a simulation. -/
structure SimulationPlan where
  topology : Topology
  settings : Settings
  forecast : Forecast
  flows : Nat
  hot : Nat
  duration : UInt64

/-- The forecast of a simulation without forecast files: an estimate of 60 and a headroom of 40 for
    every switch in every bucket. -/
def evenForecast (t : Topology) : Forecast :=
  t.switches.foldl (fun f n => f.insertConstant (t.name n) 60.0 40.0) .empty

/-- What is drawn for a flow: the hosts that it joins, when it begins and how long it lives, in
    seconds. -/
structure FlowDraw where
  ends : List NodeId
  start : UInt64
  lifetime : UInt64

/-- What is drawn for a simulation: the hot switches and the flows. -/
structure SimulationDraws where
  hot : List NodeId
  flows : List FlowDraw

namespace SimulationPlan

variable {G : Type} [RandomSource G]

/-- The draws of a flow. It begins after the first second and within the duration, and lives for
    one to ten minutes. -/
def drawFlow (p : SimulationPlan) : StateM G FlowDraw := do
  let ends ← RandomSource.sample 2 p.topology.hosts
  let start ← RandomSource.number 1 (max p.duration 2)
  let lifetime ← RandomSource.number 60 600
  return { ends, start, lifetime }

/-- All draws of a simulation, in their order. None depends on whether those before it can be used:
    a plan that is refused ends the program, so what would be drawn after that makes no
    difference. -/
def draw (p : SimulationPlan) : StateM G SimulationDraws := do
  let hot ← RandomSource.sample p.hot p.topology.switches
  let flows ← (List.range p.flows).mapM fun _ => p.drawFlow
  return { hot, flows }

end SimulationPlan

/-! ### Events from outside -/

/-- Every switch connects at the start. -/
def Topology.connections (t : Topology) : Except SimulationError (List (Time × Event)) :=
  t.switches.mapM fun n => do
    let dpid ← SimulationError.switchUnnamed.ifNone (t.dpid? n)
    return (.zero, .switchConnected dpid)

def flowPort (i : Nat) : UInt16 := UInt16.ofNat (10000 + i)

/-- The events of a flow between two hosts: its first packet reaches the switch of the sender, and
    some time after its last packet the rule there has been idle for the idle timeout. -/
def flowEvents (t : Topology) (idleTimeout : UInt16) (f : FlowDraw) (i : Nat) :
    Except SimulationError (List (Time × Event)) :=
  match f.ends with
  | [source, target] =>
    match (t.host? source).bind Host.ip, (t.host? target).bind Host.ip with
    | some sourceIp, some targetIp => do
      let ingress ← SimulationError.hostUnlinked.ifNone (t.neighbors source).head?
      let dpid ← SimulationError.hostUnattached.ifNone (t.dpid? ingress)
      let inPort ← SimulationError.linkMissing.ifNone (t.portTowards? ingress source)
      let header := Header.tcp sourceIp targetIp (flowPort i) 80
      let last := f.start + f.lifetime + idleTimeout.toUInt64
      return [
        (.ofSeconds f.start, .packetIn dpid header (UInt32.ofNat inPort)),
        (.ofSeconds last, .flowRemoved dpid header .idleTimeout)]
    | _, _ => .error .hostUnaddressed
  | _ => .error .hostsMissing

def EventQueue.pushAll (q : EventQueue) (events : List (Time × Event)) : EventQueue :=
  events.foldl (fun q (t, e) => q.push t e) q

/-! ### The state of a simulation -/

structure SimulationCounts where
  packetOuts : Nat := 0
  rejected : Nat := 0
  passes : Nat := 0
  rerouted : Nat := 0

namespace SimulationCounts

def add (c : SimulationCounts) (d : Controller.Delivery) : SimulationCounts :=
  let c := match d.outcome with
    | .done (some _) => { c with packetOuts := c.packetOuts + 1 }
    | .rejected _ => { c with rejected := c.rejected + 1 }
    | _ => c
  if d.event = .rebalance then
    { c with
      passes := c.passes + 1
      rerouted := c.rerouted + (d.report.map RebalanceReport.rerouted).getD 0 }
  else c

end SimulationCounts

structure Simulation (W : Type) where
  controller : Controller W
  queue : EventQueue
  hot : List NodeId
  counts : SimulationCounts := {}

namespace Simulation

variable {W : Type} [Weight W]

/-! ### Power -/

/-- What a switch draws in a second without flows. -/
def baseDraw : Float := 0.03

/-- What each carried flow adds. -/
def flowDraw : Float := 0.01

/-- What a hot switch draws on top. -/
def hotDraw : Float := 0.5

/-- How often a node stands on the paths of a table. -/
def carriedBy (table : FlowTable) (n : NodeId) : Nat :=
  (table.toList.flatMap fun (_, path) => path).count n

/-- What a switch reports after a number of seconds. -/
def report (carried : Nat) (hot : Bool) (seconds : Float) (n : NodeId) (t : Telemetry) :
    Telemetry :=
  let flows := (UInt64.ofNat carried).toFloat
  let draw := baseDraw + flowDraw * flows
  let draw := if hot then draw + hotDraw else draw
  let usage := 0.05 + 0.05 * flows
  let cpu := if usage < 0.95 then usage else 0.95
  ((t.addPower n (draw * seconds)).setCpu n cpu).setLoad n (UInt64.ofNat (carried * 1000000))

/-- Let every switch report after one step. -/
def reportAll (s : Simulation W) (step : Time) : Simulation W :=
  let k := s.controller
  let seconds := step.wholeSeconds.toFloat
  let telemetry := k.topology.switches.foldl
    (fun t n => report (carriedBy k.table n) (s.hot.contains n) seconds n t) k.telemetry
  { s with controller := { k with telemetry } }

/-! ### Time -/

/-- Deliver what is due at `now`; `none` if the clock overflows. -/
def deliver (s : Simulation W) (now : Time) : Option (Simulation W) :=
  let r := s.controller.runUntil s.queue now
  if r.overflowed then none
  else some {
    controller := r.controller
    queue := r.queue
    hot := s.hot
    counts := r.deliveries.reverse.foldl .add s.counts }

/-- Go on from `now` to the end in steps; `none` if the clock overflows. -/
def advance (s : Simulation W) (step now finish : Time) : Option (Simulation W) :=
  if now < finish then
    match now.add? step with
    | none => none
    | some later =>
      let next := Time.earlier later finish
      match s.deliver next with
      | none => none
      | some s =>
        if _forward : now.nanos < next.nanos ∧ next.nanos ≤ finish.nanos then
          (s.reportAll step).advance step next finish
        else some s
  else some s
termination_by finish.nanos - now.nanos
decreasing_by
  change finish.nanos - next.nanos < finish.nanos - now.nanos
  omega

/-! ### A whole simulation -/

/-- A simulation before its first step, or why it is refused. -/
def start? (metric : Metric W) (p : SimulationPlan) (d : SimulationDraws) :
    Except SimulationError (Simulation W) := do
  let controller ← (Controller.start? metric p.settings p.topology .empty p.forecast).mapError
    .badController
  let connections ← p.topology.connections
  let queue := (controller.schedulePeriodic (EventQueue.empty.pushAll connections)).1
  let flows ← d.flows.zipIdx.mapM fun (f, i) =>
    flowEvents p.topology p.settings.idleTimeout f i
  return { controller, queue := queue.pushAll flows.flatten, hot := d.hot }

/-- Run a simulation to its end; the inner `none` says that the clock overflowed. -/
def run (metric : Metric W) (p : SimulationPlan) (d : SimulationDraws) :
    Except SimulationError (Option (Simulation W)) := do
  let s ← start? metric p d
  return s.advance p.settings.pollTime .zero (.ofSeconds p.duration)

/-! ### The result -/

def summary (s : Simulation W) : List String :=
  let k := s.controller
  let flows := k.table.toList.map fun (flow, path) => s!"  {flow}: {k.topology.pathText path}"
  let hot := s.hot.map fun n =>
    s!"hot switch {k.topology.name n} carries {decimal (k.table.flowsThrough n).length} flows"
  ["packet-outs:       " ++ decimal s.counts.packetOuts,
    "rejected events:   " ++ decimal s.counts.rejected,
    "rules sent:        " ++ decimal k.sent.size,
    "rebalance passes:  " ++ decimal s.counts.passes,
    "flows rerouted:    " ++ decimal s.counts.rerouted,
    "active flows:      " ++ decimal k.table.size] ++ flows ++ hot

end Simulation

end PathControl
