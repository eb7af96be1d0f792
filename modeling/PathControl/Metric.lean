/-
  PathControl/Metric.lean
  =======================
  **What a controller routes on.**

  A metric turns the state of the network at one moment into the weight of every
  node, and says what one hop costs. Only switches have weights of their own; hosts
  cost nothing.

  The energy metric counts a switch as violating if its margin is negative. A margin
  that cannot be computed counts as zero, with a notice.
-/
import PathControl.Calculator
import PathControl.Energy
import PathControl.Notice
import PathControl.Weight.Counts
import PathControl.Weight.CpuUsage
import PathControl.Weight.FlexWeight

namespace PathControl

/-- The state of the network at one moment. -/
structure Snapshot where
  topology : Topology
  telemetry : Telemetry
  energy : EnergyTracker
  forecast : Forecast
  now : Time

def Snapshot.margin (s : Snapshot) (n : NodeId) : Except Error Float :=
  s.energy.margin s.topology n s.telemetry s.forecast s.now

/-- The weight of nodes and of one hop. -/
structure Metric (W : Type) where
  hop : W
  nodeWeight : Snapshot → NodeId → W
  /-- What weighing a node has to tell. -/
  notices : Snapshot → NodeId → List Notice := fun _ _ => []

namespace Metric

variable {W : Type} [Weight W]

def calculator (m : Metric W) (s : Snapshot) : Calculator W :=
  .ofWeights (s.topology.nodeIds.map (m.nodeWeight s)).toArray m.hop

def allNotices (m : Metric W) (s : Snapshot) : List Notice :=
  s.topology.nodeIds.flatMap (m.notices s)

/-! ### The metrics -/

/-- The number of links. -/
def hops : Metric HopCount where
  hop := ⟨1⟩
  nodeWeight _ _ := Weight.initial

/-- The CPU utilization of the switches, summed. -/
def cpu : Metric CpuUsage where
  hop := Weight.initial
  nodeWeight s n :=
    if s.topology.isSwitch n then .ofFloat (s.telemetry.cpuOf n) else Weight.initial

/-- The forwarding load of the switches, summed. -/
def bandwidth : Metric Bandwidth where
  hop := Weight.initial
  nodeWeight s n :=
    if s.topology.isSwitch n then ⟨s.telemetry.loadOf n⟩ else Weight.initial

/-- The margin of a switch, zero if it is unknown. -/
def marginOrZero (s : Snapshot) (n : NodeId) : Float :=
  match s.margin n with
  | .ok margin => margin
  | .error _ => 0.0

/-- Violating switches, then links, then utilization. -/
def flex : Metric FlexWeight where
  hop := .ofUsage 0.0 0 1
  nodeWeight s n :=
    if s.topology.isSwitch n then .ofNode (s.telemetry.cpuOf n) (marginOrZero s n < 0.0)
    else Weight.initial
  notices s n :=
    match s.topology.isSwitch n, s.margin n with
    | true, .error e => [.marginUnknown e]
    | _, _ => []

end Metric

end PathControl
