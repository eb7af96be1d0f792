/-
  PathControl/Telemetry.lean
  ==========================
  **The latest readings that switches report.**

  Utilization and load are current values, the power drawn is a running total. A node
  that never reported a value counts as zero.
-/
import PathControl.Topology.Node
import Std.Data.TreeMap

namespace PathControl

/-- The latest reading of each kind by node. -/
structure Telemetry where
  cpu : Std.TreeMap NodeId Float := ∅
  load : Std.TreeMap NodeId UInt64 := ∅
  power : Std.TreeMap NodeId Float := ∅

namespace Telemetry

def empty : Telemetry := {}

/-- The CPU utilization, 1 when fully used. -/
def cpuOf (t : Telemetry) (n : NodeId) : Float := t.cpu.getD n 0.0

/-- The forwarding load in bits per second. -/
def loadOf (t : Telemetry) (n : NodeId) : UInt64 := t.load.getD n 0

/-- The power drawn since the start. -/
def powerOf (t : Telemetry) (n : NodeId) : Float := t.power.getD n 0.0

def setCpu (t : Telemetry) (n : NodeId) (x : Float) : Telemetry :=
  { t with cpu := t.cpu.insert n x }

def setLoad (t : Telemetry) (n : NodeId) (x : UInt64) : Telemetry :=
  { t with load := t.load.insert n x }

/-- Report the total power drawn. -/
def setPower (t : Telemetry) (n : NodeId) (x : Float) : Telemetry :=
  { t with power := t.power.insert n x }

/-- Report that more power was drawn. -/
def addPower (t : Telemetry) (n : NodeId) (x : Float) : Telemetry :=
  t.setPower n (t.powerOf n + x)

end Telemetry

end PathControl
