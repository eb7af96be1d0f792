/-
  PathControl/Error.lean
  ======================
  **What can go wrong, and how it is worded.**

  Every failure is a cause with the data that explains it. `Error.message` is the
  one place that words them. The causes of an unreadable document have no message
  of their own.
-/
import PathControl.Flow.Header
import PathControl.Topology.Node

namespace PathControl

/-- A rule or a table entry that does not fit the network. -/
inductive Defect where
  /-- Consecutive nodes of a path without a link between them. -/
  | notAdjacent (source target : String)
  /-- A path runs through a node that does not list the flow. -/
  | notIndexed (flow : Flow) (node : NodeId)
  /-- A node without flows is listed. -/
  | emptySet (node : NodeId)
  /-- A node lists a flow that does not run through it. -/
  | notTraversing (flow : Flow) (node : NodeId)
  | emptyPath
deriving DecidableEq

def Defect.text : Defect → String
  | notAdjacent a b => s!"{a} is not adjacent to {b}"
  | notIndexed f n => s!"{f} traverses {nodeText n} but is not indexed there"
  | emptySet n => s!"empty flow set at {nodeText n}"
  | notTraversing f n => s!"{f} is indexed at {nodeText n} but does not traverse it"
  | emptyPath => "empty path"

/-- A setting that no controller can run with. -/
inductive BadSetting where
  | intervalZero
  | idleTimeoutZero
  | priorityRange
deriving DecidableEq

def BadSetting.text : BadSetting → String
  | intervalZero => "intervals must be positive"
  | idleTimeoutZero => "idle timeout must be positive"
  | priorityRange => "flow priorities exceed 65535"

/-- A document that cannot be used. -/
inductive Unreadable where
  | file
  | json
  | toml
deriving DecidableEq

inductive Error where
  | noPath (source target : NodeId)
  | noSample (dpid : Dpid)
  | missingField (field : HeaderField)
  | invariantViolation (defect : Defect)
  /-- The sum of two weights is out of range. -/
  | weightOverflow
  /-- There is no such node, or it is not of the kind asked for. -/
  | unknownNode (node : NodeId)
  | unknownSwitch (dpid : Dpid)
  /-- No host has the address, or its host has no link. -/
  | unresolvedAddress (address : HostAddress)
  | missingForecast (device : String) (bucket : Nat)
  | badSetting (cause : BadSetting)
  | unreadable (cause : Unreadable)
deriving DecidableEq

def Error.message : Error → String
  | noPath s t => s!"No path found from {nodeText s} to {nodeText t}"
  | noSample d => s!"Switch 0x{hexadecimal d.toNat} has no energy sample"
  | missingField f => s!"Malformed flow key: missing field {f.name}"
  | invariantViolation d => s!"Flow table invariant violated: {d.text}"
  | weightOverflow => "Weight overflow while combining path weights"
  | unknownNode n => s!"Unknown node {nodeText n}"
  | unknownSwitch d => s!"Unknown switch with datapath id 0x{hexadecimal d.toNat}"
  | unresolvedAddress a => s!"Address {a} is not attached to the topology"
  | missingForecast d b => s!"No forecast for device {d} at bucket {decimal b}"
  | badSetting c => s!"Configuration error: {c.text}"
  | unreadable .file => "IO Error"
  | unreadable .json => "JSON Error"
  | unreadable .toml => "TOML Error"

instance : ToString Error := ⟨Error.message⟩

end PathControl
