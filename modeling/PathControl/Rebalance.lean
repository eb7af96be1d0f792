/-
  PathControl/Rebalance.lean
  ==========================
  **Moving flows around violating switches.**

  A pass visits every flow of every switch that violates its budget. A visit
  searches a path of least weight between the ends of the segment around the switch
  that avoids the rest of the flow's path, and moves the flow if that differs from
  what is installed: rules for the new segment first, then the old rules that are
  left over are deleted.

  Which flows are visited is settled before any of them moves. A flow that has left
  the switch when its turn comes is skipped, and a flow for which nothing can be
  found stays where it is.

  Around the node at an index, the segment reaches back to the nearest interior node
  that does not violate, or to the start of the path, and forward to the nearest
  interior node that does not violate, or to the end of the path. The ends of the
  segment stay where they are; what lies between them may be replaced.
-/
import PathControl.FlowTable
import PathControl.Rule
import PathControl.ShortestPath

namespace PathControl

/-! ### The part of a path around a violating node -/

/-- Whether there is a node at an index that does not violate. -/
def usableAt (path : List NodeId) (violates : NodeId → Bool) (j : Nat) : Bool :=
  path[j]?.any fun n => !violates n

def segmentStart (path : List NodeId) (i : Nat) (violates : NodeId → Bool) : Nat :=
  ((List.range' 1 (i - 1)).reverse.find? (usableAt path violates)).getD 0

def segmentEnd (path : List NodeId) (i : Nat) (violates : NodeId → Bool) : Nat :=
  let last := path.length - 1
  ((List.range' (i + 1) (last - (i + 1))).find? (usableAt path violates)).getD last

/-- Where the segment around index `i` starts and ends; `none` if the scan would begin beyond the
    path. -/
def segmentBounds (path : List NodeId) (i : Nat) (violates : NodeId → Bool) :
    Option (Nat × Nat) :=
  if 2 ≤ i ∧ path.length ≤ i - 1 then none
  else some (segmentStart path i violates, segmentEnd path i violates)

/-- A path cut in three: what stays before, the segment, and what stays after. -/
structure SegmentCut where
  before : List NodeId
  segment : List NodeId
  after : List NodeId

namespace SegmentCut

/-- Cut a path around the node at index `i`. -/
def around (path : List NodeId) (i : Nat) (violates : NodeId → Bool) : SegmentCut :=
  let src := segmentStart path i violates
  let dst := segmentEnd path i violates
  { before := path.take src
    segment := (path.take (dst + 1)).drop src
    after := path.drop (dst + 1) }

/-- The nodes outside the segment, which a replacement must not visit. -/
def outside (c : SegmentCut) : List NodeId := c.before ++ c.after

def withSegment (c : SegmentCut) (segment : List NodeId) : List NodeId :=
  c.before ++ segment ++ c.after

/-- The nodes of the segment that another segment leaves. -/
def left (c : SegmentCut) (segment : List NodeId) : List NodeId :=
  c.segment.filter (· ∉ segment)

end SegmentCut

/-! ### Visits -/

variable {W : Type} [Weight W]

/-- What a visit to a flow comes to. -/
inductive Visit where
  /-- The flow does not run through the switch any more. -/
  | skipped
  /-- The installed segment is the best. -/
  | unchanged
  /-- The flow moves to another path, by these instructions. -/
  | moved (path : List NodeId) (rules : List Instruction)

/-- Look for a better segment around a violating node for a flow with a path. -/
def reroutePath (t : Topology) (c : Calculator W) (flow : Flow) (v : NodeId) (path : List NodeId) :
    Except Error Visit :=
  match path.idxOf? v with
  | none => .ok .skipped
  | some i => do
    let cut := SegmentCut.around path i c.violates
    let source := cut.segment.head?.getD v
    let target := cut.segment.getLast?.getD v
    let segment ← t.shortestPath (c.excluding cut.outside) source target
    if segment = cut.segment then return .unchanged
    let installs ← t.installRules segment flow
    let deletes ← t.deleteRules (cut.left segment) flow
    return .moved (cut.withSegment segment) (installs ++ deletes)

/-- Look for a better segment around a violating node for a flow. -/
def reroute (t : Topology) (c : Calculator W) (table : FlowTable) (flow : Flow) (v : NodeId) :
    Except Error Visit :=
  match table.path? flow with
  | none => .ok .skipped
  | some path => reroutePath t c flow v path

/-- What a pass has done so far. -/
structure Pass where
  table : FlowTable
  report : RebalanceReport := {}
  /-- The instructions, in the order in which they are sent. -/
  sent : List Instruction := []
  notices : List Notice := []

namespace Pass

/-- Enter the outcome of a visit to a flow at a switch. -/
def enter (t : Topology) (idleTimeout : UInt16) (v : NodeId) (p : Pass) (flow : Flow) :
    Except Error Visit → Pass
  | .ok .skipped =>
    { p with report := { p.report with
        examined := p.report.examined + 1, skipped := p.report.skipped + 1 } }
  | .ok .unchanged =>
    { p with report := { p.report with
        examined := p.report.examined + 1, unchanged := p.report.unchanged + 1 } }
  | .ok (.moved path rules) =>
    let old := (p.table.path? flow).getD []
    { table := p.table.install flow path
      report := { p.report with
        examined := p.report.examined + 1, rerouted := p.report.rerouted + 1 }
      sent := p.sent ++ rules
      notices := p.notices ++
        .rerouted flow (t.pathText old) (t.pathText path) :: rules.map (·.notice idleTimeout) }
  | .error e =>
    { p with
      report := { p.report with
        examined := p.report.examined + 1, failed := p.report.failed + 1 }
      notices := p.notices ++ [.rerouteFailed flow (t.name v) e] }

def visit (t : Topology) (c : Calculator W) (idleTimeout : UInt16) (v : NodeId) (p : Pass)
    (flow : Flow) : Pass :=
  p.enter t idleTimeout v flow (reroute t c p.table flow v)

def visitAll (t : Topology) (c : Calculator W) (idleTimeout : UInt16) (p : Pass)
    (work : NodeId × List Flow) : Pass :=
  let told : Pass :=
    { p with notices := p.notices ++ [.violation (t.name work.1) work.2.length] }
  work.2.foldl (visit t c idleTimeout work.1) told

end Pass

/-- The violating switches that carry flows, with these flows. -/
def FlowTable.violations (table : FlowTable) (c : Calculator W) : List (NodeId × List Flow) :=
  (table.loadedNodes.filter c.violates).map fun n => (n, table.flowsThrough n)

/-- A rebalance pass over all flows of a table. -/
def rebalance (t : Topology) (c : Calculator W) (idleTimeout : UInt16) (table : FlowTable) : Pass :=
  let work := table.violations c
  work.foldl (Pass.visitAll t c idleTimeout)
    { table, report := { violating := work.length } }

end PathControl
