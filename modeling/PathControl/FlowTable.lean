/-
  PathControl/FlowTable.lean
  ==========================
  **The installed path of every flow, and who carries it.**

  The table keeps two views: the path of each flow, and for each node the flows that
  run through it. A flow runs through a node that stands on its path between the
  first and the last node. A node that carries no flow is not listed.

  Storing a path takes the flow off the nodes that it no longer runs through and
  enters it at those that it does; `check` says whether the two views agree.
-/
import PathControl.Error
import Std.Data.TreeMap
import Std.Data.TreeSet

namespace PathControl

/-- The nodes of a path between its first and its last node. -/
def interior (path : List NodeId) : List NodeId := path.tail.dropLast

/-- The path of each flow, and the flows that run through each node. -/
structure FlowTable where
  paths : Std.TreeMap Flow (List NodeId) := ∅
  carried : Std.TreeMap NodeId (Std.TreeSet Flow) := ∅

namespace FlowTable

def empty : FlowTable := {}

def size (t : FlowTable) : Nat := t.paths.size

def isEmpty (t : FlowTable) : Bool := t.paths.isEmpty

def contains (t : FlowTable) (flow : Flow) : Bool := t.paths.contains flow

def path? (t : FlowTable) (flow : Flow) : Option (List NodeId) := t.paths[flow]?

/-- All flows with their paths, in the order of flows. -/
def toList (t : FlowTable) : List (Flow × List NodeId) := t.paths.toList

/-- The flows that run through a node, in order. -/
def flowsThrough (t : FlowTable) (n : NodeId) : List Flow :=
  match t.carried[n]? with
  | some flows => flows.toList
  | none => []

/-- The nodes that flows run through, in order. -/
def loadedNodes (t : FlowTable) : List NodeId := t.carried.keys

/-! ### Changes -/

def enter (flow : Flow) (carried : Std.TreeMap NodeId (Std.TreeSet Flow)) (n : NodeId) :
    Std.TreeMap NodeId (Std.TreeSet Flow) :=
  carried.insert n ((carried.getD n ∅).insert flow)

/-- Take a flow off a node, and the node off the list if that was its last flow. -/
def leave (flow : Flow) (carried : Std.TreeMap NodeId (Std.TreeSet Flow)) (n : NodeId) :
    Std.TreeMap NodeId (Std.TreeSet Flow) :=
  match carried[n]? with
  | none => carried
  | some flows =>
    let rest := flows.erase flow
    if rest.isEmpty then carried.erase n else carried.insert n rest

/-- Store a path for a flow, in place of any path that it had. -/
def install (t : FlowTable) (flow : Flow) (path : List NodeId) : FlowTable :=
  let new := interior path
  let gone := (interior ((t.path? flow).getD [])).filter (· ∉ new)
  { paths := t.paths.insert flow path
    carried := new.foldl (enter flow) (gone.foldl (leave flow) t.carried) }

def evict (t : FlowTable) (flow : Flow) : FlowTable :=
  match t.path? flow with
  | none => t
  | some path =>
    { paths := t.paths.erase flow
      carried := (interior path).foldl (leave flow) t.carried }

/-! ### Agreement of the two views -/

def isCarried (t : FlowTable) (n : NodeId) (flow : Flow) : Bool :=
  (t.carried[n]?).any (·.contains flow)

def traverses (t : FlowTable) (n : NodeId) (flow : Flow) : Bool :=
  (t.path? flow).any fun path => (interior path).contains n

/-- A reason why the views disagree that is found from the paths. -/
def pathDefect? (t : FlowTable) : Option Defect :=
  t.paths.toList.findSome? fun (flow, path) =>
    (interior path).findSome? fun n =>
      if t.isCarried n flow then none else some (.notIndexed flow n)

/-- A reason why the views disagree that is found from the nodes. -/
def nodeDefect? (t : FlowTable) : Option Defect :=
  t.carried.toList.findSome? fun (n, flows) =>
    if flows.isEmpty then some (.emptySet n)
    else flows.toList.findSome? fun flow =>
      if t.traverses n flow then none else some (.notTraversing flow n)

/-- Check that the flows entered at each node are those that run through it. -/
def check (t : FlowTable) : Except Error Unit :=
  match t.pathDefect?.or t.nodeDefect? with
  | none => .ok ()
  | some defect => .error (.invariantViolation defect)

end FlowTable

end PathControl
