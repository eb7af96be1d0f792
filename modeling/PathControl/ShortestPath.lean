/-
  PathControl/ShortestPath.lean
  =============================
  **Searching for a path of least weight.**

  The search settles one node after another, always one that waits with a least
  score. Settling a node offers its neighbors the score of the path through it; a
  neighbor takes the offer if it is strictly less than what it has, and waits with
  it. A node may wait more than once; only the first time it comes up counts.

  Hosts other than the source are settled but lead nowhere, so that no path runs
  through a host. Non-viable offers are not made. The search ends when the target is
  settled or nothing waits, and it fails if a weight leaves its range on the way.

  Every round settles a node or shortens the queue, which is why the search ends
  whatever the weights are.
-/
import PathControl.Calculator
import PathControl.MinQueue
import PathControl.Topology

namespace PathControl

variable {W : Type} [Weight W]

/-! ### Offers -/

/-- The best known way to a node: its score, and the node that it comes from. -/
structure Label (W : Type) where
  score : W
  previous : Option NodeId

/-- The best known ways, and the nodes that wait to be settled. -/
structure Frontier (W : Type) where
  labels : Std.TreeMap NodeId (Label W)
  queue : MinQueue W NodeId

namespace Frontier

/-- The frontier at the start: only the source waits. -/
def start (source : NodeId) : Frontier W where
  labels := Std.TreeMap.empty.insert source ⟨Weight.initial, none⟩
  queue := MinQueue.empty.push Weight.initial source

/-- The score of a node, non-viable as long as no way is known. -/
def score (f : Frontier W) (n : NodeId) : W :=
  match f.labels[n]? with
  | some label => label.score
  | none => Weight.nonViable

def previous? (f : Frontier W) (n : NodeId) : Option NodeId := f.labels[n]?.bind Label.previous

/-- Offer a score for the way to `next` through `node`. -/
def offer (f : Frontier W) (node next : NodeId) (score : W) : Frontier W :=
  if Weight.isNonViable score then f
  else if Weight.less score (f.score next) then
    { labels := f.labels.insert next ⟨score, some node⟩, queue := f.queue.push score next }
  else f

/-- Offer `next` the way through a settled node of known score; `none` if a weight leaves its
    range. -/
def relax (c : Calculator W) (settled : List NodeId) (node : NodeId) (score : W)
    (f : Frontier W) (next : NodeId) : Option (Frontier W) :=
  if next ∈ settled then some f
  else do
    let link ← c.linkWeight node next
    let total ← Weight.combine score link
    return f.offer node next total

/-- The nodes of the best known way to `n`, followed by `after`. The way is followed back over
    at most `steps` nodes. -/
def trace (f : Frontier W) : Nat → NodeId → List NodeId → List NodeId
  | 0, n, after => n :: after
  | steps + 1, n, after =>
    match f.previous? n with
    | some p => f.trace steps p (n :: after)
    | none => n :: after

end Frontier

/-! ### Settling -/

namespace Topology

def unsettled (t : Topology) (settled : List NodeId) : List NodeId :=
  t.nodeIds.filter (· ∉ settled)

theorem length_unsettled_cons_lt (t : Topology) (settled : List NodeId) (n : NodeId)
    (fresh : n ∉ settled) (inside : t.contains n = true) :
    (t.unsettled (n :: settled)).length < (t.unsettled settled).length := by
  have keep : t.unsettled (n :: settled) = (t.unsettled settled).filter (· ≠ n) := by
    simp [unsettled, List.filter_filter]
  have here : n ∈ t.unsettled settled := by
    simp only [contains, decide_eq_true_eq] at inside
    simp [unsettled, nodeIds, size, fresh, inside]
  rw [keep, List.length_filter_lt_length_iff_exists]
  exact ⟨n, here, by simp⟩

end Topology

/-- Settle nodes until the target is settled or nothing waits; `none` if a weight leaves its
    range. -/
def settle (t : Topology) (c : Calculator W) (source target : NodeId) (settled : List NodeId)
    (f : Frontier W) : Option (Frontier W) :=
  match _popped : f.queue.pop with
  | none => some f
  | some (entry, rest) =>
    let node := entry.label
    let f : Frontier W := { f with queue := rest }
    if _known : node ∈ settled ∨ t.contains node = false then settle t c source target settled f
    else if node = target then some f
    else if node ≠ source ∧ t.isHost node then settle t c source target (node :: settled) f
    else
      match (t.neighbors node).foldlM (Frontier.relax c (node :: settled) node entry.score) f with
      | none => none
      | some f => settle t c source target (node :: settled) f
termination_by ((t.unsettled settled).length, f.queue.size)
decreasing_by
  · exact Prod.Lex.right _ (MinQueue.size_lt_of_pop _popped)
  · have ⟨fresh, here⟩ := not_or.1 _known
    exact Prod.Lex.left _ _ (t.length_unsettled_cons_lt _ _ fresh (by simpa using here))
  · have ⟨fresh, here⟩ := not_or.1 _known
    exact Prod.Lex.left _ _ (t.length_unsettled_cons_lt _ _ fresh (by simpa using here))

/-! ### Paths -/

namespace Topology

def requireNode (t : Topology) (n : NodeId) : Except Error Unit :=
  if t.contains n then .ok () else .error (.unknownNode n)

/-- A path of least weight from `source` to `target`, both included. -/
def shortestPath (t : Topology) (c : Calculator W) (source target : NodeId) :
    Except Error (List NodeId) := do
  t.requireNode source
  t.requireNode target
  match settle t c source target [] (Frontier.start source) with
  | none => throw .weightOverflow
  | some f =>
    if Weight.isNonViable (f.score target) then throw (.noPath source target)
    return f.trace t.size target []

/-- A path of least weight between the hosts of two addresses, both hosts included. -/
def shortestPathBetween (t : Topology) (c : Calculator W) (source target : HostAddress) :
    Except Error (List NodeId) := do
  t.shortestPath c (← t.hostWith source) (← t.hostWith target)

end Topology

end PathControl
