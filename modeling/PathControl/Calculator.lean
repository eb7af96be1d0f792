/-
  PathControl/Calculator.lean
  ===========================
  **The weights of nodes and links at one moment.**

  A calculator answers for the weight of every node and every link. The weight of a
  link is the weight of its first node, combined with that of its second node, and
  then with the weight of one hop. Nodes can be excluded, which makes them and
  their links non-viable.
-/
import PathControl.Topology.Node
import PathControl.Weight

namespace PathControl

/-- The weights of nodes and links; a link has none if combining leaves the range. -/
structure Calculator (W : Type) where
  nodeWeight : NodeId → W
  linkWeight : NodeId → NodeId → Option W

namespace Calculator

variable {W : Type} [Weight W]

/-- The calculator of a list of node weights, in node order, and the weight of one hop. A number
    beyond the list is non-viable. -/
def ofWeights (weights : Array W) (hop : W) : Calculator W :=
  let nodeWeight (n : NodeId) : W := weights[n]?.getD Weight.nonViable
  { nodeWeight
    linkWeight := fun a b => do
      let ends ← Weight.combine (nodeWeight a) (nodeWeight b)
      Weight.combine ends hop }

/-- The same weights, but with some nodes non-viable. A link to an excluded node is non-viable
    even where its own weight is out of range. -/
def excluding (c : Calculator W) (nodes : List NodeId) : Calculator W where
  nodeWeight n := if n ∈ nodes then Weight.nonViable else c.nodeWeight n
  linkWeight a b := if a ∈ nodes ∨ b ∈ nodes then some Weight.nonViable else c.linkWeight a b

/-- Whether the weight of a node says that it exceeds its energy budget. -/
def violates (c : Calculator W) (n : NodeId) : Bool := Weight.violates (c.nodeWeight n)

end Calculator

end PathControl
