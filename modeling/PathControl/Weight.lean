/-
  PathControl/Weight.lean
  =======================
  **What a path costs.**

  A weight is a cost with an order in which less is better. Costs of the parts of a
  path combine to the cost of the path, starting from the initial weight. One weight
  marks what must not be used at all: the non-viable weight. Combining may leave the
  range of a weight, and then has no result.
-/

namespace PathControl

/-- Costs that can be compared and combined. -/
class Weight (W : Type) extends Ord W, BEq W where
  /-- The cost of the path without links. -/
  initial : W
  /-- The cost of what must not be used. -/
  nonViable : W
  /-- The cost of two parts together; `none` if it is out of range. -/
  combine : W → W → Option W
  /-- Whether the weight of a node says that the node exceeds its energy budget. -/
  violates : W → Bool

namespace Weight

variable {W : Type} [Weight W]

/-- Whether the weight marks something that must not be used. -/
def isNonViable (w : W) : Bool := w == nonViable

/-- Whether `a` is strictly better than `b`. -/
def less (a b : W) : Bool := (compare a b).isLT

end Weight

end PathControl
