/-
  PathControl/Weight/FlexWeight.lean
  ==================================
  **The energy-aware cost of a path.**

  A path is worse than any other if it runs through a saturated switch, one whose
  utilization is 1 or more. Among the rest the fewer violating switches win, then
  the fewer links, then the lower peak utilization.

  Combining takes the higher utilization and adds the counts. A count that would
  reach the largest word is out of range.
-/
import PathControl.Weight
import PathControl.Weight.Reading

namespace PathControl

/-- Peak utilization, number of violations, number of links. -/
structure FlexWeight where
  usage : Reading
  violations : UInt32
  hops : UInt32

namespace FlexWeight

/-- The weight with a peak utilization, which counts as saturated if it is not a number. -/
def ofUsage (usage : Float) (violations hops : UInt32) : FlexWeight :=
  ⟨(Reading.ofFloat? usage).getD Reading.one, violations, hops⟩

/-- The weight of a node with a utilization, which may exceed its energy budget. -/
def ofNode (usage : Float) (violating : Bool) : FlexWeight :=
  ofUsage usage (if violating then 1 else 0) 0

def initial : FlexWeight := ⟨Reading.zero, 0, 0⟩

/-- The weight of what must not be used: every part at its largest. -/
def nonViable : FlexWeight := ⟨Reading.largest, 4294967295, 4294967295⟩

/-- Whether some switch of the path is used to its limit. -/
def saturated (w : FlexWeight) : Bool := decide (Reading.one.rank ≤ w.usage.rank)

instance : Ord FlexWeight where
  compare a b :=
    (compare a.saturated b.saturated).then <| (compare a.violations b.violations).then <|
      (compare a.hops b.hops).then <| compare a.usage b.usage

instance : BEq FlexWeight where
  beq a b := a.usage == b.usage && a.violations == b.violations && a.hops == b.hops

/-- The sum of two counts, if it stays below the largest word. -/
def addCounts (a b : UInt32) : Option UInt32 :=
  let sum := a.toNat + b.toNat
  if sum < 4294967295 then some (UInt32.ofNat sum) else none

/-- The higher utilization and the sums of the counts, if these are in range. -/
def combine (a b : FlexWeight) : Option FlexWeight :=
  if a == nonViable || b == nonViable then some nonViable
  else do
    let violations ← addCounts a.violations b.violations
    let hops ← addCounts a.hops b.hops
    return ⟨Reading.max a.usage b.usage, violations, hops⟩

instance : Weight FlexWeight where
  initial := initial
  nonViable := nonViable
  combine := combine
  violates w := w.violations != 0

end FlexWeight

end PathControl
