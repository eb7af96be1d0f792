/-
  PathControl/Weight/CpuUsage.lean
  ================================
  **The CPU utilization summed along a path.**

  The non-viable weight is infinity, and a utilization that is not a number counts
  as non-viable. A sum that is not finite is out of range.
-/
import PathControl.Weight
import PathControl.Weight.Reading

namespace PathControl

/-- A sum of CPU utilizations. -/
structure CpuUsage where
  total : Reading

namespace CpuUsage

def nonViable : CpuUsage := ⟨Reading.infinity⟩

/-- The weight of a utilization. -/
def ofFloat (x : Float) : CpuUsage :=
  match Reading.ofFloat? x with
  | some r => ⟨r⟩
  | none => nonViable

/-- The sum of two weights, if it is finite. -/
def combine (a b : CpuUsage) : Option CpuUsage :=
  if a.total == nonViable.total || b.total == nonViable.total then some nonViable
  else
    let sum := a.total.value + b.total.value
    if sum.isFinite then some (ofFloat sum) else none

instance : Weight CpuUsage where
  compare a b := compare a.total b.total
  beq a b := a.total == b.total
  initial := ⟨Reading.zero⟩
  nonViable := nonViable
  combine := combine
  violates _ := false

end CpuUsage

end PathControl
