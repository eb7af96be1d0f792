/-
  PathControl/Weight/Counts.lean
  ==============================
  **Costs that are sums of counts: links and forwarding load.**

  Both weights are words of a fixed width whose largest value is the non-viable
  weight. Combining adds, and has no result when the sum reaches the largest value;
  the non-viable weight absorbs everything.
-/
import PathControl.Weight

namespace PathControl

/-! ### Links -/

/-- A number of links. -/
structure HopCount where
  count : UInt32
deriving DecidableEq

namespace HopCount

def nonViable : HopCount := ⟨4294967295⟩

/-- The sum of two counts, if it stays below the non-viable weight. -/
def combine (a b : HopCount) : Option HopCount :=
  if a = nonViable ∨ b = nonViable then some nonViable
  else
    let sum := a.count.toNat + b.count.toNat
    if sum < nonViable.count.toNat then some ⟨UInt32.ofNat sum⟩ else none

instance : Weight HopCount where
  compare a b := compare a.count b.count
  beq a b := a == b
  initial := ⟨0⟩
  nonViable := nonViable
  combine := combine
  violates _ := false

end HopCount

/-! ### Forwarding load -/

/-- A forwarding load in bits per second. -/
structure Bandwidth where
  bitsPerSecond : UInt64
deriving DecidableEq

namespace Bandwidth

def nonViable : Bandwidth := ⟨18446744073709551615⟩

/-- The sum of two loads, if it stays below the non-viable weight. -/
def combine (a b : Bandwidth) : Option Bandwidth :=
  if a = nonViable ∨ b = nonViable then some nonViable
  else
    let sum := a.bitsPerSecond.toNat + b.bitsPerSecond.toNat
    if sum < nonViable.bitsPerSecond.toNat then some ⟨UInt64.ofNat sum⟩ else none

instance : Weight Bandwidth where
  compare a b := compare a.bitsPerSecond b.bitsPerSecond
  beq a b := a == b
  initial := ⟨0⟩
  nonViable := nonViable
  combine := combine
  violates _ := false

end Bandwidth

end PathControl
