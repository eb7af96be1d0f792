/-
  PathControl/Weight/Reading.lean
  ===============================
  **Doubles that can be ordered.**

  A reading is a double other than NaN. Its rank is an integer read off the bits of
  the double: the magnitude bits, negated if the sign bit is set. Magnitude bits of
  doubles grow with the value, so ranks are ordered as the doubles are, and the two
  zeros have one rank. Comparing readings is comparing ranks.
-/

namespace PathControl

/-- A double other than NaN. -/
structure Reading where
  value : Float
  notNaN : value.isNaN = false

namespace Reading

/-- The reading of a double, unless it is NaN. -/
def ofFloat? (x : Float) : Option Reading :=
  if h : x.isNaN = false then some ⟨x, h⟩ else none

/-- The reading with the bits `0x0000000000000000`: zero. -/
def zero : Reading := ⟨0.0, by decide⟩

/-- The reading one, where a utilization is saturated. -/
def one : Reading := ⟨1.0, by decide⟩

def largest : Reading := ⟨Float.ofBits 0x7fefffffffffffff, by decide⟩

def infinity : Reading := ⟨Float.ofBits 0x7ff0000000000000, by decide⟩

instance : Inhabited Reading := ⟨zero⟩

/-- The place of a reading in the order of all readings. -/
def rank (r : Reading) : Int :=
  let bits := r.value.toBits.toNat
  let signBit := 0x8000000000000000
  if bits < signBit then bits else -((bits - signBit : Nat) : Int)

instance : Ord Reading := ⟨fun a b => compare a.rank b.rank⟩

instance : BEq Reading := ⟨fun a b => a.rank == b.rank⟩

/-- The larger of two readings, the second if neither is larger. -/
def max (a b : Reading) : Reading := if b.rank < a.rank then a else b

end Reading

end PathControl
