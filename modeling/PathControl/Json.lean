/-
  PathControl/Json.lean
  =====================
  **JSON values as documents hold them.**

  Numbers keep their spelling, and the members of an object keep their order and their
  repetitions.

  A number keeps the digits that it is written with. Plain digits without a sign are a
  natural number. As a double, a number can be read in two ways.

  The nearest double is the exact value, rounded once. The scaled reading works with a
  significand of 64 bits and a power of ten instead. The significand takes up digits
  from the left as long as it fits; digits that it cannot take up only keep their
  place. The significand is rounded to a double, and that is multiplied or divided by
  the power of ten, which rounds once more. The scaled reading may therefore be a
  neighbour of the nearest double, and near the largest double it may be out of range
  where the nearest one is not.
-/

namespace PathControl

namespace Json

/-! ### Numbers -/

/-- The number that decimal digits stand for. -/
def digitsValue (digits : List Nat) : Nat := digits.foldl (fun n d => n * 10 + d) 0

structure Number where
  negative : Bool
  whole : List Nat
  fraction : List Nat
  exponent : Option Int
deriving DecidableEq

namespace Number

/-- The value of a plain integer without a sign. -/
def toNat? (n : Number) : Option Nat :=
  if n.negative || !n.fraction.isEmpty || n.exponent.isSome then none
  else some (digitsValue n.whole)

/-- The number with the sign of `n` and the absolute value of `x`. -/
def withSign (n : Number) (x : Float) : Float := if n.negative then -x else x

/-! ### The nearest double -/

/-- The nearest double, an infinity if the number lies beyond the largest double. Numbers that
    are far out of range are settled by their number of digits. -/
def toFloat (n : Number) : Float :=
  let mantissa := digitsValue (n.whole ++ n.fraction)
  let exponent : Int := n.exponent.getD 0 - n.fraction.length
  let size : Int := exponent + (Nat.toDigits 10 mantissa).length
  n.withSign <|
    if mantissa = 0 ∨ size < -400 then 0.0
    else if size > 400 then 1.0 / 0.0
    else Float.ofScientific mantissa (exponent < 0) exponent.natAbs

/-! ### The scaled reading -/

/-- Let a significand take up digits as long as it fits into 64 bits; also the digits that are
    left over. -/
def takeUp (significand : Nat) : List Nat → Nat × List Nat
  | [] => (significand, [])
  | d :: rest =>
    let longer := significand * 10 + d
    if longer < UInt64.size then takeUp longer rest else (significand, d :: rest)

/-- The significand, and the power of ten that belongs to it. What is left over of the whole
    digits does not keep the significand from taking up digits after the point. -/
def significand (n : Number) : Nat × Int :=
  let (taken, wholeLeft) := takeUp 0 n.whole
  let (taken, fractionLeft) := takeUp taken n.fraction
  let places : Int := n.fraction.length - fractionLeft.length
  (taken, n.exponent.getD 0 + wholeLeft.length - places)

/-- The exponent of the largest power of ten that is a double. -/
def largestPower : Nat := 308

/-- The double next to a power of ten. -/
def powerOfTen (exponent : Nat) : Float := Float.ofScientific 1 false exponent

/-- A double times a power of ten, `none` if that is out of range. For exponents below those of
    doubles the largest power is divided out first, as often as necessary. -/
def scale? (x : Float) (exponent : Int) : Option Float :=
  if exponent.natAbs ≤ largestPower then
    if exponent < 0 then some (x / powerOfTen exponent.natAbs)
    else
      let product := x * powerOfTen exponent.natAbs
      if product.isInf then none else some product
  else if x == 0.0 then some x
  else if exponent < 0 then scale? (x / powerOfTen largestPower) (exponent + largestPower)
  else none
termination_by exponent.natAbs
decreasing_by
  simp only [largestPower] at *
  omega

/-- The scaled reading of the number. -/
def scaled? (n : Number) : Option Float := do
  let (significand, exponent) := n.significand
  return n.withSign (← scale? (UInt64.ofNat significand).toFloat exponent)

end Number

end Json

/-! ### Values -/

inductive Json where
  | null
  | bool (value : Bool)
  | number (value : Json.Number)
  | string (value : String)
  | array (items : List Json)
  | object (members : List (String × Json))

namespace Json

instance : Inhabited Json := ⟨null⟩

/-- The value of a plain integer below a bound. -/
def below? (bound : Nat) : Json → Option Nat
  | number n => do
    let value ← n.toNat?
    if value < bound then some value else none
  | _ => none

def members? : Json → Option (List (String × Json))
  | object ms => some ms
  | _ => none

def items? : Json → Option (List Json)
  | array js => some js
  | _ => none

def scaled? : Json → Option Float
  | number n => n.scaled?
  | _ => none

/-- The value of the last member with a name. -/
def get? (name : String) : Json → Option Json
  | object ms => ms.reverse.lookup name
  | _ => none

end Json

end PathControl
