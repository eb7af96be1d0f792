/-
  PathControl/Numeral.lean
  ========================
  **Numbers as text, and text as numbers.**

  Decimal numbers, and hexadecimal numbers with lower-case digits, are written with
  as few digits as possible or filled with zeros to a width. Digits are read in any
  base up to sixteen, in either case.
-/

namespace PathControl

/-! ### Writing -/

/-- The decimal digits of a number, without leading zeros. -/
def decimal (n : Nat) : String := String.ofList (Nat.toDigits 10 n)

/-- The lower-case hexadecimal digits of a number, without leading zeros. -/
def hexadecimal (n : Nat) : String := String.ofList (Nat.toDigits 16 n)

/-- The hexadecimal digits of a number, with zeros in front up to `width` digits. -/
def hexadecimalPadded (width n : Nat) : String :=
  String.ofList ((Nat.toDigits 16 n).leftpad width '0')

/-! ### Reading -/

def digitValue? (c : Char) : Option Nat :=
  if '0' ≤ c ∧ c ≤ '9' then some (c.toNat - '0'.toNat)
  else if 'a' ≤ c ∧ c ≤ 'f' then some (c.toNat - 'a'.toNat + 10)
  else if 'A' ≤ c ∧ c ≤ 'F' then some (c.toNat - 'A'.toNat + 10)
  else none

def digitIn? (base : Nat) (c : Char) : Option Nat := do
  let value ← digitValue? c
  if value < base then some value else none

/-- The number that a list of digits of a base stands for, zero for no digits. -/
def numberIn? (base : Nat) (digits : List Char) : Option Nat :=
  digits.foldlM (fun n c => return n * base + (← digitIn? base c)) 0

end PathControl
