/-
  PathControl/Time.lean
  =====================
  **Instants of the simulated clock.**

  An instant is a whole number of nanoseconds since the start. The clock counts
  seconds in 64 bits, so an instant lies below `2 ^ 64` seconds; the bound is part
  of the type. Adding can leave the range and is therefore partial, subtracting
  stops at the start.

  A day is cut into 96 buckets of fifteen minutes, which wrap around at midnight.
-/

namespace PathControl

/-! ### Instants -/

def nanosPerSecond : Nat := 1000000000

/-- The first number of nanoseconds that the clock cannot show. -/
def clockRange : Nat := UInt64.size * nanosPerSecond

/-- An instant, or a span between two instants, in nanoseconds. -/
structure Time where
  nanos : Nat
  inRange : nanos < clockRange
deriving DecidableEq

namespace Time

def zero : Time := ⟨0, by decide⟩

instance : Inhabited Time := ⟨zero⟩

/-- Earlier instants come first. -/
instance : Ord Time := ⟨fun a b => compare a.nanos b.nanos⟩

instance : LE Time := ⟨fun a b => a.nanos ≤ b.nanos⟩

instance : LT Time := ⟨fun a b => a.nanos < b.nanos⟩

instance (a b : Time) : Decidable (a ≤ b) := inferInstanceAs (Decidable (a.nanos ≤ b.nanos))

instance (a b : Time) : Decidable (a < b) := inferInstanceAs (Decidable (a.nanos < b.nanos))

/-- The instant `n` nanoseconds after the start, if the clock can show it. -/
def ofNanos? (n : Nat) : Option Time :=
  if h : n < clockRange then some ⟨n, h⟩ else none

/-- A whole number of seconds. -/
def ofSeconds (s : UInt64) : Time :=
  ⟨s.toNat * nanosPerSecond, Nat.mul_lt_mul_of_pos_right s.toNat_lt (by decide)⟩

/-- The seconds that have fully passed. -/
def seconds (t : Time) : Nat := t.nanos / nanosPerSecond

/-- The nanoseconds since the last full second. -/
def subsecond (t : Time) : Nat := t.nanos % nanosPerSecond

theorem seconds_lt (t : Time) : t.seconds < UInt64.size :=
  (Nat.div_lt_iff_lt_mul (by decide)).2 t.inRange

def wholeSeconds (t : Time) : UInt64 := UInt64.ofNatLT t.seconds t.seconds_lt

/-- The instant a span later; `none` if the clock cannot show it. -/
def add? (t d : Time) : Option Time := ofNanos? (t.nanos + d.nanos)

/-- The span from `s` to `t`, zero if `s` is not before `t`. -/
def since (t s : Time) : Time :=
  ⟨t.nanos - s.nanos, Nat.lt_of_le_of_lt (Nat.sub_le ..) t.inRange⟩

/-- `true` for the start, or for an empty span. -/
def isZero (t : Time) : Bool := t.nanos == 0

def later (s t : Time) : Time := if s ≤ t then t else s

def earlier (s t : Time) : Time := if s ≤ t then s else t

end Time

/-! ### Buckets of the day -/

/-- Number of fifteen-minute buckets in a day. -/
def bucketsPerDay : Nat := 96

/-- Length of a bucket in seconds. -/
def bucketSeconds : Nat := 900

namespace Time

/-- The bucket of the day that contains the instant: four to the hour. -/
def bucket (t : Time) : Nat :=
  let hour := t.seconds / 3600 % 24
  let minute := t.seconds / 60 % 60
  hour * 4 + minute / 15

/-- The part of a bucket that a span covers, counted in whole seconds. -/
def share (d : Time) : Float :=
  d.wholeSeconds.toFloat / (UInt64.ofNat bucketSeconds).toFloat

end Time

end PathControl
