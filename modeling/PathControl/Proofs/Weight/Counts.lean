/-
  PathControl/Proofs/Weight/Counts.lean
  =====================================
  **Sums of counts are lawful weights whose order combining keeps.**

  A number of links and a forwarding load differ only in the width of their words.
  `CountWeight` says what they have in common: weights are natural numbers up to a
  limit, which is the non-viable weight, and combining adds up to the limit.
-/
import PathControl.Proofs.Weight
import PathControl.Weight.Counts
import Mathlib.Data.List.Basic

namespace PathControl

open Weight

/-- Weights that are natural numbers up to a limit. -/
class CountWeight (W : Type) [Weight W] where
  amount : W → Nat
  limit : Nat
  amount_inj {a b : W} : amount a = amount b → a = b
  amount_le (w : W) : amount w ≤ limit
  amount_initial : amount (initial : W) = 0
  compare_eq (a b : W) : compare a b = compare (amount a) (amount b)
  isNonViable_iff (w : W) : isNonViable w = true ↔ amount w = limit
  amount_nonViable : amount (nonViable : W) = limit
  /-- Combining adds up to the limit, and has no result where a sum of two viable weights
      reaches it. -/
  combine_eq_some_iff {a b c : W} : combine a b = some c ↔
    amount c = min limit (amount a + amount b) ∧
      (amount a = limit ∨ amount b = limit ∨ amount a + amount b < limit)

/-! ### The two counts -/

namespace HopCount

theorem eq_iff (a b : HopCount) : a = b ↔ a.count.toNat = b.count.toNat := by
  cases a
  cases b
  simp [UInt32.toNat_inj]

theorem combine_eq_some_iff {a b c : HopCount} : combine a b = some c ↔
    c.count.toNat = min 4294967295 (a.count.toNat + b.count.toNat) ∧
      (a.count.toNat = 4294967295 ∨ b.count.toNat = 4294967295 ∨
        a.count.toNat + b.count.toNat < 4294967295) := by
  have := a.count.toNat_lt
  have := b.count.toNat_lt
  simp only [combine]
  simp only [eq_iff]
  have top : nonViable.count.toNat = 4294967295 := rfl
  rw [top]
  split
  · rw [Option.some_inj, eq_iff, top]
    omega
  · split
    · rw [Option.some_inj, eq_iff]
      simp only [UInt32.toNat_ofNat']
      omega
    · simp only [reduceCtorEq, false_iff]
      omega

instance : CountWeight HopCount where
  amount w := w.count.toNat
  limit := 4294967295
  amount_inj h := (eq_iff _ _).2 h
  amount_le w := Nat.le_of_lt_succ w.count.toNat_lt
  amount_initial := rfl
  compare_eq a b := UInt32.compare_eq_toNat_compare_toNat a.count b.count
  isNonViable_iff _ := beq_iff_eq.trans (eq_iff _ _)
  amount_nonViable := rfl
  combine_eq_some_iff := combine_eq_some_iff

end HopCount

namespace Bandwidth

theorem eq_iff (a b : Bandwidth) : a = b ↔ a.bitsPerSecond.toNat = b.bitsPerSecond.toNat := by
  cases a
  cases b
  simp [UInt64.toNat_inj]

theorem combine_eq_some_iff {a b c : Bandwidth} : combine a b = some c ↔
    c.bitsPerSecond.toNat =
        min 18446744073709551615 (a.bitsPerSecond.toNat + b.bitsPerSecond.toNat) ∧
      (a.bitsPerSecond.toNat = 18446744073709551615 ∨
        b.bitsPerSecond.toNat = 18446744073709551615 ∨
        a.bitsPerSecond.toNat + b.bitsPerSecond.toNat < 18446744073709551615) := by
  have := a.bitsPerSecond.toNat_lt
  have := b.bitsPerSecond.toNat_lt
  simp only [combine]
  simp only [eq_iff]
  have top : nonViable.bitsPerSecond.toNat = 18446744073709551615 := rfl
  rw [top]
  split
  · rw [Option.some_inj, eq_iff, top]
    omega
  · split
    · rw [Option.some_inj, eq_iff]
      simp only [UInt64.toNat_ofNat']
      omega
    · simp only [reduceCtorEq, false_iff]
      omega

instance : CountWeight Bandwidth where
  amount w := w.bitsPerSecond.toNat
  limit := 18446744073709551615
  amount_inj h := (eq_iff _ _).2 h
  amount_le w := Nat.le_of_lt_succ w.bitsPerSecond.toNat_lt
  amount_initial := rfl
  compare_eq a b := UInt64.compare_eq_toNat_compare_toNat a.bitsPerSecond b.bitsPerSecond
  isNonViable_iff _ := beq_iff_eq.trans (eq_iff _ _)
  amount_nonViable := rfl
  combine_eq_some_iff := combine_eq_some_iff

end Bandwidth

/-! ### Laws -/

namespace CountWeight

variable {W : Type} [Weight W] [CountWeight W]

theorem le_iff {a b : W} : Le a b ↔ amount a ≤ amount b := by
  simp only [Le]
  rw [compare_eq, Nat.isLE_compare]

theorem viable_iff {w : W} : Viable w ↔ amount w < limit W := by
  have := amount_le w
  have := isNonViable_iff w
  simp only [Viable]
  rw [← Bool.not_eq_true, this]
  omega

theorem amount_combine {a b c : W} (h : combine a b = some c) :
    amount c = min (limit W) (amount a + amount b) :=
  (combine_eq_some_iff.1 h).1

instance : LawfulWeight W where
  eq_swap {a b} := by
    rw [compare_eq, compare_eq]
    exact Std.OrientedCmp.eq_swap
  isLE_trans {a b c} := by
    rw [compare_eq, compare_eq, compare_eq]
    exact Std.TransCmp.isLE_trans
  isNonViable_nonViable := (isNonViable_iff _).2 amount_nonViable
  viable_of_combine {a b c} h := by
    rw [viable_iff, viable_iff, viable_iff, amount_combine h]
    omega
  less_nonViable_of_combine {a b c} h viable := by
    rw [less, Ordering.isLT_iff_eq_lt, compare_eq, amount_nonViable, Nat.compare_eq_lt]
    exact viable_iff.1 viable

/-- A longer way costs no less. -/
theorem le_combine {a b c : W} (h : combine a b = some c) : Le a c := by
  have := amount_le a
  rw [le_iff, amount_combine h]
  omega

/-- The cheaper of two ways stays the cheaper one when both go on along the same link. -/
theorem combine_mono {a b e a' b' : W} (hab : Le a b) (ha : combine a e = some a')
    (hb : combine b e = some b') : Le a' b' := by
  rw [le_iff] at hab ⊢
  rw [amount_combine ha, amount_combine hb]
  omega

/-- A sum of two viable counts is below the limit. -/
theorem viable_of_parts {a b c : W} (h : combine a b = some c) (ha : Viable a) (hb : Viable b) :
    Viable c := by
  rw [viable_iff] at ha hb ⊢
  obtain ⟨amount, range⟩ := combine_eq_some_iff.1 h
  omega

end CountWeight

/-- Every number below the limit is the amount of a weight, and every weight equals itself. -/
class FullCountWeight (W : Type) [Weight W] [CountWeight W] : Prop where
  exists_amount {n : Nat} : n < CountWeight.limit W → ∃ w : W, CountWeight.amount w = n
  beq_self (w : W) : (w == w) = true

instance : FullCountWeight HopCount where
  exists_amount {n} range :=
    ⟨⟨.ofNat n⟩, UInt32.toNat_ofNat_of_lt (Nat.lt_succ_of_lt range)⟩
  beq_self w := beq_self_eq_true w

instance : FullCountWeight Bandwidth where
  exists_amount {n} range :=
    ⟨⟨.ofNat n⟩, UInt64.toNat_ofNat_of_lt (Nat.lt_succ_of_lt range)⟩
  beq_self w := beq_self_eq_true w

namespace CountWeight

variable {W : Type} [Weight W] [CountWeight W]

theorem combine_initial (w : W) : combine w initial = some w := by
  have := amount_le w
  rw [combine_eq_some_iff, amount_initial]
  omega

/-- Counts combine as long as their sum stays below the limit. -/
theorem exists_combine [FullCountWeight W] {a b : W} (range : amount a + amount b < limit W) :
    ∃ c, combine a b = some c ∧ amount c = amount a + amount b := by
  obtain ⟨c, sum⟩ := FullCountWeight.exists_amount range
  refine ⟨c, combine_eq_some_iff.2 ⟨?_, Or.inr (Or.inr range)⟩, sum⟩
  rw [sum, Nat.min_eq_right (Nat.le_of_lt range)]

end CountWeight

instance : ClosedWeight HopCount where
  viable_initial := CountWeight.viable_iff.2 (by decide)
  viable_of_parts := CountWeight.viable_of_parts

instance : ClosedWeight Bandwidth where
  viable_initial := CountWeight.viable_iff.2 (by decide)
  viable_of_parts := CountWeight.viable_of_parts

end PathControl
