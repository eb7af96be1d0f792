/-
  PathControl/Proofs/Weight.lean
  ==============================
  **What weights have to satisfy.**

  `AbsorbingWeight` is all that searching relies on to return a genuine route: the
  order is total, and the non-viable weight absorbs every other. `LawfulWeight` is
  the contract that every weight keeps; in it the non-viable weight is also the
  worst. Returning a route of least weight takes more, namely that a longer way
  costs no less and that the cheaper of two ways stays the cheaper one when both go
  on along the same link; the modules below this one say for which weights that
  holds.
-/
import PathControl.Weight
import Mathlib.Order.Basic

namespace PathControl

namespace Weight

variable {W : Type} [Weight W]

/-- `a` costs no more than `b`. -/
def Le (a b : W) : Prop := (compare a b).isLE = true

def Viable (w : W) : Prop := isNonViable w = false

end Weight

open Weight

/-- A total order, and a non-viable weight that absorbs every other. -/
class AbsorbingWeight (W : Type) [Weight W] : Prop
    extends Std.TransCmp (compare : W → W → Ordering) where
  isNonViable_nonViable : isNonViable (nonViable : W) = true
  viable_of_combine {a b c : W} : combine a b = some c → Viable c → Viable a ∧ Viable b

/-- The contract of weights. -/
class LawfulWeight (W : Type) [Weight W] : Prop
    extends Std.TransCmp (compare : W → W → Ordering) where
  isNonViable_nonViable : isNonViable (nonViable : W) = true
  /-- Nothing becomes viable again. -/
  viable_of_combine {a b c : W} : combine a b = some c → Viable c → Viable a ∧ Viable b
  /-- A viable sum is better than what must not be used. -/
  less_nonViable_of_combine {a b c : W} : combine a b = some c → Viable c →
    less c nonViable = true

/-- Weights that become non-viable by a non-viable part only. -/
class ClosedWeight (W : Type) [Weight W] : Prop extends LawfulWeight W where
  viable_initial : Viable (initial : W)
  viable_of_parts {a b c : W} : combine a b = some c → Viable a → Viable b → Viable c

namespace Weight

variable {W : Type} [Weight W]

instance [LawfulWeight W] : AbsorbingWeight W where
  isNonViable_nonViable := LawfulWeight.isNonViable_nonViable
  viable_of_combine := LawfulWeight.viable_of_combine

theorem not_viable_nonViable [AbsorbingWeight W] : ¬ Viable (nonViable : W) := by
  simp only [Viable]
  rw [AbsorbingWeight.isNonViable_nonViable]
  exact Bool.noConfusion

variable [Std.TransOrd W]

theorem Le.refl (a : W) : Le a a := Std.ReflCmp.isLE_rfl

theorem Le.trans {a b c : W} (hab : Le a b) (hbc : Le b c) : Le a c :=
  Std.TransCmp.isLE_trans hab hbc

theorem le_total (a b : W) : Le a b ∨ Le b a := by
  simp only [Le]
  cases h : compare a b with
  | lt => exact Or.inl rfl
  | eq => exact Or.inl rfl
  | gt => exact Or.inr (Ordering.isLE_of_eq_lt (Std.OrientedCmp.lt_of_gt h))

theorem not_less_iff {a b : W} : less b a = false ↔ Le a b := by
  simp only [less, Le]
  rw [@Std.OrientedCmp.eq_swap W compare _ b a]
  cases compare a b <;> simp

theorem less_iff {a b : W} : less b a = true ↔ ¬ Le a b := by
  rw [← not_less_iff, Bool.not_eq_false]

theorem le_of_less {a b : W} (h : less a b = true) : Le a b := by
  rcases le_total a b with hab | hba
  · exact hab
  · rw [not_less_iff.2 hba] at h
    exact Bool.noConfusion h

theorem less_of_less_of_le {a b c : W} (hab : less a b = true) (hbc : Le b c) :
    less a c = true := by
  rw [less, Ordering.isLT_iff_eq_lt] at hab ⊢
  exact Std.TransCmp.lt_of_lt_of_isLE hab hbc

end Weight

end PathControl
