/-
  PathControl/Proofs/Weight/Total.lean
  ====================================
  **The order in which weights are combined does not matter.**

  At which step a count leaves its range depends on the order of the steps. Whether it
  does is a matter of the whole sum, as counts only grow: every step stays in range
  exactly if the last one does (`Totals.sameOutcome`).

  `Totals` says of a kind of weights what is added up and which totals are in range,
  so that the argument is made once for the counts and for the energy-aware weight,
  which has two sums and a maximum.
-/
import PathControl.Proofs.Weight.FlexWeight
import Mathlib.Algebra.BigOperators.Group.List.Basic
import Mathlib.Algebra.Ring.Nat
import Mathlib.Data.List.Perm.Basic

namespace PathControl

open Weight

/-! ### Combining a list -/

section Outcome

variable {W : Type} [Weight W]

/-- The weights of a list combined from the left; `none` if a step leaves the range. -/
def Weight.combineAll (weights : List W) : Option W := weights.foldlM Weight.combine Weight.initial

/-- Two ways of combining the same weights end alike: out of range, or, exactly if the sums are in
    range, with equal weights that can be used. -/
structure Weight.SameOutcome (inRange : Prop) (x y : Option W) : Prop where
  overflow : ¬ inRange → x = none ∧ y = none
  equal : inRange → ∃ a b, x = some a ∧ y = some b ∧ (a == b) = true ∧
    less a nonViable = true ∧ less b nonViable = true

end Outcome

/-! ### Totals -/

/-- What is added up when weights are combined, and which totals are in range. -/
structure Totals (W : Type) [Weight W] (K : Type) where
  total : W → K
  add : K → K → K
  InRange : K → Prop
  comm : Std.Commutative add
  assoc : Std.Associative add
  beq_of_total {a b : W} : total a = total b → (a == b) = true
  inRange_initial : InRange (total Weight.initial)
  inRange_left {k l : K} : InRange (add k l) → InRange k
  viable_of_inRange {w : W} : InRange (total w) → Viable w
  less_nonViable {w : W} : InRange (total w) → less w nonViable = true
  total_combine {a b c : W} : Viable a → Viable b → combine a b = some c →
    total c = add (total a) (total b) ∧ InRange (total c)
  exists_combine {a b : W} : Viable a → Viable b → InRange (add (total a) (total b)) →
    ∃ c, combine a b = some c

namespace Totals

variable {W K : Type} [Weight W] (T : Totals W K) {a w : W} {weights : List W}

def totalFrom (k : K) (weights : List W) : K := (weights.map T.total).foldl T.add k

theorem inRange_of_totalFrom {k : K} (h : T.InRange (T.totalFrom k weights)) : T.InRange k := by
  induction weights generalizing k with
  | nil => exact h
  | cons x rest ih => exact T.inRange_left (ih h)

/-- A fold that has a result has the total of the list, and that is in range. -/
theorem totalFrom_of_foldlM (viable : ∀ x ∈ weights, Viable x) (start : T.InRange (T.total a))
    (h : weights.foldlM combine a = some w) :
    T.total w = T.totalFrom (T.total a) weights ∧ T.InRange (T.total w) := by
  induction weights generalizing a with
  | nil =>
    cases h
    exact ⟨rfl, start⟩
  | cons x rest ih =>
    obtain ⟨b, step, h⟩ := Option.bind_eq_some_iff.1 h
    obtain ⟨total, range⟩ := T.total_combine (T.viable_of_inRange start)
      (viable x List.mem_cons_self) step
    have whole := ih (fun y hy => viable y (List.mem_cons_of_mem _ hy)) range h
    rwa [total] at whole

theorem exists_foldlM (viable : ∀ x ∈ weights, Viable x) (start : T.InRange (T.total a))
    (h : T.InRange (T.totalFrom (T.total a) weights)) :
    ∃ w, weights.foldlM combine a = some w := by
  induction weights generalizing a with
  | nil => exact ⟨a, rfl⟩
  | cons x rest ih =>
    -- each partial total is part of the whole one, so it is in range with it
    have usable := T.viable_of_inRange start
    have usable' := viable x List.mem_cons_self
    obtain ⟨b, step⟩ := T.exists_combine usable usable' (T.inRange_of_totalFrom h)
    obtain ⟨total, range⟩ := T.total_combine usable usable' step
    obtain ⟨w, rest⟩ := ih (fun y hy => viable y (List.mem_cons_of_mem _ hy)) range
      (by rw [total]; exact h)
    exact ⟨w, Option.bind_eq_some_iff.2 ⟨b, step, rest⟩⟩

theorem totalFrom_perm {xs ys : List W} (h : xs.Perm ys) (k : K) :
    T.totalFrom k xs = T.totalFrom k ys := by
  have := T.comm
  have := T.assoc
  exact (h.map T.total).foldl_op_eq

theorem combineAll_eq_none (viable : ∀ x ∈ weights, Viable x)
    (out : ¬ T.InRange (T.totalFrom (T.total initial) weights)) : combineAll weights = none := by
  rw [Option.eq_none_iff_forall_not_mem]
  intro w result
  obtain ⟨total, range⟩ := T.totalFrom_of_foldlM viable T.inRange_initial result
  exact out (total ▸ range)

theorem exists_combineAll (viable : ∀ x ∈ weights, Viable x)
    (inside : T.InRange (T.totalFrom (T.total initial) weights)) :
    ∃ w, combineAll weights = some w ∧ T.total w = T.totalFrom (T.total initial) weights ∧
      T.InRange (T.total w) := by
  obtain ⟨w, result⟩ := T.exists_foldlM viable T.inRange_initial inside
  exact ⟨w, result, T.totalFrom_of_foldlM viable T.inRange_initial result⟩

/-- **Combining ends alike in every order**, out of range exactly if the total is. -/
theorem sameOutcome {xs ys : List W} (h : xs.Perm ys) (viable : ∀ x ∈ xs, Viable x) :
    SameOutcome (T.InRange (T.totalFrom (T.total initial) xs)) (combineAll xs)
      (combineAll ys) := by
  have viable' : ∀ x ∈ ys, Viable x := fun x hx => viable x (h.mem_iff.2 hx)
  have same := T.totalFrom_perm h (T.total initial)
  constructor
  · intro out
    exact ⟨T.combineAll_eq_none viable out, T.combineAll_eq_none viable' (same ▸ out)⟩
  · intro inside
    obtain ⟨a, ha, totalA, rangeA⟩ := T.exists_combineAll viable inside
    obtain ⟨b, hb, totalB, rangeB⟩ := T.exists_combineAll viable' (same ▸ inside)
    exact ⟨a, b, ha, hb, T.beq_of_total (totalA.trans (same.trans totalB.symm)),
      T.less_nonViable rangeA, T.less_nonViable rangeB⟩

end Totals

/-! ### Sums of counts -/

namespace CountWeight

variable {W : Type} [Weight W] [CountWeight W] [ClosedWeight W] [FullCountWeight W]

def totals : Totals W Nat where
  total := amount
  add := (· + ·)
  InRange k := k < limit W
  comm := inferInstance
  assoc := inferInstance
  beq_of_total {a b} same := by
    rw [amount_inj same]
    exact FullCountWeight.beq_self b
  inRange_initial := viable_iff.1 ClosedWeight.viable_initial
  inRange_left := Nat.lt_of_le_of_lt (Nat.le_add_right _ _)
  viable_of_inRange := viable_iff.2
  less_nonViable {w} range := by
    rw [less_iff, le_iff, amount_nonViable]
    exact Nat.not_le.2 range
  total_combine {a b c} ha hb h := by
    rw [viable_iff] at ha hb
    obtain ⟨sum, range⟩ := combine_eq_some_iff.1 h
    omega
  exists_combine {a b} _ _ range := by
    obtain ⟨c, total, _⟩ := CountWeight.exists_combine range
    exact ⟨c, total⟩

theorem totalFrom_eq (k : Nat) (weights : List W) :
    totals.totalFrom k weights = k + (weights.map amount).sum := by
  induction weights generalizing k with
  | nil => rfl
  | cons w rest ih =>
    rw [List.map_cons, List.sum_cons, ← Nat.add_assoc]
    exact ih (k + amount w)

theorem sameOutcome {xs ys : List W} (h : xs.Perm ys) (viable : ∀ x ∈ xs, Viable x) :
    SameOutcome ((xs.map amount).sum < limit W) (combineAll xs) (combineAll ys) := by
  have ends := totals.sameOutcome h viable
  rw [totalFrom_eq] at ends
  -- the fold starts at the total of the initial weight, which is nothing
  change SameOutcome (amount (initial : W) + _ < _) _ _ at ends
  rwa [amount_initial, Nat.zero_add] at ends

end CountWeight

/-! ### Two sums and a maximum -/

namespace FlexWeight

/-- The higher utilization is kept, violations and links are added up, and both sums stay below
    the largest word. -/
def totals : Totals FlexWeight (Int × Nat × Nat) where
  total w := (w.usage.rank, w.violations.toNat, w.hops.toNat)
  add k l := (max k.1 l.1, k.2.1 + l.2.1, k.2.2 + l.2.2)
  InRange k := k.2.1 < 4294967295 ∧ k.2.2 < 4294967295
  comm := ⟨fun k l => by rw [Int.max_comm, Nat.add_comm k.2.1, Nat.add_comm k.2.2]⟩
  assoc := ⟨fun k l m => by simp only [Int.max_assoc, Nat.add_assoc]⟩
  beq_of_total {a b} same := by
    simp only [Prod.mk.injEq, UInt32.toNat_inj] at same
    obtain ⟨usage, violations, hops⟩ := same
    change ((a.usage == b.usage && a.violations == b.violations) && a.hops == b.hops) = true
    rw [Reading.beq_iff.2 usage, violations, hops]
    simp
  inRange_initial := by decide
  inRange_left range := by
    dsimp only at range ⊢
    omega
  viable_of_inRange range := viable_of_inRange range.1
  less_nonViable range := less_nonViable_of_inRange range.1
  total_combine {a b c} ha hb h := by
    obtain ⟨usage, violations, hops, range⟩ := combined h ha hb
    exact ⟨by rw [usage, violations, hops], range, hops_lt_of_combine h ha hb⟩
  exists_combine {a b} ha hb range := by
    obtain ⟨c, total, _⟩ := Counts.exists_combine ⟨ha, rfl, rfl, rfl⟩ ⟨hb, rfl, rfl, rfl⟩
      range.1 range.2
    exact ⟨c, total⟩

theorem totalFrom_eq (k : Int × Nat × Nat) (weights : List FlexWeight) :
    (totals.totalFrom k weights).2 = (k.2.1 + (weights.map (·.violations.toNat)).sum,
      k.2.2 + (weights.map (·.hops.toNat)).sum) := by
  induction weights generalizing k with
  | nil => rfl
  | cons w rest ih =>
    rw [List.map_cons, List.map_cons, List.sum_cons, List.sum_cons, ← Nat.add_assoc,
      ← Nat.add_assoc]
    exact ih (totals.add k (totals.total w))

theorem sameOutcome {xs ys : List FlexWeight} (h : xs.Perm ys) (viable : ∀ x ∈ xs, Viable x) :
    SameOutcome ((xs.map (·.violations.toNat)).sum < 4294967295 ∧
      (xs.map (·.hops.toNat)).sum < 4294967295) (combineAll xs) (combineAll ys) := by
  have ends := totals.sameOutcome h viable
  change SameOutcome ((totals.totalFrom _ xs).2.1 < 4294967295 ∧
    (totals.totalFrom _ xs).2.2 < 4294967295) _ _ at ends
  rw [totalFrom_eq] at ends
  change SameOutcome (0 + _ < _ ∧ 0 + _ < _) _ _ at ends
  rwa [Nat.zero_add, Nat.zero_add] at ends

end FlexWeight

/-! ### All weights that count -/

/-- **Combining does not depend on the order.** Viable weights, in whichever order they are
    combined, are out of range exactly if a sum reaches the largest word; otherwise they combine
    to equal weights, and these are better than what must not be used. -/
theorem Weight.combineAll_perm :
    (∀ xs ys : List HopCount, xs.Perm ys → (∀ w ∈ xs, Viable w) →
      SameOutcome ((xs.map (·.count.toNat)).sum < 4294967295) (combineAll xs) (combineAll ys)) ∧
    (∀ xs ys : List Bandwidth, xs.Perm ys → (∀ w ∈ xs, Viable w) →
      SameOutcome ((xs.map (·.bitsPerSecond.toNat)).sum < 18446744073709551615) (combineAll xs)
        (combineAll ys)) ∧
    (∀ xs ys : List FlexWeight, xs.Perm ys → (∀ w ∈ xs, Viable w) →
      SameOutcome ((xs.map (·.violations.toNat)).sum < 4294967295 ∧
        (xs.map (·.hops.toNat)).sum < 4294967295) (combineAll xs) (combineAll ys)) := by
  refine ⟨?_, ?_, ?_⟩
  · intro xs ys h viable
    exact CountWeight.sameOutcome h viable
  · intro xs ys h viable
    exact CountWeight.sameOutcome h viable
  · intro xs ys h viable
    exact FlexWeight.sameOutcome h viable

/-- Two weights that differ in the sign of a zero. Their counts come to one below the largest
    word. -/
def FlexWeight.zeros : List FlexWeight := [.ofUsage (-0.0) 1 4294967287, .ofUsage 0.0 0 7]

/-- A sum one below the largest word, a sum that reaches it, and equal utilizations of which either
    order keeps another. -/
theorem Weight.combineAll_perm_edges :
    (combineAll [(⟨4294967290⟩ : HopCount), ⟨4⟩] = some ⟨4294967294⟩ ∧
      combineAll [(⟨4⟩ : HopCount), ⟨4294967290⟩] = some ⟨4294967294⟩) ∧
    (combineAll [(⟨9223372036854775808⟩ : Bandwidth), ⟨9223372036854775807⟩] = none ∧
      combineAll [(⟨9223372036854775807⟩ : Bandwidth), ⟨9223372036854775808⟩] = none) ∧
    ∃ a b, combineAll FlexWeight.zeros = some a ∧
      combineAll FlexWeight.zeros.reverse = some b ∧ (a == b) = true ∧
      less a nonViable = true ∧ a.usage.value.toBits ≠ b.usage.value.toBits := by
  obtain ⟨hops, bandwidth, flex⟩ := Weight.combineAll_perm
  refine ⟨?_, ?_, ?_⟩
  · have ends := hops [⟨4294967290⟩, ⟨4⟩] [⟨4⟩, ⟨4294967290⟩] (List.Perm.swap ..)
      (by simp only [Viable]; decide)
    obtain ⟨a, b, ha, hb, same, _⟩ := ends.equal (by decide)
    have sum : combineAll [(⟨4294967290⟩ : HopCount), ⟨4⟩] = some ⟨4294967294⟩ := by decide
    cases sum.symm.trans ha
    exact ⟨ha, hb.trans (congrArg some (eq_of_beq same).symm)⟩
  · have ends := bandwidth [⟨9223372036854775808⟩, ⟨9223372036854775807⟩]
      [⟨9223372036854775807⟩, ⟨9223372036854775808⟩] (List.Perm.swap ..)
      (by simp only [Viable]; decide)
    exact ends.overflow (by decide)
  · have ends := flex FlexWeight.zeros FlexWeight.zeros.reverse (List.reverse_perm _).symm
      (by simp only [Viable]; decide)
    obtain ⟨a, b, ha, hb, same, less, _⟩ := ends.equal (by decide)
    have signs : (combineAll FlexWeight.zeros).map (·.usage.value.toBits) ≠
        (combineAll FlexWeight.zeros.reverse).map (·.usage.value.toBits) := by decide +kernel
    rw [ha, hb] at signs
    exact ⟨a, b, ha, hb, same, less, fun bits => signs (congrArg some bits)⟩

end PathControl
