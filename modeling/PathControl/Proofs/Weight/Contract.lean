/-
  PathControl/Proofs/Weight/Contract.lean
  =======================================
  **Where the energy-aware weight keeps the contract of weights.**

  The contract asks for a total order, a non-viable weight that is worse than every
  other and absorbs it, and an initial weight that changes nothing. The order and
  the absorption hold for all weights. The other two fail on weights that can be
  built like any other: the largest finite utilization is not the greatest reading,
  zero is not the least one, and a weight may have one count at the largest word
  without being non-viable.

  Every weight is the weight of some utilization and counts (`ofUsage_parts`), so
  what follows is about all weights that can be built.
-/
import PathControl.Proofs.Weight.FlexWeight

namespace PathControl.FlexWeight

open Weight

/-- Building a weight from the parts of another gives that one back. -/
theorem ofUsage_parts (w : FlexWeight) : ofUsage w.usage.value w.violations w.hops = w := by
  simp only [ofUsage, Reading.ofFloat?]
  rw [dif_pos w.usage.notNaN]
  rfl

/-! ### Comparing -/

instance : Std.LawfulBEqOrd FlexWeight where
  compare_eq_iff_beq {a b} := by
    rw [beq_iff]
    change ((compare a.saturated b.saturated).then <| (compare a.violations b.violations).then <|
      (compare a.hops b.hops).then (compare a.usage.rank b.usage.rank)) = .eq ↔ _
    rw [Ordering.then_eq_eq, Ordering.then_eq_eq, Ordering.then_eq_eq,
      UInt32.compare_eq_toNat_compare_toNat, UInt32.compare_eq_toNat_compare_toNat,
      Nat.compare_eq_eq, Nat.compare_eq_eq, Int.compare_eq_eq]
    refine ⟨fun ⟨_, violations, hops, usage⟩ => ⟨usage, violations, hops⟩, ?_⟩
    rintro ⟨usage, violations, hops⟩
    -- Readings of one rank are saturated alike.
    have agree : a.saturated = b.saturated := by simp only [saturated, usage]
    exact ⟨by rw [agree, Std.ReflOrd.compare_self], violations, hops, usage⟩

/-! ### The worst weight -/

/-- The greatest of all weights: the counts of the non-viable weight under a utilization above
    its own. -/
def worst : FlexWeight := ⟨Reading.infinity, 4294967295, 4294967295⟩

theorem nonViable_le_iff_parts (a : FlexWeight) : Le Weight.nonViable a ↔
    Reading.largest.rank ≤ a.usage.rank ∧ a.violations.toNat = 4294967295 ∧
      a.hops.toNat = 4294967295 := by
  have violations := a.violations.toNat_lt
  have hops := a.hops.toNat_lt
  have word : (4294967295 : UInt32).toNat = 4294967295 := rfl
  constructor
  · intro le
    rcases (le_iff nonViable a).1 le with ⟨low, _⟩ | ⟨_, le⟩
    · exact absurd low (by decide)
    · simp only [nonViable, word] at le
      omega
  · rintro ⟨usage, violations, hops⟩
    have high : a.saturated = true := (saturated_iff a).2 (Int.le_trans (by decide) usage)
    exact (le_iff nonViable a).2 (.inr ⟨high.symm, .inr ⟨violations.symm,
      .inr ⟨hops.symm, usage⟩⟩⟩)

/-- No better than the non-viable weight are itself and the worst one. -/
theorem nonViable_le_iff (a : FlexWeight) :
    Le Weight.nonViable a ↔ (a == Weight.nonViable) = true ∨ (a == worst) = true := by
  have highest := Reading.rank_le_infinity a.usage
  have next : Reading.infinity.rank = Reading.largest.rank + 1 := by decide
  rw [nonViable_le_iff_parts, beq_iff, beq_iff]
  change _ ↔ (a.usage.rank = Reading.largest.rank ∧ a.violations.toNat = 4294967295 ∧
      a.hops.toNat = 4294967295) ∨
    (a.usage.rank = Reading.infinity.rank ∧ a.violations.toNat = 4294967295 ∧
      a.hops.toNat = 4294967295)
  omega

theorem less_nonViable_iff (a : FlexWeight) : less a Weight.nonViable = true ↔
    (a == Weight.nonViable) = false ∧ (a == worst) = false := by
  rw [less_iff, nonViable_le_iff, not_or, Bool.not_eq_true, Bool.not_eq_true]

/-! ### Starting and absorbing -/

/-- A weight with a utilization that is not negative and counts below the largest word. -/
structure InRange (w : FlexWeight) : Prop where
  usage : Reading.zero.rank ≤ w.usage.rank
  violations : w.violations.toNat < 4294967295
  hops : w.hops.toNat < 4294967295

theorem inRange_initial : InRange Weight.initial :=
  ⟨by decide, by decide, by decide⟩

/-- Combining does not leave the range unless it fails. -/
theorem InRange.combine {a b c : FlexWeight} (ha : InRange a) (hb : InRange b)
    (h : Weight.combine a b = some c) : InRange c := by
  have viable := viable_of_inRange ha.violations
  have viable' := viable_of_inRange hb.violations
  obtain ⟨usage, violations, hops, inRange⟩ := combined h viable viable'
  refine ⟨?_, inRange, hops_lt_of_combine h viable viable'⟩
  rw [usage]
  exact Int.le_trans ha.usage (Int.le_max_left _ _)

/-- So the running sum of weights in range is in range for as long as there is one. -/
theorem InRange.foldlM {ws : List FlexWeight} (parts : ∀ w ∈ ws, InRange w) {a c : FlexWeight}
    (ha : InRange a) (sum : ws.foldlM Weight.combine a = some c) : InRange c := by
  induction ws generalizing a with
  | nil =>
    cases sum
    exact ha
  | cons w ws ih =>
    obtain ⟨b, head, sum⟩ := Option.bind_eq_some_iff.1 sum
    have hw := parts w List.mem_cons_self
    exact ih (fun v hv => parts v (List.mem_cons_of_mem w hv)) (ha.combine hw head) sum

theorem combine_of_unusable {a b : FlexWeight}
    (unusable : (a == nonViable) = true ∨ (b == nonViable) = true) :
    Weight.combine a b = some Weight.nonViable := by
  change combine a b = some nonViable
  simp only [combine]
  rw [if_pos (Bool.or_eq_true_iff.2 unusable)]

/-- The initial weight changes nothing in range, nor the non-viable weight. -/
theorem combine_initial_iff (a : FlexWeight) :
    (∃ c, Weight.combine Weight.initial a = some c ∧ (c == a) = true) ↔
      (a == Weight.nonViable) = true ∨ InRange a := by
  have viable : Viable (Weight.initial : FlexWeight) := ClosedWeight.viable_initial
  constructor
  · -- a sum that is the weight itself has its parts, and sums are in range
    rintro ⟨c, sum, same⟩
    rw [or_iff_not_imp_left, Bool.not_eq_true]
    intro viable'
    obtain ⟨usage, violations, hops⟩ := beq_iff.1 same
    have parts := combined sum viable viable'
    have bound := hops_lt_of_combine sum viable viable'
    refine ⟨?_, violations ▸ parts.inRange, hops ▸ bound⟩
    rw [← usage, parts.usage]
    exact Int.le_max_left _ _
  · rintro (unusable | range)
    · refine ⟨Weight.nonViable, combine_of_unusable (.inr unusable), ?_⟩
      obtain ⟨usage, violations, hops⟩ := beq_iff.1 unusable
      exact beq_iff.2 ⟨usage.symm, violations.symm, hops.symm⟩
    · have own : a.Counts a.usage.rank a.violations.toNat a.hops.toNat :=
        ⟨viable_of_inRange range.violations, rfl, rfl, rfl⟩
      have start : (Weight.initial : FlexWeight).Counts Reading.zero.rank 0 0 :=
        ⟨viable, rfl, rfl, rfl⟩
      have low := range.violations
      have low' := range.hops
      obtain ⟨c, sum, parts⟩ := start.exists_combine own (by omega) (by omega)
      refine ⟨c, sum, beq_iff.2 ⟨?_, ?_, ?_⟩⟩
      · rw [parts.usage, Int.max_eq_right range.usage]
      · rw [parts.violations, Nat.zero_add]
      · rw [parts.hops, Nat.zero_add]

/-! ### The contract -/

/-- Weights are totally ordered, with equal weights and no others at the same place, and the
    non-viable weight absorbs every other. It is worse than every other except the worst, and
    the initial weight changes nothing exactly in range and at the non-viable weight. -/
theorem contract_iff (a b c : FlexWeight) :
    (compare b a = (compare a b).swap ∧ (compare a b = .eq ↔ (a == b) = true) ∧
      (Le a b → Le b c → Le a c)) ∧
    (less a Weight.nonViable = true ↔
      (a == Weight.nonViable) = false ∧ (a == worst) = false) ∧
    ((∃ d, Weight.combine Weight.initial a = some d ∧ (d == a) = true) ↔
      (a == Weight.nonViable) = true ∨ InRange a) ∧
    Weight.combine a Weight.nonViable = some Weight.nonViable := by
  refine ⟨⟨?_, ?_, Le.trans⟩, less_nonViable_iff a, combine_initial_iff a, ?_⟩
  · exact Std.OrientedOrd.eq_swap
  · exact Std.LawfulBEqCmp.compare_eq_iff_beq
  · exact combine_of_unusable (.inr (beq_iff.2 ⟨rfl, rfl, rfl⟩))

/-- An infinite utilization with full counts is no better than the non-viable weight. The initial
    weight raises a negative utilization to zero and does not combine with a full count. -/
theorem not_contract :
    (ofUsage (Float.ofBits 0x7ff0000000000000) 4294967295 4294967295 = worst ∧
      (worst == Weight.nonViable) = false ∧ less worst Weight.nonViable = false) ∧
    (Weight.combine Weight.initial (ofUsage (-0.5) 0 0) = some (ofUsage 0.0 0 0) ∧
      (ofUsage 0.0 0 0 == ofUsage (-0.5) 0 0) = false) ∧
    Weight.combine Weight.initial (ofUsage 0.5 4294967295 0) = none := by
  refine ⟨⟨ofUsage_parts worst, by decide, by decide⟩, ⟨?_, by decide⟩, ?_⟩
  · rfl
  · rfl

end PathControl.FlexWeight
