/-
  PathControl/Proofs/Weight/FlexWeight.lean
  =========================================
  **The weights made of readings, and where combining keeps their order.**

  Readings are ordered by their ranks, so both weights that contain one are lawful.

  The energy-aware weight compares saturation before anything else, but saturation
  is taken from a maximum. Of two ways the unsaturated one is the cheaper; once both
  run through a saturated switch, the other one may turn out to have been cheaper.
  Combining therefore keeps the order of two weights if they agree on saturation
  (`combine_mono`) or if no part of the first is higher (`combine_mono_of_parts`).
-/
import PathControl.Proofs.Weight.Counts
import PathControl.Weight.CpuUsage
import PathControl.Weight.FlexWeight

namespace PathControl

open Weight

/-! ### Readings -/

namespace Reading

instance : Std.TransOrd Reading := inferInstanceAs (Std.TransCmp (compareOn rank))

theorem beq_iff {a b : Reading} : (a == b) = true ↔ a.rank = b.rank := by
  change (a.rank == b.rank) = true ↔ _
  exact beq_iff_eq

theorem rank_max (a b : Reading) : (max a b).rank = Max.max a.rank b.rank := by
  simp only [max]
  split <;> omega

open Float.Model in
/-- All exponent bits are set in infinities and NaN only. -/
theorem exponent_ne_top {x : Float} (finite : x.isFinite = true) :
    @UnpackedFloat.unpackExponent Format.binary64 x.toBits.toBitVec ≠ -1#_ := by
  intro top
  change UnpackedFloat.isFinite (UnpackedFloat.unpack Format.binary64 x.toBits.toBitVec) = true
    at finite
  unfold UnpackedFloat.unpack at finite
  dsimp only at finite
  rw [if_pos top] at finite
  by_cases blank :
      @UnpackedFloat.unpackMantissa Format.binary64 x.toBits.toBitVec = 0#_
  · rw [if_pos blank] at finite
    cases finite
  · rw [if_neg blank] at finite
    cases finite

open Float.Model in
/-- Of the doubles with all exponent bits set, those with a mantissa are NaN. -/
theorem mantissa_eq_zero {x : Float} (number : x.isNaN = false)
    (top : @UnpackedFloat.unpackExponent Format.binary64 x.toBits.toBitVec = -1#_) :
    @UnpackedFloat.unpackMantissa Format.binary64 x.toBits.toBitVec = 0#_ := by
  change UnpackedFloat.isNaN (UnpackedFloat.unpack Format.binary64 x.toBits.toBitVec) = false
    at number
  unfold UnpackedFloat.unpack at number
  dsimp only at number
  rw [if_pos top] at number
  by_contra full
  rw [if_neg full] at number
  cases number

open Float.Model in
theorem magnitude_lt_iff (x : Float) :
    x.toBits.toNat % 0x8000000000000000 < 0x7ff0000000000000 ↔
      @UnpackedFloat.unpackExponent Format.binary64 x.toBits.toBitVec ≠ -1#_ := by
  have top : (-1#11 : BitVec 11).toNat = 2047 := rfl
  rw [Ne, ← BitVec.toNat_inj]
  simp only [UnpackedFloat.unpackExponent, BitVec.extractLsb, BitVec.extractLsb',
    BitVec.toNat_cast, BitVec.toNat_ofNat, Nat.shiftRight_eq_div_pow,
    UInt64.toNat_toBitVec]
  omega

/-- The magnitude of a finite double lies below that of infinity. -/
theorem magnitude_lt {x : Float} (finite : x.isFinite = true) :
    x.toBits.toNat % 0x8000000000000000 < 0x7ff0000000000000 :=
  (magnitude_lt_iff x).2 (exponent_ne_top finite)

open Float.Model in
/-- Only a double that is not a number has a greater magnitude than infinity. -/
theorem magnitude_le {x : Float} (number : x.isNaN = false) :
    x.toBits.toNat % 0x8000000000000000 ≤ 0x7ff0000000000000 := by
  by_cases top : @UnpackedFloat.unpackExponent Format.binary64 x.toBits.toBitVec = -1#_
  · have blank := mantissa_eq_zero number top
    have full : (-1#11 : BitVec 11).toNat = 2047 := rfl
    rw [← BitVec.toNat_inj] at top blank
    simp only [UnpackedFloat.unpackExponent, UnpackedFloat.unpackMantissa, BitVec.extractLsb,
      BitVec.extractLsb', BitVec.toNat_cast, BitVec.toNat_ofNat, Nat.shiftRight_eq_div_pow,
      UInt64.toNat_toBitVec] at top blank
    omega
  · exact Nat.le_of_lt ((magnitude_lt_iff x).2 top)

theorem isNaN_eq_false {x : Float} (finite : x.isFinite = true) : x.isNaN = false := by
  unfold Float.isFinite Float.Model.isFinite Float.Model.UnpackedFloat.isFinite at finite
  unfold Float.isNaN Float.Model.isNaN Float.Model.UnpackedFloat.isNaN
  split at finite
  · cases finite
  · next h => rw [h]
  · next h => rw [h]
  · next h => rw [h]

theorem rank_infinity : infinity.rank = 0x7ff0000000000000 := by decide

theorem rank_lt_infinity {r : Reading} (finite : r.value.isFinite = true) :
    r.rank < infinity.rank := by
  have low := magnitude_lt finite
  have bits := r.value.toBits.toNat_lt
  rw [rank_infinity]
  simp only [rank]
  split <;> omega

theorem rank_le_infinity (r : Reading) : r.rank ≤ infinity.rank := by
  have low := magnitude_le r.notNaN
  have bits := r.value.toBits.toNat_lt
  rw [rank_infinity]
  simp only [rank]
  split <;> omega

end Reading

/-! ### Utilization summed along a path -/

namespace CpuUsage

theorem isNonViable_iff (w : CpuUsage) :
    isNonViable w = true ↔ w.total.rank = Reading.infinity.rank :=
  Reading.beq_iff

/-- A finite sum is below the infinite one. -/
theorem rank_ofFloat_lt {x : Float} (finite : x.isFinite = true) :
    (ofFloat x).total.rank < Reading.infinity.rank := by
  unfold ofFloat Reading.ofFloat?
  rw [dif_pos (Reading.isNaN_eq_false finite)]
  exact Reading.rank_lt_infinity finite

instance : LawfulWeight CpuUsage where
  toTransCmp := inferInstanceAs (Std.TransCmp (compareOn total))
  isNonViable_nonViable := (isNonViable_iff _).2 rfl
  viable_of_combine {a b c} h hc := by
    change combine a b = some c at h
    simp only [combine] at h
    split at h
    · cases h
      exact absurd ((isNonViable_iff nonViable).2 rfl) (Bool.eq_false_iff.1 hc)
    · next viable =>
      rw [Bool.or_eq_true, not_or, Bool.not_eq_true, Bool.not_eq_true] at viable
      exact viable
  less_nonViable_of_combine {a b c} h hc := by
    change combine a b = some c at h
    unfold combine at h
    split at h
    · cases h
      exact absurd ((isNonViable_iff nonViable).2 rfl) (Bool.eq_false_iff.1 hc)
    · next viable =>
      dsimp only at h
      split at h
      · next finite =>
        cases h
        rw [less, Ordering.isLT_iff_eq_lt]
        exact Int.compare_eq_lt.2 (rank_ofFloat_lt finite)
      · cases h

instance : ClosedWeight CpuUsage where
  viable_initial := by
    simp only [Viable]
    decide
  viable_of_parts {a b c} h ha hb := by
    change combine a b = some c at h
    have usable : (a.total == nonViable.total || b.total == nonViable.total) = false :=
      Bool.or_eq_false_iff.2 ⟨ha, hb⟩
    simp only [combine] at h
    rw [if_neg (by rw [usable]; exact Bool.noConfusion)] at h
    split at h
    · next finite =>
      cases h
      simp only [Viable]
      rw [← Bool.not_eq_true, isNonViable_iff]
      exact Int.ne_of_lt (rank_ofFloat_lt finite)
    · cases h

end CpuUsage

/-! ### The energy-aware weight -/

namespace FlexWeight

instance : Std.TransOrd FlexWeight :=
  inferInstanceAs (Std.TransCmp (compareLex (compareOn saturated)
    (compareLex (compareOn violations) (compareLex (compareOn hops) (compareOn usage)))))

theorem saturated_iff (w : FlexWeight) :
    w.saturated = true ↔ Reading.one.rank ≤ w.usage.rank := decide_eq_true_iff

theorem beq_iff {a b : FlexWeight} : (a == b) = true ↔ a.usage.rank = b.usage.rank ∧
    a.violations.toNat = b.violations.toNat ∧ a.hops.toNat = b.hops.toNat := by
  change ((a.usage == b.usage && a.violations == b.violations) && a.hops == b.hops) = true ↔ _
  rw [Bool.and_eq_true, Bool.and_eq_true, Reading.beq_iff, beq_iff_eq, beq_iff_eq, and_assoc,
    ← UInt32.toNat_inj, ← UInt32.toNat_inj]

theorem isNonViable_iff (w : FlexWeight) : isNonViable w = true ↔
    w.usage.rank = Reading.largest.rank ∧ w.violations.toNat = 4294967295 ∧
      w.hops.toNat = 4294967295 :=
  beq_iff

theorem saturated_eq_false_iff (w : FlexWeight) :
    w.saturated = false ↔ w.usage.rank < Reading.one.rank := by
  rw [Bool.eq_false_iff, Ne, saturated_iff, Int.not_le]

/-- Saturation decides first, then the violations, then the links, then the utilization. -/
theorem le_iff (a b : FlexWeight) : Le a b ↔
    a.saturated = false ∧ b.saturated = true ∨ a.saturated = b.saturated ∧
      (a.violations.toNat < b.violations.toNat ∨ a.violations.toNat = b.violations.toNat ∧
        (a.hops.toNat < b.hops.toNat ∨ a.hops.toNat = b.hops.toNat ∧
          a.usage.rank ≤ b.usage.rank)) := by
  change ((compare a.saturated b.saturated).then <|
    (compare a.violations b.violations).then <|
      (compare a.hops b.hops).then (compare a.usage.rank b.usage.rank)).isLE = true ↔ _
  rw [UInt32.compare_eq_toNat_compare_toNat, UInt32.compare_eq_toNat_compare_toNat,
    Ordering.isLE_then_iff_or, Ordering.isLE_then_iff_or, Ordering.isLE_then_iff_or,
    Nat.compare_eq_lt, Nat.compare_eq_eq, Nat.compare_eq_lt, Nat.compare_eq_eq, Int.isLE_compare]
  cases a.saturated <;> cases b.saturated <;> simp [compare]

/-- What costs no less than a saturated weight is saturated. -/
theorem saturated_of_le {a b : FlexWeight} (le : Le a b) (high : a.saturated = true) :
    b.saturated = true := by
  rcases (le_iff _ _).1 le with ⟨low, _⟩ | ⟨agree, _⟩
  · rw [high] at low
    cases low
  · rw [← agree, high]

theorem unsaturated_of_le {a b : FlexWeight} (le : Le a b) (low : b.saturated = false) :
    a.saturated = false := by
  rw [← Bool.not_eq_true] at low ⊢
  intro high
  exact low (saturated_of_le le high)

theorem addCounts_eq_some_iff {a b c : UInt32} : addCounts a b = some c ↔
    c.toNat = a.toNat + b.toNat ∧ a.toNat + b.toNat < 4294967295 := by
  simp only [addCounts]
  split
  · rw [Option.some_inj, ← UInt32.toNat_inj, UInt32.toNat_ofNat']
    omega
  · simp only [reduceCtorEq, false_iff]
    omega

/-- The parts of a weight that two viable weights combine to. -/
structure Combined (a b c : FlexWeight) : Prop where
  usage : c.usage.rank = Max.max a.usage.rank b.usage.rank
  violations : c.violations.toNat = a.violations.toNat + b.violations.toNat
  hops : c.hops.toNat = a.hops.toNat + b.hops.toNat
  inRange : c.violations.toNat < 4294967295

theorem viable_of_combine {a b c : FlexWeight} (h : Weight.combine a b = some c)
    (hc : Viable c) : Viable a ∧ Viable b := by
  change combine a b = some c at h
  simp only [combine] at h
  split at h
  · cases h
    exact absurd ((isNonViable_iff nonViable).2 ⟨rfl, rfl, rfl⟩) (Bool.eq_false_iff.1 hc)
  · next viable =>
    rw [Bool.or_eq_true, not_or, Bool.not_eq_true, Bool.not_eq_true] at viable
    exact viable

/-- Two viable weights combine part by part. -/
theorem parts_of_combine {a b c : FlexWeight} (h : Weight.combine a b = some c) (ha : Viable a)
    (hb : Viable b) : c.usage = Reading.max a.usage b.usage ∧
      addCounts a.violations b.violations = some c.violations ∧
      addCounts a.hops b.hops = some c.hops := by
  change combine a b = some c at h
  change (a == nonViable) = false at ha
  change (b == nonViable) = false at hb
  simp only [combine] at h
  rw [ha, hb] at h
  simp only [Bool.or_self, Bool.false_eq_true, if_false, Option.bind_eq_bind,
    Option.bind_eq_some_iff, Option.pure_def, Option.some_inj] at h
  obtain ⟨v, hv, n, hn, rfl⟩ := h
  exact ⟨rfl, hv, hn⟩

theorem combined {a b c : FlexWeight} (h : Weight.combine a b = some c) (ha : Viable a)
    (hb : Viable b) : Combined a b c := by
  obtain ⟨usage, violations, hops⟩ := parts_of_combine h ha hb
  obtain ⟨hv, range⟩ := addCounts_eq_some_iff.1 violations
  exact ⟨usage ▸ Reading.rank_max _ _, hv, (addCounts_eq_some_iff.1 hops).1, hv ▸ range⟩

theorem hops_lt_of_combine {a b c : FlexWeight} (h : Weight.combine a b = some c) (ha : Viable a)
    (hb : Viable b) : c.hops.toNat < 4294967295 := by
  obtain ⟨_, _, hops⟩ := parts_of_combine h ha hb
  obtain ⟨sum, range⟩ := addCounts_eq_some_iff.1 hops
  rwa [sum]

theorem combined_of_viable {a b c : FlexWeight} (h : Weight.combine a b = some c)
    (hc : Viable c) : Combined a b c := by
  obtain ⟨ha, hb⟩ := viable_of_combine h hc
  exact combined h ha hb

theorem viable_of_inRange {w : FlexWeight} (range : w.violations.toNat < 4294967295) :
    Viable w := by
  simp only [Viable]
  rw [← Bool.not_eq_true, isNonViable_iff]
  omega

theorem Combined.viable {a b c : FlexWeight} (h : Combined a b c) : Viable c :=
  viable_of_inRange h.inRange

/-- A weight that can be used, by its parts. -/
structure Counts (w : FlexWeight) (usage : Int) (violations hops : Nat) : Prop where
  viable : Viable w
  usage : w.usage.rank = usage
  violations : w.violations.toNat = violations
  hops : w.hops.toNat = hops

/-- Weights combine as long as the counts stay in range. -/
theorem Counts.exists_combine {a b : FlexWeight} {u u' : Int} {v v' h h' : Nat}
    (ha : a.Counts u v h) (hb : b.Counts u' v' h') (violations : v + v' < 4294967295)
    (hops : h + h' < 4294967295) :
    ∃ c, Weight.combine a b = some c ∧ c.Counts (Max.max u u') (v + v') (h + h') := by
  obtain ⟨viableA, rfl, rfl, rfl⟩ := ha
  obtain ⟨viableB, rfl, rfl, rfl⟩ := hb
  have sum {m n : UInt32} (range : m.toNat + n.toNat < 4294967295) :
      ∃ k, addCounts m n = some k := by
    simp only [addCounts]
    rw [if_pos range]
    exact ⟨_, rfl⟩
  obtain ⟨v, hv⟩ := sum violations
  obtain ⟨n, hn⟩ := sum hops
  have total : Weight.combine a b = some ⟨Reading.max a.usage b.usage, v, n⟩ := by
    have usableA : (a == nonViable) = false := viableA
    have usableB : (b == nonViable) = false := viableB
    change combine a b = _
    simp only [combine]
    rw [usableA, usableB, hv, hn]
    rfl
  have parts := combined total viableA viableB
  exact ⟨_, total, parts.viable, parts.usage, parts.violations, parts.hops⟩

/-- What must not be used is no better than a weight whose violations are in range. -/
theorem le_of_not_viable {a b : FlexWeight} (range : a.violations.toNat < 4294967295)
    (unusable : ¬ Viable b) : Le a b := by
  simp only [Viable] at unusable
  rw [Bool.not_eq_false, isNonViable_iff] at unusable
  obtain ⟨usage, violations, _⟩ := unusable
  have full : b.saturated = true := (saturated_iff b).2 (usage ▸ by decide)
  rw [le_iff, full, violations]
  cases a.saturated with
  | false => exact Or.inl ⟨rfl, rfl⟩
  | true => exact Or.inr ⟨rfl, Or.inl range⟩

/-- Violations in range are fewer than those of what must not be used. -/
theorem less_nonViable_of_inRange {w : FlexWeight} (range : w.violations.toNat < 4294967295) :
    less w Weight.nonViable = true := by
  have top : (nonViable : FlexWeight).violations.toNat = 4294967295 := rfl
  have full : (nonViable : FlexWeight).saturated = true := by decide
  rw [less_iff, le_iff]
  change ¬ ((nonViable : FlexWeight).saturated = false ∧ _ ∨ _ ∧ (nonViable.violations.toNat < _ ∨
    nonViable.violations.toNat = _ ∧ _))
  rw [top, full]
  rintro (⟨low, _⟩ | ⟨_, h⟩)
  · cases low
  · omega

instance : LawfulWeight FlexWeight where
  isNonViable_nonViable := (isNonViable_iff _).2 ⟨rfl, rfl, rfl⟩
  viable_of_combine := viable_of_combine
  less_nonViable_of_combine h hc := less_nonViable_of_inRange (combined_of_viable h hc).inRange

instance : ClosedWeight FlexWeight where
  viable_initial := by
    simp only [Viable]
    decide
  viable_of_parts h ha hb := (combined h ha hb).viable

theorem Combined.saturated {a b c : FlexWeight} (h : Combined a b c) :
    c.saturated = (a.saturated || b.saturated) := by
  rw [Bool.eq_iff_iff, Bool.or_eq_true, saturated_iff, saturated_iff, saturated_iff, h.usage]
  omega

/-- A longer way costs no less. -/
theorem Combined.le {a b c : FlexWeight} (h : Combined a b c) : Le a c := by
  have := h.usage
  have := h.violations
  have := h.hops
  rw [le_iff, h.saturated]
  cases a.saturated <;> cases b.saturated <;> simp <;> omega

/-- Of two ways that agree on saturation, the cheaper one stays the cheaper one when both go on
    along the same link. -/
theorem combine_mono {a b e a' b' : FlexWeight} (agree : a.saturated = b.saturated)
    (hab : Le a b) (ha : Combined a e a') (hb : Combined b e b') : Le a' b' := by
  have := ha.usage
  have := ha.violations
  have := ha.hops
  have := hb.usage
  have := hb.violations
  have := hb.hops
  rw [le_iff] at hab ⊢
  rw [ha.saturated, hb.saturated, agree]
  refine Or.inr ⟨rfl, ?_⟩
  rcases hab with ⟨low, high⟩ | ⟨_, hab⟩
  · rw [agree, high] at low
    cases low
  · omega

/-- A way that is no higher than another in any part stays no more expensive when both go on
    along the same link. -/
theorem combine_mono_of_parts {a b e a' b' : FlexWeight} (usage : a.usage.rank ≤ b.usage.rank)
    (violations : a.violations.toNat ≤ b.violations.toNat) (hops : a.hops.toNat ≤ b.hops.toNat)
    (ha : Combined a e a') (hb : Combined b e b') : Le a' b' := by
  have := ha.usage
  have := ha.violations
  have := ha.hops
  have := hb.usage
  have := hb.violations
  have := hb.hops
  have low := saturated_iff a'
  have high := saturated_iff b'
  rw [le_iff]
  cases hs : a'.saturated <;> cases hs' : b'.saturated <;> simp [hs, hs'] at low high ⊢ <;> omega

end FlexWeight

end PathControl
