/-
  PathControl/Proofs/Flow/Order.lean
  ==================================
  **Sorted flows do not depend on how they came in.**

  Of two addresses the one with the smaller number comes first, and that is the one
  with the smaller octet where they first differ (`MacAddress.compare_eq_lt_iff`). So
  the order of flows goes through the fields of a flow one by one, octet by octet
  within an address (`Flow.lt_iff_before`). It is total, and flows at one place of it
  are the same flow; a list of flows can then be sorted in one way only.
-/
import PathControl.Proofs.Address
import Mathlib.Data.List.Sort
import Mathlib.Data.Prod.Lex

namespace PathControl

/-! ### Octets -/

/-- The number that octets make up after the digits of `n`, the most significant first. -/
def numberAfter (n : Nat) (octets : List UInt8) : Nat :=
  octets.foldl (fun n o => n * 256 + o.toNat) n

theorem numberAfter_cons (n : Nat) (o : UInt8) (octets : List UInt8) :
    numberAfter n (o :: octets) = numberAfter (n * 256 + o.toNat) octets := rfl

theorem numberAfter_lt_of_lt {n m : Nat} {octets others : List UInt8} (less : n < m)
    (same : octets.length = others.length) : numberAfter n octets < numberAfter m others := by
  induction octets generalizing n m others with
  | nil =>
    obtain rfl := List.length_eq_zero_iff.1 same.symm
    exact less
  | cons o octets ih =>
    rcases others with _ | ⟨o', others⟩
    · cases same
    have digit := o.toNat_lt
    rw [numberAfter_cons, numberAfter_cons]
    exact ih (by omega) (Nat.succ_injective same)

/-- Numbers of as many octets are in the order of the octets where they first differ. -/
theorem numberAfter_lt_iff {n : Nat} {octets others : List UInt8}
    (same : octets.length = others.length) :
    numberAfter n octets < numberAfter n others ↔ octets < others := by
  induction octets generalizing n others with
  | nil =>
    obtain rfl := List.length_eq_zero_iff.1 same.symm
    exact iff_of_false (Nat.lt_irrefl _) (List.lt_irrefl _)
  | cons o octets ih =>
    rcases others with _ | ⟨o', others⟩
    · cases same
    have rest : octets.length = others.length := Nat.succ_injective same
    rw [List.cons_lt_cons_iff, numberAfter_cons, numberAfter_cons, UInt8.lt_iff_toNat_lt,
      ← UInt8.toNat_inj]
    rcases Nat.lt_trichotomy o.toNat o'.toNat with less | equal | greater
    · exact iff_of_true (numberAfter_lt_of_lt (by omega) rest) (.inl less)
    · rw [equal, ih rest]
      simp
    · have above := numberAfter_lt_of_lt (show n * 256 + o'.toNat < n * 256 + o.toNat by omega)
        rest.symm
      exact iff_of_false (by omega) (by omega)

theorem Ipv4Address.numberAfter_octets (a : Ipv4Address) :
    numberAfter 0 a.octets = a.value.toNat := by
  have bound := a.value.toNat_lt
  simp only [octets, numberAfter, List.foldl_cons, List.foldl_nil, UInt32.toNat_toUInt8,
    UInt32.toNat_shiftRight, UInt32.reduceToNat, Nat.reduceMod, Nat.shiftRight_eq_div_pow]
  omega

theorem MacAddress.numberAfter_octets (a : MacAddress) :
    numberAfter 0 a.octets = a.value.toNat := by
  have bound := a.value.isLt
  simp only [octets, numberAfter, List.map_cons, List.map_nil, List.foldl_cons, List.foldl_nil,
    UInt8.toNat_ofBitVec, BitVec.extractLsb'_toNat, Nat.shiftRight_eq_div_pow]
  omega

theorem Ipv4Address.compare_eq_lt_iff {a b : Ipv4Address} :
    compare a b = .lt ↔ a.octets < b.octets := by
  rw [compare_eq, Nat.compare_eq_lt, ← numberAfter_octets, ← numberAfter_octets]
  exact numberAfter_lt_iff rfl

theorem MacAddress.compare_eq_lt_iff {a b : MacAddress} :
    compare a b = .lt ↔ a.octets < b.octets := by
  rw [compare_eq, Nat.compare_eq_lt, ← numberAfter_octets, ← numberAfter_octets]
  exact numberAfter_lt_iff rfl

theorem Ipv4Address.compare_eq_eq_iff {a b : Ipv4Address} :
    compare a b = .eq ↔ a.octets = b.octets := by
  rw [compare_eq, Nat.compare_eq_eq, toNat_inj, octets_injective.eq_iff]

theorem MacAddress.compare_eq_eq_iff {a b : MacAddress} :
    compare a b = .eq ↔ a.octets = b.octets := by
  rw [compare_eq, Nat.compare_eq_eq, toNat_inj, octets_injective.eq_iff]

/-! ### Flows -/

namespace Flow

instance : LT Flow := ltOfOrd

instance : DecidableLT Flow := fun a b => inferInstanceAs (Decidable (compare a b = .lt))

/-- Frames before packets; within a kind the first field that differs decides, addresses by their
octets, and the priority is the last field. -/
def Before (a b : Flow) : Prop :=
  match a.key, b.key with
  | .ethernet t s d, .ethernet t' s' d' =>
    toLex (t, toLex (s.octets, toLex (d.octets, a.priority))) <
      toLex (t', toLex (s'.octets, toLex (d'.octets, b.priority)))
  | .ethernet .., .ipv4 .. => True
  | .ipv4 .., .ethernet .. => False
  | .ipv4 s d p sp dp, .ipv4 s' d' p' sp' dp' =>
    toLex (s.octets, toLex (d.octets, toLex (p, toLex (sp, toLex (dp, a.priority))))) <
      toLex (s'.octets, toLex (d'.octets, toLex (p', toLex (sp', toLex (dp', b.priority)))))

def sort (flows : List Flow) : List Flow := flows.mergeSort fun a b => (compare a b).isLE

variable {a b : Flow} {flows others : List Flow}

theorem lt_iff_before : a < b ↔ a.Before b := by
  obtain ⟨k, priority⟩ := a
  obtain ⟨k', priority'⟩ := b
  change (compare k k').then (compare priority priority') = .lt ↔ _
  rcases k with ⟨t, s, d⟩ | ⟨s, d, p, sp, dp⟩ <;>
    rcases k' with ⟨t', s', d'⟩ | ⟨s', d', p', sp', dp'⟩
  · change ((compare t t').then ((compare s s').then (compare d d'))).then _ = .lt ↔ _
    simp only [Before, Prod.Lex.toLex_lt_toLex, Ordering.then_assoc, Ordering.then_eq_lt,
      Std.compare_eq_lt, Std.LawfulEqCmp.compare_eq_iff_eq, MacAddress.compare_eq_lt_iff,
      MacAddress.compare_eq_eq_iff]
  · exact iff_of_true rfl trivial
  · refine iff_of_false ?_ id
    rintro ⟨⟩
  · change ((compare s s').then ((compare d d').then ((compare p p').then
      ((compare sp sp').then (compare dp dp'))))).then _ = .lt ↔ _
    simp only [Before, Prod.Lex.toLex_lt_toLex, Ordering.then_assoc, Ordering.then_eq_lt,
      Std.compare_eq_lt, Std.LawfulEqCmp.compare_eq_iff_eq, Ipv4Address.compare_eq_lt_iff,
      Ipv4Address.compare_eq_eq_iff]

theorem compare_eq_eq_iff : compare a b = .eq ↔ a.key = b.key ∧ a.priority = b.priority := by
  rw [Std.LawfulEqCmp.compare_eq_iff_eq]
  cases a
  cases b
  exact mk.injEq .. ▸ Iff.rfl

theorem isLE_iff : (compare a b).isLE ↔ ¬ b < a := by
  rw [Ordering.isLE_iff_ne_gt, Std.OrientedCmp.gt_iff_lt]
  rfl

/-- Of two flows one comes before the other, or they are the same. -/
theorem lt_trichotomy (a b : Flow) :
    (a < b ∧ ¬ b < a ∧ a ≠ b) ∨ (¬ a < b ∧ b < a ∧ a ≠ b) ∨ (¬ a < b ∧ ¬ b < a ∧ a = b) := by
  have away {a b : Flow} (less : a < b) : ¬ b < a ∧ a ≠ b := by
    refine ⟨Std.OrientedCmp.not_lt_of_lt less, ?_⟩
    rintro rfl
    exact Std.OrientedCmp.not_lt_of_lt less less
  rcases order : compare a b
  · exact .inl ⟨order, away order⟩
  · obtain rfl := Std.LawfulEqCmp.eq_of_compare order
    have still : ¬ a < a := fun less => (away less).2 rfl
    exact .inr (.inr ⟨still, still, rfl⟩)
  · have less : b < a := Std.OrientedCmp.lt_of_gt order
    exact .inr (.inl ⟨(away less).1, less, (away less).2.symm⟩)

/-! ### Sorting -/

/-- Two arrangements of the same flows in order are one. -/
theorem eq_of_ordered (same : flows.Perm others) (ordered : flows.Pairwise fun a b => ¬ b < a)
    (ordered' : others.Pairwise fun a b => ¬ b < a) : flows = others := by
  refine same.eq_of_pairwise ?_ ordered ordered'
  intro a b _ _ notAfter notBefore
  rcases lt_trichotomy a b with ⟨less, _⟩ | ⟨_, less, _⟩ | ⟨_, _, rfl⟩
  · exact absurd less notBefore
  · exact absurd less notAfter
  · rfl

theorem sort_perm (flows : List Flow) : (sort flows).Perm flows := List.mergeSort_perm ..

theorem sort_ordered (flows : List Flow) : (sort flows).Pairwise fun a b => ¬ b < a := by
  have ordered : (sort flows).Pairwise fun a b => (compare a b).isLE := by
    apply List.pairwise_mergeSort
    · intro a b c
      exact Std.TransCmp.isLE_trans
    · intro a b
      rw [Bool.or_eq_true, isLE_iff, isLE_iff]
      rcases lt_trichotomy a b with ⟨_, other, _⟩ | ⟨other, _⟩ | ⟨other, _⟩
      · exact .inl other
      · exact .inr other
      · exact .inr other
  exact ordered.imp isLE_iff.1

theorem eq_sort_iff : others = sort flows ↔
    others.Perm flows ∧ others.Pairwise fun a b => ¬ b < a := by
  constructor
  · rintro rfl
    exact ⟨sort_perm flows, sort_ordered flows⟩
  · rintro ⟨same, ordered⟩
    exact eq_of_ordered (same.trans (sort_perm flows).symm) ordered (sort_ordered flows)

/-- **Flows are totally ordered by all their fields.** Of two flows exactly one comes before the
other or they are the same, with equal keys and priorities. All frames come before all packets, and
within a kind the first field that differs decides. So a list of flows has one arrangement in
order, which it is sorted to whatever order it comes in. -/
theorem totally_ordered :
    (∀ a b : Flow,
      ((a < b ∧ ¬ b < a ∧ a ≠ b) ∨ (¬ a < b ∧ b < a ∧ a ≠ b) ∨ (¬ a < b ∧ ¬ b < a ∧ a = b)) ∧
        (compare a b = .eq ↔ a.key = b.key ∧ a.priority = b.priority) ∧
        (a.key.isIpv4 = false → b.key.isIpv4 = true → a < b) ∧ (a < b ↔ a.Before b)) ∧
      (∀ a b c : Flow, a < b → b < c → a < c) ∧
      ∀ flows others : List Flow,
        (flows.Perm others → sort flows = sort others) ∧
          (others = sort flows ↔ others.Perm flows ∧ others.Pairwise fun a b => ¬ b < a) := by
  refine ⟨?_, ?_, ?_⟩
  · intro a b
    refine ⟨lt_trichotomy a b, compare_eq_eq_iff, ?_, lt_iff_before⟩
    intro frame packet
    rcases a with ⟨_ | _, _⟩ <;> rcases b with ⟨_ | _, _⟩
    · cases packet
    · rfl
    · cases packet
    · cases frame
  · intro a b c
    exact Std.TransCmp.lt_trans
  · intro flows others
    refine ⟨?_, eq_sort_iff⟩
    intro same
    exact eq_sort_iff.2 ⟨(sort_perm flows).trans same, sort_ordered flows⟩

/-- A frame, and two packets of which one has the smaller source but the larger port. -/
theorem totally_ordered_crossed :
    let frame : Flow := ⟨.ethernet 0x0806 ⟨0xffffffffffff⟩ ⟨0xffffffffffff⟩, 65535⟩
    let near : Flow := ⟨.ipv4 (.ofOctets 10 0 0 1) (.ofOctets 10 0 0 9) protoTcp 1 9, 1500⟩
    let far : Flow := ⟨.ipv4 (.ofOctets 10 0 1 0) (.ofOctets 10 0 0 9) protoTcp 1 1, 1500⟩
    (frame < near ∧ near < far ∧ frame < far) ∧ sort [far, near, frame] = [frame, near, far] ∧
      sort [near, frame, far] = sort [far, near, frame] := by
  intro frame near far
  obtain ⟨pairs, trans, sorted⟩ := totally_ordered
  have frameFirst : frame < near := (pairs frame near).2.2.1 rfl rfl
  have nearFirst : near < far := by decide
  refine ⟨⟨frameFirst, nearFirst, trans _ _ _ frameFirst nearFirst⟩, ?_, ?_⟩
  · exact ((sorted _ _).2.2 ⟨by decide, by decide⟩).symm
  · exact (sorted _ _).1 (by decide)

end Flow

end PathControl
