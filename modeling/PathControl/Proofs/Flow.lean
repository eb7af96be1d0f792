/-
  PathControl/Proofs/Flow.lean
  ============================
  **The order of flows is total.**

  Comparing two keys is comparing two lists of numbers, the kind of the key first.
  So flows that compare as equal are the same, which the maps by flow rely on.
-/
import PathControl.Flow
import Mathlib.Data.List.Basic

namespace PathControl

theorem Ipv4Address.compare_eq (a b : Ipv4Address) :
    compare a b = compare a.value.toNat b.value.toNat :=
  UInt32.compare_eq_toNat_compare_toNat a.value b.value

theorem Ipv4Address.toNat_inj {a b : Ipv4Address} :
    a.value.toNat = b.value.toNat ↔ a = b := by
  cases a
  cases b
  simp [UInt32.toNat_inj]

theorem MacAddress.compare_eq (a b : MacAddress) :
    compare a b = compare a.value.toNat b.value.toNat := by
  change compare a.value b.value = _
  simp only [compare, compareOfLessAndEq, BitVec.lt_def, BitVec.toNat_eq]

theorem MacAddress.toNat_inj {a b : MacAddress} : a.value.toNat = b.value.toNat ↔ a = b := by
  cases a
  cases b
  simp [BitVec.toNat_inj]

namespace FlowKey

/-- The fields that are compared, the kind of the key first. -/
def fields : FlowKey → List Nat
  | ethernet t s d => [0, t.toNat, s.value.toNat, d.value.toNat]
  | ipv4 s d p sp dp =>
    [1, s.value.toNat, d.value.toNat, p.toNat, sp.toNat, dp.toNat]

theorem compare_eq (a b : FlowKey) : compare a b = compare a.fields b.fields := by
  have kind (k : Nat) : compare k k = .eq := Nat.compare_eq_eq.2 rfl
  cases a with
  | ethernet t s d =>
    cases b with
    | ethernet t' s' d' =>
      change (compare t t').then ((compare s s').then (compare d d')) = _
      simp only [fields, List.compare_cons_cons, List.compare_nil_nil, kind,
        UInt16.compare_eq_toNat_compare_toNat, MacAddress.compare_eq, Ordering.eq_then,
        Ordering.then_eq]
    | ipv4 s' d' p' sp' dp' => rfl
  | ipv4 s d p sp dp =>
    cases b with
    | ethernet t' s' d' => rfl
    | ipv4 s' d' p' sp' dp' =>
      change (compare s s').then ((compare d d').then ((compare p p').then
        ((compare sp sp').then (compare dp dp')))) = _
      simp only [fields, List.compare_cons_cons, List.compare_nil_nil, kind,
        UInt8.compare_eq_toNat_compare_toNat, UInt16.compare_eq_toNat_compare_toNat,
        Ipv4Address.compare_eq, Ordering.eq_then, Ordering.then_eq]

theorem fields_inj {a b : FlowKey} (h : a.fields = b.fields) : a = b := by
  cases a <;> cases b <;>
    simp_all only [fields, List.cons.injEq, UInt8.toNat_inj, UInt16.toNat_inj,
      Ipv4Address.toNat_inj, MacAddress.toNat_inj, reduceCtorEq, false_and, Nat.zero_ne_one,
      Nat.one_ne_zero]

instance : Std.TransOrd FlowKey where
  eq_swap {a b} := by
    rw [compare_eq, compare_eq]
    exact Std.OrientedCmp.eq_swap
  isLE_trans {a b c} := by
    rw [compare_eq, compare_eq, compare_eq]
    exact Std.TransCmp.isLE_trans

instance : Std.LawfulEqOrd FlowKey where
  compare_self {a} := Std.ReflCmp.compare_self
  eq_of_compare {a b} h := by
    rw [compare_eq] at h
    exact fields_inj (Std.LawfulEqCmp.eq_of_compare h)

end FlowKey

namespace Flow

instance : Std.TransOrd Flow :=
  inferInstanceAs (Std.TransCmp (compareLex (compareOn key) (compareOn priority)))

instance : Std.LawfulEqOrd Flow where
  compare_self {a} := Std.ReflCmp.compare_self
  eq_of_compare {a b} h := by
    obtain ⟨sameKey, samePriority⟩ := Ordering.then_eq_eq.1 h
    rw [UInt16.compare_eq_toNat_compare_toNat, Nat.compare_eq_eq, UInt16.toNat_inj] at samePriority
    cases a
    cases b
    exact congr (congrArg Flow.mk (Std.LawfulEqCmp.eq_of_compare sameKey)) samePriority

end Flow

end PathControl
