/-
  PathControl/Proofs/MinQueue.lean
  ================================
  **The queue loses no entry and gives out one of least score.**

  Sifting only swaps entries, so what waits changes by the entry that is put in or
  taken out (`toList_push`, `toList_pop`). The order of the tree (`Ordered`) holds of
  the empty queue and is kept by `push` and `pop`; while an entry is sifted, every
  edge of the tree is in order except those at the position of that entry. In an
  ordered tree no entry has a lower score than the root (`le_of_pop`).
-/
import PathControl.MinQueue
import Mathlib.Data.List.Perm.Basic
import Mathlib.Logic.Equiv.Basic

namespace PathControl.MinQueue

variable {K L : Type}

/-- The waiting entries, in the order of the tree. -/
def toList (q : MinQueue K L) : List (Scored K L) := q.entries.toList

@[simp] theorem toList_empty : (empty : MinQueue K L).toList = [] := rfl

/-! ### Swapping two entries -/

/-- The entries without the root, after the last one has taken its place. -/
theorem root_cons_perm (es : Array (Scored K L)) (h : 0 < es.size) :
    (es[0] :: (es.swap 0 (es.size - 1) h (by omega)).pop.toList).Perm es.toList := by
  have swapped := (Array.swap_perm h (show es.size - 1 < es.size by omega)).toList
  refine List.Perm.trans ?_ swapped
  have nonempty : (es.swap 0 (es.size - 1) h (by omega)).toList ≠ [] := by
    intro none
    have := congrArg List.length none
    simp at this
    simp [this] at h
  have last : (es.swap 0 (es.size - 1) h (by omega)).toList.getLast nonempty = es[0] := by
    rw [List.getLast_eq_getElem]
    simp
  rw [Array.toList_pop, ← last]
  exact (List.perm_append_singleton _ _).symm.trans
    (List.Perm.of_eq (List.dropLast_concat_getLast nonempty))

theorem swap_lt_iff {n i j k : Nat} (hi : i < n) (hj : j < n) :
    Equiv.swap i j k < n ↔ k < n := by
  rw [Equiv.swap_apply_def]
  split
  · omega
  · split <;> omega

theorem getElem_swap_eq (es : Array (Scored K L)) {i j k : Nat} (hi : i < es.size)
    (hj : j < es.size) (hk : k < (es.swap i j hi hj).size) (hk' : Equiv.swap i j k < es.size) :
    (es.swap i j hi hj)[k] = es[Equiv.swap i j k] := by
  simp only [Array.getElem_swap, Equiv.swap_apply_def]
  split
  · rfl
  · split <;> rfl

variable [Ord K]

/-! ### Nothing is lost -/

theorem siftUp_perm (es : Array (Scored K L)) (i : Nat) (h : i < es.size) :
    (siftUp es i h).Perm es := by
  fun_induction siftUp es i h with
  | case1 es h => exact Array.Perm.refl es
  | case2 es i h root parent below inside rise ih => exact ih.trans (Array.swap_perm inside h)
  | case3 es i h root parent below inside stay => exact Array.Perm.refl es

theorem siftToBottom_perm (es : Array (Scored K L)) (i : Nat) (h : i < es.size) :
    (siftToBottom es i h).Perm es := by
  fun_induction siftToBottom es i h with
  | case1 es i h children c above inside eq ih =>
    rw [eq]
    exact ih.trans (Array.swap_perm h inside)
  | case2 es i h leaf => exact siftUp_perm es i h

theorem toList_push (q : MinQueue K L) (score : K) (label : L) :
    (q.push score label).toList.Perm (⟨score, label⟩ :: q.toList) := by
  have moved := siftUp_perm (q.entries.push ⟨score, label⟩) q.entries.size (by simp)
  rw [Array.perm_iff_toList_perm, Array.toList_push] at moved
  exact moved.trans (List.perm_append_singleton _ _)

theorem toList_pop {q rest : MinQueue K L} {e : Scored K L} (h : q.pop = some (e, rest)) :
    q.toList.Perm (e :: rest.toList) := by
  unfold pop at h
  split at h
  · next nonempty =>
    have root := root_cons_perm q.entries nonempty
    dsimp only at h
    split at h
    · next more =>
      cases h
      have moved := (siftToBottom_perm _ 0 more).toList
      exact root.symm.trans ((List.perm_cons _).2 moved.symm)
    · cases h
      exact root.symm
  · cases h

/-- The entry that is taken out is the root. -/
theorem first_eq (q : MinQueue K L) : q.first? = q.pop.map Prod.fst := by
  unfold first? pop
  split
  · next nonempty =>
    rw [Array.getElem?_eq_getElem nonempty]
    dsimp only
    split <;> rfl
  · next empty =>
    rw [Array.getElem?_eq_none (by omega)]
    rfl

theorem toList_eq_nil_of_pop {q : MinQueue K L} (h : q.pop = none) : q.toList = [] := by
  unfold pop at h
  split at h
  · dsimp only at h
    split at h <;> cases h
  · next empty => exact List.eq_nil_of_length_eq_zero (by simpa [toList] using empty)

/-! ### The order of the tree -/

/-- The score at `i` is no higher than the score at `j`, as far as both positions exist. -/
def AtMost (es : Array (Scored K L)) (i j : Nat) : Prop :=
  ∀ (hi : i < es.size) (hj : j < es.size), (compare es[i].score es[j].score).isLE

/-- No entry has a lower score than its parent. -/
def Ordered (q : MinQueue K L) : Prop := ∀ c, 0 < c → AtMost q.entries ((c - 1) / 2) c

/-- Every edge of the tree that does not touch `i` is in order, and so are the edges that there
    would be without `i`. -/
structure OrderedAround (es : Array (Scored K L)) (i : Nat) : Prop where
  apart : ∀ c, 0 < c → c ≠ i → (c - 1) / 2 ≠ i → AtMost es ((c - 1) / 2) c
  across : ∀ c, 0 < c → (c - 1) / 2 = i → 0 < i → AtMost es ((i - 1) / 2) c

theorem ordered_empty : (empty : MinQueue K L).Ordered := by
  intro c _ hi
  simp [empty] at hi

/-- After two entries have changed places, their scores are compared at the other places. -/
theorem atMost_swap {es : Array (Scored K L)} {i j : Nat} (hi : i < es.size) (hj : j < es.size)
    {a b : Nat} : AtMost (es.swap i j hi hj) a b ↔
      AtMost es (Equiv.swap i j a) (Equiv.swap i j b) := by
  have place {k : Nat} : Equiv.swap i j k < es.size ↔ k < (es.swap i j hi hj).size := by
    rw [Array.size_swap]
    exact swap_lt_iff hi hj
  constructor <;> intro h ha hb
  · have := h (place.1 ha) (place.1 hb)
    rwa [getElem_swap_eq es hi hj (place.1 ha) ha,
      getElem_swap_eq es hi hj (place.1 hb) hb] at this
  · rw [getElem_swap_eq es hi hj ha (place.2 ha), getElem_swap_eq es hi hj hb (place.2 hb)]
    exact h (place.2 ha) (place.2 hb)

theorem atMost_of_not_higher {es : Array (Scored K L)} {a b : Fin es.size}
    (h : ¬ higher es a b = true) : AtMost es a.1 b.1 := by
  intro _ _
  simp only [higher, Ordering.isGT_iff_eq_gt] at h
  exact Ordering.isLE_iff_ne_gt.2 h

/-- The hole of a sinking entry moves to the lower child. -/
theorem OrderedAround.sink {es : Array (Scored K L)} {i c : Nat} (o : OrderedAround es i)
    (h : i < es.size) (inside : c < es.size) (child : (c - 1) / 2 = i) (above : i < c)
    (lower : ∀ d, 0 < d → (d - 1) / 2 = i → AtMost es c d) :
    OrderedAround (es.swap i c h inside) c := by
  constructor
  · intro d hd hdc hpc
    rw [atMost_swap]
    by_cases hdi : d = i
    · rw [hdi, Equiv.swap_apply_left, Equiv.swap_apply_of_ne_of_ne (by omega) (by omega)]
      exact o.across c (by omega) child (by omega)
    · rw [Equiv.swap_apply_of_ne_of_ne hdi hdc]
      by_cases hpi : (d - 1) / 2 = i
      · rw [hpi, Equiv.swap_apply_left]
        exact lower d hd hpi
      · rw [Equiv.swap_apply_of_ne_of_ne hpi hpc]
        exact o.apart d hd hdi hpi
  · intro d hd hpd hc
    rw [atMost_swap, child, Equiv.swap_apply_left,
      Equiv.swap_apply_of_ne_of_ne (by omega) (by omega)]
    have edge := o.apart d hd (by omega) (by omega)
    rwa [hpd] at edge

section Order

variable [Std.TransOrd K] {es : Array (Scored K L)} {i : Nat}

theorem AtMost.trans {a b c : Nat} (hab : AtMost es a b) (hbc : AtMost es b c)
    (hb : b < es.size) : AtMost es a c := fun ha hc =>
  Std.TransCmp.isLE_trans (hab ha hb) (hbc hb hc)

theorem atMost_of_higher {a b : Fin es.size} (h : higher es a b = true) :
    AtMost es b.1 a.1 := by
  intro _ _
  simp only [higher, Ordering.isGT_iff_eq_gt] at h
  exact Ordering.isLE_of_eq_lt (Std.OrientedCmp.lt_of_gt h)

/-- The hole of a rising entry moves to the parent. -/
theorem OrderedAround.rise (o : OrderedAround es i) (h : i < es.size) (root : i ≠ 0)
    (inside : (i - 1) / 2 < es.size) :
    OrderedAround (es.swap ((i - 1) / 2) i inside h) ((i - 1) / 2) := by
  constructor
  · intro c hc hcp hpc
    rw [atMost_swap, Equiv.swap_apply_of_ne_of_ne hcp (by rintro rfl; exact hpc rfl)]
    by_cases hpi : (c - 1) / 2 = i
    · rw [hpi, Equiv.swap_apply_right]
      exact o.across c hc hpi (by omega)
    · rw [Equiv.swap_apply_of_ne_of_ne hpc hpi]
      exact o.apart c hc (by rintro rfl; exact hpc rfl) hpi
  · intro c hc hpc hp
    rw [atMost_swap, Equiv.swap_apply_of_ne_of_ne (by omega) (by omega)]
    have above := o.apart ((i - 1) / 2) hp (by omega) (by omega)
    by_cases hci : c = i
    · rw [hci, Equiv.swap_apply_right]
      exact above
    · rw [Equiv.swap_apply_of_ne_of_ne (by omega) hci]
      have sibling := o.apart c hc hci (by omega)
      rw [hpc] at sibling
      exact above.trans sibling inside

theorem siftUp_ordered (h : i < es.size) (o : OrderedAround es i)
    (children : ∀ c, 0 < c → (c - 1) / 2 = i → AtMost es i c) :
    (⟨siftUp es i h⟩ : MinQueue K L).Ordered := by
  fun_induction siftUp es i h with
  | case1 es h =>
    intro c hc
    by_cases hp : (c - 1) / 2 = 0
    · rw [hp]
      exact children c hc hp
    · exact o.apart c hc (by omega) hp
  | case2 es i h root parent below inside rise ih =>
    refine ih (o.rise h root inside) ?_
    intro c hc hpc
    have lower : AtMost es i parent := atMost_of_higher rise
    rw [atMost_swap, Equiv.swap_apply_left]
    by_cases hci : c = i
    · rw [hci, Equiv.swap_apply_right]
      exact lower
    · rw [Equiv.swap_apply_of_ne_of_ne (by omega) hci]
      have sibling := o.apart c hc hci (by omega)
      rw [hpc] at sibling
      exact lower.trans sibling inside
  | case3 es i h root parent below inside stay =>
    intro c hc
    by_cases hci : c = i
    · rw [hci]
      exact atMost_of_not_higher stay
    · by_cases hp : (c - 1) / 2 = i
      · rw [hp]
        exact children c hc hp
      · exact o.apart c hc hci hp

/-- The lower child is a child, and its score is no higher than that of any other child. -/
theorem lowerChild_spec (children : 2 * i + 1 < es.size) :
    ((lowerChild es i children).1 - 1) / 2 = i ∧
      ∀ d, 0 < d → (d - 1) / 2 = i → AtMost es (lowerChild es i children).1 d := by
  simp only [lowerChild]
  split
  · next right =>
    split
    · next ge =>
      refine ⟨by dsimp only; omega, ?_⟩
      intro d hd hp _ hj
      rcases (by omega : d = 2 * i + 1 ∨ d = 2 * i + 2) with rfl | rfl
      · exact Std.OrientedCmp.isGE_iff_isLE.1 ge
      · exact Std.ReflCmp.isLE_rfl
    · next lt =>
      refine ⟨by dsimp only; omega, ?_⟩
      intro d hd hp _ hj
      rcases (by omega : d = 2 * i + 1 ∨ d = 2 * i + 2) with rfl | rfl
      · exact Std.ReflCmp.isLE_rfl
      · rw [Ordering.isGE_iff_ne_lt, not_not] at lt
        exact Ordering.isLE_of_eq_lt lt
  · next left =>
    refine ⟨by dsimp only; omega, ?_⟩
    intro d hd hp _ hj
    obtain rfl : d = 2 * i + 1 := by omega
    exact Std.ReflCmp.isLE_rfl

theorem siftToBottom_ordered (h : i < es.size) (o : OrderedAround es i) :
    (⟨siftToBottom es i h⟩ : MinQueue K L).Ordered := by
  fun_induction siftToBottom es i h with
  | case1 es i h children c above inside eq ih =>
    have spec := lowerChild_spec children
    rw [eq] at spec ⊢
    exact ih (o.sink h inside spec.1 above spec.2)
  | case2 es i h leaf =>
    refine siftUp_ordered h o ?_
    intro c hc hp _ hj
    omega

theorem Ordered.push {q : MinQueue K L} (o : q.Ordered) (score : K) (label : L) :
    (q.push score label).Ordered := by
  refine siftUp_ordered _ ⟨?_, ?_⟩ ?_
  · intro c hc hci hpi hi hj
    rw [Array.size_push] at hi hj
    rw [Array.getElem_push_lt (by omega), Array.getElem_push_lt (by omega)]
    exact o c hc (by omega) (by omega)
  · intro c hc hp _ _ hj
    rw [Array.size_push] at hj
    omega
  · intro c hc hp _ hj
    rw [Array.size_push] at hj
    omega

theorem Ordered.pop {q rest : MinQueue K L} {e : Scored K L} (o : q.Ordered)
    (h : q.pop = some (e, rest)) : rest.Ordered := by
  unfold MinQueue.pop at h
  split at h
  · next nonempty =>
    dsimp only at h
    split at h
    · cases h
      refine siftToBottom_ordered _ ⟨?_, ?_⟩
      · intro c hc hci hpi hi hj
        simp only [Array.size_pop, Array.size_swap] at hi hj
        rw [Array.getElem_pop, Array.getElem_pop, Array.getElem_swap_of_ne hpi (by omega),
          Array.getElem_swap_of_ne hci (by omega)]
        exact o c hc (by omega) (by omega)
      · intro c _ _ hi
        omega
    · next last =>
      cases h
      intro c _ hi hj
      dsimp only at hj
      omega
  · cases h

theorem Ordered.root_atMost {q : MinQueue K L} (o : q.Ordered) (c : Nat) :
    AtMost q.entries 0 c := by
  induction c using Nat.strongRecOn with
  | ind c ih =>
    by_cases hc : c = 0
    · subst hc
      intro _ _
      exact Std.ReflCmp.isLE_rfl
    · intro hi hj
      have edge := o c (by omega)
      exact (ih ((c - 1) / 2) (by omega)).trans edge (by omega) hi hj

/-- **What is taken out has a least score.** -/
theorem Ordered.le_of_pop {q rest : MinQueue K L} {e : Scored K L} (o : q.Ordered)
    (h : q.pop = some (e, rest)) {x : Scored K L} (hx : x ∈ q.toList) :
    (compare e.score x.score).isLE := by
  obtain ⟨c, hc, rfl⟩ := Array.mem_iff_getElem.1 (Array.mem_toList_iff.1 hx)
  have root : q.first? = some e := by
    rw [first_eq, h]
    rfl
  obtain ⟨nonempty, rfl⟩ := Array.getElem?_eq_some_iff.1 root
  exact o.root_atMost c nonempty hc

end Order

end PathControl.MinQueue
