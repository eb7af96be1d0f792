/-
  PathControl/Proofs/Rebalance/Bounds.lean
  ========================================
  **A segment is as short as its node allows, and lies on the path.**

  The scans around a node stop at the nearest spared node inside the path, or else at
  an end of the path (`segmentStart_spec`, `segmentEnd_spec`). These bounds are the
  only ones that leave nothing spared between them but the node itself
  (`Bounds.unique`). A move replaces what lies from the one bound to the other and
  leaves alone what lies before and after (`segmentBounds_safe`).
-/
import PathControl.Weight.FlexWeight
import PathControl.Proofs.Rebalance
import PathControl.Proofs.ShortestPath.Loop

namespace PathControl

variable {path : List NodeId} {i : Nat} {violates : NodeId → Bool}

/-! ### What the scans find -/

theorem usableAt_iff {j : Nat} :
    usableAt path violates j = true ↔ ∃ n, path[j]? = some n ∧ violates n = false := by
  simp [usableAt, Option.any_eq_true]

/-- A node that does not violate, at neither end of the path. -/
def SparedInside (path : List NodeId) (violates : NodeId → Bool) (j : Nat) : Prop :=
  0 < j ∧ j < path.length - 1 ∧ usableAt path violates j = true

/-- Scanning downwards finds the last index that satisfies `p`. -/
theorem find?_reverse_range' (p : Nat → Bool) (k : Nat) :
    let found := ((List.range' 1 k).reverse.find? p).getD 0
    found ≤ k ∧ (found = 0 ∨ 0 < found ∧ p found = true) ∧
      ∀ j, found < j → j ≤ k → p j = false := by
  induction k with
  | zero => exact ⟨Nat.le_refl _, .inl rfl, fun j above below => by omega⟩
  | succ k ih =>
    rw [List.range'_1_concat, List.reverse_append, List.reverse_singleton, List.singleton_append,
      List.find?_cons]
    cases here : p (1 + k) with
    | true =>
      refine ⟨Nat.le_of_eq (Nat.add_comm 1 k), .inr ⟨Nat.add_pos_left Nat.one_pos k, here⟩, ?_⟩
      intro j above below
      simp only [Option.getD_some] at above
      omega
    | false =>
      obtain ⟨below, stop, none⟩ := ih
      refine ⟨Nat.le_succ_of_le below, stop, ?_⟩
      intro j above inside
      rcases Nat.lt_or_ge k j with last | before
      · rw [show j = 1 + k by omega]
        exact here
      · exact none j above before

theorem segmentStart_spec (violates : NodeId → Bool) (inside : i < path.length) :
    (segmentStart path i violates = 0 ∨
        SparedInside path violates (segmentStart path i violates)) ∧
      (0 < i → segmentStart path i violates < i) ∧
      ∀ j, segmentStart path i violates < j → j < i → usableAt path violates j = false := by
  obtain ⟨below, stop, none⟩ := find?_reverse_range' (usableAt path violates) (i - 1)
  change segmentStart path i violates ≤ i - 1 at below
  refine ⟨stop.imp_right ?_, fun _ => by omega, fun j above before => none j above (by omega)⟩
  rintro ⟨positive, usable⟩
  change 0 < segmentStart path i violates at positive
  exact ⟨positive, by omega, usable⟩

theorem segmentEnd_spec (violates : NodeId → Bool) (inside : i < path.length) :
    (segmentEnd path i violates = path.length - 1 ∨
        SparedInside path violates (segmentEnd path i violates)) ∧
      segmentEnd path i violates < path.length ∧
      (i < path.length - 1 → i < segmentEnd path i violates) ∧
      ∀ j, i < j → j < segmentEnd path i violates → usableAt path violates j = false := by
  rcases found : (List.range' (i + 1) (path.length - 1 - (i + 1))).find?
      (usableAt path violates) with _ | k
  · have stop : segmentEnd path i violates = path.length - 1 := by
      simp only [segmentEnd, found, Option.getD_none]
    rw [stop]
    refine ⟨.inl rfl, by omega, id, ?_⟩
    intro j above below
    simpa using List.find?_range'_eq_none.1 found j above (by omega)
  · have stop : segmentEnd path i violates = k := by
      simp only [segmentEnd, found, Option.getD_some]
    obtain ⟨usable, range, before⟩ := List.find?_range'_eq_some.1 found
    rw [List.mem_range'_1] at range
    rw [stop]
    refine ⟨.inr ⟨by omega, by omega, usable⟩, by omega, fun _ => range.1, ?_⟩
    intro j above below
    simpa using before j above below

/-! ### Bounds of a segment -/

/-- Where a segment around an index may start and stop: nothing between is spared but the node at
the index. -/
structure Bounds (path : List NodeId) (i : Nat) (violates : NodeId → Bool) (src dst : Nat) :
    Prop where
  le_index : src ≤ i
  index_le : i ≤ dst
  inside : dst < path.length
  strict : 0 < i → i < path.length - 1 → src < i ∧ i < dst
  between : ∀ j n, src < j → j < dst → j ≠ i → path[j]? = some n → violates n = true
  start : src = 0 ∨ SparedInside path violates src
  stop : dst = path.length - 1 ∨ SparedInside path violates dst

theorem violates_of_usableAt {j : Nat} {n : NodeId} (unusable : usableAt path violates j = false)
    (here : path[j]? = some n) : violates n = true := by
  simpa [usableAt, here] using unusable

theorem bounds_around (inside : i < path.length) :
    Bounds path i violates (segmentStart path i violates) (segmentEnd path i violates) := by
  obtain ⟨start, before, skipped⟩ := segmentStart_spec violates inside
  obtain ⟨stop, last, after, skipped'⟩ := segmentEnd_spec violates inside
  refine ⟨segmentStart_le, le_segmentEnd inside, last, fun pos lt => ⟨before pos, after lt⟩, ?_,
    start, stop⟩
  intro j n above below away here
  rcases Nat.lt_or_gt_of_ne away with left | right
  · exact violates_of_usableAt (skipped j above left) here
  · exact violates_of_usableAt (skipped' j right below) here

namespace Bounds

variable {src dst src' dst' : Nat}

theorem start_lt (b : Bounds path i violates src dst) (spared : SparedInside path violates src) :
    src < i := by
  obtain ⟨positive, below, -⟩ := spared
  apply Nat.lt_of_le_of_ne b.le_index
  rintro rfl
  exact Nat.lt_irrefl _ (b.strict positive below).1

theorem lt_stop (b : Bounds path i violates src dst) (spared : SparedInside path violates dst) :
    i < dst := by
  obtain ⟨positive, below, -⟩ := spared
  apply Nat.lt_of_le_of_ne b.index_le
  rintro rfl
  exact Nat.lt_irrefl _ (b.strict positive below).2

theorem not_spared (b : Bounds path i violates src dst) {j : Nat} (above : src < j)
    (below : j < dst) (away : j ≠ i) : ¬ SparedInside path violates j := by
  rintro ⟨-, -, usable⟩
  obtain ⟨n, here, spared⟩ := usableAt_iff.1 usable
  rw [b.between j n above below away here] at spared
  cases spared

/-- If one segment started later than the other, its start would be a spared node between the
bounds of the other. -/
theorem start_le (b : Bounds path i violates src dst) (b' : Bounds path i violates src' dst') :
    src ≤ src' := by
  rcases b.start with rfl | spared
  · exact Nat.zero_le src'
  have before : src < i := b.start_lt spared
  by_contra later
  exact b'.not_spared (Nat.lt_of_not_le later) (Nat.lt_of_lt_of_le before b'.index_le)
    (Nat.ne_of_lt before) spared

theorem le_stop (b : Bounds path i violates src dst) (b' : Bounds path i violates src' dst') :
    dst' ≤ dst := by
  rcases b.stop with rfl | spared
  · exact Nat.le_pred_of_lt b'.inside
  have after : i < dst := b.lt_stop spared
  by_contra earlier
  exact b'.not_spared (Nat.lt_of_le_of_lt b'.le_index after) (Nat.lt_of_not_le earlier)
    (Nat.ne_of_gt after) spared

theorem unique (b : Bounds path i violates src dst) (b' : Bounds path i violates src' dst') :
    src' = src ∧ dst' = dst :=
  ⟨Nat.le_antisymm (b'.start_le b) (b.start_le b'), Nat.le_antisymm (b.le_stop b') (b'.le_stop b)⟩

end Bounds

/-! ### Slices and moves -/

/-- The segment of a cut lies from one index of a path to another, both on the path, and the cut
keeps all that is before and after. -/
structure SegmentCut.Spans (cut : SegmentCut) (path : List NodeId) (src dst : Nat) : Prop where
  before : cut.before.length = src
  segment : cut.segment.length = dst + 1 - src
  after : cut.after.length = path.length - (dst + 1)
  first : cut.segment.head? = path[src]?
  last : cut.segment.getLast? = path[dst]?
  whole : cut.withSegment cut.segment = path

theorem spans_around (inside : i < path.length) :
    (SegmentCut.around path i violates).Spans path (segmentStart path i violates)
      (segmentEnd path i violates) := by
  have bounds : Bounds path i violates _ _ := bounds_around inside
  have start := bounds.le_index
  have stop := bounds.index_le
  have last := bounds.inside
  refine ⟨?_, ?_, List.length_drop, ?_, ?_, SegmentCut.withSegment_around inside⟩
  · simp only [SegmentCut.around, List.length_take]
    omega
  · simp only [SegmentCut.around, List.length_take, List.length_drop]
    omega
  · simp only [SegmentCut.around, List.head?_drop]
    rw [List.getElem?_take_of_lt (by omega)]
  · simp only [SegmentCut.around, List.getLast?_drop, List.length_take, List.getLast?_take]
    rw [if_neg (by omega), if_neg (by omega), Nat.add_sub_cancel]
    rw [List.getElem?_eq_getElem last, Option.some_or]

/-- **The bounds of a segment are safe and minimal.** Around every node of a path there are bounds
on the path, and no others, that leave nothing spared between them but that node. What lies from
the one to the other is the segment. A move of a flow around the node searches from the one to the
other and keeps what lies before and after in place and in order. -/
theorem segmentBounds_safe (W : Type) [Weight W] (inside : i < path.length) :
    ∃ src dst, segmentBounds path i violates = some (src, dst) ∧
      Bounds path i violates src dst ∧
      (∀ src' dst', Bounds path i violates src' dst' → src' = src ∧ dst' = dst) ∧
      (SegmentCut.around path i violates).Spans path src dst ∧
      ∀ (t : Topology) (c : Calculator W) (table : FlowTable) flow v path' rules,
        c.violates = violates → table.path? flow = some path → path.idxOf? v = some i →
        reroute t c table flow v = .ok (.moved path' rules) →
        ∃ first last segment, path[src]? = some first ∧ path[dst]? = some last ∧
          t.shortestPath (c.excluding (path.take src ++ path.drop (dst + 1))) first last =
            .ok segment ∧
          path' = path.take src ++ segment ++ path.drop (dst + 1) := by
  have bounds : Bounds path i violates _ _ := bounds_around inside
  have spans : (SegmentCut.around path i violates).Spans path _ _ := spans_around inside
  refine ⟨_, _, if_neg (by omega), bounds, fun _ _ => bounds.unique, spans, ?_⟩
  intro t c table flow v path' rules same known index moves
  simp only [reroute] at moves
  rw [known] at moves
  obtain ⟨i', first, last, segment, index', rfl, moved⟩ := moved_around_of_reroutePath moves
  obtain rfl := Option.some.inj (index.symm.trans index')
  subst same
  exact ⟨first, last, segment, spans.first.symm.trans moved.oldFirst,
    spans.last.symm.trans moved.oldLast, moved.found, rfl⟩

/-- A line of five switches, and a way around the one in the middle. -/
def chord : Topology :=
  ((((((((((((Topology.empty.addSwitch "first" 1).addSwitch "left" 2).addSwitch "middle" 3).addSwitch
    "right" 4).addSwitch "last" 5).addSwitch "around" 6).addLink 0 1).addLink 1 2).addLink 2 3).addLink
      3 4).addLink 1 5).addLink 5 3)

/-- The switch in the middle violates its budget, and so does the first one. -/
def chordWeights : Calculator FlexWeight :=
  .ofWeights #[⟨.zero, 1, 0⟩, ⟨.zero, 0, 0⟩, ⟨.zero, 1, 0⟩, ⟨.zero, 0, 0⟩, ⟨.zero, 0, 0⟩,
    ⟨.zero, 0, 0⟩] ⟨.zero, 0, 1⟩

def chordFlow : Flow := ⟨.ethernet 1 ⟨1⟩ ⟨2⟩, 500⟩

def chordTable : FlowTable := FlowTable.empty.install chordFlow [0, 1, 2, 3, 4]

theorem reroute_chord : reroute chord chordWeights chordTable chordFlow 2 =
    .ok (.moved [0, 1, 5, 3, 4] [.install 6 chordFlow 2, .install 2 chordFlow 3]) := by
  have found : chord.shortestPath (chordWeights.excluding [0, 4]) 1 3 = .ok [1, 5, 3] :=
    Topology.shortestPath_of_within 8 (by decide) (by decide +kernel)
  simp only [reroute, chordTable, FlowTable.path?_install, if_true]
  change (chord.shortestPath (chordWeights.excluding [0, 4]) 1 3 >>= _) = _
  rw [found]
  rfl

theorem segmentBounds_safe_chord :
    (2 < [0, 1, 2, 3, 4].length ∧ chordTable.path? chordFlow = some [0, 1, 2, 3, 4] ∧
      reroute chord chordWeights chordTable chordFlow 2 =
        .ok (.moved [0, 1, 5, 3, 4] [.install 6 chordFlow 2, .install 2 chordFlow 3])) ∧
    segmentBounds [0, 1, 2, 3, 4] 2 chordWeights.violates = some (1, 3) ∧
      Bounds [0, 1, 2, 3, 4] 2 chordWeights.violates 1 3 ∧
      ∃ first last segment, [0, 1, 2, 3, 4][1]? = some first ∧ [0, 1, 2, 3, 4][3]? = some last ∧
        chord.shortestPath (chordWeights.excluding [0, 4]) first last = .ok segment ∧
        [0, 1, 5, 3, 4] = [0] ++ segment ++ [4] := by
  have known : chordTable.path? chordFlow = some [0, 1, 2, 3, 4] := by
    simp only [chordTable, FlowTable.path?_install, if_true]
  have found : segmentBounds [0, 1, 2, 3, 4] 2 chordWeights.violates = some (1, 3) := by
    decide
  have inside : 2 < [0, 1, 2, 3, 4].length := by decide
  obtain ⟨src, dst, same, bounds, -, -, moves⟩ :=
    @segmentBounds_safe _ _ chordWeights.violates FlexWeight _ inside
  cases found.symm.trans same
  exact ⟨⟨inside, known, reroute_chord⟩, found, bounds,
    moves chord chordWeights chordTable chordFlow 2 _ _ rfl known rfl reroute_chord⟩

end PathControl
