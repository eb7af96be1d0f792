/-
  PathControl/Proofs/Rebalance.lean
  =================================
  **Moving a flow keeps its path real and the switches in step with it.**

  A visit that moves a flow replaces a segment of its path by one that a search found
  off the rest of the path (`Moved`). So the new path is again a simple path of
  switches with the same ends, and the instructions that are sent make the switches
  follow it. A pass is a sequence of such visits.
-/
import PathControl.Rebalance
import PathControl.Proofs.FlowTable
import PathControl.Proofs.Rule
import PathControl.Proofs.SwitchPath

namespace PathControl

variable {W : Type} [Weight W] {t : Topology} {c : Calculator W} {flow : Flow} {v : NodeId}
  {path path' : List NodeId} {rules : List Instruction}

/-! ### Cutting a path around a node -/

section Segment

variable {i : Nat} {violates : NodeId → Bool}

theorem segmentStart_le : segmentStart path i violates ≤ i := by
  simp only [segmentStart]
  cases found : (List.range' 1 (i - 1)).reverse.find? (usableAt path violates) with
  | none => exact Nat.zero_le i
  | some j =>
    have := List.mem_reverse.1 (List.mem_of_find?_eq_some found)
    rw [List.mem_range'_1] at this
    change j ≤ i
    omega

theorem le_segmentEnd (h : i < path.length) : i ≤ segmentEnd path i violates := by
  simp only [segmentEnd]
  cases found : (List.range' (i + 1) (path.length - 1 - (i + 1))).find?
      (usableAt path violates) with
  | none =>
    change i ≤ path.length - 1
    omega
  | some j =>
    have := List.mem_of_find?_eq_some found
    rw [List.mem_range'_1] at this
    change i ≤ j
    omega

namespace SegmentCut

/-- The parts of a cut make up the path. -/
theorem withSegment_around (h : i < path.length) :
    (around path i violates).withSegment (around path i violates).segment = path := by
  have start : segmentStart path i violates ≤ i := segmentStart_le
  have stop : i ≤ segmentEnd path i violates := le_segmentEnd h
  simp only [withSegment, around]
  have front : path.take (segmentStart path i violates) =
      (path.take (segmentEnd path i violates + 1)).take (segmentStart path i violates) := by
    rw [List.take_take, Nat.min_eq_left (by omega)]
  rw [front, List.take_append_drop, List.take_append_drop]

theorem segment_around_ne_nil (h : i < path.length) :
    (around path i violates).segment ≠ [] := by
  have start : segmentStart path i violates ≤ i := segmentStart_le
  have stop : i ≤ segmentEnd path i violates := le_segmentEnd h
  simp only [around]
  rw [← List.length_pos_iff, List.length_drop, List.length_take]
  omega

end SegmentCut

end Segment

/-! ### One visit -/

/-- What a visit that moves a flow does to its path and tells the switches. -/
structure Moved (t : Topology) (c : Calculator W) (flow : Flow) (cut : SegmentCut)
    (first last : NodeId) (segment : List NodeId) (rules : List Instruction) : Prop where
  oldFirst : cut.segment.head? = some first
  oldLast : cut.segment.getLast? = some last
  found : t.shortestPath (c.excluding cut.outside) first last = .ok segment
  rules : ∃ installs deletes, t.installRules segment flow = .ok installs ∧
    t.deleteRules (cut.left segment) flow = .ok deletes ∧ rules = installs ++ deletes

theorem moved_around_of_reroutePath (h : reroutePath t c flow v path = .ok (.moved path' rules)) :
    ∃ i first last segment, path.idxOf? v = some i ∧
      path' = (SegmentCut.around path i c.violates).withSegment segment ∧
      Moved t c flow (SegmentCut.around path i c.violates) first last segment rules := by
  unfold reroutePath at h
  split at h
  · cases h
  · next i index =>
    have inside : i < path.length := (List.idxOf?_eq_some_iff.1 index).1
    have nonempty : (SegmentCut.around path i c.violates).segment ≠ [] :=
      SegmentCut.segment_around_ne_nil inside
    dsimp only at h
    obtain ⟨segment, found, h⟩ := bind_eq_ok_iff.1 h
    split at h
    · cases h
    · obtain ⟨installs, entered, h⟩ := bind_eq_ok_iff.1 h
      obtain ⟨deletes, deleted, h⟩ := bind_eq_ok_iff.1 h
      cases h
      rw [List.head?_eq_some_head nonempty, List.getLast?_eq_some_getLast nonempty] at found
      exact ⟨i, _, _, segment, index, rfl,
        List.head?_eq_some_head nonempty, List.getLast?_eq_some_getLast nonempty, found,
        installs, deletes, entered, deleted, rfl⟩

theorem moved_of_reroutePath (h : reroutePath t c flow v path = .ok (.moved path' rules)) :
    ∃ cut first last segment, path = cut.withSegment cut.segment ∧
      path' = cut.withSegment segment ∧ Moved t c flow cut first last segment rules := by
  obtain ⟨i, first, last, segment, index, rfl, moved⟩ := moved_around_of_reroutePath h
  have inside : i < path.length := (List.idxOf?_eq_some_iff.1 index).1
  exact ⟨_, first, last, segment, (SegmentCut.withSegment_around inside).symm, rfl, moved⟩

namespace Moved

variable {cut : SegmentCut} {first last : NodeId} {segment : List NodeId}

theorem concerns_flow (m : Moved t c flow cut first last segment rules) {i : Instruction}
    (hi : i ∈ rules) {dpid : Dpid} {other : Flow} (h : i.Concerns dpid other) :
    other = flow := by
  obtain ⟨installs, deletes, entered, deleted, rfl⟩ := m.rules
  rcases List.mem_append.1 hi with hi | hi
  · exact Topology.concerns_of_installRules entered hi h
  · obtain ⟨n, _, d, _, rfl⟩ := Topology.mem_deleteRules deleted i hi
    exact h.2.symm

variable [LawfulWeight W]

theorem sameEnds (m : Moved t c flow cut first last segment rules) :
    cut.SameEnds first last segment :=
  (Topology.found_of_shortestPath m.found).sameEnds m.oldFirst m.oldLast

theorem fits (m : Moved t c flow cut first last segment rules)
    (nodup : (cut.withSegment cut.segment).Nodup) : cut.Fits first last segment :=
  (Topology.found_of_shortestPath m.found).fits nodup m.oldFirst m.oldLast

theorem carries (m : Moved t c flow cut first last segment rules)
    (whole : t.Carries flow (cut.withSegment cut.segment)) :
    t.Carries flow (cut.withSegment segment) :=
  whole.withSegment (m.fits whole.nodup) (Topology.found_of_shortestPath m.found)

/-- The switches follow the new path once its rules are entered, whichever of the old rules are
    deleted by then. -/
theorem follows_deleting (m : Moved t c flow cut first last segment rules) {r : Forwarding}
    {installs deletes sent : List Instruction}
    (simple : (cut.withSegment cut.segment).Nodup)
    (h : r.Follows t flow (cut.withSegment cut.segment))
    (entered : t.installRules segment flow = .ok installs)
    (deleted : t.deleteRules (cut.left segment) flow = .ok deletes)
    (part : ∀ i ∈ sent, i ∈ deletes) :
    (r.replay (installs ++ sent)).Follows t flow (cut.withSegment segment) := by
  have found := (Topology.found_of_shortestPath m.found).nodup
  intro hop hh
  rw [Forwarding.replay_append]
  rcases (m.fits simple).mem_hops simple found hh with new | ⟨old, inner, left⟩
  · -- a link of the new segment: its rule is entered, and not deleted
    obtain ⟨dpid, port, hd, towards, rule⟩ :=
      Forwarding.follows_installRules (r := r) found entered hop new
    have kept : hop.1 ∉ cut.left segment := by
      intro hit
      have inside := List.dropLast_subset _ (mem_of_mem_hops new).1
      simp [SegmentCut.left, inside] at hit
    exact ⟨dpid, port, hd, towards, (Forwarding.replay_deleteRules deleted part kept hd).trans rule⟩
  · -- a link of the old path: no instruction concerns it
    obtain ⟨dpid, port, hd, towards, rule⟩ := h hop old
    refine ⟨dpid, port, hd, towards, ?_⟩
    rw [Forwarding.replay_deleteRules deleted part left hd,
      Forwarding.replay_installRules entered inner hd, rule]

/-- **The switches follow the new path** if they followed the old one. -/
theorem follows (m : Moved t c flow cut first last segment rules) {r : Forwarding}
    (whole : t.Carries flow (cut.withSegment cut.segment))
    (h : r.Follows t flow (cut.withSegment cut.segment)) :
    (r.replay rules).Follows t flow (cut.withSegment segment) := by
  obtain ⟨installs, deletes, entered, deleted, rfl⟩ := m.rules
  exact m.follows_deleting whole.nodup h entered deleted fun _ hi => hi

end Moved

/-! ### A pass -/

/-- What a visit does to the table and which instructions it sends. -/
inductive VisitEffect (t : Topology) (c : Calculator W) (flow : Flow) (table : FlowTable) :
    FlowTable → List Instruction → Prop where
  | none : VisitEffect t c flow table table []
  | moved {cut first last segment rules}
      (path : table.path? flow = some (cut.withSegment cut.segment))
      (moved : Moved t c flow cut first last segment rules) :
      VisitEffect t c flow table (table.install flow (cut.withSegment segment)) rules

namespace Pass

variable {idleTimeout : UInt16}

theorem visit_effect (p : Pass) : ∃ rules, (p.visit t c idleTimeout v flow).sent = p.sent ++ rules ∧
    VisitEffect t c flow p.table (p.visit t c idleTimeout v flow).table rules := by
  simp only [visit]
  cases found : reroute t c p.table flow v with
  | error e => exact ⟨[], (List.append_nil _).symm, VisitEffect.none⟩
  | ok visit =>
    cases visit with
    | skipped => exact ⟨[], (List.append_nil _).symm, VisitEffect.none⟩
    | unchanged => exact ⟨[], (List.append_nil _).symm, VisitEffect.none⟩
    | moved path' rules =>
      simp only [reroute] at found
      split at found
      · cases found
      · next path known =>
        obtain ⟨cut, first, last, segment, rfl, rfl, moved⟩ := moved_of_reroutePath found
        exact ⟨rules, rfl, VisitEffect.moved known moved⟩

/-- What every visit keeps holds after a pass if it holds before. -/
theorem rebalance_keeps {table : FlowTable} {I : Pass → Prop}
    (start : I { table, report := { violating := (table.violations c).length } })
    (told : ∀ (p : Pass) notices, I p → I { p with notices := notices })
    (step : ∀ (p : Pass) v flow, I p → I (p.visit t c idleTimeout v flow)) :
    I (rebalance t c idleTimeout table) := by
  have visits (v : NodeId) (flows : List Flow) (p : Pass) (h : I p) :
      I (flows.foldl (visit t c idleTimeout v) p) := by
    induction flows generalizing p with
    | nil => exact h
    | cons flow flows ih => exact ih _ (step p v flow h)
  have all (work : List (NodeId × List Flow)) (p : Pass) (h : I p) :
      I (work.foldl (visitAll t c idleTimeout) p) := by
    induction work generalizing p with
    | nil => exact h
    | cons one work ih => exact ih _ (visits one.1 one.2 _ (told p _ h))
  exact all _ _ start

/-- What every visit keeps of the table and the instructions holds after a pass. -/
theorem rebalance_induction {table : FlowTable} {I : FlowTable → List Instruction → Prop}
    (start : I table [])
    (step : ∀ table sent flow table' rules, I table sent →
      VisitEffect t c flow table table' rules → I table' (sent ++ rules)) :
    I (rebalance t c idleTimeout table).table (rebalance t c idleTimeout table).sent := by
  refine rebalance_keeps (I := fun p => I p.table p.sent) start (fun p notices h => h) ?_
  intro p v flow h
  obtain ⟨rules, sent, effect⟩ : ∃ rules,
      (p.visit t c idleTimeout v flow).sent = p.sent ++ rules ∧
        VisitEffect t c flow p.table (p.visit t c idleTimeout v flow).table rules :=
    visit_effect p
  rw [sent]
  exact step _ _ _ _ _ h effect

end Pass

def ends (path : List NodeId) : Option NodeId × Option NodeId := (path.head?, path.getLast?)

/-- Every flow has a path that carries it, and the switches follow it. -/
def FlowTable.InStep (table : FlowTable) (t : Topology) (r : Forwarding) : Prop :=
  ∀ flow path, table.path? flow = some path → t.Carries flow path ∧ r.Follows t flow path

/-- A rebalance pass moves flows, but enters none and forgets none. -/
theorem contains_rebalance {idleTimeout : UInt16} {table : FlowTable} (flow : Flow) :
    (rebalance t c idleTimeout table).table.contains flow = table.contains flow := by
  refine Pass.rebalance_induction
    (I := fun table' _ => table'.contains flow = table.contains flow) rfl ?_
  intro table₁ sent other table₂ rules before effect
  cases effect with
  | none => exact before
  | moved known moved =>
    rw [← before, Bool.eq_iff_iff, FlowTable.contains_install_iff, or_iff_right_iff_imp]
    rintro rfl
    exact FlowTable.contains_iff.2 ⟨_, known⟩

section Pass

variable [LawfulWeight W] {table table' : FlowTable}

/-- Entering one flow along a path with rules of its own keeps all others in step. -/
theorem FlowTable.InStep.install {r : Forwarding} {path : List NodeId} (h : table.InStep t r)
    (carried : t.Carries flow path) (followed : (r.replay rules).Follows t flow path)
    (own : ∀ i ∈ rules, ∀ dpid other, i.Concerns dpid other → other = flow) :
    (table.install flow path).InStep t (r.replay rules) := by
  intro other path' known
  rw [FlowTable.path?_install] at known
  split at known
  · next same =>
    cases known
    subst same
    exact ⟨carried, followed⟩
  · next different =>
    obtain ⟨carried', followed'⟩ := h other path' known
    refine ⟨carried', followed'.replay ?_⟩
    intro i hi dpid concerns
    exact different (own i hi dpid other concerns)

theorem FlowTable.InStep.visit {r : Forwarding} (h : table.InStep t r)
    (effect : VisitEffect t c flow table table' rules) : table'.InStep t (r.replay rules) := by
  cases effect with
  | none => exact h
  | @moved cut first last segment rules known moved =>
    obtain ⟨carried, followed⟩ := h _ _ known
    apply h.install (moved.carries carried) (moved.follows carried followed)
    intro i hi dpid other concerns
    exact moved.concerns_flow hi concerns

/-- **A rebalance pass keeps the table and the switches in step.** -/
theorem FlowTable.InStep.rebalance {r : Forwarding} (h : table.InStep t r)
    (idleTimeout : UInt16) :
    (PathControl.rebalance t c idleTimeout table).table.InStep t
      (r.replay (PathControl.rebalance t c idleTimeout table).sent) := by
  refine Pass.rebalance_induction (I := fun table sent => table.InStep t (r.replay sent)) h ?_
  intro table sent flow table' rules before effect
  rw [Forwarding.replay_append]
  exact before.visit effect

theorem VisitEffect.ends_eq (effect : VisitEffect t c flow table table' rules) (other : Flow) :
    (table'.path? other).map ends = (table.path? other).map ends := by
  cases effect with
  | none => rfl
  | moved known moved =>
    rw [FlowTable.path?_install]
    split
    · next same =>
      rw [same, known]
      unfold ends
      simp only [Option.map_some, moved.sameEnds.head?, moved.sameEnds.getLast?]
    · rfl

/-- **A rebalance pass keeps the ends of every path.** -/
theorem rebalance_ends_eq (idleTimeout : UInt16) (flow : Flow) :
    ((rebalance t c idleTimeout table).table.path? flow).map ends =
      (table.path? flow).map ends := by
  refine Pass.rebalance_induction
    (I := fun table' _ => (table'.path? flow).map ends = (table.path? flow).map ends) rfl ?_
  intro _ _ _ _ _ before effect
  exact (effect.ends_eq flow).trans before

end Pass

end PathControl
