/-
  PathControl/Proofs/Rebalance/Burden.lean
  ========================================
  **Where no switch is saturated, no visit makes a path worse.**

  The segment that a visit takes out of a path leads past the rest of the path, so it
  is one of the walks that the search for another segment is compared with. The new
  segment is no greater a burden (`Moved.burden_le`), nor is then the whole path,
  because the ends of the segment stay and burdens add up along a path. A pass is a
  sequence of visits, and a flow may move in more than one of them.
-/
import PathControl.Proofs.Rebalance
import PathControl.Proofs.ShortestPath.Burden

namespace PathControl

/-! ### One visit -/

section Cut

variable {W : Type} [Weight W] {c : Calculator W} {cut : SegmentCut} {segment : List NodeId}
  {first last : NodeId}

/-- A path changes with its segment as the segment does. -/
theorem SegmentCut.SameEnds.burden_le (ends : cut.SameEnds first last segment)
    (le : c.burden segment ≤ c.burden cut.segment) :
    c.burden (cut.withSegment segment) ≤ c.burden (cut.withSegment cut.segment) := by
  rw [Calculator.burden_le_iff] at le ⊢
  simp only [withSegment]
  rw [hops_splice ends.newFirst ends.newLast, hops_splice ends.oldFirst ends.oldLast]
  simp only [List.countP_append, List.length_append]
  omega

/-- The segment of a simple path of switches leads past the rest of the path. -/
theorem Topology.SwitchPath.leadsPast {s : Snapshot}
    (whole : s.topology.SwitchPath (cut.withSegment cut.segment))
    (idle : ∀ n, ¬ s.Saturated n) (oldFirst : cut.segment.head? = some first)
    (oldLast : cut.segment.getLast? = some last) :
    s.LeadsPast cut.outside first last cut.segment := by
  have inside : cut.segment <:+: cut.withSegment cut.segment := ⟨cut.before, cut.after, rfl⟩
  have nonempty : cut.segment ≠ [] := by
    intro empty
    rw [empty] at oldFirst
    cases oldFirst
  have apart := ((cut.nodup_withSegment_iff cut.segment).1 whole.nodup).2.2
  refine ⟨(whole.part inside nonempty).admissible oldFirst oldLast, ?_, apart⟩
  intro n _
  exact idle n

end Cut

variable {s : Snapshot} {flow : Flow} {table table' : FlowTable} {rules : List Instruction}

theorem Moved.burden_le {cut : SegmentCut} {first last : NodeId} {segment : List NodeId}
    (m : Moved s.topology (Metric.flex.calculator s) flow cut first last segment rules)
    (whole : s.topology.SwitchPath (cut.withSegment cut.segment))
    (idle : ∀ n, ¬ s.Saturated n) :
    (Metric.flex.calculator s).burden (cut.withSegment segment) ≤
      (Metric.flex.calculator s).burden (cut.withSegment cut.segment) := by
  have old := whole.leadsPast idle m.oldFirst m.oldLast
  exact m.sameEnds.burden_le (Snapshot.burden_le_of_excluding old m.found)

/-! ### A pass -/

/-- Every flow of one table has a path in another that is no greater a burden and carries it. -/
def FlowTable.Lightens (t : Topology) (c : Calculator FlexWeight) (table table' : FlowTable) :
    Prop :=
  ∀ flow path, table.path? flow = some path →
    ∃ path', table'.path? flow = some path' ∧ t.Carries flow path' ∧ c.burden path' ≤ c.burden path

/-- A visit moves one flow at most, and not to a greater burden. -/
theorem VisitEffect.lightens {table₀ : FlowTable}
    (effect : VisitEffect s.topology (Metric.flex.calculator s) flow table table' rules)
    (idle : ∀ n, ¬ s.Saturated n)
    (before : table₀.Lightens s.topology (Metric.flex.calculator s) table) :
    table₀.Lightens s.topology (Metric.flex.calculator s) table' := by
  cases effect with
  | none => exact before
  | @moved cut first last segment rules known moved =>
    intro other path start
    obtain ⟨path', known', carried, le⟩ := before other path start
    rw [FlowTable.path?_install]
    split
    · next same =>
      -- the flow may have moved before in this pass, so the bound is passed on
      subst same
      cases known.symm.trans known'
      exact ⟨_, rfl, moved.carries carried, (moved.burden_le carried.toSwitchPath idle).trans le⟩
    · exact ⟨path', known', carried, le⟩

/-- **A pass makes no path worse** if no switch is saturated. -/
theorem lightens_rebalance (idle : ∀ n, ¬ s.Saturated n)
    (carried : ∀ flow path, table.path? flow = some path → s.topology.Carries flow path)
    (idleTimeout : UInt16) :
    table.Lightens s.topology (Metric.flex.calculator s)
      (rebalance s.topology (Metric.flex.calculator s) idleTimeout table).table := by
  refine Pass.rebalance_induction
    (I := fun table' _ => table.Lightens s.topology (Metric.flex.calculator s) table') ?_ ?_
  · intro flow path known
    exact ⟨path, known, carried flow path known, le_refl _⟩
  · intro table' _ flow table'' rules before effect
    exact effect.lightens idle before

end PathControl
