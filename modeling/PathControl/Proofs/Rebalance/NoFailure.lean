/-
  PathControl/Proofs/Rebalance/NoFailure.lean
  ===========================================
  **No visit of a pass fails.**

  The segment that a visit takes out of a path leads past the rest of the path, so the
  search that leaves out the rest finds a path: the old one, if nothing else. Where
  datapath ids are distinct every switch on it can be sent its rule. What remains is
  that no weight leaves its range, which `Calculator.Roomy` says.
-/
import PathControl.Proofs.Rebalance.Visits
import PathControl.Proofs.ShortestPath.Room

namespace PathControl

variable {W : Type} [Weight W] [LawfulWeight W] {t : Topology} {c : Calculator W} {flow : Flow}
  {v : NodeId} {path : List NodeId}

/-! ### One visit -/

theorem Topology.SwitchPath.exists_installRules (h : t.SwitchPath path)
    (distinct : t.DistinctIds) : ∃ rules, t.installRules path flow = .ok rules :=
  Topology.exists_installRules h.linked fun n hn => distinct.exists_dpid? (h.switches n hn)

/-- A found segment of a path of switches is one itself. -/
theorem Topology.SwitchPath.segment {cut : SegmentCut} {first last : NodeId}
    {segment : List NodeId} (whole : t.SwitchPath (cut.withSegment cut.segment))
    (oldFirst : cut.segment.head? = some first) (oldLast : cut.segment.getLast? = some last)
    (found : t.shortestPath (c.excluding cut.outside) first last = .ok segment) :
    t.SwitchPath segment := by
  have route := Topology.found_of_shortestPath found
  have fits := route.fits whole.nodup oldFirst oldLast
  refine (whole.withSegment fits route).part ⟨cut.before, cut.after, rfl⟩ ?_
  rintro rfl
  cases fits.newFirst

/-- Whatever is cut out of a path of switches, a segment is found for it, and all switches on
    either one can be sent their rules. -/
theorem exists_segment {cut : SegmentCut} {first last : NodeId} (flow : Flow) (roomy : c.Roomy t)
    (distinct : t.DistinctIds) (whole : t.SwitchPath (cut.withSegment cut.segment))
    (oldFirst : cut.segment.head? = some first) (oldLast : cut.segment.getLast? = some last) :
    ∃ segment installs deletes,
      t.shortestPath (c.excluding cut.outside) first last = .ok segment ∧
        t.installRules segment flow = .ok installs ∧
        t.deleteRules (cut.left segment) flow = .ok deletes := by
  have nonempty : cut.segment ≠ [] := by
    intro empty
    rw [empty] at oldFirst
    cases oldFirst
  have old : t.SwitchPath cut.segment := whole.part ⟨cut.before, cut.after, rfl⟩ nonempty
  have known := Topology.contains_of_isSwitch (old.switches _ (List.mem_of_mem_head? oldFirst))
  have apart := ((cut.nodup_withSegment_iff cut.segment).1 whole.nodup).2.2
  -- the old segment leads past the rest of the path, so there is something to find
  obtain ⟨segment, found⟩ :=
    roomy.exists_shortestPath known (old.admissible oldFirst oldLast) apart
  obtain ⟨installs, entered⟩ : ∃ rules, t.installRules segment flow = .ok rules :=
    (whole.segment oldFirst oldLast found).exists_installRules distinct
  obtain ⟨deletes, deleted⟩ : ∃ rules, t.deleteRules (cut.left segment) flow = .ok rules := by
    apply Topology.exists_deleteRules
    intro n hn
    exact distinct.exists_dpid? (old.switches n (List.mem_filter.1 hn).1)
  exact ⟨segment, installs, deletes, found, entered, deleted⟩

/-- A visit to a flow with a simple path of switches comes to a result. -/
theorem exists_reroutePath (roomy : c.Roomy t) (distinct : t.DistinctIds)
    (whole : t.SwitchPath path) : ∃ visit, reroutePath t c flow v path = .ok visit := by
  unfold reroutePath
  split
  · exact ⟨_, rfl⟩
  · next i index =>
    have inside : i < path.length := (List.idxOf?_eq_some_iff.1 index).1
    have nonempty : (SegmentCut.around path i c.violates).segment ≠ [] :=
      SegmentCut.segment_around_ne_nil inside
    have parts : (SegmentCut.around path i c.violates).withSegment _ = path :=
      SegmentCut.withSegment_around inside
    dsimp only
    generalize SegmentCut.around path i c.violates = cut at nonempty parts ⊢
    subst parts
    rw [List.head?_eq_some_head nonempty, List.getLast?_eq_some_getLast nonempty]
    obtain ⟨segment, installs, deletes, found, entered, deleted⟩ := exists_segment flow
      roomy distinct whole (List.head?_eq_some_head nonempty)
      (List.getLast?_eq_some_getLast nonempty)
    change ∃ visit, (t.shortestPath _ (cut.segment.head nonempty)
      (cut.segment.getLast nonempty) >>= _) = .ok visit
    rw [found]
    by_cases same : segment = cut.segment
    · refine ⟨.unchanged, ?_⟩
      change (if segment = cut.segment then _ else _) = _
      rw [if_pos same]
      rfl
    · refine ⟨.moved (cut.withSegment segment) (installs ++ deletes), ?_⟩
      change (if segment = cut.segment then _ else _) = _
      rw [if_neg same, entered, deleted]
      rfl

/-! ### A pass -/

namespace Pass

variable {r : Forwarding} {idleTimeout : UInt16}

/-- A visit by such weights counts no failure. -/
theorem failed_visit (roomy : c.Roomy t) (distinct : t.DistinctIds) (p : Pass)
    (inStep : p.table.InStep t r) :
    (p.visit t c idleTimeout v flow).report.failed = p.report.failed := by
  have result : ∃ visit, reroute t c p.table flow v = .ok visit := by
    simp only [reroute]
    split
    · exact ⟨_, rfl⟩
    · next path known =>
      exact exists_reroutePath roomy distinct (inStep flow path known).1.toSwitchPath
  obtain ⟨visit, found⟩ := result
  exact failed_visit_of_ok found

end Pass

/-- **No visit of a pass fails** in a network whose datapath ids are distinct, by weights that stay
    in range. -/
theorem failed_rebalance (roomy : c.Roomy t) (distinct : t.DistinctIds) {table : FlowTable}
    {r : Forwarding} (inStep : table.InStep t r) (idleTimeout : UInt16) :
    (rebalance t c idleTimeout table).report.failed = 0 := by
  have kept : (rebalance t c idleTimeout table).table.InStep t
        (r.replay (rebalance t c idleTimeout table).sent) ∧
      (rebalance t c idleTimeout table).report.failed = 0 := by
    refine Pass.rebalance_keeps
      (I := fun p => p.table.InStep t (r.replay p.sent) ∧ p.report.failed = 0) ?_ ?_ ?_
    · exact ⟨inStep, rfl⟩
    · intro p notices h
      exact h
    · intro p v flow h
      obtain ⟨rules, sent, effect⟩ : ∃ rules,
          (p.visit t c idleTimeout v flow).sent = p.sent ++ rules ∧
            VisitEffect t c flow p.table (p.visit t c idleTimeout v flow).table rules :=
        p.visit_effect
      refine ⟨?_, (Pass.failed_visit roomy distinct p h.1).trans h.2⟩
      rw [sent, Forwarding.replay_append]
      exact h.1.visit effect
  exact kept.2

end PathControl
