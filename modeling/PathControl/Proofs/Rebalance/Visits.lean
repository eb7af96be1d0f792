/-
  PathControl/Proofs/Rebalance/Visits.lean
  ========================================
  **A pass is a sequence of visits, and a visit that fails only counts itself.**

  The visits of a pass are known before the first of them (`FlowTable.visits`), and
  what it tells apart, a pass is these visits one after another
  (`Pass.done_rebalance`). A visit is counted as failed exactly if no segment, or no
  rules along it, could be made. It then neither moves a flow nor sends anything
  (`Pass.done_visit_of_failed`).
-/
import PathControl.Proofs.Rebalance

namespace PathControl

variable {W : Type} [Weight W] {t : Topology} {c : Calculator W} {idleTimeout : UInt16}
  {table : FlowTable} {v : NodeId} {flow : Flow} {p p' : Pass}

/-- The flows that a pass visits, each with the violating switch that it is visited for. -/
def FlowTable.visits (table : FlowTable) (c : Calculator W) : List (NodeId × Flow) :=
  (table.violations c).flatMap fun work => work.2.map fun flow => (work.1, flow)

namespace Pass

/-- A pass over the flows of a table after some visits. -/
def after (t : Topology) (c : Calculator W) (idleTimeout : UInt16) (table : FlowTable)
    (visits : List (NodeId × Flow)) : Pass :=
  visits.foldl (fun p (v, flow) => p.visit t c idleTimeout v flow)
    { table, report := { violating := (table.violations c).length } }

/-- What a pass has done, apart from what it tells. -/
def done (p : Pass) : FlowTable × RebalanceReport × List Instruction :=
  (p.table, p.report, p.sent)

theorem after_concat (visits : List (NodeId × Flow)) :
    after t c idleTimeout table (visits ++ [(v, flow)]) =
      (after t c idleTimeout table visits).visit t c idleTimeout v flow := by
  simp only [after, List.foldl_append, List.foldl_cons, List.foldl_nil]

/-! ### What is told does not matter -/

theorem done_visit (same : p.done = p'.done) :
    (p.visit t c idleTimeout v flow).done = (p'.visit t c idleTimeout v flow).done := by
  obtain ⟨table, report, sent, notices⟩ := p
  obtain ⟨table', report', sent', notices'⟩ := p'
  cases same
  simp only [visit]
  rcases reroute t c table flow v with e | visit
  · rfl
  · cases visit <;> rfl

theorem done_visits (t : Topology) (c : Calculator W) (idleTimeout : UInt16)
    (visits : List (NodeId × Flow)) (same : p.done = p'.done) :
    (visits.foldl (fun p (v, flow) => p.visit t c idleTimeout v flow) p).done =
      (visits.foldl (fun p (v, flow) => p.visit t c idleTimeout v flow) p').done := by
  induction visits generalizing p p' with
  | nil => exact same
  | cons visit rest ih =>
    apply ih
    exact done_visit same

theorem done_visitAll (work : List (NodeId × List Flow)) (same : p.done = p'.done) :
    (work.foldl (visitAll t c idleTimeout) p).done =
      ((work.flatMap fun work => work.2.map fun flow => (work.1, flow)).foldl
        (fun p (v, flow) => p.visit t c idleTimeout v flow) p').done := by
  induction work generalizing p p' with
  | nil => exact same
  | cons one work ih =>
    rw [List.foldl_cons, List.flatMap_cons, List.foldl_append]
    apply ih
    -- a pass tells which switch it comes to, which no visit depends on
    have told : { p with
        notices := p.notices ++ [Notice.violation (t.name one.1) one.2.length] }.done =
          p'.done := same
    have visits := done_visits t c idleTimeout (one.2.map fun flow => (one.1, flow)) told
    rw [List.foldl_map] at visits
    exact visits

/-- **A pass is its visits one after another.** -/
theorem done_rebalance (t : Topology) (c : Calculator W) (idleTimeout : UInt16)
    (table : FlowTable) :
    (rebalance t c idleTimeout table).done =
      (after t c idleTimeout table (table.visits c)).done :=
  done_visitAll (table.violations c) rfl

/-! ### Visits that fail -/

/-- A visit that can make no segment, or no rules along it, is counted and does nothing else. -/
theorem done_visit_of_error {e : Error} (failed : reroute t c p.table flow v = .error e) :
    (p.visit t c idleTimeout v flow).done =
      (p.table, { p.report with
        examined := p.report.examined + 1, failed := p.report.failed + 1 }, p.sent) := by
  simp only [visit]
  rw [failed]
  rfl

/-- Only such visits are counted as failed. -/
theorem failed_visit_of_ok {visit : Visit} (made : reroute t c p.table flow v = .ok visit) :
    (p.visit t c idleTimeout v flow).report.failed = p.report.failed := by
  simp only [Pass.visit]
  rw [made]
  cases visit <;> rfl

theorem done_visit_of_failed
    (failed : (p.visit t c idleTimeout v flow).report.failed ≠ p.report.failed) :
    (p.visit t c idleTimeout v flow).table = p.table ∧
      (p.visit t c idleTimeout v flow).sent = p.sent := by
  cases result : reroute t c p.table flow v with
  | ok visit => exact absurd (failed_visit_of_ok result) failed
  | error e =>
    have done : (p.visit t c idleTimeout v flow).done = _ := done_visit_of_error result
    exact ⟨congrArg Prod.fst done, congrArg (fun done => done.2.2) done⟩

end Pass

end PathControl
