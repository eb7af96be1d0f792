/-
  PathControl/Proofs/Rebalance/Isolation.lean
  ===========================================
  **A pass moves each flow as if there were no other.**

  What concerns a flow in a pass is its path and the instructions for it (`Pass.share`).
  A visit to the flow changes them as a visit on its own would (`visitAlone`), and a
  visit to another flow does not touch them. So all that is left of a pass is the list
  of switches at which the flow is visited (`turns`). That list is read off an index
  shared by all flows, but as the index agrees with the paths, it holds the violating
  switches that the flow runs through, in order, and depends on nothing else.
-/
import PathControl.Proofs.FlowTable
import PathControl.Proofs.Rebalance
import Mathlib.Data.List.Sort

namespace PathControl

/-! ### Instructions for a flow -/

/-- The flow whose rule an instruction enters or deletes. -/
def Instruction.flow? : Instruction → Option Flow
  | .install _ flow _ | .delete _ flow => some flow
  | _ => none

/-- The instructions that enter or delete rules of a flow. -/
def rulesFor (flow : Flow) (sent : List Instruction) : List Instruction :=
  sent.filter fun i => i.flow? = some flow

@[simp] theorem rulesFor_append (flow : Flow) (sent more : List Instruction) :
    rulesFor flow (sent ++ more) = rulesFor flow sent ++ rulesFor flow more :=
  List.filter_append ..

variable {flow other : Flow} {rules : List Instruction}

theorem rulesFor_own (own : ∀ i ∈ rules, i.flow? = some flow) : rulesFor flow rules = rules :=
  List.filter_eq_self.2 fun i hi => decide_eq_true (own i hi)

theorem rulesFor_other (own : ∀ i ∈ rules, i.flow? = some other) (away : other ≠ flow) :
    rulesFor flow rules = [] := by
  refine List.filter_eq_nil_iff.2 ?_
  intro i hi
  simpa [own i hi] using away

theorem Topology.flow?_of_installRules {t : Topology} {path : List NodeId}
    (h : t.installRules path flow = .ok rules) : ∀ i ∈ rules, i.flow? = some flow := by
  intro i hi
  obtain ⟨hop, _, dpid, port, _, _, rfl⟩ := (mem_installRules h).2 i hi
  rfl

/-! ### Visits -/

variable {W : Type} [Weight W] {t : Topology} {c : Calculator W} {idleTimeout : UInt16}
  {v : NodeId}

theorem Moved.flow?_eq {cut : SegmentCut} {first last : NodeId} {segment : List NodeId}
    (m : Moved t c flow cut first last segment rules) : ∀ i ∈ rules, i.flow? = some flow := by
  intro i hi
  obtain ⟨installs, deletes, entered, deleted, rfl⟩ := m.rules
  rcases List.mem_append.1 hi with hi | hi
  · exact Topology.flow?_of_installRules entered i hi
  · obtain ⟨n, _, d, _, rfl⟩ := Topology.mem_deleteRules deleted i hi
    rfl

/-- The path of a flow, if it has one, and the instructions that were sent for it. -/
abbrev Share : Type := Option (List NodeId) × List Instruction

/-- What a visit at a switch does to a flow on its own. -/
def visitAlone (t : Topology) (c : Calculator W) (flow : Flow) (s : Share) (v : NodeId) : Share :=
  match s.1 with
  | none => s
  | some path =>
    match reroutePath t c flow v path with
    | .ok (.moved path' rules) => (some path', s.2 ++ rules)
    | _ => s

namespace Pass

/-- What a pass has done so far that concerns a flow. -/
def share (p : Pass) (flow : Flow) : Share := (p.table.path? flow, rulesFor flow p.sent)

theorem share_visit_self (p : Pass) :
    (p.visit t c idleTimeout v flow).share flow = visitAlone t c flow (p.share flow) v := by
  simp only [visit, reroute, visitAlone, share]
  cases known : p.table.path? flow with
  | none => simp [enter, known]
  | some path =>
    dsimp only
    cases found : reroutePath t c flow v path with
    | error e => simp [enter, known]
    | ok visit =>
      cases visit with
      | skipped => simp [enter, known]
      | unchanged => simp [enter, known]
      | moved path' rules =>
        obtain ⟨cut, first, last, segment, _, _, moved⟩ := moved_of_reroutePath found
        simp [enter, rulesFor_own moved.flow?_eq]

theorem share_visit_other (p : Pass) (away : other ≠ flow) :
    (p.visit t c idleTimeout v other).share flow = p.share flow := by
  obtain ⟨rules, sent, effect⟩ : ∃ rules,
      (p.visit t c idleTimeout v other).sent = p.sent ++ rules ∧
        VisitEffect t c other p.table (p.visit t c idleTimeout v other).table rules :=
    visit_effect p
  simp only [share]
  rw [sent, rulesFor_append]
  generalize (p.visit t c idleTimeout v other).table = table at effect
  cases effect with
  | none => simp [rulesFor]
  | moved known moved =>
    rw [FlowTable.path?_install, if_neg away.symm, rulesFor_other moved.flow?_eq away,
      List.append_nil]

/-- A flow has at most one turn among the flows of a switch. -/
theorem share_foldl_visit (flows : List Flow) (once : flows.Nodup) (p : Pass) :
    (flows.foldl (visit t c idleTimeout v) p).share flow =
      if flow ∈ flows then visitAlone t c flow (p.share flow) v else p.share flow := by
  induction flows generalizing p with
  | nil => rfl
  | cons first flows ih =>
    obtain ⟨fresh, once⟩ := List.nodup_cons.1 once
    rw [List.foldl_cons, ih once]
    by_cases same : first = flow
    · -- the flow is listed once, so no later visit here is for it
      subst same
      rw [if_neg fresh, if_pos List.mem_cons_self, share_visit_self]
    · rw [share_visit_other p same]
      simp [@eq_comm _ flow, same]

end Pass

/-- The switches of a work list at which a flow is visited. -/
def turns (flow : Flow) (work : List (NodeId × List Flow)) : List NodeId :=
  (work.filter fun w => flow ∈ w.2).map Prod.fst

theorem Pass.share_foldl_visitAll (work : List (NodeId × List Flow))
    (once : ∀ w ∈ work, w.2.Nodup) (p : Pass) :
    (work.foldl (visitAll t c idleTimeout) p).share flow =
      (turns flow work).foldl (visitAlone t c flow) (p.share flow) := by
  induction work generalizing p with
  | nil => rfl
  | cons w work ih =>
    obtain ⟨onceHere, once⟩ := List.forall_mem_cons.1 once
    rw [List.foldl_cons, ih once]
    simp only [visitAll, turns]
    rw [share_foldl_visit w.2 onceHere]
    by_cases turn : flow ∈ w.2 <;> simp [turn] <;> rfl

/-! ### Turns -/

namespace FlowTable

variable {table table' : FlowTable}

theorem nodup_flowsThrough (n : NodeId) : (table.flowsThrough n).Nodup := by
  refine (ordered_flowsThrough n).imp ?_
  rintro f g less rfl
  simp at less

theorem mem_turns_iff (h : table.Indexed) (n : NodeId) :
    n ∈ turns flow (table.violations c) ↔
      c.violates n = true ∧ ∃ path, table.path? flow = some path ∧ n ∈ interior path := by
  simp only [turns, violations, List.mem_map, List.mem_filter]
  constructor
  · rintro ⟨_, ⟨⟨m, ⟨_, violates⟩, rfl⟩, turn⟩, rfl⟩
    exact ⟨violates, (h.mem_flowsThrough_iff flow m).1 (of_decide_eq_true turn)⟩
  · rintro ⟨violates, runs⟩
    have turn := (h.mem_flowsThrough_iff flow n).2 runs
    have loaded := (h.mem_loadedNodes_iff n).2 (List.ne_nil_of_mem turn)
    exact ⟨_, ⟨⟨n, ⟨loaded, violates⟩, rfl⟩, decide_eq_true turn⟩, rfl⟩

theorem ordered_turns : (turns flow (table.violations c)).Pairwise (· < ·) := by
  have nodes : ((table.violations c).map Prod.fst).Pairwise (· < ·) := by
    simp only [violations, List.map_map]
    change ((table.loadedNodes.filter c.violates).map id).Pairwise _
    rw [List.map_id]
    exact ordered_loadedNodes.filter _
  exact nodes.sublist (List.filter_sublist.map _)

/-- The turns of a flow depend on its path only. -/
theorem turns_eq (h : table.Indexed) (h' : table'.Indexed)
    (same : table.path? flow = table'.path? flow) :
    turns flow (table.violations c) = turns flow (table'.violations c) := by
  refine ordered_turns.eq_of_mem_iff ordered_turns ?_
  intro n
  rw [mem_turns_iff h, mem_turns_iff h', same]

end FlowTable

/-- A pass does to a flow what the visits at its turns do to it on their own. -/
theorem share_rebalance (table : FlowTable) :
    (rebalance t c idleTimeout table).share flow =
      (turns flow (table.violations c)).foldl (visitAlone t c flow) (table.path? flow, []) := by
  have once : ∀ w ∈ table.violations c, w.2.Nodup := by
    intro w hw
    obtain ⟨n, _, rfl⟩ := List.mem_map.1 hw
    exact FlowTable.nodup_flowsThrough n
  simp only [rebalance]
  rw [Pass.share_foldl_visitAll _ once]
  rfl

/-- **A pass moves each flow as if there were no other.** On two tables that have the same path for
    a flow it gives the flow the same path, by the same instructions. -/
theorem share_rebalance_eq {table table' : FlowTable} (h : table.Indexed) (h' : table'.Indexed)
    (same : table.path? flow = table'.path? flow) :
    (rebalance t c idleTimeout table).share flow =
      (rebalance t c idleTimeout table').share flow := by
  rw [share_rebalance, share_rebalance, FlowTable.turns_eq h h' same, same]

/-- A pass keeps the index of its table. -/
theorem FlowTable.Indexed.rebalance {table : FlowTable} (h : table.Indexed) :
    (PathControl.rebalance t c idleTimeout table).table.Indexed := by
  refine Pass.rebalance_induction (I := fun table _ => table.Indexed) h ?_
  intro table sent flow table' rules before effect
  cases effect with
  | none => exact before
  | moved known moved => exact before.install _ _

end PathControl
