/-
  PathControl/Proofs/Rebalance/Account.lean
  =========================================
  **The report of a pass accounts for all of its visits, and the rest stays as it was.**

  A pass visits each flow once at every violating switch that its path runs through
  (`FlowTable.mem_visits_iff`), and every visit is counted by what it comes to, once
  (`Pass.tallied_visit`). A flow that runs through no violating switch has no turn in a
  pass, so nothing happens to it. Only a visit that moves a flow changes the table or
  sends anything, and such a visit is counted as one (`Pass.still_visit`).
-/
import PathControl.Proofs.Rebalance.Isolation
import PathControl.Proofs.Rebalance.Visits
import Mathlib.Data.Set.Card

namespace PathControl

variable {W : Type} [Weight W] {t : Topology} {c : Calculator W} {idleTimeout : UInt16}
  {v n : NodeId} {flow : Flow} {p : Pass}

theorem encard_of_nodup {α : Type} {l : List α} {s : Set α} (once : l.Nodup)
    (same : ∀ a, a ∈ l ↔ a ∈ s) : s.encard = l.length := by
  classical
  have listed : s = (l.toFinset : Set α) := by
    ext a
    rw [List.coe_toFinset]
    exact (same a).symm
  rw [listed, Set.encard_coe_eq_coe_finsetCard, List.toFinset_card_of_nodup once]

/-! ### What a pass visits -/

namespace FlowTable

variable {table : FlowTable}

/-- The path of a flow runs through a node. -/
def Loads (table : FlowTable) (flow : Flow) (n : NodeId) : Prop :=
  ∃ path, table.path? flow = some path ∧ RunsThrough path n

theorem Indexed.mem_flowsThrough_iff_loads (h : table.Indexed) :
    flow ∈ table.flowsThrough n ↔ table.Loads flow n := by
  rw [h.mem_flowsThrough_iff]
  simp only [Loads, mem_interior_iff]

theorem Indexed.mem_loadedNodes_iff_exists (h : table.Indexed) :
    n ∈ table.loadedNodes ↔ ∃ flow, table.Loads flow n := by
  rw [h.mem_loadedNodes_iff]
  constructor
  · intro busy
    obtain ⟨flow, here⟩ := List.exists_mem_of_ne_nil _ busy
    exact ⟨flow, h.mem_flowsThrough_iff_loads.1 here⟩
  · rintro ⟨flow, here⟩
    exact List.ne_nil_of_mem (h.mem_flowsThrough_iff_loads.2 here)

theorem mem_visits_iff (h : table.Indexed) :
    (n, flow) ∈ table.visits c ↔ c.violates n = true ∧ table.Loads flow n := by
  simp only [visits, violations, List.mem_flatMap, List.mem_map, List.mem_filter]
  constructor
  · rintro ⟨_, ⟨m, ⟨_, violates⟩, rfl⟩, other, here, same⟩
    cases same
    exact ⟨violates, h.mem_flowsThrough_iff_loads.1 here⟩
  · rintro ⟨violates, here⟩
    have loaded := h.mem_loadedNodes_iff_exists.2 ⟨flow, here⟩
    exact ⟨_, ⟨n, ⟨loaded, violates⟩, rfl⟩, flow, h.mem_flowsThrough_iff_loads.2 here, rfl⟩

theorem nodup_violating : (table.loadedNodes.filter c.violates).Nodup := by
  apply List.Nodup.filter
  exact ordered_loadedNodes.imp Nat.ne_of_lt

theorem nodup_visits : (table.visits c).Nodup := by
  simp only [visits, violations, List.flatMap_map]
  rw [List.nodup_flatMap]
  constructor
  · intro m _
    exact (nodup_flowsThrough m).map (Prod.mk_right_injective m)
  · -- visits of different switches differ in the switch
    refine nodup_violating.imp ?_
    intro m m' away visit here there
    obtain ⟨_, _, rfl⟩ := List.mem_map.1 here
    obtain ⟨_, _, same⟩ := List.mem_map.1 there
    exact away (congrArg Prod.fst same).symm

end FlowTable

/-! ### How visits are counted -/

/-- A report of a number of visits: each is examined, and counted once by what it came to. -/
structure RebalanceReport.Tallies (r : RebalanceReport) (visits : Nat) : Prop where
  examined : r.examined = visits
  outcomes : r.rerouted + r.unchanged + r.skipped + r.failed = visits

namespace Pass

theorem tallied_visit {visits : Nat} (h : p.report.Tallies visits) :
    (p.visit t c idleTimeout v flow).report.Tallies (visits + 1) := by
  obtain ⟨examined, outcomes⟩ := h
  simp only [visit]
  cases reroute t c p.table flow v with
  | error e =>
    constructor <;> simp only [enter] <;> omega
  | ok result =>
    cases result <;> constructor <;> simp only [enter] <;> omega

theorem violating_visit :
    (p.visit t c idleTimeout v flow).report.violating = p.report.violating := by
  simp only [visit]
  cases reroute t c p.table flow v with
  | error e => rfl
  | ok result => cases result <;> rfl

/-- Only a visit that is counted as moving its flow changes the table or sends anything. -/
theorem still_visit (none : (p.visit t c idleTimeout v flow).report.rerouted = 0) :
    p.report.rerouted = 0 ∧ (p.visit t c idleTimeout v flow).table = p.table ∧
      (p.visit t c idleTimeout v flow).sent = p.sent := by
  simp only [visit] at none ⊢
  cases found : reroute t c p.table flow v with
  | error e =>
    rw [found] at none
    exact ⟨none, rfl, rfl⟩
  | ok result =>
    rw [found] at none
    cases result with
    | skipped => exact ⟨none, rfl, rfl⟩
    | unchanged => exact ⟨none, rfl, rfl⟩
    | moved path rules => cases none

variable {table : FlowTable}

theorem tallied_after (visits : List (NodeId × Flow)) :
    (after t c idleTimeout table visits).report.Tallies visits.length := by
  induction visits using List.reverseRecOn with
  | nil => exact ⟨rfl, rfl⟩
  | append_singleton visits visit ih =>
    rw [after_concat, List.length_append]
    exact tallied_visit ih

theorem violating_after (visits : List (NodeId × Flow)) :
    (after t c idleTimeout table visits).report.violating = (table.violations c).length := by
  induction visits using List.reverseRecOn with
  | nil => rfl
  | append_singleton visits visit ih =>
    rw [after_concat, violating_visit, ih]

theorem still_after (visits : List (NodeId × Flow))
    (none : (after t c idleTimeout table visits).report.rerouted = 0) :
    (after t c idleTimeout table visits).table = table ∧
      (after t c idleTimeout table visits).sent = [] := by
  induction visits using List.reverseRecOn with
  | nil => exact ⟨rfl, rfl⟩
  | append_singleton visits visit ih =>
    rw [after_concat] at none ⊢
    obtain ⟨before, sameTable, sameSent⟩ := still_visit none
    rw [sameTable, sameSent]
    exact ih before

end Pass

/-! ### Flows without a turn -/

variable {table : FlowTable}

theorem FlowTable.turns_eq_nil (h : table.Indexed)
    (spared : ∀ n, table.Loads flow n → c.violates n = false) :
    turns flow (table.violations c) = [] := by
  rw [List.eq_nil_iff_forall_not_mem]
  intro n turn
  obtain ⟨violates, path, known, inner⟩ := (mem_turns_iff h n).1 turn
  rw [spared n ⟨path, known, mem_interior_iff.1 inner⟩] at violates
  cases violates

/-- A pass does nothing to a flow that runs through no violating node. -/
theorem rebalance_of_spared (h : table.Indexed)
    (spared : ∀ n, table.Loads flow n → c.violates n = false) :
    (rebalance t c idleTimeout table).table.path? flow = table.path? flow ∧
      ∀ i ∈ (rebalance t c idleTimeout table).sent, i.flow? ≠ some flow := by
  have share : (rebalance t c idleTimeout table).share flow = (table.path? flow, []) := by
    rw [share_rebalance, FlowTable.turns_eq_nil h spared]
    rfl
  refine ⟨congrArg Prod.fst share, ?_⟩
  intro i hi own
  have none : rulesFor flow (rebalance t c idleTimeout table).sent = [] := congrArg Prod.snd share
  have mine : i ∈ rulesFor flow (rebalance t c idleTimeout table).sent :=
    List.mem_filter.2 ⟨hi, decide_eq_true own⟩
  rw [none] at mine
  cases mine

/-- Every instruction of a pass enters or deletes the rule of a flow. -/
theorem exists_flow_of_rebalance :
    ∀ i ∈ (rebalance t c idleTimeout table).sent, ∃ flow, i.flow? = some flow := by
  refine Pass.rebalance_induction
    (I := fun _ sent => ∀ i ∈ sent, ∃ flow, i.flow? = some flow) ?_ ?_
  · intro i hi
    cases hi
  · intro _ sent flow _ rules before effect i hi
    rcases List.mem_append.1 hi with hi | hi
    · exact before i hi
    · cases effect with
      | none => cases hi
      | moved known moved => exact ⟨flow, moved.flow?_eq i hi⟩

/-! ### The account of a pass -/

/-- What the report of a pass over a table counts, and what the pass leaves as it was. -/
structure Pass.Accounts (c : Calculator W) (table : FlowTable) (p : Pass) : Prop where
  /-- The violating nodes that some flow runs through. -/
  violating : {n | c.violates n = true ∧ ∃ flow, table.Loads flow n}.encard = p.report.violating
  /-- These nodes, each with every flow that runs through it. -/
  examined : {visit : NodeId × Flow | c.violates visit.1 = true ∧
    table.Loads visit.2 visit.1}.encard = p.report.examined
  outcomes : p.report.examined =
    p.report.rerouted + p.report.unchanged + p.report.skipped + p.report.failed
  spared : ∀ flow, (∀ n, table.Loads flow n → c.violates n = false) →
    p.table.path? flow = table.path? flow ∧ ∀ i ∈ p.sent, i.flow? ≠ some flow
  /-- What is sent is for flows that run through a violating node. -/
  sent : ∀ i ∈ p.sent, ∃ flow n, i.flow? = some flow ∧ table.Loads flow n ∧ c.violates n = true
  flows : ∀ flow, p.table.contains flow = table.contains flow
  still : p.report.rerouted = 0 → p.table = table ∧ p.sent = []

theorem accounts_of_indexed (h : table.Indexed) :
    (rebalance t c idleTimeout table).Accounts c table := by
  have done := Pass.done_rebalance t c idleTimeout table
  have report : (rebalance t c idleTimeout table).report =
      (Pass.after t c idleTimeout table (table.visits c)).report := congrArg (·.2.1) done
  have tallied : (rebalance t c idleTimeout table).report.Tallies (table.visits c).length := by
    rw [report]
    exact Pass.tallied_after _
  constructor
  · rw [report, Pass.violating_after, FlowTable.violations, List.length_map]
    apply encard_of_nodup FlowTable.nodup_violating
    intro n
    rw [List.mem_filter, h.mem_loadedNodes_iff_exists]
    exact and_comm
  · rw [tallied.examined]
    apply encard_of_nodup FlowTable.nodup_visits
    rintro ⟨n, flow⟩
    exact FlowTable.mem_visits_iff h
  · rw [tallied.examined, tallied.outcomes]
  · intro flow spared
    exact rebalance_of_spared h spared
  · intro i hi
    obtain ⟨flow, own⟩ := exists_flow_of_rebalance i hi
    by_contra none
    have spared : ∀ n, table.Loads flow n → c.violates n = false := by
      intro n here
      apply Bool.eq_false_iff.2
      intro violates
      exact none ⟨flow, n, own, here, violates⟩
    exact (rebalance_of_spared h spared).2 i hi own
  · exact contains_rebalance
  · intro none
    rw [report] at none
    obtain ⟨sameTable, nothing⟩ := Pass.still_after _ none
    exact ⟨(congrArg Prod.fst done).trans sameTable, (congrArg (·.2.2) done).trans nothing⟩

/-- **The report of a pass accounts for all of its visits, and what no visit moves stays as it
    was**, for every table that storing and forgetting paths can make. -/
theorem rebalance_accounts (t : Topology) (c : Calculator W) (idleTimeout : UInt16)
    (changes : List FlowTable.Change) :
    (rebalance t c idleTimeout (changes.foldl FlowTable.change .empty)).Accounts c
      (changes.foldl FlowTable.change .empty) := by
  apply accounts_of_indexed
  exact FlowTable.indexed_foldl_change changes FlowTable.indexed_empty

end PathControl
