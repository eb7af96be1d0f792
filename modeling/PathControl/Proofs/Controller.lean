/-
  PathControl/Proofs/Controller.lean
  ==================================
  **Every event keeps the table and the switches in step.**

  An event touches the table and sends instructions in one of four ways (`Effect`):
  it leaves the flows alone, enters a flow along a new path, forgets a flow, or is a
  rebalance pass. Each of them keeps `FlowTable.InStep`, so it holds in every state
  that a controller reaches from its start.
-/
import PathControl.Controller
import PathControl.Proofs.Rebalance

namespace PathControl.Controller

variable {W : Type} {k : Controller W}

/-! ### Handlers that leave the controller alone -/

theorem answer_controller (dpid : Dpid) (switch : NodeId) (flow : Flow) (inPort : UInt32)
    (path : List NodeId) : (k.answer dpid switch flow inPort path).controller = k := by
  simp only [answer]
  split <;> rfl

theorem again_controller (queue : EventQueue) (interval : Time) (event : Event)
    (notices : List Notice) : (Handled.again k queue interval event notices).controller = k := by
  simp only [Handled.again]
  split <;> rfl

/-! ### What was given -/

/-- What a controller was started with, the readings apart. -/
def given (k : Controller W) : Metric W × Settings × Topology × Forecast :=
  (k.metric, k.settings, k.topology, k.forecast)

theorem settings_eq_of_given {k' : Controller W} (h : k'.given = k.given) :
    k'.settings = k.settings := congrArg (fun given => given.2.1) h

theorem topology_eq_of_given {k' : Controller W} (h : k'.given = k.given) :
    k'.topology = k.topology := congrArg (fun given => given.2.2.1) h

/-! ### Polling ahead of a pass -/

/-- The controller that a pass weighs the switches by. -/
def atPass (k : Controller W) (now : Time) : Controller W :=
  match k.energy.strategy with
  | .perFlowRead => k.pollEnergy now
  | .forecastNormalized => k

/-- Polling ahead of a pass changes the samples only. -/
theorem atPass_eq (k : Controller W) (now : Time) :
    ∃ energy, k.atPass now = { k with energy := energy } := by
  simp only [atPass]
  cases k.energy.strategy with
  | perFlowRead => exact ⟨_, rfl⟩
  | forecastNormalized => exact ⟨_, rfl⟩

/-! ### New flows -/

/-- A new path consists of the switches on a found path between the hosts of the flow. -/
theorem route_eq_ok_iff [Weight W] {flow : Flow} {now : Time} {path : List NodeId}
    {rules : List Instruction} : k.route flow now = .ok (path, rules) ↔
      ∃ source target full, k.topology.hostWith? flow.key.source = some source ∧
        k.topology.hostWith? flow.key.destination = some target ∧
        k.topology.shortestPath (k.calculator now) source target = .ok full ∧
        path = full.filter k.topology.isSwitch ∧ path ≠ [] ∧
        k.topology.installRules path flow = .ok rules := by
  unfold route Topology.shortestPathBetween
  constructor
  · intro h
    obtain ⟨full, found, h⟩ := bind_eq_ok_iff.1 h
    obtain ⟨source, sender, found⟩ := bind_eq_ok_iff.1 found
    obtain ⟨target, receiver, found⟩ := bind_eq_ok_iff.1 found
    split at h
    · dsimp only at h
      split at h
      · cases h
      · next crosses =>
        obtain ⟨rules', along, h⟩ := bind_eq_ok_iff.1 h
        cases h
        exact ⟨source, target, full, Topology.hostWith_eq_ok_iff.1 sender,
          Topology.hostWith_eq_ok_iff.1 receiver, found, rfl, by simpa using crosses, along⟩
    · cases h
  · rintro ⟨source, target, full, sender, receiver, found, rfl, crosses, along⟩
    refine bind_eq_ok_iff.2 ⟨full, ?_, ?_⟩
    · exact bind_eq_ok_iff.2 ⟨source, Topology.hostWith_eq_ok_iff.2 sender,
        bind_eq_ok_iff.2 ⟨target, Topology.hostWith_eq_ok_iff.2 receiver, found⟩⟩
    · have some_ : full ≠ [] := by
        rintro rfl
        exact crosses rfl
      rw [List.head?_eq_some_head some_, List.getLast?_eq_some_getLast some_]
      dsimp only
      rw [if_neg (by simpa using crosses), along]
      rfl

theorem packetIn_of_route [Weight W] {dpid : Dpid} {header : Header} {inPort : UInt32} {now : Time}
    {switch : NodeId} {flow : Flow} {path : List NodeId} {rules : List Instruction}
    (reported : k.reported dpid header = .ok (switch, flow)) (new : k.table.path? flow = none)
    (route : k.route flow now = .ok (path, rules)) :
    (k.packetIn dpid header inPort now).controller =
      { k.send rules with table := k.table.install flow path } := by
  simp only [packetIn, installFlow]
  rw [reported]
  dsimp only
  rw [new]
  dsimp only
  rw [route]
  exact answer_controller ..

/-! ### What an event does -/

variable [Weight W]

/-- What an event does to the table and which instructions it sends. -/
inductive Effect (k : Controller W) : FlowTable → List Instruction → Prop where
  | quiet {rules} (silent : ∀ i ∈ rules, ∀ dpid flow, ¬ Instruction.Concerns dpid flow i) :
      Effect k k.table rules
  | entered {flow now path rules} (route : k.route flow now = .ok (path, rules)) :
      Effect k (k.table.install flow path) rules
  | forgotten (flow : Flow) : Effect k (k.table.evict flow) []
  | rebalanced (c : Calculator W) (idleTimeout : UInt16) :
      Effect k (PathControl.rebalance k.topology c idleTimeout k.table).table
        (PathControl.rebalance k.topology c idleTimeout k.table).sent

structure After (k k' : Controller W) (rules : List Instruction) : Prop where
  topology : k'.topology = k.topology
  sent : k'.sent.toList = k.sent.toList ++ rules
  effect : Effect k k'.table rules

theorem After.refl (k : Controller W) : After k k [] :=
  ⟨rfl, (List.append_nil _).symm, Effect.quiet fun _ hi => absurd hi List.not_mem_nil⟩

theorem switchConnected_after (dpid : Dpid) (now : Time) :
    ∃ rules, After k (k.switchConnected dpid now).controller rules := by
  simp only [switchConnected]
  split
  · exact ⟨[], After.refl k⟩
  · next n rules greeted =>
    obtain ⟨n', _, h⟩ := bind_eq_ok_iff.1 greeted
    obtain ⟨rules', told, h⟩ := bind_eq_ok_iff.1 h
    cases h
    exact ⟨rules, rfl, by simp [send],
      Effect.quiet fun i hi dpid flow => Topology.not_concerns_of_handshake told hi dpid⟩

theorem packetIn_after (dpid : Dpid) (header : Header) (inPort : UInt32) (now : Time) :
    ∃ rules, After k (k.packetIn dpid header inPort now).controller rules := by
  simp only [packetIn]
  split
  · exact ⟨[], After.refl k⟩
  · next switch flow reported =>
    split
    · rw [answer_controller]
      exact ⟨[], After.refl k⟩
    · simp only [installFlow]
      split
      · exact ⟨[], After.refl k⟩
      · next path rules route =>
        dsimp only
        rw [answer_controller]
        exact ⟨rules, rfl, by simp [send], Effect.entered route⟩

theorem flowRemoved_after (dpid : Dpid) (header : Header) (reason : RemovalReason) :
    ∃ rules, After k (k.flowRemoved dpid header reason).controller rules := by
  simp only [flowRemoved]
  split
  · simp only [flowIdle]
    split
    · exact ⟨[], After.refl k⟩
    · next switch flow reported =>
      split
      · exact ⟨[], After.refl k⟩
      · split
        · exact ⟨[], rfl, (List.append_nil _).symm, Effect.forgotten flow⟩
        · exact ⟨[], After.refl k⟩
  · exact ⟨[], After.refl k⟩

theorem rebalance_after (now : Time) :
    ∃ rules, After k (k.rebalance now).controller rules := by
  simp only [rebalance]
  split
  · exact ⟨_, rfl, by simp [moveFlows, send, pollEnergy], Effect.rebalanced _ _⟩
  · exact ⟨_, rfl, by simp [moveFlows, send, pollEnergy], Effect.rebalanced _ _⟩

theorem handle_after (event : Event) (now : Time) (queue : EventQueue) :
    ∃ rules, After k (k.handle event now queue).controller rules := by
  cases event with
  | switchConnected dpid => exact switchConnected_after dpid now
  | packetIn dpid header inPort => exact packetIn_after dpid header inPort now
  | flowRemoved dpid header reason => exact flowRemoved_after dpid header reason
  | pollEnergy =>
    simp only [handle]
    rw [again_controller]
    obtain ⟨topology, sent, effect⟩ := After.refl k
    exact ⟨[], topology, sent, effect⟩
  | rebalance =>
    simp only [handle]
    rw [again_controller]
    exact rebalance_after now

/-! ### Rebalance passes -/

def passCalculator (k : Controller W) (now : Time) : Calculator W := (k.atPass now).calculator now

/-- What a pass does, and what it reports. -/
theorem rebalance_spec (k : Controller W) (now : Time) :
    let pass := PathControl.rebalance k.topology (k.passCalculator now) k.settings.idleTimeout
      k.table
    (k.rebalance now).controller.table = pass.table ∧
      (k.rebalance now).controller.sent = k.sent ++ pass.sent ∧
      (k.rebalance now).result = .ok pass.report ∧
      (k.rebalance now).controller.lastReport = some pass.report := by
  simp only [rebalance, passCalculator, atPass]
  cases k.energy.strategy with
  | perFlowRead => exact ⟨rfl, rfl, rfl, rfl⟩
  | forecastNormalized => exact ⟨rfl, rfl, rfl, rfl⟩

/-! ### What no event changes -/

/-- An event changes the samples, the table, the instructions and the report at most, and the
    report only if it is a rebalance pass. -/
theorem handle_eq (event : Event) (now : Time) (queue : EventQueue) :
    ∃ energy table sent report, (k.handle event now queue).controller =
        { k with energy := energy, table := table, sent := sent, lastReport := report } ∧
      (event = .rebalance ∨ report = k.lastReport) := by
  cases event with
  | switchConnected dpid =>
    simp only [handle, Handled.ofReaction, switchConnected]
    split
    · exact ⟨_, _, _, _, rfl, Or.inr rfl⟩
    · exact ⟨_, _, _, _, rfl, Or.inr rfl⟩
  | packetIn dpid header inPort =>
    simp only [handle, Handled.ofReaction, packetIn]
    split
    · exact ⟨_, _, _, _, rfl, Or.inr rfl⟩
    · split
      · rw [answer_controller]
        exact ⟨_, _, _, _, rfl, Or.inr rfl⟩
      · simp only [installFlow]
        split
        · exact ⟨_, _, _, _, rfl, Or.inr rfl⟩
        · dsimp only
          rw [answer_controller]
          exact ⟨_, _, _, _, rfl, Or.inr rfl⟩
  | flowRemoved dpid header reason =>
    simp only [handle, Handled.ofReaction, flowRemoved, flowIdle]
    split
    · split
      · exact ⟨_, _, _, _, rfl, Or.inr rfl⟩
      · split
        · exact ⟨_, _, _, _, rfl, Or.inr rfl⟩
        · split <;> exact ⟨_, _, _, _, rfl, Or.inr rfl⟩
    · exact ⟨_, _, _, _, rfl, Or.inr rfl⟩
  | pollEnergy =>
    simp only [handle]
    rw [again_controller]
    exact ⟨_, _, _, _, rfl, Or.inr rfl⟩
  | rebalance =>
    simp only [handle]
    rw [again_controller]
    simp only [rebalance]
    split
    · exact ⟨_, _, _, _, rfl, Or.inl trivial⟩
    · exact ⟨_, _, _, _, rfl, Or.inl trivial⟩

theorem handle_given (event : Event) (now : Time) (queue : EventQueue) :
    (k.handle event now queue).controller.given = k.given := by
  obtain ⟨energy, table, sent, report, after, _⟩ := k.handle_eq event now queue
  rw [after]
  rfl

theorem rebalance_table_ends [LawfulWeight W] (k : Controller W) (now : Time) (flow : Flow) :
    ((k.rebalance now).controller.table.path? flow).map ends =
      (k.table.path? flow).map ends := by
  simp only [rebalance]
  split
  · exact rebalance_ends_eq _ flow
  · exact rebalance_ends_eq _ flow

end PathControl.Controller
