/-
  PathControl/Proofs/Controller/Burden.lean
  =========================================
  **An energy-aware controller makes no path worse while no switch is saturated.**

  In every reached state the paths in the table are simple paths of switches, so what
  holds of a pass over such paths holds of every pass that the controller makes.
-/
import PathControl.Proofs.Controller.Reached
import PathControl.Proofs.Rebalance.Burden

namespace PathControl.Controller

variable {k k₀ : Controller FlexWeight}

theorem passCalculator_eq (energyAware : k.metric = Metric.flex) (now : Time) :
    k.passCalculator now = Metric.flex.calculator ((k.atPass now).snapshot now) := by
  obtain ⟨energy, polled⟩ := k.atPass_eq now
  simp only [passCalculator, calculator]
  rw [polled, ← energyAware]

theorem saturated_atPass {now : Time} {n : NodeId} :
    ((k.atPass now).snapshot now).Saturated n ↔ (k.snapshot now).Saturated n := by
  obtain ⟨energy, polled⟩ := k.atPass_eq now
  rw [polled]
  rfl

theorem topology_atPass (now : Time) : ((k.atPass now).snapshot now).topology = k.topology := by
  obtain ⟨energy, polled⟩ := k.atPass_eq now
  rw [polled]
  rfl

theorem InStep.exists_burden_le (h : k.InStep) (energyAware : k.metric = Metric.flex)
    {now : Time} (idle : ∀ n, ¬ (k.snapshot now).Saturated n) {flow : Flow} {path : List NodeId}
    (known : k.table.path? flow = some path) :
    ∃ path', (k.rebalance now).controller.table.path? flow = some path' ∧
      (k.passCalculator now).burden path' ≤ (k.passCalculator now).burden path := by
  obtain ⟨table, _⟩ := k.rebalance_spec now
  rw [table, passCalculator_eq energyAware, ← topology_atPass now]
  have carried (flow : Flow) (path : List NodeId) (known : k.table.path? flow = some path) :
      ((k.atPass now).snapshot now).topology.Carries flow path := by
    rw [topology_atPass]
    exact (h flow path known).1
  have lightens := lightens_rebalance (fun n => mt saturated_atPass.1 (idle n)) carried
    k.settings.idleTimeout
  obtain ⟨path', known', _, le⟩ := lightens flow path known
  exact ⟨path', known', le⟩

/-- **Rebalancing never makes a path worse.** In every reached state, if no switch is saturated at
    a pass, every flow has a path after it with fewer violating switches than before, or as many
    and no more links, by the weights of the pass. -/
theorem rebalance_burden_le {settings : Settings} {t : Topology} {telemetry : Telemetry}
    {forecast : Forecast}
    (started : start? Metric.flex settings t telemetry forecast = .ok k₀) (reached : Reached k₀ k)
    (readings : Telemetry) (now : Time)
    (idle : ∀ n, ¬ ({ k with telemetry := readings }.snapshot now).Saturated n)
    (flow : Flow) (path : List NodeId) (known : k.table.path? flow = some path) :
    ∃ path', ({ k with telemetry := readings }.rebalance now).controller.table.path? flow =
        some path' ∧
      ({ k with telemetry := readings }.passCalculator now).burden path' ≤
        ({ k with telemetry := readings }.passCalculator now).burden path := by
  obtain ⟨same, start⟩ := inStep_start started
  have metric : k.metric = Metric.flex := by
    obtain ⟨_, _, h⟩ := bind_eq_ok_iff.1 started
    cases h
    exact congrArg Prod.fst reached.given_eq
  have inStep : InStep { k with telemetry := readings } := reached.inStep start
  exact inStep.exists_burden_le metric idle known

/-- Two hosts with two ways between them, through one switch each. -/
def twoWays : Topology :=
  ((((((((((((Topology.empty.addHost "near" (some (.ofOctets 10 0 0 1)) ⟨1⟩).addHost "far"
    (some (.ofOctets 10 0 0 2)) ⟨2⟩).addSwitch "left" 1).addSwitch "up" 2).addSwitch "down"
    3).addSwitch "right" 4).addLink 0 2).addLink 2 3).addLink 3 5).addLink 2 4).addLink 4
    5).addLink 5 1)

def twoWaysForecast : Forecast :=
  ["up", "down"].foldl (fun f device => f.insert device [1.0, 1.0] [0.0, 0.0]) .empty

/-- An energy-aware controller of these. -/
def twoWaysStart : Controller FlexWeight where
  metric := Metric.flex
  settings := Settings.default
  topology := twoWays
  telemetry := .empty
  forecast := twoWaysForecast
  energy := .empty Settings.default.pollStrategy
  table := .empty
  sent := #[]
  lastReport := none

/-- The controller when a switch on one way has connected. -/
def twoWaysConnected : Controller FlexWeight :=
  (twoWaysStart.handle (.switchConnected 3) .zero .empty).controller

/-- The controller when the first switch has asked about a packet, too. -/
def twoWaysNext : Controller FlexWeight :=
  { twoWaysConnected.send [.install 3 twoHostsFlow 2, .install 1 twoHostsFlow 3] with
    table := FlowTable.empty.install twoHostsFlow [2, 4, 5] }

theorem handle_twoWaysConnected :
    (twoWaysConnected.handle (.packetIn 1 twoHostsHeader 1) .zero .empty).controller =
      twoWaysNext := by
  have reported : twoWaysConnected.reported 1 twoHostsHeader = .ok (2, twoHostsFlow) := by decide
  have found : twoWays.shortestPath (twoWaysConnected.calculator .zero) 0 1 =
      .ok [0, 2, 4, 5, 1] :=
    Topology.shortestPath_of_within 12 (by decide) (by decide +kernel)
  have route : twoWaysConnected.route twoHostsFlow .zero =
      .ok ([2, 4, 5], [.install 3 twoHostsFlow 2, .install 1 twoHostsFlow 3]) :=
    route_eq_ok_iff.2 ⟨0, 1, _, by decide, by decide, found, by decide, by decide, by decide⟩
  exact packetIn_of_route reported (FlowTable.path?_empty _) route

theorem reached_twoWaysNext : Reached twoWaysStart twoWaysNext := by
  rw [← handle_twoWaysConnected]
  exact (Reached.start.step .empty (.switchConnected 3) .zero .empty).step .empty
    (.packetIn 1 twoHostsHeader 1) .zero .empty

/-- The controller when the switch on the way reports twice the budget of a quarter of an hour. -/
def twoWaysDrawn : Controller FlexWeight :=
  { twoWaysNext with telemetry := Telemetry.empty.setPower 4 2.0 }

theorem path?_twoWays : twoWaysDrawn.table.path? twoHostsFlow = some [2, 4, 5] := by
  simp only [twoWaysDrawn, twoWaysNext]
  rw [FlowTable.path?_install, if_pos rfl]

theorem not_saturated_twoWays (now : Time) (n : NodeId) :
    ¬ (twoWaysDrawn.snapshot now).Saturated n := by
  rintro ⟨_, full⟩
  have idle : (Reading.ofFloat? 0.0).any (·.rank < Reading.one.rank) = true := by decide +kernel
  obtain ⟨r, known, low⟩ := (Option.any_eq_true _ _).1 idle
  exact absurd (full r known) (Int.not_le.2 (of_decide_eq_true low))

/-- A pass moves the flow to the other way. -/
theorem rebalance_twoWays : (twoWaysDrawn.rebalance (.ofSeconds 900)).controller.table.path?
    twoHostsFlow = some [2, 3, 5] := by
  obtain ⟨table, _⟩ := twoWaysDrawn.rebalance_spec (.ofSeconds 900)
  have work : twoWaysDrawn.table.violations (twoWaysDrawn.passCalculator (.ofSeconds 900)) =
      [(4, [twoHostsFlow])] := by decide +kernel
  have found : twoWays.shortestPath
      ((twoWaysDrawn.passCalculator (.ofSeconds 900)).excluding []) 2 5 = .ok [2, 3, 5] :=
    Topology.shortestPath_of_within 12 (by decide) (by decide +kernel)
  have moved : reroute twoWays (twoWaysDrawn.passCalculator (.ofSeconds 900)) twoWaysDrawn.table
      twoHostsFlow 4 =
        .ok (.moved [2, 3, 5] [.install 2 twoHostsFlow 2, .install 1 twoHostsFlow 2]) := by
    simp only [reroute]
    rw [path?_twoWays]
    change (twoWays.shortestPath (Calculator.excluding _ []) 2 5 >>= _) = _
    rw [found]
    rfl
  rw [table]
  simp only [PathControl.rebalance]
  rw [work]
  change (Pass.enter _ _ _ _ _
    (reroute twoWays _ twoWaysDrawn.table twoHostsFlow 4)).table.path? _ = _
  rw [moved]
  exact (FlowTable.path?_install ..).trans (if_pos rfl)

theorem rebalance_burden_le_twoWays :
    start? Metric.flex Settings.default twoWays .empty twoWaysForecast = .ok twoWaysStart ∧
      Reached twoWaysStart twoWaysNext ∧
      twoWaysNext.table.path? twoHostsFlow = some [2, 4, 5] ∧
      (∀ n, ¬ (twoWaysDrawn.snapshot (.ofSeconds 900)).Saturated n) ∧
      (twoWaysDrawn.rebalance (.ofSeconds 900)).controller.table.path? twoHostsFlow =
        some [2, 3, 5] ∧
      (twoWaysDrawn.passCalculator (.ofSeconds 900)).burden [2, 3, 5] ≤
        (twoWaysDrawn.passCalculator (.ofSeconds 900)).burden [2, 4, 5] := by
  have started : start? Metric.flex Settings.default twoWays .empty twoWaysForecast =
      .ok twoWaysStart := rfl
  obtain ⟨path', known, le⟩ := rebalance_burden_le started reached_twoWaysNext _ (.ofSeconds 900)
    (not_saturated_twoWays _) twoHostsFlow _ path?_twoWays
  cases known.symm.trans rebalance_twoWays
  exact ⟨started, reached_twoWaysNext, path?_twoWays, not_saturated_twoWays _, known, le⟩

end PathControl.Controller
