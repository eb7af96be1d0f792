/-
  PathControl/Proofs/Controller/NoFailure.lean
  ============================================
  **What an event can be refused for in a well-formed network.**

  A controller refuses an event for what the switch reports: it is not known, the
  header of its packet names no flow, an address of the flow belongs to no host, or
  there is no way between the hosts. In a network of at most 65535 nodes with distinct
  datapath ids nothing else goes wrong, whatever the switches read: no weight leaves
  its range, every switch on a path can be sent its rule, and no visit of a rebalance
  pass fails.
-/
import PathControl.Proofs.Controller.Burden
import PathControl.Proofs.Controller.Refusal
import PathControl.Proofs.Rebalance.NoFailure

namespace PathControl

/-- A cause that lies in what a switch reports or in how the hosts are joined, not in the
    controller. -/
def Error.Reported : Error → Prop
  | .unknownSwitch _ | .missingField _ | .unresolvedAddress _ | .noPath _ _ => True
  | _ => False

theorem Topology.reported_of_switchWith {t : Topology} {dpid : Dpid} {e : Error}
    (h : t.switchWith dpid = .error e) : e.Reported := by
  simp only [switchWith] at h
  split at h
  · cases h
  · cases h
    trivial

theorem Topology.reported_of_hostWith {t : Topology} {address : HostAddress} {e : Error}
    (h : t.hostWith address = .error e) : e.Reported := by
  simp only [hostWith] at h
  split at h
  · cases h
  · cases h
    trivial

namespace Controller

variable {W : Type} {k k₀ : Controller W} {e : Error}

theorem reported_of_reported {dpid : Dpid} {header : Header}
    (h : k.reported dpid header = .error e) : e.Reported := by
  rcases bind_eq_error_iff.1 h with h | ⟨switch, _, h⟩
  · exact Topology.reported_of_switchWith h
  · rcases bind_eq_error_iff.1 h with h | ⟨flow, _, h⟩
    · simp only [flowOf] at h
      cases named : header.flow k.settings.priorities with
      | error field =>
        rw [named] at h
        cases h
        trivial
      | ok flow =>
        rw [named] at h
        cases h
    · cases h

/-- A switch that is known gets its first rules. -/
theorem reported_of_greeting {dpid : Dpid} (h : k.greeting dpid = .error e) : e.Reported := by
  rcases bind_eq_error_iff.1 h with h | ⟨n, known, h⟩
  · exact Topology.reported_of_switchWith h
  · exfalso
    have named := Topology.dpid?_of_switchWith? (Topology.switchWith_eq_ok_iff.1 known)
    simp only [Topology.handshake] at h
    rw [Topology.dpidOf_eq_ok_iff.2 named] at h
    cases h

theorem reported_of_flowRemoved {dpid : Dpid} {header : Header} {reason : RemovalReason}
    (failed : (k.flowRemoved dpid header reason).result = .error e) : e.Reported :=
  reported_of_reported (flowRemoved_of_error failed).1

theorem reported_of_switchConnected {dpid : Dpid} {now : Time}
    (failed : (k.switchConnected dpid now).result = .error e) : e.Reported :=
  reported_of_greeting (switchConnected_of_error failed).1

variable [Weight W]

/-- A network of at most 65535 nodes whose datapath ids are distinct, with a metric whose weights
    have room in it. -/
structure WellFormed (k : Controller W) : Prop where
  roomy : k.metric.Roomy
  small : k.topology.size ≤ 65535
  distinct : k.topology.DistinctIds

theorem WellFormed.calculator (h : k.WellFormed) (now : Time) :
    (k.calculator now).Roomy k.topology := h.roomy (k.snapshot now) h.small

theorem WellFormed.passCalculator (h : k.WellFormed) (now : Time) :
    (k.passCalculator now).Roomy k.topology := by
  obtain ⟨energy, polled⟩ := k.atPass_eq now
  rw [Controller.passCalculator, polled]
  exact h.roomy ({ k with energy := energy }.snapshot now) h.small

theorem WellFormed.of_given_eq (h : k₀.WellFormed) (same : k.given = k₀.given) : k.WellFormed := by
  simp only [given, Prod.mk.injEq] at same
  obtain ⟨metric, _, topology, _⟩ := same
  exact ⟨metric ▸ h.roomy, topology ▸ h.small, topology ▸ h.distinct⟩

variable [LawfulWeight W]

theorem WellFormed.reported_of_shortestPathBetween (h : k.WellFormed) {now : Time}
    {source target : HostAddress}
    (failed : k.topology.shortestPathBetween (k.calculator now) source target = .error e) :
    e.Reported := by
  rcases bind_eq_error_iff.1 failed with failed | ⟨first, sender, failed⟩
  · exact Topology.reported_of_hostWith failed
  · rcases bind_eq_error_iff.1 failed with failed | ⟨last, receiver, failed⟩
    · exact Topology.reported_of_hostWith failed
    · have known {address : HostAddress} {n : NodeId}
          (found : k.topology.hostWith address = .ok n) : k.topology.contains n = true :=
        Topology.contains_of_isHost
          (Topology.isHost_of_hostWith? (Topology.hostWith_eq_ok_iff.1 found))
      rw [(h.calculator now).eq_noPath (known sender) (known receiver) failed]
      trivial

/-- Where a way between the hosts is found, its switches can be sent their rules. -/
theorem WellFormed.reported_of_route (h : k.WellFormed) {flow : Flow} {now : Time}
    (failed : k.route flow now = .error e) : e.Reported := by
  rcases bind_eq_error_iff.1 failed with failed | ⟨full, found, failed⟩
  · exact h.reported_of_shortestPathBetween failed
  · obtain ⟨first, sender, found⟩ := bind_eq_ok_iff.1 found
    obtain ⟨last, receiver, found⟩ := bind_eq_ok_iff.1 found
    have route := Topology.found_of_shortestPath found
    obtain ⟨w, walk⟩ := route.walkTo
    rw [walk.admissible.first, walk.admissible.last] at failed
    dsimp only at failed
    split at failed
    · cases failed
      trivial
    · next crosses =>
      exfalso
      -- the switches of the path are linked and have datapath ids, so every rule can be made
      have carried : k.topology.Carries flow _ :=
        route.carries (Topology.hostWith_eq_ok_iff.1 sender)
          (Topology.hostWith_eq_ok_iff.1 receiver) (by simpa using crosses)
      obtain ⟨rules, along⟩ : ∃ rules, k.topology.installRules _ flow = .ok rules :=
        carried.toSwitchPath.exists_installRules h.distinct
      rw [along] at failed
      cases failed

/-! ### Events -/

theorem WellFormed.reported_of_packetIn (h : k.WellFormed) {dpid : Dpid} {header : Header}
    {inPort : UInt32} {now : Time}
    (failed : (k.packetIn dpid header inPort now).result = .error e) : e.Reported := by
  rcases (packetIn_of_error failed).1 with named | ⟨flow, route⟩
  · exact reported_of_reported named
  · exact h.reported_of_route route

/-- An event is refused for what the switch reports. -/
theorem WellFormed.reported_of_handle (h : k.WellFormed) (event : Event) (now : Time)
    (queue : EventQueue) (refused : (k.handle event now queue).outcome = .rejected e) :
    e.Reported := by
  cases event with
  | switchConnected dpid => exact reported_of_switchConnected (result_of_rejected refused)
  | packetIn dpid header inPort => exact h.reported_of_packetIn (result_of_rejected refused)
  | flowRemoved dpid header reason => exact reported_of_flowRemoved (result_of_rejected refused)
  | pollEnergy => exact absurd refused again_ne_rejected
  | rebalance => exact absurd refused again_ne_rejected

/-! ### Rebalance passes -/

theorem WellFormed.exists_report (h : k.WellFormed) (inStep : k.InStep) (now : Time) :
    ∃ report, (k.rebalance now).result = .ok report ∧ report.failed = 0 ∧
      (k.rebalance now).controller.lastReport = some report := by
  obtain ⟨_, _, result, last⟩ := k.rebalance_spec now
  exact ⟨_, result, failed_rebalance (h.passCalculator now) h.distinct inStep _, last⟩

/-! ### Every state -/

/-- What a controller never does wrong, whatever its switches read. -/
structure Faultless (k : Controller W) : Prop where
  /-- An event is refused for what the switch reports. -/
  rejected (readings : Telemetry) (event : Event) (now : Time) (queue : EventQueue) (e : Error) :
    ({ k with telemetry := readings }.handle event now queue).outcome = .rejected e → e.Reported
  /-- A pass comes to its end and counts no failure. -/
  passes (readings : Telemetry) (now : Time) :
    ∃ report, ({ k with telemetry := readings }.rebalance now).result = .ok report ∧
      report.failed = 0
  last (report : RebalanceReport) : k.lastReport = some report → report.failed = 0

/-- The report of the latest pass counts no failure: only passes leave a report. -/
theorem WellFormed.failed_of_lastReport (h : k₀.WellFormed) (start : k₀.InStep)
    (fresh : k₀.lastReport = none) (reached : Reached k₀ k) :
    ∀ report, k.lastReport = some report → report.failed = 0 := by
  induction reached with
  | start =>
    intro report last
    rw [fresh] at last
    cases last
  | @step k before readings event now queue ih =>
    intro report last
    have wellFormed : WellFormed { k with telemetry := readings } := h.of_given_eq before.given_eq
    have inStep : InStep { k with telemetry := readings } := before.inStep start
    obtain ⟨energy, table, sent, report', after, pass | same⟩ :=
      handle_eq (k := { k with telemetry := readings }) event now queue
    · subst pass
      obtain ⟨report'', _, failed, made⟩ := wellFormed.exists_report inStep now
      simp only [handle] at last
      rw [again_controller, made] at last
      cases last
      exact failed
    · rw [after, same] at last
      exact ih report last

theorem WellFormed.faultless (h : k₀.WellFormed) (start : k₀.InStep)
    (fresh : k₀.lastReport = none) (reached : Reached k₀ k) : k.Faultless := by
  have wellFormed (readings : Telemetry) : WellFormed { k with telemetry := readings } :=
    h.of_given_eq reached.given_eq
  have inStep (readings : Telemetry) : InStep { k with telemetry := readings } :=
    reached.inStep start
  refine ⟨?_, ?_, h.failed_of_lastReport start fresh reached⟩
  · intro readings event now queue e refused
    exact (wellFormed readings).reported_of_handle event now queue refused
  · intro readings now
    obtain ⟨report, result, failed, _⟩ :=
      (wellFormed readings).exists_report (inStep readings) now
    exact ⟨report, result, failed⟩

theorem faultless_of_start {metric : Metric W} {settings : Settings} {t : Topology}
    {telemetry : Telemetry} {forecast : Forecast} (roomy : metric.Roomy) (small : t.size ≤ 65535)
    (distinct : t.DistinctIds) (started : start? metric settings t telemetry forecast = .ok k₀)
    (reached : Reached k₀ k) : k.Faultless := by
  obtain ⟨_, start⟩ := inStep_start started
  obtain ⟨_, _, h⟩ := bind_eq_ok_iff.1 started
  cases h
  exact WellFormed.faultless ⟨roomy, small, distinct⟩ start rfl reached

/-- **No internal error surfaces in a well-formed network.** By the number of links and by the
    energy-aware metric, in every reached state events are only refused for what the switch
    reports, and no visit of a rebalance pass fails. -/
theorem reached_faultless {t : Topology} (small : t.size ≤ 65535) (distinct : t.DistinctIds)
    (settings : Settings) (telemetry : Telemetry) (forecast : Forecast) :
    (∀ k₀ k : Controller HopCount, start? Metric.hops settings t telemetry forecast = .ok k₀ →
      Reached k₀ k → k.Faultless) ∧
    (∀ k₀ k : Controller FlexWeight, start? Metric.flex settings t telemetry forecast = .ok k₀ →
      Reached k₀ k → k.Faultless) := by
  constructor
  · intro k₀ k started reached
    exact faultless_of_start Metric.roomy_hops small distinct started reached
  · intro k₀ k started reached
    exact faultless_of_start Metric.roomy_flex small distinct started reached

theorem reached_faultless_twoWays :
    twoWays.size ≤ 65535 ∧ twoWays.DistinctIds ∧
      start? Metric.flex Settings.default twoWays .empty twoWaysForecast = .ok twoWaysStart ∧
      Reached twoWaysStart twoWaysNext ∧ twoWaysNext.Faultless ∧
      start? Metric.hops Settings.default twoHosts .empty .empty = .ok twoHostsStart ∧
      Reached twoHostsStart twoHostsNext ∧ twoHostsNext.Faultless := by
  have ways : twoWays.DistinctIds := by decide
  have hosts : twoHosts.DistinctIds := by decide
  have reached : Reached twoHostsStart twoHostsNext :=
    Reached.start.step .empty (.packetIn 1 twoHostsHeader 1) .zero .empty
  exact ⟨by decide, ways, rfl, reached_twoWaysNext,
    (reached_faultless (by decide) ways Settings.default .empty twoWaysForecast).2 _ _ rfl
      reached_twoWaysNext, rfl, reached,
    (reached_faultless (by decide) hosts Settings.default .empty .empty).1 _ _ rfl reached⟩

end Controller

end PathControl
