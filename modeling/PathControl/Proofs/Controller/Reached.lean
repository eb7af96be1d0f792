/-
  PathControl/Proofs/Controller/Reached.lean
  ==========================================
  **What holds in every state that a controller reaches.**

  A controller is told of events one after another, in any order and at any times,
  while the readings of its switches change as they like. In every state that it
  comes to, each flow has a simple path of switches between its hosts
  (`reached_carries`), and the rules in the switches follow it (`Reached.inStep`).
-/
import PathControl.Controller.Run
import PathControl.Proofs.Controller
import PathControl.Proofs.Weight.Counts

namespace PathControl.Controller

variable {W : Type}

/-- Every flow has a path that carries it, and the switches follow it. -/
def InStep (k : Controller W) : Prop :=
  k.table.InStep k.topology (Forwarding.empty.replay k.sent.toList)

theorem inStep_start {k₀ : Controller W} {metric : Metric W} {settings : Settings}
    {t : Topology} {telemetry : Telemetry} {forecast : Forecast}
    (started : start? metric settings t telemetry forecast = .ok k₀) :
    k₀.topology = t ∧ k₀.InStep := by
  obtain ⟨_, _, h⟩ := bind_eq_ok_iff.1 started
  cases h
  refine ⟨rfl, ?_⟩
  intro flow path known
  rw [FlowTable.path?_empty] at known
  cases known

variable [Weight W]

/-- The controllers that come about from one by events; before each of them the readings may
    change. -/
inductive Reached (k₀ : Controller W) : Controller W → Prop where
  | start : Reached k₀ k₀
  | step {k : Controller W} (before : Reached k₀ k) (telemetry : Telemetry) (event : Event)
      (now : Time) (queue : EventQueue) :
      Reached k₀ ({ k with telemetry }.handle event now queue).controller

variable {k k₀ : Controller W}

theorem Reached.given_eq (h : Reached k₀ k) : k.given = k₀.given := by
  induction h with
  | start => rfl
  | @step k before telemetry event now queue ih =>
    have same : { k with telemetry }.given = k.given := rfl
    exact (handle_given event now queue).trans (same.trans ih)

theorem Reached.topology_eq (h : Reached k₀ k) : k.topology = k₀.topology :=
  topology_eq_of_given h.given_eq

/-! ### Runs -/

theorem Reached.trans {k₁ k₂ : Controller W} (h : Reached k₀ k₁) (h' : Reached k₁ k₂) :
    Reached k₀ k₂ := by
  induction h' with
  | start => exact h
  | step before telemetry event now queue ih => exact ih.step telemetry event now queue

theorem reached_next {limit : Time} {r r' : Run W} (h : r.next? limit = some r') :
    Reached r.controller r'.controller := by
  simp only [Run.next?] at h
  split at h
  · cases h
  · obtain ⟨⟨⟨time, event⟩, queue⟩, _, rfl⟩ := Option.map_eq_some_iff.1 h
    exact Reached.start.step r.controller.telemetry event time queue

/-- What a controller comes to by the events of its queue. -/
theorem reached_runUntil (queue : EventQueue) (limit : Time) :
    Reached k (k.runUntil queue limit).controller := by
  have advanced (steps : Nat) (r : Run W) :
      Reached r.controller (Run.advance limit steps r).controller := by
    induction steps generalizing r with
    | zero => exact Reached.start
    | succ steps ih =>
      simp only [Run.advance]
      split
      · exact Reached.start
      · next r' next => exact (reached_next next).trans (ih r')
  exact advanced _ { controller := k, queue }

/-! ### New paths -/

variable [LawfulWeight W] {flow : Flow} {path : List NodeId}

theorem route_spec {now : Time} {rules : List Instruction}
    (h : k.route flow now = .ok (path, rules)) :
    k.topology.Carries flow path ∧ k.topology.installRules path flow = .ok rules := by
  obtain ⟨source, target, full, sender, receiver, found, rfl, crosses, along⟩ :=
    route_eq_ok_iff.1 h
  exact ⟨(Topology.found_of_shortestPath found).carries sender receiver crosses, along⟩

/-! ### Every state -/

theorem InStep.after {k' : Controller W} {rules : List Instruction} (h : k.InStep)
    (after : After k k' rules) : k'.InStep := by
  simp only [InStep] at h ⊢
  rw [after.topology, after.sent, Forwarding.replay_append]
  have effect := after.effect
  generalize k'.table = table' at effect ⊢
  cases effect with
  | quiet silent =>
    intro flow path known
    obtain ⟨carried, followed⟩ := h flow path known
    refine ⟨carried, followed.replay ?_⟩
    intro i hi dpid
    exact silent i hi dpid flow
  | @entered flow now path rules route =>
    obtain ⟨carried, along⟩ := route_spec route
    have followed : ((Forwarding.empty.replay k.sent.toList).replay rules).Follows k.topology
        flow path := Forwarding.follows_installRules carried.nodup along
    apply FlowTable.InStep.install h carried followed
    intro i hi dpid other concerns
    exact Topology.concerns_of_installRules along hi concerns
  | forgotten flow =>
    intro other path known
    rw [FlowTable.path?_evict] at known
    split at known
    · cases known
    · exact h other path known
  | rebalanced c idleTimeout => exact FlowTable.InStep.rebalance h idleTimeout

theorem Reached.inStep (h : Reached k₀ k) (start : k₀.InStep) : k.InStep := by
  induction h with
  | start => exact start
  | @step k before telemetry event now queue ih =>
    obtain ⟨rules, after⟩ := handle_after (k := { k with telemetry }) event now queue
    have observed : InStep { k with telemetry } := ih
    exact observed.after after

/-! ### Paths -/

/-- **Installed paths are real.** In every reached state each flow has a simple path of switches
    that starts next to its sender and ends next to its receiver, and a rebalance pass changes no
    end of a path. -/
theorem reached_carries {metric : Metric W} {settings : Settings} {t : Topology}
    {telemetry : Telemetry} {forecast : Forecast}
    (started : start? metric settings t telemetry forecast = .ok k₀) (reached : Reached k₀ k) :
    (∀ flow path, k.table.path? flow = some path → t.Carries flow path) ∧
      ∀ telemetry now flow,
        (({ k with telemetry }.rebalance now).controller.table.path? flow).map ends =
          (k.table.path? flow).map ends := by
  obtain ⟨same, start⟩ := inStep_start started
  constructor
  · intro flow path known
    have carried := (reached.inStep start flow path known).1
    rwa [reached.topology_eq, same] at carried
  · intro telemetry now flow
    exact rebalance_table_ends _ now flow

/-- Two hosts with two switches between them. -/
def twoHosts : Topology :=
  (((((((Topology.empty.addHost "near" (some (.ofOctets 10 0 0 1)) ⟨1⟩).addHost "far"
    (some (.ofOctets 10 0 0 2)) ⟨2⟩).addSwitch "left" 1).addSwitch "right" 2).addLink 0 2).addLink
    2 3).addLink 3 1)

/-- A controller of these that routes by the number of links. -/
def twoHostsStart : Controller HopCount where
  metric := Metric.hops
  settings := Settings.default
  topology := twoHosts
  telemetry := .empty
  forecast := .empty
  energy := .empty Settings.default.pollStrategy
  table := .empty
  sent := #[]
  lastReport := none

/-- The header of a packet from one host to the other, and its flow. -/
def twoHostsHeader : Header := .udp (.ofOctets 10 0 0 1) (.ofOctets 10 0 0 2) 5 7

def twoHostsFlow : Flow := ⟨.ipv4 (.ofOctets 10 0 0 1) (.ofOctets 10 0 0 2) protoUdp 5 7, 1500⟩

/-- The controller when the first switch has asked about the packet. -/
def twoHostsNext : Controller HopCount :=
  (twoHostsStart.handle (.packetIn 1 twoHostsHeader 1) .zero .empty).controller

theorem twoHosts_route : twoHostsStart.route twoHostsFlow .zero =
    .ok ([2, 3], [.install 1 twoHostsFlow 2]) := by
  have found : twoHosts.shortestPath (twoHostsStart.calculator .zero) 0 1 = .ok [0, 2, 3, 1] :=
    Topology.shortestPath_of_within 6 (by decide) (by decide +kernel)
  exact route_eq_ok_iff.2 ⟨0, 1, _, by decide, by decide, found, by decide, by decide, by decide⟩

theorem twoHostsNext_eq : twoHostsNext =
    { twoHostsStart.send [.install 1 twoHostsFlow 2] with
      table := FlowTable.empty.install twoHostsFlow [2, 3] } := by
  have reported : twoHostsStart.reported 1 twoHostsHeader = .ok (2, twoHostsFlow) := by decide
  exact packetIn_of_route reported (FlowTable.path?_empty _) twoHosts_route

theorem twoHosts_path : twoHostsNext.table.path? twoHostsFlow = some [2, 3] := by
  rw [twoHostsNext_eq, FlowTable.path?_install, if_pos rfl]

theorem reached_carries_twoHosts :
    start? Metric.hops Settings.default twoHosts .empty .empty = .ok twoHostsStart ∧
      Reached twoHostsStart twoHostsNext ∧
      twoHostsNext.table.path? twoHostsFlow = some [2, 3] ∧
      twoHosts.Carries twoHostsFlow [2, 3] ∧
      ∀ telemetry now flow,
        (({ twoHostsNext with telemetry }.rebalance now).controller.table.path? flow).map ends =
          (twoHostsNext.table.path? flow).map ends := by
  have started : start? Metric.hops Settings.default twoHosts .empty .empty = .ok twoHostsStart :=
    rfl
  have reached : Reached twoHostsStart twoHostsNext :=
    Reached.start.step .empty (.packetIn 1 twoHostsHeader 1) .zero .empty
  have holds := reached_carries started reached
  exact ⟨started, reached, twoHosts_path, holds.1 _ _ twoHosts_path, holds.2⟩

end PathControl.Controller
