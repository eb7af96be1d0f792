/-
  PathControl/Proofs/Controller/Refusal.lean
  ==========================================
  **A refused event leaves no trace.**

  Whatever can go wrong with an event goes wrong before the controller changes: a
  handler that refuses an event says why, and gives back the controller that it was
  given (`switchConnected_of_error`, `packetIn_of_error`, `flowRemoved_of_error`). The
  same holds of the visits of a rebalance pass.
-/
import PathControl.Proofs.Controller.Burden
import PathControl.Proofs.Rebalance.Visits

namespace PathControl.Controller

variable {W : Type} {k : Controller W} {e : Error}

/-! ### Outcomes -/

theorem result_of_rejected {α : Type} {packet : α → Option PacketOut} {queue : EventQueue}
    {r : Reaction W α} (refused : (Handled.ofReaction queue packet r).outcome = .rejected e) :
    r.result = .error e := by
  simp only [Handled.ofReaction] at refused
  split at refused
  · cases refused
  · next cause failed =>
    cases refused
    exact failed

theorem again_ne_rejected {queue : EventQueue} {interval : Time} {event : Event}
    {notices : List Notice} :
    (Handled.again k queue interval event notices).outcome ≠ .rejected e := by
  simp only [Handled.again]
  split <;> exact Outcome.noConfusion

/-! ### Handlers that refuse an event -/

theorem switchConnected_of_error {dpid : Dpid} {now : Time}
    (failed : (k.switchConnected dpid now).result = .error e) :
    k.greeting dpid = .error e ∧ (k.switchConnected dpid now).controller = k := by
  simp only [switchConnected] at failed ⊢
  cases greeted : k.greeting dpid with
  | error cause =>
    rw [greeted] at failed
    cases failed
    exact ⟨rfl, rfl⟩
  | ok greeting =>
    rw [greeted] at failed
    cases failed

theorem flowIdle_of_error {dpid : Dpid} {header : Header}
    (failed : (k.flowIdle dpid header).result = .error e) :
    k.reported dpid header = .error e ∧ (k.flowIdle dpid header).controller = k := by
  simp only [flowIdle] at failed ⊢
  cases named : k.reported dpid header with
  | error cause =>
    rw [named] at failed
    cases failed
    exact ⟨rfl, rfl⟩
  | ok report =>
    rw [named] at failed
    dsimp only at failed
    split at failed
    · cases failed
    · split at failed <;> cases failed

theorem flowRemoved_of_error {dpid : Dpid} {header : Header} {reason : RemovalReason}
    (failed : (k.flowRemoved dpid header reason).result = .error e) :
    k.reported dpid header = .error e ∧ (k.flowRemoved dpid header reason).controller = k := by
  simp only [flowRemoved] at failed ⊢
  by_cases idle : reason = .idleTimeout
  · rw [if_pos idle] at failed ⊢
    exact flowIdle_of_error failed
  · rw [if_neg idle] at failed
    cases failed

/-- A switch that is on no path gets no answer, but is not refused. -/
theorem answer_ne_error {dpid : Dpid} {switch : NodeId} {flow : Flow} {inPort : UInt32}
    {path : List NodeId} : (k.answer dpid switch flow inPort path).result ≠ .error e := by
  intro failed
  simp only [answer] at failed
  split at failed <;> cases failed

variable [Weight W]

theorem installFlow_of_error {dpid : Dpid} {switch : NodeId} {flow : Flow} {inPort : UInt32}
    {now : Time} (failed : (k.installFlow dpid switch flow inPort now).result = .error e) :
    k.route flow now = .error e ∧ (k.installFlow dpid switch flow inPort now).controller = k := by
  simp only [installFlow] at failed ⊢
  cases route : k.route flow now with
  | error cause =>
    rw [route] at failed
    cases failed
    exact ⟨rfl, rfl⟩
  | ok found =>
    rw [route] at failed
    exact absurd failed answer_ne_error

theorem packetIn_of_error {dpid : Dpid} {header : Header} {inPort : UInt32} {now : Time}
    (failed : (k.packetIn dpid header inPort now).result = .error e) :
    (k.reported dpid header = .error e ∨ ∃ flow, k.route flow now = .error e) ∧
      (k.packetIn dpid header inPort now).controller = k := by
  simp only [packetIn] at failed ⊢
  cases named : k.reported dpid header with
  | error cause =>
    rw [named] at failed
    cases failed
    exact ⟨Or.inl rfl, rfl⟩
  | ok report =>
    obtain ⟨switch, flow⟩ := report
    rw [named] at failed
    dsimp only at failed ⊢
    cases known : k.table.path? flow with
    | some path =>
      rw [known] at failed
      exact absurd failed answer_ne_error
    | none =>
      -- only the search for a route can still fail, and it changes nothing
      rw [known] at failed
      obtain ⟨route, kept⟩ := installFlow_of_error failed
      exact ⟨Or.inr ⟨flow, route⟩, kept⟩

/-- A refused event leaves the controller and the queue as they were. Polls and passes are never
    refused. -/
theorem handle_of_rejected {event : Event} {now : Time} {queue : EventQueue}
    (refused : (k.handle event now queue).outcome = .rejected e) :
    (k.handle event now queue).controller = k ∧ (k.handle event now queue).queue = queue := by
  cases event with
  | switchConnected dpid =>
    exact ⟨(switchConnected_of_error (result_of_rejected refused)).2, rfl⟩
  | packetIn dpid header inPort =>
    exact ⟨(packetIn_of_error (result_of_rejected refused)).2, rfl⟩
  | flowRemoved dpid header reason =>
    exact ⟨(flowRemoved_of_error (result_of_rejected refused)).2, rfl⟩
  | pollEnergy => exact absurd refused again_ne_rejected
  | rebalance => exact absurd refused again_ne_rejected

/-! ### Rebalance passes -/

/-- The visits of a rebalance pass at a time. -/
def visits (k : Controller W) (now : Time) : List (NodeId × Flow) :=
  k.table.visits (k.passCalculator now)

/-- A rebalance pass at a time, after some visits. -/
def passAfter (k : Controller W) (now : Time) (visits : List (NodeId × Flow)) : Pass :=
  Pass.after k.topology (k.passCalculator now) k.settings.idleTimeout k.table visits

/-- A pass does what its visits do, one after another. -/
theorem rebalance_eq_passAfter (k : Controller W) (now : Time) :
    (k.rebalance now).controller.table = (k.passAfter now (k.visits now)).table ∧
      (k.rebalance now).controller.sent =
        k.sent ++ (k.passAfter now (k.visits now)).sent ∧
      (k.rebalance now).controller.lastReport =
        some (k.passAfter now (k.visits now)).report := by
  obtain ⟨table, sent, _, last⟩ := k.rebalance_spec now
  have same := Pass.done_rebalance k.topology (k.passCalculator now) k.settings.idleTimeout
    k.table
  simp only [Pass.done, Prod.mk.injEq] at same
  obtain ⟨table', report', sent'⟩ := same
  refine ⟨table.trans table', ?_, ?_⟩
  · rw [sent, sent']
    rfl
  · rw [last, report']
    rfl

/-- **A refused event leaves no trace**, whatever a controller knows and by whichever weights it
    routes: the controller and the queue are what they were. A pass is its visits one after
    another, and the visit to a flow that it counts as failed changes no path and sends nothing. -/
theorem refusal_traceless (k : Controller W) (now : Time) :
    (∀ event queue e, (k.handle event now queue).outcome = .rejected e →
      (k.handle event now queue).controller = k ∧ (k.handle event now queue).queue = queue) ∧
    ((k.rebalance now).controller.table = (k.passAfter now (k.visits now)).table ∧
      (k.rebalance now).controller.sent =
        k.sent ++ (k.passAfter now (k.visits now)).sent ∧
      (k.rebalance now).controller.lastReport =
        some (k.passAfter now (k.visits now)).report) ∧
    ∀ before v flow later, k.visits now = before ++ (v, flow) :: later →
      (k.passAfter now (before ++ [(v, flow)])).report.failed ≠
        (k.passAfter now before).report.failed →
      (k.passAfter now (before ++ [(v, flow)])).table = (k.passAfter now before).table ∧
        (k.passAfter now (before ++ [(v, flow)])).sent = (k.passAfter now before).sent := by
  refine ⟨?_, k.rebalance_eq_passAfter now, ?_⟩
  · intro event queue e refused
    exact handle_of_rejected refused
  · intro before v flow later _ failed
    rw [passAfter, Pass.after_concat] at failed ⊢
    exact Pass.done_visit_of_failed failed

/-- A controller with a flow on one of two ways, by whose weights neither way must be used. -/
def twoWaysClosed : Controller FlexWeight :=
  { twoWaysStart with
    metric :=
      { hop := .ofUsage 0.0 0 1
        nodeWeight := fun _ n => if n = 3 ∨ n = 4 then Weight.nonViable else Weight.initial }
    table := FlowTable.empty.install twoHostsFlow [2, 4, 5] }

/-- The header of a packet back, and its flow. -/
def replyHeader : Header := .udp (.ofOctets 10 0 0 2) (.ofOctets 10 0 0 1) 7 5

def replyFlow : Flow := ⟨.ipv4 (.ofOctets 10 0 0 2) (.ofOctets 10 0 0 1) protoUdp 7 5, 1500⟩

theorem handle_twoWaysClosed :
    (twoWaysClosed.handle (.packetIn 4 replyHeader 1) .zero .empty).outcome =
      .rejected (.noPath 1 0) := by
  have named : twoWaysClosed.reported 4 replyHeader = .ok (5, replyFlow) := by decide
  have new : twoWaysClosed.table.path? replyFlow = none := by
    rw [twoWaysClosed, FlowTable.path?_install, if_neg (by decide), FlowTable.path?_empty]
  have closed : twoWays.shortestPath (twoWaysClosed.calculator .zero) 1 0 =
      .error (.noPath 1 0) :=
    Topology.noPath_of_within 6 (by decide) (by decide +kernel)
  have route : twoWaysClosed.route replyFlow .zero = .error (.noPath 1 0) := by
    change (twoWays.shortestPath (twoWaysClosed.calculator .zero) 1 0 >>= _) = _
    rw [closed]
    rfl
  simp only [handle, packetIn, installFlow]
  rw [named]
  dsimp only
  rw [new]
  dsimp only
  rw [route]
  rfl

theorem failed_twoWaysClosed :
    (twoWaysClosed.passAfter .zero [(4, twoHostsFlow)]).report.failed = 1 := by
  have closed : twoWays.shortestPath
      ((twoWaysClosed.passCalculator .zero).excluding []) 2 5 = .error (.noPath 2 5) :=
    Topology.noPath_of_within 6 (by decide) (by decide +kernel)
  have known : twoWaysClosed.table.path? twoHostsFlow = some [2, 4, 5] :=
    (FlowTable.path?_install ..).trans (if_pos rfl)
  have failed : reroute twoWays (twoWaysClosed.passCalculator .zero) twoWaysClosed.table
      twoHostsFlow 4 = .error (.noPath 2 5) := by
    simp only [reroute]
    rw [known]
    change (twoWays.shortestPath (Calculator.excluding _ []) 2 5 >>= _) = _
    rw [closed]
    rfl
  change (Pass.enter _ _ _ _ _
    (reroute twoWays _ twoWaysClosed.table twoHostsFlow 4)).report.failed = _
  rw [failed]
  rfl

theorem refusal_traceless_twoWays :
    (twoWaysClosed.handle (.packetIn 4 replyHeader 1) .zero .empty).outcome =
        .rejected (.noPath 1 0) ∧
      (twoWaysClosed.handle (.packetIn 4 replyHeader 1) .zero .empty).controller =
        twoWaysClosed ∧
      (twoWaysClosed.handle (.packetIn 4 replyHeader 1) .zero .empty).queue = .empty ∧
      twoWaysClosed.visits .zero = [(4, twoHostsFlow)] ∧
      (twoWaysClosed.passAfter .zero [(4, twoHostsFlow)]).report.failed = 1 ∧
      (twoWaysClosed.passAfter .zero [(4, twoHostsFlow)]).table = twoWaysClosed.table ∧
      (twoWaysClosed.passAfter .zero [(4, twoHostsFlow)]).sent = [] := by
  obtain ⟨events, _, visits⟩ := twoWaysClosed.refusal_traceless .zero
  have work : twoWaysClosed.visits .zero = [(4, twoHostsFlow)] := by decide +kernel
  obtain ⟨controller, queue⟩ := events _ _ _ handle_twoWaysClosed
  have counted : (twoWaysClosed.passAfter .zero ([] ++ [(4, twoHostsFlow)])).report.failed ≠
      (twoWaysClosed.passAfter .zero []).report.failed := by
    rw [List.nil_append, failed_twoWaysClosed]
    exact Nat.one_ne_zero
  obtain ⟨table, sent⟩ := visits [] 4 twoHostsFlow [] work counted
  exact ⟨handle_twoWaysClosed, controller, queue, work, failed_twoWaysClosed, table, sent⟩

end PathControl.Controller
