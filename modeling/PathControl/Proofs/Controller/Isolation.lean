/-
  PathControl/Proofs/Controller/Isolation.lean
  ============================================
  **No flow notices another.**

  Two controllers are alike for a flow if they agree on everything but the other flows:
  on the network, the samples and the settings, on the path of the flow and on the
  instructions for it (`Alike`). An event for another flow leaves a controller alike to
  what it was, and every other event keeps two controllers alike and has the same
  outcome in both. So a run and what is left of it without the events for other flows
  stay alike (`alike_after`), and a rebalance pass treats the flow as if it were
  alone.
-/
import PathControl.Proofs.Controller.Reached
import PathControl.Proofs.Rebalance.Isolation

namespace PathControl

/-- Whether an event may matter to a flow: a report of a packet or of a rule does only if its
    header names the flow. -/
def Event.concerns (scheme : PriorityScheme) (flow : Flow) : Event → Bool
  | .packetIn _ header _ | .flowRemoved _ header _ => header.flow scheme = .ok flow
  | _ => true

namespace Controller

variable {W : Type} {k k' k'' : Controller W} {flow other : Flow}

/-! ### Runs as lists -/

/-- An event with the readings, the time and the queue at which it comes. -/
structure Occurrence where
  telemetry : Telemetry
  event : Event
  now : Time
  queue : EventQueue

section Runs

variable [Weight W]

def handleAt (k : Controller W) (o : Occurrence) : Handled W :=
  { k with telemetry := o.telemetry }.handle o.event o.now o.queue

/-- The controller after a run of events. -/
def after (k : Controller W) (run : List Occurrence) : Controller W :=
  run.foldl (fun k o => (k.handleAt o).controller) k

theorem after_concat (k : Controller W) (run : List Occurrence) (o : Occurrence) :
    k.after (run ++ [o]) = ((k.after run).handleAt o).controller := by
  simp [after]

/-- The reached controllers are those after some run. -/
theorem reached_iff : Reached k k' ↔ ∃ run, k' = k.after run := by
  constructor
  · intro h
    induction h with
    | start => exact ⟨[], rfl⟩
    | step before telemetry event now queue ih =>
      obtain ⟨run, rfl⟩ := ih
      refine ⟨run ++ [⟨telemetry, event, now, queue⟩], ?_⟩
      rw [after_concat]
      rfl
  · rintro ⟨run, rfl⟩
    induction run using List.reverseRecOn with
    | nil => exact Reached.start
    | append_singleton run o ih =>
      rw [after_concat]
      exact ih.step o.telemetry o.event o.now o.queue

end Runs

/-! ### Controllers that differ in other flows only -/

/-- The path of a flow, if it has one, and the instructions that were sent for it. -/
def share (k : Controller W) (flow : Flow) : Share :=
  (k.table.path? flow, rulesFor flow k.sent.toList)

/-- A controller that has served other flows. -/
def withFlows (k : Controller W) (table : FlowTable) (sent : Array Instruction)
    (report : Option RebalanceReport) : Controller W :=
  { k with table, sent, lastReport := report }

/-- The controller with nothing reported and nothing done. -/
def bare (k : Controller W) : Controller W :=
  { k with telemetry := .empty, table := .empty, sent := #[], lastReport := none }

/-- Two controllers that a flow cannot tell apart once they see the same readings. -/
structure Alike (flow : Flow) (k k' : Controller W) : Prop where
  bare : k.bare = k'.bare
  share : k.share flow = k'.share flow
  indexed : k.table.Indexed
  indexed' : k'.table.Indexed

namespace Alike

theorem refl (h : k.table.Indexed) : Alike flow k k := ⟨rfl, rfl, h, h⟩

theorem symm (h : Alike flow k k') : Alike flow k' k :=
  ⟨h.bare.symm, h.share.symm, h.indexed', h.indexed⟩

theorem trans (h : Alike flow k k') (h' : Alike flow k' k'') : Alike flow k k'' :=
  ⟨h.bare.trans h'.bare, h.share.trans h'.share, h.indexed, h'.indexed'⟩

theorem path?_eq (h : Alike flow k k') : k.table.path? flow = k'.table.path? flow :=
  congrArg Prod.fst h.share

theorem rulesFor_eq (h : Alike flow k k') :
    rulesFor flow k.sent.toList = rulesFor flow k'.sent.toList :=
  congrArg Prod.snd h.share

/-- With the same readings one of them is the other with its own flows. -/
theorem eq_withFlows (h : Alike flow k k') (telemetry : Telemetry) :
    { k' with telemetry } =
      { k with telemetry }.withFlows k'.table k'.sent k'.lastReport := by
  have bare := h.bare
  cases k
  cases k'
  simp only [Controller.bare, withFlows, Controller.mk.injEq] at bare ⊢
  tauto

theorem observed (h : Alike flow k k') (telemetry : Telemetry) :
    Alike flow { k with telemetry } { k' with telemetry } :=
  ⟨h.bare, h.share, h.indexed, h.indexed'⟩

end Alike

/-- The controller with no flow but one. -/
def alone (k : Controller W) (flow : Flow) (path : List NodeId) : Controller W :=
  { k with table := FlowTable.empty.install flow path }

theorem alike_alone (indexed : k.table.Indexed) {path : List NodeId}
    (known : k.table.path? flow = some path) : Alike flow k (k.alone flow path) := by
  refine ⟨rfl, Prod.ext ?_ rfl, indexed, FlowTable.indexed_empty.install flow path⟩
  simp only [share, alone]
  rw [FlowTable.path?_install, if_pos rfl, known]

/-! ### Events for other flows -/

theorem flowOf_eq_ok_iff {header : Header} :
    k.flowOf header = .ok flow ↔ header.flow k.settings.priorities = .ok flow := by
  simp only [flowOf]
  cases header.flow k.settings.priorities <;> simp [Except.mapError]

theorem flow_of_reported {dpid : Dpid} {header : Header} {switch : NodeId}
    (h : k.reported dpid header = .ok (switch, flow)) :
    header.flow k.settings.priorities = .ok flow := by
  obtain ⟨n, _, h⟩ := bind_eq_ok_iff.1 h
  obtain ⟨named, is, h⟩ := bind_eq_ok_iff.1 h
  cases h
  exact flowOf_eq_ok_iff.1 is

theorem alike_install (indexed : k.table.Indexed) {path : List NodeId} {rules : List Instruction}
    (own : ∀ i ∈ rules, i.flow? = some other) (away : other ≠ flow) :
    Alike flow k { k.send rules with table := k.table.install other path } where
  bare := rfl
  share := by
    simp only [share, send, Array.toList_appendList, rulesFor_append]
    rw [FlowTable.path?_install, if_neg away.symm, rulesFor_other own away, List.append_nil]
  indexed := indexed
  indexed' := indexed.install other path

theorem alike_evict (indexed : k.table.Indexed) (away : other ≠ flow) :
    Alike flow k { k with table := k.table.evict other } where
  bare := rfl
  share := by
    simp only [share]
    rw [FlowTable.path?_evict, if_neg away.symm]
  indexed := indexed
  indexed' := indexed.evict other

theorem alike_flowRemoved (indexed : k.table.Indexed) {dpid : Dpid} {header : Header}
    (reason : RemovalReason) (away : header.flow k.settings.priorities ≠ .ok flow) :
    Alike flow k (k.flowRemoved dpid header reason).controller := by
  simp only [flowRemoved, flowIdle]
  split
  · split
    · exact Alike.refl indexed
    · next switch named reported =>
      have different : named ≠ flow := by
        rintro rfl
        exact away (flow_of_reported reported)
      split
      · exact Alike.refl indexed
      · split
        · exact alike_evict indexed different
        · exact Alike.refl indexed
  · exact Alike.refl indexed

/-! ### Events that both see -/

variable {table : FlowTable} {sent : Array Instruction} {report : Option RebalanceReport}
  {dpid : Dpid} {header : Header}

/-- Reactions with the same result that leave two controllers alike. -/
def AlikeReactions {α : Type} (flow : Flow) (r r' : Reaction W α) : Prop :=
  Alike flow r.controller r'.controller ∧ r.result = r'.result

/-- An event after which two controllers are alike, with the same outcome. -/
def AlikeHandled (flow : Flow) (h h' : Handled W) : Prop :=
  Alike flow h.controller h'.controller ∧ h.outcome = h'.outcome

theorem AlikeReactions.handled {α : Type} {r r' : Reaction W α} (h : AlikeReactions flow r r')
    (queue : EventQueue) (packet : α → Option PacketOut) :
    AlikeHandled flow (Handled.ofReaction queue packet r) (Handled.ofReaction queue packet r') := by
  refine ⟨h.1, ?_⟩
  simp only [Handled.ofReaction]
  rw [h.2]

theorem Alike.again (h : Alike flow k k') (queue : EventQueue) (interval : Time) (event : Event)
    (notices notices' : List Notice) :
    AlikeHandled flow (Handled.again k queue interval event notices)
      (Handled.again k' queue interval event notices') := by
  simp only [AlikeHandled]
  rw [again_controller, again_controller]
  refine ⟨h, ?_⟩
  simp only [Handled.again]
  cases queue.schedule interval event <;> rfl

theorem Alike.switchConnected (h : Alike flow k (k.withFlows table sent report)) (now : Time) :
    AlikeReactions flow (k.switchConnected dpid now)
      ((k.withFlows table sent report).switchConnected dpid now) := by
  have same : (k.withFlows table sent report).greeting dpid = k.greeting dpid := rfl
  simp only [Controller.switchConnected]
  rw [same]
  cases k.greeting dpid with
  | error e => exact ⟨h, rfl⟩
  | ok greeting =>
    refine ⟨⟨rfl, ?_, h.indexed, h.indexed'⟩, rfl⟩
    simp only [Controller.share, send, Array.toList_appendList, rulesFor_append]
    rw [h.path?_eq, h.rulesFor_eq]

theorem Alike.answer (h : Alike flow k (k.withFlows table sent report)) (switch : NodeId)
    (inPort : UInt32) (path : List NodeId) :
    AlikeReactions flow (k.answer dpid switch flow inPort path)
      ((k.withFlows table sent report).answer dpid switch flow inPort path) := by
  constructor
  · rw [answer_controller, answer_controller]
    exact h
  · have same : (k.withFlows table sent report).nextHop? switch path flow =
      k.nextHop? switch path flow := rfl
    simp only [Controller.answer]
    rw [same]
    cases k.nextHop? switch path flow <;> rfl

theorem Alike.flowRemoved (h : Alike flow k (k.withFlows table sent report))
    (reason : RemovalReason) (about : header.flow k.settings.priorities = .ok flow) :
    AlikeReactions flow (k.flowRemoved dpid header reason)
      ((k.withFlows table sent report).flowRemoved dpid header reason) := by
  have same : (k.withFlows table sent report).reported dpid header = k.reported dpid header := rfl
  simp only [Controller.flowRemoved, flowIdle]
  rw [same]
  split
  · cases reported : k.reported dpid header with
    | error e => exact ⟨h, rfl⟩
    | ok found =>
      obtain ⟨switch, named⟩ := found
      cases about.symm.trans (flow_of_reported reported)
      dsimp only
      rw [← h.path?_eq]
      cases k.table.path? flow with
      | none => exact ⟨h, rfl⟩
      | some path =>
        dsimp only
        split
        · refine ⟨⟨rfl, Prod.ext ?_ h.rulesFor_eq, h.indexed.evict flow,
            h.indexed'.evict flow⟩, rfl⟩
          simp only [Controller.share]
          rw [FlowTable.path?_evict, FlowTable.path?_evict, if_pos rfl, if_pos rfl]
        · exact ⟨h, rfl⟩
  · exact ⟨h, rfl⟩

variable [Weight W]

theorem alike_packetIn (indexed : k.table.Indexed) (inPort : UInt32) (now : Time)
    (away : header.flow k.settings.priorities ≠ .ok flow) :
    Alike flow k (k.packetIn dpid header inPort now).controller := by
  simp only [packetIn]
  split
  · exact Alike.refl indexed
  · next switch named reported =>
    have different : named ≠ flow := by
      rintro rfl
      exact away (flow_of_reported reported)
    split
    · rw [answer_controller]
      exact Alike.refl indexed
    · simp only [installFlow]
      split
      · exact Alike.refl indexed
      · next path rules route =>
        dsimp only
        rw [answer_controller]
        obtain ⟨_, _, _, _, _, _, _, _, along⟩ := route_eq_ok_iff.1 route
        exact alike_install indexed (Topology.flow?_of_installRules along) different

/-- An event for another flow changes nothing for this one. -/
theorem alike_of_not_concerns (indexed : k.table.Indexed) {event : Event} (now : Time)
    (queue : EventQueue) (away : event.concerns k.settings.priorities flow = false) :
    Alike flow k (k.handle event now queue).controller := by
  cases event with
  | packetIn dpid header inPort =>
    exact alike_packetIn indexed inPort now (of_decide_eq_false away)
  | flowRemoved dpid header reason =>
    exact alike_flowRemoved indexed reason (of_decide_eq_false away)
  | _ => cases away

theorem Alike.installFlow (h : Alike flow k (k.withFlows table sent report)) (switch : NodeId)
    (inPort : UInt32) (now : Time) :
    AlikeReactions flow (k.installFlow dpid switch flow inPort now)
      ((k.withFlows table sent report).installFlow dpid switch flow inPort now) := by
  have same : (k.withFlows table sent report).route flow now = k.route flow now := rfl
  simp only [Controller.installFlow]
  rw [same]
  cases k.route flow now with
  | error e => exact ⟨h, rfl⟩
  | ok found =>
    obtain ⟨path, rules⟩ := found
    let entered := { k.send rules with table := k.table.install flow path }
    have both : Alike flow entered
        (entered.withFlows (table.install flow path) (sent ++ rules) report) := by
      refine ⟨rfl, Prod.ext ?_ ?_, h.indexed.install flow path, h.indexed'.install flow path⟩
      · simp only [Controller.share, entered, withFlows]
        rw [FlowTable.path?_install, FlowTable.path?_install, if_pos rfl, if_pos rfl]
      · have rest := h.rulesFor_eq
        simp only [Controller.share, entered, send, withFlows, Array.toList_appendList,
          rulesFor_append] at rest ⊢
        rw [rest]
    exact both.answer switch inPort path

theorem Alike.packetIn (h : Alike flow k (k.withFlows table sent report)) (inPort : UInt32)
    (now : Time) (about : header.flow k.settings.priorities = .ok flow) :
    AlikeReactions flow (k.packetIn dpid header inPort now)
      ((k.withFlows table sent report).packetIn dpid header inPort now) := by
  have same : (k.withFlows table sent report).reported dpid header = k.reported dpid header := rfl
  simp only [Controller.packetIn]
  rw [same]
  cases reported : k.reported dpid header with
  | error e => exact ⟨h, rfl⟩
  | ok found =>
    obtain ⟨switch, named⟩ := found
    cases about.symm.trans (flow_of_reported reported)
    dsimp only
    rw [← h.path?_eq]
    cases k.table.path? flow with
    | some path => exact h.answer switch inPort path
    | none => exact h.installFlow switch inPort now

/-- A pass gives the flow the same path by the same instructions, whatever else it moves. -/
theorem Alike.moveFlows (h : Alike flow k (k.withFlows table sent report)) (now : Time) :
    Alike flow (k.moveFlows now).1 ((k.withFlows table sent report).moveFlows now).1 := by
  have moved : (PathControl.rebalance k.topology (k.calculator now) k.settings.idleTimeout
        k.table).share flow =
      (PathControl.rebalance k.topology (k.calculator now) k.settings.idleTimeout
        table).share flow :=
    share_rebalance_eq h.indexed h.indexed' h.path?_eq
  refine ⟨rfl, Prod.ext ?_ ?_, h.indexed.rebalance, h.indexed'.rebalance⟩
  · have path := congrArg Prod.fst moved
    exact path
  · have before := h.rulesFor_eq
    have added := congrArg Prod.snd moved
    simp only [Controller.share, Controller.moveFlows, send, Array.toList_appendList,
      rulesFor_append]
    rw [before]
    exact congrArg _ added

theorem Alike.rebalance (h : Alike flow k (k.withFlows table sent report)) (now : Time) :
    Alike flow (k.rebalance now).controller
      ((k.withFlows table sent report).rebalance now).controller := by
  have same : (k.withFlows table sent report).energy.strategy = k.energy.strategy := rfl
  simp only [Controller.rebalance]
  rw [same]
  cases k.energy.strategy with
  | perFlowRead =>
    have polled : Alike flow (k.pollEnergy now)
        ((k.pollEnergy now).withFlows table sent report) := ⟨rfl, h.share, h.indexed, h.indexed'⟩
    have moved := polled.moveFlows now
    exact ⟨moved.bare, moved.share, moved.indexed, moved.indexed'⟩
  | forecastNormalized =>
    have moved := h.moveFlows now
    exact ⟨rfl, moved.share, moved.indexed, moved.indexed'⟩

theorem Alike.handle (h : Alike flow k (k.withFlows table sent report)) {event : Event}
    (now : Time) (queue : EventQueue)
    (about : event.concerns k.settings.priorities flow = true) :
    AlikeHandled flow (k.handle event now queue)
      ((k.withFlows table sent report).handle event now queue) := by
  cases event with
  | switchConnected dpid => exact (h.switchConnected now).handled queue _
  | packetIn dpid header inPort =>
    exact (h.packetIn inPort now (of_decide_eq_true about)).handled queue _
  | flowRemoved dpid header reason =>
    exact (h.flowRemoved reason (of_decide_eq_true about)).handled queue _
  | pollEnergy =>
    have polled : Alike flow (k.pollEnergy now)
        ((k.withFlows table sent report).pollEnergy now) := ⟨rfl, h.share, h.indexed, h.indexed'⟩
    exact polled.again queue _ _ _ _
  | rebalance => exact (h.rebalance now).again queue _ _ _ _

/-! ### Runs -/

/-- An event that may concern the flow keeps two controllers alike, and has the same outcome. -/
theorem Alike.handleAt (h : Alike flow k k') {o : Occurrence}
    (about : o.event.concerns k.settings.priorities flow = true) :
    AlikeHandled flow (k.handleAt o) (k'.handleAt o) := by
  have seen := h.observed o.telemetry
  simp only [Controller.handleAt]
  rw [h.eq_withFlows o.telemetry] at seen ⊢
  exact seen.handle o.now o.queue about

/-- An event for another flow leaves a controller alike to what it was. -/
theorem Alike.handleAt_of_not_concerns (h : Alike flow k k') {o : Occurrence}
    (away : o.event.concerns k.settings.priorities flow = false) :
    Alike flow (k.handleAt o).controller k' := by
  have seen : Alike flow { k with telemetry := o.telemetry } k :=
    ⟨rfl, rfl, h.indexed, h.indexed⟩
  have indexed : { k with telemetry := o.telemetry }.table.Indexed := h.indexed
  have handled := alike_of_not_concerns indexed o.now o.queue away
  exact handled.symm.trans (seen.trans h)

theorem given_after (k : Controller W) (run : List Occurrence) :
    (k.after run).given = k.given := by
  induction run using List.reverseRecOn with
  | nil => rfl
  | append_singleton run o ih =>
    rw [after_concat]
    have same : { k.after run with telemetry := o.telemetry }.given = (k.after run).given := rfl
    exact (handle_given o.event o.now o.queue).trans (same.trans ih)

theorem settings_after (k : Controller W) (run : List Occurrence) :
    (k.after run).settings = k.settings :=
  congrArg (fun given => given.2.1) (given_after k run)

/-- A run and what is left of it without the events for other flows leave controllers alike. -/
theorem alike_after (indexed : k.table.Indexed) (run : List Occurrence) :
    Alike flow (k.after run)
      (k.after (run.filter (·.event.concerns k.settings.priorities flow))) := by
  induction run using List.reverseRecOn with
  | nil => exact Alike.refl indexed
  | append_singleton run o ih =>
    have settings := settings_after k run
    rw [List.filter_append, after_concat, List.filter_singleton]
    cases about : o.event.concerns k.settings.priorities flow with
    | true =>
      rw [cond_true, after_concat]
      rw [← settings] at about
      exact (ih.handleAt about).1
    | false =>
      -- the event is taken out, so only the whole run goes on
      rw [cond_false, List.append_nil]
      rw [← settings] at about
      exact ih.handleAt_of_not_concerns about

/-- **Flows do not interfere.** Take the events for other flows out of a run: the path of a flow and
    the instructions for it stay what they were, and every event that is left has the same
    outcome. A rebalance pass does with the flow what it would do if there were no other. -/
theorem isolated_after {metric : Metric W} {settings : Settings} {t : Topology}
    {telemetry : Telemetry} {forecast : Forecast} {k₀ : Controller W}
    (started : start? metric settings t telemetry forecast = .ok k₀) (flow : Flow)
    (run : List Occurrence) :
    let kept := run.filter (·.event.concerns settings.priorities flow)
    (k₀.after run).share flow = (k₀.after kept).share flow ∧
    (∀ next : Occurrence, next.event.concerns settings.priorities flow = true →
      ((k₀.after run).handleAt next).outcome = ((k₀.after kept).handleAt next).outcome) ∧
    (∀ telemetry dpid header reason, header.flow settings.priorities = .ok flow →
      ({ k₀.after run with telemetry }.flowRemoved dpid header reason).result =
        ({ k₀.after kept with telemetry }.flowRemoved dpid header reason).result) ∧
    ∀ path, (k₀.after run).table.path? flow = some path → ∀ telemetry now,
      ({ k₀.after run with telemetry }.rebalance now).controller.share flow =
        ({ (k₀.after run).alone flow path with
          telemetry }.rebalance now).controller.share flow := by
  intro kept
  obtain ⟨_, _, h⟩ := bind_eq_ok_iff.1 started
  cases h
  set k₀ : Controller W := ⟨metric, settings, t, telemetry, forecast, _, _, _, _⟩
  have alike : Alike flow (k₀.after run) (k₀.after kept) :=
    alike_after FlowTable.indexed_empty run
  have same : (k₀.after run).settings = settings := settings_after k₀ run
  refine ⟨alike.share, ?_, ?_, ?_⟩
  · intro next about
    rw [← same] at about
    exact (alike.handleAt about).2
  · intro telemetry dpid header reason about
    have seen := alike.observed telemetry
    rw [← same] at about
    rw [alike.eq_withFlows telemetry] at seen ⊢
    exact (seen.flowRemoved reason about).2
  · intro path known telemetry now
    have lone := alike_alone alike.indexed known
    have seen := lone.observed telemetry
    rw [lone.eq_withFlows telemetry] at seen ⊢
    exact (seen.rebalance now).share

/-! ### Two flows between two hosts -/

def twoHostsOther : Header := .udp (.ofOctets 10 0 0 1) (.ofOctets 10 0 0 2) 6 7

def twoHostsRun : List Occurrence :=
  [twoHostsOther, twoHostsHeader].map fun header => ⟨.empty, .packetIn 1 header 1, .zero, .empty⟩

theorem isolated_after_twoHosts :
    start? Metric.hops Settings.default twoHosts .empty .empty = .ok twoHostsStart ∧
      (twoHostsStart.after twoHostsRun).share twoHostsFlow =
        (some [2, 3], [.install 1 twoHostsFlow 2]) ∧
      ∀ telemetry now,
        ({ twoHostsStart.after twoHostsRun with telemetry }.rebalance now).controller.share
            twoHostsFlow =
          ({ (twoHostsStart.after twoHostsRun).alone twoHostsFlow [2, 3] with
            telemetry }.rebalance now).controller.share twoHostsFlow := by
  have started : start? Metric.hops Settings.default twoHosts .empty .empty = .ok twoHostsStart :=
    rfl
  have kept : twoHostsRun.filter (·.event.concerns Settings.default.priorities twoHostsFlow) =
      [⟨.empty, .packetIn 1 twoHostsHeader 1, .zero, .empty⟩] := rfl
  obtain ⟨same, _, _, alone⟩ := isolated_after started twoHostsFlow twoHostsRun
  have shared : (twoHostsStart.after twoHostsRun).share twoHostsFlow =
      (some [2, 3], [.install 1 twoHostsFlow 2]) := by
    rw [same, kept]
    change twoHostsNext.share twoHostsFlow = _
    refine Prod.ext twoHosts_path ?_
    simp only [share]
    rw [twoHostsNext_eq]
    rfl
  exact ⟨started, shared, alone [2, 3] (congrArg Prod.fst shared)⟩

end Controller

end PathControl
