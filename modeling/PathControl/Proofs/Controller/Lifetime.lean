/-
  PathControl/Proofs/Controller/Lifetime.lean
  ===========================================
  **How long a flow stays in the table.**

  A flow comes into the table with a packet of it that is not refused, and leaves it
  when its rule idles out at a switch that is on its path at that moment (`Admits`,
  `Ends`). No other event does either (`contains_handleAt_iff`), not even one that moves
  the flow, so the table can be told from the events: a flow is in it exactly if it was
  admitted at some event and has not ended since (`contains_after_iff`).
-/
import PathControl.Proofs.Controller.Burden
import PathControl.Proofs.Controller.Isolation

namespace PathControl

namespace Controller

variable {W : Type} {k k₀ : Controller W} {flow : Flow} {dpid : Dpid} {header : Header}
  {inPort : UInt32} {now : Time} {reason : RemovalReason}

/-! ### Events that matter to a flow -/

/-- Some switch has idled out the rule of a flow on whose path it stands. -/
def IdlesOut (k : Controller W) (flow : Flow) (dpid : Dpid) (header : Header) : Prop :=
  header.flow k.settings.priorities = .ok flow ∧ ∃ switch path,
    k.topology.switchWith? dpid = some switch ∧ k.table.path? flow = some path ∧ switch ∈ path

/-- The event ends the flow: its rule has idled out on its path. -/
def Ends (k : Controller W) (flow : Flow) (o : Occurrence) : Prop :=
  ∃ dpid header, o.event = .flowRemoved dpid header .idleTimeout ∧ k.IdlesOut flow dpid header

theorem reported_eq_ok_iff {switch : NodeId} : k.reported dpid header = .ok (switch, flow) ↔
    k.topology.switchWith? dpid = some switch ∧
      header.flow k.settings.priorities = .ok flow := by
  constructor
  · intro h
    obtain ⟨n, latest, told⟩ := bind_eq_ok_iff.1 h
    obtain ⟨named, _, told⟩ := bind_eq_ok_iff.1 told
    cases told
    exact ⟨Topology.switchWith_eq_ok_iff.1 latest, flow_of_reported h⟩
  · rintro ⟨latest, named⟩
    exact bind_eq_ok_iff.2 ⟨switch, Topology.switchWith_eq_ok_iff.2 latest,
      bind_eq_ok_iff.2 ⟨flow, flowOf_eq_ok_iff.2 named, rfl⟩⟩

theorem contains_flowIdle_iff : (k.flowIdle dpid header).controller.table.contains flow = true ↔
    k.table.contains flow = true ∧ ¬ k.IdlesOut flow dpid header := by
  simp only [flowIdle]
  split
  · -- a report that cannot be read is about no flow
    next e unread =>
    refine (and_iff_left ?_).symm
    rintro ⟨named, switch, path, latest, _⟩
    cases unread.symm.trans (reported_eq_ok_iff.2 ⟨latest, named⟩)
  · next switch about reported =>
    obtain ⟨latest, named⟩ := reported_eq_ok_iff.1 reported
    have only : k.IdlesOut flow dpid header → flow = about ∧ ∃ path,
        k.table.path? about = some path ∧ switch ∈ path := by
      rintro ⟨named', switch', path, latest', known, onPath⟩
      cases named.symm.trans named'
      cases latest.symm.trans latest'
      exact ⟨rfl, path, known, onPath⟩
    split
    · next missing =>
      refine (and_iff_left fun ends => ?_).symm
      obtain ⟨_, path, known, _⟩ := only ends
      cases missing.symm.trans known
    · next path known =>
      split
      · next onPath =>
        rw [FlowTable.contains_evict_iff, and_comm]
        refine and_congr_right' (not_congr ⟨?_, fun ends => (only ends).1⟩)
        rintro rfl
        exact ⟨named, switch, path, latest, known, onPath⟩
      · next away =>
        refine (and_iff_left fun ends => ?_).symm
        obtain ⟨_, path', known', onPath⟩ := only ends
        cases known.symm.trans known'
        exact away onPath

theorem ends_flowRemoved_iff {telemetry : Telemetry} {queue : EventQueue} :
    k.Ends flow ⟨telemetry, .flowRemoved dpid header reason, now, queue⟩ ↔
      reason = .idleTimeout ∧ k.IdlesOut flow dpid header := by
  constructor
  · rintro ⟨_, _, same, ends⟩
    cases same
    exact ⟨rfl, ends⟩
  · rintro ⟨rfl, ends⟩
    exact ⟨_, _, rfl, ends⟩

theorem contains_flowRemoved_iff :
    (k.flowRemoved dpid header reason).controller.table.contains flow = true ↔
      k.table.contains flow = true ∧ ¬ (reason = .idleTimeout ∧ k.IdlesOut flow dpid header) := by
  simp only [flowRemoved]
  split
  · next idle =>
    rw [contains_flowIdle_iff, and_iff_right idle]
  · next other =>
    simp [other]

theorem exists_answer (switch : NodeId) (path : List NodeId) :
    ∃ packet, (k.answer dpid switch flow inPort path).result = .ok packet := by
  simp only [answer]
  split
  · exact ⟨_, rfl⟩
  · exact ⟨_, rfl⟩

theorem outcome_ofReaction_eq_done_iff {queue : EventQueue} {packet : Option PacketOut}
    {r : Reaction W (Option PacketOut)} :
    (Handled.ofReaction queue id r).outcome = .done packet ↔ r.result = .ok packet := by
  simp only [Handled.ofReaction]
  cases r.result <;> simp

variable [Weight W]

/-- The event reports a packet of the flow and is not refused. -/
def Admits (k : Controller W) (flow : Flow) (o : Occurrence) : Prop :=
  ∃ dpid header inPort packet, o.event = .packetIn dpid header inPort ∧
    header.flow k.settings.priorities = .ok flow ∧ (k.handleAt o).outcome = .done packet

theorem contains_packetIn_iff :
    (k.packetIn dpid header inPort now).controller.table.contains flow = true ↔
      header.flow k.settings.priorities = .ok flow ∧
        (∃ packet, (k.packetIn dpid header inPort now).result = .ok packet) ∨
      k.table.contains flow = true := by
  simp only [packetIn]
  split
  · simp
  · next switch about reported =>
    obtain ⟨_, named⟩ := reported_eq_ok_iff.1 reported
    split
    · next path known =>
      rw [answer_controller]
      refine (or_iff_right_of_imp ?_).symm
      rintro ⟨named', _⟩
      cases named.symm.trans named'
      exact FlowTable.contains_iff.2 ⟨path, known⟩
    · simp only [installFlow]
      split
      · simp
      · next path rules route =>
        dsimp only
        rw [answer_controller, FlowTable.contains_install_iff, and_iff_left (exists_answer ..), named]
        refine or_congr_left ?_
        rw [Except.ok.injEq]
        exact eq_comm

/-! ### One event -/

/-- Events that give no reason to enter or to forget any flow: among the reports of ended rules
    these are the ones that have not idled out, or not at a switch on the path of the flow. -/
inductive Keeps (k : Controller W) : Event → Prop where
  | connected (dpid : Dpid) : Keeps k (.switchConnected dpid)
  | poll : Keeps k .pollEnergy
  | pass : Keeps k .rebalance
  | removed (dpid : Dpid) (header : Header) {reason : RemovalReason}
      (other : reason ≠ .idleTimeout) : Keeps k (.flowRemoved dpid header reason)
  | stale {dpid : Dpid} {header : Header} (away : ∀ flow, ¬ k.IdlesOut flow dpid header) :
      Keeps k (.flowRemoved dpid header .idleTimeout)

theorem contains_of_keeps {o : Occurrence} (keeps : k.Keeps o.event) (flow : Flow) :
    (k.handleAt o).controller.table.contains flow = k.table.contains flow := by
  obtain ⟨telemetry, event, now, queue⟩ := o
  cases keeps with
  | connected dpid =>
    simp only [handleAt, handle, Handled.ofReaction, switchConnected]
    split <;> rfl
  | poll =>
    simp only [handleAt, handle, again_controller]
    rfl
  | pass =>
    simp only [handleAt, handle, again_controller]
    obtain ⟨table, _⟩ := rebalance_spec { k with telemetry } now
    rw [table]
    exact contains_rebalance flow
  | removed dpid header other =>
    simp only [handleAt, handle, Handled.ofReaction, flowRemoved]
    rw [if_neg other]
  | stale away =>
    rw [Bool.eq_iff_iff]
    refine contains_flowRemoved_iff.trans (and_iff_left ?_)
    rintro ⟨_, ends⟩
    exact away flow ends

theorem admits_packetIn_iff {telemetry : Telemetry} {queue : EventQueue} :
    k.Admits flow ⟨telemetry, .packetIn dpid header inPort, now, queue⟩ ↔
      header.flow k.settings.priorities = .ok flow ∧
        ∃ packet, ({ k with telemetry }.packetIn dpid header inPort now).result = .ok packet := by
  constructor
  · rintro ⟨_, _, _, packet, same, named, ended⟩
    cases same
    exact ⟨named, packet, outcome_ofReaction_eq_done_iff.1 ended⟩
  · rintro ⟨named, packet, ended⟩
    exact ⟨_, _, _, packet, rfl, named, outcome_ofReaction_eq_done_iff.2 ended⟩

/-- **Only a packet that is not refused enters a flow, and only a rule that idles out on its path
    ends it.** -/
theorem contains_handleAt_iff {o : Occurrence} :
    (k.handleAt o).controller.table.contains flow = true ↔
      k.Admits flow o ∨ k.table.contains flow = true ∧ ¬ k.Ends flow o := by
  have quiet (keeps : k.Keeps o.event) (noPacket : ¬ k.Admits flow o) (noEnd : ¬ k.Ends flow o) :
      (k.handleAt o).controller.table.contains flow = true ↔
        k.Admits flow o ∨ k.table.contains flow = true ∧ ¬ k.Ends flow o := by
    rw [contains_of_keeps keeps, or_iff_right noPacket, and_iff_left noEnd]
  obtain ⟨telemetry, event, now, queue⟩ := o
  cases event with
  | switchConnected dpid => exact quiet (.connected dpid) (by simp [Admits]) (by simp [Ends])
  | pollEnergy => exact quiet .poll (by simp [Admits]) (by simp [Ends])
  | rebalance => exact quiet .pass (by simp [Admits]) (by simp [Ends])
  | packetIn dpid header inPort =>
    have noEnd : ¬ k.Ends flow ⟨telemetry, .packetIn dpid header inPort, now, queue⟩ := by
      simp [Ends]
    rw [admits_packetIn_iff, and_iff_left noEnd]
    exact contains_packetIn_iff
  | flowRemoved dpid header reason =>
    have noPacket : ¬ k.Admits flow ⟨telemetry, .flowRemoved dpid header reason, now, queue⟩ := by
      simp [Admits]
    rw [or_iff_right noPacket, ends_flowRemoved_iff]
    exact contains_flowRemoved_iff

/-! ### Runs -/

section Runs

variable {run : List Occurrence} {P Q : Controller W → Occurrence → Prop} {i : Nat}
  {o : Occurrence}

/-- Something holds of an event of a run and the controller that it comes to. -/
def At (k₀ : Controller W) (run : List Occurrence) (P : Controller W → Occurrence → Prop)
    (i : Nat) : Prop :=
  ∃ o, run[i]? = some o ∧ P (k₀.after (run.take i)) o

/-- One thing holds of some event of a run, and another of no later event. -/
def Since (k₀ : Controller W) (run : List Occurrence) (P Q : Controller W → Occurrence → Prop) :
    Prop :=
  ∃ i, k₀.At run P i ∧ ∀ j, i < j → ¬ k₀.At run Q j

theorem At.lt_length (h : k₀.At run P i) : i < run.length := by
  obtain ⟨o, here, _⟩ := h
  exact (List.getElem?_eq_some_iff.1 here).1

theorem at_concat_iff :
    k₀.At (run ++ [o]) P i ↔ k₀.At run P i ∨ i = run.length ∧ P (k₀.after run) o := by
  rcases Nat.lt_trichotomy i run.length with before | rfl | beyond
  · simp only [At]
    rw [List.getElem?_append_left before, List.take_append_of_le_length (Nat.le_of_lt before),
      or_iff_left fun h => Nat.ne_of_lt before h.1]
  · have out : ¬ k₀.At run P run.length := fun h => Nat.lt_irrefl _ h.lt_length
    rw [or_iff_right out, and_iff_right rfl]
    simp [At]
  · refine iff_of_false (fun h => ?_) ?_
    · have := h.lt_length
      rw [List.length_append, List.length_singleton] at this
      omega
    · rintro (h | ⟨rfl, _⟩)
      · exact Nat.lt_asymm beyond h.lt_length
      · exact Nat.lt_irrefl _ beyond

theorem since_concat_iff : k₀.Since (run ++ [o]) P Q ↔
    P (k₀.after run) o ∨ k₀.Since run P Q ∧ ¬ Q (k₀.after run) o := by
  constructor
  · rintro ⟨i, here, never⟩
    rcases at_concat_iff.1 here with before | ⟨_, last⟩
    · refine Or.inr ⟨⟨i, before, fun j later h => ?_⟩, fun h => ?_⟩
      · exact never j later (at_concat_iff.2 (Or.inl h))
      · exact never run.length before.lt_length (at_concat_iff.2 (Or.inr ⟨rfl, h⟩))
    · exact Or.inl last
  · rintro (last | ⟨⟨i, here, never⟩, quiet⟩)
    · refine ⟨run.length, at_concat_iff.2 (Or.inr ⟨rfl, last⟩), fun j later h => ?_⟩
      rcases at_concat_iff.1 h with h | ⟨rfl, _⟩
      · exact Nat.lt_asymm later h.lt_length
      · exact Nat.lt_irrefl _ later
    · refine ⟨i, at_concat_iff.2 (Or.inl here), fun j later h => ?_⟩
      rcases at_concat_iff.1 h with h | ⟨_, h⟩
      · exact never j later h
      · exact quiet h

theorem contains_after (empty : ∀ flow, k₀.table.contains flow = false) :
    (k₀.after run).table.contains flow = true ↔
      k₀.Since run (·.Admits flow) (·.Ends flow) := by
  induction run using List.reverseRecOn with
  | nil =>
    refine iff_of_false (by simp [after, empty flow]) ?_
    rintro ⟨i, here, _⟩
    exact Nat.not_lt_zero i here.lt_length
  | append_singleton run o ih =>
    rw [after_concat, contains_handleAt_iff, since_concat_iff, ih]

/-- **A flow is in the table exactly while it should be.** After a run from the start a flow is in
    the table if and only if some event of the run was a packet of the flow that was not refused,
    and since then its rule has idled out at no switch on its path of that moment. Switches that
    connect, polls, passes and reports of other rules that ended enter and forget no flow. -/
theorem contains_after_iff {metric : Metric W} {settings : Settings} {t : Topology}
    {telemetry : Telemetry} {forecast : Forecast}
    (started : start? metric settings t telemetry forecast = .ok k₀) (run : List Occurrence)
    (flow : Flow) :
    ((k₀.after run).table.contains flow = true ↔
      k₀.Since run (·.Admits flow) (·.Ends flow)) ∧
    ∀ o : Occurrence, (k₀.after run).Keeps o.event →
      (k₀.after (run ++ [o])).table.contains flow = (k₀.after run).table.contains flow := by
  constructor
  · refine contains_after fun flow => ?_
    obtain ⟨_, _, h⟩ := bind_eq_ok_iff.1 started
    cases h
    rw [← Bool.not_eq_true, FlowTable.contains_iff]
    rintro ⟨path, known⟩
    cases (FlowTable.path?_empty flow).symm.trans known
  · intro o keeps
    rw [after_concat]
    exact contains_of_keeps keeps flow

end Runs

/-! ### A flow that a pass moves -/

/-- A flow is entered on one way, and a pass moves it to the other. -/
def twoWaysRun : List Occurrence :=
  [⟨.empty, .switchConnected 3, .zero, .empty⟩, ⟨.empty, .packetIn 1 twoHostsHeader 1, .zero, .empty⟩,
    ⟨Telemetry.empty.setPower 4 2.0, .rebalance, .ofSeconds 900, .empty⟩]

/-- A switch says that the rule of the flow has idled out. -/
def twoWaysIdle (dpid : Dpid) : Occurrence :=
  ⟨.empty, .flowRemoved dpid twoHostsHeader .idleTimeout, .ofSeconds 900, .empty⟩

theorem path?_twoWaysRun :
    (twoWaysStart.after twoWaysRun).table.path? twoHostsFlow = some [2, 3, 5] := by
  have entered : twoWaysStart.after (twoWaysRun.take 2) = twoWaysNext := handle_twoWaysConnected
  have run : twoWaysRun = twoWaysRun.take 2 ++
      [⟨Telemetry.empty.setPower 4 2.0, .rebalance, .ofSeconds 900, .empty⟩] := rfl
  rw [run, after_concat, entered]
  simp only [handleAt, handle, again_controller]
  exact rebalance_twoWays

/-- The switch that the flow has left can no longer end it, but the one that it runs through now
    can. -/
theorem contains_after_iff_twoWays :
    start? Metric.flex Settings.default twoWays .empty twoWaysForecast = .ok twoWaysStart ∧
      twoWaysStart.Since (twoWaysRun ++ [twoWaysIdle 3]) (·.Admits twoHostsFlow)
        (·.Ends twoHostsFlow) ∧
      (twoWaysStart.after (twoWaysRun ++ [twoWaysIdle 3])).table.contains twoHostsFlow = true ∧
      (twoWaysStart.after (twoWaysRun ++ [twoWaysIdle 2])).table.contains twoHostsFlow = false := by
  have started : start? Metric.flex Settings.default twoWays .empty twoWaysForecast =
      .ok twoWaysStart := rfl
  have topology : (twoWaysStart.after twoWaysRun).topology = twoWays :=
    topology_eq_of_given (given_after twoWaysStart twoWaysRun)
  have settings : (twoWaysStart.after twoWaysRun).settings = Settings.default :=
    settings_after twoWaysStart twoWaysRun
  have named : twoHostsHeader.flow Settings.default.priorities = .ok twoHostsFlow := by decide
  have left : (twoWaysStart.after twoWaysRun).Keeps (twoWaysIdle 3).event := by
    refine .stale fun flow => ?_
    rintro ⟨about, switch, path, latest, known, onPath⟩
    rw [settings] at about
    rw [topology] at latest
    cases named.symm.trans about
    cases path?_twoWaysRun.symm.trans known
    cases (show twoWays.switchWith? 3 = some 4 by decide).symm.trans latest
    simp at onPath
  have stays : (twoWaysStart.after (twoWaysRun ++ [twoWaysIdle 3])).table.contains twoHostsFlow =
      true := by
    rw [(contains_after_iff started twoWaysRun twoHostsFlow).2 _ left]
    exact FlowTable.contains_iff.2 ⟨_, path?_twoWaysRun⟩
  refine ⟨started, (contains_after_iff started _ _).1.1 stays, stays, ?_⟩
  rw [← Bool.not_eq_true, (contains_after_iff started _ _).1, since_concat_iff]
  rintro (⟨_, _, _, _, packet, _⟩ | ⟨_, lasting⟩)
  · cases packet
  · refine lasting ⟨2, twoHostsHeader, rfl, ?_, 3, [2, 3, 5], ?_, path?_twoWaysRun, by simp⟩
    · rw [settings]
      exact named
    · rw [topology]
      decide

end Controller

end PathControl
