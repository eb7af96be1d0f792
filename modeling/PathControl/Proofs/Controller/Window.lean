/-
  PathControl/Proofs/Controller/Window.lean
  =========================================
  **Over which time a rebalance pass measures.**

  With per-flow readings a pass polls first and measures between the last two polls,
  which are of different instants. Otherwise it measures since the last poll; if a
  poll has come at the very instant of the pass, that is no time at all, and the
  margin of a switch is zero whatever it drew. Where only the controller puts in polls
  and passes, this happens exactly if the poll interval is not the shorter one and
  divides the time of the pass (`rebalance_measures_iff`).
-/
import PathControl.Proofs.Controller.Reached
import PathControl.Proofs.Controller.Ticks

namespace PathControl.Controller

variable {W : Type} {r : Run W} {k₀ : Controller W} {a b now : Time} {queue : EventQueue}

/-! ### Polls at the time of a pass -/

/-- A poll came at an instant, by itself or with a pass. -/
def Run.PolledAt (r : Run W) (now : Time) : Prop :=
  ∃ d ∈ r.deliveries, d.event.Periodic ∧ d.time = now

theorem polledAt_iff : r.PolledAt now ↔
    r.DeliveredAt .pollEnergy now.nanos ∨ r.DeliveredAt .rebalance now.nanos := by
  constructor
  · rintro ⟨d, hd, poll | pass, rfl⟩
    · exact Or.inl ⟨d, hd, poll, rfl⟩
    · exact Or.inr ⟨d, hd, pass, rfl⟩
  · rintro (⟨d, hd, poll, same⟩ | ⟨d, hd, pass, same⟩)
    · exact ⟨d, hd, Or.inl poll, Time.ext_nanos same⟩
    · exact ⟨d, hd, Or.inr pass, Time.ext_nanos same⟩

/-- With the longer interval, a poll comes before the pass whenever it is due at the same time. -/
theorem InOrder.polledAt_of_poll_slow (h : InOrder 1 .pollEnergy .rebalance a b r)
    (sound : r.queue.Sound) (due : r.queue.pop = some ((now, .rebalance), queue))
    (longer : b.nanos ≤ a.nanos) (positive : 0 < b.nanos) (later : 0 < now.nanos) :
    r.PolledAt now ↔ a.nanos ∣ now.nanos := by
  obtain ⟨turn, taken⟩ := sound.pop due
  obtain ⟨i, j, duePoll, duePass, polls, passes, ahead⟩ := h
  obtain ⟨rfl, _⟩ := taken.due_eq passes.waits
  have waits : duePoll ∈ r.queue.pending .pollEnergy := by simp [polls.waits]
  have before := ahead.lt (Nat.lt_succ_of_le longer) (taken.least waits)
  rw [polls.next] at before
  rw [polledAt_iff, or_iff_left (passes.not_deliveredAt positive), polls.came]
  constructor
  · rintro ⟨m, _, _, same⟩
    exact ⟨m, same.trans (Nat.mul_comm ..)⟩
  · rintro ⟨m, same⟩
    rw [Nat.mul_comm] at same
    rw [same] at before later
    exact ⟨m, Nat.pos_of_mul_pos_right later, Nat.le_of_lt_succ (Nat.lt_of_mul_lt_mul_right before),
      same⟩

/-- With the longer interval, a pass comes before the poll whenever it is due at the same time. -/
theorem InOrder.not_polledAt_of_pass_slow (h : InOrder 0 .rebalance .pollEnergy a b r)
    (sound : r.queue.Sound) (due : r.queue.pop = some ((now, .rebalance), queue))
    (positive : 0 < a.nanos) : ¬ r.PolledAt now := by
  obtain ⟨turn, taken⟩ := sound.pop due
  obtain ⟨i, j, duePass, duePoll, passes, polls, ahead⟩ := h
  obtain ⟨rfl, _⟩ := taken.due_eq passes.waits
  rw [polledAt_iff, or_iff_left (passes.not_deliveredAt positive), polls.came]
  rintro ⟨m, _, upTo, same⟩
  have last : m * b.nanos ≤ j * b.nanos := Nat.mul_le_mul_right _ upTo
  have caught := ahead.caught
  rw [polls.next, Nat.succ_mul] at caught
  dsimp only at caught
  omega

/-! ### What a pass measures -/

/-- A pass measures what a switch draws over some time: with per-flow readings the time between
    its last two polls, otherwise the time since the last. -/
def Measures (k : Controller W) (dpid : Dpid) (now : Time) : Prop :=
  ∃ s, (k.atPass now).energy.sample? dpid = some s ∧
    match k.energy.strategy with
    | .forecastNormalized => s.time < now
    | .perFlowRead => s.previous < s.time

theorem strategy_atPass (k : Controller W) (now : Time) :
    (k.atPass now).energy.strategy = k.energy.strategy := by
  simp only [atPass]
  split
  · exact EnergyTracker.strategy_refreshAll
  · rfl

/-- Where a pass measures some time, the margin is the share of the budget for that time, less what
    was drawn in it. -/
theorem Measures.realFlex_eq {k : Controller W} {dpid : Dpid} (h : k.Measures dpid now)
    (live budget : Float) : ∃ s, (k.atPass now).energy.sample? dpid = some s ∧
      (s.window k.energy.strategy now).isZero = false ∧
      (k.atPass now).energy.realFlex dpid live budget now =
        .ok (budget * (s.window k.energy.strategy now).share -
          s.drawn k.energy.strategy live now) := by
  obtain ⟨s, known, measured⟩ := h
  have nonzero : (s.window k.energy.strategy now).isZero = false := by
    cases strategy : k.energy.strategy with
    | forecastNormalized =>
      rw [strategy] at measured
      exact Sample.window_of_lt measured
    | perFlowRead =>
      rw [strategy] at measured
      exact Sample.window_of_previous_lt measured
  refine ⟨s, known, nonzero, ?_⟩
  simp only [EnergyTracker.realFlex, EnergyTracker.sampleOf]
  rw [known, strategy_atPass]
  exact congrArg Except.ok (Sample.realFlex_of_window nonzero)

theorem Watched.measures_iff (h : Watched k₀ r) {dpid : Dpid} {registered : Time}
    (forward : r.queue.now.nanos ≤ now.nanos)
    (last : registeredAt? r.deliveries dpid = some registered) (earlier : registered < now) :
    r.controller.Measures dpid now ↔
      k₀.energy.strategy = .perFlowRead ∨ ¬ r.PolledAt now := by
  obtain ⟨n, s, latest, known, upTo, polled⟩ := h.sampled dpid registered last
  have upTo : s.time.nanos ≤ now.nanos := Nat.le_trans upTo forward
  have earlier : registered.nanos < now.nanos := earlier
  rw [← topology_eq_of_given h.given] at latest
  rw [← h.strategy]
  simp only [Measures, atPass]
  cases r.controller.energy.strategy with
  | perFlowRead =>
    refine iff_of_true ⟨s.refresh (r.controller.telemetry.powerOf n) now, ?_, ?_⟩ (Or.inl rfl)
    · simp only [pollEnergy]
      rw [EnergyTracker.sample?_refreshAll latest, known]
      rfl
    · change (s.refresh _ now).previous.nanos < (s.refresh _ now).time.nanos
      rw [Sample.refresh_time, Sample.refresh_previous]
      split
      · -- polled at this instant before: the sample keeps the poll before that one
        next again =>
        rw [again] at earlier ⊢
        exact polled.window earlier
      · next other =>
        exact Nat.lt_of_le_of_ne upTo fun same => other (Time.ext_nanos same.symm)
  | forecastNormalized =>
    rw [known]
    constructor
    · rintro ⟨s', same, before⟩
      cases same
      refine Or.inr ?_
      rintro ⟨d, hd, periodic, rfl⟩
      exact Nat.not_lt.2 (polled.latest d hd periodic earlier) before
    · intro quiet
      have quiet : ¬ r.PolledAt now := quiet.resolve_left (by simp)
      refine ⟨s, rfl, Nat.lt_of_le_of_ne upTo ?_⟩
      -- a sample of this instant was taken by a poll, as the switch registered before
      intro same
      have same : s.time = now := Time.ext_nanos same
      rcases polled.taken with first | ⟨d, hd, periodic, polledThen⟩
      · rw [← same, first] at earlier
        exact Nat.lt_irrefl _ earlier
      · exact quiet ⟨d, hd, periodic, polledThen.trans same⟩

/-! ### Runs of the loop -/

variable [Weight W] {pushed : List Event}

/-- Where only the controller puts in polls and passes, a poll comes before the pass of the same
    time exactly if it is due then and its interval is not shorter. -/
theorem Loop.polledAt_iff (loop : Loop k₀ r pushed) (outside : ∀ e ∈ pushed, ¬ e.Periodic)
    (running : r.overflowed = false) (due : r.queue.pop = some ((now, .rebalance), queue))
    (polls : 0 < k₀.settings.pollTime.nanos) (passes : 0 < k₀.settings.rebalanceTime.nanos)
    (later : 0 < now.nanos) : r.PolledAt now ↔
      k₀.settings.rebalanceTime ≤ k₀.settings.pollTime ∧
        k₀.settings.pollTime.nanos ∣ now.nanos := by
  have sound := loop.watched.sound
  rcases Nat.lt_or_ge k₀.settings.pollTime.nanos k₀.settings.rebalanceTime.nanos with
    shorter | longer
  · have order := loop.inOrder (fun _ put => inOrder_start_pass put passes) rfl rfl (by simp)
      (Nat.zero_le 1) (by simpa using shorter)
      (fun e he => ⟨fun pass => outside e he (Or.inr pass), fun poll => outside e he (Or.inl poll)⟩)
      running
    refine iff_of_false (order.not_polledAt_of_pass_slow sound due passes) ?_
    rintro ⟨longer, _⟩
    exact Nat.not_lt.2 longer shorter
  · have order := loop.inOrder (fun _ put => inOrder_start_poll put polls) rfl rfl (by simp)
      (Nat.le_refl 1) (Nat.lt_succ_of_le longer)
      (fun e he => ⟨fun poll => outside e he (Or.inl poll), fun pass => outside e he (Or.inr pass)⟩)
      running
    rw [order.polledAt_of_poll_slow sound due longer passes later]
    exact (and_iff_right longer).symm

/-- **Over which time a pass measures.** Let a switch have registered before a pass that is due.
    The pass measures it over some time unless it measures since the last poll and a poll has
    come at its very instant. Where only the controller puts in polls and passes, that is the case
    exactly if the poll interval is not the shorter one and divides the time of the pass. -/
theorem rebalance_measures_iff {metric : Metric W} {settings : Settings} {t : Topology}
    {telemetry : Telemetry} {forecast : Forecast}
    (started : start? metric settings t telemetry forecast = .ok k₀) (loop : Loop k₀ r pushed)
    (running : r.overflowed = false) (due : r.queue.pop = some ((now, .rebalance), queue))
    {dpid : Dpid} {registered : Time}
    (last : registeredAt? r.deliveries dpid = some registered) (earlier : registered < now) :
    (r.controller.Measures dpid now ↔
      settings.pollStrategy = .perFlowRead ∨ ¬ r.PolledAt now) ∧
    ((∀ e ∈ pushed, ¬ e.Periodic) → (r.controller.Measures dpid now ↔
      settings.pollStrategy = .perFlowRead ∨ settings.pollTime < settings.rebalanceTime ∨
        ¬ settings.pollTime.nanos ∣ now.nanos)) := by
  obtain ⟨_, accepted, made⟩ := bind_eq_ok_iff.1 started
  obtain ⟨polls, passes⟩ := Settings.interval_pos accepted
  have watched := loop.watched
  obtain ⟨turn, taken⟩ := watched.sound.pop due
  have measured := watched.measures_iff taken.forward last earlier
  have same : k₀.settings = settings ∧ k₀.energy.strategy = settings.pollStrategy := by
    cases made
    exact ⟨rfl, rfl⟩
  rw [same.2] at measured
  refine ⟨measured, ?_⟩
  intro outside
  rw [← same.1] at polls passes
  have later : 0 < now.nanos := Nat.lt_of_le_of_lt (Nat.zero_le _) earlier
  rw [measured, loop.polledAt_iff outside running due polls passes later, not_and_or, same.1]
  exact or_congr_right (or_congr_left Nat.not_le)

/-- A controller of two hosts that measures since the last poll. -/
def metered (poll rebalance : UInt64) : Controller HopCount :=
  { twoHostsStart with
    settings := { pollInterval := poll, rebalanceInterval := rebalance,
                  pollStrategy := .forecastNormalized }
    energy := .empty .forecastNormalized }

/-- Its run when the first switch has registered at the start and the first poll has come. -/
def meteredRun (poll rebalance : UInt64) : Run HopCount :=
  Run.advance (.ofSeconds poll) 2
    { controller := metered poll rebalance
      queue := ((metered poll rebalance).schedulePeriodic .empty).1.push .zero
        (.switchConnected 1) }

theorem loop_meteredRun (poll rebalance : UInt64)
    (put : ((metered poll rebalance).schedulePeriodic .empty).2 = true) :
    Loop (metered poll rebalance) (meteredRun poll rebalance) [.switchConnected 1] := by
  rw [meteredRun]
  generalize schedule : (metered poll rebalance).schedulePeriodic .empty = start at put ⊢
  obtain ⟨queue, both⟩ := start
  cases put
  exact ((Loop.start schedule).push .zero (.switchConnected 1)).advance _ 2

/-- With polls twice as frequent as passes, the first pass comes before the poll of its time. -/
theorem rebalance_measures_iff_metered :
    start? Metric.hops (metered 10 20).settings twoHosts .empty .empty = .ok (metered 10 20) ∧
      Loop (metered 10 20) (meteredRun 10 20) [.switchConnected 1] ∧
      (meteredRun 10 20).overflowed = false ∧
      (∃ queue, (meteredRun 10 20).queue.pop = some ((.ofSeconds 20, .rebalance), queue)) ∧
      registeredAt? (meteredRun 10 20).deliveries 1 = some .zero ∧
      Time.zero < .ofSeconds 20 ∧ (∀ e ∈ [Event.switchConnected 1], ¬ e.Periodic) ∧
      ¬ (meteredRun 10 20).PolledAt (.ofSeconds 20) ∧
      (meteredRun 10 20).controller.Measures 1 (.ofSeconds 20) := by
  have started : start? Metric.hops (metered 10 20).settings twoHosts .empty .empty =
      .ok (metered 10 20) := rfl
  have loop := loop_meteredRun 10 20 (by decide +kernel)
  have running : (meteredRun 10 20).overflowed = false := by decide +kernel
  have next : (meteredRun 10 20).queue.pop.map Prod.fst = some (.ofSeconds 20, .rebalance) := by
    decide +kernel
  obtain ⟨⟨_, queue⟩, due, rfl⟩ := Option.map_eq_some_iff.1 next
  have last : registeredAt? (meteredRun 10 20).deliveries 1 = some .zero := by decide +kernel
  have earlier : Time.zero < .ofSeconds 20 := by decide
  have outside : ∀ e ∈ [Event.switchConnected 1], ¬ e.Periodic := by decide
  have spec := rebalance_measures_iff started loop running due last earlier
  have measures := (spec.2 outside).2 (Or.inr (Or.inl (by decide)))
  exact ⟨started, loop, running, ⟨queue, due⟩, last, earlier, outside,
    (spec.1.1 measures).resolve_left (by decide), measures⟩

/-- With equal intervals the poll comes first, and the pass measures no time. -/
theorem not_measures_metered :
    start? Metric.hops (metered 10 10).settings twoHosts .empty .empty = .ok (metered 10 10) ∧
      Loop (metered 10 10) (meteredRun 10 10) [.switchConnected 1] ∧
      (meteredRun 10 10).overflowed = false ∧
      (∃ queue, (meteredRun 10 10).queue.pop = some ((.ofSeconds 10, .rebalance), queue)) ∧
      registeredAt? (meteredRun 10 10).deliveries 1 = some .zero ∧
      Time.zero < .ofSeconds 10 ∧
      ¬ (meteredRun 10 10).controller.Measures 1 (.ofSeconds 10) := by
  have next : (meteredRun 10 10).queue.pop.map Prod.fst = some (.ofSeconds 10, .rebalance) := by
    decide +kernel
  obtain ⟨⟨_, queue⟩, due, rfl⟩ := Option.map_eq_some_iff.1 next
  have sampled : (((meteredRun 10 10).controller.atPass (.ofSeconds 10)).energy.sample? 1).map
      Sample.time = some (.ofSeconds 10) := by decide +kernel
  have strategy : (meteredRun 10 10).controller.energy.strategy = .forecastNormalized := by
    decide +kernel
  refine ⟨rfl, loop_meteredRun 10 10 (by decide +kernel), by decide +kernel, ⟨queue, due⟩,
    by decide +kernel, by decide, ?_⟩
  rintro ⟨s, known, before⟩
  rw [strategy] at before
  rw [known] at sampled
  have time : s.time = .ofSeconds 10 := Option.some.inj sampled
  rw [time] at before
  have before : Time.ofSeconds 10 < .ofSeconds 10 := before
  exact absurd before (by decide)

end PathControl.Controller
