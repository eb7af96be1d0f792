/-
  PathControl/Proofs/Controller/Margin.lean
  =========================================
  **Whose readings a margin depends on.**

  Of a run a node sees the events that register a switch or poll, when they come, and
  what it has drawn by then (`view`). The sample under a datapath id is what the node
  that has the id sees, entered one sighting after the other (`sample?_after`).

  A margin is read from the sample under the id that its switch was added with, but
  samples are taken from the switch that has the id. The two are one switch unless a
  later one took the id, and exactly then the margin can be told from the readings of
  its own switch alone (`ownMargin_iff`).
-/
import PathControl.Proofs.Controller.Isolation
import PathControl.Proofs.Controller.Sample
import PathControl.Proofs.Forecast
import PathControl.Proofs.Topology.Port

namespace PathControl

/-! ### Readings -/

theorem Telemetry.powerOf_setPower (t : Telemetry) (n m : NodeId) (x : Float) :
    (t.setPower n x).powerOf m = if n = m then x else t.powerOf m := by
  simp only [powerOf, setPower]
  rw [Std.TreeMap.getD_insert]
  simp only [Std.LawfulEqCmp.compare_eq_iff_eq]

namespace Controller

variable {W : Type} {k k₀ : Controller W} {n m : NodeId} {dpid d : Dpid} {now : Time}
  {o : Occurrence} {run : List Occurrence}

/-! ### Sightings -/

/-- An event that registers a switch or polls, its time, and what a node has drawn by then. -/
structure Sighting where
  event : Event
  now : Time
  draw : Float

/-- What a node sees of an event; nothing of one that takes no samples. -/
def Occurrence.sighting? (n : NodeId) (o : Occurrence) : Option Sighting :=
  match o.event with
  | .switchConnected _ | .pollEnergy | .rebalance => some ⟨o.event, o.now, o.telemetry.powerOf n⟩
  | .packetIn .. | .flowRemoved .. => none

def view (n : NodeId) (run : List Occurrence) : List Sighting := run.filterMap (·.sighting? n)

/-- The sample under an id after a sighting of the switch that has the id. -/
def Sighting.enter (dpid : Dpid) (sample : Option Sample) (s : Sighting) : Option Sample :=
  match s.event with
  | .switchConnected d => if d = dpid then some (.first s.draw s.now) else sample
  | _ => sample.map (·.refresh s.draw s.now)

theorem view_concat (n : NodeId) (run : List Occurrence) (o : Occurrence) :
    view n (run ++ [o]) = view n run ++ view n [o] := List.filterMap_append

/-! ### Samples after a run -/

/-- A switch that has a datapath id can always connect with it. -/
theorem exists_greeting (latest : k.topology.switchWith? dpid = some n) :
    ∃ rules, k.greeting dpid = .ok (n, rules) := by
  have named : k.topology.dpidOf n = .ok dpid :=
    Topology.dpidOf_eq_ok_iff.2 (Topology.dpid?_of_switchWith? latest)
  obtain ⟨rules, told⟩ : ∃ rules, k.topology.handshake n = .ok rules :=
    ⟨_, bind_eq_ok_iff.2 ⟨dpid, named, rfl⟩⟩
  exact ⟨rules, bind_eq_ok_iff.2 ⟨n, Topology.switchWith_eq_ok_iff.2 latest,
    bind_eq_ok_iff.2 ⟨rules, told, rfl⟩⟩⟩

theorem sample?_switchConnected (latest : k.topology.switchWith? dpid = some m) :
    (k.switchConnected d now).controller.energy.sample? dpid =
      if d = dpid then some (.first (k.telemetry.powerOf m) now) else k.energy.sample? dpid := by
  simp only [switchConnected]
  split
  · next refused =>
    rw [if_neg]
    rintro rfl
    obtain ⟨rules, greeted⟩ := exists_greeting latest
    cases refused.symm.trans greeted
  · next n rules greeted =>
    dsimp only
    rw [EnergyTracker.sample?_register]
    split
    · next same =>
      subst same
      obtain ⟨rules', greeted'⟩ := exists_greeting latest
      cases greeted.symm.trans greeted'
      rfl
    · rfl

variable [Weight W]

theorem sample?_handleAt (latest : k.topology.switchWith? dpid = some m) :
    (k.handleAt o).controller.energy.sample? dpid =
      (view m [o]).foldl (Sighting.enter dpid) (k.energy.sample? dpid) := by
  obtain ⟨telemetry, event, now, queue⟩ := o
  cases event with
  | switchConnected d => exact sample?_switchConnected (k := { k with telemetry }) latest
  | packetIn d header inPort =>
    simp only [handleAt, handle, Handled.ofReaction]
    rw [packetIn_energy]
    rfl
  | flowRemoved d header reason =>
    simp only [handleAt, handle, Handled.ofReaction]
    rw [flowRemoved_energy]
    rfl
  | pollEnergy =>
    simp only [handleAt, handle, again_controller]
    exact EnergyTracker.sample?_refreshAll latest
  | rebalance =>
    simp only [handleAt, handle, again_controller]
    rw [rebalance_energy]
    exact EnergyTracker.sample?_refreshAll latest

theorem sample?_after (latest : k.topology.switchWith? dpid = some m) (run : List Occurrence) :
    (k.after run).energy.sample? dpid =
      (view m run).foldl (Sighting.enter dpid) (k.energy.sample? dpid) := by
  induction run using List.reverseRecOn with
  | nil => rfl
  | append_singleton run o ih =>
    have same : (k.after run).topology = k.topology := topology_eq_of_given (given_after k run)
    rw [after_concat, sample?_handleAt (same ▸ latest), ih, view_concat, List.foldl_append]

theorem strategy_after (k : Controller W) (run : List Occurrence) :
    (k.after run).energy.strategy = k.energy.strategy := by
  induction run using List.reverseRecOn with
  | nil => rfl
  | append_singleton run o ih =>
    rw [after_concat]
    exact (handle_sampling _ o.event o.now o.queue).strategy_eq.trans ih

/-! ### Margins after a run -/

/-- The margin of a node after a run is told from what the node itself sees and draws, whatever
    the other nodes draw. -/
def OwnMargin (k₀ : Controller W) (n : NodeId) : Prop :=
  ∀ run run', view n run = view n run' → ∀ telemetry telemetry' : Telemetry,
    telemetry.powerOf n = telemetry'.powerOf n → ∀ forecast now,
      (k₀.after run).energy.margin k₀.topology n telemetry forecast now =
        (k₀.after run').energy.margin k₀.topology n telemetry' forecast now

/-- A single switch connects at the start, when one node has drawn something. -/
def connectWith (dpid : Dpid) (m : NodeId) (draw : Float) : Occurrence :=
  ⟨Telemetry.empty.setPower m draw, .switchConnected dpid, .zero, .empty⟩

theorem view_connectWith (away : m ≠ n) (draw : Float) :
    view n [connectWith dpid m draw] = [⟨.switchConnected dpid, .zero, 0.0⟩] := by
  simp only [view, connectWith, Occurrence.sighting?, List.filterMap_cons, List.filterMap_nil]
  rw [Telemetry.powerOf_setPower, if_neg away]
  rfl

theorem sample?_connectWith (latest : k.topology.switchWith? dpid = some m) (draw : Float) :
    (k.after [connectWith dpid m draw]).energy.sample? dpid = some (.first draw .zero) := by
  rw [sample?_after latest]
  simp [view, connectWith, Occurrence.sighting?, Sighting.enter, Telemetry.powerOf_setPower]

theorem margin_connectWith {s : Switch} (known : k.topology.switch? n = some s)
    (latest : k.topology.switchWith? s.dpid = some m) (draw : Float) :
    (k.after [connectWith s.dpid m draw]).energy.margin k.topology n .empty
        (Forecast.empty.insertConstant s.name 0.0 0.0) (.ofSeconds 900) =
      .ok ((Sample.first draw .zero).realFlex k.energy.strategy 0.0 (0.0 + 0.0)
        (.ofSeconds 900)) := by
  rw [← strategy_after k [connectWith s.dpid m draw]]
  exact EnergyTracker.margin_of_sample known (sample?_connectWith latest draw)
    (Forecast.budget_insertConstant ..)

theorem realFlex_first_ne (strategy : PollStrategy) :
    (Sample.first 0.0 .zero).realFlex strategy 0.0 (0.0 + 0.0) (.ofSeconds 900) ≠
      (Sample.first 1.0 .zero).realFlex strategy 0.0 (0.0 + 0.0) (.ofSeconds 900) := by
  cases strategy <;> decide +kernel

/-- **The margin of a switch is its own affair exactly if it has kept its datapath id.** Take two
    runs in which the switch has drawn the same at every registration and every poll; they may
    differ in everything that other nodes report, and in the packets and the rules that end.
    Where no later switch took the id, both give the same margin. Where one did, some two such
    runs give different margins. -/
theorem ownMargin_iff {metric : Metric W} {settings : Settings} {t : Topology}
    {telemetry : Telemetry} {forecast : Forecast} {s : Switch}
    (started : start? metric settings t telemetry forecast = .ok k₀)
    (known : t.switch? n = some s) : k₀.OwnMargin n ↔
      ∀ m later, n < m → t.switch? m = some later → later.dpid ≠ s.dpid := by
  obtain ⟨rfl, _⟩ := inStep_start started
  rw [← Topology.dpid?_eq_iff_forall known]
  constructor
  · intro own
    obtain ⟨m, latest⟩ := Topology.exists_switchWith? known
    by_contra lost
    -- what `m` had drawn when it connected shows in the margin of `n`
    have away : m ≠ n := by
      rintro rfl
      exact lost (Topology.dpid?_of_switchWith? latest)
    have same := own [connectWith s.dpid m 0.0] [connectWith s.dpid m 1.0]
      ((view_connectWith away _).trans (view_connectWith away _).symm) .empty .empty rfl
      (Forecast.empty.insertConstant s.name 0.0 0.0) (.ofSeconds 900)
    rw [margin_connectWith known latest, margin_connectWith known latest] at same
    exact realFlex_first_ne _ (Except.ok.inj same)
  · intro kept run run' seen telemetry telemetry' live forecast now
    have latest := Topology.switchWith?_of_dpid? kept
    refine EnergyTracker.margin_congr known ?_ ?_ live
    · rw [strategy_after, strategy_after]
    · rw [sample?_after latest, sample?_after latest, seen]

/-! ### Two switches with one datapath id -/

def twins : Topology := (Topology.empty.addSwitch "a" 1).addSwitch "b" 1

def twinsStart : Controller HopCount where
  metric := Metric.hops
  settings := Settings.default
  topology := twins
  telemetry := .empty
  forecast := .empty
  energy := .empty Settings.default.pollStrategy
  table := .empty
  sent := #[]
  lastReport := none

/-- The switch that took the id has drawn something, and the other nothing. -/
def twinsDrawn (draw : Float) : Telemetry := Telemetry.empty.setPower 1 draw

/-- The switch that took the id connects and is polled. -/
def twinsRun (draw : Float) : List Occurrence :=
  [⟨twinsDrawn draw, .switchConnected 1, .zero, .empty⟩,
    ⟨twinsDrawn draw, .pollEnergy, .ofSeconds 900, .empty⟩]

/-- What is then left to the other one. -/
def twinsMargin (draw : Float) : Except Error Float :=
  (twinsStart.after (twinsRun draw)).energy.margin twins 0 (twinsDrawn draw)
    (Forecast.empty.insertConstant "a" 1.0 0.0) (.ofSeconds 1800)

theorem powerOf_twinsDrawn (draw : Float) : (twinsDrawn draw).powerOf 0 = 0.0 :=
  (Telemetry.powerOf_setPower ..).trans (if_neg (by decide))

theorem view_twinsRun (draw : Float) : view 0 (twinsRun draw) =
    [⟨.switchConnected 1, .zero, 0.0⟩, ⟨.pollEnergy, .ofSeconds 900, 0.0⟩] := by
  simp only [view, twinsRun, Occurrence.sighting?, powerOf_twinsDrawn, List.filterMap_cons,
    List.filterMap_nil]

theorem ownMargin_iff_twins :
    start? Metric.hops Settings.default twins .empty .empty = .ok twinsStart ∧
      twins.switch? 0 = some ⟨"a", 1⟩ ∧ ¬ twinsStart.OwnMargin 0 ∧
      twins.switch? 1 = some ⟨"b", 1⟩ ∧ twinsStart.OwnMargin 1 := by
  have started : start? Metric.hops Settings.default twins .empty .empty = .ok twinsStart := rfl
  refine ⟨started, rfl, ?_, rfl, ?_⟩
  · rw [ownMargin_iff started (s := ⟨"a", 1⟩) rfl]
    intro kept
    exact kept 1 ⟨"b", 1⟩ (by decide) rfl rfl
  · rw [ownMargin_iff started (s := ⟨"b", 1⟩) rfl]
    intro m later after known
    have inside : twins.contains m = true :=
      Topology.contains_of_isSwitch (Option.isSome_iff_exists.2 ⟨later, known⟩)
    have below : m < 2 := of_decide_eq_true inside
    exact absurd after (Nat.not_lt.2 (Nat.le_of_lt_succ below))

/-- The first of them has drawn nothing and is allowed 1 by the quarter of an hour, but what is
    left to it is 1 or 6, by what the second has drawn. -/
theorem not_ownMargin_twins :
    twins.Built ∧ start? Metric.hops Settings.default twins .empty .empty = .ok twinsStart ∧
      (twins.switch? 0).isSome ∧ view 0 (twinsRun 0.0) = view 0 (twinsRun 5.0) ∧
      (twinsDrawn 0.0).powerOf 0 = (twinsDrawn 5.0).powerOf 0 ∧
      twinsMargin 0.0 = .ok 1.0 ∧ twinsMargin 5.0 = .ok 6.0 ∧ ¬ twinsStart.OwnMargin 0 := by
  have seen : view 0 (twinsRun 0.0) = view 0 (twinsRun 5.0) :=
    (view_twinsRun _).trans (view_twinsRun _).symm
  have live : (twinsDrawn 0.0).powerOf 0 = (twinsDrawn 5.0).powerOf 0 :=
    (powerOf_twinsDrawn _).trans (powerOf_twinsDrawn _).symm
  have idle : twinsMargin 0.0 = .ok 1.0 := by decide +kernel
  have busy : twinsMargin 5.0 = .ok 6.0 := by decide +kernel
  refine ⟨(Topology.Built.empty.switch "a" 1).switch "b" 1, rfl, rfl, seen, live, idle, busy, ?_⟩
  intro own
  have same : twinsMargin 0.0 = twinsMargin 5.0 := own _ _ seen _ _ live _ _
  rw [idle, busy] at same
  exact absurd (Except.ok.inj same) (by decide +kernel)

end Controller

end PathControl
