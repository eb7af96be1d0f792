/-
  PathControl/Proofs/Energy.lean
  ==============================
  **Samples after polls.**

  Polling all switches polls each one that has connected exactly once, so the sample
  of a switch that rules can be sent to is its old one, refreshed with what the switch
  draws (`sample?_refreshAll`). The span that a margin is measured over is the
  `window` of the sample (`realFlex_of_window`).
-/
import PathControl.Energy
import PathControl.Proofs.Time
import PathControl.Proofs.Topology

namespace PathControl

namespace Sample

variable {s : Sample} {draw live budget : Float} {now : Time} {strategy : PollStrategy}

@[simp] theorem refresh_time (s : Sample) (draw : Float) (now : Time) :
    (s.refresh draw now).time = now := by
  simp only [refresh]
  split
  · next same => exact same.symm
  · rfl

theorem refresh_previous (s : Sample) (draw : Float) (now : Time) :
    (s.refresh draw now).previous = if now = s.time then s.previous else s.time := by
  simp only [refresh]
  split <;> rfl

theorem refresh_refresh (s : Sample) (draw : Float) (now : Time) :
    (s.refresh draw now).refresh draw now = s.refresh draw now := by
  have again : (s.refresh draw now).refresh draw now =
      { s.refresh draw now with current := draw } := if_pos (refresh_time s draw now).symm
  rw [again]
  simp only [refresh]
  split <;> rfl

/-- The span that a margin at `now` is measured over. -/
def window (s : Sample) (strategy : PollStrategy) (now : Time) : Time :=
  if strategy = .perFlowRead && (now.since s.time).isZero then s.time.since s.previous
  else now.since s.time

/-- What a switch drew in that span, when its total draw has come to `live`. -/
def drawn (s : Sample) (strategy : PollStrategy) (live : Float) (now : Time) : Float :=
  if strategy = .perFlowRead && (now.since s.time).isZero then s.current - s.last
  else live - s.current

/-- A margin is the share of the budget for the span, less what was drawn in it. -/
theorem realFlex_of_window (h : (s.window strategy now).isZero = false) :
    s.realFlex strategy live budget now =
      budget * (s.window strategy now).share - s.drawn strategy live now := by
  simp only [window] at h
  simp only [realFlex, window, drawn]
  split
  · next polled =>
    rw [if_pos polled] at h
    rw [h]
    rfl
  · rfl

theorem window_of_lt (h : s.time < now) : (s.window strategy now).isZero = false := by
  have elapsed := Time.isZero_since h
  simp only [window]
  rw [elapsed, Bool.and_false]
  exact elapsed

theorem window_of_previous_lt (h : s.previous < s.time) :
    (s.window .perFlowRead now).isZero = false := by
  simp only [window]
  split
  · exact Time.isZero_since h
  · next later => simpa using later

end Sample

namespace EnergyTracker

variable {e : EnergyTracker} {t : Topology} {telemetry : Telemetry} {now : Time} {n : NodeId}
  {dpid : Dpid}

theorem sample?_insert (e : EnergyTracker) (dpid d : Dpid) (s : Sample) :
    { e with samples := e.samples.insert dpid s }.sample? d =
      if dpid = d then some s else e.sample? d := by
  simp only [sample?]
  rw [Std.TreeMap.getElem?_insert]
  simp only [Std.LawfulEqCmp.compare_eq_iff_eq]

theorem sample?_register (e : EnergyTracker) (dpid d : Dpid) (draw : Float) (now : Time) :
    (e.register dpid draw now).sample? d =
      if dpid = d then some (.first draw now) else e.sample? d :=
  e.sample?_insert dpid d _

/-! ### Refreshing one switch -/

variable {draw : Float}

theorem refresh_of_none (h : e.sample? dpid = none) :
    e.refresh dpid draw now = .error (.noSample dpid) := by
  simp only [refresh, sampleOf]
  rw [h]
  rfl

theorem refresh_of_some {s : Sample} (h : e.sample? dpid = some s) :
    e.refresh dpid draw now =
      .ok { e with samples := e.samples.insert dpid (s.refresh draw now) } := by
  simp only [refresh, sampleOf]
  rw [h]
  rfl

/-- Only a switch without a sample cannot be refreshed. -/
theorem refresh_eq_error_iff {error : Error} : e.refresh dpid draw now = .error error ↔
    e.sample? dpid = none ∧ error = .noSample dpid := by
  cases known : e.sample? dpid with
  | none =>
    rw [refresh_of_none known, Except.error.injEq, and_iff_right rfl]
    exact eq_comm
  | some s =>
    rw [refresh_of_some known]
    simp

/-- Refresh the sample of a switch, if it has one. -/
def refreshed (e : EnergyTracker) (dpid : Dpid) (draw : Float) (now : Time) : EnergyTracker :=
  match e.refresh dpid draw now with
  | .ok e => e
  | .error _ => e

theorem refreshed_of_none (h : e.sample? dpid = none) : e.refreshed dpid draw now = e := by
  simp only [refreshed]
  rw [refresh_of_none h]

theorem refreshed_of_some {s : Sample} (h : e.sample? dpid = some s) :
    e.refreshed dpid draw now =
      { e with samples := e.samples.insert dpid (s.refresh draw now) } := by
  simp only [refreshed]
  rw [refresh_of_some h]

theorem sample?_refreshed (e : EnergyTracker) (dpid d : Dpid) (draw : Float) (now : Time) :
    (e.refreshed dpid draw now).sample? d =
      if dpid = d then (e.sample? d).map (·.refresh draw now) else e.sample? d := by
  cases known : e.sample? dpid with
  | none =>
    rw [refreshed_of_none known]
    split
    · next same =>
      rw [← same, known]
      rfl
    · rfl
  | some s =>
    rw [refreshed_of_some known, sample?_insert]
    split
    · next same =>
      rw [← same, known]
      rfl
    · rfl

/-! ### Polling all switches -/

/-- Poll one switch, if it has connected. -/
def poll (e : EnergyTracker) (telemetry : Telemetry) (now : Time) (switch : NodeId × Dpid) :
    EnergyTracker :=
  match e.refresh switch.2 (telemetry.powerOf switch.1) now with
  | .ok e => e
  | .error _ => e

theorem refreshAll_eq (e : EnergyTracker) (t : Topology) (telemetry : Telemetry) (now : Time) :
    e.refreshAll t telemetry now = t.reachable.foldl (fun e x => e.poll telemetry now x) e := rfl

theorem poll_eq (switch : NodeId × Dpid) : e.poll telemetry now switch =
    e.refreshed switch.2 (telemetry.powerOf switch.1) now := rfl

@[simp] theorem poll_strategy (switch : NodeId × Dpid) :
    (e.poll telemetry now switch).strategy = e.strategy := by
  rw [poll_eq]
  cases known : e.sample? switch.2 with
  | none => rw [refreshed_of_none known]
  | some s => rw [refreshed_of_some known]

theorem strategy_foldl_poll (switches : List (NodeId × Dpid)) :
    (switches.foldl (fun e x => e.poll telemetry now x) e).strategy = e.strategy := by
  induction switches generalizing e with
  | nil => rfl
  | cons x rest ih => exact ih.trans (poll_strategy x)

@[simp] theorem strategy_refreshAll : (e.refreshAll t telemetry now).strategy = e.strategy :=
  strategy_foldl_poll t.reachable

/-- A switch that stands in a list several times is polled as if it stood there once. -/
theorem sample?_foldl_poll {switches : List (NodeId × Dpid)} {n : NodeId} {d : Dpid}
    (named : ∀ x ∈ switches, x.2 = d → x.1 = n) :
    (switches.foldl (fun e x => e.poll telemetry now x) e).sample? d =
      if d ∈ switches.map Prod.snd then (e.sample? d).map (·.refresh (telemetry.powerOf n) now)
      else e.sample? d := by
  induction switches generalizing e with
  | nil => rfl
  | cons x rest ih =>
    rw [List.foldl_cons, ih fun y hy => named y (List.mem_cons_of_mem _ hy), poll_eq,
      sample?_refreshed]
    by_cases same : x.2 = d
    · have listed : d ∈ (x :: rest).map Prod.snd := List.mem_map.2 ⟨x, List.mem_cons_self, same⟩
      rw [if_pos listed, if_pos same, named x List.mem_cons_self same]
      split
      · rw [Option.map_map]
        congr 1
        funext s
        exact s.refresh_refresh _ now
      · rfl
    · rw [if_neg same]
      simp only [List.map_cons, List.mem_cons, Ne.symm same, false_or]

theorem mem_reachable_iff : (n, dpid) ∈ t.reachable ↔ t.switchWith? dpid = some n := by
  simp only [Topology.reachable, List.mem_filterMap, Option.map_eq_some_iff, Prod.mk.injEq]
  constructor
  · rintro ⟨m, _, d, named, rfl, rfl⟩
    exact Topology.switchWith?_of_dpid? named
  · intro latest
    have named := Topology.dpid?_of_switchWith? latest
    obtain ⟨s, known, _⟩ := Topology.switch?_of_dpid? named
    exact ⟨n, Topology.mem_switches_iff.2 (Option.isSome_iff_exists.2 ⟨s, known⟩), dpid, named,
      rfl, rfl⟩

/-- **A poll refreshes the sample of a switch once**, with what the switch draws. -/
theorem sample?_refreshAll (latest : t.switchWith? dpid = some n) :
    (e.refreshAll t telemetry now).sample? dpid =
      (e.sample? dpid).map (·.refresh (telemetry.powerOf n) now) := by
  have listed : (n, dpid) ∈ t.reachable := mem_reachable_iff.2 latest
  have named : ∀ x ∈ t.reachable, x.2 = dpid → x.1 = n := by
    rintro ⟨m, d⟩ hx rfl
    exact Option.some.inj ((mem_reachable_iff.1 hx).symm.trans latest)
  rw [refreshAll_eq, sample?_foldl_poll named,
    if_pos (List.mem_map.2 ⟨(n, dpid), listed, rfl⟩)]

/-! ### Margins -/

/-- Of all samples a margin reads the one under the id that its switch was added with. -/
theorem margin_congr {e' : EnergyTracker} {telemetry' : Telemetry} {forecast : Forecast}
    {s : Switch} (known : t.switch? n = some s) (strategy : e.strategy = e'.strategy)
    (sample : e.sample? s.dpid = e'.sample? s.dpid)
    (live : telemetry.powerOf n = telemetry'.powerOf n) :
    e.margin t n telemetry forecast now = e'.margin t n telemetry' forecast now := by
  simp only [margin, sampleOf]
  rw [known, strategy, live]
  dsimp only
  rw [sample]

theorem margin_of_sample {forecast : Forecast} {s : Switch} {sample : Sample} {budget : Float}
    (known : t.switch? n = some s) (polled : e.sample? s.dpid = some sample)
    (allowed : forecast.budget s.name now.bucket = .ok budget) :
    e.margin t n telemetry forecast now =
      .ok (sample.realFlex e.strategy (telemetry.powerOf n) budget now) := by
  simp only [margin, sampleOf]
  rw [known]
  dsimp only
  rw [polled, allowed]
  rfl

end EnergyTracker

end PathControl
