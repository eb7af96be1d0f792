/-
  PathControl/Energy.lean
  =======================
  **What switches draw, and what is left of their budgets.**

  Polling a switch gives its total draw at that instant. The sample of a switch keeps
  the last two polls of different instants. Its margin is the share of its budget for
  the time since the last poll, less what it drew since; a negative margin violates
  the budget.

  Which span is measured depends on the strategy. A per-flow reading that comes at
  the very instant of the last poll looks at the span between the last two polls
  instead; without such a span it grants a fifth of the bucket.
-/
import PathControl.Forecast
import PathControl.Telemetry
import PathControl.Topology

namespace PathControl

/-! ### Strategies -/

/-- How two readings make up a consumption. -/
inductive PollStrategy where
  /-- Since the last poll, always. -/
  | forecastNormalized
  /-- Between the last two polls, if the last one was just now. -/
  | perFlowRead
deriving DecidableEq

namespace PollStrategy

def name : PollStrategy → String
  | forecastNormalized => "forecast_normalized"
  | perFlowRead => "per_flow_read"

def ofName? (text : String) : Option PollStrategy :=
  [forecastNormalized, perFlowRead].find? fun s => s.name == text

instance : Inhabited PollStrategy := ⟨perFlowRead⟩

end PollStrategy

/-! ### Samples -/

/-- The last two polls of a switch. -/
structure Sample where
  /-- The total draw at the last poll. -/
  current : Float
  /-- The total draw at the poll before. -/
  last : Float
  /-- The instant of the last poll. -/
  time : Time
  /-- The instant of the poll before. -/
  previous : Time

namespace Sample

/-- The sample of a switch that has been polled once. -/
def first (draw : Float) (now : Time) : Sample := ⟨draw, draw, now, now⟩

/-- Enter a poll. A second poll at one instant replaces the first. -/
def refresh (s : Sample) (draw : Float) (now : Time) : Sample :=
  if now = s.time then { s with current := draw }
  else { current := draw, last := s.current, time := now, previous := s.time }

/-- What is left of a bucket's budget at `now`, when the total draw has come to `live`. -/
def realFlex (s : Sample) (strategy : PollStrategy) (live budget : Float) (now : Time) : Float :=
  let elapsed := now.since s.time
  if strategy = .perFlowRead && elapsed.isZero then
    let window := s.time.since s.previous
    if window.isZero then budget / 5.0 - (s.current - s.last)
    else budget * window.share - (s.current - s.last)
  else budget * elapsed.share - (live - s.current)

end Sample

/-! ### All switches -/

structure EnergyTracker where
  strategy : PollStrategy := .perFlowRead
  samples : Std.TreeMap Dpid Sample := ∅

namespace EnergyTracker

def empty (strategy : PollStrategy) : EnergyTracker := { strategy }

def sample? (e : EnergyTracker) (dpid : Dpid) : Option Sample := e.samples[dpid]?

def isRegistered (e : EnergyTracker) (dpid : Dpid) : Bool := (e.sample? dpid).isSome

/-- The sample of a switch that has to have one. -/
def sampleOf (e : EnergyTracker) (dpid : Dpid) : Except Error Sample :=
  match e.sample? dpid with
  | some s => .ok s
  | none => .error (.noSample dpid)

/-- Poll a switch for the first time, or start again with it. -/
def register (e : EnergyTracker) (dpid : Dpid) (draw : Float) (now : Time) : EnergyTracker :=
  { e with samples := e.samples.insert dpid (.first draw now) }

def refresh (e : EnergyTracker) (dpid : Dpid) (draw : Float) (now : Time) :
    Except Error EnergyTracker := do
  let s ← e.sampleOf dpid
  return { e with samples := e.samples.insert dpid (s.refresh draw now) }

def clear (e : EnergyTracker) : EnergyTracker := { e with samples := ∅ }

/-- Poll every switch of the network that has connected. -/
def refreshAll (e : EnergyTracker) (t : Topology) (telemetry : Telemetry) (now : Time) :
    EnergyTracker :=
  t.reachable.foldl (fun e (n, dpid) =>
    match e.refresh dpid (telemetry.powerOf n) now with
    | .ok e => e
    | .error _ => e) e

/-- The switches of the network that a poll passes over because they have not connected. -/
def unregistered (e : EnergyTracker) (t : Topology) : List NodeId :=
  (t.reachable.filter fun (_, dpid) => !e.isRegistered dpid).map Prod.fst

/-- What is left of a bucket's budget to a switch. -/
def realFlex (e : EnergyTracker) (dpid : Dpid) (live budget : Float) (now : Time) :
    Except Error Float := do
  let s ← e.sampleOf dpid
  return s.realFlex e.strategy live budget now

/-- The margin of a switch: what is left of its budget in the bucket of `now`. -/
def margin (e : EnergyTracker) (t : Topology) (n : NodeId) (telemetry : Telemetry)
    (forecast : Forecast) (now : Time) : Except Error Float :=
  match t.switch? n with
  | none => .error (.unknownNode n)
  | some s => do
    let sample ← e.sampleOf s.dpid
    let budget ← forecast.budget s.name now.bucket
    return sample.realFlex e.strategy (telemetry.powerOf n) budget now

end EnergyTracker

end PathControl
