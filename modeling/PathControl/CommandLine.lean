/-
  PathControl/CommandLine.lean
  ============================
  **What the program does for a command line.**

  The settings are read first, then the ring is checked and built, then the forecast is
  read, then the simulation is run. The first of these that fails ends the program with
  an error. The draws come from any source; only the program itself chooses the
  generator of the standard library.
-/
import PathControl.Settings.Document
import PathControl.Simulation
import PathControl.Simulation.Options

namespace PathControl

inductive ExitCode where
  | success
  /-- Something that the command line names cannot be used. -/
  | failure
  /-- The command line cannot be understood. -/
  | usage
  /-- The clock cannot show a time. -/
  | overflow
deriving DecidableEq

def ExitCode.number : ExitCode → UInt8
  | success => 0
  | failure => 1
  | usage => 2
  | overflow => 101

/-- What the program writes, how it ends, and why it failed if it did. -/
structure ProgramResult where
  exitCode : ExitCode
  lines : List String := []
  failure : Option SimulationError := none

/-- The end of a program that ran a simulation, or could not. -/
def ProgramResult.ofSimulation : Except SimulationError (Option (List String)) → ProgramResult
  | .ok (some lines) => { exitCode := .success, lines }
  | .ok none => { exitCode := .overflow }
  | .error e => { exitCode := .failure, failure := some e }

namespace SimulationOptions

/-- The settings of the controller, by default those of a controller that was told nothing. -/
def readSettings (o : SimulationOptions) (read : String → Option String) :
    Except SimulationError Settings :=
  match o.config with
  | some file => (Settings.load (read file)).mapError (.settingsUnreadable file)
  | none => .ok .default

/-- The forecast, by default the same for every switch. -/
def readForecast (o : SimulationOptions) (read : String → Option String) (t : Topology) :
    Except SimulationError Forecast :=
  match o.estimate, o.flex with
  | some estimate, some flex =>
    (Forecast.load (read estimate) (read flex)).mapError .forecastUnreadable
  | _, _ => .ok (evenForecast t)

/-- Run a simulation, and sum it up. -/
def simulate {W : Type} [Weight W] (metric : Metric W) (p : SimulationPlan) (d : SimulationDraws) :
    Except SimulationError (Option (List String)) := do
  return (← Simulation.run metric p d).map Simulation.summary

def simulateNamed (o : SimulationOptions) :
    SimulationPlan → SimulationDraws → Except SimulationError (Option (List String)) :=
  match o.metric with
  | .hops => simulate .hops
  | .cpu => simulate .cpu
  | .bandwidth => simulate .bandwidth
  | .flex => simulate .flex

variable {G : Type} [RandomSource G]

/-- Run the simulation that the options describe, with draws from a source that starts from the
    seed. -/
def runWith (o : SimulationOptions) (seeded : UInt64 → G) (read : String → Option String) :
    Except SimulationError (Option (List String)) := do
  let settings ← o.readSettings read
  let (ring, source) := (randomRing o.switches o.chords).run (seeded o.seed)
  let topology ← ring
  let forecast ← o.readForecast read topology
  let plan : SimulationPlan := {
    topology, settings, forecast
    flows := o.flows.toNat
    hot := o.hot.toNat
    duration := o.duration }
  o.simulateNamed plan (plan.draw.run source).1

end SimulationOptions

/-- What the program does for a request, with draws from a source, reading files with `read`. -/
def CommandRequest.executeWith {G : Type} [RandomSource G] (r : CommandRequest)
    (seeded : UInt64 → G) (read : String → Option String) : ProgramResult :=
  match r with
  | .run options => .ofSimulation (options.runWith seeded read)
  | .help => { exitCode := .success, lines := helpText }
  | .version => { exitCode := .success, lines := [versionText] }
  | .refused => { exitCode := .usage }

/-! ### Draws from the standard generator -/

def drawNumber (low high : Nat) : StateM StdGen Nat := fun g =>
  randNat g low (max low (high - 1))

def drawSample {α : Type} : Nat → List α → StateM StdGen (List α)
  | 0, _ => return []
  | _, [] => return []
  | n + 1, items => do
    let i ← drawNumber 0 items.length
    return items[i]?.toList ++ (← drawSample n (items.eraseIdx i))

instance : RandomSource StdGen where
  number low high := return UInt64.ofNat (← drawNumber low.toNat high.toNat)
  item items := return items[← drawNumber 0 items.length]?
  sample := drawSample

/-- What the program does for a request, reading files with `read`. -/
def CommandRequest.execute (r : CommandRequest) (read : String → Option String) : ProgramResult :=
  r.executeWith (fun seed => mkStdGen seed.toNat) read

end PathControl
