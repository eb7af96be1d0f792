/-
  PathControl/Simulation/Ring.lean
  ================================
  **The network of a simulation, drawn from a source of random draws.**

  Switches stand in a ring, some of them joined across it by random chords, and every
  switch has one host. A chord joins two different switches that are not joined yet.

  Where the draws come from is left open: a `RandomSource` is anything that gives them,
  one after another.
-/
import PathControl.Error
import PathControl.Topology

namespace PathControl

/-! ### Random draws -/

/-- A source of random draws. A draw has a result, and leaves the source for the next one. -/
class RandomSource (G : Type) where
  /-- A number from `low` on, below `high`. -/
  number (low high : UInt64) : StateM G UInt64
  /-- One item of a list, or `none` if the list is empty. -/
  item {α : Type} (items : List α) : StateM G (Option α)
  /-- Items from different places of a list, or all if there are not so many. -/
  sample {α : Type} (count : Nat) (items : List α) : StateM G (List α)

/-! ### Refusals -/

/-- Why a simulation is not run. -/
inductive SimulationError where
  | settingsUnreadable (file : String) (cause : Error)
  | forecastUnreadable (cause : Error)
  | ringSize (switches : UInt8)
  | ringEmpty
  /-- There can be no controller with the settings. -/
  | badController (cause : Error)
  /-- A later switch took the datapath id of a switch. -/
  | switchUnnamed
  | hostsMissing
  | hostUnaddressed
  /-- A host has no link. -/
  | hostUnlinked
  /-- The first link of a host does not lead to a switch with a datapath id. -/
  | hostUnattached
  | linkMissing
deriving DecidableEq

def fewestSwitches : Nat := 3

/-- The most switches of a ring, so that every host gets an address of its own. -/
def mostSwitches : Nat := 254

namespace SimulationError

def message : SimulationError → String
  | settingsUnreadable file _ => s!"Loading the configuration from {file}"
  | forecastUnreadable _ => "Loading the forecast"
  | ringSize n =>
    s!"The ring needs between {decimal fewestSwitches} and {decimal mostSwitches} switches, " ++
      s!"not {decimal n.toNat}"
  | ringEmpty => "empty ring"
  | badController e => e.message
  | switchUnnamed => "switch without datapath id"
  | hostsMissing => "Need at least two hosts"
  | hostUnaddressed => "Hosts without an IP address"
  | hostUnlinked => "host without a switch"
  | hostUnattached => "host not attached to a switch"
  | linkMissing => "missing link"

/-- What an option holds, or the error if it holds nothing. -/
def ifNone {α : Type} (e : SimulationError) : Option α → Except SimulationError α
  | some a => .ok a
  | none => .error e

end SimulationError

/-! ### The ring -/

/-- A ring of switches, numbered from 0, whose datapath ids are numbered from 1. -/
def ringOfSwitches (n : Nat) : Topology :=
  let switches := (List.range n).foldl
    (fun t i => t.addSwitch s!"s{decimal i}" (UInt64.ofNat (i + 1))) Topology.empty
  (List.range n).foldl (fun t i => t.addLink i ((i + 1) % n)) switches

variable {G : Type} [RandomSource G]

/-- Add chords between random switches until none is missing, in a limited number of attempts. -/
def addChords (switches : List NodeId) :
    Nat → Nat → Topology → StateM G (Except SimulationError Topology)
  | 0, _, t => return .ok t
  | _ + 1, 0, t => return .ok t
  | attempts + 1, missing + 1, t => do
    let some a ← RandomSource.item switches | return .error .ringEmpty
    let some b ← RandomSource.item switches | return .error .ringEmpty
    if a ≠ b ∧ t.linked a b = false then
      addChords switches attempts missing (t.addLink a b)
    else
      addChords switches attempts (missing + 1) t

def addHosts (n : Nat) (t : Topology) : Topology :=
  (List.range n).foldl (fun t i =>
    let host := t.size
    let ip := Ipv4Address.ofOctets 10 0 0 (UInt8.ofNat (i + 1))
    (t.addHost s!"h{decimal i}" (some ip) (.ofWord (UInt64.ofNat (i + 1)))).addLink host i) t

/-- A ring with chords and hosts. Ten attempts are made for each chord. -/
def randomRing (n : UInt8) (chords : UInt64) : StateM G (Except SimulationError Topology) := do
  if n.toNat < fewestSwitches ∨ mostSwitches < n.toNat then return .error (.ringSize n)
  let switches := List.range n.toNat
  let t ← addChords switches (chords * 10).toNat chords.toNat (ringOfSwitches n.toNat)
  return t.map (addHosts n.toNat)

end PathControl
