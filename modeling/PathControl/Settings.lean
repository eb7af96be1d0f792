/-
  PathControl/Settings.lean
  =========================
  **The settings of a controller.**

  Every setting has a default. A controller only starts with settings that pass
  `check`: both intervals and the idle timeout are positive, and the highest
  priority of a flow fits into sixteen bits.
-/
import PathControl.Energy

namespace PathControl

/-- The settings of a controller; times are in seconds. -/
structure Settings where
  pollInterval : UInt64 := 10
  rebalanceInterval : UInt64 := 180
  pollStrategy : PollStrategy := .perFlowRead
  idleTimeout : UInt16 := 60
  priorities : PriorityScheme := {}
deriving DecidableEq

namespace Settings

def default : Settings := {}

def pollTime (s : Settings) : Time := .ofSeconds s.pollInterval

def rebalanceTime (s : Settings) : Time := .ofSeconds s.rebalanceInterval

/-- Set the time between two polls; only full seconds count. -/
def setPollTime (s : Settings) (t : Time) : Settings := { s with pollInterval := t.wholeSeconds }

/-- Set the time between two rebalance passes; only full seconds count. -/
def setRebalanceTime (s : Settings) (t : Time) : Settings :=
  { s with rebalanceInterval := t.wholeSeconds }

/-- The first setting that no controller can run with. -/
def badSetting? (s : Settings) : Option BadSetting :=
  if s.pollInterval = 0 ∨ s.rebalanceInterval = 0 then some .intervalZero
  else if s.idleTimeout = 0 then some .idleTimeoutZero
  else if 65535 < s.priorities.base.toNat + 2 * s.priorities.step.toNat then some .priorityRange
  else none

def check (s : Settings) : Except Error Unit :=
  match s.badSetting? with
  | none => .ok ()
  | some cause => .error (.badSetting cause)

end Settings

end PathControl
