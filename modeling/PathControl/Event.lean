/-
  PathControl/Event.lean
  ======================
  **What a controller is told, and when.**

  An event waits for its time; events of one time wait in the order in which they
  were put in. Taking an event out moves the clock of the queue to its time, and an
  event for an earlier time than the clock's is put in for the time of the clock, so
  that the clock never goes back.
-/
import PathControl.Flow.Header
import PathControl.MinQueue
import PathControl.Time
import PathControl.Topology.Node

namespace PathControl

/-! ### Events -/

/-- Why a switch removed the rule of a flow. -/
inductive RemovalReason where
  /-- No packet came for the idle timeout. -/
  | idleTimeout
  /-- The rule reached the end of its life. -/
  | hardTimeout
  | delete
  | groupDelete
  | meterDelete
deriving DecidableEq

def RemovalReason.text : RemovalReason → String
  | idleTimeout => "IdleTimeout"
  | hardTimeout => "HardTimeout"
  | delete => "Delete"
  | groupDelete => "GroupDelete"
  | meterDelete => "MeterDelete"

/-- Something that a controller reacts to. -/
inductive Event where
  | switchConnected (dpid : Dpid)
  /-- A switch has no rule for a packet that arrived on a port. -/
  | packetIn (dpid : Dpid) (header : Header) (inPort : UInt32)
  | flowRemoved (dpid : Dpid) (header : Header) (reason : RemovalReason)
  /-- It is time to poll the switches. -/
  | pollEnergy
  /-- It is time to reroute flows around violating switches. -/
  | rebalance
deriving DecidableEq

/-! ### Waiting for their times -/

/-- When an event is due: its time, and its turn among all events put in. -/
structure Due where
  time : Time
  turn : Nat
deriving DecidableEq

/-- The earlier time first, then the earlier turn. -/
instance : Ord Due where
  compare a b := (compare a.time b.time).then (compare a.turn b.turn)

/-- The waiting events, how many have been put in so far, and the clock. -/
structure EventQueue where
  waiting : MinQueue Due Event := {}
  turns : Nat := 0
  now : Time := Time.zero

namespace EventQueue

def empty : EventQueue := {}

def size (q : EventQueue) : Nat := q.waiting.size

def isEmpty (q : EventQueue) : Bool := q.waiting.isEmpty

/-- Put in an event for a time, or for now if that has passed. -/
def push (q : EventQueue) (time : Time) (event : Event) : EventQueue :=
  { q with
    waiting := q.waiting.push ⟨Time.later time q.now, q.turns⟩ event
    turns := q.turns + 1 }

/-- Put in an event for some time after now; `none` if the clock cannot show that time. -/
def schedule (q : EventQueue) (delay : Time) (event : Event) : Option EventQueue :=
  (q.now.add? delay).map fun time => q.push time event

/-- Put in events for some time after now, up to the first whose time the clock cannot show. The
    second part says whether all were put in. -/
def scheduleAll (q : EventQueue) : List (Time × Event) → EventQueue × Bool
  | [] => (q, true)
  | (delay, event) :: rest =>
    match q.schedule delay event with
    | some q => q.scheduleAll rest
    | none => (q, false)

def nextTime? (q : EventQueue) : Option Time := q.waiting.first?.map (·.score.time)

/-- Take out the next event and move the clock to its time. -/
def pop (q : EventQueue) : Option ((Time × Event) × EventQueue) :=
  q.waiting.pop.map fun (entry, rest) =>
    ((entry.score.time, entry.label), { q with waiting := rest, now := entry.score.time })

/-- Take out the next event if its time is not after `limit`. -/
def popUntil (q : EventQueue) (limit : Time) : Option ((Time × Event) × EventQueue) :=
  match q.nextTime? with
  | some time => if time ≤ limit then q.pop else none
  | none => none

end EventQueue

end PathControl
