/-
  PathControl/Controller/Run.lean
  ===============================
  **Delivering events up to a time.**

  A run takes one event after another out of the queue and gives it to the controller
  at its time, until the next event is later than a limit. Handling a periodic event
  puts in its next occurrence, so a run may deliver more events than wait at first.
  As every interval is a second or more, an event that waits stands for at most one
  delivery at each second up to the limit; `deliveryBound` counts these, and a run
  makes no more steps than that.
-/
import PathControl.Controller

namespace PathControl.Controller

variable {W : Type} [Weight W]

/-- An event that was delivered, and how handling it ended. -/
structure Delivery where
  time : Time
  event : Event
  outcome : Outcome
  /-- The report of the pass, if the event was one. -/
  report : Option RebalanceReport

/-- A controller with its queue, what was delivered, and what was told, both latest first. -/
structure Run (W : Type) where
  controller : Controller W
  queue : EventQueue
  deliveries : List Delivery := []
  notices : List Notice := []
  /-- Whether the run stopped because the clock cannot show the next occurrence of an event. -/
  overflowed : Bool := false

namespace Run

/-- Deliver the next event, if it is not later than the limit. -/
def next? (r : Run W) (limit : Time) : Option (Run W) :=
  if r.overflowed then none
  else
    (r.queue.popUntil limit).map fun ((time, event), queue) =>
      let h := r.controller.handle event time queue
      let report := if event = .rebalance then h.controller.lastReport else none
      { controller := h.controller
        queue := h.queue
        deliveries := { time, event, outcome := h.outcome, report } :: r.deliveries
        notices := h.notices.reverse ++ r.notices
        overflowed := match h.outcome with
          | .clockOverflow => true
          | _ => false }

/-- Deliver events up to the limit, at most a number of them. -/
def advance (limit : Time) : Nat → Run W → Run W
  | 0, r => r
  | steps + 1, r =>
    match r.next? limit with
    | none => r
    | some r => advance limit steps r

end Run

/-- How many deliveries the waiting events can come to up to a limit. -/
def deliveryBound (queue : EventQueue) (limit : Time) : Nat := queue.size * (limit.seconds + 2)

/-- Deliver every event that is not later than the limit. -/
def runUntil (k : Controller W) (queue : EventQueue) (limit : Time) : Run W :=
  Run.advance limit (deliveryBound queue limit) { controller := k, queue }

end PathControl.Controller
