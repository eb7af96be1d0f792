/-
  PathControl/Proofs/Controller/Periodic.lean
  ===========================================
  **Polls and passes neither drift, nor double, nor stop.**

  Where only the controller puts in polls and passes, each of them waits exactly once
  between two deliveries, and its deliveries are the multiples of its interval one
  after another (`OnTime`), whatever else is put in and whether or not it is refused.
  The handler puts in the next occurrence for an interval after the time at which the
  event was due, not after the latest of all events, which is why nothing drifts.
-/
import PathControl.Proofs.Controller.Ticks

namespace PathControl.Controller

variable {W : Type} {r r' : Run W} {k₀ : Controller W} {e event : Event} {interval time : Time}
  {n : Nat} {queue : EventQueue}

/-- When an event was delivered, first to last. -/
def Run.timesOf (r : Run W) (e : Event) : List Time :=
  (r.deliveries.reverse.filter (·.event = e)).map Delivery.time

/-- An event that has come `n` times before a run comes in the run at the multiples of an interval
    after the `n`-th, and waits once, for the multiple after these. -/
structure OnTime (r : Run W) (e : Event) (interval : Time) (n : Nat) : Prop where
  came : (r.timesOf e).map Time.nanos =
    (List.range' (n + 1) (r.timesOf e).length).map (· * interval.nanos)
  waits : ∃ due, r.queue.pending e = [due] ∧
    due.time.nanos = (n + (r.timesOf e).length + 1) * interval.nanos

theorem onTime_start {k : Controller W} {due : Due} (waits : queue.pending e = [due])
    (next : due.time.nanos = (n + 1) * interval.nanos) :
    OnTime { controller := k, queue } e interval n :=
  ⟨rfl, due, waits, next⟩

theorem OnTime.push (h : OnTime r e interval n) (time : Time) (other : event ≠ e) :
    OnTime { r with queue := r.queue.push time event } e interval n := by
  obtain ⟨due, waits, next⟩ := h.waits
  exact ⟨h.came, due, EventQueue.pending_push_ne other waits, next⟩

theorem OnTime.observe (h : OnTime r e interval n) (telemetry : Telemetry) :
    OnTime { r with controller := { r.controller with telemetry } } e interval n :=
  ⟨h.came, h.waits⟩

/-- The latest delivery of an event that has come in a run is its last multiple so far. -/
theorem OnTime.exists_last (h : OnTime r e interval n) (came : 0 < (r.timesOf e).length) :
    ∃ d ∈ r.deliveries, d.time.nanos = (n + (r.timesOf e).length) * interval.nanos := by
  have last : (n + (r.timesOf e).length) * interval.nanos ∈ (r.timesOf e).map Time.nanos := by
    rw [h.came]
    apply List.mem_map_of_mem
    rw [List.mem_range'_1]
    omega
  obtain ⟨time, htime, same⟩ := List.mem_map.1 last
  obtain ⟨d, hd, rfl⟩ := List.mem_map.1 htime
  exact ⟨d, List.mem_reverse.1 (List.mem_filter.1 hd).1, same⟩

/-- As long as an event comes back, there is a next event. -/
theorem OnTime.exists_pop (h : OnTime r e interval n) :
    ∃ time event queue, r.queue.pop = some ((time, event), queue) := by
  obtain ⟨due, waits, _⟩ := h.waits
  apply EventQueue.exists_pop
  rw [waits]
  exact List.mem_singleton_self _

variable [Weight W]

theorem Delivered.timesOf_self (delivered : Delivered r time e queue r') :
    r'.timesOf e = r.timesOf e ++ [time] := by
  obtain ⟨report, logged⟩ := delivered.logged
  simp [Run.timesOf, logged]

theorem Delivered.timesOf_other (delivered : Delivered r time event queue r')
    (other : event ≠ e) : r'.timesOf e = r.timesOf e := by
  obtain ⟨report, logged⟩ := delivered.logged
  simp [Run.timesOf, logged, other]

/-- **A delivery keeps the events that come back on time.** -/
theorem OnTime.deliver (h : OnTime r e interval n) (sound : r.queue.Sound)
    (comes : r.controller.settings.interval? e = some interval)
    (delivered : Delivered r time event queue r') (goesOn : r'.overflowed = false) :
    OnTime r' e interval n := by
  obtain ⟨turn, taken⟩ := sound.pop delivered.due
  obtain ⟨due, waits, next⟩ := h.waits
  by_cases self : event = e
  · -- the occurrence that waited comes, and the one after it waits
    subst self
    obtain ⟨rfl, due', waits', next', _⟩ := delivered.pending_self comes taken goesOn waits
    have times := delivered.timesOf_self
    constructor
    · rw [times, List.length_append, List.length_singleton, List.range'_concat, List.map_append,
        List.map_append, h.came]
      have last : time.nanos = (n + 1 + 1 * (r.timesOf event).length) * interval.nanos := by
        rw [next]
        congr 1
        omega
      rw [List.map_singleton, List.map_singleton, last]
    · refine ⟨due', waits', ?_⟩
      rw [times, List.length_append, List.length_singleton, next', next]
      exact (Nat.succ_mul ..).symm
  · have times := delivered.timesOf_other self
    constructor
    · rw [times]
      exact h.came
    · refine ⟨due, delivered.pending_other taken self waits, ?_⟩
      rw [times]
      exact next

/-- Where an event that comes back is not put in from outside, it comes on time. -/
theorem Loop.onTime {pushed : List Event} (loop : Loop k₀ r pushed)
    (start : ∀ queue, k₀.schedulePeriodic .empty = (queue, true) →
      OnTime { controller := k₀, queue } e interval 0)
    (comes : k₀.settings.interval? e = some interval) (outside : ∀ x ∈ pushed, x ≠ e)
    (running : r.overflowed = false) : OnTime r e interval 0 := by
  induction loop with
  | start put => exact start _ put
  | push before time event ih =>
    have earlier := ih (fun x hx => outside x (List.mem_cons_of_mem _ hx)) running
    exact earlier.push time (outside event List.mem_cons_self)
  | observe before telemetry ih => exact (ih outside running).observe telemetry
  | deliver before next ih =>
    obtain ⟨time, event, queue, _, delivered⟩ := delivered_of_next next
    have settings := settings_eq_of_given before.watched.given
    apply (ih outside delivered.running).deliver before.watched.sound _ delivered running
    rw [settings]
    exact comes

/-- **Polls and passes come on time** in every run, if only the controller puts them in. -/
theorem Loop.periodic_onTime {pushed : List Event} (loop : Loop k₀ r pushed)
    (outside : ∀ e ∈ pushed, ¬ e.Periodic) (running : r.overflowed = false) :
    OnTime r .pollEnergy k₀.settings.pollTime 0 ∧
      OnTime r .rebalance k₀.settings.rebalanceTime 0 := by
  constructor
  · apply loop.onTime _ rfl _ running
    · intro queue put
      obtain ⟨_, _, polls, _, _⟩ := ticks_start put
      exact onTime_start polls.waits polls.next
    · rintro e he rfl
      exact outside _ he (Or.inl rfl)
  · apply loop.onTime _ rfl _ running
    · intro queue put
      obtain ⟨_, _, _, passes, _⟩ := ticks_start put
      exact onTime_start passes.waits passes.next
    · rintro e he rfl
      exact outside _ he (Or.inr rfl)

end PathControl.Controller
