/-
  PathControl/Proofs/Controller/RunUntil.lean
  ===========================================
  **A run up to a time delivers everything that is due by then.**

  A run makes at most `deliveryBound` steps. That is enough: up to a limit, an event
  that waits can come once at its time and once at each full second after it, as what
  comes back comes back after a second or more. The sum of these numbers over all
  events that wait falls with every delivery (`Delivered.slots_lt`), from every state
  of the controller and the queue (`endsAfter_runUntil`). So when the run ends, an
  event that comes back has come as often as its interval fits into the time of the
  limit (`Paced.runUntil`).
-/
import PathControl.Proofs.Controller.Periodic
import PathControl.Proofs.Result
import Mathlib.Algebra.Order.BigOperators.Group.List
import Mathlib.Algebra.Order.Group.Nat
import Mathlib.Algebra.Order.Ring.Nat

namespace PathControl

variable {q q' : EventQueue} {time limit : Time} {event : Event}

/-! ### What can still come -/

/-- How often an event can come up to a limit if it comes at a time and then after a second or
    more. -/
def Time.slots (time limit : Time) : Nat :=
  if time ≤ limit then (limit.nanos - time.nanos) / nanosPerSecond + 1 else 0

theorem Time.slots_le (time limit : Time) : time.slots limit ≤ limit.seconds + 2 := by
  simp only [slots]
  split
  · have less : (limit.nanos - time.nanos) / nanosPerSecond ≤ limit.seconds :=
      Nat.div_le_div_right (Nat.sub_le ..)
    omega
  · exact Nat.zero_le _

theorem Time.slots_pos (inTime : time ≤ limit) : 0 < time.slots limit := by
  rw [slots, if_pos inTime]
  exact Nat.succ_pos _

/-- A second later an event can come less often. -/
theorem Time.slots_lt {later : Time} (inTime : time ≤ limit)
    (second : time.nanos + nanosPerSecond ≤ later.nanos) :
    later.slots limit < time.slots limit := by
  rw [slots, slots, if_pos inTime]
  split
  · next still =>
    have still : later.nanos ≤ limit.nanos := still
    have less : (limit.nanos - later.nanos) / nanosPerSecond + 1 ≤
        (limit.nanos - time.nanos) / nanosPerSecond := by
      rw [← Nat.add_div_right _ (by decide)]
      apply Nat.div_le_div_right
      omega
    omega
  · exact Nat.succ_pos _

namespace EventQueue

/-- How often events can come up to a limit, of those that wait. -/
def slots (q : EventQueue) (limit : Time) : Nat :=
  (q.waiting.toList.map fun x => x.score.time.slots limit).sum

theorem slots_le_deliveryBound (q : EventQueue) (limit : Time) :
    q.slots limit ≤ Controller.deliveryBound q limit := by
  have each : ∀ n ∈ q.waiting.toList.map fun x => x.score.time.slots limit,
      n ≤ limit.seconds + 2 := by
    intro n hn
    obtain ⟨x, _, rfl⟩ := List.mem_map.1 hn
    exact Time.slots_le ..
  have bound := List.sum_le_card_nsmul _ _ each
  rw [List.length_map] at bound
  exact bound

theorem slots_push (q : EventQueue) (time : Time) (event : Event) (limit : Time) :
    (q.push time event).slots limit = (time.later q.now).slots limit + q.slots limit := by
  have put := MinQueue.toList_push q.waiting ⟨time.later q.now, q.turns⟩ event
  exact (put.map _).sum_eq

theorem slots_pop (h : q.pop = some ((time, event), q')) (limit : Time) :
    q.slots limit = time.slots limit + q'.slots limit := by
  obtain ⟨⟨entry, rest⟩, out, view⟩ := Option.map_eq_some_iff.1 h
  cases view
  exact ((MinQueue.toList_pop out).map _).sum_eq

theorem slots_schedule {delay : Time} (h : q.schedule delay event = some q')
    (inTime : q.now ≤ limit) (second : nanosPerSecond ≤ delay.nanos) :
    q'.slots limit < q.now.slots limit + q.slots limit := by
  obtain ⟨time, later, rfl⟩ := exists_of_schedule h
  rw [slots_push]
  apply Nat.add_lt_add_right
  apply Time.slots_lt inTime
  rw [Time.nanos_later]
  omega

end EventQueue

namespace Controller

variable {W : Type} [Weight W] {k k₀ : Controller W} {r r' : Run W} {queue : EventQueue}
  {e : Event} {interval : Time} {n : Nat}

/-! ### Enough steps -/

/-- **Every delivery leaves fewer of them to come.** -/
theorem Delivered.slots_lt (delivered : Delivered r time event queue r')
    (accepted : r.controller.settings.check = .ok ()) (inTime : time ≤ limit) :
    r'.queue.slots limit < r.queue.slots limit := by
  rw [delivered.requeued, EventQueue.slots_pop delivered.due limit]
  have now := EventQueue.now_of_pop delivered.due
  have spec := r.controller.handle_queue event time queue
  cases comes : r.controller.settings.interval? event with
  | none =>
    rw [comes] at spec
    have positive := Time.slots_pos inTime
    rw [spec]
    omega
  | some interval =>
    rw [comes] at spec
    rcases spec with later | ⟨same, _⟩
    · -- it waits again, for a second later or more, from where it can come less often
      have second := Settings.second_le_interval accepted comes
      have less := EventQueue.slots_schedule later (now ▸ inTime) second
      rwa [now] at less
    · have positive := Time.slots_pos inTime
      rw [same]
      omega

theorem Delivered.settings_eq (delivered : Delivered r time event queue r') :
    r'.controller.settings = r.controller.settings := by
  rw [delivered.controller]
  exact settings_eq_of_given (r.controller.handle_given event time queue)

theorem Run.next_eq_none_iff :
    r.next? limit = none ↔ r.overflowed = true ∨ r.queue.popUntil limit = none := by
  simp only [Run.next?]
  split
  · next stopped => simp [stopped]
  · next running => simp [running]

/-- A number of steps in which a run comes to its end takes it there. -/
theorem Run.advance_eq (ends : EndsAfter (fun r : Run W => r.next? limit) n r r') {steps : Nat}
    (enough : n ≤ steps) : Run.advance limit steps r = r' := by
  induction ends generalizing steps with
  | done last =>
    cases steps with
    | zero => rfl
    | succ steps => simp only [Run.advance, last]
  | step next _ ih =>
    obtain ⟨steps, rfl⟩ := Nat.exists_eq_succ_of_ne_zero (Nat.ne_zero_of_lt enough)
    simp only [Run.advance, next]
    exact ih (Nat.le_of_succ_le_succ enough)

/-- **A run comes to its end** before it has made as many steps as it may make. -/
theorem endsAfter_runUntil (k : Controller W) (queue : EventQueue) (limit : Time)
    (accepted : k.settings.check = .ok ()) : ∃ n ≤ deliveryBound queue limit,
      EndsAfter (fun r : Run W => r.next? limit) n { controller := k, queue }
        (k.runUntil queue limit) ∧ (k.runUntil queue limit).controller.settings = k.settings := by
  have falls (r r' : Run W) (same : r.controller.settings = k.settings)
      (next : r.next? limit = some r') : r'.controller.settings = k.settings ∧
        r'.queue.slots limit < r.queue.slots limit := by
    obtain ⟨time, event, queue, inTime, delivered⟩ := delivered_of_next next
    exact ⟨delivered.settings_eq.trans same, delivered.slots_lt (same ▸ accepted) inTime⟩
  have start : ({ controller := k, queue } : Run W).controller.settings = k.settings := rfl
  obtain ⟨n, bound, r, ends, same⟩ := exists_endsAfter falls start
  have enough := Nat.le_trans bound (queue.slots_le_deliveryBound limit)
  have arrives : k.runUntil queue limit = r := Run.advance_eq ends enough
  rw [arrives]
  exact ⟨n, enough, ends, same⟩

theorem next_runUntil (accepted : k.settings.check = .ok ()) :
    (k.runUntil queue limit).next? limit = none := by
  obtain ⟨_, _, ends, _⟩ := endsAfter_runUntil k queue limit accepted
  exact ends.last

/-- What waits when nothing is delivered any more is due after the limit. -/
theorem late_of_next (sound : r.queue.Sound) (running : r.overflowed = false)
    (done : r.next? limit = none) {due : Due} (waits : due ∈ r.queue.pending e) :
    limit < due.time := by
  obtain ⟨time, event, queue, out⟩ := EventQueue.exists_pop waits
  obtain ⟨turn, taken⟩ := sound.pop out
  refine Nat.lt_of_lt_of_le (Nat.lt_of_not_le ?_) (taken.least waits).1
  intro inTime
  obtain ⟨r', next, _⟩ := exists_next running out inTime
  rw [done] at next
  cases next

/-! ### The end of a run -/

theorem watched_runUntil (sound : queue.Sound) : Watched k (k.runUntil queue limit) := by
  apply Run.advance_induction (I := fun r => Watched k r) (watched_start sound)
  intro r r' watched next
  exact watched.next next

/-- What every delivery keeps holds at the end of a run. -/
theorem runUntil_induction {I : Run W → Prop} (sound : queue.Sound)
    (start : I { controller := k, queue })
    (step : ∀ r time event queue r', Watched k r → time ≤ limit →
      Delivered r time event queue r' → I r → I r') :
    I (k.runUntil queue limit) := by
  have all : Watched k (k.runUntil queue limit) ∧ I (k.runUntil queue limit) := by
    apply Run.advance_induction (I := fun r => Watched k r ∧ I r)
    · exact ⟨watched_start sound, start⟩
    · rintro r r' ⟨watched, before⟩ next
      obtain ⟨time, event, queue, inTime, delivered⟩ := delivered_of_next next
      exact ⟨watched.next next, step _ _ _ _ _ watched inTime delivered before⟩
  exact all.2

/-- Nothing is delivered after the limit. -/
theorem time_le_of_runUntil (sound : queue.Sound) {d : Delivery}
    (h : d ∈ (k.runUntil queue limit).deliveries) : d.time ≤ limit := by
  have all : ∀ d ∈ (k.runUntil queue limit).deliveries, d.time ≤ limit := by
    apply runUntil_induction (I := fun r => ∀ d ∈ r.deliveries, d.time ≤ limit) sound
    · intro d hd
      cases hd
    · intro r time event queue r' _ inTime delivered before d hd
      obtain ⟨report, logged⟩ := delivered.logged
      rw [logged] at hd
      rcases List.mem_cons.1 hd with rfl | hd
      · exact inTime
      · exact before d hd
  exact all d h

/-- An event whose next occurrence the clock can show does not overflow it. -/
theorem outcome_ne_clockOverflow {now : Time}
    (room : ∀ interval, k.settings.interval? event = some interval →
      queue.now.nanos + interval.nanos < clockRange) :
    (k.handle event now queue).outcome ≠ .clockOverflow := by
  have again (k : Controller W) {interval : Time} (event : Event) (notices : List Notice)
      (shown : queue.now.nanos + interval.nanos < clockRange) :
      (Handled.again k queue interval event notices).outcome ≠ .clockOverflow := by
    obtain ⟨q, later⟩ := EventQueue.exists_schedule_of_lt shown event
    rw [Handled.again, later]
    exact Outcome.noConfusion
  have once {α : Type} (packet : α → Option PacketOut) (reaction : Reaction W α) :
      (Handled.ofReaction queue packet reaction).outcome ≠ .clockOverflow := by
    simp only [Handled.ofReaction]
    split <;> exact Outcome.noConfusion
  cases event with
  | switchConnected dpid => exact once _ _
  | packetIn dpid header inPort => exact once _ _
  | flowRemoved dpid header reason => exact once _ _
  | pollEnergy => exact again _ _ _ (room _ rfl)
  | rebalance => exact again _ _ _ (room _ rfl)

/-- A delivery does not overflow the clock if it can show every interval after the limit. -/
theorem Delivered.goesOn (delivered : Delivered r time event queue r') (inTime : time ≤ limit)
    (room : ∀ e interval, r.controller.settings.interval? e = some interval →
      limit.nanos + interval.nanos < clockRange) : r'.overflowed = false := by
  apply delivered.overflowed.2
  apply outcome_ne_clockOverflow
  intro interval comes
  have shown := room event interval comes
  have inTime : time.nanos ≤ limit.nanos := inTime
  rw [EventQueue.now_of_pop delivered.due]
  omega

/-- A run goes on to its limit if the clock can show every interval after that. -/
theorem overflowed_runUntil (sound : queue.Sound)
    (room : ∀ e interval, k.settings.interval? e = some interval →
      limit.nanos + interval.nanos < clockRange) :
    (k.runUntil queue limit).overflowed = false := by
  apply runUntil_induction (I := fun r => r.overflowed = false) sound rfl
  intro r time event queue r' watched inTime delivered _
  apply delivered.goesOn inTime
  rw [settings_eq_of_given watched.given]
  exact room

/-- An event that comes back has come `n` times by a time, as often as its interval fits into it,
    and waits for its next time. -/
structure Paced (queue : EventQueue) (e : Event) (interval now : Time) (n : Nat) : Prop where
  waits : ∃ due, queue.pending e = [due] ∧ due.time.nanos = (n + 1) * interval.nanos
  past : n * interval.nanos ≤ now.nanos
  ahead : now.nanos < (n + 1) * interval.nanos

theorem Paced.count_eq {now : Time} (h : Paced queue e interval now n) :
    n = now.nanos / interval.nanos :=
  (Nat.div_eq_of_lt_le h.past h.ahead).symm

theorem onTime_runUntil {due : Due} (sound : queue.Sound)
    (comes : k.settings.interval? e = some interval) (waits : queue.pending e = [due])
    (next : due.time.nanos = (n + 1) * interval.nanos)
    (running : (k.runUntil queue limit).overflowed = false) :
    OnTime (k.runUntil queue limit) e interval n := by
  have all : (k.runUntil queue limit).overflowed = false →
      OnTime (k.runUntil queue limit) e interval n := by
    apply runUntil_induction (I := fun r => r.overflowed = false → OnTime r e interval n) sound
    · intro _
      exact onTime_start waits next
    · intro r time event queue r' watched _ delivered onTime
      rw [← settings_eq_of_given watched.given] at comes
      exact (onTime delivered.running).deliver watched.sound comes delivered
  exact all running

/-- **A run up to a time delivers an event that comes back as often as it fits in.** -/
theorem Paced.runUntil {now : Time} (h : Paced queue e interval now n) (sound : queue.Sound)
    (accepted : k.settings.check = .ok ()) (comes : k.settings.interval? e = some interval)
    (later : now ≤ limit) (running : (k.runUntil queue limit).overflowed = false) :
    Paced (k.runUntil queue limit).queue e interval limit
      (n + ((k.runUntil queue limit).timesOf e).length) := by
  obtain ⟨due, waits, next⟩ := h.waits
  have onTime : OnTime (k.runUntil queue limit) e interval n :=
    onTime_runUntil sound comes waits next running
  refine ⟨onTime.waits, ?_, ?_⟩
  · -- the latest one was not later than the limit
    rcases Nat.eq_zero_or_pos ((k.runUntil queue limit).timesOf e).length with none | came
    · rw [none]
      exact Nat.le_trans h.past later
    · obtain ⟨d, hd, same⟩ := onTime.exists_last came
      rw [← same]
      exact time_le_of_runUntil sound hd
  · -- the next one would have come if it were not later
    obtain ⟨due', waits', next'⟩ := onTime.waits
    rw [← next']
    apply late_of_next (watched_runUntil sound).sound running (next_runUntil accepted)
    rw [waits']
    exact List.mem_singleton_self _

end Controller

end PathControl
