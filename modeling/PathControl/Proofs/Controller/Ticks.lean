/-
  PathControl/Proofs/Controller/Ticks.lean
  ========================================
  **When polls and passes come, and in which order.**

  Where only the controller itself puts in polls and passes, each of them comes at the
  multiples of its interval (`Ticks`). At an instant at which both are due, the one
  with the longer interval comes first, since it was put in earlier; if the intervals
  are equal, the poll comes first, as at the start (`Ahead`, `Loop.inOrder`).
-/
import PathControl.Proofs.Controller.Loop

namespace PathControl.Controller

variable {W : Type} {r r' : Run W} {e slow fast : Event} {time now interval a b : Time} {n : Nat}
  {due : Due} {queue : EventQueue}

/-! ### Events that come back -/

def Run.DeliveredAt (r : Run W) (e : Event) (nanos : Nat) : Prop :=
  ∃ d ∈ r.deliveries, d.event = e ∧ d.time.nanos = nanos

/-- An event has come at the first `n` multiples of an interval, and waits for the next one. -/
structure Ticks (r : Run W) (e : Event) (interval : Time) (n : Nat) (due : Due) : Prop where
  waits : r.queue.pending e = [due]
  next : due.time.nanos = (n + 1) * interval.nanos
  came (t : Nat) : r.DeliveredAt e t ↔ ∃ i, 0 < i ∧ i ≤ n ∧ t = i * interval.nanos

theorem Ticks.push (h : Ticks r e interval n due) (time : Time) {event : Event}
    (other : event ≠ e) :
    Ticks { r with queue := r.queue.push time event } e interval n due :=
  ⟨EventQueue.pending_push_ne other h.waits, h.next, h.came⟩

/-- Before its time comes, an event has not come at it. -/
theorem Ticks.not_deliveredAt (h : Ticks r e interval n due) (positive : 0 < interval.nanos) :
    ¬ r.DeliveredAt e due.time.nanos := by
  rw [h.came, h.next]
  rintro ⟨i, _, upTo, same⟩
  have := Nat.eq_of_mul_eq_mul_right positive same
  omega

section Delivery

variable [Weight W] {event : Event} {turn : Nat}

theorem Delivered.deliveredAt_iff (delivered : Delivered r time event queue r') {t : Nat} :
    r'.DeliveredAt e t ↔ event = e ∧ time.nanos = t ∨ r.DeliveredAt e t := by
  obtain ⟨report, logged⟩ := delivered.logged
  simp only [Run.DeliveredAt]
  rw [logged]
  simp only [List.mem_cons, exists_eq_or_imp]

/-- An event that waits once and comes back waits once again, an interval later. -/
theorem Delivered.pending_self (delivered : Delivered r time e queue r')
    (comes : r.controller.settings.interval? e = some interval)
    (taken : r.queue.Taken time e queue turn) (goesOn : r'.overflowed = false)
    (waits : r.queue.pending e = [due]) :
    due = ⟨time, turn⟩ ∧ ∃ due', r'.queue.pending e = [due'] ∧
      due'.time.nanos = time.nanos + interval.nanos ∧ due'.turn = r.queue.turns := by
  obtain ⟨same, away⟩ := taken.due_eq waits
  have spec := r.controller.handle_queue e time queue
  rw [comes] at spec
  obtain later | ⟨_, overflow⟩ := spec
  · rw [← delivered.requeued] at later
    obtain ⟨due', waits', next, turn⟩ := EventQueue.pending_of_schedule later away
    rw [taken.now] at next
    exact ⟨same, due', waits', next, turn.trans taken.turns⟩
  · exact absurd overflow (delivered.overflowed.1 goesOn)

theorem Delivered.pending_other (delivered : Delivered r time event queue r')
    (taken : r.queue.Taken time event queue turn) (other : event ≠ e)
    (waits : r.queue.pending e = [due]) : r'.queue.pending e = [due] := by
  have kept := taken.pending_ne other waits
  rw [delivered.requeued]
  have spec := r.controller.handle_queue event time queue
  split at spec
  · rw [spec, kept]
  · obtain later | ⟨same, _⟩ := spec
    · have requeued := EventQueue.pending_of_schedule_ne later other
      rw [kept, List.perm_singleton] at requeued
      exact requeued
    · rw [same, kept]

theorem Ticks.deliver_self (h : Ticks r e interval n due)
    (comes : r.controller.settings.interval? e = some interval)
    (delivered : Delivered r time e queue r') (taken : r.queue.Taken time e queue turn)
    (goesOn : r'.overflowed = false) :
    ∃ due', Ticks r' e interval (n + 1) due' ∧
      due'.time.nanos = time.nanos + interval.nanos ∧ due'.turn = r.queue.turns := by
  obtain ⟨rfl, due', waits, next, turn⟩ := delivered.pending_self comes taken goesOn h.waits
  refine ⟨due', ⟨waits, ?_, ?_⟩, next, turn⟩
  · rw [next, h.next, Nat.succ_mul (n + 1)]
  · intro t
    rw [delivered.deliveredAt_iff, h.came]
    constructor
    · rintro (⟨_, same⟩ | ⟨i, positive, upTo, same⟩)
      · exact ⟨n + 1, Nat.succ_pos n, Nat.le_refl _, same.symm.trans h.next⟩
      · exact ⟨i, positive, Nat.le_succ_of_le upTo, same⟩
    · rintro ⟨i, positive, upTo, same⟩
      rcases Nat.le_succ_iff.1 upTo with upTo | rfl
      · exact Or.inr ⟨i, positive, upTo, same⟩
      · exact Or.inl ⟨rfl, h.next.trans same.symm⟩

theorem Ticks.deliver_other (h : Ticks r e interval n due)
    (delivered : Delivered r time event queue r') (taken : r.queue.Taken time event queue turn)
    (other : event ≠ e) : Ticks r' e interval n due := by
  refine ⟨delivered.pending_other taken other h.waits, h.next, ?_⟩
  intro t
  rw [delivered.deliveredAt_iff, ← h.came]
  simp only [other, false_and, false_or]

end Delivery

/-! ### Which of two comes first -/

/-- Two events wait that come back after `a` and `b`. If the first one came last before the second
    did, or at the same time and `c` is one, then it waits with the earlier turn. The second one has
    not come at the time for which the first one waits, nor later. -/
structure Ahead (c a b : Nat) (slow fast : Due) : Prop where
  turn : slow.time.nanos + b < fast.time.nanos + a + c → slow.turn < fast.turn
  caught : fast.time.nanos < slow.time.nanos + b

section Order

variable {c a b : Nat} {slow fast later : Due}

theorem Ahead.deliver_slow (h : Ahead c a b slow fast) (atMost : c ≤ 1)
    (next : later.time.nanos = slow.time.nanos + a) : Ahead c a b later fast := by
  have caught := h.caught
  constructor
  · intro before
    omega
  · omega

/-- The second event is taken out strictly before the first one is due. -/
theorem Ahead.lt (h : Ahead c a b slow fast) (longer : b < a + c)
    (least : fast.time.nanos ≤ slow.time.nanos ∧
      (fast.time.nanos = slow.time.nanos → fast.turn ≤ slow.turn)) :
    fast.time.nanos < slow.time.nanos := by
  refine Nat.lt_of_le_of_ne least.1 ?_
  -- at a tie the first one came last before the second, and waits with the earlier turn
  intro same
  have before : slow.turn < fast.turn := h.turn (by omega)
  exact absurd before (Nat.not_lt.2 (least.2 same))

theorem Ahead.deliver_fast (before : fast.time.nanos < slow.time.nanos)
    (next : later.time.nanos = fast.time.nanos + b) (behind : slow.turn < later.turn) :
    Ahead c a b slow later := by
  constructor
  · intro _
    exact behind
  · omega

end Order

/-- Two events that come back after `a` and `b` wait in order; `c` is one if the first of them was
    put in first at the start. -/
def InOrder (c : Nat) (slow fast : Event) (a b : Time) (r : Run W) : Prop :=
  ∃ i j dueSlow dueFast, Ticks r slow a i dueSlow ∧ Ticks r fast b j dueFast ∧
    Ahead c a.nanos b.nanos dueSlow dueFast

variable {c : Nat} {event : Event}

theorem InOrder.push (h : InOrder c slow fast a b r) (time : Time)
    (other : event ≠ slow ∧ event ≠ fast) :
    InOrder c slow fast a b { r with queue := r.queue.push time event } := by
  obtain ⟨i, j, dueSlow, dueFast, ticksSlow, ticksFast, ahead⟩ := h
  exact ⟨i, j, dueSlow, dueFast, ticksSlow.push time other.1, ticksFast.push time other.2, ahead⟩

theorem InOrder.observe (h : InOrder c slow fast a b r) (telemetry : Telemetry) :
    InOrder c slow fast a b { r with controller := { r.controller with telemetry } } := by
  obtain ⟨i, j, dueSlow, dueFast, ticksSlow, ticksFast, ahead⟩ := h
  exact ⟨i, j, dueSlow, dueFast, { ticksSlow with }, { ticksFast with }, ahead⟩

theorem ticks_of_pending (k : Controller W) (waits : queue.pending e = [due])
    (next : due.time.nanos = interval.nanos) :
    Ticks { controller := k, queue } e interval 0 due := by
  refine ⟨waits, by rw [next, Nat.zero_add, Nat.one_mul], ?_⟩
  intro t
  constructor
  · rintro ⟨d, hd, _⟩
    cases hd
  · rintro ⟨i, positive, upTo, _⟩
    omega

variable {k₀ : Controller W} {both : Bool}

/-- At the start a poll and a pass are put in beside what waits, the poll with the earlier turn. -/
theorem pending_schedulePeriodic (k : Controller W) (start : queue.now = Time.zero)
    (quiet : ∀ e, e.Periodic → queue.pending e = []) : ∃ poll pass,
    (k.schedulePeriodic queue).1.pending .pollEnergy = [poll] ∧
    (k.schedulePeriodic queue).1.pending .rebalance = [pass] ∧
    poll.time.nanos = k.settings.pollTime.nanos ∧
    pass.time.nanos = k.settings.rebalanceTime.nanos ∧ poll.turn < pass.turn :=
  EventQueue.pending_of_scheduleAll start (by simp) (quiet _ (Or.inl rfl)) (quiet _ (Or.inr rfl))

theorem ticks_start (put : k₀.schedulePeriodic .empty = (queue, both)) : ∃ poll pass,
    Ticks { controller := k₀, queue } .pollEnergy k₀.settings.pollTime 0 poll ∧
    Ticks { controller := k₀, queue } .rebalance k₀.settings.rebalanceTime 0 pass ∧
    poll.turn < pass.turn := by
  have quiet : ∀ e : Event, e.Periodic → EventQueue.empty.pending e = [] := fun _ _ => rfl
  obtain ⟨poll, pass, waits, waits', time, time', turn⟩ := k₀.pending_schedulePeriodic rfl quiet
  rw [put] at waits waits'
  exact ⟨poll, pass, ticks_of_pending k₀ waits time, ticks_of_pending k₀ waits' time', turn⟩

theorem inOrder_start_poll (put : k₀.schedulePeriodic .empty = (queue, both))
    (positive : 0 < k₀.settings.pollTime.nanos) :
    InOrder 1 .pollEnergy .rebalance k₀.settings.pollTime k₀.settings.rebalanceTime
      { controller := k₀, queue } := by
  obtain ⟨poll, pass, polls, passes, turn⟩ := ticks_start put
  refine ⟨0, 0, poll, pass, polls, passes, fun _ => turn, ?_⟩
  have first := polls.next
  have second := passes.next
  omega

theorem inOrder_start_pass (put : k₀.schedulePeriodic .empty = (queue, both))
    (positive : 0 < k₀.settings.rebalanceTime.nanos) :
    InOrder 0 .rebalance .pollEnergy k₀.settings.rebalanceTime k₀.settings.pollTime
      { controller := k₀, queue } := by
  obtain ⟨poll, pass, polls, passes, turn⟩ := ticks_start put
  have first := polls.next
  have second := passes.next
  refine ⟨0, 0, pass, poll, passes, polls, ?_, ?_⟩
  · intro before
    omega
  · omega

variable [Weight W] {pushed : List Event}

theorem InOrder.deliver (h : InOrder c slow fast a b r) (sound : r.queue.Sound)
    (comesSlow : r.controller.settings.interval? slow = some a)
    (comesFast : r.controller.settings.interval? fast = some b) (differ : slow ≠ fast)
    (atMost : c ≤ 1) (longer : b.nanos < a.nanos + c)
    (delivered : Delivered r time event queue r') (goesOn : r'.overflowed = false) :
    InOrder c slow fast a b r' := by
  obtain ⟨turn, taken⟩ := sound.pop delivered.due
  obtain ⟨i, j, dueSlow, dueFast, ticksSlow, ticksFast, ahead⟩ := h
  by_cases isSlow : event = slow
  · -- it now waits beyond the second one, so nothing is claimed of the turns
    subst isSlow
    obtain ⟨rfl, _⟩ := taken.due_eq ticksSlow.waits
    obtain ⟨due, ticks, next, _⟩ := ticksSlow.deliver_self comesSlow delivered taken goesOn
    exact ⟨i + 1, j, due, dueFast, ticks, ticksFast.deliver_other delivered taken differ,
      ahead.deliver_slow atMost next⟩
  by_cases isFast : event = fast
  · -- it is put in again behind everything that waits
    subst isFast
    obtain ⟨rfl, _⟩ := taken.due_eq ticksFast.waits
    obtain ⟨due, ticks, next, last⟩ := ticksFast.deliver_self comesFast delivered taken goesOn
    have waits : dueSlow ∈ r.queue.pending slow := by simp [ticksSlow.waits]
    have before := ahead.lt longer (taken.least waits)
    have behind : dueSlow.turn < due.turn := last ▸ sound.turn_of_pending waits
    exact ⟨i, j + 1, dueSlow, due, ticksSlow.deliver_other delivered taken isSlow, ticks,
      Ahead.deliver_fast before next behind⟩
  · exact ⟨i, j, dueSlow, dueFast, ticksSlow.deliver_other delivered taken isSlow,
      ticksFast.deliver_other delivered taken isFast, ahead⟩

/-- Where nothing that comes back is put in from outside, two such events stay in order. -/
theorem Loop.inOrder (loop : Loop k₀ r pushed)
    (start : ∀ queue, k₀.schedulePeriodic .empty = (queue, true) →
      InOrder c slow fast a b { controller := k₀, queue })
    (comesSlow : k₀.settings.interval? slow = some a)
    (comesFast : k₀.settings.interval? fast = some b) (differ : slow ≠ fast)
    (atMost : c ≤ 1) (longer : b.nanos < a.nanos + c)
    (outside : ∀ e ∈ pushed, e ≠ slow ∧ e ≠ fast) (running : r.overflowed = false) :
    InOrder c slow fast a b r := by
  induction loop with
  | start put => exact start _ put
  | push before time event ih =>
    exact (ih (fun e he => outside e (List.mem_cons_of_mem _ he)) running).push time
      (outside event List.mem_cons_self)
  | observe before telemetry ih => exact (ih outside running).observe telemetry
  | deliver before next ih =>
    obtain ⟨time, event, queue, _, delivered⟩ := delivered_of_next next
    have settings := settings_eq_of_given before.watched.given
    exact (ih outside delivered.running).deliver before.watched.sound
      (by rw [settings]; exact comesSlow) (by rw [settings]; exact comesFast) differ atMost longer
      delivered running

end PathControl.Controller
