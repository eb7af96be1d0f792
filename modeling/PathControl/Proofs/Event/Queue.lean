/-
  PathControl/Proofs/Event/Queue.lean
  ===================================
  **What the event queue gives out, and when.**

  In a queue that was built by putting in and taking out, the clock never goes back,
  and an event that is put in has a later turn than every event that waits (`Sound`).
  `pending` lists when the copies of one event are due. Putting in and taking out
  change it by one entry, and an event that is taken out is due no later than any
  event that waits, and before every event of the same time with a later turn
  (`Sound.le_of_pop`).
-/
import PathControl.Event
import PathControl.Proofs.MinQueue
import PathControl.Proofs.Time

namespace PathControl

/-! ### The order of times and turns -/

instance : Std.TransOrd Time :=
  inferInstanceAs (Std.TransCmp (compareOn Time.nanos))

instance : Std.TransOrd Due :=
  inferInstanceAs (Std.TransCmp (compareLex (compareOn Due.time) (compareOn Due.turn)))

theorem Due.le_of_compare {a b : Due} (h : (compare a b).isLE) :
    a.time.nanos ≤ b.time.nanos ∧ (a.time.nanos = b.time.nanos → a.turn ≤ b.turn) := by
  change ((compare a.time.nanos b.time.nanos).then (compare a.turn b.turn)).isLE at h
  rw [Ordering.isLE_then_iff_and] at h
  obtain ⟨time, turn⟩ := h
  refine ⟨Nat.isLE_compare.1 time, ?_⟩
  intro same
  rcases turn with earlier | turn
  · rw [Nat.compare_eq_lt] at earlier
    omega
  · exact Nat.isLE_compare.1 turn

namespace EventQueue

variable {q q' : EventQueue} {time : Time} {event e : Event}

/-! ### Pending events -/

/-- When the waiting copies of an event are due. -/
def pending (q : EventQueue) (e : Event) : List Due :=
  (q.waiting.toList.filter (·.label = e)).map Scored.score

theorem pending_cons {due : Due} (h : q.waiting.toList.Perm (⟨due, event⟩ :: q'.waiting.toList))
    (e : Event) : (q.pending e).Perm
      (if event = e then due :: q'.pending e else q'.pending e) := by
  have moved := (h.filter (·.label = e)).map Scored.score
  rw [List.filter_cons] at moved
  by_cases same : event = e
  · rw [if_pos same]
    rwa [if_pos (by simpa using same), List.map_cons] at moved
  · rw [if_neg same]
    rwa [if_neg (by simpa using same)] at moved

theorem pending_push (q : EventQueue) (time : Time) (event e : Event) :
    ((q.push time event).pending e).Perm
      (if event = e then ⟨time.later q.now, q.turns⟩ :: q.pending e else q.pending e) :=
  pending_cons (MinQueue.toList_push ..) e

theorem mem_pending_push {due : Due} (time : Time) (event : Event) (waits : due ∈ q.pending e) :
    due ∈ (q.push time event).pending e := by
  rw [(q.pending_push time event e).mem_iff]
  split
  · exact List.mem_cons_of_mem _ waits
  · exact waits

theorem pending_push_ne {due : Due} (other : event ≠ e) (waits : q.pending e = [due]) :
    (q.push time event).pending e = [due] := by
  have moved := q.pending_push time event e
  rw [if_neg other, waits] at moved
  exact List.perm_singleton.1 moved

/-- A scheduled event is put in for a time after the delay. -/
theorem exists_of_schedule {delay : Time} (h : q.schedule delay event = some q') :
    ∃ time : Time, time.nanos = q.now.nanos + delay.nanos ∧ q' = q.push time event := by
  obtain ⟨time, shown, rfl⟩ := Option.map_eq_some_iff.1 h
  exact ⟨time, Time.add_eq_some_iff.1 shown, rfl⟩

theorem exists_schedule_of_lt {delay : Time} (shown : q.now.nanos + delay.nanos < clockRange)
    (event : Event) : ∃ q', q.schedule delay event = some q' := by
  have add : q.now.add? delay = some ⟨q.now.nanos + delay.nanos, shown⟩ :=
    Time.add_eq_some_iff.2 rfl
  exact ⟨_, Option.map_eq_some_iff.2 ⟨_, add, rfl⟩⟩

/-- At the start the clock can show every time after a delay. -/
theorem exists_schedule (start : q.now = Time.zero) (delay : Time) (event : Event) :
    ∃ q', q.schedule delay event = some q' := by
  apply exists_schedule_of_lt
  rw [start]
  exact lt_of_eq_of_lt (Nat.zero_add _) delay.inRange

/-- An event that waits nowhere is put in once. -/
theorem pending_of_schedule {delay : Time} (h : q.schedule delay e = some q')
    (away : q.pending e = []) : ∃ due : Due, q'.pending e = [due] ∧
      due.time.nanos = q.now.nanos + delay.nanos ∧ due.turn = q.turns := by
  obtain ⟨time, later, rfl⟩ := exists_of_schedule h
  have moved := q.pending_push time e e
  rw [if_pos rfl, away, List.perm_singleton] at moved
  refine ⟨_, moved, ?_, rfl⟩
  rw [Time.nanos_later, later]
  exact Nat.max_eq_left (Nat.le_add_right ..)

theorem pending_of_schedule_ne {delay : Time} (h : q.schedule delay event = some q')
    (other : event ≠ e) : (q'.pending e).Perm (q.pending e) := by
  obtain ⟨time, _, rfl⟩ := exists_of_schedule h
  have moved := q.pending_push time event e
  rwa [if_neg other] at moved

theorem now_of_schedule {delay : Time} (h : q.schedule delay event = some q') :
    q'.now = q.now := by
  obtain ⟨time, _, rfl⟩ := exists_of_schedule h
  rfl

/-- Two events that wait nowhere and are put in together at the start wait for their times, the
    first one with the earlier turn. -/
theorem pending_of_scheduleAll {a b : Time} {e f : Event} (start : q.now = Time.zero)
    (differ : e ≠ f) (away : q.pending e = []) (away' : q.pending f = []) :
    ∃ first second : Due, (q.scheduleAll [(a, e), (b, f)]).1.pending e = [first] ∧
      (q.scheduleAll [(a, e), (b, f)]).1.pending f = [second] ∧
      first.time.nanos = a.nanos ∧ second.time.nanos = b.nanos ∧ first.turn < second.turn := by
  obtain ⟨q₁, one⟩ := exists_schedule start a e
  obtain ⟨first, waits, time, turn⟩ := pending_of_schedule one away
  have now : q₁.now = Time.zero := (now_of_schedule one).trans start
  have away' : q₁.pending f = [] := List.perm_nil.1 (away' ▸ pending_of_schedule_ne one differ)
  obtain ⟨q₂, two⟩ := exists_schedule now b f
  obtain ⟨second, waits', time', turn'⟩ := pending_of_schedule two away'
  have both : (q.scheduleAll [(a, e), (b, f)]).1 = q₂ := by
    simp only [scheduleAll, one, two]
  have kept := pending_of_schedule_ne two (Ne.symm differ)
  rw [waits, List.perm_singleton] at kept
  have turns : q₁.turns = q.turns + 1 := by
    obtain ⟨_, _, rfl⟩ := exists_of_schedule one
    rfl
  rw [both]
  refine ⟨first, second, kept, waits', ?_, ?_, ?_⟩
  · rw [time, start]
    exact Nat.zero_add _
  · rw [time', now]
    exact Nat.zero_add _
  · rw [turn, turn', turns]
    exact Nat.lt_succ_self _

theorem nextTime_eq (q : EventQueue) : q.nextTime? = q.pop.map fun x => x.1.1 := by
  rw [nextTime?, MinQueue.first_eq, pop, Option.map_map, Option.map_map]
  rfl

theorem now_of_pop (h : q.pop = some ((time, event), q')) : q'.now = time := by
  obtain ⟨_, _, view⟩ := Option.map_eq_some_iff.1 h
  cases view
  rfl

theorem pop_of_popUntil {limit : Time} (h : q.popUntil limit = some ((time, event), q')) :
    q.pop = some ((time, event), q') := by
  simp only [popUntil] at h
  split at h
  · split at h
    · exact h
    · cases h
  · cases h

/-- As long as something waits, there is a next event. -/
theorem exists_pop {due : Due} (waits : due ∈ q.pending e) :
    ∃ time event queue, q.pop = some ((time, event), queue) := by
  obtain ⟨x, hx, _⟩ := List.mem_map.1 waits
  cases out : q.pop with
  | none =>
    have empty := MinQueue.toList_eq_nil_of_pop (Option.map_eq_none_iff.1 out)
    rw [empty] at hx
    cases hx
  | some result =>
    obtain ⟨⟨time, event⟩, queue⟩ := result
    exact ⟨time, event, queue, rfl⟩

theorem popUntil_of_pop {limit : Time} (h : q.pop = some ((time, event), q'))
    (inTime : time ≤ limit) : q.popUntil limit = some ((time, event), q') := by
  rw [popUntil, nextTime_eq, h]
  exact if_pos inTime

theorem le_of_popUntil {limit : Time} (h : q.popUntil limit = some ((time, event), q')) :
    time ≤ limit := by
  have popped := pop_of_popUntil h
  simp only [popUntil, nextTime_eq, popped, Option.map_some] at h
  split at h
  · next inTime => exact inTime
  · cases h

/-! ### Sound queues -/

/-- What holds of a queue however it was used. -/
structure Sound (q : EventQueue) : Prop where
  ordered : q.waiting.Ordered
  ahead : ∀ x ∈ q.waiting.toList, q.now.nanos ≤ x.score.time.nanos
  turn : ∀ x ∈ q.waiting.toList, x.score.turn < q.turns

theorem sound_empty : empty.Sound where
  ordered := MinQueue.ordered_empty
  ahead _ hx := absurd hx List.not_mem_nil
  turn _ hx := absurd hx List.not_mem_nil

theorem Sound.push (h : q.Sound) (time : Time) (event : Event) : (q.push time event).Sound := by
  constructor
  · exact h.ordered.push _ _
  · intro x hx
    rcases List.mem_cons.1 ((MinQueue.toList_push ..).mem_iff.1 hx) with rfl | hx
    · change q.now.nanos ≤ (time.later q.now).nanos
      rw [Time.nanos_later]
      exact Nat.le_max_right ..
    · exact h.ahead x hx
  · intro x hx
    rcases List.mem_cons.1 ((MinQueue.toList_push ..).mem_iff.1 hx) with rfl | hx
    · exact Nat.lt_succ_self _
    · exact Nat.lt_succ_of_lt (h.turn x hx)

theorem Sound.schedule {delay : Time} (h : q.Sound)
    (later : q.schedule delay event = some q') : q'.Sound := by
  obtain ⟨time, _, rfl⟩ := exists_of_schedule later
  exact h.push time event

theorem Sound.scheduleAll (h : q.Sound) (events : List (Time × Event)) :
    (q.scheduleAll events).1.Sound := by
  induction events generalizing q with
  | nil => exact h
  | cons entry rest ih =>
    simp only [EventQueue.scheduleAll]
    split
    · next later => exact ih (h.schedule later)
    · exact h

theorem Sound.turn_of_pending (h : q.Sound) {due : Due} (waits : due ∈ q.pending e) :
    due.turn < q.turns := by
  obtain ⟨x, hx, rfl⟩ := List.mem_map.1 waits
  exact h.turn x (List.mem_filter.1 hx).1

/-! ### Taking out an event -/

/-- What taking out an event does, when it waited with a turn. -/
structure Taken (q : EventQueue) (time : Time) (event : Event) (q' : EventQueue) (turn : Nat) :
    Prop where
  sound : q'.Sound
  now : q'.now = time
  turns : q'.turns = q.turns
  forward : q.now.nanos ≤ time.nanos
  pending (e : Event) : (q.pending e).Perm
    (if event = e then ⟨time, turn⟩ :: q'.pending e else q'.pending e)
  /-- No event waits for an earlier time, or for the same time with an earlier turn. -/
  least {e : Event} {due : Due} (waits : due ∈ q.pending e) :
    time.nanos ≤ due.time.nanos ∧ (time.nanos = due.time.nanos → turn ≤ due.turn)

/-- What is taken out is due no later than any event that waits, and has the earlier turn among
    those of its time. -/
theorem Sound.le_of_pop (h : q.Sound) {entry x : Scored Due Event} {rest : MinQueue Due Event}
    (out : q.waiting.pop = some (entry, rest)) (hx : x ∈ q.waiting.toList) :
    entry.score.time.nanos ≤ x.score.time.nanos ∧
      (entry.score.time.nanos = x.score.time.nanos → entry.score.turn ≤ x.score.turn) :=
  Due.le_of_compare (h.ordered.le_of_pop out hx)

/-- An event that waits once is taken out as it waits. -/
theorem Taken.due_eq {turn : Nat} {due : Due} (taken : Taken q time e q' turn)
    (waits : q.pending e = [due]) : due = ⟨time, turn⟩ ∧ q'.pending e = [] := by
  have moved := taken.pending e
  rw [if_pos rfl, waits, List.singleton_perm] at moved
  obtain ⟨same, away⟩ := List.cons.inj moved
  exact ⟨same, away.symm⟩

theorem Taken.pending_ne {turn : Nat} {due : Due} (taken : Taken q time event q' turn)
    (other : event ≠ e) (waits : q.pending e = [due]) : q'.pending e = [due] := by
  have kept := taken.pending e
  rw [if_neg other, waits, List.singleton_perm] at kept
  exact kept.symm

theorem Sound.pop (h : q.Sound) (taken : q.pop = some ((time, event), q')) :
    ∃ turn, Taken q time event q' turn := by
  obtain ⟨⟨⟨⟨instant, turn⟩, label⟩, rest⟩, out, view⟩ := Option.map_eq_some_iff.1 taken
  cases view
  have moved := MinQueue.toList_pop out
  have first {x : Scored Due Event} (hx : x ∈ q.waiting.toList) :
      instant.nanos ≤ x.score.time.nanos ∧
        (instant.nanos = x.score.time.nanos → turn ≤ x.score.turn) :=
    h.le_of_pop out hx
  have waited {x : Scored Due Event} (hx : x ∈ rest.toList) : x ∈ q.waiting.toList :=
    moved.mem_iff.2 (List.mem_cons_of_mem _ hx)
  refine ⟨turn, ⟨?_, rfl, rfl, ?_, ?_, ?_⟩⟩
  · constructor
    · exact h.ordered.pop out
    · intro x hx
      exact (first (waited hx)).1
    · intro x hx
      exact h.turn x (waited hx)
  · exact h.ahead _ (moved.mem_iff.2 List.mem_cons_self)
  · intro e
    exact pending_cons moved e
  · intro e due waits
    obtain ⟨x, hx, rfl⟩ := List.mem_map.1 waits
    exact first (List.mem_filter.1 hx).1

end EventQueue

end PathControl
