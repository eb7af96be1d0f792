/-
  PathControl/Proofs/Controller/Loop.lean
  =======================================
  **The event loop: what every run of it keeps.**

  A run starts when the controller has put its first poll and its first pass into an
  empty queue. From then on events are put in from outside, readings change, and
  events are delivered at their times (`Loop`). Along every run the clock of the queue
  is never before a delivery, and the sample of every switch that has registered says
  what it should (`Loop.watched`).
-/
import PathControl.Proofs.Controller.Sample

namespace PathControl

/-- The time between two occurrences of an event that comes back by itself. -/
def Settings.interval? (s : Settings) : Event → Option Time
  | .pollEnergy => some s.pollTime
  | .rebalance => some s.rebalanceTime
  | _ => none

theorem Time.second_le_ofSeconds {s : UInt64} (h : s ≠ 0) :
    nanosPerSecond ≤ (Time.ofSeconds s).nanos := by
  have positive : 0 < s.toNat := Nat.pos_of_ne_zero fun zero => h (UInt64.toNat_inj.1 zero)
  exact Nat.le_mul_of_pos_left _ positive

/-- Events come back after a second or more. -/
theorem Settings.second_le_interval {s : Settings} (accepted : s.check = .ok ()) {e : Event}
    {interval : Time} (comes : s.interval? e = some interval) :
    nanosPerSecond ≤ interval.nanos := by
  have positive : ¬ (s.pollInterval = 0 ∨ s.rebalanceInterval = 0) := by
    intro zero
    simp only [check, badSetting?] at accepted
    rw [if_pos zero] at accepted
    cases accepted
  rw [not_or] at positive
  cases e with
  | pollEnergy =>
    cases comes
    exact Time.second_le_ofSeconds positive.1
  | rebalance =>
    cases comes
    exact Time.second_le_ofSeconds positive.2
  | switchConnected _ => cases comes
  | packetIn _ _ _ => cases comes
  | flowRemoved _ _ _ => cases comes

theorem Settings.interval_pos {s : Settings} (accepted : s.check = .ok ()) :
    0 < s.pollTime.nanos ∧ 0 < s.rebalanceTime.nanos := by
  have second : 0 < nanosPerSecond := by decide
  constructor
  · exact Nat.lt_of_lt_of_le second (Settings.second_le_interval accepted (e := .pollEnergy) rfl)
  · exact Nat.lt_of_lt_of_le second (Settings.second_le_interval accepted (e := .rebalance) rfl)

namespace Controller

variable {W : Type} {k k₀ : Controller W} {r r' : Run W} {pushed : List Event}
  {limit time now : Time} {event : Event} {queue : EventQueue}

/-! ### What a run keeps -/

/-- What a run keeps of the clock and of the samples. -/
structure Watched (k₀ : Controller W) (r : Run W) : Prop where
  sound : r.queue.Sound
  past : ∀ d ∈ r.deliveries, d.time.nanos ≤ r.queue.now.nanos
  given : r.controller.given = k₀.given
  strategy : r.controller.energy.strategy = k₀.energy.strategy
  sampled : Sampled k₀.topology r.controller.energy r.deliveries r.queue.now

theorem schedulePeriodic_sound {both : Bool} (put : k.schedulePeriodic .empty = (queue, both)) :
    queue.Sound := by
  rw [schedulePeriodic] at put
  have sound := EventQueue.sound_empty.scheduleAll
    [(k.settings.pollTime, .pollEnergy), (k.settings.rebalanceTime, .rebalance)]
  rwa [put] at sound

theorem watched_start (h : queue.Sound) : Watched k₀ { controller := k₀, queue } where
  sound := h
  past _ hd := absurd hd List.not_mem_nil
  given := rfl
  strategy := rfl
  sampled _ _ last := by cases last

theorem Watched.push (h : Watched k₀ r) (time : Time) (event : Event) :
    Watched k₀ { r with queue := r.queue.push time event } :=
  { h with sound := h.sound.push time event }

theorem Watched.observe (h : Watched k₀ r) (telemetry : Telemetry) :
    Watched k₀ { r with controller := { r.controller with telemetry } } :=
  { h with }

variable [Weight W]

/-! ### The loop -/

/-- The runs that come about from a controller. The list holds the events that were put in from
    outside. -/
inductive Loop (k₀ : Controller W) : Run W → List Event → Prop where
  | start {queue : EventQueue} (put : k₀.schedulePeriodic .empty = (queue, true)) :
      Loop k₀ { controller := k₀, queue } []
  | push {r : Run W} {pushed : List Event} (before : Loop k₀ r pushed) (time : Time)
      (event : Event) : Loop k₀ { r with queue := r.queue.push time event } (event :: pushed)
  | observe {r : Run W} {pushed : List Event} (before : Loop k₀ r pushed)
      (telemetry : Telemetry) :
      Loop k₀ { r with controller := { r.controller with telemetry } } pushed
  | deliver {r r' : Run W} {pushed : List Event} {limit : Time} (before : Loop k₀ r pushed)
      (next : r.next? limit = some r') : Loop k₀ r' pushed

/-- What every delivery keeps holds after a number of them. -/
theorem Run.advance_induction {I : Run W → Prop} (start : I r)
    (step : ∀ r r', I r → r.next? limit = some r' → I r') (steps : Nat) :
    I (Run.advance limit steps r) := by
  induction steps generalizing r with
  | zero => exact start
  | succ steps ih =>
    simp only [Run.advance]
    split
    · exact start
    · next r' next => exact ih (step r r' start next)

theorem Loop.advance (loop : Loop k₀ r pushed) (limit : Time) (steps : Nat) :
    Loop k₀ (Run.advance limit steps r) pushed := by
  apply Run.advance_induction (I := fun r => Loop k₀ r pushed) loop
  intro r r' before next
  exact before.deliver next

/-! ### One delivery -/

/-- What delivering an event does. -/
structure Delivered (r : Run W) (time : Time) (event : Event) (queue : EventQueue) (r' : Run W) :
    Prop where
  running : r.overflowed = false
  due : r.queue.pop = some ((time, event), queue)
  controller : r'.controller = (r.controller.handle event time queue).controller
  requeued : r'.queue = (r.controller.handle event time queue).queue
  logged : ∃ report, r'.deliveries =
    ⟨time, event, (r.controller.handle event time queue).outcome, report⟩ :: r.deliveries
  overflowed : r'.overflowed = false ↔
    (r.controller.handle event time queue).outcome ≠ .clockOverflow

/-- A step of a run delivers the next event, which is not later than the limit. -/
theorem delivered_of_next (next : r.next? limit = some r') :
    ∃ time event queue, time ≤ limit ∧ Delivered r time event queue r' := by
  simp only [Run.next?] at next
  split at next
  · cases next
  · next running =>
    obtain ⟨⟨⟨time, event⟩, queue⟩, due, rfl⟩ := Option.map_eq_some_iff.1 next
    refine ⟨time, event, queue, EventQueue.le_of_popUntil due, by simpa using running,
      EventQueue.pop_of_popUntil due, rfl, rfl, ⟨_, rfl⟩, ?_⟩
    dsimp only
    cases (r.controller.handle event time queue).outcome <;> simp

/-- The next event can be delivered if it is not later than the limit. -/
theorem exists_next (running : r.overflowed = false)
    (due : r.queue.pop = some ((time, event), queue)) (inTime : time ≤ limit) :
    ∃ r', r.next? limit = some r' ∧ Delivered r time event queue r' := by
  have waits := EventQueue.popUntil_of_pop due inTime
  obtain ⟨r', next⟩ : ∃ r', r.next? limit = some r' := by
    rw [Run.next?, running, waits]
    exact ⟨_, rfl⟩
  obtain ⟨time', event', queue', _, delivered⟩ := delivered_of_next next
  have same := delivered.due
  rw [due] at same
  cases same
  exact ⟨r', next, delivered⟩

/-- Only events that come back by themselves are put in again. -/
theorem handle_queue (k : Controller W) (event : Event) (now : Time) (queue : EventQueue) :
    match k.settings.interval? event with
    | none => (k.handle event now queue).queue = queue
    | some interval =>
      queue.schedule interval event = some (k.handle event now queue).queue ∨
        (k.handle event now queue).queue = queue ∧
          (k.handle event now queue).outcome = .clockOverflow := by
  have again (k : Controller W) (interval : Time) (event : Event) (notices : List Notice) :
      queue.schedule interval event = some (Handled.again k queue interval event notices).queue ∨
        (Handled.again k queue interval event notices).queue = queue ∧
          (Handled.again k queue interval event notices).outcome = .clockOverflow := by
    simp only [Handled.again]
    split
    · next later => exact Or.inl later
    · exact Or.inr ⟨rfl, rfl⟩
  cases event with
  | switchConnected dpid => rfl
  | packetIn dpid header inPort => rfl
  | flowRemoved dpid header reason => rfl
  | pollEnergy => exact again ..
  | rebalance => exact again ..

theorem handle_sound (k : Controller W) (event : Event) (now : Time) (h : queue.Sound) :
    (k.handle event now queue).queue.Sound ∧ (k.handle event now queue).queue.now = queue.now := by
  have spec := k.handle_queue event now queue
  split at spec
  · rw [spec]
    exact ⟨h, rfl⟩
  · rcases spec with later | ⟨same, _⟩
    · exact ⟨h.schedule later, EventQueue.now_of_schedule later⟩
    · rw [same]
      exact ⟨h, rfl⟩

/-! ### Every run -/

theorem Watched.deliver (h : Watched k₀ r) (delivered : Delivered r time event queue r') :
    Watched k₀ r' := by
  obtain ⟨turn, taken⟩ := h.sound.pop delivered.due
  obtain ⟨sound, now⟩ := r.controller.handle_sound event time taken.sound
  obtain ⟨report, logged⟩ := delivered.logged
  have clock : r'.queue.now = time := by rw [delivered.requeued, now, taken.now]
  have sampling := r.controller.handle_sampling event time queue
  rw [← delivered.controller] at sampling
  have past : ∀ d ∈ r.deliveries, d.time.nanos ≤ time.nanos := by
    intro d hd
    exact Nat.le_trans (h.past d hd) taken.forward
  have same : r.controller.topology = k₀.topology := topology_eq_of_given h.given
  refine ⟨?_, ?_, ?_, ?_, ?_⟩
  · rw [delivered.requeued]
    exact sound
  · intro d hd
    rw [logged] at hd
    rw [clock]
    rcases List.mem_cons.1 hd with rfl | hd
    · exact Nat.le_refl _
    · exact past d hd
  · rw [delivered.controller, handle_given]
    exact h.given
  · rw [sampling.strategy_eq]
    exact h.strategy
  · rw [logged, clock, ← same]
    have sampled := h.sampled
    rw [← same] at sampled
    exact sampled.deliver past taken.forward sampling

theorem Watched.next (h : Watched k₀ r) (next : r.next? limit = some r') : Watched k₀ r' := by
  obtain ⟨time, event, queue, _, delivered⟩ := delivered_of_next next
  exact h.deliver delivered

/-- **Every run keeps the clock and the samples.** -/
theorem Loop.watched (loop : Loop k₀ r pushed) : Watched k₀ r := by
  induction loop with
  | start put => exact watched_start (schedulePeriodic_sound put)
  | push before time event ih => exact ih.push time event
  | observe before telemetry ih => exact ih.observe telemetry
  | deliver before next ih => exact ih.next next

end Controller

end PathControl
