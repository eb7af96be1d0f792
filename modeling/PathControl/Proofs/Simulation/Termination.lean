/-
  PathControl/Proofs/Simulation/Termination.lean
  ==============================================
  **The loops of a simulation end.**

  The inner loop takes out what is due and gives it to the controller, which may put it
  in again; the outer loop goes on in steps of the poll interval. Both end from every
  state as long as the settings pass their check (`loops_end`): then an event that comes
  back comes back later, and time goes on in every step. With an interval of zero an
  event comes back at the time at which it came, and the inner loop does not end
  (`not_endsAfter_of_zero`).
-/
import PathControl.Proofs.Simulation

namespace PathControl

open Controller

namespace Simulation

variable {W : Type} [Weight W] {s s' : Simulation W} {settings : Settings}
  {now next step finish : Time}

/-! ### Rounds -/

/-- One round of the outer loop, or `none` if time is up or the clock overflows. -/
def round? (step finish : Time) : Simulation W × Time → Option (Simulation W × Time)
  | (s, now) =>
    if now < finish then do
      let next := Time.earlier (← now.add? step) finish
      let s ← s.deliver next
      return (s.reportAll step, next)
    else none

theorem exists_of_round (h : round? step finish (s, now) = some (s', next)) :
    now < finish ∧ ∃ later, now.add? step = some later ∧ next = Time.earlier later finish ∧
      ∃ s₁, s.deliver next = some s₁ ∧ s' = s₁.reportAll step := by
  simp only [round?] at h
  split at h
  · next running =>
    simp only [Option.bind_eq_bind, Option.bind_eq_some_iff, Option.pure_def, Option.some_inj,
      Prod.mk.injEq] at h
    obtain ⟨later, add, s₁, delivered, reported, rfl⟩ := h
    exact ⟨running, later, add, rfl, s₁, delivered, reported.symm⟩
  · cases h

/-- A round of a simulation whose steps take time is a step of its course. -/
theorem advance_eq (s : Simulation W) (now finish : Time) (positive : 0 < step.nanos) :
    s.advance step now finish = match round? step finish (s, now) with
      | some (s', next) => s'.advance step next finish
      | none => if now < finish then none else some s := by
  rw [advance]
  simp only [round?]
  split
  · next running =>
    cases add : now.add? step with
    | none => rfl
    | some later =>
      dsimp only
      simp only [Option.bind_eq_bind, Option.bind_some]
      cases delivered : s.deliver (Time.earlier later finish) with
      | none => rfl
      | some s₁ =>
        dsimp only
        rw [dif_pos (forward_of_add running positive add)]
        rfl
  · rfl

theorem advance_eq_of_endsAfter {n : Nat} {x y : Simulation W × Time} (positive : 0 < step.nanos)
    (ends : EndsAfter (round? step finish) n x y) :
    x.1.advance step x.2 finish = if y.2 < finish then none else some y.1 := by
  induction ends with
  | done last => rw [advance_eq _ _ _ positive, last]
  | step round _ ih =>
    rw [advance_eq _ _ _ positive, round]
    exact ih

/-! ### Both loops -/

theorem settings_of_deliver (accepted : s.controller.settings.check = .ok ())
    (h : s.deliver next = some s') : s'.controller.settings = s.controller.settings := by
  obtain ⟨_, _, _, same⟩ := endsAfter_runUntil s.controller s.queue next accepted
  simp only [deliver] at h
  split at h
  · cases h
  · cases h
    exact same

/-- The settings stay, so that the run of every round comes to its end. -/
theorem settings_of_round (accepted : s.controller.settings.check = .ok ())
    (round : round? step finish (s, now) = some (s', next)) :
    s'.controller.settings = s.controller.settings := by
  obtain ⟨_, _, _, _, s₁, delivered, rfl⟩ := exists_of_round round
  have kept := settings_of_deliver accepted delivered
  exact kept

/-- The steps that are left until the end, the last of which may be cut off. -/
def roundsLeft (step finish now : Time) : Nat :=
  (finish.nanos - now.nanos + (step.nanos - 1)) / step.nanos

/-- **A round leaves fewer of them.** -/
theorem roundsLeft_lt (positive : 0 < step.nanos)
    (round : round? step finish (s, now) = some (s', next)) :
    roundsLeft step finish next < roundsLeft step finish now := by
  obtain ⟨running, later, add, rfl, _⟩ := exists_of_round round
  have running : now.nanos < finish.nanos := running
  have sum := Time.add_eq_some_iff.1 add
  have one : roundsLeft step finish now =
      (finish.nanos - now.nanos - 1) / step.nanos + 1 := by
    rw [roundsLeft, ← Nat.add_div_right _ positive]
    congr 1
    omega
  rw [one, Nat.lt_succ_iff, roundsLeft]
  simp only [Time.earlier]
  split
  · next whole =>
    have whole : later.nanos ≤ finish.nanos := whole
    apply Nat.div_le_div_right
    omega
  · -- a step that is cut off is the last one
    rw [Nat.sub_self, Nat.zero_add, Nat.div_eq_of_lt (by omega)]
    exact Nat.zero_le _

theorem roundsLeft_mul_lt (positive : 0 < step.nanos) :
    roundsLeft step finish now * step.nanos < finish.nanos - now.nanos + step.nanos := by
  have bound : roundsLeft step finish now * step.nanos ≤ _ := Nat.div_mul_le_self ..
  omega

/-- **The rounds of a simulation come to an end**, and a simulation is what they come to. -/
theorem exists_endsAfter_round (accepted : settings.check = .ok ())
    (same : s.controller.settings = settings) (now finish : Time) :
    ∃ n s' stop, EndsAfter (round? settings.pollTime finish) n (s, now) (s', stop) ∧
      n * settings.pollTime.nanos < finish.nanos - now.nanos + settings.pollTime.nanos ∧
      s.advance settings.pollTime now finish = if stop < finish then none else some s' := by
  have positive := (Settings.interval_pos accepted).1
  have falls (x y : Simulation W × Time) (same : x.1.controller.settings = settings)
      (round : round? settings.pollTime finish x = some y) :
      y.1.controller.settings = settings ∧
        roundsLeft settings.pollTime finish y.2 < roundsLeft settings.pollTime finish x.2 :=
    ⟨(settings_of_round (same ▸ accepted) round).trans same, roundsLeft_lt positive round⟩
  obtain ⟨n, bound, ⟨s', stop⟩, ends, _⟩ := exists_endsAfter falls (a := (s, now)) same
  refine ⟨n, s', stop, ends, ?_, advance_eq_of_endsAfter positive ends⟩
  exact Nat.lt_of_le_of_lt (Nat.mul_le_mul_right _ bound) (roundsLeft_mul_lt positive)

/-- **Both loops end**, whatever the controller has come to and whatever waits. The inner one
    makes no more deliveries than `deliveryBound` allows; it ends where nothing more is due, or
    at a time after which the clock cannot show the next one. Every round keeps the settings, so
    its run ends, and there are no more rounds than steps until the end. -/
theorem loops_end (accepted : settings.check = .ok ()) :
    (∀ (k : Controller W) (queue : EventQueue) (limit : Time), k.settings = settings →
      ∃ n ≤ deliveryBound queue limit,
        EndsAfter (fun r : Run W => r.next? limit) n { controller := k, queue }
          (k.runUntil queue limit) ∧
        ((k.runUntil queue limit).overflowed = true ∨
          (k.runUntil queue limit).queue.popUntil limit = none)) ∧
    ∀ (s : Simulation W) (now finish : Time), s.controller.settings = settings →
      (∀ s' next, round? settings.pollTime finish (s, now) = some (s', next) →
        s'.controller.settings = settings) ∧
      ∃ n s' stop, EndsAfter (round? settings.pollTime finish) n (s, now) (s', stop) ∧
        n * settings.pollTime.nanos < finish.nanos - now.nanos + settings.pollTime.nanos ∧
        s.advance settings.pollTime now finish = if stop < finish then none else some s' := by
  constructor
  · rintro k queue limit rfl
    obtain ⟨n, bound, ends, _⟩ := endsAfter_runUntil k queue limit accepted
    exact ⟨n, bound, ends, Run.next_eq_none_iff.1 ends.last⟩
  · rintro s now finish rfl
    exact ⟨fun s' next round => settings_of_round accepted round,
      exists_endsAfter_round accepted rfl now finish⟩

/-- Two hosts before anything has happened: the first poll waits, and the first pass. -/
def twoHostsIdle : Simulation HopCount where
  controller := metered 10 20
  queue := ((metered 10 20).schedulePeriodic .empty).1
  hot := []

/-- Fifty seconds are no more than five rounds of ten seconds. -/
theorem loops_end_twoHosts :
    (metered 10 20).settings.check = .ok () ∧
      (∃ n ≤ deliveryBound twoHostsIdle.queue (.ofSeconds 50),
        EndsAfter (fun r : Run HopCount => r.next? (.ofSeconds 50)) n
          { controller := metered 10 20, queue := twoHostsIdle.queue }
          ((metered 10 20).runUntil twoHostsIdle.queue (.ofSeconds 50))) ∧
      ∃ n ≤ 5, ∃ s' stop,
        EndsAfter (round? (.ofSeconds 10) (.ofSeconds 50)) n (twoHostsIdle, .zero) (s', stop) := by
  have accepted : (metered 10 20).settings.check = .ok () := rfl
  obtain ⟨runs, rounds⟩ := loops_end (W := HopCount) accepted
  obtain ⟨n, bound, ends, _⟩ := runs (metered 10 20) twoHostsIdle.queue (.ofSeconds 50) rfl
  obtain ⟨_, m, s', stop, ends', bound', _⟩ := rounds twoHostsIdle .zero (.ofSeconds 50) rfl
  have fewer : m * 10000000000 < 50000000000 - 0 + 10000000000 := bound'
  exact ⟨accepted, ⟨n, bound, ends⟩, m, by omega, s', stop, ends'⟩

end Simulation

/-! ### Why intervals are checked -/

/-- A span below one second leaves no interval, and the check refuses it. -/
theorem Settings.check_setTime (s : Settings) {t : Time} (short : t.nanos < nanosPerSecond) :
    (s.setPollTime t).check = .error (.badSetting .intervalZero) ∧
      (s.setRebalanceTime t).check = .error (.badSetting .intervalZero) := by
  have zero : t.wholeSeconds = 0 := by
    rw [← UInt64.toNat_inj, Time.wholeSeconds, UInt64.toNat_ofNatLT]
    exact Nat.div_eq_of_lt short
  constructor
  · rw [check, badSetting?, if_pos (.inl zero)]
  · rw [check, badSetting?, if_pos (.inr zero)]

namespace Controller

variable {W : Type} [Weight W] {k₀ k : Controller W} {r r' : Run W} {queue : EventQueue}
  {e event : Event} {interval time limit : Time}

/-- The run goes on, and an event waits that is due by the limit. -/
structure Waits (k₀ : Controller W) (e : Event) (limit : Time) (r : Run W) : Prop where
  watched : Watched k₀ r
  running : r.overflowed = false
  due : ∃ due ∈ r.queue.pending e, due.time ≤ limit

/-- Handling an event takes no other one out of the queue. -/
theorem mem_pending_handle {due : Due} (waits : due ∈ queue.pending e) :
    due ∈ (k.handle event time queue).queue.pending e := by
  have spec := k.handle_queue event time queue
  split at spec
  · rwa [spec]
  · rcases spec with later | ⟨same, _⟩
    · obtain ⟨time', _, requeued⟩ := EventQueue.exists_of_schedule later
      rw [requeued]
      exact EventQueue.mem_pending_push time' event waits
    · rwa [same]

/-- An event that comes back after no time waits again for the time at which it came. -/
theorem Delivered.waits_again (delivered : Delivered r time e queue r')
    (comes : r.controller.settings.interval? e = some interval) (zero : interval.nanos = 0)
    (goesOn : r'.overflowed = false) : ∃ due ∈ r'.queue.pending e, due.time = time := by
  have spec := r.controller.handle_queue e time queue
  rw [comes] at spec
  rcases spec with later | ⟨_, overflow⟩
  · rw [← delivered.requeued] at later
    obtain ⟨time', sum, requeued⟩ := EventQueue.exists_of_schedule later
    have moved := queue.pending_push time' e e
    rw [if_pos rfl] at moved
    rw [requeued]
    refine ⟨_, moved.mem_iff.2 List.mem_cons_self, Time.ext_nanos ?_⟩
    rw [Time.nanos_later, sum, zero, Nat.add_zero, Nat.max_self,
      EventQueue.now_of_pop delivered.due]
  · exact absurd overflow (delivered.overflowed.1 goesOn)

/-- Where an event comes back after no time, a run that waits for it goes on and on. -/
theorem Waits.exists_next (h : Waits k₀ e limit r)
    (comes : k₀.settings.interval? e = some interval) (zero : interval.nanos = 0)
    (room : ∀ e interval, k₀.settings.interval? e = some interval →
      limit.nanos + interval.nanos < clockRange) :
    ∃ r', r.next? limit = some r' ∧ Waits k₀ e limit r' := by
  obtain ⟨due, waits, early⟩ := h.due
  obtain ⟨time, event, queue, out⟩ := EventQueue.exists_pop waits
  obtain ⟨turn, taken⟩ := h.watched.sound.pop out
  have inTime : time ≤ limit := Nat.le_trans (taken.least waits).1 early
  obtain ⟨r', next, delivered⟩ := Controller.exists_next h.running out inTime
  rw [← settings_eq_of_given h.watched.given] at comes room
  have goesOn := delivered.goesOn inTime room
  refine ⟨r', next, h.watched.deliver delivered, goesOn, ?_⟩
  by_cases self : event = e
  · subst self
    obtain ⟨due', waits', same⟩ := delivered.waits_again comes zero goesOn
    exact ⟨due', waits', same ▸ inTime⟩
  · have kept := taken.pending e
    rw [if_neg self] at kept
    rw [delivered.requeued]
    exact ⟨due, mem_pending_handle (kept.mem_iff.1 waits), early⟩

/-- **With an interval of zero a run does not end** once the event is due, as long as the clock
    can show every interval after the limit. -/
theorem not_endsAfter_of_zero (sound : queue.Sound)
    (comes : k.settings.interval? e = some interval) (zero : interval.nanos = 0)
    (due : ∃ due ∈ queue.pending e, due.time ≤ limit)
    (room : ∀ e interval, k.settings.interval? e = some interval →
      limit.nanos + interval.nanos < clockRange) {n : Nat} :
    ¬ EndsAfter (fun r : Run W => r.next? limit) n { controller := k, queue } r :=
  not_endsAfter (I := Waits k e limit) (fun _ h => h.exists_next comes zero room)
    ⟨watched_start sound, rfl, due⟩

end Controller

end PathControl
