/-
  PathControl/Proofs/Controller/Sample.lean
  =========================================
  **What events do to the samples.**

  An event polls all switches, registers one, or leaves the samples alone
  (`Sampling`). So the sample of a switch that has registered is known by the events
  that were delivered: it was taken when the switch registered last or by the latest
  poll since, and its last two polls are of different instants unless it is the first
  (`Polled`, `Sampled.deliver`).
-/
import PathControl.Controller.Run
import PathControl.Proofs.Controller
import PathControl.Proofs.Energy
import PathControl.Proofs.Event.Queue

namespace PathControl

/-- Whether an event comes back by itself. -/
def Event.Periodic (e : Event) : Prop := e = .pollEnergy ∨ e = .rebalance

instance (e : Event) : Decidable e.Periodic := inferInstanceAs (Decidable (_ ∨ _))

namespace Controller

variable {W : Type} {k : Controller W} {now : Time} {event : Event} {dpid : Dpid}

/-! ### Samples after an event -/

/-- What an event does to the samples, by how it ends. -/
inductive Sampling (k : Controller W) (event : Event) (now : Time) :
    Outcome → EnergyTracker → Prop where
  | polled {outcome} (periodic : event.Periodic) :
      Sampling k event now outcome (k.energy.refreshAll k.topology k.telemetry now)
  | registered {dpid n} (connects : event = .switchConnected dpid)
      (latest : k.topology.switchWith? dpid = some n) :
      Sampling k event now (.done none) (k.energy.register dpid (k.telemetry.powerOf n) now)
  | kept {outcome} (quiet : ¬ event.Periodic)
      (refused : ∀ dpid packet, event = .switchConnected dpid → outcome ≠ .done packet) :
      Sampling k event now outcome k.energy

theorem Sampling.strategy_eq {outcome : Outcome} {e : EnergyTracker}
    (h : Sampling k event now outcome e) : e.strategy = k.energy.strategy := by
  cases h with
  | polled => exact EnergyTracker.strategy_refreshAll
  | registered => rfl
  | kept => rfl

theorem flowRemoved_energy (header : Header) (reason : RemovalReason) :
    (k.flowRemoved dpid header reason).controller.energy = k.energy := by
  simp only [flowRemoved, flowIdle]
  split
  · split
    · rfl
    · split
      · rfl
      · split <;> rfl
  · rfl

section Handling

variable [Weight W]

theorem packetIn_energy (header : Header) (inPort : UInt32) :
    (k.packetIn dpid header inPort now).controller.energy = k.energy := by
  simp only [packetIn]
  split
  · rfl
  · split
    · rw [answer_controller]
    · simp only [installFlow]
      split
      · rfl
      · dsimp only
        rw [answer_controller]
        rfl

/-- A pass polls all switches once, before or after it moves flows. -/
theorem rebalance_energy :
    (k.rebalance now).controller.energy = k.energy.refreshAll k.topology k.telemetry now := by
  simp only [rebalance]
  split <;> rfl

theorem handle_sampling (k : Controller W) (event : Event) (now : Time) (queue : EventQueue) :
    Sampling k event now (k.handle event now queue).outcome
      (k.handle event now queue).controller.energy := by
  cases event with
  | switchConnected dpid =>
    simp only [handle, Handled.ofReaction, switchConnected]
    cases greeted : k.greeting dpid with
    | error cause => exact Sampling.kept (by simp [Event.Periodic]) (by simp)
    | ok greeting =>
      obtain ⟨n, latest, told⟩ := bind_eq_ok_iff.1 greeted
      obtain ⟨rules, _, told⟩ := bind_eq_ok_iff.1 told
      cases told
      exact Sampling.registered rfl (Topology.switchWith_eq_ok_iff.1 latest)
  | packetIn dpid header inPort =>
    simp only [handle, Handled.ofReaction]
    rw [packetIn_energy]
    exact Sampling.kept (by simp [Event.Periodic]) (by simp)
  | flowRemoved dpid header reason =>
    simp only [handle, Handled.ofReaction]
    rw [flowRemoved_energy]
    exact Sampling.kept (by simp [Event.Periodic]) (by simp)
  | pollEnergy =>
    simp only [handle, again_controller]
    exact Sampling.polled (Or.inl rfl)
  | rebalance =>
    simp only [handle, again_controller]
    rw [rebalance_energy]
    exact Sampling.polled (Or.inr rfl)

end Handling

/-! ### Registration -/

/-- Whether a delivery registered a switch. -/
def Delivery.registers (d : Delivery) (dpid : Dpid) : Bool :=
  match d.outcome with
  | .done _ => d.event = .switchConnected dpid
  | _ => false

theorem Delivery.registers_iff {d : Delivery} : d.registers dpid = true ↔
    d.event = .switchConnected dpid ∧ ∃ packet, d.outcome = .done packet := by
  simp only [registers]
  split
  · next packet ended => simp [ended]
  · next other => simpa using fun _ => other

/-- When a switch registered last. -/
def registeredAt? (deliveries : List Delivery) (dpid : Dpid) : Option Time :=
  (deliveries.find? (·.registers dpid)).map (·.time)

theorem registeredAt?_cons (d : Delivery) (deliveries : List Delivery) (dpid : Dpid) :
    registeredAt? (d :: deliveries) dpid =
      if d.registers dpid then some d.time else registeredAt? deliveries dpid := by
  simp only [registeredAt?, List.find?_cons]
  split
  · next registers => rw [if_pos registers]; rfl
  · next other => rw [if_neg (by simpa using other)]

/-! ### What the sample of a switch says -/

/-- A sample of a switch that registered at a time: it was taken then or by a later poll, and no
    poll has come since. If it was taken later, its last two polls are of different instants. -/
structure Polled (deliveries : List Delivery) (registered : Time) (s : Sample) : Prop where
  since : registered.nanos ≤ s.time.nanos
  window : registered.nanos < s.time.nanos → s.previous.nanos < s.time.nanos
  latest : ∀ d ∈ deliveries, d.event.Periodic → registered.nanos < d.time.nanos →
    d.time.nanos ≤ s.time.nanos
  taken : s.time = registered ∨ ∃ d ∈ deliveries, d.event.Periodic ∧ d.time = s.time

variable {deliveries : List Delivery} {d : Delivery} {registered : Time} {s : Sample}

theorem polled_first (past : ∀ e ∈ deliveries, e.time.nanos ≤ d.time.nanos) (draw : Float) :
    Polled (d :: deliveries) d.time (.first draw d.time) where
  since := Nat.le_refl _
  window later := absurd later (Nat.lt_irrefl _)
  latest e he _ later := by
    rcases List.mem_cons.1 he with rfl | he
    · exact Nat.le_refl _
    · exact absurd later (Nat.not_lt.2 (past e he))
  taken := Or.inl rfl

theorem Polled.quiet (h : Polled deliveries registered s) (quiet : ¬ d.event.Periodic) :
    Polled (d :: deliveries) registered s := by
  refine ⟨h.since, h.window, ?_, ?_⟩
  · intro e he periodic later
    rcases List.mem_cons.1 he with rfl | he
    · exact absurd periodic quiet
    · exact h.latest e he periodic later
  · rcases h.taken with first | ⟨e, he, poll⟩
    · exact Or.inl first
    · exact Or.inr ⟨e, List.mem_cons_of_mem _ he, poll⟩

theorem Polled.refresh (h : Polled deliveries registered s) (periodic : d.event.Periodic)
    (forward : s.time.nanos ≤ d.time.nanos) (draw : Float) :
    Polled (d :: deliveries) registered (s.refresh draw d.time) := by
  refine ⟨?_, ?_, ?_, ?_⟩
  · rw [Sample.refresh_time]
    exact Nat.le_trans h.since forward
  · rw [Sample.refresh_time, Sample.refresh_previous]
    intro later
    split
    · -- a second poll at one instant keeps the poll before
      next again =>
      rw [again] at later ⊢
      exact h.window later
    · next other =>
      have differs : s.time.nanos ≠ d.time.nanos := fun same =>
        other (Time.ext_nanos same.symm)
      omega
  · intro e he poll later
    rw [Sample.refresh_time]
    rcases List.mem_cons.1 he with rfl | he
    · exact Nat.le_refl _
    · exact Nat.le_trans (h.latest e he poll later) forward
  · exact Or.inr ⟨d, List.mem_cons_self, periodic, (s.refresh_time draw d.time).symm⟩

/-- The sample of every switch that has registered says what it should. -/
def Sampled (t : Topology) (e : EnergyTracker) (deliveries : List Delivery) (now : Time) : Prop :=
  ∀ dpid registered, registeredAt? deliveries dpid = some registered →
    ∃ n s, t.switchWith? dpid = some n ∧ e.sample? dpid = some s ∧ s.time.nanos ≤ now.nanos ∧
      Polled deliveries registered s

theorem Sampled.deliver {before : Time} {outcome : Outcome} {e : EnergyTracker}
    {report : Option RebalanceReport} (h : Sampled k.topology k.energy deliveries before)
    (past : ∀ d ∈ deliveries, d.time.nanos ≤ now.nanos) (forward : before.nanos ≤ now.nanos)
    (sampling : Sampling k event now outcome e) :
    Sampled k.topology e (⟨now, event, outcome, report⟩ :: deliveries) now := by
  intro dpid registered last
  rw [registeredAt?_cons] at last
  cases sampling with
  | polled periodic =>
    have other : Delivery.registers ⟨now, event, outcome, report⟩ dpid ≠ true := by
      rw [Ne, Delivery.registers_iff]
      rintro ⟨connects, _⟩
      rcases periodic with rfl | rfl <;> cases connects
    rw [if_neg other] at last
    obtain ⟨n, s, latest, known, upTo, polled⟩ := h dpid registered last
    have before : s.time.nanos ≤ now.nanos := Nat.le_trans upTo forward
    refine ⟨n, s.refresh (k.telemetry.powerOf n) now, latest, ?_, ?_, ?_⟩
    · rw [EnergyTracker.sample?_refreshAll latest, known]
      rfl
    · exact Nat.le_of_eq (congrArg Time.nanos (s.refresh_time _ now))
    · exact polled.refresh (d := ⟨now, event, outcome, report⟩) periodic before _
  | @registered other n connects latest =>
    subst connects
    by_cases same : other = dpid
    · subst same
      rw [if_pos (Delivery.registers_iff.2 ⟨rfl, _, rfl⟩)] at last
      cases last
      refine ⟨n, .first (k.telemetry.powerOf n) now, latest, ?_, Nat.le_refl _, ?_⟩
      · rw [EnergyTracker.sample?_register, if_pos rfl]
      · exact polled_first (d := ⟨now, .switchConnected other, .done none, report⟩) past _
    · rw [if_neg (by simpa [Delivery.registers] using same)] at last
      obtain ⟨n', s, latest', known, upTo, polled⟩ := h dpid registered last
      have polled := polled.quiet (d := ⟨now, .switchConnected other, .done none, report⟩)
        (by simp [Event.Periodic])
      refine ⟨n', s, latest', ?_, Nat.le_trans upTo forward, polled⟩
      rw [EnergyTracker.sample?_register, if_neg same]
      exact known
  | kept quiet refused =>
    have other : Delivery.registers ⟨now, event, outcome, report⟩ dpid ≠ true := by
      rw [Ne, Delivery.registers_iff]
      rintro ⟨connects, packet, ended⟩
      exact refused dpid packet connects ended
    rw [if_neg other] at last
    obtain ⟨n, s, latest, known, upTo, polled⟩ := h dpid registered last
    exact ⟨n, s, latest, known, Nat.le_trans upTo forward, polled.quiet quiet⟩

end Controller

end PathControl
