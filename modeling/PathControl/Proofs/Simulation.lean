/-
  PathControl/Proofs/Simulation.lean
  ==================================
  **A simulation makes as many passes as fit into its duration.**

  A simulation goes on in steps and delivers what is due at the end of each, the last
  step being cut off at the end of the simulation. What is put in from outside are
  connecting switches, packets and rules that end, so polls and passes come on time.
  After every step the number of passes is the number of rebalance intervals that fit
  into the time (`Simulation.Paced`), whatever the length of the steps.
-/
import PathControl.Simulation
import PathControl.Proofs.Controller.Window
import PathControl.Proofs.Controller.RunUntil
import Mathlib.Data.List.Perm.Subperm

namespace PathControl

/-! ### What is drawn and what is refused -/

/-- A host from which a flow can start: it has an address, and its first link leads to a switch
    that the controller knows by a datapath id. -/
structure Topology.Attached (t : Topology) (h : NodeId) : Prop where
  addressed : ((t.host? h).bind Host.ip).isSome
  ingress : ∃ n, (t.neighbors h).head? = some n ∧ (t.dpid? n).isSome

/-- A flow joins an attached host to a host with an address. -/
def FlowDraw.Fits (f : FlowDraw) (t : Topology) : Prop :=
  ∃ source target, f.ends = [source, target] ∧ t.Attached source ∧
    ((t.host? target).bind Host.ip).isSome

namespace SimulationPlan

/-- What is drawn can be simulated: no switch has lost its datapath id to a later one, and every
    flow fits the network. -/
structure Admits (p : SimulationPlan) (d : SimulationDraws) : Prop where
  named : ∀ n ∈ p.topology.switches, (p.topology.dpid? n).isSome
  fits : ∀ f ∈ d.flows, f.Fits p.topology

/-- What a source of draws can give: different switches and hosts, as many as there are if not
    enough, and numbers in their ranges. -/
structure CanDraw (p : SimulationPlan) (d : SimulationDraws) : Prop where
  hot : d.hot.Subperm p.topology.switches ∧ d.hot.length = min p.hot p.topology.switches.length
  flows : d.flows.length = p.flows
  ends : ∀ f ∈ d.flows,
    f.ends.Subperm p.topology.hosts ∧ f.ends.length = min 2 p.topology.hosts.length
  start : ∀ f ∈ d.flows, 1 ≤ f.start ∧ f.start < max p.duration 2
  lifetime : ∀ f ∈ d.flows, 60 ≤ f.lifetime ∧ f.lifetime < 600

/-- A plan for a network in which flows can start from every host, if there are to be flows. -/
structure Ready (p : SimulationPlan) : Prop where
  named : ∀ n ∈ p.topology.switches, (p.topology.dpid? n).isSome
  hosts : p.flows = 0 ∨ 2 ≤ p.topology.hosts.length
  attached : ∀ h ∈ p.topology.hosts, p.topology.Attached h

/-- Whatever is drawn for it can be simulated. -/
theorem Ready.admits {p : SimulationPlan} {d : SimulationDraws} (ready : p.Ready)
    (drawn : p.CanDraw d) : p.Admits d := by
  refine ⟨ready.named, ?_⟩
  intro f hf
  obtain ⟨from_hosts, count⟩ := drawn.ends f hf
  have some_flow : p.flows ≠ 0 := by
    rw [← drawn.flows]
    exact Nat.ne_of_gt (List.length_pos_of_mem hf)
  have enough := ready.hosts.resolve_left some_flow
  rw [Nat.min_eq_left enough] at count
  obtain ⟨source, target, ends⟩ := List.length_eq_two.1 count
  rw [ends] at from_hosts
  have source_here : source ∈ p.topology.hosts := from_hosts.subset List.mem_cons_self
  have target_here : target ∈ p.topology.hosts :=
    from_hosts.subset (List.mem_cons_of_mem _ List.mem_cons_self)
  exact ⟨source, target, ends, ready.attached source source_here,
    (ready.attached target target_here).addressed⟩

end SimulationPlan

@[simp] theorem SimulationError.ifNone_eq_ok_iff {α : Type} {e : SimulationError} {o : Option α}
    {a : α} : e.ifNone o = .ok a ↔ o = some a := by
  cases o <;> simp [ifNone]

/-! ### Events from outside -/

namespace Topology

variable {t : Topology} {events : List (Time × Event)}

theorem exists_connections_iff :
    (∃ events, t.connections = .ok events) ↔ ∀ n ∈ t.switches, (t.dpid? n).isSome := by
  rw [connections, exists_mapM_iff]
  refine forall₂_congr fun n _ => ?_
  rw [Option.isSome_iff_exists]
  constructor
  · rintro ⟨event, made⟩
    obtain ⟨dpid, named, _⟩ := bind_eq_ok_iff.1 made
    exact ⟨dpid, SimulationError.ifNone_eq_ok_iff.1 named⟩
  · rintro ⟨dpid, named⟩
    exact ⟨_, bind_eq_ok_iff.2 ⟨dpid, SimulationError.ifNone_eq_ok_iff.2 named, rfl⟩⟩

theorem not_periodic_of_connections (made : t.connections = .ok events) :
    ∀ x ∈ events, ¬ x.2.Periodic := by
  intro x hx
  obtain ⟨n, _, connects⟩ := (mem_of_mapM made).2 x hx
  obtain ⟨dpid, _, connects⟩ := bind_eq_ok_iff.1 connects
  cases connects
  simp [Event.Periodic]

end Topology

section FlowEvents

variable {t : Topology} {idleTimeout : UInt16} {f : FlowDraw} {i : Nat}
  {events : List (Time × Event)}

theorem not_periodic_of_flowEvents (made : flowEvents t idleTimeout f i = .ok events) :
    ∀ x ∈ events, ¬ x.2.Periodic := by
  simp only [flowEvents] at made
  split at made
  · split at made
    · obtain ⟨ingress, _, made⟩ := bind_eq_ok_iff.1 made
      obtain ⟨dpid, _, made⟩ := bind_eq_ok_iff.1 made
      obtain ⟨inPort, _, made⟩ := bind_eq_ok_iff.1 made
      cases made
      simp [Event.Periodic]
    · cases made
  · cases made

/-- A flow has events exactly if it fits the network. The port towards the sender is never missing,
    as the switch is found through the link. -/
theorem exists_flowEvents_iff :
    (∃ events, flowEvents t idleTimeout f i = .ok events) ↔ f.Fits t := by
  constructor
  · rintro ⟨events, made⟩
    simp only [flowEvents] at made
    split at made
    · next source target ends =>
      split at made
      · next sourceIp targetIp sourceKnown targetKnown =>
        obtain ⟨ingress, first, made⟩ := bind_eq_ok_iff.1 made
        obtain ⟨dpid, named, _⟩ := bind_eq_ok_iff.1 made
        rw [SimulationError.ifNone_eq_ok_iff] at first named
        refine ⟨source, target, ends, ⟨?_, ingress, first, ?_⟩, ?_⟩
        · rw [sourceKnown]
          rfl
        · rw [named]
          rfl
        · rw [targetKnown]
          rfl
      · cases made
    · cases made
  · rintro ⟨source, target, ends, ⟨sourceKnown, ingress, first, named⟩, targetKnown⟩
    obtain ⟨sourceIp, sourceKnown⟩ := Option.isSome_iff_exists.1 sourceKnown
    obtain ⟨targetIp, targetKnown⟩ := Option.isSome_iff_exists.1 targetKnown
    obtain ⟨dpid, named⟩ := Option.isSome_iff_exists.1 named
    have linked : t.linked source ingress = true :=
      (t.mem_neighbors_iff source ingress).1 (List.mem_of_head? first)
    obtain ⟨inPort, towards⟩ := Topology.exists_portTowards?_iff.2 (Topology.linked_symm linked)
    simp only [flowEvents, ends, sourceKnown, targetKnown, bind_eq_ok_iff,
      SimulationError.ifNone_eq_ok_iff]
    exact ⟨_, ingress, first, dpid, named, inPort, towards, rfl⟩

/-- The events of all flows. -/
theorem exists_flowEvents_mapM_iff {flows : List FlowDraw} :
    (∃ events, flows.zipIdx.mapM (fun (f, i) => flowEvents t idleTimeout f i) = .ok events) ↔
      ∀ f ∈ flows, f.Fits t := by
  rw [exists_mapM_iff]
  constructor
  · intro each f hf
    obtain ⟨i, hi, rfl⟩ := List.getElem_of_mem hf
    exact exists_flowEvents_iff.1 (each (flows[i], i) (by simp [List.mem_zipIdx_iff_getElem?, hi]))
  · rintro each ⟨f, i⟩ here
    exact exists_flowEvents_iff.2 (each f (List.fst_mem_of_mem_zipIdx here))

theorem not_periodic_of_mapM {flows : List FlowDraw} {events : List (List (Time × Event))}
    (made : flows.zipIdx.mapM (fun (f, i) => flowEvents t idleTimeout f i) = .ok events) :
    ∀ x ∈ events.flatten, ¬ x.2.Periodic := by
  intro x hx
  obtain ⟨ofFlow, here, inside⟩ := List.mem_flatten.1 hx
  obtain ⟨⟨f, i⟩, _, made⟩ := (mem_of_mapM made).2 ofFlow here
  exact not_periodic_of_flowEvents made x inside

end FlowEvents

namespace EventQueue

variable {q : EventQueue} {events : List (Time × Event)} {e : Event}

/-- Putting in events that do not come back keeps what waits of one that does. -/
theorem pending_pushAll (outside : ∀ x ∈ events, ¬ x.2.Periodic) (periodic : e.Periodic) :
    ((q.pushAll events).pending e).Perm (q.pending e) := by
  apply List.foldlRecOn (motive := fun q' : EventQueue => (q'.pending e).Perm (q.pending e))
    events _ (List.Perm.refl _)
  intro q' kept x hx
  have other : x.2 ≠ e := by
    rintro rfl
    exact outside x hx periodic
  have moved := q'.pending_push x.1 x.2 e
  rw [if_neg other] at moved
  exact moved.trans kept

theorem Sound.pushAll (sound : q.Sound) (events : List (Time × Event)) :
    (q.pushAll events).Sound := by
  apply List.foldlRecOn events _ sound
  intro q sound x _
  exact sound.push x.1 x.2

theorem now_pushAll (q : EventQueue) (events : List (Time × Event)) :
    (q.pushAll events).now = q.now := by
  apply List.foldlRecOn (motive := fun q' : EventQueue => q'.now = q.now) events _ rfl
  intro q' same _ _
  exact same

end EventQueue

/-! ### The start -/

namespace Simulation

variable {W : Type} {metric : Metric W} {p : SimulationPlan} {d : SimulationDraws}
  {s s' : Simulation W} {settings : Settings} {now next step finish : Time} {e : Event}

theorem exists_controller_start_iff (metric : Metric W) :
    (∃ k, Controller.start? metric p.settings p.topology .empty p.forecast = .ok k) ↔
      p.settings.check = .ok () := by
  constructor
  · rintro ⟨k, started⟩
    obtain ⟨_, accepted, _⟩ := bind_eq_ok_iff.1 started
    exact accepted
  · intro accepted
    exact ⟨_, bind_eq_ok_iff.2 ⟨(), accepted, rfl⟩⟩

/-- What is put together for a simulation that starts. -/
theorem start_eq_ok_iff : start? metric p d = .ok s ↔ ∃ k connections flows,
    Controller.start? metric p.settings p.topology .empty p.forecast = .ok k ∧
    p.topology.connections = .ok connections ∧
    d.flows.zipIdx.mapM
      (fun (f, i) => flowEvents p.topology p.settings.idleTimeout f i) = .ok flows ∧
    s = { controller := k, hot := d.hot
          queue := (k.schedulePeriodic (EventQueue.empty.pushAll connections)).1.pushAll
            flows.flatten } := by
  rw [start?]
  simp only [bind_eq_ok_iff, mapError_eq_ok_iff]
  constructor
  · rintro ⟨k, controlled, connections, connect, flows, begun, made⟩
    cases made
    exact ⟨k, connections, flows, controlled, connect, begun, rfl⟩
  · rintro ⟨k, connections, flows, controlled, connect, begun, rfl⟩
    exact ⟨k, controlled, connections, connect, flows, begun, rfl⟩

/-- **A simulation starts exactly if** its settings are accepted and what is drawn is admitted. -/
theorem exists_start_iff (metric : Metric W) :
    (∃ s, start? metric p d = .ok s) ↔ p.settings.check = .ok () ∧ p.Admits d := by
  rw [← exists_controller_start_iff metric]
  constructor
  · rintro ⟨s, started⟩
    obtain ⟨k, connections, flows, controlled, connect, begun, _⟩ := start_eq_ok_iff.1 started
    exact ⟨⟨k, controlled⟩, Topology.exists_connections_iff.1 ⟨connections, connect⟩,
      exists_flowEvents_mapM_iff.1 ⟨flows, begun⟩⟩
  · rintro ⟨⟨k, controlled⟩, named, fits⟩
    obtain ⟨connections, connect⟩ := Topology.exists_connections_iff.2 named
    obtain ⟨flows, begun⟩ := exists_flowEvents_mapM_iff.2 fits
    exact ⟨_, start_eq_ok_iff.2 ⟨k, connections, flows, controlled, connect, begun, rfl⟩⟩

/-- A simulation whose passes have come as often as they fit into a time. -/
structure OnPace (s : Simulation W) (settings : Settings) (now : Time) : Prop where
  sound : s.queue.Sound
  same : s.controller.settings = settings
  paced : Controller.Paced s.queue .rebalance settings.rebalanceTime now s.counts.passes

theorem OnPace.reportAll (h : s.OnPace settings now) (step : Time) :
    (s.reportAll step).OnPace settings now :=
  ⟨h.sound, h.same, h.paced⟩

/-- The number of passes by a time is the number of intervals that fit into it. -/
theorem OnPace.passes_eq {duration : UInt64} (h : s.OnPace settings (.ofSeconds duration)) :
    s.counts.passes = duration.toNat / settings.rebalanceInterval.toNat := by
  rw [h.paced.count_eq]
  exact Nat.mul_div_mul_right _ _ (by decide)

/-- **The passes of a simulation that starts are on pace.** -/
theorem start_onPace (started : start? metric p d = .ok s) : s.OnPace p.settings .zero := by
  obtain ⟨k, connections, flows, controlled, connect, begun, rfl⟩ := start_eq_ok_iff.1 started
  obtain ⟨_, accepted, made⟩ := bind_eq_ok_iff.1 controlled
  cases made
  -- only the controller has put in a pass, so its first one waits alone
  have none_before (e : Event) (periodic : e.Periodic) :
      (EventQueue.empty.pushAll connections).pending e = [] :=
    List.perm_nil.1 (EventQueue.pending_pushAll
      (Topology.not_periodic_of_connections connect) periodic)
  have connected := EventQueue.sound_empty.pushAll connections
  obtain ⟨_, pass, _, waits, _, time, _⟩ := Controller.pending_schedulePeriodic _
    (EventQueue.now_pushAll .empty connections) none_before
  refine ⟨(connected.scheduleAll _).pushAll _, rfl, ⟨pass, ?_, ?_⟩, ?_, ?_⟩
  · apply List.perm_singleton.1
    rw [← waits]
    exact EventQueue.pending_pushAll (not_periodic_of_mapM begun) (Or.inr rfl)
  · rw [time]
    exact (Nat.one_mul _).symm
  · exact Nat.le_of_eq (Nat.zero_mul _)
  · have positive := (Settings.interval_pos accepted).2
    rw [Nat.zero_add, Nat.one_mul]
    exact positive

/-! ### Steps -/

variable [Weight W]

theorem passes_add (c : SimulationCounts) (d : Controller.Delivery) :
    (c.add d).passes = c.passes + if d.event = .rebalance then 1 else 0 := by
  simp only [SimulationCounts.add]
  cases d.outcome with
  | done packet => cases packet <;> split <;> rfl
  | rejected cause => split <;> rfl
  | clockOverflow => split <;> rfl

theorem passes_foldl (c : SimulationCounts) (deliveries : List Controller.Delivery) :
    (deliveries.foldl .add c).passes =
      c.passes + (deliveries.filter (·.event = .rebalance)).length := by
  induction deliveries generalizing c with
  | nil => rfl
  | cons d deliveries ih =>
    rw [List.foldl_cons, ih, passes_add, List.filter_cons]
    by_cases pass : d.event = .rebalance
    · rw [if_pos pass, if_pos (by simpa using pass), List.length_cons]
      omega
    · rw [if_neg pass, if_neg (by simpa using pass)]
      rfl

/-- **A step keeps the passes on pace.** -/
theorem OnPace.deliver (h : s.OnPace settings now)
    (accepted : settings.check = .ok ()) (later : now ≤ next) (done : s.deliver next = some s') :
    s'.OnPace settings next := by
  obtain ⟨sound, rfl, paced⟩ := h
  simp only [Simulation.deliver] at done
  split at done
  · cases done
  · next running =>
    cases done
    have running : (s.controller.runUntil s.queue next).overflowed = false := by
      simpa using running
    have watched : Controller.Watched s.controller (s.controller.runUntil s.queue next) :=
      Controller.watched_runUntil sound
    -- the run counts the passes of this step on top of those before it
    have paced' := paced.runUntil sound accepted rfl later running
    refine ⟨watched.sound, Controller.settings_eq_of_given watched.given, ?_⟩
    dsimp only
    rw [passes_foldl]
    rwa [Controller.Run.timesOf, List.length_map] at paced'

theorem earlier_le (later finish : Time) : (Time.earlier later finish).nanos ≤ finish.nanos := by
  simp only [Time.earlier]
  split
  · next before => exact before
  · exact Nat.le_refl _

/-- Time goes on in every step, and not beyond the end. -/
theorem forward_of_add {later : Time} (running : now < finish) (positive : 0 < step.nanos)
    (add : now.add? step = some later) :
    now.nanos < (Time.earlier later finish).nanos ∧
      (Time.earlier later finish).nanos ≤ finish.nanos := by
  have running : now.nanos < finish.nanos := running
  have sum := Time.add_eq_some_iff.1 add
  refine ⟨?_, earlier_le later finish⟩
  simp only [Time.earlier]
  split
  · omega
  · exact running

/-- **A simulation that comes to its end is on pace there.** -/
theorem OnPace.advance (h : s.OnPace settings now) (accepted : settings.check = .ok ())
    (positive : 0 < step.nanos) (before : now ≤ finish)
    (done : s.advance step now finish = some s') : s'.OnPace settings finish := by
  fun_induction Simulation.advance s step now finish with
  | case1 s now running overflow => cases done
  | case2 s now running later add next failed => cases done
  | case3 s now running later add next s₁ delivered forward ih =>
    have paced := h.deliver accepted (Nat.le_of_lt forward.1) delivered
    exact ih (paced.reportAll step) forward.2 done
  | case4 s now running later add next s₁ delivered stuck =>
    -- no step takes no time, as the poll interval is positive
    exact absurd (forward_of_add running positive add) stuck
  | case5 s now finished =>
    cases done
    have same : now = finish := Time.ext_nanos (Nat.le_antisymm before (Nat.le_of_not_lt finished))
    exact same ▸ h

/-- The clock can show every interval after a time. -/
def Room (settings : Settings) (now : Time) : Prop :=
  ∀ e interval, settings.interval? e = some interval → now.nanos + interval.nanos < clockRange

theorem Room.mono (room : Room settings finish) (upTo : now.nanos ≤ finish.nanos) :
    Room settings now := by
  intro e interval comes
  exact Nat.lt_of_le_of_lt (Nat.add_le_add_right upTo _) (room e interval comes)

theorem room_ofSeconds {duration : UInt64}
    (polls : duration.toNat + settings.pollInterval.toNat < UInt64.size)
    (passes : duration.toNat + settings.rebalanceInterval.toNat < UInt64.size) :
    Room settings (.ofSeconds duration) := by
  have seconds {s : UInt64} (h : duration.toNat + s.toNat < UInt64.size) :
      (Time.ofSeconds duration).nanos + (Time.ofSeconds s).nanos < clockRange := by
    change duration.toNat * nanosPerSecond + s.toNat * nanosPerSecond < _
    rw [← Nat.add_mul]
    exact Nat.mul_lt_mul_of_pos_right h (by decide)
  intro e interval comes
  cases e with
  | pollEnergy =>
    cases comes
    exact seconds polls
  | rebalance =>
    cases comes
    exact seconds passes
  | switchConnected _ => cases comes
  | packetIn _ _ _ => cases comes
  | flowRemoved _ _ _ => cases comes

theorem OnPace.exists_deliver (h : s.OnPace settings now) (room : Room settings next) :
    ∃ s', s.deliver next = some s' := by
  obtain ⟨sound, rfl, _⟩ := h
  have running := Controller.overflowed_runUntil sound room
  rw [Simulation.deliver, running]
  exact ⟨_, rfl⟩

/-- A simulation comes to its end if the clock can show every interval after it. -/
theorem OnPace.exists_advance (h : s.OnPace settings now) (accepted : settings.check = .ok ())
    (room : Room settings finish) (shown : finish.nanos + step.nanos < clockRange) :
    ∃ s', s.advance step now finish = some s' := by
  fun_induction Simulation.advance s step now finish with
  | case1 s now running overflow =>
    exfalso
    have running : now.nanos < finish.nanos := running
    have inRange : now.nanos + step.nanos < clockRange := by omega
    have add : now.add? step = some ⟨_, inRange⟩ := Time.add_eq_some_iff.2 rfl
    rw [add] at overflow
    cases overflow
  | case2 s now running later add next failed =>
    exfalso
    have upTo : next.nanos ≤ finish.nanos := earlier_le later finish
    obtain ⟨s', delivered⟩ := h.exists_deliver (room.mono upTo)
    rw [failed] at delivered
    cases delivered
  | case3 s now running later add next s₁ delivered forward ih =>
    have paced := h.deliver accepted (Nat.le_of_lt forward.1) delivered
    exact ih (paced.reportAll step)
  | case4 s now running later add next s₁ delivered stuck => exact ⟨_, rfl⟩
  | case5 s now finished => exact ⟨_, rfl⟩

/-! ### Whole simulations -/

theorem run_eq_ok_iff {result : Option (Simulation W)} :
    run metric p d = .ok result ↔ ∃ s, start? metric p d = .ok s ∧
      s.advance p.settings.pollTime .zero (.ofSeconds p.duration) = result := by
  rw [run]
  simp only [bind_eq_ok_iff]
  refine exists_congr fun s => and_congr_right fun _ => ?_
  exact ⟨Except.ok.inj, congrArg _⟩

/-- A plan is refused exactly if what is drawn is not admitted. -/
theorem exists_run_error_iff (metric : Metric W) (accepted : p.settings.check = .ok ()) :
    (∃ e, run metric p d = .error e) ↔ ¬ p.Admits d := by
  have starts : (∃ s, start? metric p d = .ok s) ↔ p.Admits d := by
    rw [exists_start_iff, and_iff_right accepted]
  rw [← starts, run]
  cases start? metric p d with
  | error e => exact iff_of_true ⟨e, rfl⟩ (by simp)
  | ok s => exact iff_of_false (by rintro ⟨e, ⟨⟩⟩) (not_not_intro ⟨s, rfl⟩)

/-- A simulation that is admitted comes to its end if the clock can show what is due after it. -/
theorem exists_run (metric : Metric W) (accepted : p.settings.check = .ok ())
    (admits : p.Admits d) (polls : p.duration.toNat + p.settings.pollInterval.toNat < UInt64.size)
    (passes : p.duration.toNat + p.settings.rebalanceInterval.toNat < UInt64.size) :
    ∃ s, run metric p d = .ok (some s) := by
  obtain ⟨s, started⟩ := (exists_start_iff metric).2 ⟨accepted, admits⟩
  have room := room_ofSeconds polls passes
  obtain ⟨s', done⟩ := (start_onPace started).exists_advance accepted room (room .pollEnergy _ rfl)
  exact ⟨s', run_eq_ok_iff.2 ⟨s, started, done⟩⟩

theorem passes_of_run (accepted : p.settings.check = .ok ())
    (done : run metric p d = .ok (some s)) :
    s.counts.passes = p.duration.toNat / p.settings.rebalanceInterval.toNat := by
  obtain ⟨s₀, started, ended⟩ := run_eq_ok_iff.1 done
  have positive := (Settings.interval_pos accepted).1
  exact ((start_onPace started).advance accepted positive (Nat.zero_le _) ended).passes_eq

/-- **Periodic work neither drifts, nor doubles, nor stops.** Along every run of the event loop into
    which nothing that comes back is put from outside, polls and passes come at the multiples of
    their intervals one after another, and each waits exactly once for the multiple after these. So
    there is always a next event, which can be taken out without a limit. A simulation makes as
    many passes as fit into its duration, whatever is drawn. It is refused exactly if what is drawn
    is not admitted, and else comes to its end if the clock can show what is due after it. If flows
    can start from every host, all that can be drawn is admitted. -/
theorem periodic_exact (metric : Metric W) (accepted : settings.check = .ok ()) :
    (∀ (t : Topology) (telemetry : Telemetry) (forecast : Forecast) (k₀ : Controller W)
        (r : Controller.Run W) (pushed : List Event),
      Controller.start? metric settings t telemetry forecast = .ok k₀ →
      Controller.Loop k₀ r pushed → (∀ e ∈ pushed, ¬ e.Periodic) → r.overflowed = false →
      Controller.OnTime r .pollEnergy settings.pollTime 0 ∧
        Controller.OnTime r .rebalance settings.rebalanceTime 0 ∧
        ∃ time event queue r', r.queue.pop = some ((time, event), queue) ∧
          r.next? time = some r' ∧
          r'.controller = (r.controller.handle event time queue).controller ∧
          r'.queue = (r.controller.handle event time queue).queue) ∧
    ∀ (p : SimulationPlan) (d : SimulationDraws), p.settings = settings →
      (∀ s, run metric p d = .ok (some s) →
        s.counts.passes = p.duration.toNat / settings.rebalanceInterval.toNat) ∧
      ((∃ e, run metric p d = .error e) ↔ ¬ p.Admits d) ∧
      (p.Admits d → p.duration.toNat + settings.pollInterval.toNat < UInt64.size →
        p.duration.toNat + settings.rebalanceInterval.toNat < UInt64.size →
        ∃ s, run metric p d = .ok (some s)) ∧
      (p.Ready → p.CanDraw d → p.Admits d) := by
  constructor
  · intro t telemetry forecast k₀ r pushed started loop outside running
    have same : k₀.settings = settings := by
      obtain ⟨_, _, made⟩ := bind_eq_ok_iff.1 started
      cases made
      rfl
    obtain ⟨polls, passes⟩ := loop.periodic_onTime outside running
    rw [same] at polls passes
    obtain ⟨time, event, queue, out⟩ := polls.exists_pop
    obtain ⟨r', next, delivered⟩ := Controller.exists_next running out (Nat.le_refl _)
    exact ⟨polls, passes, time, event, queue, r', out, next, delivered.controller,
      delivered.requeued⟩
  · rintro p d rfl
    exact ⟨fun s => passes_of_run accepted, exists_run_error_iff metric accepted,
      exists_run metric accepted, SimulationPlan.Ready.admits⟩

/-- Fifty seconds between two hosts, with a pass every twenty seconds. -/
def twoHostsPlan : SimulationPlan where
  topology := Controller.twoHosts
  settings := (Controller.metered 10 20).settings
  forecast := .empty
  flows := 1
  hot := 1
  duration := 50

/-- Both hosts are drawn for the one flow, and one of the two switches is hot. -/
def twoHostsDraws : SimulationDraws where
  hot := [3]
  flows := [{ ends := [1, 0], start := 7, lifetime := 60 }]

theorem periodic_exact_twoHosts :
    (Controller.metered 10 20).settings.check = .ok () ∧
      Controller.start? Metric.hops (Controller.metered 10 20).settings Controller.twoHosts .empty
        .empty = .ok (Controller.metered 10 20) ∧
      Controller.Loop (Controller.metered 10 20) (Controller.meteredRun 10 20)
        [.switchConnected 1] ∧
      (∀ e ∈ [Event.switchConnected 1], ¬ e.Periodic) ∧
      (Controller.meteredRun 10 20).overflowed = false ∧
      Controller.OnTime (Controller.meteredRun 10 20) .pollEnergy (.ofSeconds 10) 0 ∧
      Controller.OnTime (Controller.meteredRun 10 20) .rebalance (.ofSeconds 20) 0 ∧
      (Controller.meteredRun 10 20).timesOf .pollEnergy = [.ofSeconds 10] ∧
      twoHostsPlan.Ready ∧ twoHostsPlan.CanDraw twoHostsDraws ∧
      (∃ s, run Metric.hops twoHostsPlan twoHostsDraws = .ok (some s) ∧ s.counts.passes = 2) ∧
      ∃ e, run Metric.hops { twoHostsPlan with topology := .empty } twoHostsDraws = .error e := by
  have accepted : (Controller.metered 10 20).settings.check = .ok () := rfl
  have started : Controller.start? Metric.hops (Controller.metered 10 20).settings
      Controller.twoHosts .empty .empty = .ok (Controller.metered 10 20) := rfl
  have loop := Controller.loop_meteredRun 10 20 (by decide +kernel)
  have outside : ∀ e ∈ [Event.switchConnected 1], ¬ e.Periodic := by decide
  have running : (Controller.meteredRun 10 20).overflowed = false := by decide +kernel
  have came : (Controller.meteredRun 10 20).timesOf .pollEnergy = [.ofSeconds 10] := by
    decide +kernel
  have ready : twoHostsPlan.Ready := by
    have hosts : twoHostsPlan.topology.hosts = [0, 1] := by decide
    refine ⟨by decide, .inr (by rw [hosts]; decide), ?_⟩
    rw [hosts]
    simp only [List.forall_mem_cons, List.not_mem_nil, false_implies, implies_true, and_true]
    exact ⟨⟨rfl, 2, rfl, by decide⟩, rfl, 3, rfl, by decide⟩
  have drawn : twoHostsPlan.CanDraw twoHostsDraws := by
    have hosts : twoHostsPlan.topology.hosts = [0, 1] := by decide
    have switches : twoHostsPlan.topology.switches = [2, 3] := by decide
    have flow (P : FlowDraw → Prop) (one : P { ends := [1, 0], start := 7, lifetime := 60 }) :
        ∀ f ∈ twoHostsDraws.flows, P f := by
      intro f hf
      rwa [List.mem_singleton.1 hf]
    refine ⟨?_, rfl, ?_, flow _ (by decide), flow _ (by decide)⟩
    · rw [switches]
      exact ⟨(List.sublist_cons_self 2 [3]).subperm, rfl⟩
    · apply flow
      rw [hosts]
      exact ⟨(List.Perm.swap 0 1 []).subperm, rfl⟩
  obtain ⟨loops, simulations⟩ := periodic_exact Metric.hops accepted
  obtain ⟨polls, passes, _⟩ := loops _ _ _ _ _ _ started loop outside running
  obtain ⟨counted, _, ends, admitted⟩ := simulations twoHostsPlan twoHostsDraws rfl
  obtain ⟨s, ran⟩ := ends (admitted ready drawn) (by decide) (by decide)
  obtain ⟨_, refused, _⟩ :=
    simulations { twoHostsPlan with topology := .empty } twoHostsDraws rfl
  refine ⟨accepted, started, loop, outside, running, polls, passes, came, ready, drawn,
    ⟨s, ran, counted s ran⟩, refused.2 ?_⟩
  -- an empty network has no hosts for the flow
  intro admits
  obtain ⟨source, _, _, ⟨addressed, _⟩, _⟩ := admits.fits _ List.mem_cons_self
  cases addressed

end Simulation

end PathControl
