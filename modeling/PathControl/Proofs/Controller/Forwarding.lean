/-
  PathControl/Proofs/Controller/Forwarding.lean
  =============================================
  **The switches send every flow along its path.**

  Two things say where the packets of a flow go: the rules that were sent to the
  switches, and the answer to a switch that asks. On an installed path both name the
  port towards the next switch, and the last switch is told the port towards the
  receiver (`reached_forwards`).
-/
import PathControl.Proofs.Controller.Reached

namespace PathControl.Controller

variable {W : Type} {k k₀ : Controller W} {flow : Flow} {path : List NodeId} {i : Nat}
  {n : NodeId}

/-- The port on which the node at an index of a path sends the packets of a flow on: towards the
    next node, or from the last one towards the receiver. -/
def IsPortAt (t : Topology) (flow : Flow) (path : List NodeId) (i : Nat) (n : NodeId)
    (port : Port) : Prop :=
  (∀ next, path[i + 1]? = some next → t.portTowards? n next = some port) ∧
    (path[i + 1]? = none → ∃ host, t.hostWith? flow.key.destination = some host ∧
      t.portTowards? n host = some port)

/-- On a path that carries the flow there is a way on from every node. -/
theorem nextHop?_eq_some (carried : k.topology.Carries flow path) (here : path[i]? = some n) :
    ∃ port, k.nextHop? n path flow = some port ∧ IsPortAt k.topology flow path i n port := by
  obtain ⟨bound, at_⟩ := List.getElem?_eq_some_iff.1 here
  have index : path.idxOf? n = some i := by
    refine List.idxOf?_eq_some_iff.2 ⟨bound, at_, ?_⟩
    intro j hj same
    have := (List.Nodup.getElem_inj_iff carried.nodup).1 (same.trans at_.symm)
    omega
  simp only [nextHop?]
  rw [index]
  change ∃ port, (path[i + 1]?.or (k.topology.hostWith? flow.key.destination) >>=
    fun next => k.topology.portTowards? n next) = some port ∧ _
  cases following : path[i + 1]? with
  | some next =>
    have linked := (k.topology.isPath_iff path).1 carried.linked _
      (mem_hops_of_getElem? here following)
    obtain ⟨port, towards⟩ := Topology.exists_portTowards?_iff.2 linked
    refine ⟨port, towards, ?_, ?_⟩
    · intro other same
      cases following.symm.trans same
      exact towards
    · intro missing
      cases following.symm.trans missing
  | none =>
    obtain ⟨host, last, receiver, isLast, linked⟩ := carried.receiver
    have ended : n = last := by
      have beyond := List.getElem?_eq_none_iff.1 following
      rw [List.getLast?_eq_getElem?, show path.length - 1 = i by omega, here] at isLast
      exact Option.some.inj isLast
    rw [← ended] at linked
    obtain ⟨port, towards⟩ := Topology.exists_portTowards?_iff.2 linked
    rw [receiver]
    refine ⟨port, towards, ?_, ?_⟩
    · intro other same
      cases following.symm.trans same
    · intro _
      exact ⟨host, receiver, towards⟩

variable [Weight W]

/-- A switch that asks about a flow with a path is told the port there, and nothing changes. -/
theorem packetIn_of_known {dpid : Dpid} {header : Header} {inPort : UInt32} {now : Time}
    {port : Port} (asked : k.topology.switchWith? dpid = some n)
    (named : k.flowOf header = .ok flow) (known : k.table.path? flow = some path)
    (next : k.nextHop? n path flow = some port) :
    k.packetIn dpid header inPort now =
      { controller := k, result := .ok (some ⟨dpid, inPort, port⟩) } := by
  have reported : k.reported dpid header = .ok (n, flow) := by
    simp only [reported]
    rw [Topology.switchWith_eq_ok_iff.2 asked, named]
    rfl
  simp only [packetIn, answer]
  rw [reported]
  dsimp only
  rw [known]
  dsimp only
  rw [next]

/-- **The rules in the switches follow the table.** In every reached state the rules sent so far
    make each switch of an installed path but the last send the flow on towards the next one, and
    a switch of the path that asks is told the same port, the last one the port towards the
    receiver. -/
theorem reached_forwards [LawfulWeight W] {metric : Metric W} {settings : Settings}
    {t : Topology} {telemetry : Telemetry} {forecast : Forecast}
    (started : start? metric settings t telemetry forecast = .ok k₀) (reached : Reached k₀ k)
    (known : k.table.path? flow = some path) (here : path[i]? = some n) :
    (∀ next, path[i + 1]? = some next → ∃ dpid port, t.dpid? n = some dpid ∧
      t.portTowards? n next = some port ∧
      Forwarding.empty.replay k.sent.toList dpid flow = some port) ∧
    ∀ dpid header inPort telemetry now queue, t.switchWith? dpid = some n →
      k.flowOf header = .ok flow →
      ∃ port, ({ k with telemetry }.handle (.packetIn dpid header inPort) now queue).outcome =
          .done (some ⟨dpid, inPort, port⟩) ∧ IsPortAt t flow path i n port ∧
        (path[i + 1]? ≠ none →
          Forwarding.empty.replay k.sent.toList dpid flow = some port) := by
  obtain ⟨same, start⟩ := inStep_start started
  have topology : k.topology = t := reached.topology_eq.trans same
  obtain ⟨carried, followed⟩ := reached.inStep start flow path known
  rw [topology] at carried followed
  refine ⟨fun next following => followed (n, next) (mem_hops_of_getElem? here following), ?_⟩
  intro dpid header inPort telemetry now queue asked named
  subst topology
  obtain ⟨port, next, isPort⟩ := nextHop?_eq_some carried here
  refine ⟨port, ?_, isPort, fun inner => ?_⟩
  · have told : { k with telemetry }.packetIn dpid header inPort now = _ :=
      packetIn_of_known asked named known next
    simp only [handle, Handled.ofReaction]
    rw [told]
    rfl
  · obtain ⟨next, following⟩ := Option.ne_none_iff_exists'.1 inner
    obtain ⟨dpid', port', hd, towards, rule⟩ :=
      followed (n, next) (mem_hops_of_getElem? here following)
    rw [Topology.dpid?_of_switchWith? asked] at hd
    cases hd
    rw [isPort.1 next following] at towards
    cases towards
    exact rule

theorem reached_forwards_twoHosts :
    start? Metric.hops Settings.default twoHosts .empty .empty = .ok twoHostsStart ∧
      Reached twoHostsStart twoHostsNext ∧
      twoHostsNext.table.path? twoHostsFlow = some [2, 3] ∧
      Forwarding.empty.replay twoHostsNext.sent.toList 1 twoHostsFlow = some 2 ∧
      (twoHostsNext.handle (.packetIn 1 twoHostsHeader 9) .zero .empty).outcome =
        .done (some ⟨1, 9, 2⟩) := by
  have started : start? Metric.hops Settings.default twoHosts .empty .empty = .ok twoHostsStart :=
    rfl
  have reached : Reached twoHostsStart twoHostsNext :=
    Reached.start.step .empty (.packetIn 1 twoHostsHeader 1) .zero .empty
  obtain ⟨rules, answers⟩ :=
    reached_forwards started reached twoHosts_path (i := 0) (n := 2) rfl
  obtain ⟨dpid, port, named, towards, rule⟩ := rules 3 rfl
  obtain ⟨port', told, isPort, _⟩ := answers 1 twoHostsHeader 9 twoHostsNext.telemetry .zero .empty
    (by decide) (by rw [twoHostsNext_eq]; decide)
  cases (show twoHosts.dpid? 2 = some 1 by decide).symm.trans named
  cases (show twoHosts.portTowards? 2 3 = some 2 by decide).symm.trans towards
  cases (show twoHosts.portTowards? 2 3 = some 2 by decide).symm.trans (isPort.1 3 rfl)
  exact ⟨started, reached, twoHosts_path, rule, told⟩

end PathControl.Controller
