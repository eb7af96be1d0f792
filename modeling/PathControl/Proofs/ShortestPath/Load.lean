/-
  PathControl/Proofs/ShortestPath/Load.lean
  =========================================
  **Routing by the forwarding load spares the switches of a route, not its links.**

  The weight of a link is the load of both its ends, so a walk counts every switch
  inside it twice (`amount_of_walkTo`), in words that run out and with one load that
  means that a switch must not be used. A route between two hosts has its switches
  inside, so its weight is twice the load of its switches as long as that is in range,
  and a route whose weight is out of range or not viable carries more load than any
  that was found (`shortestPathBetween_load_le`).
-/
import PathControl.Proofs.Rule
import PathControl.Proofs.ShortestPath.Counts
import PathControl.Proofs.ShortestPath.Energy
import PathControl.Proofs.SwitchPath
import Mathlib.Algebra.BigOperators.Group.Finset.Basic
import Mathlib.Algebra.Ring.Nat

namespace PathControl

open Weight CountWeight

/-- A route that visits no node twice and has hosts at its ends only. -/
structure Topology.SimpleRoute (t : Topology) (source target : NodeId) (route : List NodeId) :
    Prop where
  first : route.head? = some source
  last : route.getLast? = some target
  linked : t.isPath route = true
  nodup : route.Nodup
  transit : ∀ n ∈ interior route, t.isHost n = false

theorem Topology.SimpleRoute.admissible {t : Topology} {source target : NodeId}
    {route : List NodeId} (h : t.SimpleRoute source target route) :
    t.AdmissibleWalk source target route := by
  refine ⟨h.first, h.last, h.linked, ?_⟩
  intro n hn host
  rw [h.transit n hn] at host
  cases host

theorem Topology.Found.simpleRoute {W : Type} [Weight W] {t : Topology} {c : Calculator W}
    {source target : NodeId} {path : List NodeId} (found : t.Found c source target path) :
    t.SimpleRoute source target path := by
  obtain ⟨w, walk⟩ := found.walkTo
  have admissible := walk.admissible
  refine ⟨admissible.first, admissible.last, admissible.linked, found.nodup, ?_⟩
  intro n hn
  by_contra host
  rw [Bool.not_eq_false] at host
  cases (isSwitch_eq_false host).symm.trans (found.isSwitch_of_mem_interior hn)

namespace Snapshot

variable {s : Snapshot} {source target a b n x : NodeId} {walk route : List NodeId}
  {w : Bandwidth}

/-! ### Loads -/

/-- The forwarding load of a node; hosts have none. -/
def nodeLoad (s : Snapshot) (n : NodeId) : Nat :=
  if s.topology.isSwitch n then (s.telemetry.loadOf n).toNat else 0

/-- The forwarding load of the switches among some nodes, each counted once. -/
def load (s : Snapshot) (nodes : List NodeId) : Nat :=
  ∑ n ∈ nodes.toFinset with s.topology.isSwitch n = true, (s.telemetry.loadOf n).toNat

theorem load_eq_sum (nodup : route.Nodup) : s.load route = (route.map s.nodeLoad).sum := by
  rw [load, Finset.sum_filter, List.sum_toFinset _ nodup]
  rfl

theorem nodeLoad_of_isHost (host : s.topology.isHost n = true) : s.nodeLoad n = 0 := by
  rw [nodeLoad, Topology.isSwitch_eq_false host]
  rfl

/-! ### Weights of walks -/

theorem amount_nodeWeight (inside : s.topology.contains n = true) :
    amount ((Metric.bandwidth.calculator s).nodeWeight n) = s.nodeLoad n := by
  rw [nodeWeight_calculator Metric.bandwidth inside]
  simp only [Metric.bandwidth, nodeLoad]
  split
  · rfl
  · rfl

theorem linkWeight_bandwidth : (Metric.bandwidth.calculator s).linkWeight a b =
    combine ((Metric.bandwidth.calculator s).nodeWeight a)
      ((Metric.bandwidth.calculator s).nodeWeight b) := by
  change Option.bind _ (fun ends => combine ends (initial : Bandwidth)) = _
  simp only [combine_initial]
  exact Option.bind_fun_some _

/-- A walk counts its ends once and every other visit to a node twice. -/
theorem amount_of_walkTo {P : NodeId → Bandwidth → Prop}
    (h : WalkTo s.topology (Metric.bandwidth.calculator s) source P walk x w) :
    amount w + s.nodeLoad source + s.nodeLoad x = 2 * (walk.map s.nodeLoad).sum := by
  induction h with
  | start =>
    rw [List.map_singleton, List.sum_singleton]
    change 0 + _ + _ = _
    omega
  | @step walk x y a e b front passable linked link total viable admitted ih =>
    obtain ⟨_, usable⟩ := ClosedWeight.toLawfulWeight.viable_of_combine total viable
    have sum := amount_combine total
    have range := viable_iff.1 viable
    have ends := amount_combine (linkWeight_bandwidth.symm.trans link)
    have rangeEnds := viable_iff.1 usable
    rw [amount_nodeWeight (Topology.contains_of_linked (Topology.linked_symm linked)),
      amount_nodeWeight (Topology.contains_of_linked linked)] at ends
    rw [List.map_append, List.sum_append, List.map_singleton, List.sum_singleton]
    -- the new link counts `x` once more and `y` for the first time
    omega

/-- A walk whose doubled load is in range has a weight that is in range. -/
theorem exists_walkTo_of_load (h : s.topology.AdmissibleWalk source target route)
    (range : 2 * (route.map s.nodeLoad).sum < limit Bandwidth) :
    ∃ w, WalkTo s.topology (Metric.bandwidth.calculator s) source (fun _ _ => True) route
      target w := by
  apply exists_walkTo h
  intro front x a y built begins linked
  have before := amount_of_walkTo built
  obtain ⟨rest, rfl⟩ := begins
  obtain ⟨inner, rfl⟩ := built.eq_concat
  simp only [List.map_append, List.sum_append, List.map_singleton, List.sum_singleton]
    at before range
  have loadX := amount_nodeWeight (Topology.contains_of_linked (Topology.linked_symm linked))
  have loadY := amount_nodeWeight (Topology.contains_of_linked linked)
  obtain ⟨e, link, ends⟩ : ∃ e, combine ((Metric.bandwidth.calculator s).nodeWeight x)
      ((Metric.bandwidth.calculator s).nodeWeight y) = some e ∧ _ :=
    exists_combine (by rw [loadX, loadY]; omega)
  rw [loadX, loadY] at ends
  obtain ⟨b, total, sum⟩ : ∃ b, combine a e = some b ∧ _ := exists_combine (by omega)
  exact ⟨b, Calculator.extend_eq_some_iff.2 ⟨e, linkWeight_bandwidth.trans link, total⟩,
    viable_iff.2 (by omega)⟩

/-! ### Routes between two hosts -/

theorem amount_between (sourceHost : s.topology.isHost source = true)
    (targetHost : s.topology.isHost target = true) (nodup : route.Nodup)
    (h : WalkTo s.topology (Metric.bandwidth.calculator s) source (fun _ _ => True) route
      target w) : amount w = 2 * s.load route := by
  have sum := amount_of_walkTo h
  rw [nodeLoad_of_isHost sourceHost, nodeLoad_of_isHost targetHost] at sum
  rw [load_eq_sum nodup]
  exact sum

/-- **Routing by the forwarding load returns a route whose switches carry the least load**: a route
    between two hosts by which a search routes is simple, and no simple route between them has a
    smaller sum of loads, whether its own weight is in range and viable or not. -/
theorem shortestPathBetween_load_le {sender receiver : HostAddress} {path : List NodeId}
    (h : s.topology.shortestPathBetween (Metric.bandwidth.calculator s) sender receiver =
      .ok path) :
    ∃ source target, s.topology.hostWith? sender = some source ∧
      s.topology.hostWith? receiver = some target ∧ s.topology.SimpleRoute source target path ∧
      ∀ route, s.topology.SimpleRoute source target route → s.load path ≤ s.load route := by
  obtain ⟨source, sends, h⟩ := bind_eq_ok_iff.1 h
  obtain ⟨target, receives, h⟩ := bind_eq_ok_iff.1 h
  rw [Topology.hostWith_eq_ok_iff] at sends receives
  have sourceHost := Topology.isHost_of_hostWith? sends
  have targetHost := Topology.isHost_of_hostWith? receives
  have found := Topology.found_of_shortestPath h
  refine ⟨source, target, sends, receives, found.simpleRoute, ?_⟩
  intro route simple
  obtain ⟨w, walked⟩ := found.walkTo
  obtain ⟨w', weight, viable, least⟩ := (isLeast_of_shortestPath h).least
  obtain rfl : w = w' := Option.some.inj (walked.walkWeight_eq.symm.trans weight)
  have double := amount_between sourceHost targetHost found.nodup walked
  have range := viable_iff.1 viable
  by_cases small : 2 * (route.map s.nodeLoad).sum < limit Bandwidth
  · obtain ⟨b, other⟩ := exists_walkTo_of_load simple.admissible small
    have le := le_iff.1 (least route b simple.admissible other.walkWeight_eq)
    have double' := amount_between sourceHost targetHost simple.nodup other
    omega
  · -- the other route carries more than any weight in range can count
    rw [load_eq_sum simple.nodup]
    omega

/-- Two hosts with two ways between them, one through a switch whose load, counted twice, does not
    fit into a word. -/
def lopsided : Snapshot where
  topology :=
    (((((((Topology.empty.addHost "near" (some (.ofOctets 10 0 0 1)) ⟨1⟩).addHost "far"
      (some (.ofOctets 10 0 0 2)) ⟨2⟩).addSwitch "up" 1).addSwitch "down" 2).addLink 0 2).addLink 2
      1).addLink 0 3).addLink 3 1
  telemetry := (Telemetry.empty.setLoad 2 9223372036854775808).setLoad 3 5
  energy := .empty .perFlowRead
  forecast := .empty
  now := .zero

theorem shortestPathBetween_load_le_lopsided :
    lopsided.topology.shortestPathBetween (Metric.bandwidth.calculator lopsided)
        (.ip (.ofOctets 10 0 0 1)) (.ip (.ofOctets 10 0 0 2)) = .ok [0, 3, 1] ∧
      lopsided.load [0, 3, 1] = 5 ∧ lopsided.topology.SimpleRoute 0 1 [0, 2, 1] ∧
      (Metric.bandwidth.calculator lopsided).walkWeight [0, 2, 1] = none ∧
      lopsided.load [0, 3, 1] ≤ lopsided.load [0, 2, 1] := by
  have found : lopsided.topology.shortestPath (Metric.bandwidth.calculator lopsided) 0 1 =
      .ok [0, 3, 1] := Topology.shortestPath_of_within 6 (by decide) (by decide +kernel)
  have between : lopsided.topology.shortestPathBetween (Metric.bandwidth.calculator lopsided)
      (.ip (.ofOctets 10 0 0 1)) (.ip (.ofOctets 10 0 0 2)) = .ok [0, 3, 1] := found
  have other : lopsided.topology.SimpleRoute 0 1 [0, 2, 1] :=
    ⟨rfl, rfl, by decide, by decide, by decide⟩
  obtain ⟨source, target, sends, receives, _, least⟩ := shortestPathBetween_load_le between
  cases (show lopsided.topology.hostWith? (.ip (.ofOctets 10 0 0 1)) = some 0 by decide).symm.trans
    sends
  cases (show lopsided.topology.hostWith? (.ip (.ofOctets 10 0 0 2)) = some 1 by decide).symm.trans
    receives
  exact ⟨between, by rw [load_eq_sum (by decide)]; decide +kernel, other, by decide +kernel,
    least _ other⟩

end Snapshot

end PathControl
