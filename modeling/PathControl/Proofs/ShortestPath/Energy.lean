/-
  PathControl/Proofs/ShortestPath/Energy.lean
  ===========================================
  **Routes that avoid saturated switches, and what the energy-aware weight says of them.**

  A route is clear if it is simple, has hosts at its ends only, and runs through no
  saturated switch. The weight counts links, not switches: a violating switch inside a
  walk counts on two links, one at an end counts on one (`Tally`). So between two fixed
  nodes the weight orders clear routes by their violating switches, then by their
  links, then by their peak utilization.

  Where there is a clear route a search returns one, and none is better
  (`shortestPath_clear`).
-/
import PathControl.Proofs.ShortestPath.Complete
import PathControl.Proofs.ShortestPath.FlexWeight

namespace PathControl

open Weight

namespace Snapshot

variable {s : Snapshot} {source target a b n x : NodeId} {route walk : List NodeId}
  {w : FlexWeight}

/-! ### Switches -/

/-- A switch whose utilization is one or more, or not a number. -/
def Saturated (s : Snapshot) (n : NodeId) : Prop :=
  s.topology.isSwitch n = true ∧
    ∀ r, Reading.ofFloat? (s.telemetry.cpuOf n) = some r → Reading.one.rank ≤ r.rank

/-- Whether a switch is known to have drawn more than its budget. -/
def violating (s : Snapshot) (n : NodeId) : Bool :=
  s.topology.isSwitch n && Metric.marginOrZero s n < 0.0

/-- What a node adds to the utilization of a route. -/
def usage (s : Snapshot) (n : NodeId) : Reading :=
  if s.topology.isSwitch n then (Reading.ofFloat? (s.telemetry.cpuOf n)).getD Reading.one
  else Reading.zero

theorem saturated_iff : s.Saturated n ↔ Reading.one.rank ≤ (s.usage n).rank := by
  simp only [Saturated, usage]
  by_cases switch : s.topology.isSwitch n = true
  · rw [if_pos switch]
    cases Reading.ofFloat? (s.telemetry.cpuOf n) <;> simp [switch]
  · rw [if_neg switch]
    have idle : ¬ Reading.one.rank ≤ Reading.zero.rank := by decide
    simp [switch, idle]

/-! ### Routes -/

/-- A simple route with hosts at its ends only and without a saturated switch. -/
structure ClearRoute (s : Snapshot) (source target : NodeId) (route : List NodeId) : Prop where
  first : route.head? = some source
  last : route.getLast? = some target
  linked : s.topology.isPath route = true
  nodup : route.Nodup
  transit : ∀ n ∈ interior route, s.topology.isHost n = false
  clear : ∀ n ∈ route, ¬ s.Saturated n

/-- The highest utilization on a route, at least zero. -/
def peak (s : Snapshot) (route : List NodeId) : Reading :=
  route.foldl (fun r n => Reading.max r (s.usage n)) Reading.zero

/-- Fewer violating switches, then fewer links, then a lower peak utilization. -/
def NoWorse (s : Snapshot) (route other : List NodeId) : Prop :=
  route.countP s.violating < other.countP s.violating ∨
    route.countP s.violating = other.countP s.violating ∧
      ((hops route).length < (hops other).length ∨ (hops route).length = (hops other).length ∧
        (s.peak route).rank ≤ (s.peak other).rank)

theorem ClearRoute.admissible (h : s.ClearRoute source target route) :
    s.topology.AdmissibleWalk source target route := by
  refine ⟨h.first, h.last, h.linked, ?_⟩
  intro n hn host
  rw [h.transit n hn] at host
  cases host

theorem rank_peak_concat (route : List NodeId) (n : NodeId) :
    (s.peak (route ++ [n])).rank = max (s.peak route).rank (s.usage n).rank := by
  simp only [peak]
  rw [List.foldl_append]
  exact Reading.rank_max _ _

theorem rank_peak_nonneg (route : List NodeId) : 0 ≤ (s.peak route).rank := by
  induction route using List.reverseRecOn with
  | nil => exact Int.le_refl 0
  | append_singleton route n ih =>
    rw [rank_peak_concat]
    omega

theorem rank_peak_lt_one_iff :
    (s.peak route).rank < Reading.one.rank ↔ ∀ n ∈ route, ¬ s.Saturated n := by
  induction route using List.reverseRecOn with
  | nil =>
    have idle : Reading.zero.rank < Reading.one.rank := by decide
    simp [peak, idle]
  | append_singleton route n ih =>
    rw [rank_peak_concat, List.forall_mem_append, List.forall_mem_singleton, ← ih, saturated_iff]
    omega

/-! ### Weights of links -/

theorem nodeWeight_calculator {W : Type} [Weight W] (m : Metric W)
    (inside : s.topology.contains n = true) :
    (m.calculator s).nodeWeight n = m.nodeWeight s n := by
  have bound : n < s.topology.size := by simpa [Topology.contains, Topology.size] using inside
  simp [Metric.calculator, Calculator.ofWeights, Topology.nodeIds, bound]

theorem counts_nodeWeight (inside : s.topology.contains n = true) :
    ((Metric.flex.calculator s).nodeWeight n).Counts (s.usage n).rank (s.violating n).toNat 0 := by
  rw [nodeWeight_calculator Metric.flex inside]
  simp only [Metric.flex, usage, violating]
  cases switch : s.topology.isSwitch n with
  | false => exact ⟨ClosedWeight.viable_initial, rfl, rfl, rfl⟩
  | true =>
    have count (v : Bool) : (if v then 1 else 0 : UInt32).toNat = v.toNat := by cases v <;> rfl
    refine ⟨FlexWeight.viable_of_inRange ?_, rfl, count _, rfl⟩
    have small := Bool.toNat_le (decide (Metric.marginOrZero s n < 0.0))
    rw [if_pos rfl]
    change (if _ then 1 else 0 : UInt32).toNat < _
    rw [count]
    omega

/-- The switches that a pass visits are the violating ones. -/
theorem violates_eq (inside : s.topology.contains n = true) :
    (Metric.flex.calculator s).violates n = s.violating n := by
  have violations := (counts_nodeWeight inside).violations
  simp only [Calculator.violates, Weight.violates]
  rw [Bool.eq_iff_iff, bne_iff_ne, Ne, ← UInt32.toNat_inj, violations]
  cases s.violating n <;> simp

theorem counts_hop : Metric.flex.hop.Counts 0 0 1 :=
  ⟨FlexWeight.viable_of_inRange (by decide), by decide, by decide, by decide⟩

/-- A link counts both of its nodes, and itself. -/
theorem exists_linkWeight (linked : s.topology.linked a b = true) :
    ∃ e, (Metric.flex.calculator s).linkWeight a b = some e ∧
      e.Counts (max (max (s.usage a).rank (s.usage b).rank) 0)
        ((s.violating a).toNat + (s.violating b).toNat) 1 := by
  have countsA := counts_nodeWeight (Topology.contains_of_linked (Topology.linked_symm linked))
  have countsB := counts_nodeWeight (Topology.contains_of_linked linked)
  have smallA := Bool.toNat_le (s.violating a)
  have smallB := Bool.toNat_le (s.violating b)
  obtain ⟨ends, joined, both⟩ := countsA.exists_combine countsB (by omega) (by decide)
  obtain ⟨e, total, counts⟩ := both.exists_combine counts_hop (by omega) (by decide)
  refine ⟨e, ?_, counts⟩
  change (do
    let ends ← Weight.combine ((Metric.flex.calculator s).nodeWeight a)
      ((Metric.flex.calculator s).nodeWeight b)
    Weight.combine ends Metric.flex.hop) = some e
  rw [joined]
  exact total

/-! ### Weights of walks -/

/-- What the weight of a walk counts. A node inside the walk is an end of two links, the first and
    the last node are ends of one. -/
structure Tally (s : Snapshot) (source x : NodeId) (walk : List NodeId) (w : FlexWeight) :
    Prop where
  violations : w.violations.toNat + (s.violating source).toNat + (s.violating x).toNat =
    2 * walk.countP s.violating
  hops : w.hops.toNat = (hops walk).length
  usage : max w.usage.rank (s.usage x).rank = (s.peak walk).rank

theorem tally_of_walkTo {P : NodeId → FlexWeight → Prop}
    (h : WalkTo s.topology (Metric.flex.calculator s) source P walk x w) :
    s.Tally source x walk w := by
  have one (n : NodeId) : [n].countP s.violating = (s.violating n).toNat := by
    rw [List.countP_singleton]
    cases s.violating n <;> rfl
  induction h with
  | start =>
    refine ⟨?_, rfl, ?_⟩
    · rw [one]
      change 0 + _ + _ = _
      omega
    · exact (Reading.rank_max _ _).symm
  | @step walk x y a e b front passable linked link total viable admitted ih =>
    have whole := FlexWeight.combined_of_viable total viable
    obtain ⟨e', link', counts⟩ := exists_linkWeight linked
    obtain rfl : e = e' := Option.some.inj (link.symm.trans link')
    obtain ⟨inner, rfl⟩ := front.eq_concat
    have violations := ih.violations
    have usage := ih.usage
    have positive := rank_peak_nonneg (s := s) (inner ++ [x])
    -- the new link counts `x` once more and `y` for the first time
    refine ⟨?_, ?_, ?_⟩
    · rw [List.countP_append, one, whole.violations, counts.violations]
      omega
    · rw [whole.hops, ih.hops, counts.hops, hops_concat, List.length_append]
      rfl
    · rw [rank_peak_concat, whole.usage, counts.usage]
      omega

variable {P : NodeId → FlexWeight → Prop}

/-- A walk that leads away from its source has all its nodes on links. -/
theorem usage_of_walkTo (h : WalkTo s.topology (Metric.flex.calculator s) source P walk x w)
    (away : x ≠ source) : w.usage.rank = (s.peak walk).rank := by
  have usage := (tally_of_walkTo h).usage
  cases h with
  | start => exact absurd rfl away
  | step front passable linked link total viable admitted =>
    have whole := FlexWeight.combined_of_viable total viable
    obtain ⟨e, link', counts⟩ := exists_linkWeight linked
    cases link.symm.trans link'
    have last := counts.usage
    rw [whole.usage] at usage ⊢
    omega

/-- A simple walk visits too few nodes for its weight to leave the range. -/
theorem exists_extend (h : WalkTo s.topology (Metric.flex.calculator s) source P walk x w)
    (small : s.topology.size ≤ 65535) (inside : s.topology.contains source = true)
    (nodup : walk.Nodup) {y : NodeId} (linked : s.topology.linked x y = true) :
    ∃ b, (Metric.flex.calculator s).extend w (x, y) = some b ∧ Viable b := by
  have short := Topology.length_le_size nodup (h.inside inside)
  have tally := tally_of_walkTo h
  have violations := tally.violations
  have few : walk.countP s.violating ≤ walk.length := List.countP_le_length
  have hops : w.hops.toNat ≤ walk.length := by
    rw [tally.hops, PathControl.hops, List.length_zip]
    omega
  have smallX := Bool.toNat_le (s.violating x)
  have smallY := Bool.toNat_le (s.violating y)
  obtain ⟨e, link, counts⟩ := exists_linkWeight linked
  have own : w.Counts w.usage.rank w.violations.toNat w.hops.toNat :=
    ⟨FlexWeight.viable_of_walkTo h, rfl, rfl, rfl⟩
  obtain ⟨b, total, sum⟩ := own.exists_combine counts (by omega) (by omega)
  exact ⟨b, Calculator.extend_eq_some_iff.2 ⟨e, link, total⟩, sum.viable⟩

/-! ### Searching for a clear route -/

theorem ClearRoute.saturated_eq_false (h : s.ClearRoute source target route)
    (walked : WalkTo s.topology (Metric.flex.calculator s) source P route target w) :
    w.saturated = false := by
  have usage := (tally_of_walkTo walked).usage
  have low := rank_peak_lt_one_iff.2 h.clear
  rw [FlexWeight.saturated_eq_false_iff]
  omega

/-- A search competes with every clear route. -/
theorem ClearRoute.exists_walkTo (h : s.ClearRoute source target route)
    (small : s.topology.size ≤ 65535) (inside : s.topology.contains source = true) :
    ∃ w, WalkTo s.topology (Metric.flex.calculator s) source
      (fun n a => n ≠ source → Unsaturated s.topology (Metric.flex.calculator s) source n →
        a.saturated = false) route target w := by
  obtain ⟨w, walked⟩ : ∃ w, WalkTo s.topology (Metric.flex.calculator s) source
      (fun _ _ => True) route target w := by
    apply PathControl.exists_walkTo h.admissible
    intro front x a y built begins linked
    have part : front <+: route := (List.prefix_append _ _).trans begins
    exact exists_extend built small inside (h.nodup.sublist part.sublist) linked
  exact ⟨w, FlexWeight.walkTo_of_unsaturated h.admissible walked.walkWeight_eq
    (FlexWeight.viable_of_walkTo walked) (h.saturated_eq_false walked)⟩

theorem ClearRoute.exists_shortestPath (h : s.ClearRoute source target route)
    (small : s.topology.size ≤ 65535) (inside : s.topology.contains source = true) :
    ∃ path, s.topology.shortestPath (Metric.flex.calculator s) source target = .ok path := by
  obtain ⟨w, walked⟩ := h.exists_walkTo small inside
  refine Topology.exists_shortestPath inside ClosedWeight.viable_initial ?_
    (FlexWeight.competes.assured walked)
  intro walk x a y front nodup linked out
  obtain ⟨b, extended, _⟩ := exists_extend front small inside nodup linked
  cases out.symm.trans extended

theorem eq_singleton_of_nodup (nodup : walk.Nodup) (first : walk.head? = some n)
    (last : walk.getLast? = some n) : walk = [n] := by
  cases walk with
  | nil => cases first
  | cons a rest =>
    cases first
    cases rest with
    | nil => rfl
    | cons b rest =>
      rw [List.getLast?_cons_cons] at last
      exact absurd (List.mem_of_getLast? last) (List.nodup_cons.1 nodup).1

/-- A simple walk of unsaturated weight is a clear route. -/
theorem clearRoute_of_found {path : List NodeId}
    (found : s.topology.Found (Metric.flex.calculator s) source target path)
    (walked : WalkTo s.topology (Metric.flex.calculator s) source P path target w)
    (away : target ≠ source) (low : w.saturated = false) : s.ClearRoute source target path := by
  have admissible := walked.admissible
  refine ⟨admissible.first, admissible.last, admissible.linked, found.nodup, ?_, ?_⟩
  · intro n hn
    by_contra host
    rw [Bool.not_eq_false] at host
    obtain rfl := admissible.transit n hn host
    obtain ⟨rest, rfl⟩ := List.head?_eq_some_iff.1 admissible.first
    exact (List.nodup_cons.1 found.nodup).1 (List.dropLast_subset _ hn)
  · apply rank_peak_lt_one_iff.1
    rw [← usage_of_walkTo walked away]
    exact (FlexWeight.saturated_eq_false_iff w).1 low

/-- Between two nodes the weight orders unsaturated walks as their routes are ordered. -/
theorem noWorse_of_le {path other : List NodeId} {w' : FlexWeight}
    (walked : WalkTo s.topology (Metric.flex.calculator s) source (fun _ _ => True) path target w)
    (walked' : WalkTo s.topology (Metric.flex.calculator s) source P other target w')
    (away : target ≠ source) (agree : w.saturated = w'.saturated) (le : Le w w') :
    s.NoWorse path other := by
  have tally := tally_of_walkTo walked
  have tally' := tally_of_walkTo walked'
  have violations := tally.violations
  have violations' := tally'.violations
  rw [FlexWeight.le_iff, agree, usage_of_walkTo walked away, usage_of_walkTo walked' away,
    tally.hops, tally'.hops] at le
  rcases le with ⟨low, high⟩ | ⟨_, le⟩
  · rw [low] at high
    cases high
  · simp only [NoWorse]
    omega

/-- **Where there is a clear route a search returns one, and none is better**: no clear route has
    fewer violating switches, or as many and fewer links, or as many of both and a lower peak
    utilization. -/
theorem shortestPath_clear (small : s.topology.size ≤ 65535)
    (inside : s.topology.contains source = true) (clear : s.ClearRoute source target route) :
    ∃ path, s.topology.shortestPath (Metric.flex.calculator s) source target = .ok path ∧
      s.ClearRoute source target path ∧
      ∀ other, s.ClearRoute source target other → s.NoWorse path other := by
  obtain ⟨path, h⟩ := clear.exists_shortestPath small inside
  have found := Topology.found_of_shortestPath h
  obtain ⟨w, walked⟩ := found.walkTo
  refine ⟨path, h, ?_⟩
  by_cases away : target = source
  · -- no other simple route leads back to its start
    subst away
    have same {other : List NodeId} (nodup : other.Nodup)
        (admissible : s.topology.AdmissibleWalk target target other) : route = other := by
      rw [eq_singleton_of_nodup clear.nodup clear.first clear.last]
      exact (eq_singleton_of_nodup nodup admissible.first admissible.last).symm
    obtain rfl := same found.nodup walked.admissible
    refine ⟨clear, ?_⟩
    intro other clear'
    obtain rfl := same clear'.nodup clear'.admissible
    exact Or.inr ⟨rfl, Or.inr ⟨rfl, Int.le_refl _⟩⟩
  · obtain ⟨_, w', weight, _, least⟩ := Topology.shortestPath_least h FlexWeight.competes
    obtain rfl : w = w' := Option.some.inj (walked.walkWeight_eq.symm.trans weight)
    obtain ⟨b, reached⟩ := clear.exists_walkTo small inside
    have low : w.saturated = false :=
      FlexWeight.unsaturated_of_le (least _ _ reached) (clear.saturated_eq_false reached)
    refine ⟨clearRoute_of_found found walked away low, ?_⟩
    intro other clear'
    obtain ⟨b', reached'⟩ := clear'.exists_walkTo small inside
    exact noWorse_of_le walked reached' away
      (low.trans (clear'.saturated_eq_false reached').symm) (least _ _ reached')

theorem clearRoute_detour : detour.ClearRoute 0 3 [0, 1, 3] := by
  refine ⟨rfl, rfl, by decide, by decide, by decide, ?_⟩
  apply rank_peak_lt_one_iff.1
  decide +kernel

theorem shortestPath_clear_detour :
    detour.topology.size ≤ 65535 ∧ detour.topology.contains 0 = true ∧
      detour.ClearRoute 0 3 [0, 1, 3] ∧
      ∃ path, detour.topology.shortestPath (Metric.flex.calculator detour) 0 3 = .ok path ∧
        detour.ClearRoute 0 3 path ∧
        ∀ other, detour.ClearRoute 0 3 other → detour.NoWorse path other :=
  ⟨by decide, by decide, clearRoute_detour,
    shortestPath_clear (by decide) (by decide) clearRoute_detour⟩

end Snapshot

end PathControl
