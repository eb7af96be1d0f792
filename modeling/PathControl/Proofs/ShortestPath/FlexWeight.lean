/-
  PathControl/Proofs/ShortestPath/FlexWeight.lean
  ===============================================
  **When a search by the energy-aware weight returns a path of least weight.**

  A search keeps the best way to every node, and an unsaturated way is better than
  every saturated one. If all ways on from a node are saturated, it may be the way
  that was saturated early, and dropped, that has fewer violations in the end. So a
  returned path is a least one only of the walks that are not saturated early, and
  it is beaten exactly if one of the others costs less than all of these
  (`shortestPath_beaten_iff`); `detour` is a network where that is so.
-/
import PathControl.Metric
import PathControl.Proofs.ShortestPath.Least
import PathControl.Proofs.Weight.FlexWeight

namespace PathControl

open Weight

variable {t : Topology} {c : Calculator FlexWeight} {source target x : NodeId}
  {walk : List NodeId} {w : FlexWeight}

/-- Some admissible walk leads to a node without running through a saturated switch. -/
def Unsaturated (t : Topology) (c : Calculator FlexWeight) (source x : NodeId) : Prop :=
  ∃ walk w, t.AdmissibleWalk source x walk ∧ c.walkWeight walk = some w ∧ Viable w ∧
    w.saturated = false

/-- The walk reaches a node other than its source through a saturated switch although there is
    an unsaturated way to that node. -/
def SaturatedEarly (t : Topology) (c : Calculator FlexWeight) (source : NodeId)
    (walk : List NodeId) : Prop :=
  ∃ front n a, front ++ [n] <+: walk ∧ n ≠ source ∧ c.walkWeight (front ++ [n]) = some a ∧
    a.saturated = true ∧ Unsaturated t c source n

/-! ### Walks and saturation -/

namespace FlexWeight

theorem viable_of_walkTo {P : NodeId → FlexWeight → Prop} (h : WalkTo t c source P walk x w) :
    Viable w :=
  h.viable ClosedWeight.viable_initial

theorem inRange_of_walkTo {P : NodeId → FlexWeight → Prop} (h : WalkTo t c source P walk x w) :
    w.violations.toNat < 4294967295 := by
  cases h with
  | start => decide
  | step _ _ _ _ total viable _ =>
    exact (combined_of_viable total viable).inRange

theorem rank_le_of_walkTo {P : NodeId → FlexWeight → Prop} (h : WalkTo t c source P walk x w) :
    (Weight.initial : FlexWeight).usage.rank ≤ w.usage.rank := by
  induction h with
  | start => exact Int.le_refl _
  | step front passable linked link total viable admitted ih =>
    rw [(combined_of_viable total viable).usage]
    omega

/-- Walks that are never saturated where they need not be are compared with what a search
    finds. -/
theorem competes : Competes t c source
    (fun n a => n ≠ source → Unsaturated t c source n → a.saturated = false) where
  longer _ _ total viable := (combined_of_viable total viable).le
  better {walk found x y a a' e b b'} front way home le total total' viable _ := by
    obtain ⟨viableA, viableE⟩ := LawfulWeight.viable_of_combine total viable
    have whole := combined total viableA viableE
    have whole' := combined total' (viable_of_walkTo way) viableE
    refine ⟨whole'.viable, ?_⟩
    by_cases same : x = source
    · -- no weight is lower than the initial one in any part
      rw [home same] at whole'
      have violations : (Weight.initial : FlexWeight).violations.toNat = 0 := rfl
      have hops : (Weight.initial : FlexWeight).hops.toNat = 0 := rfl
      exact combine_mono_of_parts (rank_le_of_walkTo front) (by omega) (by omega) whole' whole
    · refine combine_mono ?_ le whole' whole
      cases high : a'.saturated with
      | true => rw [saturated_of_le le high]
      | false =>
        cases front with
        | start => exact absurd rfl same
        | step _ _ _ _ _ _ admitted =>
          exact (admitted same ⟨found, a', way.admissible, way.walkWeight_eq,
            viable_of_walkTo way, high⟩).symm

theorem saturated_of_prefix {front : List NodeId} {n : NodeId} {a : FlexWeight}
    (begins : front ++ [n] <+: walk) (weightA : c.walkWeight (front ++ [n]) = some a)
    (weight : c.walkWeight walk = some w) (viable : Viable w) (high : a.saturated = true) :
    w.saturated = true := by
  obtain ⟨rest, rfl⟩ := begins
  induction rest using List.reverseRecOn generalizing w with
  | nil =>
    rw [List.append_nil, weightA] at weight
    cases weight
    exact high
  | append_singleton rest y ih =>
    obtain ⟨inner, z, eq⟩ : ∃ inner z, front ++ [n] ++ rest = inner ++ [z] :=
      ⟨_, _, (List.dropLast_concat_getLast (by simp)).symm⟩
    rw [← List.append_assoc, eq, c.walkWeight_concat, Option.bind_eq_some_iff] at weight
    obtain ⟨b, weightB, step⟩ := weight
    obtain ⟨e, link, total⟩ := Calculator.extend_eq_some_iff.1 step
    obtain ⟨viableB, viableE⟩ := LawfulWeight.viable_of_combine total viable
    rw [(combined total viableB viableE).saturated, ih viableB (by rw [eq, weightB])]
    rfl

/-- A search competes with every unsaturated walk. -/
theorem walkTo_of_unsaturated (walked : t.AdmissibleWalk source target walk)
    (weight : c.walkWeight walk = some w) (viable : Viable w) (low : w.saturated = false) :
    WalkTo t c source (fun n a => n ≠ source → Unsaturated t c source n → a.saturated = false)
      walk target w := by
  apply walkTo_of_admissible walked weight viable
  intro front n a begins _ weightA _ _
  rw [← Bool.not_eq_true]
  intro high
  have whole := saturated_of_prefix begins weightA weight viable high
  rw [low] at whole
  cases whole

theorem viable_of_less {w' : FlexWeight} (walked : t.AdmissibleWalk source target walk)
    (weight : c.walkWeight walk = some w) (viable : Viable w) (better : less w' w = true) :
    Viable w' := by
  have built : WalkTo t c source (fun _ _ => True) walk target w :=
    walkTo_of_admissible walked weight viable fun _ _ _ _ _ _ => trivial
  by_contra unusable
  exact less_iff.1 better (le_of_not_viable (inRange_of_walkTo built) unusable)

end FlexWeight

/-! ### Paths that can be beaten -/

namespace Topology

def Beats (t : Topology) (c : Calculator FlexWeight) (source target : NodeId) (w : FlexWeight)
    (walk : List NodeId) : Prop :=
  t.AdmissibleWalk source target walk ∧ ∃ w', c.walkWeight walk = some w' ∧ less w' w = true

/-- Some admissible walk that is saturated early costs less than all that are not. -/
def EarlyIsLess (t : Topology) (c : Calculator FlexWeight) (source target : NodeId) : Prop :=
  ∃ walk w, t.AdmissibleWalk source target walk ∧ c.walkWeight walk = some w ∧
    SaturatedEarly t c source walk ∧
    ∀ late w', t.AdmissibleWalk source target late → c.walkWeight late = some w' →
      ¬ SaturatedEarly t c source late → less w w' = true

variable {path : List NodeId}

/-- A returned path runs through no saturated switch before it must. -/
theorem not_saturatedEarly_of_shortestPath (h : t.shortestPath c source target = .ok path) :
    ¬ SaturatedEarly t c source path := by
  rintro ⟨front, n, a, begins, away, weightA, high, way, w, walked, weight, viable, low⟩
  have late := FlexWeight.walkTo_of_unsaturated walked weight viable low
  have le := shortestPath_front_le h FlexWeight.competes begins weightA late
  rw [FlexWeight.unsaturated_of_le le low] at high
  cases high

/-- What beats a returned path is saturated early. -/
theorem saturatedEarly_of_beats (h : t.shortestPath c source target = .ok path)
    (weight : c.walkWeight path = some w) (beats : t.Beats c source target w walk) :
    w.saturated = true ∧ SaturatedEarly t c source walk := by
  obtain ⟨admissible, v, weightV, viable, least⟩ := t.shortestPath_least h FlexWeight.competes
  obtain rfl : v = w := Option.some.inj (weightV.symm.trans weight)
  obtain ⟨walked, w', weight', better⟩ := beats
  have usable : Viable w' := FlexWeight.viable_of_less admissible weight viable better
  have early : SaturatedEarly t c source walk := by
    by_contra late
    refine less_iff.1 better (least walk w' (walkTo_of_admissible walked weight' usable ?_))
    intro front n a begins _ weightA away reached
    rw [← Bool.not_eq_true]
    intro high
    exact late ⟨front, n, a, begins, away, weightA, high, reached⟩
  refine ⟨?_, early⟩
  obtain ⟨front, n, a, begins, _, weightA, high, _⟩ := early
  have highW := FlexWeight.saturated_of_prefix begins weightA weight' usable high
  exact FlexWeight.saturated_of_le (le_of_less better) highW

/-- **A returned path is viable, and it is beaten by some admissible walk exactly if one that is
    saturated early costs less than all that are not.** Only such walks beat it, and only if it is
    saturated itself. -/
theorem shortestPath_beaten_iff (h : t.shortestPath c source target = .ok path) :
    t.AdmissibleWalk source target path ∧ ∃ w, c.walkWeight path = some w ∧ Viable w ∧
      ((∃ walk, t.Beats c source target w walk) ↔ t.EarlyIsLess c source target) ∧
      ∀ walk, t.Beats c source target w walk →
        w.saturated = true ∧ SaturatedEarly t c source walk := by
  obtain ⟨admissible, w, weight, viable, least⟩ := t.shortestPath_least h FlexWeight.competes
  refine ⟨admissible, w, weight, viable, ⟨?_, ?_⟩, ?_⟩
  · rintro ⟨walk, beats⟩
    obtain ⟨walked, w', weight', better⟩ := beats
    have early := (saturatedEarly_of_beats h weight ⟨walked, w', weight', better⟩).2
    refine ⟨walk, w', walked, weight', early, ?_⟩
    intro late w'' walkedLate weightLate notEarly
    have notBeaten : ¬ less w'' w = true := by
      intro worse
      exact notEarly (saturatedEarly_of_beats h weight ⟨walkedLate, w'', weightLate, worse⟩).2
    exact less_of_less_of_le better (not_less_iff.1 (Bool.eq_false_iff.2 notBeaten))
  · rintro ⟨walk, w', walked, weight', _, below⟩
    exact ⟨walk, walked, w', weight',
      below path w admissible weight (not_saturatedEarly_of_shortestPath h)⟩
  · intro walk beats
    exact saturatedEarly_of_beats h weight beats

end Topology

/-- Two ways lead from `a` to `d`, through `b`, which draws more than its budget, and through `c`,
    which is used to its limit. The way on to `e` is saturated in any case. -/
def detour : Snapshot where
  topology := ((((((((((Topology.empty.addSwitch "a" 1).addSwitch "b" 2).addSwitch "c" 3).addSwitch
    "d" 4).addSwitch "e" 5).addLink 0 1).addLink 0 2).addLink 1 3).addLink 2 3).addLink 3 4)
  telemetry := ((Telemetry.empty.setPower 1 2.0).setCpu 2 1.0).setCpu 4 1.0
  energy := [1, 2, 3, 4, 5].foldl (fun e dpid => e.register dpid 0.0 .zero)
    (.empty .forecastNormalized)
  forecast := ["a", "b", "c", "d", "e"].foldl
    (fun f device => f.insert device [1.0, 1.0] [0.0, 0.0]) .empty
  now := .ofSeconds 900

theorem shortestPath_detour :
    detour.topology.shortestPath (Metric.flex.calculator detour) 0 4 = .ok [0, 1, 3, 4] :=
  Topology.shortestPath_of_within 6 (by decide) (by decide +kernel)

/-- **The path that a search returns can be beaten**: the walk through `c` violates no budget. -/
theorem beaten_detour :
    detour.topology.shortestPath (Metric.flex.calculator detour) 0 4 = .ok [0, 1, 3, 4] ∧
      ∃ w, (Metric.flex.calculator detour).walkWeight [0, 1, 3, 4] = some w ∧
        detour.topology.Beats (Metric.flex.calculator detour) 0 4 w [0, 2, 3, 4] :=
  ⟨shortestPath_detour, ⟨.one, 2, 3⟩, rfl, ⟨rfl, rfl, rfl, by decide +kernel⟩, ⟨.one, 0, 3⟩, rfl,
    by decide +kernel⟩

theorem shortestPath_beaten_iff_detour :
    detour.topology.shortestPath (Metric.flex.calculator detour) 0 4 = .ok [0, 1, 3, 4] ∧
      detour.topology.AdmissibleWalk 0 4 [0, 1, 3, 4] ∧
      ∃ w, (Metric.flex.calculator detour).walkWeight [0, 1, 3, 4] = some w ∧ Viable w ∧
        ((∃ walk, detour.topology.Beats (Metric.flex.calculator detour) 0 4 w walk) ↔
          detour.topology.EarlyIsLess (Metric.flex.calculator detour) 0 4) ∧
        ∀ walk, detour.topology.Beats (Metric.flex.calculator detour) 0 4 w walk →
          w.saturated = true ∧
            SaturatedEarly detour.topology (Metric.flex.calculator detour) 0 walk :=
  ⟨shortestPath_detour, Topology.shortestPath_beaten_iff shortestPath_detour⟩

end PathControl
