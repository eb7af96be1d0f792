/-
  PathControl/Proofs/ShortestPath/Burden.lean
  ===========================================
  **Searches that leave out nodes, where no switch is saturated.**

  The burden of a path is the number of its violating nodes and, where that is the
  same, the number of its links. The energy-aware weight counts a violating node twice
  inside a walk and once at its ends. The ends are the same for all walks that a
  search chooses from, so the weight orders these by their burden.

  A search between the ends of a walk does not find a greater burden than that of the
  walk, whichever other nodes it leaves out (`burden_le_of_excluding`). Nothing bounds
  the size of the network here: a search that takes a weight out of its range returns
  no path.
-/
import PathControl.Proofs.ShortestPath.Energy
import Mathlib.Data.Prod.Lex

namespace PathControl

open Weight

/-! ### The burden of a path -/

namespace Calculator

variable {W : Type} [Weight W]

/-- How many nodes of a path violate, and then how many links it has. -/
def burden (c : Calculator W) (path : List NodeId) : Nat ×ₗ Nat :=
  toLex (path.countP c.violates, (hops path).length)

theorem burden_le_iff {c : Calculator W} {path other : List NodeId} :
    c.burden path ≤ c.burden other ↔ path.countP c.violates < other.countP c.violates ∨
      path.countP c.violates = other.countP c.violates ∧
        (hops path).length ≤ (hops other).length :=
  Prod.Lex.toLex_le_toLex

end Calculator

namespace Snapshot

variable {s : Snapshot} {source target x : NodeId} {route nodes : List NodeId}

/-! ### The burden that a search keeps to -/

/-- An unsaturated weight at `x` that counts no greater burden than that of a walk to `x`. -/
structure KeepsTo (s : Snapshot) (source : NodeId) (walk : List NodeId) (x : NodeId)
    (w : FlexWeight) : Prop where
  low : w.saturated = false
  burden : toLex (w.violations.toNat + (s.violating source).toNat + (s.violating x).toNat,
    w.hops.toNat) ≤ toLex (2 * walk.countP s.violating, (hops walk).length)

theorem lower_keepsTo (walk : List NodeId) : Lower (s.KeepsTo source walk x) := by
  intro a b le kept
  have burden := Prod.Lex.toLex_le_toLex.1 kept.burden
  have agree := FlexWeight.unsaturated_of_le le kept.low
  refine ⟨agree, Prod.Lex.toLex_le_toLex.2 ?_⟩
  rw [FlexWeight.le_iff, agree, kept.low] at le
  rcases le with ⟨_, high⟩ | ⟨_, le⟩
  · cases high
  · dsimp only at burden ⊢
    omega

theorem countP_concat (walk : List NodeId) (y : NodeId) : (walk ++ [y]).countP s.violating =
    walk.countP s.violating + (s.violating y).toNat := by
  rw [List.countP_append, List.countP_singleton]
  cases s.violating y <;> rfl

theorem keepsTo_initial : s.KeepsTo source [source] source Weight.initial := by
  refine ⟨by decide, Prod.Lex.toLex_le_toLex.2 ?_⟩
  have one := countP_concat (s := s) [] source
  have violations : (Weight.initial : FlexWeight).violations.toNat = 0 := rfl
  have hops : (Weight.initial : FlexWeight).hops.toNat = 0 := rfl
  simp only [List.nil_append, List.countP_nil] at one
  dsimp only
  rw [one, violations, hops]
  omega

/-- A link adds to a weight what it adds to the walk. -/
theorem KeepsTo.step {front : List NodeId} {x y : NodeId} {a e b : FlexWeight}
    (kept : s.KeepsTo source (front ++ [x]) x a) (viable : Viable a)
    (linked : s.topology.linked x y = true) (lowX : ¬ s.Saturated x) (lowY : ¬ s.Saturated y)
    (link : (Metric.flex.calculator s).linkWeight x y = some e) (total : combine a e = some b) :
    Viable b ∧ s.KeepsTo source (front ++ [x] ++ [y]) y b := by
  obtain ⟨e', link', counts⟩ := exists_linkWeight linked
  obtain rfl : e = e' := Option.some.inj (link.symm.trans link')
  have whole := FlexWeight.combined total viable counts.viable
  have burden := Prod.Lex.toLex_le_toLex.1 kept.burden
  have low := (FlexWeight.saturated_eq_false_iff a).1 kept.low
  have usage := counts.usage
  rw [saturated_iff] at lowX lowY
  refine ⟨whole.viable, ?_, Prod.Lex.toLex_le_toLex.2 ?_⟩
  · -- the usage is the greatest on the way, and none of the three reaches one
    rw [FlexWeight.saturated_eq_false_iff, whole.usage, usage]
    have idle : 0 < Reading.one.rank := by decide
    omega
  · dsimp only at burden ⊢
    rw [whole.violations, whole.hops, counts.violations, counts.hops, countP_concat, hops_concat,
      List.length_append, List.length_singleton]
    omega

/-! ### Searching past other nodes -/

/-- A walk between hosts or switches that leads past a list of nodes and through no saturated
    switch. -/
structure LeadsPast (s : Snapshot) (nodes : List NodeId) (source target : NodeId)
    (route : List NodeId) : Prop extends s.topology.AdmissibleWalk source target route where
  clear : ∀ n ∈ route, ¬ s.Saturated n
  apart : ∀ n ∈ route, n ∉ nodes

theorem LeadsPast.assured (h : s.LeadsPast nodes source target route) :
    Assured s.topology ((Metric.flex.calculator s).excluding nodes) source target
      (s.KeepsTo source route target) := by
  refine assured_of_admissible h.toAdmissibleWalk (fun front _ => lower_keepsTo front)
    keepsTo_initial ?_ ?_
  · intro front x y a _ kept
    have burden := Prod.Lex.toLex_le_toLex.1 kept.burden
    refine ⟨kept.low, Prod.Lex.toLex_le_toLex.2 ?_⟩
    dsimp only at burden ⊢
    rw [countP_concat _ x] at burden
    rw [countP_concat _ y, countP_concat _ x, hops_concat, List.length_append,
      List.length_singleton]
    omega
  · intro front x y found a e b begins linked way _ kept link total
    have hx : x ∈ route := begins.subset (by simp)
    have hy : y ∈ route := begins.subset (by simp)
    rw [Calculator.linkWeight_excluding (h.apart x hx) (h.apart y hy)] at link
    exact kept.step (FlexWeight.viable_of_walkTo way) linked (h.clear x hx) (h.clear y hy) link
      total

theorem countP_violates {path : List NodeId} (inside : ∀ n ∈ path, s.topology.contains n = true) :
    path.countP (Metric.flex.calculator s).violates = path.countP s.violating :=
  List.countP_congr fun n hn => by rw [violates_eq (inside n hn)]

/-- **A search past other nodes finds no greater burden than that of a walk past them.** -/
theorem burden_le_of_excluding {path : List NodeId} (h : s.LeadsPast nodes source target route)
    (found : s.topology.shortestPath ((Metric.flex.calculator s).excluding nodes) source target =
      .ok path) :
    (Metric.flex.calculator s).burden path ≤ (Metric.flex.calculator s).burden route := by
  have inside := (Topology.shortestPath_eq_ok_iff.1 found).1
  obtain ⟨⟨w, walked⟩, _, insidePath⟩ := Topology.found_of_shortestPath found
  obtain ⟨front, rfl⟩ := walked.eq_concat
  -- both walks have the same ends, which the weight counts once and the bound once more
  have kept := Topology.shortestPath_holds found (List.prefix_refl _) walked.walkWeight_eq h.assured
  have tally := tally_of_walkTo walked.of_excluding
  have violations := tally.violations
  have burden := Prod.Lex.toLex_le_toLex.1 kept.burden
  rw [Calculator.burden_le_iff, countP_violates insidePath, countP_violates (h.inside inside)]
  have hops := tally.hops
  dsimp only at burden
  omega

end Snapshot

end PathControl
