/-
  PathControl/Proofs/ShortestPath/NoPath.lean
  ===========================================
  **What it means that a search fails.**

  By every weight here, viable parts make up a viable whole as long as it is in range.
  So a search offers a way to each node of a walk whose links are viable, and it ends
  without a path only if no such walk leads to the target, or if some weight leaves
  its range. The second may happen at a link that leads away from the target, and then
  nothing is said of the walks to it (`loaded`).
-/
import PathControl.Proofs.ShortestPath.Complete
import PathControl.Proofs.ShortestPath.Counts
import PathControl.Proofs.Weight.FlexWeight

namespace PathControl

open Weight

variable {W : Type} [Weight W] {t : Topology} {c : Calculator W} {source target : NodeId}
  {walk : List NodeId}

/-! ### Walks that can be used -/

/-- Every link of a walk has a viable weight. -/
def Calculator.Usable (c : Calculator W) (walk : List NodeId) : Prop :=
  ∀ hop ∈ hops walk, ∃ e, c.linkWeight hop.1 hop.2 = some e ∧ Viable e

/-- A search that ends comes to a viable score at each node of such a walk. -/
theorem Calculator.Usable.assured [ClosedWeight W] (usable : c.Usable walk)
    (h : t.AdmissibleWalk source target walk) :
    Assured t c source target (fun _ => True) := by
  apply assured_of_admissible (B := fun _ _ _ => True) h
  · intro front x a b _ _
    trivial
  · trivial
  · intro front x y a _ _
    trivial
  · intro front x y found a e b begins _ way _ _ link total
    -- the link is one of the walk's, and its weight is what the sum adds
    have hop : (x, y) ∈ hops walk :=
      mem_hops_of_part begins.isInfix (by rw [hops_concat]; exact List.mem_concat_self)
    obtain ⟨e', link', viable⟩ := usable (x, y) hop
    cases link.symm.trans link'
    have before : Viable a := way.viable ClosedWeight.viable_initial
    exact ⟨ClosedWeight.viable_of_parts total before viable, trivial⟩

/-! ### Failures -/

namespace Topology

/-- What the failures of a search say about the walks from its source. -/
structure Conclusive (t : Topology) (c : Calculator W) (source target : NodeId) : Prop where
  causes : ∀ e, t.shortestPath c source target = .error e →
    e = .noPath source target ∨ e = .weightOverflow
  noPath : t.shortestPath c source target = .error (.noPath source target) →
    ∀ walk, t.AdmissibleWalk source target walk → ¬ c.Usable walk
  usable : (∃ walk, t.AdmissibleWalk source target walk ∧ c.Usable walk) →
    (∃ path, t.shortestPath c source target = .ok path) ∨
      t.shortestPath c source target = .error .weightOverflow
  overflow : t.shortestPath c source target = .error .weightOverflow →
    ∃ n walk, t.AdmissibleWalk source n walk ∧ c.walkWeight walk = none

/-- The link that takes a weight out of range is the last of an admissible walk. -/
theorem exists_outOfRange [LawfulWeight W] (inside : t.contains source = true)
    (found : PathControl.settle t c source target [] (Frontier.start source) = none) :
    ∃ n walk, t.AdmissibleWalk source n walk ∧ c.walkWeight walk = none := by
  obtain ⟨walk, x, a, y, way, _, passable, linked, out⟩ := outOfRange_of_settle inside found
  obtain ⟨front, rfl⟩ := way.eq_concat
  refine ⟨y, front ++ [x] ++ [y], way.admissible.concat passable linked, ?_⟩
  rw [c.walkWeight_concat, way.walkWeight_eq]
  exact out

theorem conclusive [ClosedWeight W] (inside : t.contains source = true)
    (reachable : t.contains target = true) : t.Conclusive c source target := by
  have failed {e : Error} := shortestPath_eq_error_iff (t := t) (c := c) (e := e) inside reachable
  have unusable : t.shortestPath c source target = .error (.noPath source target) →
      ∀ walk, t.AdmissibleWalk source target walk → ¬ c.Usable walk := by
    intro h walk admissible usable
    rcases failed.1 h with ⟨_, other⟩ | ⟨f, found, notViable, _⟩
    · cases other
    · exact notViable (viable_of_assured inside ClosedWeight.viable_initial
        (usable.assured admissible) found).2
  constructor
  · intro e h
    rcases failed.1 h with ⟨_, overflow⟩ | ⟨f, _, _, noPath⟩
    · exact Or.inr overflow
    · exact Or.inl noPath
  · exact unusable
  · rintro ⟨walk, admissible, usable⟩
    cases h : t.shortestPath c source target with
    | ok path => exact Or.inl ⟨path, rfl⟩
    | error e =>
      rcases failed.1 h with ⟨_, rfl⟩ | ⟨f, _, _, rfl⟩
      · exact Or.inr rfl
      · exact absurd usable (unusable h walk admissible)
  · intro h
    rcases failed.1 h with ⟨found, _⟩ | ⟨f, _, _, other⟩
    · exact exists_outOfRange inside found
    · cases other

/-- **A search that fails has a reason.** If it finds no path then no admissible walk to the target
    has viable links only, and if it gives up then the weight of some admissible walk from the
    source is out of range. -/
theorem shortestPath_conclusive (inside : t.contains source = true)
    (reachable : t.contains target = true) :
    (∀ c : Calculator HopCount, t.Conclusive c source target) ∧
      (∀ c : Calculator Bandwidth, t.Conclusive c source target) ∧
      (∀ c : Calculator FlexWeight, t.Conclusive c source target) ∧
      ∀ c : Calculator CpuUsage, t.Conclusive c source target :=
  ⟨fun _ => conclusive inside reachable, fun _ => conclusive inside reachable,
    fun _ => conclusive inside reachable, fun _ => conclusive inside reachable⟩

/-- One of the two ways through the square carries almost more than can be counted. -/
def loaded : Calculator Bandwidth := .ofWeights #[⟨0⟩, ⟨18446744073709551613⟩, ⟨5⟩, ⟨0⟩] ⟨2⟩

/-- Nothing leads past both switches in the middle, and the loaded way spoils the search for the
    other one. -/
theorem shortestPath_conclusive_square :
    square.contains 0 = true ∧ square.contains 3 = true ∧
      square.shortestPath (loaded.excluding [1, 2]) 0 3 = .error (.noPath 0 3) ∧
      (∀ walk, square.AdmissibleWalk 0 3 walk → ¬ (loaded.excluding [1, 2]).Usable walk) ∧
      square.shortestPath loaded 0 3 = .error .weightOverflow ∧
      ∃ n walk, square.AdmissibleWalk 0 n walk ∧ loaded.walkWeight walk = none := by
  have blocked : square.shortestPath (loaded.excluding [1, 2]) 0 3 = .error (.noPath 0 3) := by
    cbv
  have spoilt : square.shortestPath loaded 0 3 = .error .weightOverflow := by cbv
  have inside : square.contains 0 = true := rfl
  have reachable : square.contains 3 = true := rfl
  have spec := (shortestPath_conclusive inside reachable).2.1
  exact ⟨inside, reachable, blocked, (spec _).noPath blocked, spoilt, (spec _).overflow spoilt⟩

end Topology

end PathControl
