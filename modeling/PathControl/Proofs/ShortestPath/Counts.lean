/-
  PathControl/Proofs/ShortestPath/Counts.lean
  ===========================================
  **Paths of least count.**

  Sums of counts keep their order whatever is added, so a search by the number of
  links or by the forwarding load competes with every admissible walk.
-/
import PathControl.Proofs.ShortestPath.Least
import PathControl.Proofs.Weight.Counts

namespace PathControl

open Weight

/-- An admissible path that costs no more than any admissible walk. -/
structure Topology.IsLeast {W : Type} [Weight W] (t : Topology) (c : Calculator W)
    (source target : NodeId) (path : List NodeId) : Prop where
  admissible : t.AdmissibleWalk source target path
  least : ∃ w, c.walkWeight path = some w ∧ Viable w ∧
    ∀ walk w', t.AdmissibleWalk source target walk → c.walkWeight walk = some w' → Le w w'

namespace CountWeight

variable {W : Type} [Weight W] [CountWeight W] {t : Topology} {c : Calculator W}
  {source target : NodeId}

theorem competes : Competes t c source (fun _ _ => True) where
  longer _ _ total _ := le_combine total
  better _ _ _ le total total' viable _ := by
    have le' := combine_mono le total' total
    exact ⟨viable_iff.2 (Nat.lt_of_le_of_lt (le_iff.1 le') (viable_iff.1 viable)), le'⟩

theorem isLeast_of_shortestPath {path : List NodeId}
    (h : t.shortestPath c source target = .ok path) : t.IsLeast c source target path := by
  obtain ⟨admissible, w, weight, viable, least⟩ := t.shortestPath_least h competes
  refine ⟨admissible, w, weight, viable, ?_⟩
  intro walk w' walked weight'
  by_cases usable : Viable w'
  · exact least walk w' (walkTo_of_admissible walked weight' usable fun _ _ _ _ _ _ => trivial)
  · -- a walk that must not be used is at the limit
    have := amount_le w
    have := amount_le w'
    rw [viable_iff] at usable
    rw [le_iff]
    omega

end CountWeight

namespace Topology

/-- **Searches by the number of links and by the forwarding load return paths of least weight**,
    whatever the nodes weigh and whichever are excluded. -/
theorem shortestPath_isLeast (t : Topology) (source target : NodeId) :
    (∀ (c : Calculator HopCount) (path : List NodeId),
      t.shortestPath c source target = .ok path → t.IsLeast c source target path) ∧
    (∀ (c : Calculator Bandwidth) (path : List NodeId),
      t.shortestPath c source target = .ok path → t.IsLeast c source target path) :=
  ⟨fun _ _ => CountWeight.isLeast_of_shortestPath, fun _ _ => CountWeight.isLeast_of_shortestPath⟩

/-- Two ways between two switches, through one switch each. -/
def square : Topology :=
  ((((((((empty.addSwitch "near" 1).addSwitch "left" 2).addSwitch "right" 3).addSwitch
    "far" 4).addLink 0 1).addLink 1 3).addLink 0 2).addLink 2 3)

theorem shortestPath_isLeast_square :
    (let c : Calculator HopCount := .ofWeights #[⟨0⟩, ⟨1⟩, ⟨0⟩, ⟨0⟩] ⟨1⟩
     square.shortestPath c 0 3 = .ok [0, 2, 3] ∧ square.IsLeast c 0 3 [0, 2, 3]) ∧
    (let c : Calculator Bandwidth := (Calculator.ofWeights #[⟨0⟩, ⟨9⟩, ⟨5⟩, ⟨0⟩] ⟨0⟩).excluding [2]
     square.shortestPath c 0 3 = .ok [0, 1, 3] ∧ square.IsLeast c 0 3 [0, 1, 3]) :=
  ⟨⟨by cbv, (shortestPath_isLeast square 0 3).1 _ _ (by cbv)⟩,
    ⟨by cbv, (shortestPath_isLeast square 0 3).2 _ _ (by cbv)⟩⟩

end Topology

end PathControl
