/-
  PathControl/Proofs/ShortestPath/Complete.lean
  =============================================
  **When a search comes to a path.**

  A search has two ways to fail. It gives up if one more link after a route takes the
  weight out of its range; that depends on the route and the link, not on what else
  the search knows (`outOfRange_of_settle`). And nothing may be left that waits; but
  then every node with a bound is settled, and the target never is. So where no weight
  leaves its range, a walk to the target with bounds is enough for a path
  (`Topology.exists_shortestPath`).
-/
import PathControl.Proofs.ShortestPath.Least

namespace PathControl

variable {W : Type} [Weight W] {t : Topology} {c : Calculator W} {source target : NodeId}
  {P : NodeId → W → Prop} {settled : List NodeId} {f : Frontier W}

/-! ### Offers out of range -/

namespace Frontier

theorem relax_of_not_mem {node next : NodeId} (score : W) (fresh : next ∉ settled) :
    f.relax c settled node score next = (c.extend score (node, next)).map (f.offer node next) := by
  simp only [relax, Calculator.extend]
  rw [if_neg fresh]
  cases c.linkWeight node next with
  | none => rfl
  | some link => cases total : Weight.combine score link <;> simp [total]

/-- Offers fail because of a link, whatever was offered before. -/
theorem exists_of_foldlM_relax {node : NodeId} {score : W} {next : List NodeId}
    (h : next.foldlM (relax c settled node score) f = none) :
    ∃ y ∈ next, c.extend score (node, y) = none := by
  induction next generalizing f with
  | nil => cases h
  | cons y next ih =>
    rw [List.foldlM_cons, Option.bind_eq_bind, Option.bind_eq_none_iff] at h
    cases offered : f.relax c settled node score y with
    | none =>
      -- an offer to a settled node is not made, so it cannot fail
      refine ⟨y, List.mem_cons_self, ?_⟩
      by_cases old : y ∈ settled
      · simp [relax, old] at offered
      · rwa [relax_of_not_mem score old, Option.map_eq_none_iff] at offered
    | some g =>
      obtain ⟨z, hz, out⟩ := ih (h g offered)
      exact ⟨z, List.mem_cons_of_mem _ hz, out⟩

end Frontier

variable [LawfulWeight W]

/-- **A search gives up only if one more link after a simple walk takes the weight out of its
    range.** -/
theorem outOfRange_of_settle (inside : t.contains source = true)
    (h : settle t c source target [] (Frontier.start source) = none) :
    ∃ walk x a y, WalkTo t c source (fun _ _ => True) walk x a ∧ walk.Nodup ∧
      (x = source ∨ t.isHost x = false) ∧ t.linked x y = true ∧ c.extend a (x, y) = none := by
  have stop : SearchEnd t c source target _ := settle_end Searching.start
  rw [h] at stop
  cases stop with
  | @overflow settled f entry rest before next away passable offers =>
    obtain ⟨y, near, out⟩ := Frontier.exists_of_foldlM_relax offers
    obtain ⟨previous, known⟩ := (before.sound inside).final next
    obtain ⟨walk, route⟩ := (before.sound inside).routed _ _ known
    exact ⟨walk, entry.label, entry.score, y, route.walkTo, route.nodup, passable,
      (t.mem_neighbors_iff _ y).1 near, out⟩

/-! ### Paths that exist -/

/-- **A search that keeps some bound at the target ends with a viable score for it**, unless a weight
    leaves its range. -/
theorem viable_of_assured (inside : t.contains source = true)
    (usable : Weight.Viable (Weight.initial : W)) {bound : W → Prop}
    (assured : Assured t c source target bound) {g : Frontier W}
    (found : settle t c source target [] (Frontier.start source) = some g) :
    t.contains target = true ∧ Weight.Viable (g.score target) := by
  have stop : SearchEnd t c source target _ := settle_end Searching.start
  rw [found] at stop
  cases stop with
  | exhausted before pop =>
    -- the walk ends in a settled node, or something waits on it
    exfalso
    have holds := before.holds_of_settled inside
    rcases before.settled_or_waiting inside holds assured with done | ⟨entry, waits, _⟩
    · exact before.target_not_mem done
    · rw [MinQueue.toList_eq_nil_of_pop pop] at waits
      cases waits
  | @arrived settled f entry rest before next here =>
    subst here
    have sound := before.sound inside
    obtain ⟨previous, known⟩ := sound.final next
    obtain ⟨way, route⟩ := sound.routed _ _ known
    have score : f.score entry.label = entry.score := Frontier.score_eq known
    change _ ∧ Weight.Viable (f.score entry.label)
    rw [score]
    exact ⟨next.inside, route.walkTo.viable usable⟩

/-- **A search that keeps some bound at the target returns a path, unless a weight leaves its
    range.** -/
theorem Topology.exists_shortestPath (inside : t.contains source = true)
    (usable : Weight.Viable (Weight.initial : W))
    (range : ∀ walk x a y, WalkTo t c source (fun _ _ => True) walk x a → walk.Nodup →
      t.linked x y = true → c.extend a (x, y) ≠ none)
    {bound : W → Prop} (assured : Assured t c source target bound) :
    ∃ path, t.shortestPath c source target = .ok path := by
  cases found : PathControl.settle t c source target [] (Frontier.start source) with
  | none =>
    exfalso
    obtain ⟨way, x, b, y, front, nodup, _, linked, out⟩ := outOfRange_of_settle inside found
    exact range way x b y front nodup linked out
  | some g =>
    obtain ⟨reachable, viable⟩ := viable_of_assured inside usable assured found
    exact ⟨_, shortestPath_eq_ok_iff.2 ⟨inside, reachable, g, found, viable, rfl⟩⟩

end PathControl
