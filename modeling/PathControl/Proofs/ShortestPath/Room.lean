/-
  PathControl/Proofs/ShortestPath/Room.lean
  =========================================
  **Weights that stay in range on every simple walk.**

  A simple walk visits each node once, so in a network of at most 65535 nodes neither
  its links nor its violations can take a count of 32 bits out of range. By such
  weights a search between two nodes finds a path or says that there is none
  (`Roomy.eq_noPath`), and it finds one if some walk leads past all that is left out
  (`Roomy.exists_shortestPath`).
-/
import PathControl.Proofs.ShortestPath.Energy

namespace PathControl

open Weight

/-! ### Searching with room -/

/-- One more link after a simple walk has a viable weight in range. -/
structure Calculator.Roomy {W : Type} [Weight W] (c : Calculator W) (t : Topology) : Prop where
  usable : Viable (Weight.initial : W)
  exists_extend {source x y : NodeId} {walk : List NodeId} {a : W} :
    t.contains source = true → WalkTo t c source (fun _ _ => True) walk x a → walk.Nodup →
      t.linked x y = true → ∃ b, c.extend a (x, y) = some b ∧ Viable b
  exists_absorb (a : W) : ∃ b, combine a Weight.nonViable = some b

namespace Calculator.Roomy

variable {W : Type} [Weight W] [LawfulWeight W] {c : Calculator W} {t : Topology}
  {source target x y : NodeId} {walk nodes : List NodeId} {a : W}

/-- Leaving out nodes takes no weight out of range. -/
theorem extend_excluding_ne_none (roomy : c.Roomy t) (inside : t.contains source = true)
    (h : WalkTo t (c.excluding nodes) source (fun _ _ => True) walk x a) (nodup : walk.Nodup)
    (linked : t.linked x y = true) : (c.excluding nodes).extend a (x, y) ≠ none := by
  rw [Option.ne_none_iff_exists']
  by_cases out : x ∈ nodes ∨ y ∈ nodes
  · -- the weight of the link is non-viable, and every weight absorbs that
    obtain ⟨b, total⟩ := roomy.exists_absorb a
    exact ⟨b, Calculator.extend_eq_some_iff.2 ⟨_, if_pos out, total⟩⟩
  · obtain ⟨hx, hy⟩ := not_or.1 out
    obtain ⟨b, extended, _⟩ := roomy.exists_extend inside h.of_excluding nodup linked
    refine ⟨b, ?_⟩
    rw [extend_eq_some_iff] at extended ⊢
    rwa [linkWeight_excluding hx hy]

theorem exists_shortestPath (roomy : c.Roomy t) (inside : t.contains source = true)
    (h : t.AdmissibleWalk source target walk) (apart : ∀ n ∈ walk, n ∉ nodes) :
    ∃ path, t.shortestPath (c.excluding nodes) source target = .ok path := by
  refine Topology.exists_shortestPath inside roomy.usable ?_
    (assured_of_admissible (B := fun _ _ _ => True) h ?_ trivial ?_ ?_)
  · intro walk x a y way nodup linked
    exact roomy.extend_excluding_ne_none inside way nodup linked
  · intro front x a b _ _
    trivial
  · intro front x y a _ _
    trivial
  · intro front x y found a e b begins linked way nodup _ link total
    have hx : x ∈ walk := begins.subset (by simp)
    have hy : y ∈ walk := begins.subset (by simp)
    rw [linkWeight_excluding (apart x hx) (apart y hy)] at link
    obtain ⟨b', extended, viable⟩ := roomy.exists_extend inside way.of_excluding nodup linked
    cases (extend_eq_some_iff.2 ⟨e, link, total⟩).symm.trans extended
    exact ⟨viable, trivial⟩

/-- A search between two nodes of the network fails only if there is no path. -/
theorem eq_noPath (roomy : c.Roomy t) (inside : t.contains source = true)
    (reachable : t.contains target = true) {e : Error}
    (h : t.shortestPath c source target = .error e) : e = .noPath source target := by
  rcases (Topology.shortestPath_eq_error_iff inside reachable).1 h with
    ⟨found, _⟩ | ⟨f, _, _, rfl⟩
  · -- the search went out of range at the next link after a simple walk
    exfalso
    obtain ⟨walk, x, a, y, way, nodup, _, linked, out⟩ := outOfRange_of_settle inside found
    obtain ⟨b, extended, _⟩ := roomy.exists_extend inside way nodup linked
    cases out.symm.trans extended
  · rfl

end Calculator.Roomy

/-! ### Metrics with room -/

/-- By this metric the weights of every network of at most 65535 nodes have room. -/
def Metric.Roomy {W : Type} [Weight W] (m : Metric W) : Prop :=
  ∀ s : Snapshot, s.topology.size ≤ 65535 → (m.calculator s).Roomy s.topology

namespace Metric

variable {s : Snapshot} {source x y : NodeId} {walk : List NodeId}

theorem linkWeight_hops (linked : s.topology.linked x y = true) :
    (hops.calculator s).linkWeight x y = some ⟨1⟩ := by
  have insideX := Topology.contains_of_linked (Topology.linked_symm linked)
  have insideY := Topology.contains_of_linked linked
  change (do
    let ends ← combine ((hops.calculator s).nodeWeight x) ((hops.calculator s).nodeWeight y)
    combine ends hops.hop) = _
  rw [Snapshot.nodeWeight_calculator hops insideX, Snapshot.nodeWeight_calculator hops insideY]
  rfl

theorem count_of_walkTo {P : NodeId → HopCount → Prop} {w : HopCount}
    (h : WalkTo s.topology (hops.calculator s) source P walk x w) :
    w.count.toNat = (PathControl.hops walk).length := by
  induction h with
  | start => rfl
  | @step walk x y a e b front passable linked link total viable admitted ih =>
    cases (linkWeight_hops linked).symm.trans link
    have sum := CountWeight.amount_combine total
    have range := CountWeight.viable_iff.1 viable
    change b.count.toNat = min 4294967295 (a.count.toNat + 1) at sum
    change b.count.toNat < 4294967295 at range
    obtain ⟨inner, rfl⟩ := front.eq_concat
    rw [hops_concat, List.length_append, List.length_singleton, ← ih]
    omega

theorem roomy_hops : hops.Roomy := by
  intro s small
  refine ⟨CountWeight.viable_iff.2 (by decide), ?_, ?_⟩
  · intro source x y walk a inside way nodup linked
    have short := Topology.length_le_size nodup (way.inside inside)
    have count := count_of_walkTo way
    have few : (PathControl.hops walk).length ≤ walk.length := by
      rw [PathControl.hops, List.length_zip]
      omega
    have next : (UInt32.ofNat (a.count.toNat + 1)).toNat = a.count.toNat + 1 := by
      rw [UInt32.toNat_ofNat']
      omega
    refine ⟨⟨.ofNat (a.count.toNat + 1)⟩, ?_, CountWeight.viable_iff.2 ?_⟩
    · refine Calculator.extend_eq_some_iff.2 ⟨⟨1⟩, linkWeight_hops linked, ?_⟩
      refine HopCount.combine_eq_some_iff.2 ⟨?_, Or.inr (Or.inr ?_)⟩
      · change (UInt32.ofNat _).toNat = min _ (_ + 1)
        omega
      · change _ + 1 < _
        omega
    · change (UInt32.ofNat _).toNat < 4294967295
      omega
  · intro a
    exact ⟨_, if_pos (Or.inr rfl)⟩

theorem roomy_flex : flex.Roomy := by
  intro s small
  refine ⟨ClosedWeight.viable_initial, ?_, ?_⟩
  · intro source x y walk a inside way nodup linked
    exact Snapshot.exists_extend way small inside nodup linked
  · intro a
    have top : ((nonViable : FlexWeight) == FlexWeight.nonViable) = true :=
      LawfulWeight.isNonViable_nonViable
    exact ⟨_, if_pos (by rw [top, Bool.or_true])⟩

end Metric

end PathControl
