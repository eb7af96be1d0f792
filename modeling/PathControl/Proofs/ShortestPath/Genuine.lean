/-
  PathControl/Proofs/ShortestPath/Genuine.lean
  ============================================
  **Every search ends, and what it returns is a route, whatever the weights are.**

  Every round takes an entry from the queue. Entries come from nodes when these are
  settled, one at most for each of their links, and a node is settled once. So the
  entries that wait and the links of the unsettled nodes bound the rounds that are
  left (`exists_settleWithin`), with no regard to the weights.

  That the way back from the target ends, and that it is a route, rests on a total
  order and an absorbing non-viable weight alone: weights may shrink along a path,
  and combining need not keep their order.
-/
import PathControl.Proofs.ShortestPath.Counts
import PathControl.Proofs.Weight.FlexWeight
import Mathlib.Algebra.BigOperators.Group.Finset.Piecewise
import Mathlib.Algebra.Order.BigOperators.Group.Finset

namespace PathControl

variable {W : Type} [Weight W] {t : Topology} {c : Calculator W} {source target : NodeId}
  {settled : List NodeId} {f : Frontier W}

/-! ### The rounds of a search -/

namespace Topology

/-- How many offers the nodes that are not settled yet can make. -/
def offersLeft (t : Topology) (settled : List NodeId) : Nat :=
  ∑ n ∈ Finset.range t.size with n ∉ settled, (t.neighbors n).length

theorem offersLeft_cons {n : NodeId} (fresh : n ∉ settled) (inside : t.contains n = true) :
    (t.neighbors n).length + t.offersLeft (n :: settled) = t.offersLeft settled := by
  have bound : n < t.size := by simpa [contains, size] using inside
  have rest : {m ∈ Finset.range t.size | m ∉ n :: settled} =
      {m ∈ Finset.range t.size | m ∉ settled}.erase n := by
    ext m
    simp only [Finset.mem_filter, Finset.mem_erase, List.mem_cons, not_or]
    tauto
  have here : n ∈ {m ∈ Finset.range t.size | m ∉ settled} :=
    Finset.mem_filter.2 ⟨Finset.mem_range.2 bound, fresh⟩
  simp only [offersLeft]
  rw [rest]
  exact Finset.add_sum_erase _ (fun m => (t.neighbors m).length) here

/-- Every link is counted at one node on each of its ends. -/
theorem sum_countP_le (links : List Link) (ofLink : Link → NodeId) (size : Nat) :
    ∑ n ∈ Finset.range size, links.countP (ofLink · == n) ≤ links.length := by
  induction links with
  | nil => simp
  | cons l links ih =>
    have here : ∑ n ∈ Finset.range size, (if (ofLink l == n) = true then 1 else 0) ≤ 1 := by
      simp only [beq_iff_eq, Finset.sum_ite_eq]
      split <;> simp
    simp only [List.countP_cons, Finset.sum_add_distrib, List.length_cons]
    omega

theorem length_neighbors_le (t : Topology) (n : NodeId) : (t.neighbors n).length ≤
    t.links.countP (·.source == n) + t.links.countP (·.target == n) := by
  simp only [neighbors, List.length_append, List.length_map, ← List.countP_eq_length_filter]
  refine Nat.add_le_add_left (List.countP_mono_left ?_) _
  intro l _ counted
  exact (Bool.and_eq_true _ _ ▸ counted).1

theorem offersLeft_nil_le (t : Topology) : t.offersLeft [] ≤ 2 * t.links.length := by
  have sources := sum_countP_le t.links Link.source t.size
  have targets := sum_countP_le t.links Link.target t.size
  calc t.offersLeft [] = ∑ n ∈ Finset.range t.size, (t.neighbors n).length := by
        simp [offersLeft]
    _ ≤ ∑ n ∈ Finset.range t.size,
          (t.links.countP (·.source == n) + t.links.countP (·.target == n)) :=
        Finset.sum_le_sum fun n _ => t.length_neighbors_le n
    _ ≤ 2 * t.links.length := by
        rw [Finset.sum_add_distrib]
        omega

end Topology

namespace Frontier

theorem size_offer_le (f : Frontier W) (node next : NodeId) (score : W) :
    (f.offer node next score).queue.size ≤ f.queue.size + 1 := by
  have pushed : (f.queue.push score next).size = f.queue.size + 1 := by
    simp [MinQueue.push, MinQueue.size, MinQueue.size_siftUp]
  simp only [offer]
  split
  · exact Nat.le_succ _
  · split
    · exact Nat.le_of_eq pushed
    · exact Nat.le_succ _

theorem size_foldlM_relax_le {node : NodeId} {score : W} {next : List NodeId} {f' : Frontier W}
    (offers : next.foldlM (relax c settled node score) f = some f') :
    f'.queue.size ≤ f.queue.size + next.length := by
  induction next generalizing f with
  | nil =>
    cases offers
    exact Nat.le_refl _
  | cons y next ih =>
    rw [List.foldlM_cons, Option.bind_eq_bind, Option.bind_eq_some_iff] at offers
    obtain ⟨g, first, later⟩ := offers
    have one : g.queue.size ≤ f.queue.size + 1 := by
      simp only [relax, Option.bind_eq_bind, Option.pure_def] at first
      split at first
      · cases first
        exact Nat.le_succ _
      · simp only [Option.bind_eq_some_iff, Option.some_inj] at first
        obtain ⟨e, _, b, _, rfl⟩ := first
        exact f.size_offer_le node y b
    have more := ih later
    rw [List.length_cons]
    omega

end Frontier

/-- **A search takes no more rounds than entries wait and unsettled nodes have links.** -/
theorem exists_settleWithin {rounds : Nat}
    (enough : f.queue.size + t.offersLeft settled < rounds) :
    ∃ result, settleWithin t c source target rounds settled f = some result := by
  induction rounds generalizing settled f with
  | zero => cases enough
  | succ rounds ih =>
    simp only [settleWithin]
    cases popped : f.queue.pop with
    | none => exact ⟨_, rfl⟩
    | some next =>
      have shorter := MinQueue.size_lt_of_pop popped
      dsimp only
      split
      · -- a stale entry leaves the queue and nothing is settled
        exact ih (by dsimp only; omega)
      · next known =>
        obtain ⟨fresh, inside⟩ := not_or.1 known
        have left := t.offersLeft_cons fresh (by simpa using inside)
        split
        · exact ⟨_, rfl⟩
        · split
          · -- a host is settled and makes no offers
            exact ih (by dsimp only; omega)
          · -- a node makes one offer at most for each of its links, which then are not left
            cases offers : Frontier.expand t c (next.1.label :: settled) next.1
                { f with queue := next.2 } with
            | none => exact ⟨_, rfl⟩
            | some f' =>
              have grown := Frontier.size_foldlM_relax_le offers
              dsimp only at grown
              exact ih (by omega)

/-! ### What is returned -/

/-- A search for a path that is given up after a number of rounds, or when the way back from the
    target takes more than a number of steps. It is what `Topology.shortestPath` comes to if it
    ends. -/
def Topology.shortestPathWithin (t : Topology) (c : Calculator W) (source target : NodeId)
    (rounds steps : Nat) : Option (Except Error (List NodeId)) :=
  if t.contains source = false then some (.error (.unknownNode source))
  else if t.contains target = false then some (.error (.unknownNode target))
  else
    match settleWithin t c source target rounds [] (Frontier.start source) with
    | none => none
    | some none => some (.error .weightOverflow)
    | some (some f) =>
      if Weight.isNonViable (f.score target) then some (.error (.noPath source target))
      else (f.traceWithin steps target []).map .ok

/-- A path that can be used: a simple walk whose links exist, through no host, every part of which
    has a viable weight. -/
structure Topology.Genuine (t : Topology) (c : Calculator W) (source target : NodeId)
    (path : List NodeId) : Prop where
  first : path.head? = some source
  last : path.getLast? = some target
  nodup : path.Nodup
  linked : t.isPath path = true
  transit : ∀ n ∈ interior path, t.isHost n = false
  viable : ∀ front, front <+: path → ∃ w, c.walkWeight front = some w ∧ Weight.Viable w

variable [AbsorbingWeight W] {path : List NodeId}

namespace Topology

theorem genuine_of_shortestPath (h : t.shortestPath c source target = .ok path) :
    t.Genuine c source target path := by
  obtain ⟨settled, f, entry, rest, before, next, here, route, viable⟩ :=
    arrived_of_shortestPath h
  have walk := route.walkTo
  have simple := route.nodup
  refine ⟨walk.admissible.first, walk.admissible.last, simple, walk.admissible.linked, ?_,
    walk.viable_of_prefix viable⟩
  intro n hn
  rcases walk.passable n (List.mem_of_mem_tail (List.tail_dropLast ▸ hn)) with rfl | leads
  · -- the source stands at the head of a simple path only
    exfalso
    obtain ⟨tail, rfl⟩ := List.head?_eq_some_iff.1 walk.admissible.first
    exact (List.nodup_cons.1 simple).1 (List.dropLast_subset _ hn)
  · exact leads

/-- A returned path to another node leads past what is excluded. -/
theorem not_mem_of_excluding {nodes : List NodeId}
    (h : t.shortestPath (c.excluding nodes) source target = .ok path) (away : source ≠ target) :
    ∀ n ∈ path, n ∉ nodes := by
  obtain ⟨⟨w, walk⟩, _, _⟩ := found_of_shortestPath h
  intro n hn excluded
  obtain rfl := walk.avoids n hn excluded
  -- the source has a link, which is non-viable if the source is excluded
  have ends := walk.admissible
  obtain ⟨tail, rfl⟩ := List.head?_eq_some_iff.1 ends.first
  cases tail with
  | nil => exact away (Option.some.inj ends.last)
  | cons y tail =>
    obtain ⟨e, link, viable⟩ := walk.link_viable (n, y) (by simp)
    exact (Calculator.not_mem_of_excluding link viable).1 excluded

theorem shortestPathWithin_eq (t : Topology) (c : Calculator W) (source target : NodeId) :
    t.shortestPathWithin c source target (2 * t.links.length + 2) t.size =
      some (t.shortestPath c source target) := by
  have few := t.offersLeft_nil_le
  have one : (Frontier.start source : Frontier W).queue.size = 1 := by
    simp [Frontier.start, MinQueue.push, MinQueue.size, MinQueue.size_siftUp, MinQueue.empty]
  obtain ⟨result, within⟩ : ∃ result, settleWithin t c source target (2 * t.links.length + 2) []
      (Frontier.start source) = some result := exists_settleWithin (by omega)
  have found := settle_of_within within
  simp only [shortestPathWithin, shortestPath, requireNode]
  rw [within, found]
  cases inside : t.contains source with
  | false => rfl
  | true =>
    cases t.contains target with
    | false => rfl
    | true =>
      cases result with
      | none => rfl
      | some g =>
        cases viable : Weight.isNonViable (g.score target) with
        | true => simp [viable, throw, throwThe, MonadExceptOf.throw, bind, Except.bind]
        | false =>
          obtain ⟨settled, f, entry, rest, walk, _, _, _, rfl, route, _⟩ :=
            arrived_of_settle inside found viable
          have short := route.length_le inside
          have kept : Route t c source settled { f with queue := rest } walk target entry.score :=
            route.mono (fun _ hm => hm) fun _ _ => rfl
          have back := kept.traceWithin t.size short []
          have same := kept.trace t.size (Nat.le_succ_of_le short) []
          simp [viable, back, same, bind, Except.bind, pure, Except.pure]

/-- **Every search ends, and a returned path is genuine**: it takes at most two rounds for every
    link and two more, and the way back from the target no more steps than there are nodes. -/
theorem shortestPath_genuine (t : Topology) (c : Calculator W) (source target : NodeId) :
    t.shortestPathWithin c source target (2 * t.links.length + 2) t.size =
        some (t.shortestPath c source target) ∧
      (∀ path, t.shortestPath c source target = .ok path → t.Genuine c source target path) ∧
      ∀ nodes path, t.shortestPath (c.excluding nodes) source target = .ok path →
        source ≠ target → ∀ n ∈ path, n ∉ nodes := by
  refine ⟨t.shortestPathWithin_eq c source target, ?_, ?_⟩
  · intro path h
    exact genuine_of_shortestPath h
  · intro nodes path h away
    exact not_mem_of_excluding h away

/-- Utilizations below zero, so that a longer way costs less. -/
def shrinking : Calculator CpuUsage :=
  .ofWeights (#[-2.0, -1.0, 0.5, -0.25].map .ofFloat) (.ofFloat (-0.5))

theorem shortestPath_shrinking : square.shortestPath shrinking 0 3 = .ok [0, 1, 3] ∧
    square.shortestPath (shrinking.excluding [1]) 0 3 = .ok [0, 2, 3] :=
  ⟨shortestPath_of_within 10 (by decide) (by decide +kernel),
    shortestPath_of_within 10 (by decide) (by decide +kernel)⟩

theorem shortestPath_genuine_shrinking :
    square.shortestPathWithin shrinking 0 3 10 4 = some (.ok [0, 1, 3]) ∧
      square.Genuine shrinking 0 3 [0, 1, 3] ∧
      square.shortestPath (shrinking.excluding [1]) 0 3 = .ok [0, 2, 3] ∧
      (0 : NodeId) ≠ 3 ∧ ∀ n ∈ [0, 2, 3], n ∉ [1] := by
  obtain ⟨ends, genuine, avoids⟩ := shortestPath_genuine square shrinking 0 3
  obtain ⟨whole, around⟩ := shortestPath_shrinking
  exact ⟨ends.trans (congrArg some whole), genuine _ whole, around, by decide,
    avoids [1] _ around (by decide)⟩

end Topology

end PathControl
