/-
  PathControl/Proofs/ShortestPath/Loop.lean
  =========================================
  **The states that a search runs through.**

  `Searching` says which settled nodes and frontiers a search can come to, one rule
  for each way to treat the entry that comes up; `SearchEnd` says how it stops. Every
  search ends in such a state (`settle_end`), so what holds at the start and is kept
  by each rule holds of the result.
-/
import PathControl.ShortestPath
import PathControl.Proofs.MinQueue
import PathControl.Proofs.Walk

namespace PathControl

variable {W : Type} [Weight W]

/-- The entry that comes up next is for a node that has yet to be settled. -/
structure Frontier.Next (t : Topology) (settled : List NodeId) (f : Frontier W)
    (entry : Scored W NodeId) (rest : MinQueue W NodeId) : Prop where
  pop : f.queue.pop = some (entry, rest)
  fresh : entry.label ∉ settled
  inside : t.contains entry.label = true

/-- Offer the way through a node to all its neighbors. -/
def Frontier.expand (t : Topology) (c : Calculator W) (settled : List NodeId)
    (entry : Scored W NodeId) (f : Frontier W) : Option (Frontier W) :=
  (t.neighbors entry.label).foldlM (relax c settled entry.label entry.score) f

variable (t : Topology) (c : Calculator W) (source target : NodeId)

/-- The settled nodes, latest first, and the frontiers that a search comes to. -/
inductive Searching : List NodeId → Frontier W → Prop where
  | start : Searching [] (Frontier.start source)
  /-- The node that comes up has been settled before. -/
  | skip {settled f entry rest} (before : Searching settled f)
      (pop : f.queue.pop = some (entry, rest))
      (stale : entry.label ∈ settled ∨ t.contains entry.label = false) :
      Searching settled { f with queue := rest }
  /-- A host is settled but leads nowhere. -/
  | host {settled f entry rest} (before : Searching settled f)
      (next : f.Next t settled entry rest) (away : entry.label ≠ target)
      (foreign : entry.label ≠ source) (isHost : t.isHost entry.label = true) :
      Searching (entry.label :: settled) { f with queue := rest }
  | expand {settled f entry rest f'} (before : Searching settled f)
      (next : f.Next t settled entry rest) (away : entry.label ≠ target)
      (passable : entry.label = source ∨ t.isHost entry.label = false)
      (offers : Frontier.expand t c (entry.label :: settled) entry { f with queue := rest } =
        some f') :
      Searching (entry.label :: settled) f'

/-- How a search stops, and with which result. -/
inductive SearchEnd : Option (Frontier W) → Prop where
  /-- Nothing waits. -/
  | exhausted {settled f} (before : Searching t c source target settled f)
      (pop : f.queue.pop = none) : SearchEnd (some f)
  /-- The target comes up. -/
  | arrived {settled f entry rest} (before : Searching t c source target settled f)
      (next : f.Next t settled entry rest) (here : entry.label = target) :
      SearchEnd (some { f with queue := rest })
  /-- A weight leaves its range. -/
  | overflow {settled f entry rest} (before : Searching t c source target settled f)
      (next : f.Next t settled entry rest) (away : entry.label ≠ target)
      (passable : entry.label = source ∨ t.isHost entry.label = false)
      (offers : Frontier.expand t c (entry.label :: settled) entry { f with queue := rest } =
        none) :
      SearchEnd none

variable {t c source target}

theorem passable_of_not {n : NodeId} (h : ¬ (n ≠ source ∧ t.isHost n = true)) :
    n = source ∨ t.isHost n = false := by
  by_cases same : n = source
  · exact Or.inl same
  · exact Or.inr (by simpa [same] using h)

/-- **Every search ends in one of these ways.** -/
theorem settle_end {settled : List NodeId} {f : Frontier W}
    (before : Searching t c source target settled f) :
    SearchEnd t c source target (settle t c source target settled f) := by
  fun_induction settle t c source target settled f with
  | case1 settled f popped => exact SearchEnd.exhausted before popped
  | case2 settled f entry rest popped node f' known ih => exact ih (before.skip popped known)
  | case3 settled f entry rest popped node f' known here =>
    obtain ⟨unsettled, inside⟩ := not_or.1 known
    exact SearchEnd.arrived before ⟨popped, unsettled, by simpa using inside⟩ here
  | case4 settled f entry rest popped node f' known away isHost ih =>
    obtain ⟨unsettled, inside⟩ := not_or.1 known
    exact ih (before.host ⟨popped, unsettled, by simpa using inside⟩ away isHost.1 isHost.2)
  | case5 settled f entry rest popped node f' known away leads offers =>
    obtain ⟨unsettled, inside⟩ := not_or.1 known
    exact SearchEnd.overflow before ⟨popped, unsettled, by simpa using inside⟩ away
      (passable_of_not leads) offers
  | case6 settled f entry rest popped node f' known away leads g offers ih =>
    obtain ⟨unsettled, inside⟩ := not_or.1 known
    exact ih (before.expand ⟨popped, unsettled, by simpa using inside⟩ away
      (passable_of_not leads) offers)

theorem Searching.target_not_mem {settled : List NodeId} {f : Frontier W}
    (h : Searching t c source target settled f) : target ∉ settled := by
  induction h with
  | start => exact List.not_mem_nil
  | skip before pop stale ih => exact ih
  | host before next away foreign isHost ih =>
    intro hit
    rcases List.mem_cons.1 hit with rfl | hit
    · exact away rfl
    · exact ih hit
  | expand before next away passable offers ih =>
    intro hit
    rcases List.mem_cons.1 hit with rfl | hit
    · exact away rfl
    · exact ih hit

theorem Topology.shortestPath_eq_ok_iff {path : List NodeId} :
    t.shortestPath c source target = .ok path ↔
      t.contains source = true ∧ t.contains target = true ∧
        ∃ f, PathControl.settle t c source target [] (Frontier.start source) = some f ∧
          Weight.Viable (f.score target) ∧ f.trace t.size target [] = path := by
  simp only [Topology.shortestPath, Topology.requireNode, Weight.Viable]
  cases t.contains source <;> cases t.contains target <;>
    cases PathControl.settle t c source target [] (Frontier.start source) <;>
    simp [bind, Except.bind, pure, Except.pure, throw, throwThe, MonadExceptOf.throw]
  next f => split <;> simp_all

/-- A search between two nodes of the network fails if a weight leaves its range, or if it ends with
    no viable score of the target. -/
theorem Topology.shortestPath_eq_error_iff {e : Error} (inside : t.contains source = true)
    (reachable : t.contains target = true) : t.shortestPath c source target = .error e ↔
      PathControl.settle t c source target [] (Frontier.start source) = none ∧
          e = .weightOverflow ∨
        ∃ f, PathControl.settle t c source target [] (Frontier.start source) = some f ∧
          ¬ Weight.Viable (f.score target) ∧ e = .noPath source target := by
  simp only [Topology.shortestPath, Topology.requireNode]
  rw [if_pos inside, if_pos reachable]
  cases PathControl.settle t c source target [] (Frontier.start source) with
  | none =>
    change Except.error _ = _ ↔ _
    rw [Except.error.injEq]
    simp [@eq_comm _ Error.weightOverflow]
  | some f =>
    change (if _ then _ else _) = _ ↔ _
    simp only [Weight.Viable, Bool.not_eq_false, reduceCtorEq, false_and, false_or,
      Option.some_inj]
    split
    · next unusable =>
      change Except.error _ = _ ↔ _
      rw [Except.error.injEq]
      simp [unusable, @eq_comm _ (Error.noPath source target)]
    · next usable =>
      change Except.ok _ = _ ↔ _
      simp [usable]

/-! ### Running a search -/

/-- A search that is given up after a number of rounds, in which case there is no outer result.
    It takes the steps of `settle` and can be evaluated. -/
def settleWithin (t : Topology) (c : Calculator W) (source target : NodeId) :
    Nat → List NodeId → Frontier W → Option (Option (Frontier W))
  | 0, _, _ => none
  | rounds + 1, settled, f =>
    match f.queue.pop with
    | none => some (some f)
    | some (entry, rest) =>
      let node := entry.label
      let f : Frontier W := { f with queue := rest }
      if node ∈ settled ∨ t.contains node = false then
        settleWithin t c source target rounds settled f
      else if node = target then some (some f)
      else if node ≠ source ∧ t.isHost node then
        settleWithin t c source target rounds (node :: settled) f
      else
        match Frontier.expand t c (node :: settled) entry f with
        | none => some none
        | some f => settleWithin t c source target rounds (node :: settled) f

theorem settle_of_within {rounds : Nat} {settled : List NodeId} {f : Frontier W}
    {result : Option (Frontier W)}
    (h : settleWithin t c source target rounds settled f = some result) :
    settle t c source target settled f = result := by
  induction rounds generalizing settled f with
  | zero => cases h
  | succ rounds ih =>
    simp only [settleWithin] at h
    unfold settle
    cases popped : f.queue.pop with
    | none =>
      rw [popped] at h
      cases h
      rfl
    | some next =>
      rw [popped] at h
      dsimp only at h ⊢
      split at h
      · next stale => rw [dif_pos stale, ih h]
      · next fresh =>
        rw [dif_neg fresh]
        split at h
        · next here =>
          cases h
          rw [if_pos here]
        · next away =>
          rw [if_neg away]
          split at h
          · next host => rw [if_pos host, ih h]
          · next leads =>
            rw [if_neg leads]
            simp only [Frontier.expand] at h
            cases offers : (t.neighbors next.1.label).foldlM
                (Frontier.relax c (next.1.label :: settled) next.1.label next.1.score)
                { f with queue := next.2 } with
            | none =>
              rw [offers] at h
              cases h
              rfl
            | some f' =>
              rw [offers] at h
              exact ih h

/-- A path that a search finds within a number of rounds. -/
theorem Topology.shortestPath_of_within {path : List NodeId} (rounds : Nat)
    (inside : t.contains source = true ∧ t.contains target = true)
    (h : (settleWithin t c source target rounds [] (Frontier.start source)).map
      (·.map fun f => (Weight.isNonViable (f.score target), f.trace t.size target [])) =
        some (some (false, path))) :
    t.shortestPath c source target = .ok path := by
  rw [Option.map_eq_some_iff] at h
  obtain ⟨result, within, h⟩ := h
  rw [Option.map_eq_some_iff] at h
  obtain ⟨f, rfl, h⟩ := h
  obtain ⟨viable, traced⟩ := Prod.mk.inj h
  exact shortestPath_eq_ok_iff.2 ⟨inside.1, inside.2, f, settle_of_within within, viable, traced⟩

/-- A search that ends within a number of rounds and has found nothing. -/
theorem Topology.noPath_of_within (rounds : Nat)
    (inside : t.contains source = true ∧ t.contains target = true)
    (h : (settleWithin t c source target rounds [] (Frontier.start source)).map
      (·.map fun f => Weight.isNonViable (f.score target)) = some (some true)) :
    t.shortestPath c source target = .error (.noPath source target) := by
  rw [Option.map_eq_some_iff] at h
  obtain ⟨result, within, h⟩ := h
  rw [Option.map_eq_some_iff] at h
  obtain ⟨f, rfl, unusable⟩ := h
  apply (shortestPath_eq_error_iff inside.1 inside.2).2
  exact Or.inr ⟨f, settle_of_within within, by simp [Weight.Viable, unusable], rfl⟩

end PathControl
