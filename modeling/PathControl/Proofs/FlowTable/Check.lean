/-
  PathControl/Proofs/FlowTable/Check.lean
  =======================================
  **The check of a table is exact.**

  A table may hold any paths and list any flows at any nodes, also such as no sequence
  of changes leads to. The check accepts it exactly if no node is listed without flows
  and the flows listed at each node are those whose path runs through it. Otherwise it
  names a defect, and the table has that defect (`HasDefect`).
-/
import PathControl.Proofs.FlowTable

namespace PathControl.FlowTable

variable {t : FlowTable} {d : Defect}

/-- What a defect says of a table. The defects of rules are none of a table. -/
def HasDefect (t : FlowTable) : Defect → Prop
  | .notIndexed flow n =>
    (∃ path, t.path? flow = some path ∧ RunsThrough path n) ∧ ¬ listed t.carried flow n
  | .emptySet n => ∃ flows, t.carried[n]? = some flows ∧ flows.isEmpty = true
  | .notTraversing flow n =>
    listed t.carried flow n ∧ ¬ ∃ path, t.path? flow = some path ∧ RunsThrough path n
  | .notAdjacent .. | .emptyPath => False

theorem hasDefect_of_pathDefect? (found : t.pathDefect? = some d) : t.HasDefect d := by
  obtain ⟨⟨flow, path⟩, entry, found⟩ := List.exists_of_findSome?_eq_some found
  obtain ⟨n, onPath, found⟩ := List.exists_of_findSome?_eq_some found
  split at found
  · cases found
  · next missing =>
    cases found
    have known : t.path? flow = some path := Std.TreeMap.mem_toList_iff_getElem?_eq_some.1 entry
    exact ⟨⟨path, known, mem_interior_iff.1 onPath⟩, missing⟩

theorem hasDefect_of_nodeDefect? (found : t.nodeDefect? = some d) : t.HasDefect d := by
  obtain ⟨⟨n, flows⟩, entry, found⟩ := List.exists_of_findSome?_eq_some found
  have known : t.carried[n]? = some flows := Std.TreeMap.mem_toList_iff_getElem?_eq_some.1 entry
  dsimp only at found
  split at found
  · next empty =>
    cases found
    exact ⟨flows, known, empty⟩
  · obtain ⟨flow, inside, found⟩ := List.exists_of_findSome?_eq_some found
    split at found
    · cases found
    · next away =>
      cases found
      simp only [traverses_iff, mem_interior_iff] at away
      exact ⟨(Option.any_eq_true _ _).2 ⟨flows, known, Std.TreeSet.mem_toList.1 inside⟩, away⟩

/-- The check refuses a table only for a defect that it has. -/
theorem check_ne_ok_iff : t.check ≠ .ok () ↔
    ∃ d, t.check = .error (.invariantViolation d) ∧ t.HasDefect d := by
  constructor
  · intro refused
    cases found : t.pathDefect?.or t.nodeDefect? with
    | none => exact absurd (by rw [check, found]) refused
    | some d =>
      refine ⟨d, by rw [check, found], ?_⟩
      rcases Option.or_eq_some_iff.1 found with path | ⟨_, node⟩
      · exact hasDefect_of_pathDefect? path
      · exact hasDefect_of_nodeDefect? node
  · rintro ⟨d, refused, _⟩ accepted
    cases refused.symm.trans accepted

/-- **The check is exact.** Of all tables it accepts those that list no node without flows, and at
    each node the flows whose path runs through it; it refuses any other for a defect that this
    table has. -/
theorem check_exact (t : FlowTable) :
    (t.check = .ok () ↔ NoneIdle t.carried ∧
      ∀ flow n, listed t.carried flow n ↔
        ∃ path, t.path? flow = some path ∧ RunsThrough path n) ∧
    (t.check ≠ .ok () ↔ ∃ d, t.check = .error (.invariantViolation d) ∧ t.HasDefect d) := by
  refine ⟨?_, check_ne_ok_iff⟩
  rw [check_eq_ok_iff]
  simp only [← mem_interior_iff]
  constructor
  · rintro ⟨listed_iff, noneIdle⟩
    exact ⟨noneIdle, listed_iff⟩
  · rintro ⟨noneIdle, listed_iff⟩
    exact ⟨listed_iff, noneIdle⟩

/-- A table that no changes lead to: it lists a node without flows. -/
example : check { carried := .ofList [(7, ∅)] } = .error (.invariantViolation (.emptySet 7)) := rfl

end PathControl.FlowTable
