/-
  PathControl/Proofs/FlowTable.lean
  =================================
  **The two views of a table never disagree.**

  Whatever paths are stored and forgotten, a table answers as a plain map from flows
  to paths does, and lists at each node the flows whose path runs through it: the
  node stands on the path at a position that is neither the first nor the last.

  The argument is one of membership. `listed` says whether a flow is listed at a node;
  entering flows adds exactly the nodes of the new path, leaving takes off exactly
  those of the old one, and neither leaves a node behind without flows.
-/
import PathControl.FlowTable
import PathControl.Proofs.Flow
import Std.Data.TreeSet.Lemmas

namespace PathControl

namespace FlowTable

/-! ### Paths after a change -/

@[simp] theorem path?_empty (flow : Flow) : empty.path? flow = none := by
  simp [path?, empty]

@[simp] theorem path?_install (t : FlowTable) (flow other : Flow) (path : List NodeId) :
    (t.install flow path).path? other = if other = flow then some path else t.path? other := by
  simp only [path?, install]
  rw [Std.TreeMap.getElem?_insert]
  simp only [Std.LawfulEqCmp.compare_eq_iff_eq, @eq_comm _ flow]

@[simp] theorem path?_evict (t : FlowTable) (flow other : Flow) :
    (t.evict flow).path? other = if other = flow then none else t.path? other := by
  simp only [evict]
  split
  · next missing =>
    split
    · next same => rw [same, missing]
    · rfl
  · change (t.paths.erase flow)[other]? = _
    rw [Std.TreeMap.getElem?_erase]
    simp only [Std.LawfulEqCmp.compare_eq_iff_eq, @eq_comm _ flow]
    rfl

/-! ### Flows in a table -/

theorem contains_iff {t : FlowTable} {flow : Flow} :
    t.contains flow = true ↔ ∃ path, t.path? flow = some path := by
  simp only [contains, path?]
  rw [Std.TreeMap.contains_eq_isSome_getElem?, Option.isSome_iff_exists]

theorem contains_install_iff {t : FlowTable} {flow other : Flow} {path : List NodeId} :
    (t.install flow path).contains other = true ↔ other = flow ∨ t.contains other = true := by
  rw [contains_iff, contains_iff, path?_install]
  split
  · next same => simp [same]
  · next different => simp [different]

theorem contains_evict_iff {t : FlowTable} {flow other : Flow} :
    (t.evict flow).contains other = true ↔ other ≠ flow ∧ t.contains other = true := by
  rw [contains_iff, contains_iff, path?_evict]
  split
  · next same => simp [same]
  · next different => simp [different]

end FlowTable

/-! ### Positions on a path -/

/-- A node stands on a path between its first and its last position. -/
def RunsThrough (path : List NodeId) (n : NodeId) : Prop :=
  ∃ i, 0 < i ∧ i + 1 < path.length ∧ path[i]? = some n

theorem mem_interior_iff {path : List NodeId} {n : NodeId} :
    n ∈ interior path ↔ RunsThrough path n := by
  rw [interior, List.mem_iff_getElem?]
  constructor
  · rintro ⟨i, h⟩
    rw [List.getElem?_dropLast, List.length_tail, List.getElem?_tail] at h
    split at h
    · exact ⟨i + 1, by omega, by omega, h⟩
    · cases h
  · rintro ⟨i, positive, inner, h⟩
    refine ⟨i - 1, ?_⟩
    rw [List.getElem?_dropLast, List.length_tail, List.getElem?_tail,
      if_pos (show i - 1 < path.length - 1 - 1 by omega), Nat.sub_add_cancel positive, h]

namespace FlowTable

/-! ### Entering and leaving nodes -/

section Carried

variable (carried : Std.TreeMap NodeId (Std.TreeSet Flow)) (flow f : Flow) (m n : NodeId)

/-- A flow is listed at a node. -/
def listed : Prop := (carried[n]?).any (·.contains f) = true

/-- Every node that is listed has a flow. -/
def NoneIdle : Prop :=
  ∀ (n : NodeId) (flows : Std.TreeSet Flow), carried[n]? = some flows → flows.isEmpty = false

theorem listed_insert (flows : Std.TreeSet Flow) :
    listed (carried.insert m flows) f n ↔
      if n = m then flows.contains f = true else listed carried f n := by
  simp only [listed]
  rw [Std.TreeMap.getElem?_insert]
  simp only [Std.LawfulEqCmp.compare_eq_iff_eq, @eq_comm _ m]
  split <;> simp

theorem listed_erase :
    listed (carried.erase m) f n ↔ n ≠ m ∧ listed carried f n := by
  simp only [listed]
  rw [Std.TreeMap.getElem?_erase]
  simp only [Std.LawfulEqCmp.compare_eq_iff_eq, @eq_comm _ m]
  split <;> simp_all

theorem listed_enter :
    listed (enter flow carried m) f n ↔ listed carried f n ∨ n = m ∧ f = flow := by
  rw [enter, listed_insert]
  split
  · next same =>
    subst same
    simp only [listed]
    rw [Std.TreeSet.contains_insert, Std.TreeMap.getD_eq_getD_getElem?]
    cases carried[n]? <;> simp [@eq_comm _ flow, or_comm]
  · next other => simp [other]

theorem listed_leave :
    listed (leave flow carried m) f n ↔ listed carried f n ∧ ¬ (n = m ∧ f = flow) := by
  simp only [leave]
  cases here : carried[m]? with
  | none =>
    refine ⟨fun h => ⟨h, ?_⟩, And.left⟩
    rintro ⟨rfl, rfl⟩
    simp [listed, here] at h
  | some flows =>
    have gone : (flows.erase flow).contains f = true ↔ flows.contains f = true ∧ f ≠ flow := by
      rw [Std.TreeSet.contains_erase]
      simp [@eq_comm _ flow, and_comm]
    dsimp only
    by_cases last : (flows.erase flow).isEmpty = true
    · have only (held : flows.contains f = true) : f = flow := by
        by_cases same : f = flow
        · exact same
        · have left := Std.TreeSet.isEmpty_iff_forall_contains.1 last f
          rw [gone.2 ⟨held, same⟩] at left
          cases left
      rw [if_pos last, listed_erase]
      by_cases same : n = m
      · subst same
        simpa [listed, here] using only
      · simp [same]
    · rw [if_neg last, listed_insert]
      by_cases same : n = m
      · subst same
        rw [if_pos rfl, gone]
        simp [listed, here]
      · simp [same]

theorem listed_foldl_enter (nodes : List NodeId) :
    listed (nodes.foldl (enter flow) carried) f n ↔
      listed carried f n ∨ n ∈ nodes ∧ f = flow := by
  induction nodes generalizing carried with
  | nil => simp
  | cons m nodes ih =>
    rw [List.foldl_cons, ih, listed_enter, List.mem_cons, or_assoc, or_and_right]

theorem listed_foldl_leave (nodes : List NodeId) :
    listed (nodes.foldl (leave flow) carried) f n ↔
      listed carried f n ∧ ¬ (n ∈ nodes ∧ f = flow) := by
  induction nodes generalizing carried with
  | nil => simp
  | cons m nodes ih =>
    rw [List.foldl_cons, ih, listed_leave, List.mem_cons, or_and_right, not_or, and_assoc]

variable {carried}

theorem NoneIdle.enter (h : NoneIdle carried) : NoneIdle (enter flow carried m) := by
  intro n flows known
  simp only [FlowTable.enter] at known
  rw [Std.TreeMap.getElem?_insert] at known
  split at known
  · cases known
    exact Std.TreeSet.isEmpty_insert
  · exact h n flows known

theorem NoneIdle.leave (h : NoneIdle carried) : NoneIdle (leave flow carried m) := by
  simp only [FlowTable.leave]
  split
  · exact h
  · split <;> intro n flows known
    · rw [Std.TreeMap.getElem?_erase] at known
      split at known
      · cases known
      · exact h n flows known
    · next remains =>
      rw [Std.TreeMap.getElem?_insert] at known
      split at known
      · cases known
        exact Bool.eq_false_iff.2 remains
      · exact h n flows known

theorem NoneIdle.foldl {nodes : List NodeId} {change : Std.TreeMap NodeId (Std.TreeSet Flow) →
      NodeId → Std.TreeMap NodeId (Std.TreeSet Flow)}
    (h : NoneIdle carried) (step : ∀ c m, NoneIdle c → NoneIdle (change c m)) :
    NoneIdle (nodes.foldl change carried) := by
  induction nodes generalizing carried with
  | nil => exact h
  | cons m nodes ih => exact ih (step carried m h)

end Carried

/-! ### Agreement of the views -/

/-- The flows listed at a node are those whose path runs through it. -/
structure Indexed (t : FlowTable) : Prop where
  listed_iff : ∀ flow n, listed t.carried flow n ↔
    ∃ path, t.path? flow = some path ∧ n ∈ interior path
  noneIdle : NoneIdle t.carried

theorem indexed_empty : empty.Indexed := by
  constructor
  · intro flow n
    rw [path?_empty]
    simp [listed, empty]
  · intro n flows known
    simp [empty] at known

variable {t : FlowTable}

theorem Indexed.install (h : t.Indexed) (flow : Flow) (path : List NodeId) :
    (t.install flow path).Indexed := by
  constructor
  · intro f n
    rw [path?_install]
    simp only [FlowTable.install]
    rw [listed_foldl_enter, listed_foldl_leave, h.listed_iff, List.mem_filter]
    by_cases same : f = flow
    · subst same
      cases t.path? f with
      | none => simp [interior]
      | some old =>
        -- a node of the old path either stays on the new one or is left
        by_cases stays : n ∈ interior path <;> simp [stays]
    · simp [same]
  · apply NoneIdle.foldl
    · exact h.noneIdle.foldl fun _ _ => NoneIdle.leave flow _
    · exact fun _ _ => NoneIdle.enter flow _

theorem Indexed.evict (h : t.Indexed) (flow : Flow) : (t.evict flow).Indexed := by
  constructor
  · intro f n
    rw [path?_evict]
    simp only [FlowTable.evict]
    split
    · next missing =>
      rw [h.listed_iff]
      by_cases same : f = flow
      · simp [same, missing]
      · simp [same]
    · next path known =>
      rw [listed_foldl_leave, h.listed_iff]
      by_cases same : f = flow
      · simp [same, known]
      · simp [same]
  · simp only [FlowTable.evict]
    split
    · exact h.noneIdle
    · exact h.noneIdle.foldl fun _ _ => NoneIdle.leave flow _

/-! ### What an indexed table answers -/

theorem mem_flowsThrough_iff_listed (flow : Flow) (n : NodeId) :
    flow ∈ t.flowsThrough n ↔ listed t.carried flow n := by
  simp only [flowsThrough, listed]
  cases t.carried[n]? with
  | none => simp
  | some flows => simp [Std.TreeSet.mem_toList, ← Std.TreeSet.contains_iff_mem]

theorem ordered_flowsThrough (n : NodeId) :
    (t.flowsThrough n).Pairwise fun f g => compare f g = .lt := by
  simp only [flowsThrough]
  split
  · exact Std.TreeSet.ordered_toList
  · exact List.Pairwise.nil

theorem ordered_loadedNodes : t.loadedNodes.Pairwise (· < ·) := by
  simp only [loadedNodes]
  exact Std.TreeMap.ordered_keys.imp Nat.compare_eq_lt.1

namespace Indexed

theorem mem_flowsThrough_iff (h : t.Indexed) (flow : Flow) (n : NodeId) :
    flow ∈ t.flowsThrough n ↔ ∃ path, t.path? flow = some path ∧ n ∈ interior path := by
  rw [mem_flowsThrough_iff_listed, h.listed_iff]

theorem mem_loadedNodes_iff (h : t.Indexed) (n : NodeId) :
    n ∈ t.loadedNodes ↔ t.flowsThrough n ≠ [] := by
  simp only [loadedNodes, flowsThrough]
  rw [Std.TreeMap.mem_keys, Std.TreeMap.mem_iff_isSome_getElem?]
  cases known : t.carried[n]? with
  | none => simp
  | some flows =>
    have busy := h.noneIdle n flows known
    rw [← Std.TreeSet.isEmpty_toList, List.isEmpty_eq_false_iff] at busy
    exact iff_of_true rfl busy

end Indexed

/-! ### What the check finds -/

theorem pathDefect?_eq_none_iff : t.pathDefect? = none ↔
    ∀ flow path n, t.path? flow = some path → n ∈ interior path → listed t.carried flow n := by
  simp only [pathDefect?, List.findSome?_eq_none_iff, ite_eq_left_iff, reduceCtorEq,
    imp_false, Decidable.not_not]
  constructor
  · intro none flow path n known onPath
    exact none (flow, path) (Std.TreeMap.mem_toList_iff_getElem?_eq_some.2 known) n onPath
  · rintro all ⟨flow, path⟩ entry n onPath
    exact all flow path n (Std.TreeMap.mem_toList_iff_getElem?_eq_some.1 entry) onPath

theorem traverses_iff (n : NodeId) (flow : Flow) :
    t.traverses n flow = true ↔ ∃ path, t.path? flow = some path ∧ n ∈ interior path := by
  simp only [traverses, Option.any_eq_true, List.contains_iff_mem]

theorem nodeDefect?_eq_none_iff : t.nodeDefect? = none ↔ NoneIdle t.carried ∧
    ∀ flow n, listed t.carried flow n → ∃ path, t.path? flow = some path ∧ n ∈ interior path := by
  simp only [nodeDefect?, List.findSome?_eq_none_iff]
  constructor
  · intro none
    have each (n : NodeId) (flows : Std.TreeSet Flow) (known : t.carried[n]? = some flows) :
        flows.isEmpty = false ∧ ∀ flow ∈ flows, t.traverses n flow = true := by
      have here := none (n, flows) (Std.TreeMap.mem_toList_iff_getElem?_eq_some.2 known)
      dsimp only at here
      split at here
      · cases here
      · next busy =>
        simp only [List.findSome?_eq_none_iff, Std.TreeSet.mem_toList, ite_eq_left_iff,
          reduceCtorEq, imp_false, Decidable.not_not] at here
        exact ⟨Bool.eq_false_iff.2 busy, here⟩
    refine ⟨fun n flows known => (each n flows known).1, ?_⟩
    intro flow n isListed
    obtain ⟨flows, known, inside⟩ := (Option.any_eq_true _ _).1 isListed
    exact (traverses_iff n flow).1 ((each n flows known).2 flow inside)
  · rintro ⟨noneIdle, all⟩ ⟨n, flows⟩ entry
    have known : t.carried[n]? = some flows := Std.TreeMap.mem_toList_iff_getElem?_eq_some.1 entry
    dsimp only
    rw [noneIdle n flows known, if_neg Bool.false_ne_true, List.findSome?_eq_none_iff]
    intro flow here
    refine if_pos ((traverses_iff n flow).2 (all flow n ?_))
    exact (Option.any_eq_true _ _).2 ⟨flows, known, Std.TreeSet.mem_toList.1 here⟩

/-- **The check accepts exactly the indexed tables.** -/
theorem check_eq_ok_iff : t.check = .ok () ↔ t.Indexed := by
  have accepted : t.check = .ok () ↔ t.pathDefect? = none ∧ t.nodeDefect? = none := by
    rw [← Option.or_eq_none_iff, check]
    cases t.pathDefect?.or t.nodeDefect? with
    | none => simp
    | some defect => simp
  rw [accepted, pathDefect?_eq_none_iff, nodeDefect?_eq_none_iff]
  constructor
  · rintro ⟨paths, noneIdle, nodes⟩
    refine ⟨fun flow n => ⟨nodes flow n, ?_⟩, noneIdle⟩
    rintro ⟨path, known, onPath⟩
    exact paths flow path n known onPath
  · rintro ⟨listed_iff, noneIdle⟩
    refine ⟨?_, noneIdle, fun flow n => (listed_iff flow n).1⟩
    intro flow path n known onPath
    exact (listed_iff flow n).2 ⟨path, known, onPath⟩

theorem Indexed.check_eq_ok (h : t.Indexed) : t.check = .ok () := check_eq_ok_iff.2 h

/-! ### Every sequence of changes -/

/-- A change to a table. Installing a path for a flow that has one replaces it. -/
inductive Change where
  | install (flow : Flow) (path : List NodeId)
  | evict (flow : Flow)

def change (t : FlowTable) : Change → FlowTable
  | .install flow path => t.install flow path
  | .evict flow => t.evict flow

/-- What a change does to a plain map from flows to paths. -/
def Change.update (paths : Flow → Option (List NodeId)) : Change → Flow → Option (List NodeId)
  | .install flow path => fun f => if f = flow then some path else paths f
  | .evict flow => fun f => if f = flow then none else paths f

/-- A table shows a plain map from flows to paths, and its index agrees with that map. -/
structure Shows (t : FlowTable) (paths : Flow → Option (List NodeId)) : Prop where
  path?_eq : ∀ flow, t.path? flow = paths flow
  flowsThrough_ordered : ∀ n, (t.flowsThrough n).Pairwise fun f g => compare f g = .lt
  mem_flowsThrough_iff : ∀ flow n, flow ∈ t.flowsThrough n ↔
    ∃ path, paths flow = some path ∧ RunsThrough path n
  loadedNodes_ordered : t.loadedNodes.Pairwise (· < ·)
  mem_loadedNodes_iff : ∀ n, n ∈ t.loadedNodes ↔ t.flowsThrough n ≠ []
  check_eq : t.check = .ok ()

theorem indexed_foldl_change (changes : List Change) (h : t.Indexed) :
    (changes.foldl change t).Indexed := by
  induction changes generalizing t with
  | nil => exact h
  | cons c changes ih =>
    apply ih
    cases c with
    | install flow path => exact h.install flow path
    | evict flow => exact h.evict flow

theorem path?_foldl_change (changes : List Change) (paths : Flow → Option (List NodeId))
    (same : ∀ flow, t.path? flow = paths flow) (flow : Flow) :
    (changes.foldl change t).path? flow = changes.foldl Change.update paths flow := by
  induction changes generalizing t paths with
  | nil => exact same flow
  | cons c changes ih =>
    apply ih
    intro f
    cases c with
    | install flow path => simp [change, Change.update, same]
    | evict flow => simp [change, Change.update, same]

/-- **The two views never disagree.** After any changes to an empty table it shows the plain map
    that these changes make, and its check finds no defect. -/
theorem shows_foldl_change (changes : List Change) :
    (changes.foldl change empty).Shows (changes.foldl Change.update fun _ => none) := by
  have indexed : (changes.foldl change empty).Indexed := indexed_foldl_change changes indexed_empty
  have lookup (flow : Flow) : (changes.foldl change empty).path? flow = _ :=
    path?_foldl_change changes (fun _ => none) path?_empty flow
  constructor
  · exact lookup
  · exact ordered_flowsThrough
  · intro flow n
    rw [indexed.mem_flowsThrough_iff, lookup]
    simp only [mem_interior_iff]
  · exact ordered_loadedNodes
  · exact indexed.mem_loadedNodes_iff
  · exact indexed.check_eq_ok

end FlowTable

end PathControl
