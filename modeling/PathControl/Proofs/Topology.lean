/-
  PathControl/Proofs/Topology.lean
  ================================
  **Kinds of nodes, who has an address or a datapath id, and who is linked.**
-/
import PathControl.Topology

namespace PathControl

/-- A link joins two nodes, in whichever order it names them. -/
def Link.Joins (l : Link) (a b : NodeId) : Prop :=
  l.source = a ∧ l.target = b ∨ l.source = b ∧ l.target = a

namespace Topology

variable {t : Topology} {n : NodeId}

/-! ### Nodes -/

theorem isSwitch_of_not_isHost (inside : t.contains n = true) (h : t.isHost n = false) :
    t.isSwitch n = true := by
  have bound : n < t.nodes.size := by simpa [contains] using inside
  simp only [isHost, host?] at h
  simp only [isSwitch, switch?]
  rw [Array.getElem?_eq_getElem bound] at h ⊢
  cases node : t.nodes[n] with
  | host data =>
    rw [node] at h
    cases h
  | switch data => rfl

theorem isSwitch_eq_false (h : t.isHost n = true) : t.isSwitch n = false := by
  simp only [isHost, host?] at h
  simp only [isSwitch, switch?]
  cases node : t.nodes[n]? with
  | none => rfl
  | some node' =>
    cases node' with
    | host data => rfl
    | switch data =>
      rw [node] at h
      cases h

theorem contains_of_isHost (h : t.isHost n = true) : t.contains n = true := by
  obtain ⟨host, known⟩ := Option.isSome_iff_exists.1 h
  obtain ⟨node, here, _⟩ := Option.bind_eq_some_iff.1 known
  simpa [contains] using (Array.getElem?_eq_some_iff.1 here).1

theorem contains_of_isSwitch (h : t.isSwitch n = true) : t.contains n = true := by
  obtain ⟨s, known⟩ := Option.isSome_iff_exists.1 h
  obtain ⟨node, here, _⟩ := Option.bind_eq_some_iff.1 known
  simpa [contains] using (Array.getElem?_eq_some_iff.1 here).1

theorem lastNode_spec {p : Node → Bool} {count : Nat} (h : t.lastNode p count = some n) :
    ∃ node, t.nodes[n]? = some node ∧ p node = true := by
  induction count with
  | zero => cases h
  | succ count ih =>
    simp only [lastNode] at h
    split at h
    · next found =>
      cases h
      exact (Option.any_eq_true _ _).1 found
    · exact ih h

theorem isHost_of_hostWith? {address : HostAddress} (h : t.hostWith? address = some n) :
    t.isHost n = true := by
  obtain ⟨node, here, answers⟩ := lastNode_spec h
  simp only [isHost, host?]
  rw [here]
  cases node with
  | host data => rfl
  | switch data => simp [Node.addresses] at answers

@[simp] theorem hostWith_eq_ok_iff {address : HostAddress} :
    t.hostWith address = .ok n ↔ t.hostWith? address = some n := by
  simp only [hostWith]
  cases t.hostWith? address <;> simp

theorem switchWith?_of_dpid? {dpid : Dpid} (h : t.dpid? n = some dpid) :
    t.switchWith? dpid = some n := by
  simp only [dpid?] at h
  split at h
  · split at h
    · next latest =>
      cases h
      exact latest
    · cases h
  · cases h

/-- The switch that has a datapath id can be sent rules by it. -/
theorem dpid?_of_switchWith? {dpid : Dpid} (h : t.switchWith? dpid = some n) :
    t.dpid? n = some dpid := by
  obtain ⟨node, here, named⟩ := lastNode_spec h
  simp only [dpid?, switch?]
  rw [here]
  cases node with
  | host data => cases named
  | switch data =>
    obtain rfl : data.dpid = dpid := by simpa [Node.switch?] using named
    change (if t.switchWith? data.dpid = some n then some data.dpid else none) = _
    rw [if_pos h]

/-- Two switches that rules can be sent to have different datapath ids. -/
theorem dpid?_inj {m : NodeId} {dpid : Dpid} (hn : t.dpid? n = some dpid)
    (hm : t.dpid? m = some dpid) : n = m :=
  Option.some.inj ((switchWith?_of_dpid? hn).symm.trans (switchWith?_of_dpid? hm))

@[simp] theorem switchWith_eq_ok_iff {dpid : Dpid} :
    t.switchWith dpid = .ok n ↔ t.switchWith? dpid = some n := by
  simp only [switchWith]
  cases t.switchWith? dpid <;> simp

@[simp] theorem dpidOf_eq_ok_iff {dpid : Dpid} : t.dpidOf n = .ok dpid ↔ t.dpid? n = some dpid := by
  simp only [dpidOf]
  cases t.dpid? n <;> simp

/-- No two switches were added with the same datapath id. -/
def DistinctIds (t : Topology) : Prop :=
  ∀ m ∈ t.switches, ∀ n ∈ t.switches,
    (t.switch? m).map Switch.dpid = (t.switch? n).map Switch.dpid → m = n

instance : Decidable t.DistinctIds :=
  inferInstanceAs (Decidable (∀ m ∈ t.switches, ∀ n ∈ t.switches, _ → m = n))

@[simp] theorem mem_switches_iff : n ∈ t.switches ↔ t.isSwitch n = true := by
  simp only [switches, List.mem_filter, and_iff_right_iff_imp]
  intro h
  simpa [nodeIds, contains, size] using contains_of_isSwitch h

theorem mem_hosts_iff : n ∈ t.hosts ↔ t.isHost n = true := by
  simp only [hosts, List.mem_filter, and_iff_right_iff_imp]
  intro h
  simpa [nodeIds, contains, size] using contains_of_isHost h

theorem exists_lastNode {p : Node → Bool} {node : Node} {count : Nat}
    (here : t.nodes[n]? = some node) (holds : p node = true) (below : n < count) :
    ∃ m, t.lastNode p count = some m := by
  induction count with
  | zero => cases below
  | succ count ih =>
    simp only [lastNode]
    split
    · exact ⟨_, rfl⟩
    · next other =>
      apply ih
      have away : n ≠ count := by
        rintro rfl
        rw [here] at other
        exact other holds
      exact Nat.lt_of_le_of_ne (Nat.le_of_lt_succ below) away

theorem switch?_of_dpid? {dpid : Dpid} (h : t.dpid? n = some dpid) :
    ∃ s, t.switch? n = some s ∧ s.dpid = dpid := by
  simp only [dpid?] at h
  split at h
  · next s switch =>
    split at h
    · cases h
      exact ⟨s, switch, rfl⟩
    · cases h
  · cases h

/-- Some switch has the datapath id that a switch was added with. -/
theorem exists_switchWith? {s : Switch} (known : t.switch? n = some s) :
    ∃ m, t.switchWith? s.dpid = some m := by
  obtain ⟨node, here, isSwitch⟩ := Option.bind_eq_some_iff.1 known
  exact exists_lastNode here (by rw [isSwitch]; simp) (Array.getElem?_eq_some_iff.1 here).1

theorem not_of_lastNode {p : Node → Bool} {node : Node} {m : NodeId} {count : Nat}
    (h : t.lastNode p count = some n) (later : n < m) (below : m < count)
    (here : t.nodes[m]? = some node) : p node = false := by
  induction count with
  | zero => cases below
  | succ count ih =>
    simp only [lastNode] at h
    split at h
    · cases h
      exact absurd later (Nat.not_lt.2 (Nat.le_of_lt_succ below))
    · next other =>
      rcases Nat.eq_or_lt_of_le (Nat.le_of_lt_succ below) with rfl | below
      · rw [here] at other
        exact Bool.eq_false_iff.2 other
      · exact ih h below

theorem dpid_ne_of_switchWith? {dpid : Dpid} {m : NodeId} {s : Switch}
    (h : t.switchWith? dpid = some n) (later : n < m) (known : t.switch? m = some s) :
    s.dpid ≠ dpid := by
  obtain ⟨node, here, isSwitch⟩ := Option.bind_eq_some_iff.1 known
  have other := not_of_lastNode h later (Array.getElem?_eq_some_iff.1 here).1 here
  rw [isSwitch] at other
  simpa using other

/-- A switch keeps the datapath id that it was added with until a later one takes it. -/
theorem dpid?_eq_iff_forall {s : Switch} (known : t.switch? n = some s) :
    t.dpid? n = some s.dpid ↔
      ∀ m later, n < m → t.switch? m = some later → later.dpid ≠ s.dpid := by
  constructor
  · intro kept m later after known'
    exact dpid_ne_of_switchWith? (switchWith?_of_dpid? kept) after known'
  · intro kept
    obtain ⟨m, latest⟩ := exists_switchWith? known
    have named := dpid?_of_switchWith? latest
    obtain ⟨s', known', same⟩ := switch?_of_dpid? named
    rcases Nat.lt_trichotomy n m with after | rfl | before
    · exact absurd same (kept m s' after known')
    · exact named
    · exact absurd rfl (dpid_ne_of_switchWith? latest before known)

/-- Where datapath ids are distinct, rules can be sent to every switch. -/
theorem DistinctIds.exists_dpid? (distinct : t.DistinctIds) (switch : t.isSwitch n = true) :
    ∃ dpid, t.dpid? n = some dpid := by
  obtain ⟨s, known⟩ := Option.isSome_iff_exists.1 switch
  obtain ⟨m, latest⟩ := exists_switchWith? known
  have named := dpid?_of_switchWith? latest
  obtain ⟨s', known', same⟩ := switch?_of_dpid? named
  have isSwitchM : t.isSwitch m = true := Option.isSome_iff_exists.2 ⟨s', known'⟩
  have same : m = n := distinct m (mem_switches_iff.2 isSwitchM) n (mem_switches_iff.2 switch)
    (by rw [known, known', Option.map_some, Option.map_some, same])
  exact ⟨_, same ▸ named⟩

/-! ### Links -/

theorem linked_iff (t : Topology) (a b : NodeId) :
    t.linked a b = true ↔ ∃ l ∈ t.links, l.Joins a b := by
  simp only [linked, link?]
  rw [Option.isSome_or, Bool.or_eq_true, List.find?_isSome, List.find?_isSome]
  simp only [Bool.and_eq_true, beq_iff_eq]
  constructor
  · rintro (⟨l, hl, h⟩ | ⟨l, hl, h⟩)
    · exact ⟨l, hl, Or.inl h⟩
    · exact ⟨l, hl, Or.inr h⟩
  · rintro ⟨l, hl, h | h⟩
    · exact Or.inl ⟨l, hl, h⟩
    · exact Or.inr ⟨l, hl, h⟩

theorem link?_spec {a b : NodeId} {l : Link} (h : t.link? a b = some l) :
    l ∈ t.links ∧ l.Joins a b := by
  have spec {p : Link → Bool} (found : t.links.find? p = some l) : l ∈ t.links ∧ p l = true :=
    ⟨List.mem_of_find?_eq_some found, List.find?_some found⟩
  rcases Option.or_eq_some_iff.1 h with found | ⟨_, found⟩
  · obtain ⟨here, joins⟩ := spec found
    exact ⟨here, Or.inl (by simpa using joins)⟩
  · obtain ⟨here, joins⟩ := spec found
    exact ⟨here, Or.inr (by simpa using joins)⟩

theorem linked_symm {a b : NodeId} (h : t.linked a b = true) : t.linked b a = true := by
  obtain ⟨l, hl, h⟩ := (t.linked_iff a b).1 h
  exact (t.linked_iff b a).2 ⟨l, hl, h.symm⟩

theorem contains_of_linked {t : Topology} {a b : NodeId} (h : t.linked a b = true) :
    t.contains b = true := by
  obtain ⟨l, hl, h⟩ := (t.linked_iff a b).1 h
  have ends := t.endsExist l hl
  simp only [contains, decide_eq_true_eq]
  rcases h with ⟨_, rfl⟩ | ⟨rfl, _⟩
  · exact ends.2
  · exact ends.1

@[simp] theorem mem_neighbors_iff (t : Topology) (a b : NodeId) :
    b ∈ t.neighbors a ↔ t.linked a b = true := by
  rw [linked_iff]
  simp only [neighbors, List.mem_append, List.mem_map, List.mem_filter, Bool.and_eq_true,
    beq_iff_eq, bne_iff_ne]
  constructor
  · rintro (⟨l, ⟨hl, hs⟩, ht⟩ | ⟨l, ⟨hl, ht, _⟩, hs⟩)
    · exact ⟨l, hl, Or.inl ⟨hs, ht⟩⟩
    · exact ⟨l, hl, Or.inr ⟨hs, ht⟩⟩
  · rintro ⟨l, hl, ⟨hs, ht⟩ | ⟨hs, ht⟩⟩
    · exact Or.inl ⟨l, ⟨hl, hs⟩, ht⟩
    · -- a link from a node to itself is listed once, at its source
      by_cases loop : l.source = a
      · exact Or.inl ⟨l, ⟨hl, loop⟩, by rw [ht, ← loop, hs]⟩
      · exact Or.inr ⟨l, ⟨hl, ht, loop⟩, hs⟩

theorem exists_portTowards?_iff {a b : NodeId} :
    (∃ port, t.portTowards? a b = some port) ↔ t.linked a b = true := by
  simp only [portTowards?, linked]
  rw [← Option.isSome_iff_exists, Option.isSome_map]

end Topology

end PathControl
