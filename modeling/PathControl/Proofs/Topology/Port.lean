/-
  PathControl/Proofs/Topology/Port.lean
  =====================================
  **A port leads to one node.**

  In a network that is built up from nothing, the ports of the link ends at a node are
  1, 2, 3 and so on in the order in which the links were added (`ports_linkEnds`). So
  no two cables share a port, and whatever leaves a node by the port towards another
  node arrives there (`behind?_of_portTowards?`).
-/
import PathControl.Proofs.Topology
import Mathlib.Data.List.Nodup

namespace PathControl

/-- The ends of a link at a node, each with its port and the node at the other end. -/
def Link.endsAt (l : Link) (n : NodeId) : List (Port × NodeId) :=
  (if l.source = n then [(l.sourcePort, l.target)] else []) ++
    if l.target = n then [(l.targetPort, l.source)] else []

/-- The port of one of the nodes that a link joins is that of an end with the other node at
the far side. -/
theorem Link.Joins.mem_endsAt {l : Link} {a b : NodeId} (joins : l.Joins a b) :
    (l.portOn a, b) ∈ l.endsAt a := by
  simp only [portOn, endsAt]
  by_cases out : l.source = a
  · rcases joins with ⟨_, far⟩ | ⟨far, loop⟩
    · simp [out, far]
    · -- a link from a node to itself has both ends there
      simp [out, loop, far.symm.trans out]
  · rcases joins with ⟨here, _⟩ | ⟨far, here⟩
    · exact absurd here out
    · rw [if_neg out, if_neg out, if_pos here, far]
      simp

theorem Link.joins_of_mem_endsAt {l : Link} {a b : NodeId} {port : Port}
    (isEnd : (port, b) ∈ l.endsAt a) : l.Joins a b := by
  rcases List.mem_append.1 isEnd with isEnd | isEnd
  · obtain ⟨out, isEnd⟩ := List.mem_ite_nil_right.1 isEnd
    cases List.mem_singleton.1 isEnd
    exact .inl ⟨out, rfl⟩
  · obtain ⟨back, isEnd⟩ := List.mem_ite_nil_right.1 isEnd
    cases List.mem_singleton.1 isEnd
    exact .inr ⟨rfl, back⟩

namespace Topology

/-- Networks that are built up from nothing, each link between nodes that exist. -/
inductive Built : Topology → Prop where
  | empty : Built .empty
  | host {t : Topology} (before : Built t) (name : String) (ip : Option Ipv4Address)
      (mac : MacAddress) : Built (t.addHost name ip mac)
  | switch {t : Topology} (before : Built t) (name : String) (dpid : Dpid) :
      Built (t.addSwitch name dpid)
  | link {t : Topology} {a b : NodeId} (before : Built t) (ha : t.contains a = true)
      (hb : t.contains b = true) : Built (t.addLink a b)

/-- The link ends at a node in the order in which they were added. -/
def linkEnds (t : Topology) (n : NodeId) : List (Port × NodeId) :=
  t.links.reverse.flatMap (·.endsAt n)

/-- The node that the cable on a port of a node leads to. -/
def behind? (t : Topology) (n : NodeId) (port : Port) : Option NodeId :=
  ((t.linkEnds n).find? (·.1 == port)).map Prod.snd

variable {t : Topology} {a b n : NodeId} {port : Port}

/-! ### Ports are given out in order -/

theorem portsGiven_givePort (t : Topology) (a n : NodeId) :
    (t.givePort a).portsGiven.getD n 0 =
      t.portsGiven.getD n 0 + if a = n then 1 else 0 := by
  simp only [givePort, nextPort]
  rw [Std.TreeMap.getD_insert]
  simp only [Std.LawfulEqCmp.compare_eq_iff_eq]
  split
  · next same => rw [same]
  · rfl

theorem addLink_eq (ha : t.contains a = true) (hb : t.contains b = true) :
    (t.addLink a b).links = ⟨a, b, t.nextPort a, (t.givePort a).nextPort b⟩ :: t.links ∧
      (t.addLink a b).portsGiven = ((t.givePort a).givePort b).portsGiven := by
  simp only [contains, decide_eq_true_eq] at ha hb
  simp only [addLink]
  split
  · exact ⟨rfl, rfl⟩
  · next missing => exact absurd ⟨ha, hb⟩ missing

/-- **The ports of the link ends at a node are 1, 2, 3 and so on.** -/
theorem Built.ports_linkEnds (h : t.Built) (n : NodeId) :
    (t.linkEnds n).map Prod.fst = List.range' 1 (t.portsGiven.getD n 0) := by
  induction h with
  | empty => simp [linkEnds, Topology.empty]
  | host before name ip mac ih => exact ih
  | switch before name dpid ih => exact ih
  | @link t a b before ha hb ih =>
    obtain ⟨links, given⟩ := addLink_eq ha hb
    simp only [linkEnds] at ih ⊢
    rw [links, given, List.reverse_cons, List.flatMap_append, List.map_append, ih,
      portsGiven_givePort, portsGiven_givePort]
    simp only [Link.endsAt, nextPort, portsGiven_givePort, List.flatMap_singleton]
    -- a link from a node to itself takes two ports of it
    by_cases atA : a = n <;> by_cases atB : b = n
    · subst atA
      subst atB
      simp [List.range'_1_concat, Nat.add_comm 1]
    · subst atA
      simp [atB, List.range'_1_concat, Nat.add_comm 1]
    · subst atB
      simp [atA, List.range'_1_concat, Nat.add_comm 1]
    · simp [atA, atB]

theorem Built.nodup_ports (h : t.Built) (n : NodeId) : ((t.linkEnds n).map Prod.fst).Nodup := by
  rw [h.ports_linkEnds]
  exact List.nodup_range'

/-! ### Ports lead where they say -/

theorem mem_linkEnds_iff {e : Port × NodeId} :
    e ∈ t.linkEnds n ↔ ∃ l ∈ t.links, e ∈ l.endsAt n := by
  simp [linkEnds]

theorem mem_linkEnds_of_portTowards? (h : t.portTowards? a b = some port) :
    (port, b) ∈ t.linkEnds a := by
  obtain ⟨l, found, rfl⟩ := Option.map_eq_some_iff.1 h
  obtain ⟨here, joins⟩ := link?_spec found
  exact mem_linkEnds_iff.2 ⟨l, here, joins.mem_endsAt⟩

/-- What leaves a node by the port towards another node arrives there. -/
theorem behind?_of_portTowards? (built : t.Built) (h : t.portTowards? a b = some port) :
    t.behind? a port = some b := by
  have here := mem_linkEnds_of_portTowards? h
  simp only [behind?]
  cases found : (t.linkEnds a).find? (·.1 == port) with
  | none =>
    have missing := List.find?_eq_none.1 found _ here
    simp at missing
  | some other =>
    have samePort : other.1 = port := by simpa using List.find?_some found
    have same := List.inj_on_of_nodup_map (built.nodup_ports a) (List.mem_of_find?_eq_some found)
      here samePort
    rw [same]
    rfl

end Topology

end PathControl
