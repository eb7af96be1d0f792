/-
  PathControl/Proofs/Topology/Addition.lean
  =========================================
  **The ports of a network follow from the order in which it was built.**

  Hosts, switches and links are added one after another, each link between nodes that
  exist by then. What stands at the far sides of the link ends at a node can be read off
  the additions (`map_snd_linkEnds_addAll`), and the ends have the ports 1, 2, 3 and so on
  in that order. A port towards another node exists exactly if a link to it was added
  (`addAll_ports`).
-/
import PathControl.Proofs.Topology.Port

namespace PathControl

/-! ### Additions -/

/-- One step in building a network. -/
inductive Addition where
  | host (name : String) (ip : Option Ipv4Address) (mac : MacAddress)
  | switch (name : String) (dpid : Dpid)
  | link (a b : NodeId)
deriving DecidableEq

/-- The nodes at the far sides of the link ends that an addition makes at a node. A link from
the node to itself makes two ends. -/
def Addition.farNodes (n : NodeId) : Addition → List NodeId
  | link a b => (if a = n then [b] else []) ++ if b = n then [a] else []
  | _ => []

theorem Addition.mem_farNodes_iff {addition : Addition} {a b : NodeId} :
    b ∈ addition.farNodes a ↔ addition = .link a b ∨ addition = .link b a := by
  cases addition with
  | host name ip mac => simp [farNodes]
  | switch name dpid => simp [farNodes]
  | link c d =>
    simp only [farNodes, List.mem_append, link.injEq]
    by_cases out : c = a <;> by_cases back : d = a <;> simp [out, back, eq_comm]

namespace Topology

def add (t : Topology) : Addition → Topology
  | .host name ip mac => t.addHost name ip mac
  | .switch name dpid => t.addSwitch name dpid
  | .link a b => t.addLink a b

def addAll (t : Topology) (additions : List Addition) : Topology := additions.foldl add t

/-- The nodes of a link exist when it is added. -/
def Admits (t : Topology) : Addition → Prop
  | .link a b => t.contains a = true ∧ t.contains b = true
  | _ => True

/-- The nodes of every link exist when its turn comes. -/
def AdmitsAll (t : Topology) : List Addition → Prop
  | [] => True
  | addition :: rest => t.Admits addition ∧ (t.add addition).AdmitsAll rest

variable {t : Topology} {additions : List Addition} {addition : Addition} {a b n : NodeId}

theorem Built.add (built : t.Built) (admits : t.Admits addition) : (t.add addition).Built := by
  cases addition with
  | host name ip mac => exact built.host name ip mac
  | switch name dpid => exact built.switch name dpid
  | link a b => exact built.link admits.1 admits.2

theorem Built.addAll (built : t.Built) (admits : t.AdmitsAll additions) :
    (t.addAll additions).Built := by
  induction additions generalizing t with
  | nil => exact built
  | cons addition rest ih => exact ih (built.add admits.1) admits.2

/-! ### Far nodes -/

theorem map_snd_linkEnds_add (admits : t.Admits addition) :
    ((t.add addition).linkEnds n).map Prod.snd =
      (t.linkEnds n).map Prod.snd ++ addition.farNodes n := by
  cases addition with
  | host name ip mac => exact (List.append_nil _).symm
  | switch name dpid => exact (List.append_nil _).symm
  | link a b =>
    simp only [add, linkEnds]
    rw [(addLink_eq admits.1 admits.2).1, List.reverse_cons, List.flatMap_append, List.map_append]
    simp only [List.flatMap_singleton, Link.endsAt, Addition.farNodes]
    by_cases atA : a = n <;> by_cases atB : b = n <;> simp [atA, atB]

/-- **The far nodes of the link ends at a node are those of the additions, in order.** -/
theorem map_snd_linkEnds_addAll (admits : t.AdmitsAll additions) :
    ((t.addAll additions).linkEnds n).map Prod.snd =
      (t.linkEnds n).map Prod.snd ++ additions.flatMap (·.farNodes n) := by
  induction additions generalizing t with
  | nil => exact (List.append_nil _).symm
  | cons addition rest ih =>
    calc
      (((t.add addition).addAll rest).linkEnds n).map Prod.snd
        = ((t.add addition).linkEnds n).map Prod.snd ++ rest.flatMap (·.farNodes n) := ih admits.2
      _ = (t.linkEnds n).map Prod.snd ++ (addition :: rest).flatMap (·.farNodes n) := by
        rw [map_snd_linkEnds_add admits.1, List.append_assoc, List.flatMap_cons]

theorem exists_joins_iff_mem_linkEnds :
    (∃ l ∈ t.links, l.Joins a b) ↔ b ∈ (t.linkEnds a).map Prod.snd := by
  constructor
  · rintro ⟨l, here, joins⟩
    exact List.mem_map.2 ⟨_, mem_linkEnds_iff.2 ⟨l, here, joins.mem_endsAt⟩, rfl⟩
  · intro far
    obtain ⟨⟨port, _⟩, isEnd, rfl⟩ := List.mem_map.1 far
    obtain ⟨l, here, isEnd⟩ := mem_linkEnds_iff.1 isEnd
    exact ⟨l, here, Link.joins_of_mem_endsAt isEnd⟩

/-- A link was added between two nodes, in whichever order it named them. -/
theorem exists_joins_iff (admits : AdmitsAll .empty additions) :
    (∃ l ∈ (empty.addAll additions).links, l.Joins a b) ↔
      .link a b ∈ additions ∨ .link b a ∈ additions := by
  rw [exists_joins_iff_mem_linkEnds, map_snd_linkEnds_addAll admits]
  change b ∈ [] ++ additions.flatMap _ ↔ _
  simp only [List.nil_append, List.mem_flatMap, Addition.mem_farNodes_iff]
  constructor
  · rintro ⟨addition, here, rfl | rfl⟩
    · exact .inl here
    · exact .inr here
  · rintro (here | here)
    · exact ⟨_, here, .inl rfl⟩
    · exact ⟨_, here, .inr rfl⟩

/-! ### Ports -/

/-- **The ports of a network that is built from nothing.** At every node they are 1, 2, 3 and
so on in the order in which the link ends were added. A node has a port towards another one
exactly if a link was added between them; that is the port of an end with the other node at
its far side, whichever of the links between the two it is read off. -/
theorem addAll_ports (admits : AdmitsAll .empty additions) :
    let t := empty.addAll additions
    (∀ n,
      (t.linkEnds n).map Prod.snd = additions.flatMap (·.farNodes n) ∧
        (t.linkEnds n).map Prod.fst =
          List.range' 1 (additions.flatMap (·.farNodes n)).length) ∧
      ∀ a b,
        ((∃ port, t.portTowards? a b = some port) ↔ ∃ l ∈ t.links, l.Joins a b) ∧
          ((∃ l ∈ t.links, l.Joins a b) ↔ .link a b ∈ additions ∨ .link b a ∈ additions) ∧
          (∀ port, t.portTowards? a b = some port → (port, b) ∈ t.linkEnds a) ∧
          ∀ l ∈ t.links, l.Joins a b → (l.portOn a, b) ∈ t.linkEnds a := by
  intro t
  have built : t.Built := Built.empty.addAll admits
  constructor
  · intro n
    have far : (t.linkEnds n).map Prod.snd = additions.flatMap (·.farNodes n) :=
      map_snd_linkEnds_addAll admits
    refine ⟨far, ?_⟩
    have count := congrArg List.length (built.ports_linkEnds n)
    rw [List.length_map, List.length_range'] at count
    rw [built.ports_linkEnds, ← count, ← far, List.length_map]
  · intro a b
    refine ⟨?_, exists_joins_iff admits, fun port => mem_linkEnds_of_portTowards?, ?_⟩
    · exact exists_portTowards?_iff.trans (linked_iff t a b)
    · intro l here joins
      exact mem_linkEnds_iff.2 ⟨l, here, joins.mem_endsAt⟩

/-- A switch with a link to itself, and two links to a host that name them in either order. -/
theorem addAll_ports_selfLoop :
    let additions : List Addition :=
      [.host "h0" none ⟨0⟩, .switch "s0" 1, .link 0 1, .link 1 1, .link 1 0]
    let t := empty.addAll additions
    AdmitsAll .empty additions ∧ (t.linkEnds 1).map Prod.fst = [1, 2, 3, 4] ∧
      (t.linkEnds 1).map Prod.snd = [0, 1, 1, 0] ∧ (∃ port, t.portTowards? 0 1 = some port) ∧
        ¬ ∃ port, t.portTowards? 0 0 = some port := by
  intro additions t
  have admits : AdmitsAll .empty additions :=
    ⟨trivial, trivial, ⟨rfl, rfl⟩, ⟨rfl, rfl⟩, ⟨rfl, rfl⟩, trivial⟩
  obtain ⟨ends, towards⟩ := addAll_ports admits
  refine ⟨admits, (ends 1).2, (ends 1).1, ?_, ?_⟩
  · exact (towards 0 1).1.2 ((towards 0 1).2.1.2 (by decide))
  · intro port
    exact absurd ((towards 0 0).2.1.1 ((towards 0 0).1.1 port)) (by decide)

end Topology

end PathControl
