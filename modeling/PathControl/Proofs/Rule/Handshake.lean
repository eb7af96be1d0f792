/-
  PathControl/Proofs/Rule/Handshake.lean
  ======================================
  **A switch that connects gets a route for every link to a host with an address.**

  The routes come from a walk over the neighbours of the switch, where a host stands
  once for every link to it (`count_neighbors`). The port of a route is looked up by
  the host, so all routes to one host are the same. There is one route for each host
  exactly if no host with an address was linked to the switch twice
  (`handshake_routes_iff`).
-/
import PathControl.Proofs.Rule
import PathControl.Proofs.Topology.Addition
import Mathlib.Data.List.Perm.Subperm
import Mathlib.Data.List.Forall2

namespace PathControl

/-- How many links between two nodes are added, in whichever order they name them. -/
def linksAdded (additions : List Addition) (a b : NodeId) : Nat :=
  additions.count (.link a b) + additions.count (.link b a)

theorem Addition.count_farNodes (addition : Addition) {n h : NodeId} (away : h ≠ n) :
    (addition.farNodes n).count h =
      (if addition == .link n h then 1 else 0) + if addition == .link h n then 1 else 0 := by
  rcases addition with ⟨name, ip, mac⟩ | ⟨name, dpid⟩ | ⟨a, b⟩
  · rfl
  · rfl
  · by_cases out : a = n <;> by_cases back : b = n <;>
      simp [farNodes, out, back, List.count_cons, away.symm]

theorem count_farNodes (additions : List Addition) {n h : NodeId} (away : h ≠ n) :
    (additions.flatMap (·.farNodes n)).count h = linksAdded additions n h := by
  induction additions with
  | nil => rfl
  | cons addition additions ih =>
    simp only [linksAdded, List.flatMap_cons, List.count_append, List.count_cons] at ih ⊢
    rw [addition.count_farNodes away, ih]
    omega

namespace Topology

variable {t : Topology} {n h : NodeId} {dpid : Dpid} {port : Port}

/-! ### Hosts next to a switch -/

/-- A node stands among the neighbours of another one as often as links join them. -/
theorem count_neighbors (away : h ≠ n) :
    (t.neighbors n).count h = ((t.linkEnds n).map Prod.snd).count h := by
  simp only [neighbors, linkEnds]
  rw [((List.reverse_perm t.links).flatMap_right _).map Prod.snd |>.count_eq]
  generalize t.links = links
  induction links with
  | nil => rfl
  | cons l links ih =>
    simp only [List.flatMap_cons, List.map_append, List.count_append] at ih ⊢
    rw [← ih]
    -- the far sides of a link from the node to itself are the node, which does not count
    by_cases out : l.source = n <;> by_cases back : l.target = n <;>
      simp [Link.endsAt, out, back, List.count_cons, away.symm] <;> omega

theorem attachmentOrder_iff {a b : NodeId × Port} :
    attachmentOrder a b = true ↔ a.1 < b.1 ∨ a.1 = b.1 ∧ a.2 ≤ b.2 := by
  simp [attachmentOrder]

theorem ordered_attachedHosts : ((t.attachedHosts n).map Prod.fst).Pairwise (· ≤ ·) := by
  have ordered : (t.attachedHosts n).Pairwise fun a b => attachmentOrder a b = true := by
    apply List.pairwise_mergeSort
    · intro a b c
      simp only [attachmentOrder_iff]
      unfold NodeId Port at *
      omega
    · intro a b
      simp only [Bool.or_eq_true, attachmentOrder_iff]
      unfold NodeId Port at *
      omega
  refine List.pairwise_map.2 (ordered.imp ?_)
  intro a b before
  rcases attachmentOrder_iff.1 before with less | ⟨same, _⟩
  · exact Nat.le_of_lt less
  · exact Nat.le_of_eq same

theorem portTowards?_of_mem_attachedHosts (here : (h, port) ∈ t.attachedHosts n) :
    t.portTowards? n h = some port := by
  obtain ⟨h', _, found⟩ := List.mem_filterMap.1 ((List.mergeSort_perm _ _).mem_iff.1 here)
  obtain ⟨port', towards, same⟩ := Option.map_eq_some_iff.1 found
  cases same
  exact towards

theorem attachedHosts_perm :
    ((t.attachedHosts n).map Prod.fst).Perm ((t.neighbors n).filter t.isHost) := by
  refine ((List.mergeSort_perm _ _).map Prod.fst).trans (List.Perm.of_eq ?_)
  rw [List.map_filterMap]
  refine (List.filterMap_congr ?_).trans List.filterMap_some
  intro h here
  obtain ⟨port, towards⟩ := exists_portTowards?_iff.2
    ((t.mem_neighbors_iff n h).1 (List.mem_filter.1 here).1)
  rw [towards]
  rfl

/-! ### Routes -/

/-- The IPv4 address of a host that has one. -/
def ipv4? (t : Topology) (n : NodeId) : Option Ipv4Address := (t.host? n).bind Host.ip

/-- The route of a switch to a host with an address. -/
def routeTo? (t : Topology) (n : NodeId) (dpid : Dpid) (h : NodeId) : Option Instruction :=
  (t.ipv4? h).bind fun ip => (t.portTowards? n h).map fun port => .hostRoute dpid ip port

/-- The hosts with addresses next to a switch, each as often as it is linked. -/
def routedHosts (t : Topology) (n : NodeId) : List NodeId :=
  ((t.attachedHosts n).map Prod.fst).filter fun h => (t.ipv4? h).isSome

/-- An instruction that carries the address of a host and a port behind which it is. -/
def LeadsTo (t : Topology) (n : NodeId) (dpid : Dpid) (h : NodeId) (i : Instruction) : Prop :=
  ∃ ip port, t.ipv4? h = some ip ∧ t.behind? n port = some h ∧ i = .hostRoute dpid ip port

theorem handshake_eq (named : t.dpid? n = some dpid) :
    t.handshake n = .ok (.tableMiss dpid :: .missConfig dpid ::
      (t.routedHosts n).filterMap (t.routeTo? n dpid)) := by
  have routes : (t.attachedHosts n).filterMap (fun a =>
      (t.ipv4? a.1).map fun ip => .hostRoute dpid ip a.2) =
      (t.routedHosts n).filterMap (t.routeTo? n dpid) := by
    rw [routedHosts, List.filterMap_filter, List.filterMap_map]
    apply List.filterMap_congr
    rintro ⟨h, port⟩ here
    change (t.ipv4? h).map _ = if (t.ipv4? h).isSome = true then t.routeTo? n dpid h else none
    rw [routeTo?, portTowards?_of_mem_attachedHosts here]
    cases t.ipv4? h <;> rfl
  simp only [handshake]
  rw [dpidOf_eq_ok_iff.2 named, ← routes]
  rfl

theorem ordered_routedHosts : (t.routedHosts n).Pairwise (· ≤ ·) := ordered_attachedHosts.filter _

theorem isHost_of_ipv4? (addressed : (t.ipv4? h).isSome) : t.isHost h = true := by
  obtain ⟨ip, known⟩ := Option.isSome_iff_exists.1 addressed
  obtain ⟨host, here, _⟩ := Option.bind_eq_some_iff.1 known
  exact Option.isSome_iff_exists.2 ⟨host, here⟩

theorem ne_of_ipv4? (named : t.dpid? n = some dpid) (addressed : (t.ipv4? h).isSome) : h ≠ n := by
  rintro rfl
  obtain ⟨s, switch, _⟩ := switch?_of_dpid? named
  have isSwitch : t.isSwitch h = true := Option.isSome_iff_exists.2 ⟨s, switch⟩
  rw [isSwitch_eq_false (isHost_of_ipv4? addressed)] at isSwitch
  cases isSwitch

theorem count_routedHosts (named : t.dpid? n = some dpid) (h : NodeId) :
    (t.routedHosts n).count h =
      if (t.ipv4? h).isSome then ((t.linkEnds n).map Prod.snd).count h else 0 := by
  split
  · next addressed =>
    rw [routedHosts, List.count_filter (p := fun h => (t.ipv4? h).isSome) addressed,
      attachedHosts_perm.count_eq,
      List.count_filter (isHost_of_ipv4? addressed), count_neighbors (ne_of_ipv4? named addressed)]
  · next without =>
    apply List.count_eq_zero_of_not_mem
    intro here
    exact without (List.mem_filter.1 here).2

theorem mem_routedHosts_iff : h ∈ t.routedHosts n ↔ (t.ipv4? h).isSome ∧ t.linked n h = true := by
  rw [routedHosts, List.mem_filter, attachedHosts_perm.mem_iff, List.mem_filter, mem_neighbors_iff]
  constructor
  · rintro ⟨⟨linked, _⟩, addressed⟩
    exact ⟨addressed, linked⟩
  · rintro ⟨addressed, linked⟩
    exact ⟨⟨linked, isHost_of_ipv4? addressed⟩, addressed⟩

theorem exists_route (built : t.Built) (dpid : Dpid) (here : h ∈ t.routedHosts n) :
    ∃ route, t.routeTo? n dpid h = some route ∧ t.LeadsTo n dpid h route := by
  obtain ⟨addressed, linked⟩ := mem_routedHosts_iff.1 here
  obtain ⟨ip, known⟩ := Option.isSome_iff_exists.1 addressed
  obtain ⟨port, towards⟩ := exists_portTowards?_iff.2 linked
  refine ⟨.hostRoute dpid ip port, ?_, ip, port, known, behind?_of_portTowards? built towards, rfl⟩
  rw [routeTo?, known, towards]
  rfl

theorem leadsTo_routes (built : t.Built) (dpid : Dpid) {hosts : List NodeId}
    (part : hosts ⊆ t.routedHosts n) :
    List.Forall₂ (t.LeadsTo n dpid) hosts (hosts.filterMap (t.routeTo? n dpid)) := by
  induction hosts with
  | nil => exact .nil
  | cons h hosts ih =>
    obtain ⟨first, rest⟩ := List.cons_subset.1 part
    obtain ⟨route, found, leads⟩ := exists_route built dpid first
    rw [List.filterMap_cons_some found]
    exact .cons leads (ih rest)

/-! ### One route for each host -/

/-- A switch gets the two rules for packets without a rule, then one route for each host with an
address next to it, and nothing else. -/
def RoutesOnce (t : Topology) (n : NodeId) (dpid : Dpid) : Prop :=
  ∃ hosts routes, t.handshake n = .ok (.tableMiss dpid :: .missConfig dpid :: routes) ∧
    hosts.Nodup ∧ (∀ h, h ∈ hosts ↔ (t.ipv4? h).isSome ∧ t.linked n h = true) ∧
    List.Forall₂ (t.LeadsTo n dpid) hosts routes

/-- There are as many routes as links, so they are one for each host only if no host comes twice. -/
theorem routesOnce_iff_nodup (built : t.Built) (named : t.dpid? n = some dpid) :
    t.RoutesOnce n dpid ↔ (t.routedHosts n).Nodup := by
  have lead := leadsTo_routes built dpid (List.Subset.refl (t.routedHosts n))
  constructor
  · rintro ⟨hosts, routes, sent, once, members, leads⟩
    rw [handshake_eq named] at sent
    simp only [Except.ok.injEq, List.cons.injEq, true_and] at sent
    have count : (t.routedHosts n).length = hosts.length := by
      rw [leads.length_eq, lead.length_eq, sent]
    have part : hosts ⊆ t.routedHosts n := fun h here => mem_routedHosts_iff.2 ((members h).1 here)
    exact ((once.subperm part).perm_of_length_le (Nat.le_of_eq count)).nodup_iff.1 once
  · intro once
    exact ⟨_, _, handshake_eq named, once, fun h => mem_routedHosts_iff, lead⟩

/-- **A switch that connects gets one route for every link to a host with an address.** After the
two rules for packets without a rule come these routes and nothing else, in the order of the hosts.
Each carries the address of its host and a port that leads there, the same for all routes to one
host. So there is one route for each host exactly if none with an address was linked twice. -/
theorem handshake_routes_iff {additions : List Addition} (admits : AdmitsAll .empty additions)
    (named : (empty.addAll additions).dpid? n = some dpid) :
    let t := empty.addAll additions
    (∃ hosts, t.handshake n = .ok (.tableMiss dpid :: .missConfig dpid ::
        hosts.filterMap (t.routeTo? n dpid)) ∧ hosts.Pairwise (· ≤ ·) ∧
      (∀ h, hosts.count h = if (t.ipv4? h).isSome then linksAdded additions n h else 0) ∧
      List.Forall₂ (t.LeadsTo n dpid) hosts (hosts.filterMap (t.routeTo? n dpid))) ∧
    (t.RoutesOnce n dpid ↔ ∀ h, (t.ipv4? h).isSome → linksAdded additions n h ≤ 1) := by
  intro t
  have built : t.Built := Built.empty.addAll admits
  have counts (h : NodeId) : (t.routedHosts n).count h =
      if (t.ipv4? h).isSome then linksAdded additions n h else 0 := by
    rw [count_routedHosts named]
    split
    · next addressed =>
      rw [map_snd_linkEnds_addAll admits, ← count_farNodes additions (ne_of_ipv4? named addressed)]
      rfl
    · rfl
  refine ⟨⟨_, handshake_eq named, ordered_routedHosts, counts,
    leadsTo_routes built dpid (List.Subset.refl _)⟩, ?_⟩
  rw [routesOnce_iff_nodup built named, List.nodup_iff_count_le_one]
  refine forall_congr' fun h => ?_
  rw [counts h]
  split
  · next addressed => simp only [addressed, forall_const]
  · next without => simp [without]

/-- A switch with two links to one host and one to another, a link to itself and a link to a host
without an address. -/
def mixedAdditions : List Addition :=
  [.host "h0" (some (.ofOctets 10 0 0 1)) ⟨1⟩, .switch "s0" 7, .host "h1" none ⟨2⟩,
    .host "h2" (some (.ofOctets 10 0 0 3)) ⟨3⟩, .link 0 1, .link 1 1, .link 2 1, .link 1 3, .link 1 0]

theorem handshake_routes_iff_mixed :
    let t := empty.addAll mixedAdditions
    AdmitsAll .empty mixedAdditions ∧ t.dpid? 1 = some 7 ∧
      (∃ hosts : List NodeId, t.handshake 1 = .ok (.tableMiss 7 :: .missConfig 7 ::
          hosts.filterMap (t.routeTo? 1 7)) ∧ hosts.Pairwise (· ≤ ·) ∧
        hosts.count 0 = 2 ∧ hosts.count 2 = 0 ∧ hosts.count 3 = 1) ∧
      ¬ t.RoutesOnce 1 7 := by
  intro t
  have admits : AdmitsAll .empty mixedAdditions :=
    ⟨trivial, trivial, trivial, trivial, ⟨rfl, rfl⟩, ⟨rfl, rfl⟩, ⟨rfl, rfl⟩, ⟨rfl, rfl⟩, ⟨rfl, rfl⟩,
      trivial⟩
  have named : t.dpid? 1 = some 7 := by decide
  obtain ⟨⟨hosts, sent, ordered, counts, _⟩, once⟩ := handshake_routes_iff admits named
  refine ⟨admits, named, ⟨hosts, sent, ordered, ?_, ?_, ?_⟩, ?_⟩
  · rw [counts]
    decide
  · rw [counts]
    decide
  · rw [counts]
    decide
  · intro all
    exact absurd (once.1 all 0 (by decide)) (by decide)

def doubledAdditions : List Addition :=
  [.host "h0" (some (.ofOctets 10 0 0 1)) ⟨1⟩, .switch "s0" 1, .link 0 1, .link 0 1]

/-- A host with two links to a switch gets two routes, both to the port of the later link. -/
theorem not_routesOnce_doubled :
    let t := empty.addAll doubledAdditions
    AdmitsAll .empty doubledAdditions ∧ t.dpid? 1 = some 1 ∧
      t.handshake 1 = .ok [.tableMiss 1, .missConfig 1,
        .hostRoute 1 (.ofOctets 10 0 0 1) 2, .hostRoute 1 (.ofOctets 10 0 0 1) 2] ∧
      ¬ t.RoutesOnce 1 1 := by
  intro t
  have admits : AdmitsAll .empty doubledAdditions :=
    ⟨trivial, trivial, ⟨rfl, rfl⟩, ⟨rfl, rfl⟩, trivial⟩
  have named : t.dpid? 1 = some 1 := by decide
  have hosts : t.attachedHosts 1 = [(0, 2), (0, 2)] :=
    (List.mergeSort_of_pairwise (by decide)).trans (by decide)
  refine ⟨admits, named, ?_, ?_⟩
  · simp only [handshake]
    rw [hosts, dpidOf_eq_ok_iff.2 named]
    rfl
  intro once
  have nodup := (routesOnce_iff_nodup (Built.empty.addAll admits) named).1 once
  have count := List.nodup_iff_count_le_one.1 nodup 0
  rw [count_routedHosts named] at count
  exact absurd count (by decide)

end Topology

end PathControl
