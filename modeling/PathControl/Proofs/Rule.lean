/-
  PathControl/Proofs/Rule.lean
  ============================
  **What the switches do once they have carried out their instructions.**

  Carrying out instructions one after another gives every switch an output port for
  some flows. Rules along a simple path make each of its switches but the last send
  the flow to the next one (`follows_installRules`). Rules of one flow leave all
  others alone, and rules for some switches leave the others alone.
-/
import PathControl.Rule
import PathControl.Proofs.Result
import PathControl.Proofs.Walk

namespace PathControl

/-! ### Carrying out instructions -/

/-- The port on which each switch sends the packets of each flow. -/
def Forwarding : Type := Dpid → Flow → Option Port

/-- The rule of a flow at a switch is entered or deleted. -/
def Instruction.Concerns (dpid : Dpid) (flow : Flow) : Instruction → Prop
  | .install d f _ | .delete d f => d = dpid ∧ f = flow
  | _ => False

namespace Forwarding

def empty : Forwarding := fun _ _ => none

/-- Enter or delete the rule of a flow at a switch. -/
def set (r : Forwarding) (dpid : Dpid) (flow : Flow) (port : Option Port) : Forwarding :=
  fun d f => if d = dpid ∧ f = flow then port else r d f

def apply (r : Forwarding) : Instruction → Forwarding
  | .install dpid flow port => r.set dpid flow (some port)
  | .delete dpid flow => r.set dpid flow none
  | _ => r

def replay (r : Forwarding) (sent : List Instruction) : Forwarding := sent.foldl apply r

@[simp] theorem replay_append (r : Forwarding) (sent more : List Instruction) :
    r.replay (sent ++ more) = (r.replay sent).replay more := List.foldl_append

variable {r : Forwarding} {dpid : Dpid} {flow : Flow} {port : Port}

theorem apply_of_not_concerns {i : Instruction} (h : ¬ i.Concerns dpid flow) :
    r.apply i dpid flow = r dpid flow := by
  cases i with
  | install d f p => exact if_neg fun same => h ⟨same.1.symm, same.2.symm⟩
  | delete d f => exact if_neg fun same => h ⟨same.1.symm, same.2.symm⟩
  | tableMiss d => rfl
  | missConfig d => rfl
  | hostRoute d ip p => rfl

theorem replay_of_not_concerns {sent : List Instruction}
    (h : ∀ i ∈ sent, ¬ i.Concerns dpid flow) : r.replay sent dpid flow = r dpid flow := by
  induction sent generalizing r with
  | nil => rfl
  | cons i sent ih =>
    obtain ⟨first, later⟩ := List.forall_mem_cons.1 h
    exact (ih later).trans (apply_of_not_concerns first)

/-- A rule that is entered, or was there before, stays if no instruction says otherwise. -/
theorem replay_eq_some {sent : List Instruction}
    (agree : ∀ i ∈ sent, i.Concerns dpid flow → i = .install dpid flow port)
    (entered : r dpid flow = some port ∨ .install dpid flow port ∈ sent) :
    r.replay sent dpid flow = some port := by
  induction sent generalizing r with
  | nil => exact entered.resolve_right List.not_mem_nil
  | cons i sent ih =>
    obtain ⟨first, later⟩ := List.forall_mem_cons.1 agree
    refine ih later ?_
    by_cases concerns : i.Concerns dpid flow
    · rw [first concerns]
      exact Or.inl (if_pos ⟨rfl, rfl⟩)
    · rw [apply_of_not_concerns concerns]
      refine entered.imp_right fun hit => (List.mem_cons.1 hit).resolve_left ?_
      rintro rfl
      exact concerns ⟨rfl, rfl⟩

/-! ### Rules along a path -/

/-- Every switch of a path but the last sends the flow on towards the next one. -/
def Follows (r : Forwarding) (t : Topology) (flow : Flow) (path : List NodeId) : Prop :=
  ∀ hop ∈ hops path, ∃ dpid port, t.dpid? hop.1 = some dpid ∧
    t.portTowards? hop.1 hop.2 = some port ∧ r dpid flow = some port

end Forwarding

namespace Topology

variable {t : Topology} {flow : Flow} {path nodes : List NodeId} {rules : List Instruction}

theorem hopRule_eq_ok_iff {hop : NodeId × NodeId} {i : Instruction} :
    t.hopRule flow hop = .ok i ↔ ∃ dpid port, t.dpid? hop.1 = some dpid ∧
      t.portTowards? hop.1 hop.2 = some port ∧ i = .install dpid flow port := by
  simp only [hopRule]
  cases towards : t.portTowards? hop.1 hop.2 with
  | none => simp
  | some port =>
    dsimp only
    rw [bind_eq_ok_iff]
    simp only [dpidOf_eq_ok_iff, pure, Except.pure, Except.ok.injEq, Option.some.injEq]
    constructor
    · rintro ⟨dpid, hd, rfl⟩
      exact ⟨dpid, port, hd, rfl, rfl⟩
    · rintro ⟨dpid, _, hd, rfl, rfl⟩
      exact ⟨dpid, hd, rfl⟩

/-- The rules along a path: one for each hop, and nothing else. -/
theorem mem_installRules (h : t.installRules path flow = .ok rules) :
    (∀ hop ∈ hops path, ∃ dpid port, t.dpid? hop.1 = some dpid ∧
      t.portTowards? hop.1 hop.2 = some port ∧ .install dpid flow port ∈ rules) ∧
    ∀ i ∈ rules, ∃ hop ∈ hops path, ∃ dpid port, t.dpid? hop.1 = some dpid ∧
      t.portTowards? hop.1 hop.2 = some port ∧ i = .install dpid flow port := by
  obtain ⟨results, sources⟩ := mem_of_mapM h
  constructor
  · intro hop hh
    obtain ⟨i, hi, rule⟩ := results hop (List.mem_reverse.2 hh)
    obtain ⟨dpid, port, hd, towards, rfl⟩ := hopRule_eq_ok_iff.1 rule
    exact ⟨dpid, port, hd, towards, hi⟩
  · intro i hi
    obtain ⟨hop, hh, rule⟩ := sources i hi
    exact ⟨hop, List.mem_reverse.1 hh, hopRule_eq_ok_iff.1 rule⟩

theorem concerns_of_installRules (h : t.installRules path flow = .ok rules) {i : Instruction}
    (hi : i ∈ rules) {dpid : Dpid} {other : Flow} (concerns : i.Concerns dpid other) :
    other = flow := by
  obtain ⟨hop, _, d, port, _, _, rfl⟩ := (mem_installRules h).2 i hi
  exact concerns.2.symm

theorem mem_deleteRules (h : t.deleteRules nodes flow = .ok rules) :
    ∀ i ∈ rules, ∃ n ∈ nodes.dropLast, ∃ dpid, t.dpid? n = some dpid ∧
      i = .delete dpid flow := by
  intro i hi
  obtain ⟨n, hn, rule⟩ := (mem_of_mapM h).2 i hi
  obtain ⟨dpid, hd, rule⟩ := bind_eq_ok_iff.1 rule
  cases rule
  exact ⟨n, hn, dpid, dpidOf_eq_ok_iff.1 hd, rfl⟩

/-- A path of switches with datapath ids has rules. -/
theorem exists_installRules (linked : t.isPath path = true)
    (named : ∀ n ∈ path, ∃ dpid, t.dpid? n = some dpid) :
    ∃ rules, t.installRules path flow = .ok rules := by
  apply exists_mapM
  intro hop hh
  have here : hop ∈ hops path := List.mem_reverse.1 hh
  obtain ⟨dpid, hd⟩ := named hop.1 (List.dropLast_subset _ (mem_of_mem_hops here).1)
  obtain ⟨port, towards⟩ := exists_portTowards?_iff.2 ((t.isPath_iff path).1 linked hop here)
  exact ⟨_, hopRule_eq_ok_iff.2 ⟨dpid, port, hd, towards, rfl⟩⟩

theorem exists_deleteRules (named : ∀ n ∈ nodes, ∃ dpid, t.dpid? n = some dpid) :
    ∃ rules, t.deleteRules nodes flow = .ok rules := by
  apply exists_mapM
  intro n hn
  obtain ⟨dpid, hd⟩ := named n (List.dropLast_subset _ hn)
  exact ⟨_, bind_eq_ok_iff.2 ⟨dpid, dpidOf_eq_ok_iff.2 hd, rfl⟩⟩

/-- The rules along a path, up to some point, are the rules along an end of the path. -/
theorem installRules_prefix {sent : List Instruction} (h : t.installRules path flow = .ok rules)
    (nonempty : path ≠ []) (begun : sent <+: rules) :
    ∃ back, back <:+ path ∧ back ≠ [] ∧ t.installRules back flow = .ok sent := by
  induction path generalizing rules with
  | nil => exact absurd rfl nonempty
  | cons a rest ih =>
    cases rest with
    | nil =>
      cases h
      rw [List.prefix_nil.1 begun]
      exact ⟨[a], List.suffix_refl _, by simp, rfl⟩
    | cons b rest =>
      have whole := h
      -- the rule of the first hop is the last one
      simp only [installRules] at h
      rw [List.tail_cons, List.zip_cons_cons, List.reverse_cons, List.mapM_append] at h
      obtain ⟨later, along, h⟩ := bind_eq_ok_iff.1 h
      obtain ⟨first, rule, h⟩ := bind_eq_ok_iff.1 h
      cases h
      rw [List.mapM_cons] at rule
      obtain ⟨i, _, rule⟩ := bind_eq_ok_iff.1 rule
      cases rule
      rcases List.prefix_concat_iff.1 begun with rfl | begun
      · exact ⟨a :: b :: rest, List.suffix_refl _, by simp, whole⟩
      · obtain ⟨back, isBack, some_, rules⟩ := ih along (by simp) begun
        exact ⟨back, isBack.trans (List.suffix_cons a _), some_, rules⟩

/-- What a switch is told when it connects concerns no flow. -/
theorem not_concerns_of_handshake {n : NodeId} (h : t.handshake n = .ok rules) {i : Instruction}
    (hi : i ∈ rules) (dpid : Dpid) : ¬ i.Concerns dpid flow := by
  obtain ⟨d, _, h⟩ := bind_eq_ok_iff.1 h
  cases h
  rcases List.mem_cons.1 hi with rfl | hi
  · exact id
  · rcases List.mem_cons.1 hi with rfl | hi
    · exact id
    · obtain ⟨host, _, route⟩ := List.mem_filterMap.1 hi
      obtain ⟨ip, _, rfl⟩ := Option.map_eq_some_iff.1 route
      exact id

end Topology

namespace Forwarding

variable {t : Topology} {r : Forwarding} {flow : Flow} {path : List NodeId}
  {rules : List Instruction}

/-- The rules along a simple path lead along it. -/
theorem follows_installRules (nodup : path.Nodup) (h : t.installRules path flow = .ok rules) :
    (r.replay rules).Follows t flow path := by
  obtain ⟨entered, only⟩ := Topology.mem_installRules h
  intro hop hh
  obtain ⟨dpid, port, hd, towards, hi⟩ := entered hop hh
  refine ⟨dpid, port, hd, towards, replay_eq_some ?_ (Or.inr hi)⟩
  intro i hi concerns
  obtain ⟨other, ho, dpid', port', hd', towards', rfl⟩ := only i hi
  obtain ⟨rfl, _⟩ := concerns
  obtain rfl : other = hop := hop_unique nodup ho hh (Topology.dpid?_inj hd' hd)
  rw [towards] at towards'
  cases towards'
  rfl

/-- Rules along a path leave the last node of the path and all nodes off it alone. -/
theorem replay_installRules (h : t.installRules path flow = .ok rules) {n : NodeId} {dpid : Dpid}
    (away : n ∉ path.dropLast) (hd : t.dpid? n = some dpid) :
    r.replay rules dpid flow = r dpid flow := by
  apply replay_of_not_concerns
  intro i hi concerns
  obtain ⟨hop, hh, dpid', port, hd', _, rfl⟩ := (Topology.mem_installRules h).2 i hi
  obtain ⟨rfl, _⟩ := concerns
  rw [Topology.dpid?_inj hd hd'] at away
  exact away (mem_of_mem_hops hh).1

/-- Forgetting the rules at some nodes, or at a part of them, leaves all others alone. -/
theorem replay_deleteRules {nodes : List NodeId} {sent : List Instruction}
    (h : t.deleteRules nodes flow = .ok rules) (part : ∀ i ∈ sent, i ∈ rules) {n : NodeId}
    {dpid : Dpid} (away : n ∉ nodes) (hd : t.dpid? n = some dpid) :
    r.replay sent dpid flow = r dpid flow := by
  apply replay_of_not_concerns
  intro i hi concerns
  obtain ⟨n', hn', dpid', hd', rfl⟩ := Topology.mem_deleteRules h i (part i hi)
  obtain ⟨rfl, _⟩ := concerns
  rw [Topology.dpid?_inj hd hd'] at away
  exact away (List.dropLast_subset _ hn')

/-- Instructions that concern other flows only keep a flow on its path. -/
theorem Follows.replay (h : r.Follows t flow path)
    (others : ∀ i ∈ rules, ∀ dpid, ¬ i.Concerns dpid flow) :
    (r.replay rules).Follows t flow path := by
  intro hop hh
  obtain ⟨dpid, port, hd, towards, rule⟩ := h hop hh
  exact ⟨dpid, port, hd, towards,
    (replay_of_not_concerns fun i hi => others i hi dpid).trans rule⟩

end Forwarding

end PathControl
