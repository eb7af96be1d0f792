/-
  PathControl/Proofs/Rebalance/Handover.lean
  ==========================================
  **While a flow moves, its packets still arrive.**

  The switches carry out the instructions of a move one after another, so in between
  some send the flow along the new segment and others along the old path. New rules
  are entered from the end of the segment backwards. At every moment they therefore
  lead from wherever a packet meets the first of them to the end of the path: a packet
  runs along the old path up to a switch that has its new rule, and along the new path
  from there (`exists_detour`). The old rules are deleted when none is met any more.

  `Forwarding.next?` follows the rules port by port through the cables of the network.
-/
import PathControl.Proofs.Rebalance
import PathControl.Proofs.Topology.Port
import PathControl.Proofs.Weight.FlexWeight

namespace PathControl

/-! ### Following the rules -/

namespace Forwarding

/-- The node that a flow comes to next from a switch, by the rule there and the cable on the port
    that the rule names. -/
def next? (r : Forwarding) (t : Topology) (flow : Flow) (n : NodeId) : Option NodeId := do
  let dpid ← t.dpid? n
  let port ← r dpid flow
  t.behind? n port

theorem Follows.next?_eq {r : Forwarding} {t : Topology} {flow : Flow} {path : List NodeId}
    (h : r.Follows t flow path) (built : t.Built) :
    ∀ hop ∈ hops path, r.next? t flow hop.1 = some hop.2 := by
  intro hop hh
  obtain ⟨dpid, port, hd, towards, rule⟩ := h hop hh
  simp only [next?]
  rw [hd, Option.bind_eq_bind, Option.bind_some, rule, Option.bind_eq_bind, Option.bind_some]
  exact Topology.behind?_of_portTowards? built towards

end Forwarding

/-! ### From one path to another -/

/-- A walk along one path up to the first node of another, and along that one from there. -/
theorem exists_detour {old new : List NodeId} {last : NodeId} (simple : old.Nodup)
    (simple' : new.Nodup) (oldLast : old.getLast? = some last)
    (newLast : new.getLast? = some last) :
    ∃ walk, walk.head? = old.head? ∧ walk.getLast? = some last ∧ walk.Nodup ∧
      (∀ n ∈ walk, n ∈ old ∨ n ∈ new) ∧
      ∀ hop ∈ hops walk, hop ∈ hops new ∨ hop ∈ hops old ∧ hop.1 ∉ new := by
  induction old with
  | nil => cases oldLast
  | cons a rest ih =>
    by_cases meets : a ∈ new
    · obtain ⟨front, back, rfl⟩ := List.append_of_mem meets
      have part : a :: back <:+ front ++ a :: back := List.suffix_append _ _
      refine ⟨a :: back, rfl, ?_, simple'.sublist part.sublist, ?_, ?_⟩
      · rw [List.getLast?_append_of_ne_nil _ (by simp)] at newLast
        exact newLast
      · intro n hn
        exact Or.inr (part.subset hn)
      · intro hop hh
        exact Or.inl (mem_hops_of_part part.isInfix hh)
    · cases rest with
      | nil =>
        -- both paths end at the same node
        rw [List.getLast?_singleton] at oldLast
        cases oldLast
        exact absurd (List.mem_of_getLast? newLast) meets
      | cons b rest =>
        obtain ⟨fresh, simpleRest⟩ := List.nodup_cons.1 simple
        rw [List.getLast?_cons_cons] at oldLast
        obtain ⟨walk, first, last', nodup, within, along⟩ := ih simpleRest oldLast
        obtain ⟨walk, rfl⟩ := List.head?_eq_some_iff.1 first
        refine ⟨a :: b :: walk, rfl, ?_, ?_, ?_, ?_⟩
        · rw [List.getLast?_cons_cons]
          exact last'
        · refine List.nodup_cons.2 ⟨?_, nodup⟩
          intro again
          rcases within a again with hit | hit
          · exact fresh hit
          · exact meets hit
        · intro n hn
          rcases List.mem_cons.1 hn with rfl | hn
          · exact Or.inl List.mem_cons_self
          · exact (within n hn).imp_left (List.mem_cons_of_mem a)
        · intro hop hh
          rw [hops_cons_cons] at hh ⊢
          rcases List.mem_cons.1 hh with rfl | hh
          · exact Or.inr ⟨List.mem_cons_self, meets⟩
          · rcases along hop hh with new | ⟨old, away⟩
            · exact Or.inl new
            · exact Or.inr ⟨List.mem_cons_of_mem _ old, away⟩

/-! ### Moments of a move -/

/-- The rules lead from the first node of a path to its last one, through no node twice. -/
def Forwarding.Delivers (r : Forwarding) (t : Topology) (flow : Flow) (path : List NodeId) : Prop :=
  ∃ walk, walk.head? = path.head? ∧ walk.getLast? = path.getLast? ∧ walk.Nodup ∧
    ∀ hop ∈ hops walk, r.next? t flow hop.1 = some hop.2

variable {W : Type} [Weight W] [LawfulWeight W] {t : Topology} {c : Calculator W} {flow : Flow}
  {cut : SegmentCut} {first last : NodeId} {segment : List NodeId} {rules : List Instruction}
  {r : Forwarding}

namespace Moved

/-- While the new rules are entered, those that are there lead on from a switch of the new
    segment, and the old ones lead up to it. -/
theorem delivers_installing (m : Moved t c flow cut first last segment rules) (built : t.Built)
    (simple : (cut.withSegment cut.segment).Nodup)
    (h : r.Follows t flow (cut.withSegment cut.segment)) {installs sent : List Instruction}
    (entered : t.installRules segment flow = .ok installs) (begun : sent <+: installs) :
    (r.replay sent).Delivers t flow (cut.withSegment cut.segment) := by
  have fits := m.fits simple
  have found := (Topology.found_of_shortestPath m.found).nodup
  have nonempty : segment ≠ [] := by
    rintro rfl
    cases fits.newLast
  -- the rules sent so far are those along `back`
  obtain ⟨back, isBack, some_, along⟩ := Topology.installRules_prefix entered nonempty begun
  have simpleBack : back.Nodup := found.sublist isBack.sublist
  have backFirst := List.head?_eq_some_head some_
  have backLast : back.getLast? = some last := by
    obtain ⟨front, rfl⟩ := isBack
    rw [← fits.newLast, List.getLast?_append_of_ne_nil _ some_]
  have simpleRest : (back ++ cut.after).Nodup := by
    have whole : (cut.withSegment segment).Nodup :=
      (cut.nodup_withSegment_iff segment).2
        ⟨found, ((cut.nodup_withSegment_iff _).1 simple).2.1, fits.apart⟩
    refine whole.sublist ?_
    simp only [SegmentCut.withSegment]
    exact (isBack.sublist.trans (List.sublist_append_right _ _)).append_right _
  have sameLast : (back ++ cut.after).getLast? = (cut.withSegment cut.segment).getLast? := by
    simp [SegmentCut.withSegment, List.getLast?_append, backLast, fits.oldLast]
  have some_' : back ++ cut.after ≠ [] := by simp [some_]
  rw [List.getLast?_eq_some_getLast some_'] at sameLast
  obtain ⟨walk, head, getLast, nodup, -, hopsOf⟩ :=
    exists_detour simple simpleRest sameLast.symm (List.getLast?_eq_some_getLast some_')
  refine ⟨walk, head, getLast.trans sameLast, nodup, ?_⟩
  have untouched {hop : NodeId × NodeId} (old : hop ∈ hops (cut.withSegment cut.segment))
      (away : hop.1 ∉ back.dropLast) : ∃ dpid port, t.dpid? hop.1 = some dpid ∧
        t.portTowards? hop.1 hop.2 = some port ∧ r.replay sent dpid flow = some port := by
    obtain ⟨dpid, port, hd, towards, rule⟩ := h hop old
    exact ⟨dpid, port, hd, towards, (Forwarding.replay_installRules along away hd).trans rule⟩
  refine Forwarding.Follows.next?_eq ?_ built
  intro hop hh
  rcases hopsOf hop hh with new | ⟨old, away⟩
  · rw [← List.nil_append back, hops_splice backFirst backLast] at new
    simp only [List.nil_append, hops_singleton, List.mem_append] at new
    rcases new with new | rest
    · exact Forwarding.follows_installRules simpleBack along hop new
    · apply untouched
      · simp only [SegmentCut.withSegment]
        rw [hops_splice fits.oldFirst fits.oldLast]
        exact List.mem_append_right _ rest
      · rcases List.mem_cons.1 (List.dropLast_subset _ (mem_of_mem_hops rest).1) with same | out
        · rw [same]
          exact not_mem_dropLast simpleBack backLast
        · intro hit
          exact fits.apart _ (isBack.subset (List.dropLast_subset _ hit))
            (List.mem_append_right _ out)
  · apply untouched old
    intro hit
    exact away (List.mem_append_left _ (List.dropLast_subset _ hit))

/-- **At every moment of a move the rules lead from the first switch of the path to the last.** -/
theorem delivers (m : Moved t c flow cut first last segment rules) (built : t.Built)
    (simple : (cut.withSegment cut.segment).Nodup)
    (h : r.Follows t flow (cut.withSegment cut.segment)) {sent : List Instruction}
    (begun : sent <+: rules) : (r.replay sent).Delivers t flow (cut.withSegment cut.segment) := by
  obtain ⟨installs, deletes, entered, deleted, rfl⟩ := m.rules
  rcases List.prefix_or_prefix_of_prefix begun (List.prefix_append _ _) with before | ⟨more, rfl⟩
  · exact m.delivers_installing built simple h entered before
  · have part : more <+: deletes := (List.prefix_append_right_inj installs).1 begun
    have fits := m.fits simple
    have follows := m.follows_deleting simple h entered deleted fun i hi => part.subset hi
    refine ⟨cut.withSegment segment, fits.head?, fits.getLast?, ?_, follows.next?_eq built⟩
    exact (cut.nodup_withSegment_iff segment).2 ⟨(Topology.found_of_shortestPath m.found).nodup,
      ((cut.nodup_withSegment_iff _).1 simple).2.1, fits.apart⟩

end Moved

/-- **A reroute never breaks forwarding on the way.** Whichever of the instructions of a move have
    been carried out, in the order in which they are sent, following the rules of the flow port by
    port from the first switch of its path arrives at the last one and meets no switch twice. -/
theorem delivers_of_reroute {table : FlowTable} {v : NodeId} {path path' : List NodeId}
    {sent : List Instruction} (built : t.Built) (known : table.path? flow = some path)
    (switches : t.SwitchPath path) (follows : r.Follows t flow path)
    (moves : reroute t c table flow v = .ok (.moved path' rules)) (begun : sent <+: rules) :
    (r.replay sent).Delivers t flow path := by
  simp only [reroute] at moves
  rw [known] at moves
  obtain ⟨cut, first, last, segment, rfl, -, moved⟩ := moved_of_reroutePath moves
  exact moved.delivers built switches.nodup follows begun

/-- A way through two switches, and one through a single switch. -/
def bypass : Topology :=
  (((((((((((Topology.empty.addSwitch "near" 1).addSwitch "up" 2).addSwitch "down" 3).addSwitch
    "far" 4).addSwitch "side" 5).addLink 0 1).addLink 1 2).addLink 2 3).addLink 0 4).addLink 4 3))

theorem built_bypass : bypass.Built :=
  ((((((((((Topology.Built.empty.switch "near" 1).switch "up" 2).switch "down" 3).switch
    "far" 4).switch "side" 5).link rfl rfl).link rfl rfl).link rfl rfl).link rfl rfl).link rfl rfl)

/-- The two switches of the first way violate their budgets. -/
def bypassWeights : Calculator FlexWeight :=
  .ofWeights #[⟨.zero, 0, 0⟩, ⟨.zero, 1, 0⟩, ⟨.zero, 1, 0⟩, ⟨.zero, 0, 0⟩, ⟨.zero, 0, 0⟩]
    ⟨.zero, 0, 1⟩

def bypassFlow : Flow := ⟨.ethernet 1 ⟨1⟩ ⟨2⟩, 500⟩

def bypassTable : FlowTable := FlowTable.empty.install bypassFlow [0, 1, 2, 3]

/-- The rules along the first way. -/
def bypassRules : Forwarding :=
  Forwarding.empty.replay
    [.install 3 bypassFlow 2, .install 2 bypassFlow 2, .install 1 bypassFlow 1]

theorem reroute_bypass : reroute bypass bypassWeights bypassTable bypassFlow 1 =
    .ok (.moved [0, 4, 3]
      [.install 5 bypassFlow 2, .install 1 bypassFlow 2, .delete 2 bypassFlow]) := by
  have found : bypass.shortestPath (bypassWeights.excluding []) 0 3 = .ok [0, 4, 3] :=
    Topology.shortestPath_of_within 8 (by decide) (by decide +kernel)
  simp only [reroute, bypassTable, FlowTable.path?_install, if_true]
  change (bypass.shortestPath (bypassWeights.excluding []) 0 3 >>= _) = _
  rw [found]
  rfl

theorem delivers_of_reroute_bypass :
    bypass.Built ∧ bypassTable.path? bypassFlow = some [0, 1, 2, 3] ∧
      bypass.SwitchPath [0, 1, 2, 3] ∧ bypassRules.Follows bypass bypassFlow [0, 1, 2, 3] ∧
      ∀ sent, sent <+: [.install 5 bypassFlow 2, .install 1 bypassFlow 2, .delete 2 bypassFlow] →
        (bypassRules.replay sent).Delivers bypass bypassFlow [0, 1, 2, 3] := by
  have known : bypassTable.path? bypassFlow = some [0, 1, 2, 3] := by
    simp only [bypassTable, FlowTable.path?_install, if_true]
  have switches : bypass.SwitchPath [0, 1, 2, 3] :=
    ⟨by decide, by decide, by decide, by decide⟩
  have follows : bypassRules.Follows bypass bypassFlow [0, 1, 2, 3] :=
    Forwarding.follows_installRules switches.nodup rfl
  refine ⟨built_bypass, known, switches, follows, ?_⟩
  intro sent begun
  exact delivers_of_reroute built_bypass known switches follows reroute_bypass begun

end PathControl
