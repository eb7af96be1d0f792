/-
  PathControl/Proofs/SwitchPath.lean
  ==================================
  **Loop-free paths of switches, and how they come about.**

  A controller gets the path of a flow in two ways. It takes the switches of a path
  that a search found between two hosts (`Found.carries`), or it cuts a segment
  out of a path and puts another one in its place (`SwitchPath.withSegment`). Both
  give a simple path of switches; the second keeps both ends.
-/
import PathControl.Rebalance
import PathControl.Proofs.ShortestPath.Invariant

namespace PathControl

namespace Topology

/-- A path of switches, each linked to the next, on which no switch stands twice. -/
structure SwitchPath (t : Topology) (path : List NodeId) : Prop where
  nonempty : path ≠ []
  switches : ∀ n ∈ path, t.isSwitch n = true
  nodup : path.Nodup
  linked : t.isPath path = true

/-- A path of switches leads through no host. -/
theorem SwitchPath.admissible {t : Topology} {path : List NodeId} {first last : NodeId}
    (h : t.SwitchPath path) (head : path.head? = some first) (end_ : path.getLast? = some last) :
    t.AdmissibleWalk first last path := by
  refine ⟨head, end_, h.linked, ?_⟩
  intro n hn host
  have switch := h.switches n (List.mem_of_mem_tail (List.dropLast_subset _ hn))
  rw [isSwitch_eq_false host] at switch
  cases switch

theorem SwitchPath.part {t : Topology} {path part : List NodeId} (h : t.SwitchPath path)
    (inside : part <:+: path) (nonempty : part ≠ []) : t.SwitchPath part := by
  refine ⟨nonempty, ?_, h.nodup.sublist inside.sublist, ?_⟩
  · intro n hn
    exact h.switches n (inside.subset hn)
  · rw [t.isPath_iff]
    intro hop hh
    exact (t.isPath_iff path).1 h.linked hop (mem_hops_of_part inside hh)

/-- A path of switches from one next to the host that sends a flow to one next to the host that
    the flow is sent to. -/
structure Carries (t : Topology) (flow : Flow) (path : List NodeId) : Prop
    extends t.SwitchPath path where
  sender : ∃ host first, t.hostWith? flow.key.source = some host ∧ path.head? = some first ∧
    t.linked host first = true
  receiver : ∃ host last, t.hostWith? flow.key.destination = some host ∧
    path.getLast? = some last ∧ t.linked last host = true

end Topology

/-! ### Between two hosts -/

variable {W : Type} [Weight W] {t : Topology} {c : Calculator W} {source target : NodeId}
  {path : List NodeId}

namespace Topology.Found

/-- Only the ends of a found path are hosts. -/
theorem isSwitch_of_mem_interior (found : t.Found c source target path) {n : NodeId}
    (hn : n ∈ interior path) : t.isSwitch n = true := by
  obtain ⟨w, walk⟩ := found.walkTo
  have inTail : n ∈ path.tail := List.dropLast_subset _ hn
  have away : n ≠ source := by
    rintro rfl
    obtain ⟨rest, rfl⟩ := List.head?_eq_some_iff.1 walk.admissible.first
    exact (List.nodup_cons.1 found.nodup).1 inTail
  refine isSwitch_of_not_isHost (found.inside n (List.mem_of_mem_tail inTail)) ?_
  rw [← Bool.not_eq_true]
  intro host
  exact away (walk.admissible.transit n hn host)

/-- A found path between two hosts is the sender, the switches on it, and the receiver, unless
    there is no switch on it. -/
theorem eq_switches_between (found : t.Found c source target path)
    (sourceHost : t.isHost source = true) (targetHost : t.isHost target = true)
    (crosses : path.filter t.isSwitch ≠ []) :
    path = source :: (path.filter t.isSwitch ++ [target]) := by
  obtain ⟨w, walk⟩ := found.walkTo
  obtain ⟨rest, eq⟩ := List.head?_eq_some_iff.1 walk.admissible.first
  have between (n : NodeId) (hn : n ∈ interior path) := found.isSwitch_of_mem_interior hn
  have last := walk.admissible.last
  rw [eq] at crosses between last ⊢
  rw [List.filter_cons_of_neg (by simp [isSwitch_eq_false sourceHost])] at crosses ⊢
  rcases List.eq_nil_or_concat rest with rfl | ⟨middle, end_, rfl⟩
  · exact absurd rfl crosses
  · rw [List.concat_eq_append] at between last ⊢
    rw [← List.cons_append, List.getLast?_concat] at last
    obtain rfl := Option.some.inj last
    have switches : middle.filter t.isSwitch = middle := by
      refine List.filter_eq_self.2 fun n hn => between n ?_
      simpa [interior] using hn
    rw [List.filter_append, switches, List.filter_singleton, isSwitch_eq_false targetHost]
    simp

/-- **The switches on a found path between the hosts of a flow carry the flow.** -/
theorem carries {flow : Flow} (found : t.Found c source target path)
    (sender : t.hostWith? flow.key.source = some source)
    (receiver : t.hostWith? flow.key.destination = some target)
    (crosses : path.filter t.isSwitch ≠ []) : t.Carries flow (path.filter t.isSwitch) := by
  have eq := found.eq_switches_between (isHost_of_hostWith? sender)
    (isHost_of_hostWith? receiver) crosses
  obtain ⟨w, walk⟩ := found.walkTo
  have links := (t.isPath_iff path).1 walk.admissible.linked
  have nodup := found.nodup.filter t.isSwitch
  have switches (n : NodeId) (hn : n ∈ path.filter t.isSwitch) := (List.mem_filter.1 hn).2
  generalize path.filter t.isSwitch = middle at eq crosses nodup switches ⊢
  rw [eq] at links
  refine ⟨⟨crosses, switches, nodup, ?_⟩, ⟨source, middle.head crosses, sender, ?_, ?_⟩,
    ⟨target, middle.getLast crosses, receiver, ?_, ?_⟩⟩
  · exact (t.isPath_iff middle).2 fun hop hh =>
      links hop (mem_hops_of_part ⟨[source], [target], by simp⟩ hh)
  · exact List.head?_eq_some_head crosses
  · obtain ⟨first, rest, rfl⟩ := List.exists_cons_of_ne_nil crosses
    exact links (source, first) List.mem_cons_self
  · exact List.getLast?_eq_some_getLast crosses
  · obtain ⟨init, last, rfl⟩ := (List.eq_nil_or_concat middle).resolve_left crosses
    simp only [List.concat_eq_append] at links ⊢
    rw [List.getLast_concat]
    refine links (last, target) ?_
    rw [← List.cons_append, ← List.cons_append, hops_concat]
    exact List.mem_append_right _ (List.mem_singleton.2 rfl)

end Topology.Found

/-! ### Another segment -/

theorem mem_ends_or_interior {n : NodeId} (hn : n ∈ path) :
    path.head? = some n ∨ path.getLast? = some n ∨ n ∈ interior path := by
  cases path with
  | nil => cases hn
  | cons first rest =>
    rcases List.mem_cons.1 hn with rfl | hn
    · exact Or.inl rfl
    · rcases List.eq_nil_or_concat rest with rfl | ⟨init, last, rfl⟩
      · cases hn
      · rw [List.concat_eq_append] at hn ⊢
        rcases List.mem_append.1 hn with hn | hn
        · exact Or.inr (Or.inr (by simpa [interior] using hn))
        · rw [List.mem_singleton.1 hn, ← List.cons_append]
          exact Or.inr (Or.inl List.getLast?_concat)

/-- A segment with the same ends as the one that was cut out. -/
structure SegmentCut.SameEnds (cut : SegmentCut) (first last : NodeId) (segment : List NodeId) :
    Prop where
  oldFirst : cut.segment.head? = some first
  oldLast : cut.segment.getLast? = some last
  newFirst : segment.head? = some first
  newLast : segment.getLast? = some last

/-- A segment that can take the place of the one that was cut out: it has the same ends and stays
    off the rest of the path. -/
structure SegmentCut.Fits (cut : SegmentCut) (first last : NodeId) (segment : List NodeId) :
    Prop extends cut.SameEnds first last segment where
  apart : ∀ n ∈ segment, n ∉ cut.outside

/-- A path with a segment is simple if the segment is, the rest is, and they have no node in
    common. -/
theorem SegmentCut.nodup_withSegment_iff (cut : SegmentCut) (segment : List NodeId) :
    (cut.withSegment segment).Nodup ↔
      segment.Nodup ∧ cut.outside.Nodup ∧ ∀ n ∈ segment, n ∉ cut.outside := by
  have moved : (cut.withSegment segment).Perm (segment ++ cut.outside) := by
    simp only [withSegment, outside]
    rw [← List.append_assoc]
    exact List.perm_append_comm.append_right _
  rw [moved.nodup_iff, List.nodup_append]
  refine and_congr_right fun _ => and_congr_right fun _ => ?_
  exact ⟨fun h n hn out => h n hn n out rfl, fun h a ha b hb eq => h a ha (eq ▸ hb)⟩

section Segment

variable {cut : SegmentCut} {segment : List NodeId} {first last : NodeId}

namespace SegmentCut

theorem SameEnds.head? (ends : cut.SameEnds first last segment) :
    (cut.withSegment segment).head? = (cut.withSegment cut.segment).head? := by
  simp only [withSegment]
  simp only [List.head?_append, ends.newFirst, ends.oldFirst]

theorem SameEnds.getLast? (ends : cut.SameEnds first last segment) :
    (cut.withSegment segment).getLast? = (cut.withSegment cut.segment).getLast? := by
  simp only [withSegment]
  simp only [List.getLast?_append, ends.newLast, ends.oldLast]

/-- A link of the new path is a link of the new segment, or one of the old path that does not
    start at a node of either segment before its end. -/
theorem Fits.mem_hops (fits : cut.Fits first last segment)
    (nodup : (cut.withSegment cut.segment).Nodup) (simple : segment.Nodup)
    {hop : NodeId × NodeId} (h : hop ∈ hops (cut.withSegment segment)) :
    hop ∈ hops segment ∨ hop ∈ hops (cut.withSegment cut.segment) ∧
      hop.1 ∉ segment.dropLast ∧ hop.1 ∉ cut.left segment := by
  have apartOld := ((cut.nodup_withSegment_iff cut.segment).1 nodup).2.2
  have unsettled (n : NodeId) (out : n ∈ cut.outside) :
      n ∉ segment.dropLast ∧ n ∉ cut.left segment :=
    ⟨fun hit => fits.apart n (List.dropLast_subset _ hit) out,
      fun hit => apartOld n (List.mem_filter.1 hit).1 out⟩
  simp only [withSegment] at h ⊢
  rw [hops_splice fits.newFirst fits.newLast] at h
  rw [hops_splice fits.oldFirst fits.oldLast]
  rcases List.mem_append.1 h with h | h
  · rcases List.mem_append.1 h with h | h
    · refine Or.inr ⟨List.mem_append_left _ (List.mem_append_left _ h), unsettled _ ?_⟩
      have start := (mem_of_mem_hops h).1
      rw [List.dropLast_concat] at start
      exact List.mem_append_left _ start
    · exact Or.inl h
  · refine Or.inr ⟨List.mem_append_right _ h, ?_⟩
    rcases List.mem_cons.1 (List.dropLast_subset _ (mem_of_mem_hops h).1) with same | out
    · -- the last node of the segment keeps its link
      rw [same]
      refine ⟨not_mem_dropLast simple fits.newLast, ?_⟩
      simp [left, List.mem_of_getLast? fits.newLast]
    · exact unsettled _ (List.mem_append_right _ out)

end SegmentCut

theorem Topology.Found.sameEnds (found : t.Found c first last segment)
    (oldFirst : cut.segment.head? = some first) (oldLast : cut.segment.getLast? = some last) :
    cut.SameEnds first last segment := by
  obtain ⟨w, walk⟩ := found.walkTo
  exact ⟨oldFirst, oldLast, walk.admissible.first, walk.admissible.last⟩

theorem Topology.Found.fits [LawfulWeight W]
    (found : t.Found (c.excluding cut.outside) first last segment)
    (nodup : (cut.withSegment cut.segment).Nodup) (oldFirst : cut.segment.head? = some first)
    (oldLast : cut.segment.getLast? = some last) : cut.Fits first last segment := by
  refine ⟨found.sameEnds oldFirst oldLast, ?_⟩
  intro n hn outside
  obtain ⟨w, walk⟩ := found.walkTo
  obtain rfl := walk.avoids n hn outside
  have apart := ((cut.nodup_withSegment_iff cut.segment).1 nodup).2.2
  exact apart n (List.mem_of_mem_head? oldFirst) outside

/-- **A path stays a simple path of switches when a found segment takes the place of its own.** -/
theorem Topology.SwitchPath.withSegment (whole : t.SwitchPath (cut.withSegment cut.segment))
    (fits : cut.Fits first last segment) (found : t.Found c first last segment) :
    t.SwitchPath (cut.withSegment segment) := by
  have inside {n : NodeId} (hn : n ∈ cut.segment) : n ∈ cut.withSegment cut.segment :=
    List.mem_append_left _ (List.mem_append_right _ hn)
  have nodup := (cut.nodup_withSegment_iff cut.segment).1 whole.nodup
  obtain ⟨w, walk⟩ := found.walkTo
  refine ⟨?_, ?_, ?_, ?_⟩
  · intro empty
    have ends := fits.head?
    rw [empty] at ends
    exact whole.nonempty (List.head?_eq_none_iff.1 ends.symm)
  · intro n hn
    simp only [SegmentCut.withSegment] at hn
    rcases List.mem_append.1 hn with hn | hn
    · rcases List.mem_append.1 hn with hn | hn
      · exact whole.switches n (List.mem_append_left _ (List.mem_append_left _ hn))
      · rcases mem_ends_or_interior hn with same | same | hn
        · rw [fits.newFirst] at same
          cases same
          exact whole.switches _ (inside (List.mem_of_mem_head? fits.oldFirst))
        · rw [fits.newLast] at same
          cases same
          exact whole.switches _ (inside (List.mem_of_getLast? fits.oldLast))
        · exact found.isSwitch_of_mem_interior hn
    · exact whole.switches n (List.mem_append_right _ hn)
  · exact (cut.nodup_withSegment_iff segment).2 ⟨found.nodup, nodup.2.1, fits.apart⟩
  · rw [t.isPath_iff]
    intro hop hh
    rcases fits.mem_hops whole.nodup found.nodup hh with hh | ⟨hh, _⟩
    · exact (t.isPath_iff segment).1 walk.admissible.linked hop hh
    · exact (t.isPath_iff _).1 whole.linked hop hh

theorem Topology.Carries.withSegment {flow : Flow}
    (whole : t.Carries flow (cut.withSegment cut.segment))
    (fits : cut.Fits first last segment) (found : t.Found c first last segment) :
    t.Carries flow (cut.withSegment segment) := by
  refine ⟨whole.toSwitchPath.withSegment fits found, ?_, ?_⟩
  · rw [fits.head?]
    exact whole.sender
  · rw [fits.getLast?]
    exact whole.receiver

end Segment

end PathControl
