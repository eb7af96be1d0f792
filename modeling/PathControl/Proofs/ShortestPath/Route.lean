/-
  PathControl/Proofs/ShortestPath/Route.lean
  ==========================================
  **The routes that the labels of a search lead back along.**

  A `Route` to a node is read off the labels, from each node to the previous one. It
  runs through settled nodes only, so it stays as it is while labels of other nodes
  change. `Frontier.trace` gives the nodes of a route; `Frontier.traceWithin` does so
  only if the way back ends, and on a route it does (`Route.traceWithin`).
-/
import PathControl.Proofs.ShortestPath.Loop
import Mathlib.Data.List.Nodup

namespace PathControl

variable {W : Type}

/-! ### Labels -/

theorem Frontier.getElem?_insert (labels : Std.TreeMap NodeId (Label W)) (next n : NodeId)
    (label : Label W) :
    (labels.insert next label)[n]? = if n = next then some label else labels[n]? := by
  rw [Std.TreeMap.getElem?_insert]
  simp only [Std.LawfulEqCmp.compare_eq_iff_eq, @eq_comm _ next]

/-- The way back from a node if it ends within a number of steps, and no result otherwise. -/
def Frontier.traceWithin (f : Frontier W) : Nat → NodeId → List NodeId → Option (List NodeId)
  | 0, _, _ => none
  | steps + 1, n, after =>
    match f.previous? n with
    | some p => f.traceWithin steps p (n :: after)
    | none => some (n :: after)

theorem Frontier.trace_of_within {f : Frontier W} {steps : Nat} {n : NodeId}
    {after nodes : List NodeId} (h : f.traceWithin (steps + 1) n after = some nodes) :
    f.trace steps n after = nodes := by
  induction steps generalizing n after with
  | zero =>
    simp only [traceWithin] at h
    split at h
    · cases h
    · exact Option.some.inj h
  | succ steps ih =>
    rw [traceWithin] at h
    simp only [trace]
    cases known : f.previous? n with
    | none =>
      rw [known] at h
      exact Option.some.inj h
    | some p =>
      rw [known] at h
      exact ih h

variable [Weight W]

/-! ### Routes -/

/-- The way to a node that the labels lead back along, through settled nodes. -/
inductive Route (t : Topology) (c : Calculator W) (source : NodeId) (settled : List NodeId)
    (f : Frontier W) : List NodeId → NodeId → W → Prop where
  | start (label : f.labels[source]? = some ⟨Weight.initial, none⟩) :
      Route t c source settled f [source] source Weight.initial
  | step {walk : List NodeId} {p n : NodeId} {a e b : W}
      (front : Route t c source settled f walk p a) (final : p ∈ settled) (fresh : n ∉ walk)
      (passable : p = source ∨ t.isHost p = false) (linked : t.linked p n = true)
      (link : c.linkWeight p n = some e) (total : Weight.combine a e = some b)
      (viable : Weight.Viable b) (label : f.labels[n]? = some ⟨b, some p⟩) :
      Route t c source settled f (walk ++ [n]) n b

section Route

variable {t : Topology} {c : Calculator W} {source n : NodeId} {settled : List NodeId}
  {f : Frontier W} {walk : List NodeId} {w : W}

theorem Route.walkTo (h : Route t c source settled f walk n w) :
    WalkTo t c source (fun _ _ => True) walk n w := by
  induction h with
  | start label => exact WalkTo.start
  | step front final fresh passable linked link total viable label ih =>
    exact ih.step passable linked link total viable trivial

theorem Route.label (h : Route t c source settled f walk n w) :
    ∃ previous, f.labels[n]? = some ⟨w, previous⟩ := by
  cases h with
  | start label => exact ⟨_, label⟩
  | step _ _ _ _ _ _ _ _ label => exact ⟨_, label⟩

theorem Route.nodup (h : Route t c source settled f walk n w) : walk.Nodup := by
  induction h with
  | start label => exact List.nodup_singleton _
  | step front final fresh passable linked link total viable label ih =>
    exact List.nodup_append.2 ⟨ih, List.nodup_singleton _, by
      intro a ha b hb
      rw [List.mem_singleton.1 hb]
      rintro rfl
      exact fresh ha⟩

/-- The nodes of a route before its end are settled. -/
theorem Route.mem_settled (h : Route t c source settled f walk n w) :
    ∀ m ∈ walk, m = n ∨ m ∈ settled := by
  induction h with
  | start label =>
    intro m hm
    exact Or.inl (List.mem_singleton.1 hm)
  | step front final fresh passable linked link total viable label ih =>
    intro m hm
    rcases List.mem_append.1 hm with hm | hm
    · rcases ih m hm with rfl | hm
      · exact Or.inr final
      · exact Or.inr hm
    · exact Or.inl (List.mem_singleton.1 hm)

theorem Route.inside (h : Route t c source settled f walk n w)
    (known : t.contains source = true) : ∀ m ∈ walk, t.contains m = true :=
  h.walkTo.inside known

/-- A route only depends on the labels of its nodes. -/
theorem Route.mono {settled' : List NodeId} {f' : Frontier W}
    (h : Route t c source settled f walk n w) (more : ∀ m ∈ settled, m ∈ settled')
    (same : ∀ m ∈ walk, f'.labels[m]? = f.labels[m]?) :
    Route t c source settled' f' walk n w := by
  induction h with
  | start label => exact Route.start ((same _ (by simp)).trans label)
  | step front final fresh passable linked link total viable label ih =>
    exact Route.step (ih fun m hm => same m (List.mem_append_left _ hm)) (more _ final) fresh
      passable linked link total viable ((same _ (by simp)).trans label)

theorem Route.contains (h : Route t c source settled f walk n w)
    (known : t.contains source = true) : t.contains n = true :=
  h.inside known n (List.mem_of_getLast? h.walkTo.admissible.last)

theorem Route.source_mem (h : Route t c source settled f walk n w) : source ∈ walk :=
  List.mem_of_mem_head? h.walkTo.admissible.first

theorem Route.not_mem {next : NodeId} (h : Route t c source settled f walk n w)
    (fresh : next ∉ settled) (away : n ≠ next) : next ∉ walk := by
  intro hit
  rcases h.mem_settled next hit with rfl | final
  · exact away rfl
  · exact fresh final

/-- A new label of an unsettled node leaves the routes to other nodes as they are. -/
theorem Route.insert {next : NodeId} (h : Route t c source settled f walk n w)
    (fresh : next ∉ settled) (away : n ≠ next) (label : Label W) (queue : MinQueue W NodeId) :
    Route t c source settled ⟨f.labels.insert next label, queue⟩ walk n w := by
  apply h.mono (fun _ hm => hm)
  intro m hm
  rw [Frontier.getElem?_insert, if_neg]
  rintro rfl
  exact h.not_mem fresh away hm

/-- The way to a node on a route is a route to it. -/
theorem Route.front (h : Route t c source settled f walk n w) {front : List NodeId} {m : NodeId}
    (begins : front ++ [m] <+: walk) : ∃ a, Route t c source settled f (front ++ [m]) m a := by
  induction h with
  | start label =>
    obtain ⟨rfl, rfl⟩ : front = [] ∧ m = source := by
      cases front with
      | nil => simpa using begins
      | cons b front => simp at begins
    exact ⟨_, Route.start label⟩
  | step before final fresh passable linked link total viable label ih =>
    rcases List.prefix_concat_iff.1 begins with whole | part
    · obtain ⟨rfl, last⟩ := List.append_inj' whole rfl
      cases last
      exact ⟨_, before.step final fresh passable linked link total viable label⟩
    · exact ih part

/-- No other route leads to the source than the one without links. -/
theorem Route.source_score (h : Route t c source settled f walk source w) :
    w = Weight.initial := by
  cases h with
  | start label => rfl
  | step front final fresh => exact absurd front.source_mem fresh

theorem Route.length_le (h : Route t c source settled f walk n w)
    (known : t.contains source = true) : walk.length ≤ t.size :=
  Topology.length_le_size h.nodup (h.inside known)

theorem Route.traceWithin (h : Route t c source settled f walk n w) (steps : Nat)
    (enough : walk.length ≤ steps) (after : List NodeId) :
    f.traceWithin steps n after = some (walk ++ after) := by
  induction h generalizing steps after with
  | start label =>
    cases steps with
    | zero => cases enough
    | succ steps =>
      simp only [Frontier.traceWithin, Frontier.previous?]
      rw [label]
      rfl
  | @step walk p n a e b front final fresh passable linked link total viable label ih =>
    rw [List.length_append, List.length_singleton] at enough
    cases steps with
    | zero => cases enough
    | succ steps =>
      simp only [Frontier.traceWithin, Frontier.previous?]
      rw [label]
      change f.traceWithin steps p (n :: after) = _
      rw [ih steps (by omega), List.append_assoc]
      rfl

theorem Route.trace (h : Route t c source settled f walk n w) (steps : Nat)
    (enough : walk.length ≤ steps + 1) (after : List NodeId) :
    f.trace steps n after = walk ++ after :=
  Frontier.trace_of_within (h.traceWithin (steps + 1) enough after)

end Route

end PathControl
