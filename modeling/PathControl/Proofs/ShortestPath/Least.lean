/-
  PathControl/Proofs/ShortestPath/Least.lean
  ==========================================
  **Which walks the path that a search returns is compared with.**

  A search never goes along most of the walks that its result is compared with. So a
  walk is followed by a bound on weights, one at each of its nodes, that only grows
  from node to node: if what the search finds at a node keeps the bound there, so does
  the way on along the next link (`Assured`). Then what a search finds at the last
  node keeps the bound of the last node (`Searching.holds_of_settled`).

  A bound may be to cost no more than a given walk. That takes two laws, and it takes
  them only of the walks that it is claimed for: going on costs no less, and a label
  that is no worse than such a walk offers a way that is no worse than the walk which
  goes on along the same link. `Competes` says this of a class of walks, and
  `shortestPath_least` what follows for it.
-/
import PathControl.Proofs.ShortestPath.Invariant

namespace PathControl

variable {W : Type} [Weight W]

/-! ### Bounds along a walk -/

/-- A bound on weights that whatever costs no more keeps, too. -/
def Weight.Lower (bound : W → Prop) : Prop := ∀ a b : W, Weight.Le a b → bound b → bound a

/-- A walk to a node with a bound that a search is sure to keep there, whichever way it comes. -/
inductive Assured (t : Topology) (c : Calculator W) (source : NodeId) :
    NodeId → (W → Prop) → Prop where
  | start {bound : W → Prop} (lower : Weight.Lower bound) (initial : bound Weight.initial) :
      Assured t c source source bound
  | step {x y : NodeId} {before bound : W → Prop} (front : Assured t c source x before)
      (passable : x = source ∨ t.isHost x = false) (linked : t.linked x y = true)
      (lower : Weight.Lower bound) (longer : ∀ a, before a → bound a)
      (next : ∀ walk a e b, WalkTo t c source (fun _ _ => True) walk x a → walk.Nodup →
        (x = source → a = Weight.initial) → before a → c.linkWeight x y = some e →
        Weight.combine a e = some b → Weight.Viable b ∧ bound b) :
      Assured t c source y bound

/-- The walks that `P` admits can be compared with what a search finds. -/
structure Competes (t : Topology) (c : Calculator W) (source : NodeId)
    (P : NodeId → W → Prop) : Prop where
  /-- Going on costs no less. -/
  longer {walk : List NodeId} {x y : NodeId} {a e b : W} : WalkTo t c source P walk x a →
    c.linkWeight x y = some e → Weight.combine a e = some b → Weight.Viable b → Weight.Le a b
  /-- A better way to `x` makes a better way to `y`. -/
  better {walk found : List NodeId} {x y : NodeId} {a a' e b b' : W} :
    WalkTo t c source P walk x a → WalkTo t c source (fun _ _ => True) found x a' →
    (x = source → a' = Weight.initial) → Weight.Le a' a → Weight.combine a e = some b →
    Weight.combine a' e = some b' → Weight.Viable b → P y b → Weight.Viable b' ∧ Weight.Le b' b

variable {t : Topology} {c : Calculator W} {source target x : NodeId} {P : NodeId → W → Prop}
  {settled : List NodeId} {f : Frontier W} {bound : W → Prop}

theorem Assured.lower (h : Assured t c source x bound) : Weight.Lower bound := by
  cases h with
  | start lower => exact lower
  | step _ _ _ lower => exact lower

/-- An admissible walk has a bound at its end if there is one for each part of it from the start
    on, and the bound of a part is kept on the next link. -/
theorem assured_of_admissible {walk : List NodeId} {B : List NodeId → NodeId → W → Prop}
    (h : t.AdmissibleWalk source target walk) (lower : ∀ front x, Weight.Lower (B front x))
    (initial : B [source] source Weight.initial)
    (longer : ∀ front x y a, front ++ [x] ++ [y] <+: walk → B (front ++ [x]) x a →
      B (front ++ [x] ++ [y]) y a)
    (next : ∀ front x y found a e b, front ++ [x] ++ [y] <+: walk → t.linked x y = true →
      WalkTo t c source (fun _ _ => True) found x a → found.Nodup → B (front ++ [x]) x a →
      c.linkWeight x y = some e → Weight.combine a e = some b →
      Weight.Viable b ∧ B (front ++ [x] ++ [y]) y b) :
    Assured t c source target (B walk target) := by
  refine h.induction (Q := fun x walk => Assured t c source x (B walk x)) ?_ ?_
  · exact Assured.start (lower _ _) initial
  · intro front x y begins passable linked _ before
    refine before.step passable linked (lower _ _) ?_ ?_
    · intro a
      exact longer front x y a begins
    · intro found a e b way simple _ bounded
      exact next front x y found a e b begins linked way simple bounded

variable [LawfulWeight W]

theorem Weight.lower_le (a : W) : Weight.Lower (Weight.Le · a) := by
  intro b c le bounded
  exact le.trans bounded

/-- A search costs no more than any walk that it competes with. -/
theorem Competes.assured (competes : Competes t c source P) {walk : List NodeId} {a : W}
    (w : WalkTo t c source P walk x a) : Assured t c source x (Weight.Le · a) := by
  induction w with
  | start => exact Assured.start (Weight.lower_le _) (Weight.Le.refl _)
  | step front passable linked link total viable admitted ih =>
    refine ih.step passable linked (Weight.lower_le _) ?_ ?_
    · intro a' le
      exact le.trans (competes.longer front link total viable)
    · intro found a' e' b' way _ home le link' total'
      cases link.symm.trans link'
      exact competes.better front way home le total total' viable admitted

namespace Searching

theorem source_known (h : Searching t c source target settled f)
    (inside : t.contains source = true) : ∃ label, f.labels[source]? = some label := by
  induction h with
  | start => exact ⟨_, by rw [Frontier.start, Frontier.getElem?_insert, if_pos rfl]⟩
  | skip before pop stale ih => exact ih
  | host before next away foreign isHost ih => exact ih
  | expand before next away passable offers ih =>
    obtain ⟨label, known⟩ := ih
    have served := (before.sound inside).expand next passable offers
    obtain ⟨label', known', _⟩ := served.improved.better source label known
    exact ⟨label', known'⟩

/-- A node with a bound is settled, or some node waits with a score within the bound. -/
theorem settled_or_waiting (h : Searching t c source target settled f)
    (inside : t.contains source = true)
    (holds : ∀ x ∈ settled, ∀ label, f.labels[x]? = some label →
      ∀ bound, Assured t c source x bound → bound label.score)
    (assured : Assured t c source x bound) :
    x ∈ settled ∨ ∃ entry ∈ f.queue.toList, entry.label ∉ settled ∧ bound entry.score := by
  have sound := h.sound inside
  induction assured with
  | start lower initial =>
    obtain ⟨label, known⟩ := h.source_known inside
    obtain ⟨way, route⟩ := sound.routed source label known
    by_cases done : source ∈ settled
    · exact Or.inl done
    · refine Or.inr ⟨_, sound.waiting source label known done, done, ?_⟩
      rw [route.source_score]
      exact initial
  | @step x y before bound front passable linked lower longer next ih =>
    -- once `x` is settled `y` has its offer; before that, what waits for `x` will do
    rcases ih with done | ⟨entry, waits, fresh, bounded⟩
    · by_cases reached : y ∈ settled
      · exact Or.inl reached
      · obtain ⟨label, known⟩ := sound.known x done
        obtain ⟨way, route⟩ := sound.routed x label known
        obtain ⟨e, b, link, total, made⟩ :=
          h.closed inside x done passable label known y linked reached
        obtain ⟨viable, bounded⟩ := next way label.score e b route.walkTo route.nodup
          (by rintro rfl; exact route.source_score) (holds x done label known _ front) link total
        obtain ⟨labelY, knownY, le⟩ := made viable
        exact Or.inr ⟨_, sound.waiting y labelY knownY reached, reached, lower _ _ le bounded⟩
    · exact Or.inr ⟨entry, waits, fresh, longer _ bounded⟩

/-- The entry that comes up first keeps the bounds of all unsettled nodes. -/
theorem holds_of_popped (h : Searching t c source target settled f)
    (inside : t.contains source = true)
    (holds : ∀ x ∈ settled, ∀ label, f.labels[x]? = some label →
      ∀ bound, Assured t c source x bound → bound label.score)
    {entry : Scored W NodeId} {rest : MinQueue W NodeId} (next : f.Next t settled entry rest)
    (assured : Assured t c source x bound) (fresh : x ∉ settled) : bound entry.score := by
  rcases h.settled_or_waiting inside holds assured with done | ⟨other, waits, _, bounded⟩
  · exact absurd done fresh
  · exact assured.lower _ _ ((h.sound inside).ordered.le_of_pop next.pop waits) bounded

/-- **Settled labels keep the bounds of their nodes.** -/
theorem holds_of_settled (h : Searching t c source target settled f)
    (inside : t.contains source = true) :
    ∀ x ∈ settled, ∀ label, f.labels[x]? = some label →
      ∀ bound, Assured t c source x bound → bound label.score := by
  induction h with
  | start =>
    intro x hx
    cases hx
  | skip before pop stale ih => exact ih
  | host before next away foreign isHost ih =>
    intro x hx label known bound assured
    rcases List.mem_cons.1 hx with rfl | hx
    · obtain ⟨previous, final⟩ := (before.sound inside).final next
      cases final.symm.trans known
      exact before.holds_of_popped inside ih next assured next.fresh
    · exact ih x hx label known bound assured
  | expand before next away passable offers ih =>
    have served := (before.sound inside).expand next passable offers
    intro x hx label known bound assured
    rw [served.improved.kept x hx] at known
    rcases List.mem_cons.1 hx with rfl | hx
    · obtain ⟨previous, final⟩ := (before.sound inside).final next
      cases final.symm.trans known
      exact before.holds_of_popped inside ih next assured next.fresh
    · exact ih x hx label known bound assured

end Searching

namespace Topology

variable {path : List NodeId}

/-- **A returned path keeps the bounds of its nodes.** -/
theorem shortestPath_holds (h : t.shortestPath c source target = .ok path) {front : List NodeId}
    {n : NodeId} {w : W} (begins : front ++ [n] <+: path)
    (weight : c.walkWeight (front ++ [n]) = some w) (assured : Assured t c source n bound) :
    bound w := by
  have inside := (shortestPath_eq_ok_iff.1 h).1
  obtain ⟨settled, f, entry, rest, before, next, here, route, viable⟩ :=
    arrived_of_shortestPath h
  obtain ⟨b, part⟩ := route.front begins
  obtain rfl : b = w := Option.some.inj (part.walkTo.walkWeight_eq.symm.trans weight)
  obtain ⟨previous, known⟩ := part.label
  have holds := before.holds_of_settled inside
  have onPath : n ∈ path := begins.subset (by simp)
  rcases route.mem_settled n onPath with rfl | done
  · obtain ⟨previous', known'⟩ := route.label
    cases known.symm.trans known'
    exact before.holds_of_popped inside holds next assured before.target_not_mem
  · exact holds n done _ known bound assured

/-- A returned path comes to each of its nodes in the cheapest way, as far as the search
    competes. -/
theorem shortestPath_front_le (h : t.shortestPath c source target = .ok path)
    (competes : Competes t c source P) {front : List NodeId} {n : NodeId} {w : W}
    (begins : front ++ [n] <+: path) (weight : c.walkWeight (front ++ [n]) = some w)
    {walk : List NodeId} {a : W} (walked : WalkTo t c source P walk n a) : Weight.Le w a := by
  have kept := shortestPath_holds h begins weight (competes.assured walked)
  exact kept

/-- **A returned path has a viable weight, which is no worse than that of any walk that the search
    competes with.** -/
theorem shortestPath_least (h : t.shortestPath c source target = .ok path)
    (competes : Competes t c source P) :
    t.AdmissibleWalk source target path ∧ ∃ w, c.walkWeight path = some w ∧ Weight.Viable w ∧
      ∀ walk a, WalkTo t c source P walk target a → Weight.Le w a := by
  obtain ⟨settled, f, entry, rest, before, next, here, route, viable⟩ :=
    arrived_of_shortestPath h
  have weight := route.walkTo.walkWeight_eq
  refine ⟨route.walkTo.admissible, entry.score, weight, viable, ?_⟩
  intro walk a walked
  obtain ⟨front, rfl⟩ := route.walkTo.eq_concat
  exact shortestPath_front_le h competes (List.prefix_refl _) weight walked

end Topology

end PathControl
