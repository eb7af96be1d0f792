/-
  PathControl/Proofs/Walk.lean
  ============================
  **Walks through the network and what they cost.**

  A walk is a list of nodes in which each is linked to the next. It is admissible if
  it passes through no host but the source. Its weight is the left fold of the
  weights of its links, starting from the initial weight.

  `WalkTo` builds the same walks link by link, with the weight reached so far at
  every node (`walkTo_of_admissible`, `WalkTo.admissible`, `WalkTo.walkWeight_eq`);
  this is the form that searching is compared with.
-/
import PathControl.Calculator
import PathControl.FlowTable
import PathControl.Proofs.Topology
import PathControl.Proofs.Weight
import Mathlib.Data.List.Induction

namespace PathControl

/-! ### Links of a walk -/

/-- The links of a walk, each as a pair of nodes. -/
def hops (walk : List NodeId) : List (NodeId × NodeId) := walk.zip walk.tail

@[simp] theorem hops_nil : hops [] = [] := rfl

@[simp] theorem hops_singleton (n : NodeId) : hops [n] = [] := rfl

@[simp] theorem hops_cons_cons (a b : NodeId) (rest : List NodeId) :
    hops (a :: b :: rest) = (a, b) :: hops (b :: rest) := rfl

/-- The links of two walks that meet in a node. -/
theorem hops_append_cons (front : List NodeId) (n : NodeId) (back : List NodeId) :
    hops (front ++ n :: back) = hops (front ++ [n]) ++ hops (n :: back) := by
  induction front with
  | nil => rfl
  | cons a front ih =>
    cases front with
    | nil => rfl
    | cons b front =>
      simp only [List.cons_append, hops_cons_cons] at ih ⊢
      rw [ih]

theorem hops_concat (front : List NodeId) (a b : NodeId) :
    hops (front ++ [a] ++ [b]) = hops (front ++ [a]) ++ [(a, b)] := by
  rw [List.append_assoc]
  exact hops_append_cons front a [b]

/-- The links of a walk with a part that starts at one node and ends at another. -/
theorem hops_splice {before part after : List NodeId} {first last : NodeId}
    (head : part.head? = some first) (end_ : part.getLast? = some last) :
    hops (before ++ part ++ after) =
      hops (before ++ [first]) ++ hops part ++ hops (last :: after) := by
  obtain ⟨tail, eqHead⟩ := List.head?_eq_some_iff.1 head
  obtain ⟨init, eqLast⟩ := List.getLast?_eq_some_iff.1 end_
  have rest : hops (part ++ after) = hops part ++ hops (last :: after) := by
    rw [eqLast, List.append_assoc]
    exact hops_append_cons init last after
  rw [List.append_assoc (hops _), ← rest, List.append_assoc, eqHead]
  exact hops_append_cons before first (tail ++ after)

theorem mem_hops_of_part {part walk : List NodeId} {hop : NodeId × NodeId}
    (inside : part <:+: walk) (h : hop ∈ hops part) : hop ∈ hops walk := by
  obtain ⟨front, back, rfl⟩ := inside
  rcases List.eq_nil_or_concat part with rfl | ⟨init, last, rfl⟩
  · cases h
  · rw [List.concat_eq_append] at h ⊢
    have upTo : front ++ (init ++ [last]) ++ back = front ++ init ++ last :: back := by simp
    rw [upTo, hops_append_cons]
    refine List.mem_append_left _ ?_
    cases init with
    | nil => cases h
    | cons first init =>
      rw [List.append_assoc, List.cons_append, hops_append_cons]
      exact List.mem_append_right _ h

theorem mem_of_mem_hops {walk : List NodeId} {a b : NodeId} (h : (a, b) ∈ hops walk) :
    a ∈ walk.dropLast ∧ b ∈ walk.tail := by
  induction walk with
  | nil => cases h
  | cons x rest ih =>
    cases rest with
    | nil => cases h
    | cons y rest =>
      rw [hops_cons_cons, List.mem_cons] at h
      rcases h with h | h
      · cases h
        simp
      · obtain ⟨ha, hb⟩ := ih h
        exact ⟨List.mem_cons_of_mem _ ha, List.mem_of_mem_tail hb⟩

theorem mem_hops_of_getElem? {walk : List NodeId} {i : Nat} {a b : NodeId}
    (ha : walk[i]? = some a) (hb : walk[i + 1]? = some b) : (a, b) ∈ hops walk := by
  rw [hops, List.mem_iff_getElem?]
  exact ⟨i, List.getElem?_zip_eq_some.2 ⟨ha, by rwa [List.getElem?_tail]⟩⟩

/-- On a simple walk at most one link starts at a node. -/
theorem hop_unique {walk : List NodeId} (nodup : walk.Nodup) {hop other : NodeId × NodeId}
    (h : hop ∈ hops walk) (h' : other ∈ hops walk) (same : hop.1 = other.1) : hop = other := by
  induction walk with
  | nil => cases h
  | cons a rest ih =>
    cases rest with
    | nil => cases h
    | cons b rest =>
      obtain ⟨fresh, simple⟩ := List.nodup_cons.1 nodup
      have later {x : NodeId × NodeId} (hx : x ∈ hops (b :: rest)) : x.1 ≠ a := by
        rintro rfl
        exact fresh (List.dropLast_subset _ (mem_of_mem_hops hx).1)
      rw [hops_cons_cons, List.mem_cons] at h h'
      rcases h with rfl | h <;> rcases h' with rfl | h'
      · rfl
      · exact absurd same.symm (later h')
      · exact absurd same (later h)
      · exact ih simple h h'

theorem not_mem_dropLast {walk : List NodeId} {last : NodeId} (nodup : walk.Nodup)
    (isLast : walk.getLast? = some last) : last ∉ walk.dropLast := by
  obtain ⟨front, rfl⟩ := List.getLast?_eq_some_iff.1 isLast
  rw [List.dropLast_concat]
  intro hit
  exact (List.nodup_append.1 nodup).2.2 last hit last (List.mem_singleton.2 rfl) rfl

namespace Topology

theorem isPath_iff (t : Topology) (walk : List NodeId) :
    t.isPath walk = true ↔ ∀ hop ∈ hops walk, t.linked hop.1 hop.2 = true := by
  induction walk with
  | nil => simp [isPath]
  | cons a rest ih =>
    cases rest with
    | nil => simp [isPath]
    | cons b rest =>
      rw [isPath, Bool.and_eq_true, ih, hops_cons_cons, List.forall_mem_cons]

end Topology

/-! ### Admissible walks and their weights -/

/-- A walk from `source` to `target` that passes through no host but the source. -/
structure Topology.AdmissibleWalk (t : Topology) (source target : NodeId)
    (walk : List NodeId) : Prop where
  first : walk.head? = some source
  last : walk.getLast? = some target
  linked : t.isPath walk = true
  transit : ∀ n ∈ interior walk, t.isHost n = true → n = source

variable {W : Type} [Weight W]

namespace Calculator

/-- The weight after one more link; `none` if it leaves the range. -/
def extend (c : Calculator W) (weight : W) (hop : NodeId × NodeId) : Option W := do
  let link ← c.linkWeight hop.1 hop.2
  Weight.combine weight link

/-- The weight of a walk: its links combined from the left. -/
def walkWeight (c : Calculator W) (walk : List NodeId) : Option W :=
  (hops walk).foldlM c.extend Weight.initial

theorem walkWeight_concat (c : Calculator W) (front : List NodeId) (a b : NodeId) :
    c.walkWeight (front ++ [a] ++ [b]) =
      (c.walkWeight (front ++ [a])).bind fun w => c.extend w (a, b) := by
  simp only [walkWeight]
  rw [hops_concat, List.foldlM_append]
  simp [Option.bind_eq_bind]

theorem extend_eq_some_iff {c : Calculator W} {w w' : W} {a b : NodeId} :
    c.extend w (a, b) = some w' ↔ ∃ e, c.linkWeight a b = some e ∧
      Weight.combine w e = some w' := by
  simp only [extend]
  rw [Option.bind_eq_bind, Option.bind_eq_some_iff]

end Calculator

/-! ### Walks link by link -/

/-- An admissible walk to a node with its weight, which stays viable. Only those walks count that
    reach every node after the source with a weight that `P` admits there. -/
inductive WalkTo (t : Topology) (c : Calculator W) (source : NodeId) (P : NodeId → W → Prop) :
    List NodeId → NodeId → W → Prop where
  | start : WalkTo t c source P [source] source Weight.initial
  | step {walk : List NodeId} {x y : NodeId} {a e b : W} (front : WalkTo t c source P walk x a)
      (passable : x = source ∨ t.isHost x = false) (linked : t.linked x y = true)
      (link : c.linkWeight x y = some e) (total : Weight.combine a e = some b)
      (viable : Weight.Viable b) (admitted : P y b) :
      WalkTo t c source P (walk ++ [y]) y b

section WalkTo

variable {t : Topology} {c : Calculator W} {source x : NodeId} {P : NodeId → W → Prop}
  {walk : List NodeId} {w : W}

theorem WalkTo.eq_concat (h : WalkTo t c source P walk x w) : ∃ front, walk = front ++ [x] := by
  cases h with
  | start => exact ⟨[], rfl⟩
  | step front => exact ⟨_, rfl⟩

theorem WalkTo.passable (h : WalkTo t c source P walk x w) :
    ∀ n ∈ walk.dropLast, n = source ∨ t.isHost n = false := by
  induction h with
  | start => intro n hn; cases hn
  | @step walk x y a e b front passable linked link total viable admitted ih =>
    intro n hn
    rw [List.dropLast_concat] at hn
    obtain ⟨inner, rfl⟩ := front.eq_concat
    rcases List.mem_append.1 hn with hn | hn
    · exact ih n (by rwa [List.dropLast_concat])
    · rw [List.mem_singleton.1 hn]
      exact passable

theorem WalkTo.walkWeight_eq (h : WalkTo t c source P walk x w) :
    c.walkWeight walk = some w := by
  induction h with
  | start => rfl
  | step front passable linked link total viable admitted ih =>
    obtain ⟨inner, rfl⟩ := front.eq_concat
    rw [c.walkWeight_concat, ih]
    exact Calculator.extend_eq_some_iff.2 ⟨_, link, total⟩

theorem WalkTo.viable (h : WalkTo t c source P walk x w)
    (usable : Weight.Viable (Weight.initial : W)) : Weight.Viable w := by
  cases h with
  | start => exact usable
  | step _ _ _ _ _ viable => exact viable

/-- An admissible walk goes on along a link unless it has come to a host. -/
theorem Topology.AdmissibleWalk.concat {y : NodeId} (h : t.AdmissibleWalk source x walk)
    (passable : x = source ∨ t.isHost x = false) (linked : t.linked x y = true) :
    t.AdmissibleWalk source y (walk ++ [y]) := by
  have first := h.first
  have inner := h.transit
  have links := (t.isPath_iff _).1 h.linked
  obtain ⟨front, rfl⟩ := List.getLast?_eq_some_iff.1 h.last
  constructor
  · rw [List.head?_append, first]
    rfl
  · exact List.getLast?_concat
  · rw [t.isPath_iff, hops_concat]
    intro hop hh
    rcases List.mem_append.1 hh with hh | hh
    · exact links hop hh
    · rw [List.mem_singleton.1 hh]
      exact linked
  · intro n hn host
    cases front with
    | nil => exact (List.not_mem_nil hn).elim
    | cons a front =>
      simp only [interior, List.cons_append, List.tail_cons, List.dropLast_concat] at hn inner
      rcases List.mem_append.1 hn with hn | hn
      · exact inner n hn host
      · rw [List.mem_singleton.1 hn] at host ⊢
        rcases passable with same | leads
        · exact same
        · rw [leads] at host
          cases host

theorem WalkTo.admissible (h : WalkTo t c source P walk x w) :
    t.AdmissibleWalk source x walk := by
  induction h with
  | start => exact ⟨rfl, rfl, rfl, fun _ hn => absurd hn List.not_mem_nil⟩
  | step front passable linked link total viable admitted ih => exact ih.concat passable linked

theorem Topology.AdmissibleWalk.front {target : NodeId} {front : List NodeId}
    (h : t.AdmissibleWalk source target (front ++ [x] ++ [target])) :
    t.AdmissibleWalk source x (front ++ [x]) ∧ (x = source ∨ t.isHost x = false) ∧
      t.linked x target = true := by
  have links := (t.isPath_iff _).1 h.linked
  rw [hops_concat] at links
  have first : (front ++ [x]).head? = some source := by
    have whole := h.first
    cases front <;> exact whole
  refine ⟨⟨first, List.getLast?_concat, ?_, ?_⟩, ?_, ?_⟩
  · rw [t.isPath_iff]
    intro hop hh
    exact links hop (List.mem_append_left _ hh)
  · intro n hn host
    refine h.transit n ?_ host
    simp only [interior] at hn ⊢
    rw [List.tail_append_of_ne_nil (by simp), List.dropLast_concat]
    exact List.dropLast_subset _ hn
  · cases front with
    | nil => exact Or.inl (Option.some.inj first)
    | cons a front =>
      cases host : t.isHost x with
      | false => exact Or.inr rfl
      | true => exact Or.inl (h.transit x (by simp [interior]) host)
  · exact links (x, target) (by simp)

/-- Walks grow link by link: what holds of the source alone and is kept on every link of an
    admissible walk holds of the walk. -/
theorem Topology.AdmissibleWalk.induction {target : NodeId} {Q : NodeId → List NodeId → Prop}
    (h : t.AdmissibleWalk source target walk) (start : Q source [source])
    (step : ∀ front x y, front ++ [x] ++ [y] <+: walk → (x = source ∨ t.isHost x = false) →
      t.linked x y = true → t.AdmissibleWalk source x (front ++ [x]) → Q x (front ++ [x]) →
      Q y (front ++ [x] ++ [y])) : Q target walk := by
  induction walk using List.reverseRecOn generalizing target with
  | nil => cases h.first
  | append_singleton walk y ih =>
    obtain rfl : y = target := Option.some.inj (List.getLast?_concat.symm.trans h.last)
    cases walk using List.reverseRecOn with
    | nil =>
      obtain rfl : y = source := Option.some.inj h.first
      exact start
    | append_singleton front x =>
      obtain ⟨admissible, passable, linked⟩ := h.front
      refine step front x y (List.prefix_refl _) passable linked admissible (ih admissible ?_)
      intro front' x' y' begins
      exact step front' x' y' (begins.trans (List.prefix_append _ _))

theorem Topology.AdmissibleWalk.inside {target : NodeId}
    (h : t.AdmissibleWalk source target walk) (known : t.contains source = true) :
    ∀ n ∈ walk, t.contains n = true := by
  refine h.induction (Q := fun _ walk => ∀ n ∈ walk, t.contains n = true) ?_ ?_
  · intro n hn
    rwa [List.mem_singleton.1 hn]
  · intro front x y _ _ linked _ before n hn
    rcases List.mem_append.1 hn with hn | hn
    · exact before n hn
    · rw [List.mem_singleton.1 hn]
      exact contains_of_linked linked

theorem WalkTo.inside (h : WalkTo t c source P walk x w) (known : t.contains source = true) :
    ∀ n ∈ walk, t.contains n = true :=
  h.admissible.inside known

/-- **Every admissible walk with a viable weight is built link by link.** -/
theorem walkTo_of_admissible [AbsorbingWeight W] {target : NodeId}
    (h : t.AdmissibleWalk source target walk) (weight : c.walkWeight walk = some w)
    (viable : Weight.Viable w)
    (admitted : ∀ front n a, front ++ [n] <+: walk → front ≠ [] →
      c.walkWeight (front ++ [n]) = some a → P n a) :
    WalkTo t c source P walk target w := by
  refine h.induction (Q := fun x walk => ∀ w, c.walkWeight walk = some w → Weight.Viable w →
    WalkTo t c source P walk x w) ?_ ?_ w weight viable
  · intro w weight _
    cases weight
    exact WalkTo.start
  · intro front x y begins passable linked _ before w weight viable
    have whole := weight
    rw [c.walkWeight_concat, Option.bind_eq_some_iff] at weight
    obtain ⟨a, ha, step⟩ := weight
    obtain ⟨e, link, total⟩ := Calculator.extend_eq_some_iff.1 step
    have reached := before a ha (AbsorbingWeight.viable_of_combine total viable).1
    exact reached.step passable linked link total viable (admitted _ _ _ begins (by simp) whole)

/-- An admissible walk is built link by link as long as every next link keeps the weight in range
    and viable. -/
theorem exists_walkTo {target : NodeId} (h : t.AdmissibleWalk source target walk)
    (next : ∀ front x a y, WalkTo t c source (fun _ _ => True) front x a →
      front ++ [y] <+: walk → t.linked x y = true →
      ∃ b, c.extend a (x, y) = some b ∧ Weight.Viable b) :
    ∃ w, WalkTo t c source (fun _ _ => True) walk target w := by
  refine h.induction (Q := fun x walk => ∃ w, WalkTo t c source (fun _ _ => True) walk x w) ?_ ?_
  · exact ⟨_, WalkTo.start⟩
  · intro front x y begins passable linked _ ⟨a, before⟩
    obtain ⟨b, extended, viable⟩ := next _ x a y before begins linked
    obtain ⟨e, link, total⟩ := Calculator.extend_eq_some_iff.1 extended
    exact ⟨b, before.step passable linked link total viable trivial⟩

end WalkTo

/-! ### Viable parts and excluded nodes -/

section Absorbing

variable {t : Topology} {c : Calculator W} {source x : NodeId} {P : NodeId → W → Prop}
  {walk nodes : List NodeId} {w : W}

theorem Calculator.linkWeight_excluding {a b : NodeId} (ha : a ∉ nodes) (hb : b ∉ nodes) :
    (c.excluding nodes).linkWeight a b = c.linkWeight a b := by
  simp [excluding, ha, hb]

variable [AbsorbingWeight W]

theorem WalkTo.link_viable (h : WalkTo t c source P walk x w) :
    ∀ hop ∈ hops walk, ∃ e, c.linkWeight hop.1 hop.2 = some e ∧ Weight.Viable e := by
  induction h with
  | start =>
    intro hop hh
    cases hh
  | step front passable linked link total viable admitted ih =>
    obtain ⟨inner, rfl⟩ := front.eq_concat
    rw [hops_concat]
    intro hop hh
    rcases List.mem_append.1 hh with hh | hh
    · exact ih hop hh
    · rw [List.mem_singleton.1 hh]
      exact ⟨_, link, (AbsorbingWeight.viable_of_combine total viable).2⟩

/-- If the whole is viable, so is every part from the start on. -/
theorem WalkTo.viable_of_prefix (h : WalkTo t c source P walk x w) (usable : Weight.Viable w) :
    ∀ front, front <+: walk → ∃ a, c.walkWeight front = some a ∧ Weight.Viable a := by
  induction h with
  | start =>
    intro front begins
    have start : c.walkWeight front = some Weight.initial := by
      rcases List.prefix_concat_iff.1 (show front <+: [] ++ [source] from begins) with rfl | empty
      · rfl
      · rw [List.prefix_nil.1 empty]
        rfl
    exact ⟨_, start, usable⟩
  | step before passable linked link total viable admitted ih =>
    intro front begins
    rcases List.prefix_concat_iff.1 begins with rfl | part
    · exact ⟨_, (before.step passable linked link total viable admitted).walkWeight_eq, usable⟩
    · exact ih (AbsorbingWeight.viable_of_combine total viable).1 front part

/-- A link that can be used leads from and to nodes that are not excluded. -/
theorem Calculator.not_mem_of_excluding {a b : NodeId} {e : W}
    (link : (c.excluding nodes).linkWeight a b = some e) (viable : Weight.Viable e) :
    a ∉ nodes ∧ b ∉ nodes := by
  rw [← not_or]
  intro excluded
  simp only [excluding] at link
  rw [if_pos excluded] at link
  cases link
  exact Weight.not_viable_nonViable viable

/-- A walk that leads past excluded nodes is a walk of the same weight if none are excluded. -/
theorem WalkTo.of_excluding (h : WalkTo t (c.excluding nodes) source P walk x w) :
    WalkTo t c source P walk x w := by
  induction h with
  | start => exact WalkTo.start
  | step front passable linked link total viable admitted ih =>
    obtain ⟨hx, hy⟩ := Calculator.not_mem_of_excluding link
      (AbsorbingWeight.viable_of_combine total viable).2
    rw [Calculator.linkWeight_excluding hx hy] at link
    exact ih.step passable linked link total viable admitted

/-- No link leads to an excluded node. -/
theorem WalkTo.avoids (h : WalkTo t (c.excluding nodes) source P walk x w) :
    ∀ n ∈ walk, n ∈ nodes → n = source := by
  induction h with
  | start =>
    intro n hn _
    exact List.mem_singleton.1 hn
  | step front passable linked link total viable admitted ih =>
    intro n hn excluded
    rcases List.mem_append.1 hn with hn | hn
    · exact ih n hn excluded
    · exfalso
      rw [List.mem_singleton.1 hn] at excluded
      exact (Calculator.not_mem_of_excluding link
        (AbsorbingWeight.viable_of_combine total viable).2).2 excluded

end Absorbing

/-- A simple walk is no longer than the network is large. -/
theorem Topology.length_le_size {t : Topology} {walk : List NodeId} (nodup : walk.Nodup)
    (inside : ∀ n ∈ walk, t.contains n = true) : walk.length ≤ t.size := by
  have nodes : walk ⊆ List.range t.size := by
    intro n hn
    simpa [contains, size] using inside n hn
  have short := nodup.length_le_of_subset nodes
  rwa [List.length_range] at short

end PathControl
