/-
  PathControl/Proofs/ShortestPath/Invariant.lean
  ==============================================
  **What a search keeps true, and what it returns.**

  `Frontier.Sound` holds of every state of a search: the best known way to a labelled
  node is a simple admissible walk through settled nodes whose weight is its label,
  and an unsettled labelled node waits with exactly that score, every older entry for
  it being strictly worse. So the entry that comes up first for a node has the score
  of its label, and that label is final.

  `Frontier.Closed` says that settled nodes have made their offers. The first takes a
  total order and an absorbing non-viable weight, nothing more; the second also that
  the non-viable weight is the worst, or an offer may be turned down for it.
-/
import PathControl.Proofs.ShortestPath.Route

namespace PathControl

variable {W : Type} [Weight W]

/-! ### The invariant -/

/-- What holds of the labels and the queue in every state of a search. -/
structure Frontier.Sound (t : Topology) (c : Calculator W) (source : NodeId)
    (settled : List NodeId) (f : Frontier W) : Prop where
  routed : ∀ n label, f.labels[n]? = some label →
    ∃ walk, Route t c source settled f walk n label.score
  known : ∀ n ∈ settled, ∃ label, f.labels[n]? = some label
  /-- A labelled node waits with its score until it is settled. -/
  waiting : ∀ n label, f.labels[n]? = some label → n ∉ settled →
    ⟨label.score, n⟩ ∈ f.queue.toList
  /-- Whatever else waits for a node is strictly worse than its label. -/
  worse : ∀ entry ∈ f.queue.toList, entry.label ∉ settled →
    ∃ label, f.labels[entry.label]? = some label ∧
      (entry.score = label.score ∨ Weight.less label.score entry.score = true)
  ordered : f.queue.Ordered
  nodup : settled.Nodup

theorem Frontier.score_eq {f : Frontier W} {n : NodeId} {label : Label W}
    (h : f.labels[n]? = some label) : f.score n = label.score := by
  simp only [Frontier.score]
  rw [h]

variable {t : Topology} {c : Calculator W} {source target : NodeId} {settled : List NodeId}
  {f : Frontier W}

theorem Frontier.Sound.routed_insert (sound : f.Sound t c source settled) {next : NodeId}
    (fresh : next ∉ settled) {new : Label W} {queue : MinQueue W NodeId} {way : List NodeId}
    (here : Route t c source settled ⟨f.labels.insert next new, queue⟩ way next new.score)
    {n : NodeId} {label : Label W} (known : (f.labels.insert next new)[n]? = some label) :
    ∃ walk, Route t c source settled ⟨f.labels.insert next new, queue⟩ walk n label.score := by
  rw [getElem?_insert] at known
  split at known
  · next same =>
    cases known
    subst same
    exact ⟨way, here⟩
  · next away =>
    obtain ⟨walk, route⟩ := sound.routed n label known
    exact ⟨walk, route.insert fresh away _ _⟩

section Absorbing

variable [AbsorbingWeight W]

namespace Frontier

theorem sound_start : (Frontier.start source : Frontier W).Sound t c source [] := by
  have labels (n : NodeId) : (Frontier.start source : Frontier W).labels[n]? =
      if n = source then some ⟨Weight.initial, none⟩ else none := by
    simp only [Frontier.start]
    rw [getElem?_insert]
    rfl
  have queue (e : Scored W NodeId) : e ∈ (Frontier.start source : Frontier W).queue.toList ↔
      e = ⟨Weight.initial, source⟩ := by
    simp only [Frontier.start]
    rw [(MinQueue.toList_push _ _ _).mem_iff, MinQueue.toList_empty, List.mem_singleton]
  refine ⟨?_, ?_, ?_, ?_, ?_, List.nodup_nil⟩
  · intro n label known
    rw [labels] at known
    split at known
    · next here =>
      cases known
      subst here
      exact ⟨_, Route.start (by rw [labels, if_pos rfl])⟩
    · cases known
  · intro n hn
    cases hn
  · intro n label known _
    rw [labels] at known
    split at known
    · next here =>
      cases known
      rw [queue, here]
    · cases known
  · intro entry waits _
    rw [queue] at waits
    subst waits
    exact ⟨_, by rw [labels, if_pos rfl], Or.inl rfl⟩
  · exact MinQueue.ordered_empty.push _ _

namespace Sound

variable {entry : Scored W NodeId} {rest : MinQueue W NodeId}

/-- An entry of a node that needs no more attention is dropped. -/
theorem skip (sound : f.Sound t c source settled) (inside : t.contains source = true)
    (pop : f.queue.pop = some (entry, rest))
    (stale : entry.label ∈ settled ∨ t.contains entry.label = false) :
    ({ f with queue := rest } : Frontier W).Sound t c source settled := by
  have split := MinQueue.toList_pop pop
  refine ⟨?_, sound.known, ?_, ?_, sound.ordered.pop pop, sound.nodup⟩
  · intro n label known
    obtain ⟨walk, route⟩ := sound.routed n label known
    exact ⟨walk, route.mono (fun _ hm => hm) fun _ _ => rfl⟩
  · intro n label known unsettled
    have waits := split.mem_iff.1 (sound.waiting n label known unsettled)
    rcases List.mem_cons.1 waits with here | later
    · subst here
      obtain ⟨walk, route⟩ := sound.routed n label known
      rcases stale with old | outside
      · exact absurd old unsettled
      · rw [route.contains inside] at outside
        cases outside
    · exact later
  · intro e waits unsettled
    exact sound.worse e (split.mem_iff.2 (List.mem_cons_of_mem _ waits)) unsettled

/-- The entry that comes up first for a node has the score of its label. -/
theorem final (sound : f.Sound t c source settled) (next : f.Next t settled entry rest) :
    ∃ previous, f.labels[entry.label]? = some ⟨entry.score, previous⟩ := by
  have split := MinQueue.toList_pop next.pop
  obtain ⟨label, known, same | worse⟩ :=
    sound.worse entry (split.mem_iff.2 List.mem_cons_self) next.fresh
  · exact ⟨label.previous, by rw [known, same]⟩
  · have waits := sound.waiting _ _ known next.fresh
    have least : Weight.Le entry.score label.score := sound.ordered.le_of_pop next.pop waits
    rw [Weight.not_less_iff.2 least] at worse
    cases worse

/-- A node is settled when it comes up first. -/
theorem settle (sound : f.Sound t c source settled) (next : f.Next t settled entry rest) :
    ({ f with queue := rest } : Frontier W).Sound t c source (entry.label :: settled) := by
  have split := MinQueue.toList_pop next.pop
  refine ⟨?_, ?_, ?_, ?_, sound.ordered.pop next.pop, sound.nodup.cons next.fresh⟩
  · intro n label known
    obtain ⟨walk, route⟩ := sound.routed n label known
    exact ⟨walk, route.mono (fun _ hm => List.mem_cons_of_mem _ hm) fun _ _ => rfl⟩
  · intro n hn
    rcases List.mem_cons.1 hn with rfl | hn
    · obtain ⟨previous, known⟩ := sound.final next
      exact ⟨_, known⟩
    · exact sound.known n hn
  · intro n label known unsettled
    obtain ⟨away, unsettled⟩ := List.ne_and_not_mem_of_not_mem_cons unsettled
    have waits := split.mem_iff.1 (sound.waiting n label known unsettled)
    rcases List.mem_cons.1 waits with here | later
    · subst here
      exact absurd rfl away
    · exact later
  · intro e waits unsettled
    exact sound.worse e (split.mem_iff.2 (List.mem_cons_of_mem _ waits))
      (List.ne_and_not_mem_of_not_mem_cons unsettled).2

section Offer

variable {next : NodeId} {new : Label W}

/-- The entries that a better label leaves behind are strictly worse than it. -/
theorem worse_push (sound : f.Sound t c source settled)
    (better : Weight.less new.score (f.score next) = true)
    (waits : entry ∈ (f.queue.push new.score next).toList) (unsettled : entry.label ∉ settled) :
    ∃ label, (f.labels.insert next new)[entry.label]? = some label ∧
      (entry.score = label.score ∨ Weight.less label.score entry.score = true) := by
  rw [(MinQueue.toList_push _ _ _).mem_iff] at waits
  rcases List.mem_cons.1 waits with rfl | waits
  · exact ⟨new, by rw [getElem?_insert, if_pos rfl], Or.inl rfl⟩
  · obtain ⟨label, known, le⟩ := sound.worse entry waits unsettled
    by_cases same : entry.label = next
    · refine ⟨new, by rw [getElem?_insert, if_pos same], Or.inr ?_⟩
      rw [same] at known
      rw [score_eq known] at better
      rcases le with equal | worse
      · rw [equal]
        exact better
      · exact Weight.less_of_less_of_le better (Weight.le_of_less worse)
    · exact ⟨label, by rw [getElem?_insert, if_neg same, known], le⟩

/-- An unsettled node gets a better label that a route leads to, and waits with it. -/
theorem improve (sound : f.Sound t c source settled) (fresh : next ∉ settled)
    (better : Weight.less new.score (f.score next) = true) {way : List NodeId}
    (here : Route t c source settled
      ⟨f.labels.insert next new, f.queue.push new.score next⟩ way next new.score) :
    ({ labels := f.labels.insert next new, queue := f.queue.push new.score next } :
      Frontier W).Sound t c source settled := by
  refine ⟨?_, ?_, ?_, ?_, sound.ordered.push _ _, sound.nodup⟩
  · intro n label known
    exact sound.routed_insert fresh here known
  · intro n hn
    have away : n ≠ next := by
      rintro rfl
      exact fresh hn
    rw [getElem?_insert, if_neg away]
    exact sound.known n hn
  · intro n label known unsettled
    rw [(MinQueue.toList_push _ _ _).mem_iff]
    rw [getElem?_insert] at known
    split at known
    · next same =>
      cases known
      subst same
      exact List.mem_cons_self
    · exact List.mem_cons_of_mem _ (sound.waiting n label known unsettled)
  · intro entry waits unsettled
    exact sound.worse_push better waits unsettled

/-- A settled node makes an offer. -/
theorem offer (sound : f.Sound t c source settled) {node : NodeId} {a e b : W}
    {previous : Option NodeId} (here : f.labels[node]? = some ⟨a, previous⟩)
    (isSettled : node ∈ settled) (fresh : next ∉ settled)
    (passable : node = source ∨ t.isHost node = false) (linked : t.linked node next = true)
    (link : c.linkWeight node next = some e) (total : Weight.combine a e = some b) :
    (f.offer node next b).Sound t c source settled := by
  simp only [Frontier.offer]
  split
  · exact sound
  · next viable =>
    split
    · next better =>
      obtain ⟨walk, route⟩ := sound.routed node _ here
      have away : node ≠ next := by
        rintro rfl
        exact fresh isSettled
      have usable : Weight.Viable b := by simpa [Weight.Viable] using viable
      have before := route.insert fresh away ⟨b, some node⟩ (f.queue.push b next)
      exact sound.improve fresh better (before.step isSettled (route.not_mem fresh away) passable
        linked link total usable (by rw [getElem?_insert, if_pos rfl]))
    · exact sound

end Offer

end Sound

/-! ### Labels that get better -/

/-- Labels only get better, and those of settled nodes stay as they are. -/
structure Improved (settled : List NodeId) (f f' : Frontier W) : Prop where
  kept : ∀ n ∈ settled, f'.labels[n]? = f.labels[n]?
  better : ∀ (n : NodeId) (label : Label W), f.labels[n]? = some label →
    ∃ label' : Label W, f'.labels[n]? = some label' ∧ Weight.Le label'.score label.score

theorem Improved.refl (settled : List NodeId) (f : Frontier W) : Improved settled f f :=
  ⟨fun _ _ => rfl, fun _ label known => ⟨label, known, Weight.Le.refl _⟩⟩

theorem Improved.trans {f' f'' : Frontier W} (h : Improved settled f f')
    (h' : Improved settled f' f'') : Improved settled f f'' := by
  constructor
  · intro n hn
    exact (h'.kept n hn).trans (h.kept n hn)
  · intro n label known
    obtain ⟨label', known', le'⟩ := h.better n label known
    obtain ⟨label'', known'', le''⟩ := h'.better n label' known'
    exact ⟨label'', known'', le''.trans le'⟩

theorem improved_offer {next : NodeId} (fresh : next ∉ settled) (node : NodeId) (b : W) :
    Improved settled f (f.offer node next b) := by
  simp only [offer]
  split
  · exact Improved.refl settled f
  · split
    · next better =>
      constructor
      · intro n hn
        rw [getElem?_insert, if_neg]
        rintro rfl
        exact fresh hn
      · intro n label known
        rw [getElem?_insert]
        split
        · next here =>
          subst here
          rw [score_eq known] at better
          exact ⟨_, rfl, Weight.le_of_less better⟩
        · exact ⟨label, known, Weight.Le.refl _⟩
    · exact Improved.refl settled f

/-! ### Settling a node -/

/-- What the offers of a settled node do. -/
structure Relaxed (t : Topology) (c : Calculator W) (source : NodeId) (settled : List NodeId)
    (f f' : Frontier W) : Prop where
  sound : f'.Sound t c source settled
  improved : Improved settled f f'

variable {entry : Scored W NodeId} {rest : MinQueue W NodeId} {previous : Option NodeId}
  {f' : Frontier W}

theorem relaxed_relax {y : NodeId} (isSettled : entry.label ∈ settled)
    (passable : entry.label = source ∨ t.isHost entry.label = false)
    (linked : t.linked entry.label y = true) (sound : f.Sound t c source settled)
    (here : f.labels[entry.label]? = some ⟨entry.score, previous⟩)
    (offer : f.relax c settled entry.label entry.score y = some f') :
    Relaxed t c source settled f f' := by
  simp only [relax] at offer
  split at offer
  · cases offer
    exact ⟨sound, Improved.refl settled f⟩
  · next fresh =>
    simp only [Option.bind_eq_bind, Option.bind_eq_some_iff, Option.pure_def,
      Option.some_inj] at offer
    obtain ⟨e, link, b, total, rfl⟩ := offer
    exact ⟨sound.offer here isSettled fresh passable linked link total, improved_offer fresh _ _⟩

theorem relaxed_foldlM (isSettled : entry.label ∈ settled)
    (passable : entry.label = source ∨ t.isHost entry.label = false) {next : List NodeId}
    (linked : ∀ y ∈ next, t.linked entry.label y = true) (sound : f.Sound t c source settled)
    (here : f.labels[entry.label]? = some ⟨entry.score, previous⟩)
    (offers : next.foldlM (relax c settled entry.label entry.score) f = some f') :
    Relaxed t c source settled f f' := by
  induction next generalizing f with
  | nil =>
    cases offers
    exact ⟨sound, Improved.refl settled _⟩
  | cons y next ih =>
    rw [List.foldlM_cons, Option.bind_eq_bind, Option.bind_eq_some_iff] at offers
    obtain ⟨g, first, later⟩ := offers
    obtain ⟨linkedY, linkedNext⟩ := List.forall_mem_cons.1 linked
    have one := relaxed_relax isSettled passable linkedY sound here first
    have more := ih linkedNext one.sound ((one.improved.kept _ isSettled).trans here) later
    exact ⟨more.sound, one.improved.trans more.improved⟩

/-- A passable node that comes up first offers its way to all its neighbors. -/
theorem Sound.relaxed (sound : f.Sound t c source settled) (next : f.Next t settled entry rest)
    (passable : entry.label = source ∨ t.isHost entry.label = false)
    (offers : Frontier.expand t c (entry.label :: settled) entry { f with queue := rest } =
      some f') :
    Relaxed t c source (entry.label :: settled) f f' := by
  obtain ⟨previous, here⟩ := sound.final next
  have made := relaxed_foldlM List.mem_cons_self passable
    (fun y hy => (t.mem_neighbors_iff _ y).1 hy) (sound.settle next) here offers
  exact ⟨made.sound, made.improved.kept, made.improved.better⟩

end Frontier

/-- The labels and the queue are sound in every state of a search. -/
theorem Searching.sound (h : Searching t c source target settled f)
    (inside : t.contains source = true) : f.Sound t c source settled := by
  induction h with
  | start => exact Frontier.sound_start
  | skip before pop stale ih => exact ih.skip inside pop stale
  | host before next away foreign isHost ih => exact ih.settle next
  | expand before next away passable offers ih => exact (ih.relaxed next passable offers).sound

end Absorbing

/-! ### Offers that were made -/

section Lawful

variable [LawfulWeight W]

namespace Frontier

/-- The way to `y` through `x` has been offered: if it is viable, `y` has a label at least as
    good. -/
def Offered (c : Calculator W) (f : Frontier W) (x : NodeId) (score : W) (y : NodeId) : Prop :=
  ∃ e b, c.linkWeight x y = some e ∧ Weight.combine score e = some b ∧
    (Weight.Viable b → ∃ label, f.labels[y]? = some label ∧ Weight.Le label.score b)

theorem Offered.improved {f' : Frontier W} {x y : NodeId} {score : W}
    (h : f.Offered c x score y) (better : Improved settled f f') : f'.Offered c x score y := by
  obtain ⟨e, b, link, total, made⟩ := h
  refine ⟨e, b, link, total, ?_⟩
  intro viable
  obtain ⟨label, known, le⟩ := made viable
  obtain ⟨label', known', le'⟩ := better.better y label known
  exact ⟨label', known', le'.trans le⟩

theorem offered_offer {x y : NodeId} {score e b : W} (link : c.linkWeight x y = some e)
    (total : Weight.combine score e = some b) : (f.offer x y b).Offered c x score y := by
  refine ⟨e, b, link, total, ?_⟩
  intro viable
  simp only [offer]
  rw [if_neg (by rw [viable]; exact Bool.noConfusion)]
  split
  · exact ⟨_, by rw [getElem?_insert, if_pos rfl], Weight.Le.refl b⟩
  · next kept =>
    simp only [Frontier.score] at kept
    split at kept
    · next label known =>
      exact ⟨label, known, Weight.not_less_iff.1 (Bool.eq_false_iff.2 kept)⟩
    · exact absurd (LawfulWeight.less_nonViable_of_combine total viable) kept

/-- What a settled node leaves behind when it has made its offers to `next`. -/
structure Served (t : Topology) (c : Calculator W) (source : NodeId) (settled : List NodeId)
    (entry : Scored W NodeId) (next : List NodeId) (f f' : Frontier W) : Prop
    extends Relaxed t c source settled f f' where
  offered : ∀ y ∈ next, y ∉ settled → f'.Offered c entry.label entry.score y

variable {entry : Scored W NodeId} {rest : MinQueue W NodeId} {f' : Frontier W}

theorem offered_relax {y : NodeId} (fresh : y ∉ settled)
    (offer : f.relax c settled entry.label entry.score y = some f') :
    f'.Offered c entry.label entry.score y := by
  simp only [relax] at offer
  rw [if_neg fresh] at offer
  simp only [Option.bind_eq_bind, Option.bind_eq_some_iff, Option.pure_def,
    Option.some_inj] at offer
  obtain ⟨e, link, b, total, rfl⟩ := offer
  exact offered_offer link total

theorem served_foldlM {previous : Option NodeId} (isSettled : entry.label ∈ settled)
    (passable : entry.label = source ∨ t.isHost entry.label = false) (next : List NodeId)
    (linked : ∀ y ∈ next, t.linked entry.label y = true)
    (sound : f.Sound t c source settled)
    (here : f.labels[entry.label]? = some ⟨entry.score, previous⟩)
    (offers : next.foldlM (relax c settled entry.label entry.score) f = some f') :
    Served t c source settled entry next f f' := by
  refine ⟨relaxed_foldlM isSettled passable linked sound here offers, ?_⟩
  intro y hy fresh
  -- what was offered to `y` only gets better with the offers after it
  obtain ⟨earlier, later, rfl⟩ := List.append_of_mem hy
  simp only [List.foldlM_append, List.foldlM_cons, Option.bind_eq_bind,
    Option.bind_eq_some_iff] at offers
  obtain ⟨g, before, g', offer, after⟩ := offers
  have first := relaxed_foldlM isSettled passable
    (fun z hz => linked z (List.mem_append_left _ hz)) sound here before
  have hereG := (first.improved.kept _ isSettled).trans here
  have second := relaxed_relax isSettled passable (linked y hy) first.sound hereG offer
  have third := relaxed_foldlM isSettled passable
    (fun z hz => linked z (List.mem_append_right _ (List.mem_cons_of_mem _ hz))) second.sound
    ((second.improved.kept _ isSettled).trans hereG) after
  exact (offered_relax fresh offer).improved third.improved

theorem Sound.expand (sound : f.Sound t c source settled) (next : f.Next t settled entry rest)
    (passable : entry.label = source ∨ t.isHost entry.label = false)
    (offers : Frontier.expand t c (entry.label :: settled) entry { f with queue := rest } =
      some f') :
    Served t c source (entry.label :: settled) entry (t.neighbors entry.label) f f' := by
  obtain ⟨previous, here⟩ := sound.final next
  have served := served_foldlM List.mem_cons_self passable _
    (fun y hy => (t.mem_neighbors_iff _ y).1 hy) (sound.settle next) here offers
  exact ⟨sound.relaxed next passable offers, served.offered⟩

/-- Every settled node that leads on has made its offers. -/
def Closed (t : Topology) (c : Calculator W) (source : NodeId) (settled : List NodeId)
    (f : Frontier W) : Prop :=
  ∀ x ∈ settled, (x = source ∨ t.isHost x = false) → ∀ label, f.labels[x]? = some label →
    ∀ y, t.linked x y = true → y ∉ settled → f.Offered c x label.score y

end Frontier

/-- Settled nodes have made their offers in every state of a search. -/
theorem Searching.closed (h : Searching t c source target settled f)
    (inside : t.contains source = true) : f.Closed t c source settled := by
  induction h with
  | start =>
    intro x hx
    cases hx
  | skip before pop stale ih => exact ih
  | @host settled f entry rest before next away foreign isHost ih =>
    intro x hx passable label known y linked fresh
    rcases List.mem_cons.1 hx with rfl | hx
    · rcases passable with same | leads
      · exact absurd same foreign
      · rw [isHost] at leads
        cases leads
    · exact ih x hx passable label known y linked
        (List.ne_and_not_mem_of_not_mem_cons fresh).2
  | @expand settled f entry rest f' before next away passable offers ih =>
    have served := (before.sound inside).expand next passable offers
    intro x hx leads label known y linked fresh
    rw [served.improved.kept x hx] at known
    rcases List.mem_cons.1 hx with rfl | hx
    · obtain ⟨previous, here⟩ := (before.sound inside).final next
      rw [here] at known
      cases known
      exact served.offered y ((t.mem_neighbors_iff _ y).2 linked) fresh
    · exact (ih x hx leads label known y linked
        (List.ne_and_not_mem_of_not_mem_cons fresh).2).improved served.improved

end Lawful

/-! ### What a search returns -/

variable [AbsorbingWeight W]

/-- A search that comes to a viable score of the target ends with the target coming up, and the
    labels lead back along a route to it. -/
theorem arrived_of_settle (inside : t.contains source = true) {g : Frontier W}
    (found : settle t c source target [] (Frontier.start source) = some g)
    (viable : Weight.Viable (g.score target)) :
    ∃ settled f entry rest path, Searching t c source target settled f ∧
      f.Next t settled entry rest ∧ entry.label = target ∧ g = { f with queue := rest } ∧
      Route t c source settled f path target entry.score ∧ Weight.Viable entry.score := by
  have stop : SearchEnd t c source target _ := settle_end Searching.start
  rw [found] at stop
  cases stop with
  | @exhausted settled _ before pop =>
    -- a labelled target would wait, as it is never settled
    exfalso
    simp only [Frontier.score] at viable
    split at viable
    · next label known =>
      have waits := (before.sound inside).waiting target label known before.target_not_mem
      rw [MinQueue.toList_eq_nil_of_pop pop] at waits
      cases waits
    · exact Weight.not_viable_nonViable viable
  | @arrived settled f entry rest before next here =>
    have sound := before.sound inside
    obtain ⟨previous, known⟩ := sound.final next
    obtain ⟨walk, route⟩ := sound.routed _ _ known
    have score : f.score entry.label = entry.score := Frontier.score_eq known
    rw [here] at route score
    change Weight.Viable (f.score target) at viable
    rw [score] at viable
    exact ⟨settled, f, entry, rest, walk, before, next, here, rfl, route, viable⟩

/-- **A search that returns a path ends with the target coming up, and the path is the route to
    it.** -/
theorem Topology.arrived_of_shortestPath {path : List NodeId}
    (h : t.shortestPath c source target = .ok path) :
    ∃ settled f entry rest, Searching t c source target settled f ∧
      f.Next t settled entry rest ∧ entry.label = target ∧
      Route t c source settled f path target entry.score ∧ Weight.Viable entry.score := by
  obtain ⟨inside, _, g, found, viable, traced⟩ := shortestPath_eq_ok_iff.1 h
  obtain ⟨settled, f, entry, rest, walk, before, next, here, rfl, route, viable⟩ :=
    arrived_of_settle inside found viable
  have kept : Route t c source settled { f with queue := rest } walk target entry.score :=
    route.mono (fun _ hm => hm) fun _ _ => rfl
  have nodes := kept.trace t.size (Nat.le_succ_of_le (route.length_le inside)) []
  rw [traced, List.append_nil] at nodes
  subst nodes
  exact ⟨settled, f, entry, rest, before, next, here, route, viable⟩

/-- A path that a search may return: a simple admissible walk with a viable weight. -/
structure Topology.Found (t : Topology) (c : Calculator W) (source target : NodeId)
    (path : List NodeId) : Prop where
  walkTo : ∃ w, WalkTo t c source (fun _ _ => True) path target w
  nodup : path.Nodup
  inside : ∀ n ∈ path, t.contains n = true

theorem Topology.found_of_shortestPath {path : List NodeId}
    (h : t.shortestPath c source target = .ok path) : t.Found c source target path := by
  have inside := (shortestPath_eq_ok_iff.1 h).1
  obtain ⟨settled, f, entry, rest, before, next, here, route, viable⟩ :=
    arrived_of_shortestPath h
  exact ⟨⟨entry.score, route.walkTo⟩, route.nodup, route.inside inside⟩

end PathControl
