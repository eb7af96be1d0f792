/-
  PathControl/Proofs/MinQueue/Use.lean
  ====================================
  **However a queue is used, it gives out an entry of least score.**

  What waits in a queue is a multiset of entries, whatever tree they stand in. Putting
  an entry in adds it to them, and taking one out removes one of least score
  (`Serves`). A queue that starts empty does nothing else, however it is used, and
  when it is drained the scores come in order (`serves_least`). The order of the tree
  carries this from one use to the next.
-/
import PathControl.Proofs.MinQueue
import PathControl.Proofs.Weight.Counts
import Mathlib.Data.Multiset.ZeroCons

namespace PathControl.MinQueue

variable {K L : Type}

/-! ### Using a queue -/

/-- Putting an entry in, or taking one out. -/
inductive Use (K L : Type) where
  | put (entry : Scored K L)
  | take

/-- The waiting entries, in no order. -/
def waiting (q : MinQueue K L) : Multiset (Scored K L) := q.toList

variable [Ord K]

/-- What a use gives out, and the queue after it. -/
def use (q : MinQueue K L) : Use K L → Option (Scored K L) × MinQueue K L
  | .put entry => (none, q.push entry.score entry.label)
  | .take =>
    match q.pop with
    | some (entry, rest) => (some entry, rest)
    | none => (none, q)

/-- What uses give out one after another, and the queue after them. -/
def useAll (q : MinQueue K L) : List (Use K L) → List (Option (Scored K L)) × MinQueue K L
  | [] => ([], q)
  | u :: uses => ((q.use u).1 :: ((q.use u).2.useAll uses).1, ((q.use u).2.useAll uses).2)

/-- What may come of a use: what waits changes by the one entry that is put in or taken out, and
an entry that is taken out has a least score. Nothing comes out only where nothing waits. -/
inductive Serves : Multiset (Scored K L) → Use K L → Option (Scored K L) →
    Multiset (Scored K L) → Prop where
  | put {waiting entry} : Serves waiting (.put entry) none (entry ::ₘ waiting)
  | take {rest entry} (least : ∀ x ∈ rest, (compare entry.score x.score).isLE) :
      Serves (entry ::ₘ rest) .take (some entry) rest
  | idle : Serves 0 .take none 0

inductive ServesAll : Multiset (Scored K L) → List (Use K L) → List (Option (Scored K L)) →
    Multiset (Scored K L) → Prop where
  | nil {waiting} : ServesAll waiting [] [] waiting
  | cons {waiting u given waiting' uses more waiting''} (first : Serves waiting u given waiting')
      (rest : ServesAll waiting' uses more waiting'') :
      ServesAll waiting (u :: uses) (given :: more) waiting''

theorem waiting_push (q : MinQueue K L) (score : K) (label : L) :
    (q.push score label).waiting = ⟨score, label⟩ ::ₘ q.waiting :=
  Multiset.coe_eq_coe.2 (toList_push q score label)

theorem waiting_pop {q rest : MinQueue K L} {e : Scored K L} (h : q.pop = some (e, rest)) :
    q.waiting = e ::ₘ rest.waiting :=
  Multiset.coe_eq_coe.2 (toList_pop h)

/-! ### One use after another -/

section Order

variable [Std.TransOrd K] {q : MinQueue K L}

theorem Ordered.serves (o : q.Ordered) (u : Use K L) :
    (q.use u).2.Ordered ∧ Serves q.waiting u (q.use u).1 (q.use u).2.waiting := by
  rcases u with entry | _
  · refine ⟨o.push _ _, ?_⟩
    rw [use, waiting_push]
    exact .put
  · rw [use]
    rcases taken : q.pop with _ | ⟨entry, rest⟩
    · refine ⟨o, ?_⟩
      have none : q.waiting = 0 := congrArg _ (toList_eq_nil_of_pop taken)
      rw [none]
      exact .idle
    · refine ⟨o.pop taken, ?_⟩
      rw [waiting_pop taken]
      apply Serves.take
      intro x hx
      apply o.le_of_pop taken
      exact (toList_pop taken).mem_iff.2 (List.mem_cons_of_mem _ hx)

theorem Ordered.servesAll (o : q.Ordered) (uses : List (Use K L)) :
    (q.useAll uses).2.Ordered ∧
      ServesAll q.waiting uses (q.useAll uses).1 (q.useAll uses).2.waiting := by
  induction uses generalizing q with
  | nil => exact ⟨o, .nil⟩
  | cons u uses ih =>
    obtain ⟨ordered, first⟩ := o.serves u
    obtain ⟨last, rest⟩ := ih ordered
    exact ⟨last, .cons first rest⟩

/-! ### Draining -/

/-- Taking out as many entries as wait takes them all, in the order of their scores. -/
theorem Ordered.popMany (o : q.Ordered) {n : Nat} (all : q.size = n) :
    (popMany n q).Perm q.toList ∧
      (popMany n q).Pairwise fun x y => (compare x.score y.score).isLE := by
  induction n generalizing q with
  | zero =>
    have none : q.toList = [] := List.eq_nil_of_length_eq_zero all
    rw [none]
    exact ⟨.nil, .nil⟩
  | succ n ih =>
    rw [MinQueue.popMany]
    rcases taken : q.pop with _ | ⟨entry, rest⟩
    · rw [toList_eq_nil_of_pop taken]
      exact ⟨.nil, .nil⟩
    · have parts := toList_pop taken
      have count : q.size = rest.size + 1 := parts.length_eq
      obtain ⟨same, sorted⟩ := ih (o.pop taken) (by omega)
      refine ⟨(same.cons entry).trans parts.symm, List.pairwise_cons.2 ⟨?_, sorted⟩⟩
      intro x hx
      apply o.le_of_pop taken
      exact parts.mem_iff.2 (List.mem_cons_of_mem _ (same.mem_iff.1 hx))

/-- **The queue is a min-queue.** However it is used from the start, what waits changes by exactly
the entries that are put in and taken out, and every entry that is taken out has a score no higher
than all that still wait. Draining it then gives out all that wait, in the order of the scores. -/
theorem serves_least (uses : List (Use K L)) :
    let q := (empty.useAll uses).2
    ServesAll 0 uses (empty.useAll uses).1 q.waiting ∧
      (q.drain : Multiset (Scored K L)) = q.waiting ∧
      q.drain.Pairwise fun x y => (compare x.score y.score).isLE := by
  intro q
  obtain ⟨ordered, served⟩ := (ordered_empty (K := K) (L := L)).servesAll uses
  obtain ⟨same, sorted⟩ := ordered.popMany rfl
  exact ⟨served, Multiset.coe_eq_coe.2 same, sorted⟩

end Order

/-- Of two entries of one score the one at the root goes first, and a lower score overtakes. -/
theorem serves_least_ties :
    let uses : List (Use HopCount Char) :=
      [.take, .put ⟨⟨1⟩, 'a'⟩, .put ⟨⟨1⟩, 'b'⟩, .take, .put ⟨⟨0⟩, 'c'⟩, .take]
    let q := (empty.useAll uses).2
    ((empty.useAll uses).1.map (·.map Scored.label) =
        [none, none, none, some 'a', none, some 'c'] ∧ q.drain.map Scored.label = ['b']) ∧
    ServesAll 0 uses (empty.useAll uses).1 q.waiting ∧
      (q.drain : Multiset (Scored HopCount Char)) = q.waiting ∧
      q.drain.Pairwise fun x y => (compare x.score y.score).isLE :=
  ⟨by decide +kernel, serves_least _⟩

end PathControl.MinQueue
