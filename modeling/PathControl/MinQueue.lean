/-
  PathControl/MinQueue.lean
  =========================
  **A queue that gives out an entry of least score.**

  The entries stand in an array that is read as a binary tree: the children of
  position `i` are `2 * i + 1` and `2 * i + 2`. No entry has a higher score than its
  children, so the root has a least score.

  A new entry is put at the end and rises past parents of strictly higher score. To
  take the root out, the last entry takes its place, sinks along the children of
  lower score all the way down (the right child on a tie), and then rises again.
  Entries of one score keep the order that these moves give them.
-/

namespace PathControl

/-- A label with the score that it waits with. -/
structure Scored (K L : Type) where
  score : K
  label : L

/-- The waiting entries as a binary tree. -/
structure MinQueue (K L : Type) where
  entries : Array (Scored K L) := #[]

namespace MinQueue

variable {K L : Type}

def empty : MinQueue K L := {}

def size (q : MinQueue K L) : Nat := q.entries.size

def isEmpty (q : MinQueue K L) : Bool := q.entries.isEmpty

/-- An entry of least score, the one that is given out next. -/
def first? (q : MinQueue K L) : Option (Scored K L) := q.entries[0]?

variable [Ord K]

/-- Whether the entry at `i` has a strictly higher score than the one at `j`. -/
def higher (es : Array (Scored K L)) (i j : Fin es.size) : Bool :=
  (compare es[i].score es[j].score).isGT

/-- Let the entry at `i` rise past parents of strictly higher score. -/
def siftUp (es : Array (Scored K L)) (i : Nat) (h : i < es.size) : Array (Scored K L) :=
  if root : i = 0 then es
  else
    let parent := (i - 1) / 2
    have below : parent < i := by omega
    have inside : parent < es.size := by omega
    if higher es ⟨parent, inside⟩ ⟨i, h⟩ then
      siftUp (es.swap parent i inside h) parent (by simpa using inside)
    else es
termination_by i

/-- The child of lower score of a position with children, the right one on a tie. -/
def lowerChild (es : Array (Scored K L)) (i : Nat) (h : 2 * i + 1 < es.size) :
    { c : Nat // i < c ∧ c < es.size } :=
  if right : 2 * i + 2 < es.size then
    if (compare es[2 * i + 1].score es[2 * i + 2].score).isGE then
      ⟨2 * i + 2, by omega⟩
    else ⟨2 * i + 1, by omega⟩
  else ⟨2 * i + 1, by omega⟩

/-- Let the entry at `i` sink to a position without children, then rise. -/
def siftToBottom (es : Array (Scored K L)) (i : Nat) (h : i < es.size) : Array (Scored K L) :=
  if children : 2 * i + 1 < es.size then
    match lowerChild es i children with
    | ⟨c, _above, inside⟩ => siftToBottom (es.swap i c h inside) c (by simpa using inside)
  else siftUp es i h
termination_by es.size - i
decreasing_by simp only [Array.size_swap]; omega

/-- Let an entry wait. -/
def push (q : MinQueue K L) (score : K) (label : L) : MinQueue K L :=
  ⟨siftUp (q.entries.push ⟨score, label⟩) q.entries.size (by simp)⟩

/-- Take out an entry of least score. -/
def pop (q : MinQueue K L) : Option (Scored K L × MinQueue K L) :=
  if h : 0 < q.entries.size then
    let least := q.entries[0]
    let rest := (q.entries.swap 0 (q.entries.size - 1) h (by omega)).pop
    if more : 0 < rest.size then some (least, ⟨siftToBottom rest 0 more⟩)
    else some (least, ⟨rest⟩)
  else none

/-- Take out a number of entries one after another. -/
def popMany : Nat → MinQueue K L → List (Scored K L)
  | 0, _ => []
  | n + 1, q =>
    match q.pop with
    | some (entry, rest) => entry :: popMany n rest
    | none => []

/-- Take out all entries one after another. -/
def drain (q : MinQueue K L) : List (Scored K L) := popMany q.size q

/-! ### Sizes -/

theorem size_siftUp (es : Array (Scored K L)) (i : Nat)
    (h : i < es.size) : (siftUp es i h).size = es.size := by
  fun_induction siftUp es i h <;> simp_all

theorem size_siftToBottom (es : Array (Scored K L)) (i : Nat)
    (h : i < es.size) : (siftToBottom es i h).size = es.size := by
  fun_induction siftToBottom es i h <;> simp_all [size_siftUp]

theorem size_lt_of_pop {q rest : MinQueue K L} {e : Scored K L}
    (h : q.pop = some (e, rest)) : rest.size < q.size := by
  unfold pop at h
  split at h
  · next nonempty =>
    dsimp only at h
    split at h <;> cases h <;> simp [size, size_siftToBottom] <;> omega
  · cases h

end MinQueue

end PathControl
