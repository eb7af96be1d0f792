/-
  PathControl/Proofs/Event/Agenda.lean
  ====================================
  **The event queue is a stable list of events in the order of their times.**

  An agenda keeps what waits in the order in which it was put in, each event with the
  later of its time and the clock's, and gives out the first one of least time. The
  queue keeps the same events in a tree and tells events of one time apart by their
  turns. However both are used, they give the same answers
  (`EventQueue.answers_eq_agenda`): every turn in the queue is later than the turns
  before it in the agenda (`Represents`), so that the entry with the least time and
  turn is the first one of least time.
-/
import PathControl.Proofs.Event.Queue

namespace PathControl

theorem Time.later_of_add {now delay time : Time} (h : now.add? delay = some time) :
    time.later now = time := by
  apply ext_nanos
  rw [nanos_later, add_eq_some_iff.1 h]
  exact Nat.max_eq_left (Nat.le_add_right ..)

/-! ### Using a queue -/

inductive QueueStep where
  | push (time : Time) (event : Event)
  | schedule (delay : Time) (event : Event)
  | pop
  | popUntil (limit : Time)

/-- What a queue shows after a step, with what the step took out. -/
structure QueueAnswer where
  taken : Option (Time × Event)
  nextTime? : Option Time
  size : Nat
  now : Time

/-- The operations of a queue of events. -/
structure QueueOps (Q : Type) where
  push : Q → Time → Event → Q
  schedule : Q → Time → Event → Option Q
  pop : Q → Option ((Time × Event) × Q)
  popUntil : Q → Time → Option ((Time × Event) × Q)
  nextTime? : Q → Option Time
  size : Q → Nat
  now : Q → Time

namespace QueueOps

variable {Q : Type} (ops : QueueOps Q)

def orKeep (q : Q) : Option ((Time × Event) × Q) → Option (Time × Event) × Q
  | some (x, q') => (some x, q')
  | none => (none, q)

/-- Take one step; `none` if the clock cannot show the time of an event. -/
def perform? (q : Q) : QueueStep → Option (Option (Time × Event) × Q)
  | .push time event => some (none, ops.push q time event)
  | .schedule delay event => (ops.schedule q delay event).map fun q' => (none, q')
  | .pop => some (orKeep q (ops.pop q))
  | .popUntil limit => some (orKeep q (ops.popUntil q limit))

def answer (taken : Option (Time × Event)) (q : Q) : QueueAnswer :=
  ⟨taken, ops.nextTime? q, ops.size q, ops.now q⟩

/-- The answers to a list of steps and the queue after them, up to the first step whose time the
    clock cannot show. -/
def answers (q : Q) : List QueueStep → List QueueAnswer × Q
  | [] => ([], q)
  | step :: rest =>
    match ops.perform? q step with
    | some (taken, q') =>
      (ops.answer taken q' :: (answers q' rest).1, (answers q' rest).2)
    | none => ([], q)

end QueueOps

def EventQueue.ops : QueueOps EventQueue where
  push := push
  schedule := schedule
  pop := pop
  popUntil := popUntil
  nextTime? := nextTime?
  size := size
  now := now

/-- What a step puts in when the clock shows a time. -/
def QueueStep.stored? (now : Time) : QueueStep → Option (Time × Event)
  | push time event => some (time.later now, event)
  | schedule delay event => (now.add? delay).map fun time => (time, event)
  | pop => none
  | popUntil _ => none

/-- What steps put in, in this order, when the clock shows `now` at first and then what is
    answered. -/
def putIn (now : Time) (steps : List QueueStep) (answers : List QueueAnswer) :
    List (Time × Event) :=
  (steps.zip (now :: answers.map QueueAnswer.now)).filterMap fun (step, now) => step.stored? now

/-! ### Agendas -/

/-- What waits, in the order in which it was put in, and the clock. -/
structure Agenda where
  stored : List (Time × Event) := []
  now : Time := Time.zero

namespace Agenda

def empty : Agenda := {}

def push (a : Agenda) (time : Time) (event : Event) : Agenda :=
  { a with stored := a.stored ++ [(time.later a.now, event)] }

def schedule (a : Agenda) (delay : Time) (event : Event) : Option Agenda :=
  (a.now.add? delay).map fun time => a.push time event

/-- The first one of least time. -/
def first? (a : Agenda) : Option (Time × Event) :=
  a.stored.find? fun x => a.stored.all fun y => x.1 ≤ y.1

def pop (a : Agenda) : Option ((Time × Event) × Agenda) :=
  a.first?.map fun x => (x, ⟨a.stored.erase x, x.1⟩)

def popUntil (a : Agenda) (limit : Time) : Option ((Time × Event) × Agenda) :=
  if a.stored.any fun x => x.1 ≤ limit then a.pop else none

def ops : QueueOps Agenda where
  push := push
  schedule := schedule
  pop := pop
  popUntil := popUntil
  nextTime? a := a.first?.map Prod.fst
  size a := a.stored.length
  now := now

variable {a a' : Agenda} {x : Time × Event} {before after : List (Time × Event)}

theorem first_eq (a : Agenda) : a.first? = a.pop.map Prod.fst := by
  rw [pop, Option.map_map]
  exact Option.map_id'.symm

theorem least_of_first (h : a.first? = some x) : x ∈ a.stored ∧ ∀ y ∈ a.stored, x.1 ≤ y.1 := by
  constructor
  · exact List.mem_of_find?_eq_some h
  · intro y hy
    have least := List.find?_some h
    rw [List.all_eq_true] at least
    exact of_decide_eq_true (least y hy)

/-- What stands before the first one of least time is for a later time. -/
theorem exists_split_of_first (h : a.first? = some x) :
    ∃ before after, a.stored = before ++ x :: after ∧ (∀ y ∈ before, x.1 < y.1) ∧
      ∀ y ∈ after, x.1 ≤ y.1 := by
  obtain ⟨-, before, after, split, passed⟩ := List.find?_eq_some_iff_append.1 h
  have least := (least_of_first h).2
  refine ⟨before, after, split, ?_, ?_⟩
  · intro y hy
    have notLeast := passed y hy
    rw [Bool.not_eq_true', List.all_eq_false] at notLeast
    obtain ⟨z, hz, lower⟩ := notLeast
    have below : ¬ y.1 ≤ z.1 := by simpa using lower
    exact Nat.lt_of_le_of_lt (least z hz) (Nat.lt_of_not_le below)
  · intro y hy
    apply least y
    rw [split]
    exact List.mem_append_right _ (List.mem_cons_of_mem _ hy)

theorem first_of_split (split : a.stored = before ++ x :: after)
    (earlier : ∀ y ∈ before, x.1 < y.1) (later : ∀ y ∈ after, x.1 ≤ y.1) :
    a.first? = some x := by
  apply List.find?_eq_some_iff_append.2
  refine ⟨?_, before, after, split, ?_⟩
  · rw [List.all_eq_true, split]
    intro y hy
    rw [decide_eq_true_eq]
    rcases List.mem_append.1 hy with hy | hy
    · exact Nat.le_of_lt (earlier y hy)
    · rcases List.mem_cons.1 hy with rfl | hy
      · exact Nat.le_refl _
      · exact later y hy
  · intro y hy
    rw [Bool.not_eq_true', List.all_eq_false]
    refine ⟨x, ?_, ?_⟩
    · rw [split]
      exact List.mem_append_right _ List.mem_cons_self
    · rw [decide_eq_true_eq]
      exact Nat.not_le_of_lt (earlier y hy)

theorem erase_of_split (split : a.stored = before ++ x :: after)
    (earlier : ∀ y ∈ before, x.1 < y.1) : a.stored.erase x = before ++ after := by
  have away : x ∉ before := by
    intro hx
    exact Nat.lt_irrefl _ (earlier x hx)
  rw [split, List.erase_append_right _ away, List.erase_cons_head]

theorem pop_of_split (split : a.stored = before ++ x :: after)
    (earlier : ∀ y ∈ before, x.1 < y.1) (later : ∀ y ∈ after, x.1 ≤ y.1) :
    a.pop = some (x, ⟨before ++ after, x.1⟩) := by
  rw [pop, first_of_split split earlier later, Option.map_some, erase_of_split split earlier]

/-- Taking the first one of least time out of the list takes it away from the start of those of
    its time, and leaves the others as they are. -/
theorem filter_of_split (split : a.stored = before ++ x :: after)
    (earlier : ∀ y ∈ before, x.1 < y.1) (time : Time) :
    [x].filter (·.1 = time) ++ (before ++ after).filter (·.1 = time) =
      a.stored.filter (·.1 = time) := by
  rw [split, List.filter_append, List.filter_append]
  by_cases same : x.1 = time
  · have away : before.filter (·.1 = time) = [] := by
      rw [List.filter_eq_nil_iff]
      intro y hy eq
      have lower := earlier y hy
      rw [same, ← of_decide_eq_true eq] at lower
      exact Nat.lt_irrefl _ lower
    rw [away, List.filter_cons_of_pos (by simpa using same),
      List.filter_cons_of_pos (by simpa using same)]
    rfl
  · rw [List.filter_cons_of_neg (by simpa using same),
      List.filter_cons_of_neg (by simpa using same)]
    rfl

variable {time : Time} {event : Event} {step : QueueStep} {taken : Option (Time × Event)}

theorem filter_of_pop (h : a.pop = some (x, a')) (time : Time) :
    [x].filter (·.1 = time) ++ a'.stored.filter (·.1 = time) =
      a.stored.filter (·.1 = time) := by
  obtain ⟨y, first, eq⟩ := Option.map_eq_some_iff.1 h
  cases eq
  obtain ⟨before, after, split, earlier, -⟩ := exists_split_of_first first
  rw [erase_of_split split earlier]
  exact filter_of_split split earlier time

/-- Something waits until a limit if the first one of least time does. -/
theorem any_of_first (h : a.first? = some x) (limit : Time) :
    a.stored.any (fun y => y.1 ≤ limit) = decide (x.1 ≤ limit) := by
  obtain ⟨inside, least⟩ := least_of_first h
  rw [Bool.eq_iff_iff, List.any_eq_true, decide_eq_true_eq]
  constructor
  · rintro ⟨y, hy, early⟩
    exact Nat.le_trans (least y hy) (of_decide_eq_true early)
  · intro early
    exact ⟨x, inside, decide_eq_true early⟩

theorem pop_of_popUntil {limit : Time} (h : a.popUntil limit = some (x, a')) :
    a.pop = some (x, a') := by
  rw [popUntil] at h
  split at h
  · exact h
  · cases h

/-- What was there for a time and what is put in for it is what is taken out and what stays, in
    this order. -/
theorem filter_of_perform (h : ops.perform? a step = some (taken, a')) (time : Time) :
    taken.toList.filter (·.1 = time) ++ a'.stored.filter (·.1 = time) =
      a.stored.filter (·.1 = time) ++ (step.stored? a.now).toList.filter (·.1 = time) := by
  -- both ways to take something out are a `pop` that gives out at most one entry
  have out {r : Option ((Time × Event) × Agenda)} (eq : QueueOps.orKeep a r = (taken, a'))
      (popped : ∀ y b, r = some (y, b) → a.pop = some (y, b)) :
      taken.toList.filter (·.1 = time) ++ a'.stored.filter (·.1 = time) =
        a.stored.filter (·.1 = time) := by
    rcases r with - | ⟨y, b⟩
    · cases eq
      rfl
    · cases eq
      exact filter_of_pop (popped y a' rfl) time
  cases step with
  | push wish event =>
    cases h
    exact List.filter_append ..
  | schedule delay event =>
    obtain ⟨_, put, eq⟩ := Option.map_eq_some_iff.1 h
    cases eq
    obtain ⟨instant, shown, rfl⟩ := Option.map_eq_some_iff.1 put
    rw [QueueStep.stored?, shown, push, Time.later_of_add shown]
    exact List.filter_append ..
  | pop =>
    rw [out (Option.some.inj h) (fun _ _ => id)]
    exact (List.append_nil _).symm
  | popUntil limit =>
    rw [out (Option.some.inj h) (fun _ _ => pop_of_popUntil)]
    exact (List.append_nil _).symm

theorem stored_of_perform_none (h : ops.perform? a step = none) : step.stored? a.now = none := by
  cases step with
  | schedule delay event =>
    have refused := Option.map_eq_none_iff.1 (Option.map_eq_none_iff.1 h)
    exact Option.map_eq_none_iff.2 refused
  | push _ _ => cases h
  | pop => cases h
  | popUntil _ => cases h

/-- **Of each time, what was there and what is put in comes out in this order, as far as it does
    not stay.** -/
theorem filter_answers (a : Agenda) (steps : List QueueStep) (time : Time) :
    ((ops.answers a steps).1.filterMap QueueAnswer.taken).filter (·.1 = time) ++
        (ops.answers a steps).2.stored.filter (·.1 = time) =
      a.stored.filter (·.1 = time) ++
        (putIn a.now steps (ops.answers a steps).1).filter (·.1 = time) := by
  induction steps generalizing a with
  | nil => simp [QueueOps.answers, putIn]
  | cons step rest ih =>
    simp only [QueueOps.answers]
    cases h : ops.perform? a step with
    | none => simp [putIn, stored_of_perform_none h]
    | some result =>
      obtain ⟨taken, a'⟩ := result
      have one := filter_of_perform h time
      have later := ih a'
      have put : putIn a.now (step :: rest)
            (ops.answer taken a' :: (ops.answers a' rest).1) =
          (step.stored? a.now).toList ++ putIn a'.now rest (ops.answers a' rest).1 := by
        simp only [putIn, List.map_cons, List.zip_cons_cons, List.filterMap_cons]
        cases step.stored? a.now <;> rfl
      have took : (ops.answer taken a' :: (ops.answers a' rest).1).filterMap QueueAnswer.taken =
          taken.toList ++ (ops.answers a' rest).1.filterMap QueueAnswer.taken := by
        cases taken <;> rfl
      dsimp only
      rw [put, took, List.filter_append, List.filter_append, List.append_assoc, later,
        ← List.append_assoc, one, List.append_assoc]

end Agenda

/-! ### The queue stands for an agenda -/

/-- An entry of the queue without its turn. -/
def Scored.timed (x : Scored Due Event) : Time × Event := (x.score.time, x.label)

namespace EventQueue

/-- The entries of the queue, in the order of their turns, are what the agenda stores. -/
structure Represents (q : EventQueue) (a : Agenda) : Prop where
  sound : q.Sound
  now : q.now = a.now
  stored : ∃ entries, q.waiting.toList.Perm entries ∧
    entries.Pairwise (fun x y => x.score.turn < y.score.turn) ∧
    entries.map Scored.timed = a.stored

variable {q q' : EventQueue} {a a' : Agenda} {time : Time} {event : Event}

theorem represents_empty : empty.Represents Agenda.empty where
  sound := sound_empty
  now := rfl
  stored := ⟨[], List.Perm.refl _, List.Pairwise.nil, rfl⟩

namespace Represents

theorem stored_perm (h : q.Represents a) :
    (q.waiting.toList.map Scored.timed).Perm a.stored := by
  obtain ⟨entries, waits, -, stored⟩ := h.stored
  rw [← stored]
  exact waits.map _

theorem size (h : q.Represents a) : q.size = a.stored.length := by
  have lengths := h.stored_perm.length_eq
  rwa [List.length_map] at lengths

theorem push (h : q.Represents a) (time : Time) (event : Event) :
    (q.push time event).Represents (a.push time event) := by
  obtain ⟨entries, waits, turns, stored⟩ := h.stored
  constructor
  · exact h.sound.push time event
  · exact h.now
  · refine ⟨entries ++ [⟨⟨time.later q.now, q.turns⟩, event⟩], ?_, ?_, ?_⟩
    · apply (MinQueue.toList_push ..).trans
      exact (waits.cons _).trans (List.perm_append_singleton _ _).symm
    · rw [List.pairwise_append]
      refine ⟨turns, List.pairwise_singleton .., ?_⟩
      intro x hx y hy
      rw [List.mem_singleton.1 hy]
      exact h.sound.turn x (waits.mem_iff.2 hx)
    · rw [List.map_append, stored, h.now]
      rfl

theorem eq_nil (h : q.Represents a) (none : q.waiting.pop = none) : a.stored = [] := by
  have waits := h.stored_perm
  rw [MinQueue.toList_eq_nil_of_pop none] at waits
  exact List.nil_perm.1 waits

/-- The entry that the queue gives out is the first one of least time in the agenda. -/
theorem split (h : q.Represents a) {entry : Scored Due Event} {rest : MinQueue Due Event}
    (out : q.waiting.pop = some (entry, rest)) :
    ∃ before after, a.stored = before.map Scored.timed ++ entry.timed :: after.map Scored.timed ∧
      (∀ y ∈ before, entry.score.time < y.score.time) ∧
      (∀ y ∈ after, entry.score.time ≤ y.score.time) ∧
      rest.toList.Perm (before ++ after) ∧
      (before ++ after).Pairwise (fun x y => x.score.turn < y.score.turn) := by
  obtain ⟨entries, waits, turns, stored⟩ := h.stored
  have moved := MinQueue.toList_pop out
  obtain ⟨before, after, rfl⟩ := List.append_of_mem
    (waits.mem_iff.1 (moved.mem_iff.2 List.mem_cons_self))
  have least {y : Scored Due Event} (hy : y ∈ before ++ entry :: after) :=
    h.sound.le_of_pop out (waits.mem_iff.2 hy)
  refine ⟨before, after, ?_, ?_, ?_, ?_, ?_⟩
  · rw [← stored, List.map_append, List.map_cons]
  · intro y hy
    obtain ⟨earlier, turn⟩ := least (List.mem_append_left _ hy)
    -- it has the earlier turn, so it would come first if its time were the same
    have first := (List.pairwise_append.1 turns).2.2 y hy entry List.mem_cons_self
    rcases Nat.eq_or_lt_of_le earlier with same | earlier
    · have := turn same
      omega
    · exact earlier
  · intro y hy
    exact (least (List.mem_append_right _ (List.mem_cons_of_mem _ hy))).1
  · exact List.Perm.cons_inv (moved.symm.trans (waits.trans List.perm_middle))
  · exact turns.sublist (List.Sublist.append_left (List.sublist_cons_self ..) _)

/-- What comes of a step of the queue, and of the same step of the agenda. -/
structure Follows {T : Type} (q : EventQueue) (x : T × EventQueue) (y : T × Agenda) : Prop where
  same : x.1 = y.1
  forward : q.now ≤ x.2.now
  represents : x.2.Represents y.2

theorem pop (h : q.Represents a) : Option.Rel (Follows q) q.pop a.pop := by
  cases out : q.waiting.pop with
  | none =>
    have empty : q.pop = none := by
      rw [EventQueue.pop, out]
      rfl
    have empty' : a.pop = none := by
      rw [Agenda.pop, Agenda.first?, h.eq_nil out]
      rfl
    rw [empty, empty']
    exact .none
  | some result =>
    obtain ⟨entry, rest⟩ := result
    obtain ⟨before, after, split, earlier, later, waits, turns⟩ := h.split out
    have popped : q.pop =
        some (entry.timed, { q with waiting := rest, now := entry.score.time }) := by
      rw [EventQueue.pop, out]
      rfl
    obtain ⟨_, taken⟩ := h.sound.pop popped
    rw [popped, Agenda.pop_of_split split (List.forall_mem_map.2 earlier)
      (List.forall_mem_map.2 later)]
    apply Option.Rel.some
    constructor
    · rfl
    · exact taken.forward
    · exact ⟨taken.sound, rfl, before ++ after, waits, turns, List.map_append⟩

theorem nextTime (h : q.Represents a) : q.nextTime? = a.first?.map Prod.fst := by
  rw [nextTime_eq, Agenda.first_eq, Option.map_map]
  have rel := h.pop
  revert rel
  generalize q.pop = r, a.pop = s
  intro rel
  cases rel with
  | none => rfl
  | some follows => exact congrArg (fun x => some x.1) follows.same

theorem popUntil (h : q.Represents a) (limit : Time) :
    Option.Rel (Follows q) (q.popUntil limit) (a.popUntil limit) := by
  rw [EventQueue.popUntil, h.nextTime, Agenda.popUntil]
  cases first : a.first? with
  | none =>
    have empty : a.pop = none := by
      rw [Agenda.pop, first]
      rfl
    rw [empty, ite_self]
    exact .none
  | some x =>
    rw [Agenda.any_of_first first, Option.map_some]
    simp only [decide_eq_true_eq]
    split
    · exact h.pop
    · exact .none

theorem follows_push (h : q.Represents a) (time : Time) (event : Event) {T : Type} (x : T) :
    Follows q (x, q.push time event) (x, a.push time event) where
  same := rfl
  forward := Nat.le_refl _
  represents := h.push time event

theorem follows_orKeep (h : q.Represents a) {r : Option ((Time × Event) × EventQueue)}
    {s : Option ((Time × Event) × Agenda)} (rel : Option.Rel (Follows q) r s) :
    Follows q (QueueOps.orKeep q r) (QueueOps.orKeep a s) := by
  cases rel with
  | none => exact ⟨rfl, Nat.le_refl _, h⟩
  | some follows => exact ⟨congrArg some follows.same, follows.forward, follows.represents⟩

/-- **A step of the queue follows the same step of the agenda.** -/
theorem perform (h : q.Represents a) (step : QueueStep) :
    Option.Rel (Follows q) (ops.perform? q step) (Agenda.ops.perform? a step) := by
  cases step with
  | push time event => exact .some (h.follows_push time event none)
  | schedule delay event =>
    change Option.Rel (Follows q) (((q.now.add? delay).map _).map _)
      (((a.now.add? delay).map _).map _)
    rw [h.now]
    cases a.now.add? delay with
    | none => exact .none
    | some time => exact .some (h.follows_push time event none)
  | pop => exact .some (h.follows_orKeep h.pop)
  | popUntil limit => exact .some (h.follows_orKeep (h.popUntil limit))

theorem answer (h : q.Represents a) (taken : Option (Time × Event)) :
    ops.answer taken q = Agenda.ops.answer taken a := by
  change (⟨taken, q.nextTime?, q.size, q.now⟩ : QueueAnswer) =
    ⟨taken, a.first?.map Prod.fst, a.stored.length, a.now⟩
  rw [h.nextTime, h.size, h.now]

/-- The answers of the queue are those of the agenda, and its clock never goes back. -/
theorem answers (h : q.Represents a) (steps : List QueueStep) :
    (ops.answers q steps).1 = (Agenda.ops.answers a steps).1 ∧
      (ops.answers q steps).2.Represents (Agenda.ops.answers a steps).2 ∧
      (q.now :: (ops.answers q steps).1.map QueueAnswer.now).Pairwise (· ≤ ·) := by
  induction steps generalizing q a with
  | nil => exact ⟨rfl, h, List.pairwise_singleton ..⟩
  | cons step rest ih =>
    simp only [QueueOps.answers]
    have rel := h.perform step
    revert rel
    generalize ops.perform? q step = r, Agenda.ops.perform? a step = s
    intro rel
    cases rel with
    | none => exact ⟨rfl, h, List.pairwise_singleton ..⟩
    | @some x y follows =>
      obtain ⟨taken, q'⟩ := x
      obtain ⟨_, a'⟩ := y
      obtain ⟨rfl, forward, represents⟩ := follows
      obtain ⟨same, last, clock⟩ := ih represents
      refine ⟨?_, last, ?_⟩
      · exact congrArg₂ List.cons (represents.answer _) same
      · apply List.Pairwise.cons _ clock
        intro now hnow
        rcases List.mem_cons.1 hnow with rfl | hnow
        · exact forward
        · exact Nat.le_trans forward ((List.pairwise_cons.1 clock).1 now hnow)

end Represents

/-- **The event queue is a stable queue of events in the order of their times.** Whatever is done
    with a new queue, it gives the answers of an agenda, from which the first event of least time is
    taken. Its clock never goes back. Of each time, the events are given out in the order in which
    they were put in, none twice, and those that are not given out still wait. -/
theorem answers_eq_agenda (steps : List QueueStep) :
    (ops.answers empty steps).1 = (Agenda.ops.answers Agenda.empty steps).1 ∧
      (Time.zero :: (ops.answers empty steps).1.map QueueAnswer.now).Pairwise (· ≤ ·) ∧
      ∃ waiting, ((ops.answers empty steps).2.waiting.toList.map Scored.timed).Perm waiting ∧
        ∀ time : Time,
          ((ops.answers empty steps).1.filterMap QueueAnswer.taken).filter (·.1 = time) ++
              waiting.filter (·.1 = time) =
            (putIn Time.zero steps (ops.answers empty steps).1).filter (·.1 = time) := by
  obtain ⟨same, last, clock⟩ := represents_empty.answers steps
  refine ⟨same, clock, _, last.stored_perm, ?_⟩
  intro time
  rw [same]
  exact Agenda.empty.filter_answers steps time

end EventQueue

end PathControl
