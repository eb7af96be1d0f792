/-
  PathControl/Proofs/Energy/History.lean
  ======================================
  **A sample shows the last two instants at which a switch was polled.**

  The polls that count for a switch are those since it was last registered, provided that
  nothing was cleared since (`Polled`). Of consecutive polls at one instant the final one
  counts (`finals`). The sample holds the last of these and the one before it, or else the
  registration (`Sample.Shows`): each further poll preserves this (`Sample.Shows.enter`),
  and a call about another switch leaves the sample alone, so it holds after every history
  of calls (`sample?_performAll_iff`).
-/
import PathControl.Proofs.Energy
import Mathlib.Data.List.Induction
import Mathlib.Data.List.SplitBy

namespace PathControl

/-! ### Blocks -/

section Blocks

variable {α : Type} {r : α → α → Bool} {list block : List α} {blocks : List (List α)} {x y : α}

/-- An element that is related to the last one goes into the last block. -/
theorem splitBy_concat (split : list.splitBy r = blocks ++ [block ++ [x]]) (related : r x y) :
    (list ++ [y]).splitBy r = blocks ++ [block ++ [x] ++ [y]] := by
  obtain ⟨flat, noEmpty, chains, apart⟩ := List.splitBy_eq_iff.1 split
  rw [List.splitBy_eq_iff]
  refine ⟨?flat, ?noEmpty, ?chains, ?apart⟩
  case flat => simp [flat]
  case noEmpty => simpa using noEmpty
  case chains =>
    obtain ⟨before, last⟩ := List.forall_mem_append.1 chains
    refine List.forall_mem_append.2 ⟨before, ?_⟩
    rw [List.forall_mem_singleton] at last ⊢
    exact List.isChain_append.2 ⟨last, List.isChain_singleton y, by simpa using related⟩
  case apart =>
    -- the head of the last block is still the same
    obtain ⟨before, _, between⟩ := List.isChain_append.1 apart
    refine List.isChain_append.2 ⟨before, List.isChain_singleton _, ?_⟩
    intro b hb b' hb'
    obtain rfl : block ++ [x] ++ [y] = b' := by simpa using hb'
    obtain ⟨hb, hx, apart⟩ := between b hb _ rfl
    exact ⟨hb, by simp, by rw [List.head_append_of_ne_nil hx, apart]⟩

end Blocks

/-- What a switch had drawn in total at an instant. -/
structure Poll where
  draw : Float
  time : Time

variable {polls earlier : List Poll} {p q : Poll}

/-- Maximal blocks of consecutive polls at one instant. -/
def instants (polls : List Poll) : List (List Poll) := polls.splitBy fun p q => p.time == q.time

/-- The final poll at each of these instants. -/
def finals (polls : List Poll) : List Poll := (instants polls).filterMap List.getLast?

theorem instants_of_finals (h : finals polls = earlier ++ [q]) :
    ∃ blocks block, instants polls = blocks ++ [block ++ [q]] ∧
      blocks.filterMap List.getLast? = earlier := by
  simp only [finals] at h
  rcases List.eq_nil_or_concat' (instants polls) with none | ⟨blocks, last, split⟩
  · simp [none] at h
  · rcases List.eq_nil_or_concat' last with rfl | ⟨block, x, rfl⟩
    · have empty : [] ∈ instants polls := by simp [split]
      exact absurd empty (List.nil_notMem_splitBy _ _)
    · rw [split, List.filterMap_append] at h
      obtain ⟨before, same⟩ := List.append_inj' h (by simp)
      obtain rfl : x = q := by simpa using same
      exact ⟨blocks, block, split, before⟩

/-- **One more poll replaces the last one that counts if it comes at the same instant.** -/
theorem finals_concat (h : finals polls = earlier ++ [q]) (p : Poll) :
    finals (polls ++ [p]) = if q.time = p.time then earlier ++ [p] else earlier ++ [q] ++ [p] := by
  obtain ⟨blocks, block, split, before⟩ := instants_of_finals h
  by_cases same : q.time = p.time
  · rw [if_pos same, finals, instants, splitBy_concat split (by simpa using same),
      List.filterMap_append, before]
    simp
  · have last : polls.getLast? = some q := by
      rw [← List.flatten_splitBy _ polls, ← instants, split]
      simp
    have apart : ∀ x ∈ polls.getLast?, (x.time == p.time) = false := by
      rw [last]
      simpa using same
    rw [if_neg same, finals, instants, List.splitBy_append_cons [] apart, List.filterMap_append,
      ← instants, ← finals, h]
    rfl

namespace Sample

/-- Enter a poll. -/
def enter (s : Sample) (p : Poll) : Sample := s.refresh p.draw p.time

/-- The sample that a switch is registered with. -/
def ofPoll (p : Poll) : Sample := .first p.draw p.time

/-- Of the polls since a registration, which is the first of them, the sample shows the final one
at the last instant, and the final one at the instant before or else the registration. -/
def Shows (s : Sample) (first : Poll) (later : List Poll) : Prop :=
  ∃ earlier, finals (first :: later) = earlier ++ [⟨s.current, s.time⟩] ∧
    earlier.getLastD first = ⟨s.last, s.previous⟩

variable {s s' : Sample} {first : Poll} {later : List Poll}

theorem shows_ofPoll (first : Poll) : (ofPoll first).Shows first [] := ⟨[], rfl, rfl⟩

/-- **Entering a poll keeps the last two instants.** -/
theorem Shows.enter (shows : s.Shows first later) (p : Poll) :
    (s.enter p).Shows first (later ++ [p]) := by
  obtain ⟨earlier, polls, before⟩ := shows
  have further := finals_concat polls p
  rw [List.cons_append] at further
  simp only [Sample.enter, refresh]
  by_cases same : p.time = s.time
  · rw [if_pos same]
    rw [if_pos same.symm] at further
    exact ⟨earlier, further.trans (by rw [← same]), before⟩
  · rw [if_neg same]
    rw [if_neg (Ne.symm same)] at further
    exact ⟨earlier ++ [⟨s.current, s.time⟩], further, List.getLastD_concat ..⟩

theorem shows_foldl (first : Poll) (later : List Poll) :
    (later.foldl enter (ofPoll first)).Shows first later := by
  induction later using List.reverseRecOn with
  | nil => exact shows_ofPoll first
  | append_singleton later p ih =>
    rw [List.foldl_concat]
    exact ih.enter p

theorem Shows.unique (shows : s.Shows first later) (shows' : s'.Shows first later) : s = s' := by
  obtain ⟨earlier, polls, before⟩ := shows
  obtain ⟨earlier', polls', before'⟩ := shows'
  obtain ⟨rfl, last⟩ := List.append_inj' (polls.symm.trans polls') rfl
  have current := (List.cons.inj last).1
  rw [before] at before'
  cases s
  cases s'
  cases current
  cases before'
  rfl

end Sample

namespace EnergyTracker

/-! ### Calls -/

inductive Call where
  | register (dpid : Dpid) (poll : Poll)
  | refresh (dpid : Dpid) (poll : Poll)
  | clear

namespace Call

/-- The switch that a call is about. -/
def dpid? : Call → Option Dpid
  | register dpid _ | refresh dpid _ => some dpid
  | clear => none

/-- What was known of a switch no longer counts after the call. -/
def Restarts (dpid : Dpid) : Call → Prop
  | register other _ => other = dpid
  | refresh .. => False
  | clear => True

/-- The polls of a switch that a call adds to what is known of it. -/
def added (dpid : Dpid) : Call → List Poll
  | refresh other poll => if other = dpid then [poll] else []
  | _ => []

end Call

/-- A call that fails leaves the tracker as it is. -/
def perform (e : EnergyTracker) : Call → EnergyTracker
  | .register dpid poll => e.register dpid poll.draw poll.time
  | .refresh dpid poll => e.refreshed dpid poll.draw poll.time
  | .clear => e.clear

def performAll (e : EnergyTracker) (calls : List Call) : EnergyTracker := calls.foldl perform e

/-- The polls of a switch since its last registration, which is the first of them, if nothing
was cleared since. -/
def Polled (calls : List Call) (dpid : Dpid) (first : Poll) (later : List Poll) : Prop :=
  ∃ before after, calls = before ++ .register dpid first :: after ∧
    (∀ c ∈ after, ¬ c.Restarts dpid) ∧ later = after.flatMap (·.added dpid)

variable {e : EnergyTracker} {c : Call} {calls : List Call} {dpid : Dpid} {first : Poll}
  {later : List Poll}

/-! ### One call -/

theorem sample?_perform_of_keeps (keeps : ¬ c.Restarts dpid) :
    (e.perform c).sample? dpid = (e.sample? dpid).map ((c.added dpid).foldl Sample.enter) := by
  cases c with
  | register other poll =>
    refine (sample?_register ..).trans ((if_neg keeps).trans ?_)
    simp [Call.added]
  | refresh other poll =>
    refine (sample?_refreshed ..).trans ?_
    simp only [Call.added]
    by_cases same : other = dpid
    · rw [if_pos same, if_pos same]
      rfl
    · rw [if_neg same, if_neg same]
      simp
  | clear => exact absurd trivial keeps

theorem sample?_perform_register (e : EnergyTracker) (dpid : Dpid) (first : Poll) :
    (e.perform (.register dpid first)).sample? dpid = some (.ofPoll first) :=
  (sample?_register ..).trans (if_pos rfl)

/-- A call about one switch leaves the samples of all others alone. -/
theorem sample?_perform_of_ne {other : Dpid} (about : c.dpid? = some other) (ne : other ≠ dpid) :
    (e.perform c).sample? dpid = e.sample? dpid := by
  cases c with
  | register d poll =>
    cases about
    exact (sample?_register ..).trans (if_neg ne)
  | refresh d poll =>
    cases about
    exact (sample?_refreshed ..).trans (if_neg ne)
  | clear => cases about

/-! ### Histories -/

theorem performAll_append (e : EnergyTracker) (before after : List Call) :
    e.performAll (before ++ after) = (e.performAll before).performAll after :=
  List.foldl_append ..

theorem performAll_cons (e : EnergyTracker) (c : Call) (rest : List Call) :
    e.performAll (c :: rest) = (e.perform c).performAll rest := rfl

theorem sample?_performAll_of_keeps (keeps : ∀ c ∈ calls, ¬ c.Restarts dpid) :
    (e.performAll calls).sample? dpid =
      (e.sample? dpid).map ((calls.flatMap (·.added dpid)).foldl Sample.enter) := by
  induction calls generalizing e with
  | nil => simp [performAll]
  | cons c rest ih =>
    obtain ⟨here, below⟩ := List.forall_mem_cons.1 keeps
    rw [performAll_cons, ih below, sample?_perform_of_keeps here, Option.map_map, List.flatMap_cons]
    congr 1
    funext s
    exact (List.foldl_append ..).symm

theorem Polled.sample?_eq (polled : Polled calls dpid first later) (e : EnergyTracker) :
    (e.performAll calls).sample? dpid = some (later.foldl Sample.enter (.ofPoll first)) := by
  obtain ⟨before, after, rfl, keeps, rfl⟩ := polled
  rw [performAll_append, performAll_cons, sample?_performAll_of_keeps keeps,
    sample?_perform_register]
  rfl

theorem polled_register (calls : List Call) (dpid : Dpid) (first : Poll) :
    Polled (calls ++ [.register dpid first]) dpid first [] :=
  ⟨calls, [], rfl, fun _ h => absurd h List.not_mem_nil, rfl⟩

theorem Polled.concat (polled : Polled calls dpid first later) (keeps : ¬ c.Restarts dpid) :
    Polled (calls ++ [c]) dpid first (later ++ c.added dpid) := by
  obtain ⟨before, after, rfl, kept, rfl⟩ := polled
  refine ⟨before, after ++ [c], by simp, ?_, by simp⟩
  intro c' here
  rcases List.mem_append.1 here with here | here
  · exact kept c' here
  · rw [List.mem_singleton.1 here]
    exact keeps

/-- A switch with a sample was registered, and nothing was cleared since. -/
theorem exists_polled {strategy : PollStrategy} {s : Sample}
    (known : ((empty strategy).performAll calls).sample? dpid = some s) :
    ∃ first later, Polled calls dpid first later := by
  induction calls using List.reverseRecOn generalizing s with
  | nil => simp [performAll, sample?, empty] at known
  | append_singleton calls c ih =>
    by_cases restarts : c.Restarts dpid
    · cases c with
      | register other poll =>
        obtain rfl : other = dpid := restarts
        exact ⟨poll, [], polled_register calls other poll⟩
      | refresh other poll => exact absurd restarts id
      | clear =>
        rw [performAll_append] at known
        simp [performAll, perform, clear, sample?] at known
    · rw [performAll_append] at known
      obtain ⟨s', known', _⟩ :=
        Option.map_eq_some_iff.1 ((sample?_perform_of_keeps restarts).symm.trans known)
      obtain ⟨first, later, polled⟩ := ih known'
      exact ⟨first, _, polled.concat restarts⟩

/-- Only clearing takes the sample of a switch away. -/
theorem isSome_sample?_performAll (kept : .clear ∉ calls) (known : (e.sample? dpid).isSome) :
    ((e.performAll calls).sample? dpid).isSome := by
  induction calls generalizing e with
  | nil => exact known
  | cons c rest ih =>
    obtain ⟨here, below⟩ := List.ne_and_not_mem_of_not_mem_cons kept
    apply ih below
    cases c with
    | register other poll =>
      rw [perform, sample?_register]
      split
      · rfl
      · exact known
    | refresh other poll =>
      rw [perform, sample?_refreshed]
      split
      · simpa using known
      · exact known
    | clear => exact absurd rfl here

/-- **A sample shows the last two instants at which the switch was polled.** A switch has a
sample exactly if it was registered since all samples were last cleared, and the sample is the
one that its polls since its last registration show. Only a switch without a sample cannot be
refreshed, which changes nothing, and no call changes the sample of another switch. -/
theorem sample?_performAll_iff (strategy : PollStrategy) (calls : List Call) (dpid : Dpid) :
    let e := (empty strategy).performAll calls
    ((∃ s, e.sample? dpid = some s) ↔
      ∃ before first after, calls = before ++ .register dpid first :: after ∧ .clear ∉ after) ∧
    (∀ s, e.sample? dpid = some s ↔
      ∃ first later, Polled calls dpid first later ∧ s.Shows first later) ∧
    (∀ draw now error, e.refresh dpid draw now = .error error ↔
      e.sample? dpid = none ∧ error = .noSample dpid) ∧
    (∀ poll, e.sample? dpid = none → e.perform (.refresh dpid poll) = e) ∧
    ∀ call other, call.dpid? = some other → other ≠ dpid →
      (e.perform call).sample? dpid = e.sample? dpid := by
  intro e
  refine ⟨⟨?_, ?_⟩, fun s => ⟨?_, ?_⟩, fun _ _ _ => refresh_eq_error_iff,
    fun _ => refreshed_of_none, fun _ _ => sample?_perform_of_ne⟩
  · rintro ⟨s, known⟩
    obtain ⟨first, _, before, after, calls, kept, _⟩ := exists_polled known
    exact ⟨before, first, after, calls, fun cleared => kept _ cleared trivial⟩
  · rintro ⟨before, first, after, rfl, kept⟩
    apply Option.isSome_iff_exists.1
    simp only [e]
    rw [performAll_append, performAll_cons]
    apply isSome_sample?_performAll kept
    rw [sample?_perform_register]
    rfl
  · intro known
    obtain ⟨first, later, polled⟩ := exists_polled known
    obtain rfl := Option.some.inj ((polled.sample?_eq _).symm.trans known)
    exact ⟨first, later, polled, Sample.shows_foldl first later⟩
  · rintro ⟨first, later, polled, shows⟩
    rw [shows.unique (Sample.shows_foldl first later)]
    exact polled.sample?_eq _

-- of the polls at a later instant the second one counts, even if the clock then goes back
example (a b c d f : Float) :
    let later : Time := ⟨5, by decide⟩
    ((empty .perFlowRead).performAll
      [.register 1 ⟨a, .zero⟩, .refresh 1 ⟨b, later⟩, .refresh 2 ⟨c, .zero⟩,
        .refresh 1 ⟨d, later⟩, .refresh 1 ⟨f, .zero⟩]).sample? 1 = some ⟨f, d, .zero, later⟩ := by
  rfl

end EnergyTracker

end PathControl
