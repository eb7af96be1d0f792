/-
  PathControl/Proofs/Result.lean
  ==============================
  **How computations end.**

  Two steps one after another give a result if both do, and the cause why they fail is
  that of the first one that fails. The same goes for one step for each member of a
  list.

  A loop takes one step after another until there is no next one. It ends if a number
  falls with every step (`exists_endsAfter`), and does not if every step leads to where
  there is a next one (`not_endsAfter`).
-/

namespace PathControl

variable {ε α β : Type}

/-! ### Steps that may fail -/

theorem bind_eq_ok_iff {x : Except ε α} {f : α → Except ε β} {b : β} :
    x >>= f = .ok b ↔ ∃ a, x = .ok a ∧ f a = .ok b := by
  cases x with
  | error e => simp [bind, Except.bind]
  | ok a => simp [bind, Except.bind]

theorem bind_eq_error_iff {x : Except ε α} {f : α → Except ε β} {e : ε} :
    x >>= f = .error e ↔ x = .error e ∨ ∃ a, x = .ok a ∧ f a = .error e := by
  cases x with
  | error e' => simp [bind, Except.bind]
  | ok a => simp [bind, Except.bind]

theorem mapError_eq_ok_iff {ε' : Type} {f : ε → ε'} {x : Except ε α} {a : α} :
    x.mapError f = .ok a ↔ x = .ok a := by
  rcases x with e | b
  · exact iff_of_false (by rintro ⟨⟩) (by rintro ⟨⟩)
  · exact ⟨fun h => congrArg _ (Except.ok.inj h), fun h => congrArg _ (Except.ok.inj h)⟩

theorem mem_of_mapM {f : α → Except ε β} {xs : List α} {ys : List β} (h : xs.mapM f = .ok ys) :
    (∀ x ∈ xs, ∃ y ∈ ys, f x = .ok y) ∧ ∀ y ∈ ys, ∃ x ∈ xs, f x = .ok y := by
  induction xs generalizing ys with
  | nil =>
    cases h
    exact ⟨fun x hx => absurd hx List.not_mem_nil, fun y hy => absurd hy List.not_mem_nil⟩
  | cons x xs ih =>
    rw [List.mapM_cons] at h
    obtain ⟨y, first, h⟩ := bind_eq_ok_iff.1 h
    obtain ⟨rest, later, h⟩ := bind_eq_ok_iff.1 h
    cases h
    obtain ⟨results, sources⟩ := ih later
    constructor <;> intro z hz
    · rcases List.mem_cons.1 hz with rfl | hz
      · exact ⟨y, List.mem_cons_self, first⟩
      · obtain ⟨y', hy', eq⟩ := results z hz
        exact ⟨y', List.mem_cons_of_mem _ hy', eq⟩
    · rcases List.mem_cons.1 hz with rfl | hz
      · exact ⟨x, List.mem_cons_self, first⟩
      · obtain ⟨x', hx', eq⟩ := sources z hz
        exact ⟨x', List.mem_cons_of_mem _ hx', eq⟩

theorem exists_mapM {f : α → Except ε β} {xs : List α} (h : ∀ x ∈ xs, ∃ y, f x = .ok y) :
    ∃ ys, xs.mapM f = .ok ys := by
  induction xs with
  | nil => exact ⟨[], rfl⟩
  | cons x xs ih =>
    obtain ⟨here, later⟩ := List.forall_mem_cons.1 h
    obtain ⟨y, first⟩ := here
    obtain ⟨ys, rest⟩ := ih later
    refine ⟨y :: ys, ?_⟩
    rw [List.mapM_cons]
    exact bind_eq_ok_iff.2 ⟨y, first, bind_eq_ok_iff.2 ⟨ys, rest, rfl⟩⟩

theorem exists_mapM_iff {f : α → Except ε β} {xs : List α} :
    (∃ ys, xs.mapM f = .ok ys) ↔ ∀ x ∈ xs, ∃ y, f x = .ok y := by
  refine ⟨?_, exists_mapM⟩
  rintro ⟨ys, made⟩ x hx
  obtain ⟨y, _, here⟩ := (mem_of_mapM made).1 x hx
  exact ⟨y, here⟩

/-! ### Loops -/

section Loop

variable {next? : α → Option α} {a b : α} {n : Nat} {I : α → Prop}

/-- The loop that starts at `a` comes to its end at `b`, after `n` steps. -/
inductive EndsAfter (next? : α → Option α) : Nat → α → α → Prop where
  | done {a : α} (last : next? a = none) : EndsAfter next? 0 a a
  | step {n : Nat} {a b c : α} (next : next? a = some b) (rest : EndsAfter next? n b c) :
      EndsAfter next? (n + 1) a c

theorem EndsAfter.last (h : EndsAfter next? n a b) : next? b = none := by
  induction h with
  | done last => exact last
  | step _ _ ih => exact ih

/-- A loop takes no more steps than the number that falls with each of them. -/
theorem exists_endsAfter {measure : α → Nat}
    (falls : ∀ a b, I a → next? a = some b → I b ∧ measure b < measure a) (start : I a) :
    ∃ n ≤ measure a, ∃ b, EndsAfter next? n a b ∧ I b := by
  induction h : measure a using Nat.strongRecOn generalizing a with
  | ind m ih =>
    subst h
    cases next : next? a with
    | none => exact ⟨0, Nat.zero_le _, a, .done next, start⟩
    | some b =>
      obtain ⟨kept, less⟩ := falls a b start next
      obtain ⟨n, bound, c, rest, kept⟩ := ih (measure b) less kept rfl
      exact ⟨n + 1, Nat.succ_le_of_lt (Nat.lt_of_le_of_lt bound less), c, .step next rest, kept⟩

theorem not_endsAfter (goesOn : ∀ a, I a → ∃ b, next? a = some b ∧ I b) (start : I a) :
    ¬ EndsAfter next? n a b := by
  intro h
  induction h with
  | @done a last =>
    obtain ⟨b, next, _⟩ := goesOn a start
    rw [last] at next
    cases next
  | @step n a b c next _ ih =>
    obtain ⟨b', next', kept⟩ := goesOn a start
    rw [next] at next'
    cases next'
    exact ih kept

end Loop

end PathControl
