/-
  PathControl/Proofs/Numeral.lean
  ===============================
  **Numbers are read back as they were written.**

  Reading the digits of a number in its base gives the number (`numberIn?_toDigits`),
  with or without zeros in front. So different numbers have different texts, and no
  text of a number contains a character that is no digit: numbers with separators
  between them can be told apart again (`intercalate_inj`).
-/
import PathControl.Numeral
import Mathlib.Data.List.Induction

namespace PathControl

/-! ### Reading digits -/

theorem digitIn?_digitChar {base d : Nat} (small : base ≤ 16) (h : d < base) :
    digitIn? base d.digitChar = some d := by
  have value : ∀ d < 16, digitValue? (Nat.digitChar d) = some d := by decide
  simp only [digitIn?]
  rw [value d (Nat.lt_of_lt_of_le h small)]
  exact if_pos h

theorem numberIn?_concat (base : Nat) (digits : List Char) (c : Char) :
    numberIn? base (digits ++ [c]) =
      (numberIn? base digits).bind fun n => (digitIn? base c).map (n * base + ·) := by
  simp only [numberIn?, List.foldlM_append, List.foldlM_cons, List.foldlM_nil]
  cases digits.foldlM (fun n c => do return n * base + (← digitIn? base c)) 0 with
  | none => rfl
  | some n => cases digitIn? base c <;> rfl

section Reading

variable {base : Nat} (large : 1 < base) (small : base ≤ 16) (n : Nat)

include large small

/-- **The digits of a number are read as the number.** -/
theorem numberIn?_toDigits : numberIn? base (Nat.toDigits base n) = some n := by
  induction n using Nat.base_induction base large with
  | single d below =>
    rw [Nat.toDigits_of_lt_base below]
    change numberIn? base ([] ++ [d.digitChar]) = some d
    rw [numberIn?_concat, digitIn?_digitChar small below]
    simp [numberIn?]
  | digit n d below positive ih =>
    rw [← Nat.toDigits_append_toDigits large positive below, Nat.toDigits_of_lt_base below,
      numberIn?_concat, ih, digitIn?_digitChar small below]
    simp [Nat.mul_comm]

/-- Zeros in front do not change the number. -/
theorem numberIn?_leftpad (width : Nat) :
    numberIn? base ((Nat.toDigits base n).leftpad width '0') = some n := by
  have zero : digitIn? base '0' = some 0 :=
    digitIn?_digitChar small (Nat.lt_trans Nat.zero_lt_one large)
  have zeros (count : Nat) (digits : List Char) :
      numberIn? base (List.replicate count '0' ++ digits) = numberIn? base digits := by
    induction count with
    | zero => rfl
    | succ count ih =>
      rw [← ih, List.replicate_succ, List.cons_append]
      simp only [numberIn?, List.foldlM_cons]
      rw [zero]
      simp
  rw [List.leftpad, zeros]
  exact numberIn?_toDigits large small n

omit large small in
/-- Only digits are read. -/
theorem isSome_digitValue?_of_numberIn? {digits : List Char} (h : numberIn? base digits = some n) :
    ∀ c ∈ digits, (digitValue? c).isSome := by
  induction digits using List.reverseRecOn generalizing n with
  | nil =>
    intro c hc
    cases hc
  | append_singleton digits last ih =>
    rw [numberIn?_concat, Option.bind_eq_some_iff] at h
    obtain ⟨m, before, h⟩ := h
    obtain ⟨d, known, _⟩ := Option.map_eq_some_iff.1 h
    intro c hc
    rcases List.mem_append.1 hc with hc | hc
    · exact ih m before c hc
    · obtain ⟨value, is, _⟩ := Option.bind_eq_some_iff.1 known
      rw [List.mem_singleton.1 hc, is]
      rfl

end Reading

/-! ### Texts of numbers -/

/-- A text whose characters are read as a number of a base. -/
def Spells (base : Nat) (text : String) (n : Nat) : Prop := numberIn? base text.toList = some n

variable {base m n : Nat} {text : String}

theorem Spells.eq (h : Spells base text m) (h' : Spells base text n) : m = n :=
  Option.some.inj (h.symm.trans h')

/-- A text of a number contains no character that is no digit. -/
theorem Spells.not_mem (h : Spells base text n) {c : Char} (other : digitValue? c = none) :
    c ∉ text.toList := by
  intro hc
  have digit := isSome_digitValue?_of_numberIn? n h c hc
  rw [other] at digit
  cases digit

theorem spells_decimal (n : Nat) : Spells 10 (decimal n) n := by
  rw [Spells, decimal, String.toList_ofList]
  exact numberIn?_toDigits (by decide) (by decide) n

theorem spells_hexadecimal (n : Nat) : Spells 16 (hexadecimal n) n := by
  rw [Spells, hexadecimal, String.toList_ofList]
  exact numberIn?_toDigits (by decide) (by decide) n

theorem spells_hexadecimalPadded (width n : Nat) : Spells 16 (hexadecimalPadded width n) n := by
  rw [Spells, hexadecimalPadded, String.toList_ofList]
  exact numberIn?_leftpad (by decide) (by decide) n width

/-- Different numbers are spelt differently. -/
theorem spelling_injective {spell : Nat → String} (spells : ∀ n, Spells base (spell n) n) :
    Function.Injective spell := by
  intro m n same
  have read := spells m
  rw [same] at read
  exact read.eq (spells n)

/-! ### Separators -/

variable {sep : String} {c : Char} {texts others : List String}

/-- A list of texts with a separator between them that none of them contains can be read back. -/
theorem intercalate_inj (one : sep.toList = [c]) (free : ∀ s ∈ texts, c ∉ s.toList)
    (free' : ∀ s ∈ others, c ∉ s.toList) (some : texts ≠ []) (some' : others ≠ [])
    (same : sep.intercalate texts = sep.intercalate others) : texts = others := by
  have lists := congrArg String.toList same
  rw [String.toList_intercalate, String.toList_intercalate, one] at lists
  have parts := congrArg (List.splitOn c) lists
  rw [List.splitOn_intercalate, List.splitOn_intercalate] at parts
  · exact (List.map_inj_right fun _ _ => String.toList_inj.1).1 parts
  · simpa using free'
  · simpa using some'
  · simpa using free
  · simpa using some

theorem not_mem_intercalate (other : c ∉ sep.toList) (free : ∀ s ∈ texts, c ∉ s.toList) :
    c ∉ (sep.intercalate texts).toList := by
  induction texts with
  | nil => simp
  | cons first rest ih =>
    obtain ⟨freeFirst, freeRest⟩ := List.forall_mem_cons.1 free
    cases rest with
    | nil => simpa using freeFirst
    | cons second rest =>
      rw [String.intercalate_cons_cons, String.toList_append, String.toList_append]
      simp only [List.mem_append, not_or]
      exact ⟨⟨freeFirst, other⟩, ih freeRest⟩

end PathControl
