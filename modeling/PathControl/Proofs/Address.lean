/-
  PathControl/Proofs/Address.lean
  ===============================
  **Different addresses have different texts.**

  Both kinds of address are written octet by octet, with a separator that is no digit.
  The octets can be read back from such a text (`octetsText_inj`), and an address is
  the number that its octets make up.
-/
import PathControl.Proofs.Flow
import PathControl.Proofs.Numeral

namespace PathControl

/-! ### Texts of octets -/

section Octets

variable {base : Nat} {spell : Nat → String} (spells : ∀ n, Spells base (spell n) n)
  {sep : String} {c : Char} {octets others : List UInt8}

include spells

theorem octetsText_inj (one : sep.toList = [c]) (noDigit : digitValue? c = none)
    (some : octets ≠ []) (some' : others ≠ [])
    (same : sep.intercalate (octets.map fun o => spell o.toNat) =
      sep.intercalate (others.map fun o => spell o.toNat)) : octets = others := by
  have free (list : List UInt8) : ∀ s ∈ list.map fun o => spell o.toNat, c ∉ s.toList := by
    intro s hs
    obtain ⟨o, _, rfl⟩ := List.mem_map.1 hs
    exact (spells o.toNat).not_mem noDigit
  have parts := intercalate_inj one (free octets) (free others) (by simpa using some)
    (by simpa using some') same
  refine (List.map_inj_right ?_).1 parts
  intro o o' spelt
  exact UInt8.toNat_inj.1 (spelling_injective spells spelt)

theorem not_mem_octetsText (noDigit : digitValue? c = none) (away : c ∉ sep.toList) :
    c ∉ (sep.intercalate (octets.map fun o => spell o.toNat)).toList := by
  apply not_mem_intercalate away
  intro s hs
  obtain ⟨o, _, rfl⟩ := List.mem_map.1 hs
  exact (spells o.toNat).not_mem noDigit

end Octets

/-! ### Addresses -/

namespace Ipv4Address

theorem octets_injective : Function.Injective octets := by
  intro a b same
  simp only [octets, List.cons.injEq, and_true, ← UInt8.toNat_inj, UInt32.toNat_toUInt8,
    UInt32.toNat_shiftRight, UInt32.reduceToNat, Nat.reduceMod, Nat.shiftRight_eq_div_pow] at same
  have boundA := a.value.toNat_lt
  have boundB := b.value.toNat_lt
  apply toNat_inj.1
  omega

theorem text_injective : Function.Injective text := by
  intro a b same
  apply octets_injective
  exact octetsText_inj spells_decimal (c := '.') (by decide) (by decide) (List.cons_ne_nil _ _)
    (List.cons_ne_nil _ _) same

theorem not_mem_text (a : Ipv4Address) {c : Char} (noDigit : digitValue? c = none) (away : c ≠ '.') :
    c ∉ a.text.toList :=
  not_mem_octetsText spells_decimal noDigit (by simpa using away)

end Ipv4Address

namespace MacAddress

theorem octets_injective : Function.Injective octets := by
  intro a b same
  simp only [octets, List.map_cons, List.map_nil, List.cons.injEq, and_true, ← UInt8.toNat_inj,
    UInt8.toNat_ofBitVec, BitVec.extractLsb'_toNat, Nat.shiftRight_eq_div_pow] at same
  have boundA := a.value.isLt
  have boundB := b.value.isLt
  apply toNat_inj.1
  omega

theorem text_injective : Function.Injective text := by
  intro a b same
  apply octets_injective
  exact octetsText_inj (spells_hexadecimalPadded 2) (c := ':') (by decide) (by decide)
    (by simp [octets]) (by simp [octets]) same

theorem not_mem_text (a : MacAddress) {c : Char} (noDigit : digitValue? c = none) (away : c ≠ ':') :
    c ∉ a.text.toList :=
  not_mem_octetsText (spells_hexadecimalPadded 2) noDigit (by simpa using away)

end MacAddress

end PathControl
