/-
  PathControl/Proofs/Flow/Match.lean
  ==================================
  **The match of a rule identifies its flow.**

  No name and no value in a match contains a comma or an equals sign, so the pairs can be
  read back from the text (`MatchField.texts_inj`). The header made of the pairs names the
  key that they were made for (`Header.Names.ofMatch`). So a text that two flows share
  belongs to one flow (`Flow.matchText_identifies`).
-/
import PathControl.Flow.Match
import PathControl.Proofs.Address
import PathControl.Proofs.Flow.Header

namespace PathControl

/-! ### Pairs can be told apart -/

namespace MatchField

variable {c : Char} {fields fields' : List MatchField}

theorem not_mem_name (m : MatchField) : '=' ∉ m.name.toList ∧ ',' ∉ m.name.toList := by
  cases m <;> simp [name]

/-- A value is made of digits, and of the marks within an address or after a leading zero. -/
theorem not_mem_valueText (m : MatchField) (noDigit : digitValue? c = none) (noPoint : c ≠ '.')
    (noColon : c ≠ ':') (noMark : c ≠ 'x') : c ∉ m.valueText.toList := by
  have number (n : Nat) : c ∉ (decimal n).toList := (spells_decimal n).not_mem noDigit
  cases m with
  | ethDst a | ethSrc a => exact a.not_mem_text noDigit noColon
  | ipSrc a | ipDst a => exact a.not_mem_text noDigit noPoint
  | ethType t =>
    have noZero : c ≠ '0' := by
      rintro rfl
      cases noDigit
    simp only [valueText, String.toList_append, List.mem_append, not_or]
    exact ⟨by simp [noZero, noMark], (spells_hexadecimal _).not_mem noDigit⟩
  | ipProto p => exact number _
  | priority n | tcpSrc n | tcpDst n | udpSrc n | udpDst n => exact number _

/-- The values of two pairs with one name are spelt alike only if they are one value. -/
theorem eq_of_name_of_valueText {m m' : MatchField} (sameName : m.name = m'.name)
    (value : m.valueText = m'.valueText) : m = m' := by
  have number {n n' : UInt16} (spelt : decimal n.toNat = decimal n'.toNat) : n = n' :=
    UInt16.toNat_inj.1 (spelling_injective spells_decimal spelt)
  cases m <;> cases m' <;> simp [name] at sameName
  case ethDst.ethDst | ethSrc.ethSrc =>
    obtain rfl := MacAddress.text_injective value
    rfl
  case ipSrc.ipSrc | ipDst.ipDst =>
    obtain rfl := Ipv4Address.text_injective value
    rfl
  case ethType.ethType =>
    have digits := (String.append_right_inj _).1 value
    obtain rfl := UInt16.toNat_inj.1 (spelling_injective spells_hexadecimal digits)
    rfl
  case ipProto.ipProto =>
    obtain rfl := UInt8.toNat_inj.1 (spelling_injective spells_decimal value)
    rfl
  all_goals
    obtain rfl := number value
    rfl

theorem text_injective : Function.Injective text := by
  have free (m : MatchField) : ∀ s ∈ [m.name, m.valueText], '=' ∉ s.toList := by
    intro s hs
    rcases (by simpa using hs : s = m.name ∨ s = m.valueText) with rfl | rfl
    · exact m.not_mem_name.1
    · exact m.not_mem_valueText (by decide) (by decide) (by decide) (by decide)
  intro m m' same
  have texts : "=".intercalate [m.name, m.valueText] =
      "=".intercalate [m'.name, m'.valueText] := by
    simpa [text] using same
  have parts := intercalate_inj (c := '=') (by decide) (free m) (free m') (List.cons_ne_nil _ _)
    (List.cons_ne_nil _ _) texts
  obtain ⟨sameName, values⟩ := List.cons.inj parts
  exact eq_of_name_of_valueText sameName (List.cons.inj values).1

/-! ### The text of a list of pairs -/

theorem not_mem_text (m : MatchField) : ',' ∉ m.text.toList := by
  simp only [text, String.toList_append, List.mem_append, not_or]
  refine ⟨⟨m.not_mem_name.2, by decide⟩, ?_⟩
  exact m.not_mem_valueText (by decide) (by decide) (by decide) (by decide)

theorem not_mem_texts (fields : List MatchField) : ∀ s ∈ fields.map text, ',' ∉ s.toList := by
  intro s hs
  obtain ⟨m, _, rfl⟩ := List.mem_map.1 hs
  exact m.not_mem_text

/-- Only the empty list has the empty text. -/
theorem texts_eq_empty_iff : ",".intercalate (fields.map text) = "" ↔ fields = [] := by
  constructor
  · intro empty
    by_contra some
    -- the empty text would be a single pair, and a pair has an equals sign
    have blank : ",".intercalate (fields.map text) = ",".intercalate [""] := by simpa using empty
    have single : fields.map text = [""] :=
      intercalate_inj (c := ',') (by decide) (not_mem_texts fields) (by decide)
        (by simpa using some) (List.cons_ne_nil _ _) blank
    obtain ⟨m, _, blank⟩ := List.mem_map.1 (single ▸ List.mem_singleton_self "")
    have length := congrArg String.length blank
    simp [text] at length
  · rintro rfl
    rfl

/-- **A list of pairs can be read back from its text.** -/
theorem texts_inj :
    ",".intercalate (fields.map text) = ",".intercalate (fields'.map text) ↔ fields = fields' := by
  constructor
  · intro same
    by_cases none : fields = []
    · subst none
      exact (texts_eq_empty_iff.1 same.symm).symm
    · by_cases none' : fields' = []
      · subst none'
        exact texts_eq_empty_iff.1 same
      · apply (List.map_inj_right text_injective).1
        exact intercalate_inj (c := ',') (by decide) (not_mem_texts fields) (not_mem_texts fields')
          (by simpa using none) (by simpa using none') same
  · rintro rfl
    rfl

end MatchField

/-! ### The header made of a match -/

namespace Header

variable {h h' : Header} {key key' : FlowKey} {s s' : PriorityScheme} {f g : Flow}

/-- A header names one key. -/
theorem Names.unique (named : h.Names key) (named' : h.Names key') : key = key' := by
  have flow (k : FlowKey) (named : h.Names k) :
      h.flow {} = .ok ⟨k, PriorityScheme.after {} k.steps⟩ := flow_eq_ok_iff.2 ⟨named, rfl⟩
  have same := (flow key named).symm.trans (flow key' named')
  exact congrArg Flow.key (Except.ok.inj same)

/-- **The fields in the match of a key name the key.** -/
theorem Names.ofMatch (named : h.Names key) (priority : UInt16) :
    (Header.ofMatch (.priority priority :: key.matchFields)).Names key := by
  cases named with
  | ethernet other => exact .ethernet other rfl rfl rfl
  | ipv4 _ _ _ _ hasPorts =>
    rcases ports_eq_ok_iff.1 hasPorts with ⟨rfl, _⟩ | ⟨rfl, _⟩ | ⟨noTcp, noUdp, rfl, rfl⟩
    · exact .ipv4 rfl rfl rfl rfl rfl
    · exact .ipv4 rfl rfl rfl rfl rfl
    · simp only [FlowKey.matchFields, FlowKey.portFields]
      rw [if_neg noTcp, if_neg noUdp]
      refine .ipv4 rfl rfl rfl rfl (ports_eq_ok_iff.2 ?_)
      exact .inr (.inr ⟨noTcp, noUdp, rfl, rfl⟩)

theorem flow_ofMatch (named : h.flow s = .ok f) : (ofMatch f.matchFields).flow s = .ok f := by
  obtain ⟨key, priority⟩ := flow_eq_ok_iff.1 named
  exact flow_eq_ok_iff.2 ⟨key.ofMatch f.priority, priority⟩

/-- Flows of packets with the same match are the same flow, whatever their schemes. -/
theorem matchFields_inj (named : h.flow s = .ok f) (named' : h'.flow s' = .ok g) :
    f.matchFields = g.matchFields ↔ f = g := by
  constructor
  · intro same
    have key := (flow_eq_ok_iff.1 (flow_ofMatch named)).1
    have key' := (flow_eq_ok_iff.1 (flow_ofMatch named')).1
    rw [same] at key
    obtain ⟨priority, _⟩ := List.cons.inj same
    calc
      f = ⟨f.key, f.priority⟩ := rfl
      _ = ⟨g.key, g.priority⟩ := by rw [key.unique key', MatchField.priority.inj priority]
  · rintro rfl
    rfl

end Header

namespace Flow

variable {h h' : Header} {s s' : PriorityScheme} {f g : Flow}

/-- **The text of a match belongs to one flow.** Flows of packets, of any priority schemes,
have the same text only if they are equal, and under one scheme they are equal exactly if
the headers agree in the fields that identify a flow. The pairs can be read back from the
text, and the header of just these names the flow again. -/
theorem matchText_identifies (hf : h.flow s = .ok f) (hg : h'.flow s' = .ok g) :
    (f.matchText = g.matchText ↔ f = g) ∧
      (s = s' → (f = g ↔ h.Agree h')) ∧
      (∀ fields : List MatchField,
        ",".intercalate (fields.map MatchField.text) = f.matchText ↔ fields = f.matchFields) ∧
      (Header.ofMatch f.matchFields).flow s = .ok f := by
  refine ⟨?_, ?_, ?_, Header.flow_ofMatch hf⟩
  · exact MatchField.texts_inj.trans (Header.matchFields_inj hf hg)
  · rintro rfl
    exact Header.flow_eq_iff_agree hf hg
  · intro fields
    exact MatchField.texts_inj

/-- A stray UDP port does not change the flow of a TCP packet; another base changes its text. -/
theorem matchText_identifies_strayPort :
    let h := Header.tcp ⟨1⟩ ⟨2⟩ 10 20
    let stray := { h with udpSrc := some 30 }
    let f : Flow := ⟨.ipv4 ⟨1⟩ ⟨2⟩ protoTcp 10 20, 1500⟩
    let low : Flow := { f with priority := 1007 }
    (h.flow {} = .ok f ∧ stray.flow {} = .ok f ∧ h.flow { base := 7 } = .ok low) ∧
      h.Agree stray ∧ (Header.ofMatch f.matchFields).flow {} = .ok f ∧
        f.matchText ≠ low.matchText := by
  intro h stray f low
  have named : h.flow {} = .ok f := rfl
  have namedStray : stray.flow {} = .ok f := rfl
  have namedLow : h.flow { base := 7 } = .ok low := rfl
  obtain ⟨_, agree, _, back⟩ := matchText_identifies named namedStray
  obtain ⟨texts, _⟩ := matchText_identifies named namedLow
  refine ⟨⟨named, namedStray, namedLow⟩, (agree rfl).1 rfl, back, ?_⟩
  intro same
  exact absurd (texts.1 same) (by decide)

end Flow

end PathControl
