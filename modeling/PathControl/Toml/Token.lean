/-
  PathControl/Toml/Token.lean
  ===========================
  **The tokens of a TOML document.**

  Blanks and comments separate tokens and are dropped; the end of a line is a token
  of its own. Double brackets are one token, and so is a plus sign with the word
  behind it. Strings come as basic strings, where a backslash escapes, and as literal
  strings, where nothing does; both come on one line or, between triple quotes, on
  several. Every token takes at least one character, which is why cutting a document
  into tokens ends.
-/
import PathControl.Numeral

namespace PathControl.Toml

inductive Token where
  | newline | equals | period | comma | colon
  | openTable | closeTable | openTables | closeTables | openInline | closeInline
  /-- Letters, digits, minus signs and underscores. -/
  | word (chars : List Char)
  /-- A word with a plus sign before it. -/
  | plusWord (chars : List Char)
  /-- A string, which may have been one between triple quotes. -/
  | string (value : String) (multiline : Bool)
deriving DecidableEq

/-! ### Characters -/

def isBlank (c : Char) : Bool := c == ' ' || c == '\t'

def isWordChar (c : Char) : Bool := c.isAlphanum || c == '-' || c == '_'

/-- The characters that may stand in a string as they are. -/
def isStringChar (c : Char) : Bool := c == '\t' || (0x20 ≤ c.toNat && c.toNat != 0x7f)

def isCommentChar (c : Char) : Bool := c == '\t' || 0x20 ≤ c.toNat

/-- One character for each end of a line, and no byte order mark in front. -/
def foldLines : List Char → List Char
  | '\r' :: '\n' :: rest => '\n' :: foldLines rest
  | c :: rest => c :: foldLines rest
  | [] => []

/-- The characters of a document as they are read. -/
def charsOf (text : String) : List Char :=
  match text.toList with
  | '\ufeff' :: rest => foldLines rest
  | chars => foldLines chars

/-! ### Strings -/

/-- The character of a one-letter escape. -/
def simpleEscape? : Char → Option Char
  | '"' => some '"'
  | '\\' => some '\\'
  | 'b' => some '\x08'
  | 'f' => some '\x0c'
  | 'n' => some '\n'
  | 'r' => some '\r'
  | 't' => some '\t'
  | _ => none

/-- The character with a code point, which must not be a surrogate. -/
def codePoint? (digits : List Char) : Option Char := do
  let code ← numberIn? 16 digits
  if code < 0xd800 ∨ (0xe000 ≤ code ∧ code < 0x110000) then some (Char.ofNat code) else none

/-- The character of an escape after its backslash, and what follows. -/
def takeEscape : List Char → Option (Char × List Char)
  | 'u' :: a :: b :: c :: d :: rest => (codePoint? [a, b, c, d]).map (·, rest)
  | 'U' :: a :: b :: c :: d :: e :: f :: g :: h :: rest =>
    (codePoint? [a, b, c, d, e, f, g, h]).map (·, rest)
  | c :: rest => (simpleEscape? c).map (·, rest)
  | [] => none

/-- The blanks and line ends that a backslash at the end of a line skips; `none` if more than
    blanks stands behind it on its line. -/
def takeLineBreak (cs : List Char) : Option (List Char) :=
  match cs.dropWhile isBlank with
  | '\n' :: rest => some (rest.dropWhile fun c => isBlank c || c == '\n')
  | _ => none

/-- The quote around basic strings, or around literal strings. -/
def quoteOf (basic : Bool) : Char := if basic then '"' else '\''

/-- The quotes that end a string between triple quotes: three, and up to two that belong to the
    string. -/
def takeClosing (quote : Char) : List Char → Option (List Char × List Char)
  | a :: b :: c :: rest =>
    if a = quote ∧ b = quote ∧ c = quote then
      let own := (rest.take 2).takeWhile (· == quote)
      some (own, rest.drop own.length)
    else none
  | _ => none

/-- The end of a string, with the quotes there that belong to it; `none` if it does not end here. -/
def takeEnd (quote : Char) (multiline : Bool) (cs : List Char) : Option (List Char × List Char) :=
  if multiline then takeClosing quote cs
  else match cs with
    | c :: rest => if c = quote then some ([], rest) else none
    | [] => none

/-- The next part of a string that does not end here, and what follows it. -/
def takePart (basic multiline : Bool) : List Char → Option (List Char × List Char)
  | [] => none
  | c :: rest =>
    if c = '\n' then if multiline then some (['\n'], rest) else none
    else if c = '\\' ∧ basic then
      match if multiline then takeLineBreak rest else none with
      | some rest => some ([], rest)
      | none => (takeEscape rest).map fun (char, rest) => ([char], rest)
    else if isStringChar c then some ([c], rest)
    else none

theorem length_takeLineBreak_le {cs after : List Char} (h : takeLineBreak cs = some after) :
    after.length ≤ cs.length := by
  unfold takeLineBreak at h
  split at h
  · next rest line =>
    cases h
    have skipped := (List.dropWhile_suffix (l := cs) isBlank).length_le
    have blank := (List.dropWhile_suffix (l := rest) fun c => isBlank c || c == '\n').length_le
    simp only [line, List.length_cons] at skipped
    omega
  · cases h

theorem length_takeEscape_le {cs after : List Char} {c : Char}
    (h : takeEscape cs = some (c, after)) : after.length ≤ cs.length := by
  unfold takeEscape at h
  split at h
  · obtain ⟨_, _, same⟩ := Option.map_eq_some_iff.1 h
    cases same
    simp only [List.length_cons]
    omega
  · obtain ⟨_, _, same⟩ := Option.map_eq_some_iff.1 h
    cases same
    simp only [List.length_cons]
    omega
  · obtain ⟨_, _, same⟩ := Option.map_eq_some_iff.1 h
    cases same
    exact Nat.le_succ _
  · cases h

theorem length_takePart_lt {basic multiline : Bool} {cs part after : List Char}
    (h : takePart basic multiline cs = some (part, after)) : after.length < cs.length := by
  unfold takePart at h
  split at h
  · cases h
  · next c rest =>
    split at h
    · split at h
      · cases h
        exact Nat.lt_succ_self _
      · cases h
    · split at h
      · split at h
        · next skipped =>
          cases h
          split at skipped
          · exact Nat.lt_succ_of_le (length_takeLineBreak_le skipped)
          · cases skipped
        · obtain ⟨⟨_, _⟩, escape, same⟩ := Option.map_eq_some_iff.1 h
          cases same
          exact Nat.lt_succ_of_le (length_takeEscape_le escape)
      · split at h
        · cases h
          exact Nat.lt_succ_self _
        · cases h

/-- The rest of a string after its opening quote, and what follows it. -/
def takeString (basic multiline : Bool) (cs : List Char) : Option (List Char × List Char) :=
  match takeEnd (quoteOf basic) multiline cs with
  | some ended => some ended
  | none =>
    match _taken : takePart basic multiline cs with
    | none => none
    | some (part, after) =>
      (takeString basic multiline after).map fun (body, after) => (part ++ body, after)
termination_by cs.length
decreasing_by exact length_takePart_lt _taken

theorem length_takeEnd_le {quote : Char} {multiline : Bool} {cs own after : List Char}
    (h : takeEnd quote multiline cs = some (own, after)) : after.length ≤ cs.length := by
  unfold takeEnd at h
  split at h
  · unfold takeClosing at h
    split at h
    · split at h
      · cases h
        simp only [List.length_cons, List.length_drop]
        omega
      · cases h
    · cases h
  · split at h
    · split at h
      · cases h
        exact Nat.le_succ _
      · cases h
    · cases h

theorem length_takeString_le {basic multiline : Bool} {cs body after : List Char}
    (h : takeString basic multiline cs = some (body, after)) : after.length ≤ cs.length := by
  fun_induction takeString basic multiline cs generalizing body with
  | case1 cs ended found =>
    cases h
    exact length_takeEnd_le found
  | case2 => cases h
  | case3 cs _ part rest taken ih =>
    obtain ⟨⟨_, _⟩, found, same⟩ := Option.map_eq_some_iff.1 h
    cases same
    exact Nat.le_trans (ih found) (Nat.le_of_lt (length_takePart_lt taken))

/-- Whether triple quotes open a string, and where its body begins, all after the first quote. A
    line end right after triple quotes is dropped. -/
def takeOpening (quote : Char) : List Char → Bool × List Char
  | a :: b :: rest =>
    if a = quote ∧ b = quote then
      match rest with
      | '\n' :: body => (true, body)
      | body => (true, body)
    else (false, a :: b :: rest)
  | rest => (false, rest)

/-- The string token after its first quote. -/
def takeStringToken (basic : Bool) (cs : List Char) : Option (Token × List Char) :=
  let opened := takeOpening (quoteOf basic) cs
  (takeString basic opened.1 opened.2).map fun (body, after) =>
    (.string (String.ofList body) opened.1, after)

theorem length_takeOpening_le (quote : Char) (cs : List Char) :
    (takeOpening quote cs).2.length ≤ cs.length := by
  unfold takeOpening
  split
  · split
    · split <;> simp only [List.length_cons] <;> omega
    · exact Nat.le_refl _
  · exact Nat.le_refl _

theorem length_takeStringToken_le {basic : Bool} {cs after : List Char} {t : Token}
    (h : takeStringToken basic cs = some (t, after)) : after.length ≤ cs.length := by
  obtain ⟨⟨_, _⟩, found, same⟩ := Option.map_eq_some_iff.1 h
  cases same
  exact Nat.le_trans (length_takeString_le found) (length_takeOpening_le _ _)

/-! ### Cutting a document into tokens -/

/-- The word at the front of a text, and what follows it; `none` if there is no word. -/
def takeWord (cs : List Char) : Option (List Char × List Char) :=
  match cs.takeWhile isWordChar with
  | [] => none
  | word => some (word, cs.dropWhile isWordChar)

/-- The first token of a document, none for blanks and comments, and what follows. -/
def takeToken : List Char → Option (Option Token × List Char)
  | [] => none
  | '\n' :: rest => some (some .newline, rest)
  | '=' :: rest => some (some .equals, rest)
  | '.' :: rest => some (some .period, rest)
  | ',' :: rest => some (some .comma, rest)
  | ':' :: rest => some (some .colon, rest)
  | '[' :: '[' :: rest => some (some .openTables, rest)
  | '[' :: rest => some (some .openTable, rest)
  | ']' :: ']' :: rest => some (some .closeTables, rest)
  | ']' :: rest => some (some .closeTable, rest)
  | '{' :: rest => some (some .openInline, rest)
  | '}' :: rest => some (some .closeInline, rest)
  | '#' :: rest => some (none, rest.dropWhile isCommentChar)
  | '"' :: rest => (takeStringToken true rest).map fun (t, rest) => (some t, rest)
  | '\'' :: rest => (takeStringToken false rest).map fun (t, rest) => (some t, rest)
  | '+' :: rest => (takeWord rest).map fun (word, rest) => (some (.plusWord word), rest)
  | c :: rest =>
    if isBlank c then some (none, rest)
    else (takeWord (c :: rest)).map fun (word, rest) => (some (.word word), rest)

theorem length_takeWord_lt {cs word after : List Char} (h : takeWord cs = some (word, after)) :
    after.length < cs.length := by
  unfold takeWord at h
  split at h
  · cases h
  · next nonempty =>
    have sizes := congrArg List.length (List.takeWhile_append_dropWhile (p := isWordChar) (l := cs))
    cases found : cs.takeWhile isWordChar with
    | nil => exact absurd found nonempty
    | cons c rest =>
      cases h
      simp only [found, List.length_append, List.length_cons] at sizes
      omega

theorem length_takeToken_lt {cs after : List Char} {t : Option Token}
    (h : takeToken cs = some (t, after)) : after.length < cs.length := by
  unfold takeToken at h
  split at h
  all_goals try (cases h; simp only [List.length_cons]; omega)
  · cases h
  · cases h
    exact Nat.lt_succ_of_le (List.dropWhile_suffix _).length_le
  · obtain ⟨⟨_, _⟩, string, same⟩ := Option.map_eq_some_iff.1 h
    cases same
    exact Nat.lt_succ_of_le (length_takeStringToken_le string)
  · obtain ⟨⟨_, _⟩, string, same⟩ := Option.map_eq_some_iff.1 h
    cases same
    exact Nat.lt_succ_of_le (length_takeStringToken_le string)
  · obtain ⟨⟨_, _⟩, word, same⟩ := Option.map_eq_some_iff.1 h
    cases same
    exact Nat.lt_succ_of_lt (length_takeWord_lt word)
  · split at h
    · cases h
      exact Nat.lt_succ_self _
    · obtain ⟨⟨_, _⟩, word, same⟩ := Option.map_eq_some_iff.1 h
      cases same
      exact length_takeWord_lt word

def tokens? (cs : List Char) : Option (List Token) :=
  match cs with
  | [] => some []
  | c :: rest =>
    match _taken : takeToken (c :: rest) with
    | none => none
    | some (token, after) => (tokens? after).map (token.toList ++ ·)
termination_by cs.length
decreasing_by exact length_takeToken_lt _taken

end PathControl.Toml
