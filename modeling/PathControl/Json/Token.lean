/-
  PathControl/Json/Token.lean
  ===========================
  **The tokens of a JSON text.**

  Six punctuation marks, three words, numbers and strings, with blanks between
  them (space, tab, line feed, carriage return). Every token takes at least one
  character, which is why cutting a text into tokens ends.
-/
import PathControl.Json
import PathControl.Numeral

namespace PathControl.Json

inductive Token where
  | openArray | closeArray | openObject | closeObject | colon | comma
  | null
  | bool (value : Bool)
  | number (value : Number)
  | string (value : String)
deriving DecidableEq

/-! ### Characters -/

def isBlank (c : Char) : Bool := c == ' ' || c == '\t' || c == '\n' || c == '\r'

/-! ### Strings -/

/-- The body of a string up to its closing quote, escapes still in place, and what follows. -/
def takeBody : List Char → Option (List Char × List Char)
  | [] => none
  | '"' :: rest => some ([], rest)
  | '\\' :: c :: rest => (takeBody rest).map fun (body, after) => ('\\' :: c :: body, after)
  | c :: rest =>
    if c.toNat < 0x20 then none
    else (takeBody rest).map fun (body, after) => (c :: body, after)

/-- The character of a one-letter escape. -/
def simpleEscape? : Char → Option Char
  | '"' => some '"'
  | '\\' => some '\\'
  | '/' => some '/'
  | 'b' => some '\x08'
  | 'f' => some '\x0c'
  | 'n' => some '\n'
  | 'r' => some '\r'
  | 't' => some '\t'
  | _ => none

/-- The character whose UTF-16 form is a pair of surrogates. -/
def surrogatePair? (high low : Nat) : Option Char :=
  if 0xdc00 ≤ low ∧ low < 0xe000 then
    some (Char.ofNat (0x10000 + (high - 0xd800) * 0x400 + (low - 0xdc00)))
  else none

/-- Replace the escapes of a string body. A surrogate that is not one of a pair is refused. -/
def unescape : List Char → Option (List Char)
  | [] => some []
  | '\\' :: 'u' :: a :: b :: c :: d :: rest => do
    let unit ← numberIn? 16 [a, b, c, d]
    if 0xd800 ≤ unit ∧ unit < 0xdc00 then
      match rest with
      | '\\' :: 'u' :: e :: f :: g :: h :: rest => do
        let char ← surrogatePair? unit (← numberIn? 16 [e, f, g, h])
        return char :: (← unescape rest)
      | _ => none
    else if 0xdc00 ≤ unit ∧ unit < 0xe000 then none
    else return Char.ofNat unit :: (← unescape rest)
  | '\\' :: c :: rest => do return (← simpleEscape? c) :: (← unescape rest)
  | c :: rest => if c = '\\' then none else do return c :: (← unescape rest)

/-! ### Numbers -/

def digitOf (c : Char) : Nat := c.toNat - '0'.toNat

/-- Cut the digits off the front of a text. -/
def takeDigits (cs : List Char) : List Nat × List Char :=
  ((cs.takeWhile Char.isDigit).map digitOf, cs.dropWhile Char.isDigit)

/-- The digits of an integer part: at least one, and no zero in front of others. -/
def takeWhole (cs : List Char) : Option (List Nat × List Char) :=
  match takeDigits cs with
  | ([], _) => none
  | (0 :: _ :: _, _) => none
  | found => some found

/-- The digits after a decimal point. Without a point there are none; after a point there must
    be one. -/
def takeFraction : List Char → Option (List Nat × List Char)
  | '.' :: rest =>
    match takeDigits rest with
    | ([], _) => none
    | found => some found
  | rest => some ([], rest)

/-- Whether a minus sign comes first, and what follows the sign. -/
def takeSign : List Char → Bool × List Char
  | '-' :: rest => (true, rest)
  | '+' :: rest => (false, rest)
  | rest => (false, rest)

/-- The exponent after `e` or `E`, with an optional sign, if there is one. -/
def takeExponent : List Char → Option (Option Int × List Char)
  | c :: rest =>
    if c = 'e' ∨ c = 'E' then
      match takeDigits (takeSign rest).2 with
      | ([], _) => none
      | (digits, after) =>
        let value : Int := digitsValue digits
        some (some (if (takeSign rest).1 then -value else value), after)
    else some (none, c :: rest)
  | [] => some (none, [])

/-- A number without its sign: an integer part, then perhaps a fraction and an exponent. -/
def takeMagnitude (negative : Bool) (cs : List Char) : Option (Number × List Char) := do
  let (whole, rest) ← takeWhole cs
  let (fraction, rest) ← takeFraction rest
  let (exponent, rest) ← takeExponent rest
  return ({ negative, whole, fraction, exponent }, rest)

/-! ### Cutting a text into tokens -/

/-- The first token of a text that begins with neither a blank nor the end, and what follows. -/
def takeToken : List Char → Option (Token × List Char)
  | '[' :: rest => some (.openArray, rest)
  | ']' :: rest => some (.closeArray, rest)
  | '{' :: rest => some (.openObject, rest)
  | '}' :: rest => some (.closeObject, rest)
  | ':' :: rest => some (.colon, rest)
  | ',' :: rest => some (.comma, rest)
  | '"' :: rest => do
    let (body, rest) ← takeBody rest
    return (.string (String.ofList (← unescape body)), rest)
  | 'n' :: 'u' :: 'l' :: 'l' :: rest => some (.null, rest)
  | 't' :: 'r' :: 'u' :: 'e' :: rest => some (.bool true, rest)
  | 'f' :: 'a' :: 'l' :: 's' :: 'e' :: rest => some (.bool false, rest)
  | '-' :: rest => (takeMagnitude true rest).map fun (n, rest) => (.number n, rest)
  | cs => (takeMagnitude false cs).map fun (n, rest) => (.number n, rest)

/-! ### Every token takes something -/

theorem length_takeBody_lt {cs body after : List Char} (h : takeBody cs = some (body, after)) :
    after.length < cs.length := by
  fun_induction takeBody cs generalizing body with
  | case1 => cases h
  | case2 rest => cases h; simp
  | case3 c rest ih =>
    obtain ⟨⟨inner, _⟩, found, same⟩ := Option.map_eq_some_iff.1 h
    cases same
    have := ih found
    simp only [List.length_cons]
    omega
  | case4 => cases h
  | case5 c rest _ _ _ ih =>
    obtain ⟨⟨inner, _⟩, found, same⟩ := Option.map_eq_some_iff.1 h
    cases same
    exact Nat.lt_succ_of_lt (ih found)

theorem length_takeDigits {cs after : List Char} {digits : List Nat}
    (h : takeDigits cs = (digits, after)) : digits.length + after.length = cs.length := by
  obtain ⟨rfl, rfl⟩ := Prod.mk.inj h
  rw [List.length_map, ← List.length_append, List.takeWhile_append_dropWhile]

theorem length_takeWhole_lt {cs after : List Char} {digits : List Nat}
    (h : takeWhole cs = some (digits, after)) : after.length < cs.length := by
  unfold takeWhole at h
  split at h
  · cases h
  · cases h
  · next nonempty _ =>
    have sizes := length_takeDigits (Option.some.inj h)
    cases digits with
    | nil => exact absurd (Option.some.inj h) (nonempty after)
    | cons d ds =>
      simp only [List.length_cons] at sizes
      omega

theorem length_takeFraction_le {cs after : List Char} {digits : List Nat}
    (h : takeFraction cs = some (digits, after)) : after.length ≤ cs.length := by
  unfold takeFraction at h
  split at h
  · split at h
    · cases h
    · have sizes := length_takeDigits (Option.some.inj h)
      simp only [List.length_cons]
      omega
  · cases h
    exact Nat.le_refl _

theorem length_takeSign_le (cs : List Char) : (takeSign cs).2.length ≤ cs.length := by
  unfold takeSign
  split <;> simp

theorem length_takeExponent_le {cs after : List Char} {e : Option Int}
    (h : takeExponent cs = some (e, after)) : after.length ≤ cs.length := by
  unfold takeExponent at h
  split at h
  · next c rest =>
    split at h
    · have signed := length_takeSign_le rest
      split at h
      · cases h
      · next found =>
        have sizes := length_takeDigits found
        cases h
        simp only [List.length_cons]
        omega
    · cases h
      exact Nat.le_refl _
  · cases h
    exact Nat.le_refl _

theorem length_takeMagnitude_lt {negative : Bool} {cs after : List Char} {n : Number}
    (h : takeMagnitude negative cs = some (n, after)) : after.length < cs.length := by
  simp only [takeMagnitude, Option.bind_eq_bind, Option.bind_eq_some_iff, Prod.exists] at h
  obtain ⟨_, afterWhole, whole, _, afterFraction, fraction, _, afterExponent, exponent, h⟩ := h
  cases h
  have := length_takeWhole_lt whole
  have := length_takeFraction_le fraction
  have := length_takeExponent_le exponent
  omega

theorem length_takeToken_lt {cs after : List Char} {t : Token}
    (h : takeToken cs = some (t, after)) : after.length < cs.length := by
  unfold takeToken at h
  split at h
  all_goals try (cases h; simp only [List.length_cons]; omega)
  · simp only [Option.bind_eq_bind, Option.bind_eq_some_iff, Prod.exists] at h
    obtain ⟨_, _, body, _, _, h⟩ := h
    cases h
    exact Nat.lt_succ_of_lt (length_takeBody_lt body)
  · obtain ⟨⟨_, _⟩, number, same⟩ := Option.map_eq_some_iff.1 h
    cases same
    exact Nat.lt_succ_of_lt (length_takeMagnitude_lt number)
  · obtain ⟨⟨_, _⟩, number, same⟩ := Option.map_eq_some_iff.1 h
    cases same
    exact length_takeMagnitude_lt number

/-! ### The tokens of a text -/

def tokens? (cs : List Char) : Option (List Token) :=
  match cs with
  | [] => some []
  | c :: rest =>
    if isBlank c then tokens? rest
    else
      match _taken : takeToken (c :: rest) with
      | none => none
      | some (token, after) => (tokens? after).map (token :: ·)
termination_by cs.length
decreasing_by
  · exact Nat.lt_succ_self _
  · exact length_takeToken_lt _taken

end PathControl.Json
