/-
  PathControl/Toml/Line.lean
  ==========================
  **The lines of a TOML document.**

  A line is empty, heads a table, or sets a key to a value. Of the values of TOML
  only those are read that settings can have: natural numbers, strings, and an
  inline table with one key and an empty inline table.
-/
import PathControl.Toml.Token

namespace PathControl.Toml

/-- A value that settings can have. -/
inductive Value where
  | natural (n : Nat)
  | string (s : String)
  /-- An inline table that holds an empty table under one key. -/
  | tagged (key : String)
deriving DecidableEq

inductive Line where
  | empty
  /-- The head of a table, with the parts of its name; double brackets head one of many tables. -/
  | head (name : List String) (many : Bool)
  | entry (key : String) (value : Value)
deriving DecidableEq

/-! ### Keys and numbers -/

/-- The key that a token stands for: a word, or a string on one line, which may be empty. -/
def key? : Token → Option String
  | .word chars => some (String.ofList chars)
  | .string value false => some value
  | _ => none

/-- The digits of a number with single underscores between digits. -/
def plainDigits? : List Char → Option (List Char)
  | [] => none
  | c :: rest =>
    if c = '_' then none
    else match rest with
      | [] => some [c]
      | '_' :: rest => (plainDigits? rest).map (c :: ·)
      | rest => (plainDigits? rest).map (c :: ·)

/-- The number that digits and underscores stand for in a base. -/
def numeral? (base : Nat) (cs : List Char) : Option Nat := do numberIn? base (← plainDigits? cs)

/-- A decimal number without leading zeros. -/
def decimalNumeral? (cs : List Char) : Option Nat :=
  match cs with
  | '0' :: _ :: _ => none
  | cs => numeral? 10 cs

/-- The natural number that a word stands for: decimal, or in base 16, 8 or 2 after `0x`, `0o` or
    `0b`. A minus sign is possible before zero only. -/
def naturalWord? : List Char → Option Nat
  | '0' :: 'x' :: digits => numeral? 16 digits
  | '0' :: 'o' :: digits => numeral? 8 digits
  | '0' :: 'b' :: digits => numeral? 2 digits
  | '-' :: digits => (decimalNumeral? digits).filter (· == 0)
  | digits => decimalNumeral? digits

/-- The natural number of a word, if it fits into 63 bits. -/
def natural? (word : List Char) : Option Nat := (naturalWord? word).filter (· < 0x8000000000000000)

/-! ### Lines -/

def value? : List Token → Option Value
  | [.word chars] => (natural? chars).map .natural
  | [.plusWord chars] => (natural? chars).map .natural
  | [.string value _] => some (.string value)
  | [.openInline, key, .equals, .openInline, .closeInline, .closeInline] => (key? key).map .tagged
  | _ => none

/-- The parts of a name with periods between them, up to the closing token at the end. -/
def name? (closing : Token) : List Token → Option (List String)
  | [part, last] => if last = closing then (key? part).map ([·]) else none
  | part :: .period :: rest => do return (← key? part) :: (← name? closing rest)
  | _ => none

def line? : List Token → Option Line
  | [] => some .empty
  | .openTable :: rest => (name? .closeTable rest).map (.head · false)
  | .openTables :: rest => (name? .closeTables rest).map (.head · true)
  | key :: .equals :: value => do return .entry (← key? key) (← value? value)
  | _ => none

/-- The tokens of each line. -/
def splitLines : List Token → List (List Token)
  | [] => [[]]
  | t :: rest =>
    match t, splitLines rest with
    | .newline, lines => [] :: lines
    | t, [] => [[t]]
    | t, line :: lines => (t :: line) :: lines

/-- The lines of a document that are not empty; `none` if it cannot be read. -/
def lines? (text : String) : Option (List Line) := do
  let lines ← (splitLines (← tokens? (charsOf text))).mapM line?
  return lines.filter (· ≠ .empty)

end PathControl.Toml
