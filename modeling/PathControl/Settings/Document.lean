/-
  PathControl/Settings/Document.lean
  ==================================
  **Settings in documents.**

  A document sets each setting at most once, by its name, and names nothing else;
  what it does not name keeps its default. Settings are written as TOML documents,
  and as members of JSON objects.

  The poll strategy is written as the name of a strategy. Both formats know a second
  form, in which the name is the key of something empty. A TOML document may instead
  consist of the head of a table alone, whose name begins with the poll strategy and
  ends with the name of a strategy.
-/
import PathControl.Json.Reader
import PathControl.Settings
import PathControl.Toml.Line

namespace PathControl.Settings

/-- How the values of a format are read. -/
structure ValueReader (V : Type) where
  natural? : V → Option Nat
  strategyName? : V → Option String

def strategyKey : String := "poll_strategy"

/-- Set the setting with a name. -/
def setNamed? {V : Type} (read : ValueReader V) (s : Settings) (name : String) (value : V) :
    Option Settings :=
  let below (bound : Nat) : Option Nat := (read.natural? value).filter (· < bound)
  match name with
  | "poll_interval_secs" => do
    return { s with pollInterval := UInt64.ofNat (← below UInt64.size) }
  | "rebalance_interval_secs" => do
    return { s with rebalanceInterval := UInt64.ofNat (← below UInt64.size) }
  | "idle_timeout_secs" => do
    return { s with idleTimeout := UInt16.ofNat (← below UInt16.size) }
  | "base_priority" => do
    let base := UInt16.ofNat (← below UInt16.size)
    return { s with priorities := { s.priorities with base } }
  | "priority_step" => do
    let step := UInt16.ofNat (← below UInt16.size)
    return { s with priorities := { s.priorities with step } }
  | name =>
    if name = strategyKey then do
      let pollStrategy ← PollStrategy.ofName? (← read.strategyName? value)
      return { s with pollStrategy }
    else none

/-- The settings that named values make up. -/
def ofEntries? {V : Type} (read : ValueReader V) (entries : List (String × V)) : Option Settings :=
  if (entries.map Prod.fst).Nodup then
    entries.foldlM (fun s (name, value) => setNamed? read s name value) default
  else none

/-! ### TOML -/

def tomlReader : ValueReader Toml.Value where
  natural?
    | .natural n => some n
    | _ => none
  strategyName?
    | .string s => some s
    | .tagged s => some s
    | .natural _ => none

/-- The key and value of a line that sets one. -/
def entry? : Toml.Line → Option (String × Toml.Value)
  | .entry key value => some (key, value)
  | _ => none

/-- The settings that the lines of a TOML document make up. -/
def ofLines? : List Toml.Line → Option Settings
  | [.head (first :: second :: rest) _] =>
    if first = strategyKey then do
      let pollStrategy ← PollStrategy.ofName? ((second :: rest).getLast (by simp))
      return { default with pollStrategy }
    else none
  | lines => do ofEntries? tomlReader (← lines.mapM entry?)

/-- Read a TOML document, and check that a controller can run with the settings. -/
def ofToml (text : String) : Except Error Settings :=
  match (Toml.lines? text).bind ofLines? with
  | none => .error (.unreadable .toml)
  | some s => do
    s.check
    return s

/-- Read a TOML document from a file; `none` stands for a missing file. -/
def load : Option String → Except Error Settings
  | none => .error (.unreadable .file)
  | some text => ofToml text

/-! ### JSON -/

def jsonReader : ValueReader Json where
  natural? j := j.below? UInt64.size
  strategyName?
    | .string s => some s
    | .object [(name, .null)] => some name
    | _ => none

/-- The settings of a JSON object; whether a controller can run with them is not checked. -/
def ofJson (j : Json) : Except Error Settings :=
  match j.members?.bind (ofEntries? jsonReader) with
  | none => .error (.unreadable .json)
  | some s => .ok s

end PathControl.Settings
