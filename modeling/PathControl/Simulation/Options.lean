/-
  PathControl/Simulation/Options.lean
  ===================================
  **The options of the simulation, and how a command line sets them.**

  Every option takes one value. It stands in an argument of its own, or in the same
  argument: after an equals sign, or right behind a short name. A value in an argument
  of its own does not begin with a minus sign, unless that is all of it. An option may
  be given once. Asking for help or for the version ends the reading at once, so what
  stands behind it does not matter, but what stands before it does.
-/
import PathControl.Numeral

namespace PathControl

/-! ### Options -/

inductive MetricName where
  | hops | cpu | bandwidth | flex
deriving DecidableEq

namespace MetricName

/-- All metrics, in the order in which help lists them. -/
def all : List MetricName := [hops, cpu, bandwidth, flex]

def text : MetricName → String
  | hops => "hops"
  | cpu => "cpu"
  | bandwidth => "bandwidth"
  | flex => "flex"

def ofText? (text : String) : Option MetricName := all.find? fun m => m.text == text

end MetricName

/-- The options of a simulation. -/
structure SimulationOptions where
  switches : UInt8 := 8
  chords : UInt64 := 4
  flows : UInt64 := 20
  hot : UInt64 := 1
  /-- The simulated time in seconds. -/
  duration : UInt64 := 900
  metric : MetricName := .flex
  /-- The file with the settings of the controller. -/
  config : Option String := none
  /-- The file with the estimates of the forecast. -/
  estimate : Option String := none
  /-- The file with the headrooms of the forecast. -/
  flex : Option String := none
  seed : UInt64 := 42
deriving DecidableEq

inductive OptionName where
  | switches | chords | flows | hot | duration | model | config | estimate | flex | seed
deriving DecidableEq

namespace OptionName

/-- All options, in the order in which help lists them. -/
def all : List OptionName :=
  [switches, chords, flows, hot, duration, model, config, estimate, flex, seed]

/-- The name after two minus signs. -/
def long : OptionName → String
  | switches => "switches"
  | chords => "chords"
  | flows => "flows"
  | hot => "hot"
  | duration => "duration"
  | model => "model"
  | config => "config"
  | estimate => "estimate"
  | flex => "flex"
  | seed => "seed"

/-- The letter after one minus sign. -/
def short? : OptionName → Option Char
  | switches => some 'n'
  | flows => some 'f'
  | duration => some 'd'
  | model => some 'm'
  | config => some 'c'
  | seed => some 's'
  | chords | hot | estimate | flex => none

def purpose : OptionName → String
  | switches => "Number of switches in the ring"
  | chords => "Number of random chords added to the ring"
  | flows => "Number of flows"
  | hot => "Number of switches that exceed their budget"
  | duration => "Simulated time, in seconds"
  | model => "Metric to route on"
  | config => "Controller configuration (TOML)"
  | estimate => "Forecast estimate per device (JSON)"
  | flex => "Forecast flexibility per device (JSON)"
  | seed => "Seed of the random generator"

/-- The value of an option that is not given. -/
def default? (name : OptionName) : Option String :=
  let d : SimulationOptions := {}
  match name with
  | switches => some (decimal d.switches.toNat)
  | chords => some (decimal d.chords.toNat)
  | flows => some (decimal d.flows.toNat)
  | hot => some (decimal d.hot.toNat)
  | duration => some (decimal d.duration.toNat)
  | model => some d.metric.text
  | config | estimate | flex => none
  | seed => some (decimal d.seed.toNat)

end OptionName

/-! ### Values -/

/-- A number in decimal digits, perhaps with a plus sign. -/
def unsigned? (cs : List Char) : Option Nat :=
  let digits := match cs with
    | '+' :: rest => rest
    | cs => cs
  if digits.isEmpty then none else numberIn? 10 digits

/-- A number of 64 bits. -/
def word? (text : String) : Option UInt64 := do
  let n ← unsigned? text.toList
  if n < UInt64.size then some (UInt64.ofNat n) else none

/-- A number of eight bits, which may be a zero with a minus sign. -/
def octet? (text : String) : Option UInt8 := do
  let n ← match text.toList with
    | '-' :: digits => if digits.head?.any Char.isDigit then unsigned? digits else none
    | cs => unsigned? cs
  if n < UInt8.size ∧ (n = 0 ∨ text.toList.head? ≠ some '-') then some (UInt8.ofNat n) else none

/-- The name of a file, which is not empty. -/
def fileName? (text : String) : Option String := if text.isEmpty then none else some text

namespace SimulationOptions

def set? (o : SimulationOptions) (name : OptionName) (value : String) :
    Option SimulationOptions :=
  match name with
  | .switches => (octet? value).map fun v => { o with switches := v }
  | .chords => (word? value).map fun v => { o with chords := v }
  | .flows => (word? value).map fun v => { o with flows := v }
  | .hot => (word? value).map fun v => { o with hot := v }
  | .duration => (word? value).map fun v => { o with duration := v }
  | .model => (MetricName.ofText? value).map fun v => { o with metric := v }
  | .config => (fileName? value).map fun v => { o with config := some v }
  | .estimate => (fileName? value).map fun v => { o with estimate := some v }
  | .flex => (fileName? value).map fun v => { o with flex := some v }
  | .seed => (word? value).map fun v => { o with seed := v }

/-- Whether the files of a forecast are both given or both missing. -/
def forecastComplete (o : SimulationOptions) : Bool := o.estimate.isSome == o.flex.isSome

def files (o : SimulationOptions) : List String :=
  o.config.toList ++ o.estimate.toList ++ o.flex.toList

end SimulationOptions

/-! ### Reading a command line -/

/-- What a command line asks for. -/
inductive CommandRequest where
  | run (options : SimulationOptions)
  | help
  | version
  /-- The command line cannot be understood. -/
  | refused
deriving DecidableEq

/-- One argument by itself. -/
inductive Argument where
  | help
  | version
  /-- An option, with its value if that stands in the same argument. -/
  | option (name : OptionName) (value : Option String)
  /-- Two minus signs: no options follow. -/
  | endOfOptions
  | unknown

namespace Argument

/-- An argument that begins with one minus sign, from the letter on. -/
def ofShort (letter : Char) (attached : List Char) : Argument :=
  if letter = 'h' then help
  else if letter = 'V' then version
  else
    match OptionName.all.find? fun name => name.short? == some letter with
    | none => unknown
    | some name =>
      match attached with
      | [] => option name none
      | '=' :: value => option name (some (String.ofList value))
      | value => option name (some (String.ofList value))

/-- An argument that begins with two minus signs, from the name on. -/
def ofLong (chars : List Char) : Argument :=
  let name := String.ofList (chars.takeWhile (· ≠ '='))
  let value := match chars.dropWhile (· ≠ '=') with
    | _ :: value => some (String.ofList value)
    | [] => none
  if name = "help" then if value.isNone then help else unknown
  else if name = "version" then if value.isNone then version else unknown
  else
    match OptionName.all.find? fun o => o.long == name with
    | some o => option o value
    | none => unknown

def ofText (text : String) : Argument :=
  match text.toList with
  | ['-', '-'] => endOfOptions
  | '-' :: '-' :: chars => ofLong chars
  | '-' :: letter :: attached => ofShort letter attached
  | _ => unknown

/-- Whether an argument can be the value of the option before it. -/
def isValue (text : String) : Bool :=
  match text.toList with
  | '-' :: _ :: _ => false
  | _ => true

end Argument

/-- Set an option that has not been given yet, and go on. -/
def CommandRequest.setThen (seen : List OptionName) (o : SimulationOptions) (name : OptionName)
    (value : String) (more : List OptionName → SimulationOptions → CommandRequest) :
    CommandRequest :=
  if name ∈ seen then .refused
  else
    match o.set? name value with
    | some o => more (name :: seen) o
    | none => .refused

/-- Read arguments, with the options that the arguments before them have set. -/
def CommandRequest.ofArguments (seen : List OptionName) (o : SimulationOptions) :
    List String → CommandRequest
  | [] => if o.forecastComplete then .run o else .refused
  | text :: rest =>
    match Argument.ofText text, rest with
    | .help, _ => .help
    | .version, _ => .version
    | .option name (some value), rest =>
      setThen seen o name value fun seen o => ofArguments seen o rest
    | .option name none, value :: rest =>
      if Argument.isValue value then setThen seen o name value fun seen o => ofArguments seen o rest
      else .refused
    | .option _ none, [] => .refused
    | .endOfOptions, rest =>
      if rest.isEmpty ∧ o.forecastComplete then .run o else .refused
    | .unknown, _ => .refused

/-- What a command line asks for. -/
def CommandRequest.ofCommandLine (arguments : List String) : CommandRequest :=
  .ofArguments [] {} arguments

/-! ### Help -/

def versionText : String := "flexpath 0.1.0"

/-- The longest name of an option with the name of its value. -/
def helpColumn : Nat := 21

/-- One line of help: the short name, the rest of the name, and the purpose in a column. -/
def helpLine (short : Option Char) (name purpose : String) : String :=
  let lead := match short with
    | some c => "  -" ++ c.toString ++ ", "
    | none => "      "
  let gap := String.ofList (List.replicate (helpColumn + 2 - name.length) ' ')
  lead ++ name ++ gap ++ purpose

def OptionName.helpLine (o : OptionName) : String :=
  let name := "--" ++ o.long ++ " <" ++ o.long.toUpper ++ ">"
  let default := match o.default? with
    | some v => " [default: " ++ v ++ "]"
    | none => ""
  let values := match o with
    | .model =>
      " [possible values: " ++ ", ".intercalate (MetricName.all.map MetricName.text) ++ "]"
    | _ => ""
  PathControl.helpLine o.short? name (o.purpose ++ default ++ values)

def helpText : List String :=
  ["Simulate the energy-aware path controller on a random ring topology", "",
    "Usage: main [OPTIONS]", "", "Options:"] ++
  OptionName.all.map OptionName.helpLine ++
  [helpLine (some 'h') "--help" "Print help", helpLine (some 'V') "--version" "Print version"]

end PathControl
