/-
  PathControl/Forecast.lean
  =========================
  **What each device is expected and allowed to draw.**

  For a device and a bucket of the day a forecast gives an estimate of the
  consumption and a headroom on top of it. Their sum is the budget of the device in
  that bucket. Both are lists that may be too short for the day.
-/
import PathControl.Error
import PathControl.Json.Reader
import PathControl.Time
import Std.Data.TreeMap

namespace PathControl

/-- The values of each device by bucket. -/
abbrev DeviceSeries := Std.TreeMap String (List Float)

/-- Estimates and headrooms. -/
structure Forecast where
  estimates : DeviceSeries := ∅
  headrooms : DeviceSeries := ∅

namespace Forecast

def empty : Forecast := {}

def estimate? (f : Forecast) (device : String) (bucket : Nat) : Option Float := do
  (← f.estimates[device]?)[bucket]?

def headroom? (f : Forecast) (device : String) (bucket : Nat) : Option Float := do
  (← f.headrooms[device]?)[bucket]?

/-- What a device may draw in a bucket: the estimate and the headroom. -/
def budget (f : Forecast) (device : String) (bucket : Nat) : Except Error Float :=
  match f.estimate? device bucket, f.headroom? device bucket with
  | some e, some h => .ok (e + h)
  | _, _ => .error (.missingForecast device bucket)

/-- Whether both lists of a device are known. -/
def covers (f : Forecast) (device : String) : Bool :=
  f.estimates.contains device && f.headrooms.contains device

def insert (f : Forecast) (device : String) (estimates headrooms : List Float) : Forecast where
  estimates := f.estimates.insert device estimates
  headrooms := f.headrooms.insert device headrooms

/-- Set one estimate and one headroom for all buckets of the day. -/
def insertConstant (f : Forecast) (device : String) (estimate headroom : Float) : Forecast :=
  f.insert device (List.replicate bucketsPerDay estimate) (List.replicate bucketsPerDay headroom)

/-! ### Documents -/

/-- Read one document: an object with a list of numbers for each device. -/
def series? (text : String) : Option DeviceSeries := do
  let members ← (← Json.parse? text).members?
  members.foldlM (fun all (device, values) => do
    let values ← (← values.items?).mapM Json.scaled?
    return all.insert device values) ∅

/-- Read the two documents of a forecast. -/
def ofTexts (estimates headrooms : String) : Except Error Forecast :=
  match series? estimates, series? headrooms with
  | some estimates, some headrooms => .ok { estimates, headrooms }
  | _, _ => .error (.unreadable .json)

/-- The devices of a list that does not cover the day, with the number of buckets it covers:
    first the estimates, then the headrooms. -/
def incomplete (f : Forecast) : List (String × Nat) :=
  (f.estimates.toList ++ f.headrooms.toList).filterMap fun (device, values) =>
    if values.length < bucketsPerDay then some (device, values.length) else none

/-- Read the two documents of a forecast from files; `none` stands for a missing file. -/
def load (estimates headrooms : Option String) : Except Error Forecast :=
  match estimates, headrooms with
  | some estimates, some headrooms => ofTexts estimates headrooms
  | _, _ => .error (.unreadable .file)

end Forecast

end PathControl
