/-
  PathControl/Proofs/Forecast.lean
  ================================
  **Every instant has the right budget.**

  A forecast has a budget for a bucket unless one of the two lists of the device is
  missing or ends before the bucket (`Lacks`). The margin of a switch with a sample
  fails for this reason only (`margin_eq_error_iff`), so a switch with one estimate
  and one headroom for the whole day has a margin at every instant. As the buckets do,
  budgets come back after whole days and after no other span.
-/
import PathControl.Proofs.Energy

namespace PathControl

/-! ### Missing budgets -/

/-- A device has no value for a bucket: it has no list, or one that ends before the bucket. -/
def DeviceSeries.Lacks (series : DeviceSeries) (device : String) (bucket : Nat) : Prop :=
  series[device]? = none ∨ ∃ values, series[device]? = some values ∧ values.length ≤ bucket

theorem DeviceSeries.lacks_iff {series : DeviceSeries} {device : String} {bucket : Nat} :
    series.Lacks device bucket ↔ (series[device]?.bind (·[bucket]?)) = none := by
  simp only [Lacks]
  cases series[device]? with
  | none => simp
  | some values => simp

namespace Forecast

variable {f : Forecast} {device : String} {bucket : Nat} {error : Error}

/-- One of the two lists of a device has no value for a bucket. -/
def Lacks (f : Forecast) (device : String) (bucket : Nat) : Prop :=
  f.estimates.Lacks device bucket ∨ f.headrooms.Lacks device bucket

theorem budget_eq_error_iff : f.budget device bucket = .error error ↔
    f.Lacks device bucket ∧ error = .missingForecast device bucket := by
  have estimates : f.estimates.Lacks device bucket ↔ f.estimate? device bucket = none :=
    DeviceSeries.lacks_iff
  have headrooms : f.headrooms.Lacks device bucket ↔ f.headroom? device bucket = none :=
    DeviceSeries.lacks_iff
  rw [Lacks, estimates, headrooms, budget]
  cases f.estimate? device bucket with
  | none => simp [eq_comm]
  | some e =>
    cases f.headroom? device bucket with
    | none => simp [eq_comm]
    | some h => simp

theorem budget_insert (f : Forecast) (estimates headrooms : List Float)
    (h₁ : bucket < estimates.length) (h₂ : bucket < headrooms.length) :
    (f.insert device estimates headrooms).budget device bucket =
      .ok (estimates[bucket] + headrooms[bucket]) := by
  simp [insert, budget, estimate?, headroom?, h₁, h₂]

theorem budget_insertConstant (f : Forecast) (device : String) (estimate headroom : Float)
    (now : Time) : (f.insertConstant device estimate headroom).budget device now.bucket =
      .ok (estimate + headroom) := by
  have inside := now.bucket_lt
  rw [insertConstant, budget_insert _ _ _ (by simpa using inside) (by simpa using inside),
    List.getElem_replicate, List.getElem_replicate]

/-! ### Budgets after a span -/

/-- A budget of 1 in one bucket and of 0 in every other. -/
def peak (device : String) (bucket : Nat) : Forecast :=
  empty.insert device ((List.replicate bucketsPerDay 0.0).set bucket 1.0)
    (List.replicate bucketsPerDay 0.0)

theorem budget_peak (device : String) (bucket : Nat) (now : Time) :
    (peak device bucket).budget device now.bucket =
      .ok ((if bucket = now.bucket then 1.0 else 0.0) + 0.0) := by
  have inside := now.bucket_lt
  rw [peak, budget_insert _ _ _ (by simpa using inside) (by simpa using inside),
    List.getElem_set, List.getElem_replicate]

/-- Budgets are given for buckets and differ from bucket to bucket, so they come back when the
    buckets do. -/
theorem exists_budget_ne {d : Time} (part : ¬ nanosPerDay ∣ d.nanos) (device : String) :
    ∃ (f : Forecast) (now later : Time) (x y : Float), now.add? d = some later ∧
      f.budget device now.bucket = .ok x ∧ f.budget device later.bucket = .ok y ∧ x ≠ y := by
  obtain ⟨now, later, add, moved⟩ := Time.exists_bucket_ne part
  refine ⟨peak device now.bucket, now, later, _, _, add, budget_peak .., budget_peak .., ?_⟩
  rw [if_pos rfl, if_neg moved.symm]
  decide +kernel

end Forecast

/-! ### Margins -/

namespace EnergyTracker

variable {e : EnergyTracker} {t : Topology} {n : NodeId} {telemetry : Telemetry}
  {f : Forecast} {now : Time} {s : Switch} {sample : Sample} {error : Error}

/-- The margin of a switch with a sample lacks nothing but a budget. -/
theorem margin_eq_error_iff (known : t.switch? n = some s)
    (polled : e.sample? s.dpid = some sample) :
    e.margin t n telemetry f now = .error error ↔
      f.Lacks s.name now.bucket ∧ error = .missingForecast s.name now.bucket := by
  rw [← Forecast.budget_eq_error_iff]
  cases allowed : f.budget s.name now.bucket with
  | ok budget => simp [margin_of_sample known polled allowed]
  | error cause =>
    simp only [margin, sampleOf]
    rw [known]
    dsimp only
    rw [polled, allowed]
    rfl

end EnergyTracker

/-- **Every instant has the right budget.** The bucket of an instant is the number of quarters of an
    hour that have passed since midnight. The margin of a switch with a sample fails exactly if a
    list of its device lacks that bucket, and with one value for all buckets it never fails.
    Budgets come back after a whole number of days, and after no other span do all of them. -/
theorem Forecast.budget_everyInstant :
    (∀ now : Time, now.bucket = now.seconds / 900 % 96 ∧ now.bucket < 96) ∧
    (∀ (e : EnergyTracker) (t : Topology) (n : NodeId) (telemetry : Telemetry) (now : Time)
        (s : Switch) (sample : Sample), t.switch? n = some s → e.sample? s.dpid = some sample →
      (∀ (f : Forecast) (error : Error), e.margin t n telemetry f now = .error error ↔
        f.Lacks s.name now.bucket ∧ error = .missingForecast s.name now.bucket) ∧
      ∀ (f : Forecast) (estimate headroom : Float),
        e.margin t n telemetry (f.insertConstant s.name estimate headroom) now =
          .ok (sample.realFlex e.strategy (telemetry.powerOf n) (estimate + headroom) now)) ∧
    ∀ d : Time,
      (nanosPerDay ∣ d.nanos → ∀ (f : Forecast) (device : String) (now later : Time),
        now.add? d = some later →
        f.budget device later.bucket = f.budget device now.bucket) ∧
      (¬ nanosPerDay ∣ d.nanos → ∀ device : String,
        ∃ (f : Forecast) (now later : Time) (x y : Float), now.add? d = some later ∧
          f.budget device now.bucket = .ok x ∧ f.budget device later.bucket = .ok y ∧ x ≠ y) := by
  refine ⟨fun now => ⟨now.bucket_eq, now.bucket_lt⟩, ?_, ?_⟩
  · intro e t n telemetry now s sample known polled
    refine ⟨fun f error => EnergyTracker.margin_eq_error_iff known polled, ?_⟩
    intro f estimate headroom
    exact EnergyTracker.margin_of_sample known polled (budget_insertConstant ..)
  · intro d
    refine ⟨?_, exists_budget_ne⟩
    intro days f device now later add
    rw [Time.bucket_of_dvd days add]

/-! ### A switch with half an hour of estimates -/

def loneSwitch : Topology := Topology.empty.addSwitch "a" 1

/-- The switch has been polled at the start. -/
def loneSample : EnergyTracker := (EnergyTracker.empty .perFlowRead).register 1 0.0 .zero

/-- Two estimates, but only one headroom. -/
def loneForecast : Forecast := Forecast.empty.insert "a" [1.0, 2.0] [0.5]

theorem Forecast.budget_everyInstant_lone :
    loneSwitch.switch? 0 = some ⟨"a", 1⟩ ∧ loneSample.sample? 1 = some (.first 0.0 .zero) ∧
      loneSample.margin loneSwitch 0 .empty loneForecast (.ofSeconds 900) =
        .error (.missingForecast "a" 1) ∧
      loneSample.margin loneSwitch 0 .empty (loneForecast.insertConstant "a" 1.0 0.5)
        (.ofSeconds 900) = .ok 1.5 ∧
      loneForecast.budget "a" (Time.ofSeconds 87299).bucket = .ok 1.5 ∧
      ∃ (f : Forecast) (now later : Time) (x y : Float),
        now.add? (.ofSeconds 86399) = some later ∧ f.budget "a" now.bucket = .ok x ∧
          f.budget "a" later.bucket = .ok y ∧ x ≠ y := by
  obtain ⟨_, margins, spans⟩ := Forecast.budget_everyInstant
  have polled : loneSample.sample? 1 = some (.first 0.0 .zero) := rfl
  obtain ⟨fails, constant⟩ := margins loneSample loneSwitch 0 .empty (.ofSeconds 900) ⟨"a", 1⟩ _
    rfl polled
  have second : loneForecast.Lacks "a" 1 := Or.inr (Or.inr ⟨[0.5], rfl, by decide⟩)
  refine ⟨rfl, polled, (fails _ _).2 ⟨second, rfl⟩, ?_, ?_, ?_⟩
  · rw [constant]
    refine congrArg Except.ok ?_
    decide +kernel
  · have later : (Time.ofSeconds 899).add? (.ofSeconds 86400) = some (.ofSeconds 87299) := rfl
    rw [(spans (.ofSeconds 86400)).1 (by decide) loneForecast "a" _ _ later,
      loneForecast, Forecast.budget_insert _ _ _ (by decide) (by decide)]
    refine congrArg Except.ok ?_
    decide +kernel
  · exact (spans (.ofSeconds 86399)).2 (by decide) "a"

end PathControl
