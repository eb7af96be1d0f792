/-
  PathControl/Proofs/Time.lean
  ============================
  **Instants as numbers, and the buckets of the day.**

  The bucket of an instant counts the quarters of an hour that have passed, from zero
  again at the end of the day (`bucket_eq`). So a span leaves every instant in its
  bucket exactly if it is a number of whole days (`bucket_of_dvd`, `exists_bucket_ne`).
-/
import PathControl.Time

namespace PathControl

/-- The length of a day. -/
def nanosPerDay : Nat := 24 * 3600 * nanosPerSecond

namespace Time

/-! ### Instants -/

@[simp] theorem nanos_later (a b : Time) : (a.later b).nanos = max a.nanos b.nanos := by
  simp only [later]
  split
  · next h => exact (Nat.max_eq_right h).symm
  · next h => exact (Nat.max_eq_left (Nat.le_of_not_le h)).symm

theorem clockRange_eq : clockRange = 18446744073709551616000000000 := rfl

theorem exists_of_lt {n : Nat} (h : n < 18446744073709551616000000000) :
    ∃ t : Time, t.nanos = n := ⟨⟨n, h⟩, rfl⟩

theorem ext_nanos {a b : Time} (h : a.nanos = b.nanos) : a = b := by
  cases a
  cases b
  cases h
  rfl

/-- The clock adds up exactly, as long as it can show the sum. -/
theorem add_eq_some_iff {a b sum : Time} :
    a.add? b = some sum ↔ sum.nanos = a.nanos + b.nanos := by
  constructor
  · intro h
    simp only [add?, ofNanos?] at h
    split at h
    · cases h
      rfl
    · cases h
  · intro same
    have shown : a.nanos + b.nanos < clockRange := same ▸ sum.inRange
    rw [add?, ofNanos?, dif_pos shown]
    exact congrArg some (ext_nanos same.symm)

theorem isZero_since {a b : Time} (h : a < b) : (b.since a).isZero = false := by
  have later : b.nanos - a.nanos ≠ 0 := Nat.sub_ne_zero_of_lt h
  simpa [isZero, since] using later

/-! ### Buckets -/

variable {now later d : Time}

/-- Hours and minutes wrap around together with the quarters of an hour. -/
theorem bucket_eq (t : Time) : t.bucket = t.seconds / bucketSeconds % bucketsPerDay := by
  simp only [bucket, bucketSeconds, bucketsPerDay]
  omega

theorem bucket_lt (t : Time) : t.bucket < bucketsPerDay := by
  rw [bucket_eq]
  exact Nat.mod_lt _ (by decide)

theorem bucket_eq_nanos (t : Time) : t.bucket = t.nanos / 900000000000 % 96 := by
  rw [bucket_eq, seconds, Nat.div_div_eq_div_mul]
  rfl

/-- After whole days the bucket is the same. -/
theorem bucket_of_dvd (days : nanosPerDay ∣ d.nanos) (add : now.add? d = some later) :
    later.bucket = now.bucket := by
  obtain ⟨k, whole⟩ := days
  rw [bucket_eq_nanos, bucket_eq_nanos, add_eq_some_iff.1 add, whole, nanosPerDay, nanosPerSecond]
  omega

/-- After any other span some instant has come into another bucket. -/
theorem exists_bucket_ne (part : ¬ nanosPerDay ∣ d.nanos) :
    ∃ now later : Time, now.add? d = some later ∧ later.bucket ≠ now.bucket := by
  have range := d.inRange
  rw [clockRange_eq] at range
  rw [Nat.dvd_iff_mod_eq_zero, nanosPerDay, nanosPerSecond] at part
  by_cases short : d.nanos % 86400000000000 < 900000000000
  · -- the end of the span is the first instant after its own bucket
    obtain ⟨now, start⟩ := exists_of_lt (n := 900000000000 - d.nanos % 86400000000000) (by omega)
    obtain ⟨later, stop⟩ := exists_of_lt (n := now.nanos + d.nanos) (by omega)
    refine ⟨now, later, add_eq_some_iff.2 stop, ?_⟩
    rw [bucket_eq_nanos, bucket_eq_nanos]
    omega
  · -- the span itself reaches into a later bucket
    refine ⟨zero, d, add_eq_some_iff.2 (Nat.zero_add _).symm, ?_⟩
    have start : zero.nanos = 0 := rfl
    rw [bucket_eq_nanos, bucket_eq_nanos]
    omega

end Time

end PathControl
