import Mathlib

/-!
# Instants

An instant is a count of nanoseconds since the Unix epoch.
-/

namespace WeighingSync.Go

/-- A `time.Time` as an instant, and a `time.Duration`. -/
abbrev Instant := ℤ

/-- The seconds between the zero `time.Time` and the Unix epoch. -/
def unixToInternal : ℤ := 62135596800

/-- `time.Unix(sec, 0)`: the internal count of seconds is a 64-bit integer and wraps. -/
def unixTime (sec : ℤ) : ℤ := ((sec + unixToInternal).bmod (2 ^ 64) - unixToInternal) * 10 ^ 9

/-- `Time.Sub`: the difference of two instants, cut down to what a 64-bit duration holds. -/
def durationBetween (t u : ℤ) : ℤ := max (-2 ^ 63) (min (2 ^ 63 - 1) (t - u))

end WeighingSync.Go
