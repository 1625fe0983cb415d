import WeighingSync.Receiver.Settings

/-!
# The minimum age

`loadConfig` makes nanoseconds of the hours of `MIN_DELETE_AGE_HOURS` and checks the product, which has
wrapped by then if it does not fit in 64 bits. So the cutoff of a deletion lies the configured hours back
exactly when these are at most `maxHours` (`cutoff_iff`); of the longer ones some pass the check with an
age of a few days.
-/

namespace WeighingSync.Receiver

open Go

/-- `time.Hour`, in nanoseconds. -/
def hour : ℤ := 3600 * 10 ^ 9

/-- The most hours whose nanoseconds fit in 64 bits. -/
def maxHours : ℤ := 2562047

/-! ## Integers of any size -/

/-- The integer that a text denotes, whatever its size. -/
def integerValue : Str → Option ℤ
  | .char '-' :: t => (digitsValue t).map fun n => -(n : ℤ)
  | .char '+' :: t => (digitsValue t).map fun n => (n : ℤ)
  | t => (digitsValue t).map fun n => (n : ℤ)

/-- `strconv.Atoi` reads the integers that fit in 64 bits. -/
theorem atoi_of_integerValue {s : Str} {n : ℤ} (h : integerValue s = some n) (hge : -2 ^ 63 ≤ n)
    (hlt : n < 2 ^ 63) : atoi s = some n := by
  have hatoi : atoi s = (integerValue s).filter fun n => -2 ^ 63 ≤ n ∧ n < 2 ^ 63 := rfl
  rw [hatoi, h, Option.filter_some, if_pos (decide_eq_true ⟨hge, hlt⟩)]

/-- No text without a digit denotes an integer. -/
theorem ne_nil_of_integerValue {s : Str} {n : ℤ} (h : integerValue s = some n) : s ≠ [] := by
  rintro rfl
  cases h

/-! ## The age of a configuration -/

variable {getenv : Str → Str} {sqliteDSN : Option Str} {loaded : LoadedConfig}

/-- The minimum age of a configuration is that of the environment. -/
theorem minDeleteAge_of_loadConfig (h : loadConfig getenv sqliteDSN = .ok loaded) :
    loaded.minDeleteAge = envDuration getenv "MIN_DELETE_AGE_HOURS" 168 hour := by
  unfold loadConfig at h
  split at h
  · cases h
  · simp only at h
    split_ifs at h
    split at h
    · cases h
    · cases h
      rfl

/-- A duration is less than 2^63 nanoseconds, whatever was multiplied. -/
theorem envDuration_lt (key : String) (fallbackValue unit : ℤ) :
    envDuration getenv key fallbackValue unit < 2 ^ 63 :=
  Int.bmod_lt (by decide)

/-- A product that fits does not wrap. -/
theorem envDuration_eq {key : String} {fallbackValue unit n : ℤ}
    (hvalue : envInt getenv key fallbackValue = n) (hge : -2 ^ 63 ≤ n * unit)
    (hlt : n * unit < 2 ^ 63) : envDuration getenv key fallbackValue unit = n * unit := by
  rw [envDuration, hvalue]
  exact Int.bmod_eq_of_le (by omega) (by omega)

/-- Of a variable that is an integer of 64 bits, `envInt` gives this integer. -/
theorem envInt_of_integerValue {key : String} {fallbackValue n : ℤ}
    (h : integerValue (getenv (Str.lit key)).trimSpace = some n) (hge : -2 ^ 63 ≤ n)
    (hlt : n < 2 ^ 63) : envInt getenv key fallbackValue = n := by
  rw [envInt, if_neg (ne_nil_of_integerValue h), atoi_of_integerValue h hge hlt, Option.getD_some]

/-- An integer is accepted as the hours of a minimum age. The cutoff of every deletion then lies that
many hours before its reading of the clock exactly when they are at least seven days and fit in 64 bits
as nanoseconds. -/
theorem cutoff_iff (hload : loadConfig getenv sqliteDSN = .ok loaded) {hours : ℤ}
    (hhours : integerValue (getenv (Str.lit "MIN_DELETE_AGE_HOURS")).trimSpace = some hours)
    (routes : Routes) {reported : ℤ} (hreported : 168 ≤ reported) :
    (∀ now, cutoff (loaded.server routes reported hreported) now = now - hours * hour) ↔
      168 ≤ hours ∧ hours ≤ maxHours := by
  have hage := minDeleteAge_of_loadConfig hload
  have hmin := loaded.min_age
  constructor
  · intro h
    have hexact : loaded.minDeleteAge = hours * hour := by
      have hzero : 0 - loaded.minDeleteAge = 0 - hours * hour := h 0
      omega
    -- the age has passed the check and fits in 64 bits, so the hours lie within the bounds
    have hlt : envDuration getenv "MIN_DELETE_AGE_HOURS" 168 hour < 2 ^ 63 := envDuration_lt _ _ _
    rw [← hage, hexact] at hlt
    rw [hexact] at hmin
    unfold defaultMinDeleteAge hour at hmin
    unfold hour at hlt
    unfold maxHours
    omega
  · rintro ⟨hge, hle⟩ now
    have hvalue : envInt getenv "MIN_DELETE_AGE_HOURS" 168 = hours := by
      unfold maxHours at hle
      exact envInt_of_integerValue hhours (by omega) (by omega)
    have hfits : hours * hour < 2 ^ 63 := by
      unfold maxHours at hle
      unfold hour
      omega
    have hpos : -2 ^ 63 ≤ hours * hour := by
      unfold hour
      omega
    rw [envDuration_eq hvalue hpos hfits] at hage
    exact congrArg (now - ·) hage

/-! ## An age of centuries -/

/-- An environment without credentials and with this minimum age. -/
def agedEnv (hours : String) (name : Str) : Str :=
  if name = Str.lit "MIN_DELETE_AGE_HOURS" then Str.lit hours
  else if name = Str.lit "REQUIRE_AUTH" then Str.lit "false"
  else []

theorem exists_loaded {getenv : Str → Str} {sqliteDSN : Option Str}
    (h : (loadConfig getenv sqliteDSN).toOption.isSome = true) :
    ∃ loaded, loadConfig getenv sqliteDSN = .ok loaded := by
  cases hload : loadConfig getenv sqliteDSN with
  | error e =>
      rw [hload] at h
      cases h
  | ok loaded => exact ⟨loaded, rfl⟩

theorem month_hours : 168 ≤ (720 : ℤ) := by decide

/-- Thirty days. -/
theorem cutoff_iff_month : ∃ loaded, loadConfig (agedEnv "720") (some []) = .ok loaded ∧
    ((∀ now, cutoff (loaded.server defaultRoutes 720 month_hours) now = now - 720 * hour) ↔
      168 ≤ (720 : ℤ) ∧ 720 ≤ maxHours) := by
  have hsome : (loadConfig (agedEnv "720") (some [])).toOption.isSome = true := by decide +kernel
  have hhours : integerValue (agedEnv "720" (Str.lit "MIN_DELETE_AGE_HOURS")).trimSpace = some 720 := by
    decide +kernel
  obtain ⟨loaded, hload⟩ := exists_loaded hsome
  exact ⟨loaded, hload, cutoff_iff hload hhours defaultRoutes month_hours⟩

/-- More than five hundred years are accepted and leave less than 169 hours. -/
theorem not_cutoff_centuries : ∃ loaded, loadConfig (agedEnv "5124264") (some []) = .ok loaded ∧
    integerValue (agedEnv "5124264" (Str.lit "MIN_DELETE_AGE_HOURS")).trimSpace = some 5124264 ∧
    loaded.minDeleteAge < 169 * hour ∧
    ∀ (routes : Routes) (hreported : 168 ≤ (168 : ℤ)),
      ¬ ∀ now, cutoff (loaded.server routes 168 hreported) now = now - 5124264 * hour := by
  have hsome : (loadConfig (agedEnv "5124264") (some [])).toOption.isSome = true := by decide +kernel
  have hshort : envDuration (agedEnv "5124264") "MIN_DELETE_AGE_HOURS" 168 hour < 169 * hour := by
    decide +kernel
  obtain ⟨loaded, hload⟩ := exists_loaded hsome
  rw [← minDeleteAge_of_loadConfig hload] at hshort
  refine ⟨loaded, hload, by decide +kernel, hshort, fun routes hreported h => ?_⟩
  have hzero : 0 - loaded.minDeleteAge = 0 - 5124264 * hour := h 0
  unfold hour at hzero hshort
  omega

end WeighingSync.Receiver
