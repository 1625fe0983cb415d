import Mathlib
import WeighingSync.Go.Order
import WeighingSync.Go.Time

/-!
# Instants as text

`Time.Format(time.RFC3339Nano)` of an instant in UTC: the date of the Gregorian calendar, the time of
day, and the nanoseconds without the zeros at their end. Texts compare like the instants they denote
within one year and beyond one second (`lt_timeString_of_second_lt`). Within one second they do so
unless the digits of one fraction begin those of the other, because the closing `Z` comes after every
digit (`lt_timeString_of_second_eq`); years compare as their texts do.
-/

namespace WeighingSync.Go

/-! ## The calendar -/

/-- The days from the first of January of the year 1 to the Unix epoch. -/
def unixEpochDay : ℤ := 719162

/-- `isLeap`. -/
def isLeap (year : ℤ) : Bool := year % 4 = 0 && (year % 100 ≠ 0 || year % 400 = 0)

/-- `absDate`: the year of a day since the Unix epoch, and the day of the year. -/
def absDate (day : ℤ) : ℤ × ℕ :=
  let d := day + unixEpochDay
  let n400 := d / 146097
  let d := d - 146097 * n400
  let n100 := d / 36524 - d / 36524 / 4
  let d := d - 36524 * n100
  let n4 := d / 1461
  let d := d - 1461 * n4
  let n1 := d / 365 - d / 365 / 4
  (400 * n400 + 100 * n100 + 4 * n4 + n1 + 1, (d - 365 * n1).toNat)

/-- `daysBefore`: the days of a common year before each month, and their total. -/
def daysBefore : List ℕ := [0, 31, 59, 90, 120, 151, 181, 212, 243, 273, 304, 334, 365]

/-- The month and the day of the month of a day of the year. -/
def monthDay (leap : Bool) (yday : ℕ) : ℕ × ℕ :=
  if leap ∧ yday = 59 then (2, 29)
  else
    let day := if leap ∧ 59 < yday then yday - 1 else yday
    let month := day / 31
    let stop := daysBefore.getD (month + 1) 0
    if stop ≤ day then (month + 2, day - stop + 1)
    else (month + 1, day - daysBefore.getD month 0 + 1)

/-! ## Texts -/

/-- A year, with four digits or more. -/
def yearText (year : ℤ) : Str :=
  (if year < 0 then [.char '-'] else []) ++
    if year.natAbs < 10000 then digits 4 year.natAbs else natText year.natAbs

/-- The month, the day and the time of day, given the second of the day. -/
def dateText (leap : Bool) (yday clock : ℕ) : Str :=
  let (month, day) := monthDay leap yday
  digits 2 month ++ .char '-' :: (digits 2 day ++ .char 'T' :: (digits 2 (clock / 3600) ++
    .char ':' :: (digits 2 (clock / 60 % 60) ++ .char ':' :: digits 2 (clock % 60))))

/-- A zero digit. -/
def isZero (r : Rune) : Bool := r = .char '0'

/-- The digits of a fraction of a second, without the zeros at the end. -/
def fractionDigits (nanosecond : ℕ) : Str := (digits 9 nanosecond).rdropWhile isZero

/-- `appendNano`. -/
def fractionText (nanosecond : ℕ) : Str :=
  if nanosecond = 0 then [] else .char '.' :: fractionDigits nanosecond

/-- The seconds of an instant since the Unix epoch. -/
def secondOf (t : Instant) : ℤ := t / 10 ^ 9

/-- The nanoseconds of an instant within its second. -/
def nanosecondOf (t : Instant) : ℕ := (t % 10 ^ 9).toNat

/-- The year of an instant, in UTC. -/
def yearOf (t : Instant) : ℤ := (absDate (secondOf t / 86400)).1

/-- The text of the second of an instant, after its year. -/
def secondText (second : ℤ) : Str :=
  let (year, yday) := absDate (second / 86400)
  dateText (isLeap year) yday (second % 86400).toNat

/-- `timeString`: `value.UTC().Format(time.RFC3339Nano)`. -/
def timeString (t : Instant) : Str :=
  yearText (yearOf t) ++ .char '-' :: (secondText (secondOf t) ++
    (fractionText (nanosecondOf t) ++ [.char 'Z']))

example : timeString 0 = Str.lit "1970-01-01T00:00:00Z" := by decide +kernel

example : timeString 1709208000120000000 = Str.lit "2024-02-29T12:00:00.12Z" := by decide +kernel

example : timeString (-62167219200000000001) = Str.lit "-0001-12-31T23:59:59.999999999Z" := by
  decide +kernel

/-! ## Order of dates -/

/-- The day on which a year begins, since the Unix epoch. -/
def yearStart (year : ℤ) : ℤ :=
  365 * (year - 1) + (year - 1) / 4 - (year - 1) / 100 + (year - 1) / 400 - unixEpochDay

theorem yearStart_lt {y z : ℤ} (h : y < z) : yearStart y < yearStart z := by
  unfold yearStart
  omega

/-- The start of a year by its place in the cycles of 400, 100 and 4 years. -/
theorem yearStart_cycles {a b c e : ℤ} (hb : 0 ≤ b ∧ b ≤ 3) (hc : 0 ≤ c ∧ c ≤ 24) (he : 0 ≤ e ∧ e ≤ 3) :
    yearStart (400 * a + 100 * b + 4 * c + e + 1) =
      146097 * a + 36524 * b + 1461 * c + 365 * e - unixEpochDay := by
  have h4 : (400 * a + 100 * b + 4 * c + e) / 4 = 100 * a + 25 * b + c := by omega
  have h100 : (400 * a + 100 * b + 4 * c + e) / 100 = 4 * a + b := by omega
  have h400 : (400 * a + 100 * b + 4 * c + e) / 400 = a := by omega
  rw [yearStart, add_sub_cancel_right, h4, h100, h400]
  ring

/-- `absDate` finds the year in which the day lies, and the day within it. -/
theorem absDate_spec (day : ℤ) :
    yearStart (absDate day).1 + (absDate day).2 = day ∧ day < yearStart ((absDate day).1 + 1) ∧
      (absDate day).2 < 366 := by
  simp only [absDate]
  generalize hd : day + unixEpochDay = d
  generalize ha : d / 146097 = a
  generalize hr : d - 146097 * a = r
  generalize hb : r / 36524 - r / 36524 / 4 = b
  generalize hr' : r - 36524 * b = r'
  generalize hc : r' / 1461 = c
  generalize hs : r' - 1461 * c = s
  generalize he : s / 365 - s / 365 / 4 = e
  generalize hy : s - 365 * e = y
  have hrange : 0 ≤ r ∧ r < 146097 := by omega
  have hbrange : 0 ≤ b ∧ b ≤ 3 := by omega
  have hr'range : 0 ≤ r' ∧ r' ≤ 36524 ∧ (b < 3 → r' < 36524) := by omega
  have hcrange : 0 ≤ c ∧ c ≤ 24 := by omega
  have hsrange : 0 ≤ s ∧ s ≤ 1460 ∧ (b < 3 → c = 24 → s < 1460) := by omega
  have herange : 0 ≤ e ∧ e ≤ 3 := by omega
  have hyrange : 0 ≤ y ∧ y ≤ 365 ∧ (e < 3 → y < 365) := by omega
  have hstart := yearStart_cycles (a := a) hbrange hcrange herange
  refine ⟨by omega, ?_, by omega⟩
  -- the next year is in the same cycle of four years, or begins the next one
  rw [add_right_comm _ (1 : ℤ) 1]
  by_cases hlast : e < 3
  · have hnext := yearStart_cycles (a := a) (e := e + 1) hbrange hcrange (by omega)
    rw [← add_assoc] at hnext
    omega
  · by_cases hlast4 : c < 24
    · have hnext := yearStart_cycles (a := a) (c := c + 1) (e := 0) hbrange (by omega) (by omega)
      have hsame : 400 * a + 100 * b + 4 * (c + 1) + 0 + 1 = 400 * a + 100 * b + 4 * c + e + 1 + 1 := by
        omega
      rw [hsame] at hnext
      omega
    · by_cases hlast100 : b < 3
      · have hnext := yearStart_cycles (a := a) (b := b + 1) (c := 0) (e := 0) (by omega) (by omega)
          (by omega)
        have hsame : 400 * a + 100 * (b + 1) + 4 * 0 + 0 + 1 =
            400 * a + 100 * b + 4 * c + e + 1 + 1 := by
          omega
        rw [hsame] at hnext
        omega
      · have hnext := yearStart_cycles (a := a + 1) (b := 0) (c := 0) (e := 0) (by omega) (by omega)
          (by omega)
        have hsame : 400 * (a + 1) + 100 * 0 + 4 * 0 + 0 + 1 =
            400 * a + 100 * b + 4 * c + e + 1 + 1 := by
          omega
        rw [hsame] at hnext
        omega

/-- A later day is in a later year, or later in the same year. -/
theorem absDate_lt {day day' : ℤ} (h : day < day') :
    (absDate day).1 < (absDate day').1 ∨
      ((absDate day).1 = (absDate day').1 ∧ (absDate day).2 < (absDate day').2) := by
  obtain ⟨hday, -, -⟩ := absDate_spec day
  obtain ⟨hday', hnext', -⟩ := absDate_spec day'
  rcases lt_trichotomy (absDate day).1 (absDate day').1 with hlt | heq | hgt
  · exact Or.inl hlt
  · rw [heq] at hday
    exact Or.inr ⟨heq, by omega⟩
  · have hle : yearStart ((absDate day').1 + 1) ≤ yearStart (absDate day).1 := by
      rcases (Int.add_one_le_iff.mpr hgt).lt_or_eq with hlt | heq
      · exact (yearStart_lt hlt).le
      · rw [heq]
    omega

/-- A later day of the year is in a later month, or later in the same month. -/
theorem monthDay_lt (leap : Bool) {yday yday' : ℕ} (h : yday < yday') (h' : yday' < 366) :
    (monthDay leap yday).1 < (monthDay leap yday').1 ∨
      ((monthDay leap yday).1 = (monthDay leap yday').1 ∧
        (monthDay leap yday).2 < (monthDay leap yday').2) := by
  have hstep : ∀ leap, ∀ n < 365, (monthDay leap n).1 < (monthDay leap (n + 1)).1 ∨
      ((monthDay leap n).1 = (monthDay leap (n + 1)).1 ∧
        (monthDay leap n).2 < (monthDay leap (n + 1)).2) := by decide +kernel
  induction yday', h using Nat.le_induction with
  | base => exact hstep leap yday (by omega)
  | succ n hn ih =>
      have hnext := hstep leap n (by omega)
      have hlast := ih (by omega)
      omega

theorem monthDay_lt_hundred (leap : Bool) {yday : ℕ} (h : yday < 366) :
    (monthDay leap yday).1 < 10 ^ 2 ∧ (monthDay leap yday).2 < 10 ^ 2 := by
  have hall : ∀ leap, ∀ n < 366, (monthDay leap n).1 < 10 ^ 2 ∧ (monthDay leap n).2 < 10 ^ 2 := by
    decide +kernel
  exact hall leap yday h

/-- Texts that begin with numbers of one width are in the order of the numbers, and where these are
equal in the order of what follows. -/
theorem lt_digits_append {width m n : ℕ} (hn : n < 10 ^ width) {s t : Str}
    (h : m < n ∨ (m = n ∧ Str.lt s t = true)) :
    Str.lt (digits width m ++ s) (digits width n ++ t) = true := by
  rcases h with hlt | ⟨rfl, hst⟩
  · exact Str.lt_append_right (by simp) (lt_digits hlt hn) s t
  · rwa [Str.lt_append_left]

theorem lt_cons_self (r : Rune) (s t : Str) : Str.lt (r :: s) (r :: t) = Str.lt s t :=
  Str.lt_append_left [r] s t

/-- Within one year the texts of dates are in the order of time. -/
theorem lt_dateText (leap : Bool) {yday yday' clock clock' : ℕ} (hyday : yday' < 366)
    (hclock : clock' < 86400) (h : yday < yday' ∨ (yday = yday' ∧ clock < clock')) :
    Str.lt (dateText leap yday clock) (dateText leap yday' clock') = true := by
  obtain ⟨hmonth, hday⟩ := monthDay_lt_hundred leap hyday
  have hclocks : clock < clock' → Str.lt
      (digits 2 (clock / 3600) ++ .char ':' :: (digits 2 (clock / 60 % 60) ++ .char ':' ::
        digits 2 (clock % 60)))
      (digits 2 (clock' / 3600) ++ .char ':' :: (digits 2 (clock' / 60 % 60) ++ .char ':' ::
        digits 2 (clock' % 60))) = true := by
    intro hlt
    refine lt_digits_append (by omega) ?_
    rw [lt_cons_self]
    by_cases hhour : clock / 3600 < clock' / 3600
    · exact Or.inl hhour
    refine Or.inr ⟨by omega, lt_digits_append (by omega) ?_⟩
    rw [lt_cons_self]
    by_cases hminute : clock / 60 % 60 < clock' / 60 % 60
    · exact Or.inl hminute
    exact Or.inr ⟨by omega, lt_digits (by omega) (by omega)⟩
  rw [dateText, dateText]
  refine lt_digits_append hmonth ?_
  rw [lt_cons_self]
  rcases h with hlt | ⟨rfl, hlt⟩
  · rcases monthDay_lt leap hlt hyday with hmonths | ⟨hsame, hdays⟩
    · exact Or.inl hmonths
    · exact Or.inr ⟨hsame, lt_digits_append hday (Or.inl hdays)⟩
  · refine Or.inr ⟨rfl, lt_digits_append hday (Or.inr ⟨rfl, ?_⟩)⟩
    rw [lt_cons_self]
    exact hclocks hlt

@[simp] theorem length_secondText (second : ℤ) : (secondText second).length = 14 := by
  simp [secondText, dateText]

/-- Within one year the texts of seconds are in the order of time. -/
theorem lt_secondText {second second' : ℤ} (h : second < second')
    (hyear : (absDate (second / 86400)).1 = (absDate (second' / 86400)).1) :
    Str.lt (secondText second) (secondText second') = true := by
  obtain ⟨-, -, hyday⟩ := absDate_spec (second' / 86400)
  rw [secondText, secondText]
  simp only [hyear]
  refine lt_dateText _ hyday (by omega) ?_
  rcases (Int.ediv_le_ediv (by decide) h.le : second / 86400 ≤ second' / 86400).lt_or_eq with hlt | heq
  · rcases absDate_lt hlt with hless | ⟨-, hydays⟩
    · omega
    · exact Or.inl hydays
  · rw [heq]
    exact Or.inr ⟨rfl, by omega⟩

/-! ## Order of fractions -/

theorem rdropWhile_cons (p : Rune → Bool) (r : Rune) (s : Str) :
    (r :: s).rdropWhile p =
      if s.rdropWhile p = [] then (if p r then [] else [r]) else r :: s.rdropWhile p := by
  by_cases hs : s.rdropWhile p = []
  · rw [if_pos hs]
    rw [List.rdropWhile_eq_nil_iff] at hs
    rw [List.rdropWhile, List.reverse_cons, List.dropWhile_append_of_pos (by simpa using hs)]
    by_cases hr : p r <;> simp [hr]
  · rw [if_neg hs]
    rw [List.rdropWhile, List.reverse_eq_nil_iff] at hs
    rw [List.rdropWhile, List.reverse_cons, List.dropWhile_append, if_neg (by simpa using hs)]
    simp [List.rdropWhile]

/-- Nothing is before a run of zeros of its length. -/
theorem lt_of_zeros {s t : Str} (hlen : s.length = t.length) (hs : ∀ r ∈ s, 48 ≤ r.code)
    (ht : ∀ r ∈ t, isZero r = true) : Str.lt s t = false := by
  induction s generalizing t with
  | nil =>
      rw [List.length_eq_zero_iff.mp hlen.symm]
      rfl
  | cons a s ih =>
      cases t with
      | nil => rfl
      | cons b t =>
          obtain ⟨ha, hs⟩ := List.forall_mem_cons.mp hs
          obtain ⟨hb, ht⟩ := List.forall_mem_cons.mp ht
          have hzero : b = .char '0' := of_decide_eq_true hb
          have hcode : b.code = 48 := by
            rw [hzero]
            rfl
          rw [Bool.eq_false_iff, Ne, Str.lt_cons, ih (by simpa using hlen) hs ht, hcode]
          rintro (hlt | ⟨-, hfalse⟩)
          · omega
          · cases hfalse

/-- Two runs of digits of one length, without the zeros at their ends and with a `Z` after them: they
are in the order of the digits unless one begins the other. -/
theorem lt_trimmed {x y : Str} (hlen : x.length = y.length)
    (hx : ∀ r ∈ x, 48 ≤ r.code ∧ r.code < 58) (hy : ∀ r ∈ y, 48 ≤ r.code ∧ r.code < 58)
    (h : Str.lt x y = true) (u v : Str) :
    Str.lt (x.rdropWhile isZero ++ .char 'Z' :: u) (y.rdropWhile isZero ++ .char 'Z' :: v) =
        !decide (x.rdropWhile isZero <+: y.rdropWhile isZero) ∧
      ¬ y.rdropWhile isZero <+: x.rdropWhile isZero := by
  have hz : (Rune.char 'Z').code = 90 := rfl
  induction x generalizing y with
  | nil =>
      rw [List.length_eq_zero_iff.mp hlen.symm] at h
      cases h
  | cons a x ih =>
      cases y with
      | nil => cases h
      | cons b y =>
          obtain ⟨ha, hx'⟩ := List.forall_mem_cons.mp hx
          obtain ⟨hb, hy'⟩ := List.forall_mem_cons.mp hy
          have hlen' : x.length = y.length := by simpa using hlen
          rw [rdropWhile_cons, rdropWhile_cons]
          rcases (Str.lt_cons a b x y).mp h with hab | ⟨rfl, hxy⟩
          · -- the digits differ, and the greater one is not trimmed
            have hbzero : isZero b = false := by
              rw [isZero, decide_eq_false_iff_not]
              rintro rfl
              change a.code < 48 at hab
              omega
            have hne : a ≠ b := fun heq => by rw [heq] at hab; exact lt_irrefl _ hab
            obtain ⟨q, hq⟩ : ∃ q, (if y.rdropWhile isZero = [] then (if isZero b then [] else [b])
                else b :: y.rdropWhile isZero) = b :: q := by
              split_ifs
              · exact absurd ‹isZero b = true› (by simp [hbzero])
              · exact ⟨[], rfl⟩
              · exact ⟨_, rfl⟩
            rw [hq]
            split_ifs
            · have hlt : Str.lt (.char 'Z' :: u) (b :: (q ++ .char 'Z' :: v)) = false := by
                rw [Bool.eq_false_iff, Ne, Str.lt_cons]
                rintro (hlt | ⟨rfl, -⟩) <;> omega
              simpa using hlt
            · have hlt : Str.lt (a :: .char 'Z' :: u) (b :: (q ++ .char 'Z' :: v)) = true := by
                rw [Str.lt_cons]
                exact Or.inl hab
              simp [hlt, hne, hne.symm]
            · have hlt : Str.lt (a :: (x.rdropWhile isZero ++ .char 'Z' :: u))
                  (b :: (q ++ .char 'Z' :: v)) = true := by
                rw [Str.lt_cons]
                exact Or.inl hab
              simp [hlt, hne, hne.symm]
          · -- the digits are equal, and what follows decides; nothing is less than zeros
            have hynil : y.rdropWhile isZero ≠ [] := by
              intro hnil
              rw [List.rdropWhile_eq_nil_iff] at hnil
              rw [lt_of_zeros hlen' (fun r hr => (hx' r hr).1) hnil] at hxy
              cases hxy
            rw [if_neg hynil]
            obtain ⟨c, q, hq⟩ := List.exists_cons_of_ne_nil hynil
            have hc : c.code < 58 := by
              refine (hy' c ?_).2
              have hmem : c ∈ y.rdropWhile isZero := by
                rw [hq]
                exact List.mem_cons_self
              exact (List.rdropWhile_prefix _ _).subset hmem
            -- the `Z` comes after every digit, so what was trimmed more is greater
            have hzc : Str.lt (.char 'Z' :: u) (c :: (q ++ .char 'Z' :: v)) = false := by
              rw [Bool.eq_false_iff, Ne, Str.lt_cons]
              rintro (hlt | ⟨rfl, -⟩) <;> omega
            have hza : Str.lt (.char 'Z' :: u) (a :: (y.rdropWhile isZero ++ .char 'Z' :: v)) = false := by
              rw [Bool.eq_false_iff, Ne, Str.lt_cons]
              rintro (hlt | ⟨rfl, -⟩) <;> omega
            split_ifs with hxnil hazero
            · simpa using hza
            · rw [hq]
              simpa [lt_cons_self] using hzc
            · obtain ⟨hlt, hpre⟩ := ih hlen' hx' hy' hxy
              rw [List.cons_append, List.cons_append, lt_cons_self, hlt]
              simpa only [List.cons_prefix_cons, true_and] using hpre

/-- The fractions of two instants of one second, with the closing `Z`. -/
theorem lt_fractionText {m n : ℕ} (h : m < n) (hn : n < 10 ^ 9) :
    Str.lt (fractionText m ++ [.char 'Z']) (fractionText n ++ [.char 'Z']) =
        !decide (fractionDigits m <+: fractionDigits n) ∧
      ¬ fractionDigits n <+: fractionDigits m := by
  have htrimmed := lt_trimmed (by simp) (fun r => code_of_mem_digits) (fun r => code_of_mem_digits)
    (lt_digits h hn) [] []
  rw [fractionText, fractionText, if_neg (show n ≠ 0 by omega)]
  by_cases hm : m = 0
  · subst hm
    have hnil : fractionDigits 0 = [] := by decide
    rw [hnil]
    refine ⟨by simp [Str.lt, Rune.code], fun hpre => htrimmed.2 ?_⟩
    change fractionDigits n <+: fractionDigits 0
    rwa [hnil]
  · rw [if_neg hm, List.cons_append, List.cons_append, lt_cons_self]
    exact htrimmed

theorem tail_fractionText (n : ℕ) : (fractionText n).tail = fractionDigits n := by
  rw [fractionText]
  split_ifs with hn
  · subst hn
    decide
  · rfl

/-! ## Order of years -/

theorem natText_injective : Function.Injective natText := by
  intro m n h
  have hvalue := digitsValue_natText m
  rw [h, digitsValue_natText, Option.some_inj] at hvalue
  exact hvalue.symm

theorem length_natText {n : ℕ} (h : 10 ≤ n) : (natText n).length = (natText (n / 10)).length + 1 := by
  rw [natText, natText, Nat.toDigits_of_base_le (by decide) h]
  simp

/-- The digits of a year. -/
def yearDigits (n : ℕ) : Str := if n < 10000 then digits 4 n else natText n

theorem yearText_eq (year : ℤ) :
    yearText year = (if year < 0 then [.char '-'] else []) ++ yearDigits year.natAbs := rfl

theorem digit_of_mem_yearDigits {n : ℕ} {r : Rune} (h : r ∈ yearDigits n) : 48 ≤ r.code ∧ r.code < 58 := by
  rw [yearDigits] at h
  split_ifs at h
  · exact code_of_mem_digits h
  · obtain ⟨c, rfl, hc⟩ := isDigit_of_mem_natText h
    rw [Char.isDigit, Bool.and_eq_true, decide_eq_true_eq, decide_eq_true_eq,
      ge_iff_le, UInt32.le_iff_toNat_le, UInt32.le_iff_toNat_le] at hc
    exact ⟨hc.1, Nat.lt_succ_of_le hc.2⟩

theorem yearDigits_injective : Function.Injective yearDigits := by
  have hlong : ∀ n, 10000 ≤ n → 4 < (natText n).length := by
    intro n hn
    rw [length_natText (by omega), length_natText (by omega), length_natText (by omega),
      length_natText (by omega)]
    have hpos := List.length_pos_iff.mpr (natText_ne_nil (n / 10 / 10 / 10 / 10))
    omega
  intro m n h
  have hlen := congrArg List.length h
  rw [yearDigits, yearDigits] at h hlen
  split_ifs at h hlen with hm hn hn
  · rcases Nat.lt_trichotomy m n with hlt | rfl | hgt
    · have hltText := lt_digits hlt (show n < 10 ^ 4 by omega)
      rw [h, Str.lt_self] at hltText
      cases hltText
    · rfl
    · have hgtText := lt_digits hgt (show m < 10 ^ 4 by omega)
      rw [h, Str.lt_self] at hgtText
      cases hgtText
  · rw [length_digits] at hlen
    have hlt := hlong n (by omega)
    omega
  · rw [length_digits] at hlen
    have hlt := hlong m (by omega)
    omega
  · exact natText_injective h

/-- A dash comes before every digit, so texts of digits compare in front of it as on their own. -/
theorem lt_dash {x y : Str} (hx : ∀ r ∈ x, 48 ≤ r.code) (hy : ∀ r ∈ y, 48 ≤ r.code) (hne : x ≠ y)
    (s t : Str) : Str.lt (x ++ .char '-' :: s) (y ++ .char '-' :: t) = Str.lt x y := by
  have hdash : (Rune.char '-').code = 45 := rfl
  induction x generalizing y with
  | nil =>
      cases y with
      | nil => exact absurd rfl hne
      | cons b y =>
          have hb := hy b List.mem_cons_self
          have hlt : Str.lt (.char '-' :: s) (b :: (y ++ .char '-' :: t)) = true := by
            rw [Str.lt_cons]
            exact Or.inl (by omega)
          exact hlt
  | cons a x ih =>
      obtain ⟨ha, hx'⟩ := List.forall_mem_cons.mp hx
      cases y with
      | nil =>
          have hlt : Str.lt (a :: (x ++ .char '-' :: s)) (.char '-' :: t) = false := by
            rw [Bool.eq_false_iff, Ne, Str.lt_cons]
            rintro (hlt | ⟨rfl, -⟩) <;> omega
          exact hlt
      | cons b y =>
          rw [List.cons_append, List.cons_append, Str.lt, Str.lt]
          by_cases hab : a = b
          · subst hab
            have hxy : x ≠ y := fun heq => hne (by rw [heq])
            rw [ih hx' (List.forall_mem_cons.mp hy).2 hxy]
          · have hcode : (a.code == b.code) = false := by
              rw [beq_eq_false_iff_ne]
              exact fun heq => hab (Rune.code_injective heq)
            rw [hcode, Bool.false_and, Bool.false_and]

/-- Different years compare as their texts do, whatever follows. -/
theorem lt_yearText {y z : ℤ} (h : y ≠ z) (s t : Str) :
    Str.lt (yearText y ++ .char '-' :: s) (yearText z ++ .char '-' :: t) =
      Str.lt (yearText y) (yearText z) := by
  have hdigits : ∀ n, ∀ r ∈ yearDigits n, 48 ≤ r.code := fun n r hr => (digit_of_mem_yearDigits hr).1
  have hne : y.natAbs ≠ z.natAbs → yearDigits y.natAbs ≠ yearDigits z.natAbs :=
    fun habs heq => habs (yearDigits_injective heq)
  have hcons : ∀ n, ∃ c q, yearDigits n = c :: q ∧ 48 ≤ c.code := by
    intro n
    have hnil : yearDigits n ≠ [] := by
      rw [yearDigits]
      split_ifs
      · exact List.cons_ne_nil _ _
      · exact natText_ne_nil n
    obtain ⟨c, q, hq⟩ := List.exists_cons_of_ne_nil hnil
    exact ⟨c, q, hq, hdigits n c (by rw [hq]; exact List.mem_cons_self)⟩
  have hdash : (Rune.char '-').code = 45 := rfl
  rw [yearText_eq, yearText_eq]
  split_ifs with hy hz hz
  · rw [List.append_assoc, List.append_assoc, Str.lt_append_left, Str.lt_append_left,
      lt_dash (hdigits _) (hdigits _) (hne (by omega))]
  · -- a sign comes before every digit
    obtain ⟨c, q, hq, hc⟩ := hcons z.natAbs
    have hlt : ∀ u v, Str.lt (.char '-' :: u) (c :: v) = true := by
      intro u v
      rw [Str.lt_cons]
      exact Or.inl (by omega)
    rw [hq]
    exact (hlt _ _).trans (hlt _ _).symm
  · obtain ⟨c, q, hq, hc⟩ := hcons y.natAbs
    have hlt : ∀ u v, Str.lt (c :: u) (.char '-' :: v) = false := by
      intro u v
      rw [Bool.eq_false_iff, Ne, Str.lt_cons]
      rintro (hlt | ⟨rfl, -⟩) <;> omega
    rw [hq]
    exact (hlt _ _).trans (hlt _ _).symm
  · rw [List.nil_append, List.nil_append, lt_dash (hdigits _) (hdigits _) (hne (by omega))]

theorem yearText_injective : Function.Injective yearText := by
  intro y z h
  by_contra hne
  have hyz := lt_yearText hne [] [.char 'Z']
  rw [h, Str.lt_append_left, Str.lt_self] at hyz
  cases hyz

/-! ## Order of instants -/

/-- An instant is its second and the nanoseconds within it. -/
theorem second_nanosecond (t : ℤ) :
    secondOf t * 10 ^ 9 + nanosecondOf t = t ∧ nanosecondOf t < 10 ^ 9 := by
  unfold secondOf nanosecondOf
  omega

section

variable {t u : ℤ}

/-- Within one year, a later second has a later text. -/
theorem lt_timeString_of_second_lt (hsecond : secondOf t < secondOf u) (hyear : yearOf t = yearOf u) :
    Str.lt (timeString t) (timeString u) = true := by
  rw [timeString, timeString, hyear, Str.lt_append_left, lt_cons_self]
  exact Str.lt_append_right (by simp) (lt_secondText hsecond hyear) _ _

/-- Within one second, a later instant has a later text unless its fraction begins with the digits of
the other's; and the other's does not begin with its digits. -/
theorem lt_timeString_of_second_eq (hsecond : secondOf t = secondOf u) (h : t < u) :
    Str.lt (timeString t) (timeString u) =
        !decide (fractionDigits (nanosecondOf t) <+: fractionDigits (nanosecondOf u)) ∧
      ¬ fractionDigits (nanosecondOf u) <+: fractionDigits (nanosecondOf t) := by
  obtain ⟨ht, -⟩ := second_nanosecond t
  obtain ⟨hu, hbound⟩ := second_nanosecond u
  have hlt : nanosecondOf t < nanosecondOf u := by
    rw [hsecond] at ht
    omega
  have hyear : yearOf t = yearOf u := by rw [yearOf, yearOf, hsecond]
  rw [timeString, timeString, hyear, hsecond, Str.lt_append_left, lt_cons_self, Str.lt_append_left]
  exact lt_fractionText hlt hbound

/-- Instants of different years compare as the texts of their years. -/
theorem lt_timeString_of_year_ne (h : yearOf t ≠ yearOf u) :
    Str.lt (timeString t) (timeString u) = Str.lt (yearText (yearOf t)) (yearText (yearOf u)) :=
  lt_yearText h _ _

end

/-- The text of an instant denotes no other one. -/
theorem timeString_injective : Function.Injective timeString := by
  have hlt : ∀ {t u : ℤ}, t < u → timeString t ≠ timeString u := by
    intro t u h heq
    by_cases hyear : yearOf t = yearOf u
    · have hseconds : secondOf t ≤ secondOf u := Int.ediv_le_ediv (by decide) h.le
      rcases hseconds.lt_or_eq with hlt | hsecond
      · have hltText := lt_timeString_of_second_lt hlt hyear
        rw [heq, Str.lt_self] at hltText
        cases hltText
      · have hsame : fractionDigits (nanosecondOf t) = fractionDigits (nanosecondOf u) := by
          rw [timeString, timeString, hyear, hsecond] at heq
          have hfraction := List.append_cancel_left (List.cons.inj (List.append_cancel_left heq)).2
          rw [← tail_fractionText, List.append_cancel_right hfraction, tail_fractionText]
        exact (lt_timeString_of_second_eq hsecond h).2 (hsame ▸ List.prefix_refl _)
    · have hyears := lt_timeString_of_year_ne hyear
      have hyears' := lt_timeString_of_year_ne (Ne.symm hyear)
      rw [heq, Str.lt_self] at hyears hyears'
      rcases Str.lt_trichotomy (yearText (yearOf t)) (yearText (yearOf u)) with h | h | h
      · rw [← hyears] at h
        cases h
      · exact hyear (yearText_injective h)
      · rw [← hyears'] at h
        cases h
  intro t u heq
  rcases lt_trichotomy t u with h | h | h
  · exact absurd heq (hlt h)
  · exact h
  · exact absurd heq.symm (hlt h)

/-- Two instants whose texts are in the order of time: they are the same, or of one second and the
digits of neither fraction begin those of the other, or of one year, or of years in the order of
their texts. -/
def ComparesAsText (t u : Instant) : Prop :=
  t = u ∨
    (secondOf t = secondOf u ∧ ¬ fractionDigits (nanosecondOf t) <+: fractionDigits (nanosecondOf u) ∧
      ¬ fractionDigits (nanosecondOf u) <+: fractionDigits (nanosecondOf t)) ∨
    (secondOf t ≠ secondOf u ∧ yearOf t = yearOf u) ∨
    (yearOf t ≠ yearOf u ∧ (Str.lt (yearText (yearOf t)) (yearText (yearOf u)) = true ↔
      yearOf t < yearOf u))

instance (t u : Instant) : Decidable (ComparesAsText t u) :=
  inferInstanceAs (Decidable (_ ∨ _ ∨ _ ∨ _))

/-- Years never go back. -/
theorem yearOf_lt {t u : ℤ} (h : secondOf t < secondOf u) (hyear : yearOf t ≠ yearOf u) :
    yearOf t < yearOf u := by
  have hdays : secondOf t / 86400 ≤ secondOf u / 86400 := Int.ediv_le_ediv (by decide) h.le
  rcases hdays.lt_or_eq with hlt | heq
  · exact (absDate_lt hlt).resolve_right fun hsame => hyear hsame.1
  · exact absurd (by rw [yearOf, yearOf, heq]) hyear

/-- One of two different texts is before the other. -/
theorem lt_eq_false_iff {s t : Str} (h : s ≠ t) : Str.lt s t = false ↔ Str.lt t s = true := by
  constructor
  · intro hst
    rcases Str.lt_trichotomy s t with hlt | heq | hgt
    · rw [hst] at hlt
      cases hlt
    · exact absurd heq h
    · exact hgt
  · exact fun hts => Str.lt_asymm hts

theorem ComparesAsText.symm {t u : ℤ} (h : ComparesAsText t u) : ComparesAsText u t := by
  rcases h with rfl | ⟨hsecond, htu, hut⟩ | ⟨hsecond, hyear⟩ | ⟨hyear, hlt⟩
  · exact Or.inl rfl
  · exact Or.inr (Or.inl ⟨hsecond.symm, hut, htu⟩)
  · exact Or.inr (Or.inr (Or.inl ⟨hsecond.symm, hyear.symm⟩))
  · refine Or.inr (Or.inr (Or.inr ⟨hyear.symm, ?_⟩))
    have htexts : yearText (yearOf t) ≠ yearText (yearOf u) := fun heq => hyear (yearText_injective heq)
    rw [← lt_eq_false_iff htexts, Bool.eq_false_iff, Ne, hlt]
    omega

theorem lt_timeString_iff_of_lt {t u : ℤ} (h : t < u) :
    Str.lt (timeString t) (timeString u) = true ↔ ComparesAsText t u := by
  rcases (Int.ediv_le_ediv (by decide) h.le : secondOf t ≤ secondOf u).lt_or_eq with hlt | hsecond
  · by_cases hyear : yearOf t = yearOf u
    · exact iff_of_true (lt_timeString_of_second_lt hlt hyear)
        (Or.inr (Or.inr (Or.inl ⟨hlt.ne, hyear⟩)))
    · have hyears := yearOf_lt hlt hyear
      rw [lt_timeString_of_year_ne hyear]
      constructor
      · exact fun htext => Or.inr (Or.inr (Or.inr ⟨hyear, iff_of_true htext hyears⟩))
      · rintro (rfl | ⟨hsecond, -⟩ | ⟨-, hsame⟩ | ⟨-, htext⟩)
        · exact absurd rfl hyear
        · exact absurd hsecond hlt.ne
        · exact absurd hsame hyear
        · exact htext.mpr hyears
  · change secondOf t = secondOf u at hsecond
    obtain ⟨htext, hnot⟩ := lt_timeString_of_second_eq hsecond h
    have hyear : yearOf t = yearOf u := by rw [yearOf, yearOf, hsecond]
    rw [htext, Bool.not_eq_true', decide_eq_false_iff_not]
    constructor
    · exact fun hpre => Or.inr (Or.inl ⟨hsecond, hpre, hnot⟩)
    · rintro (rfl | ⟨-, hpre, -⟩ | ⟨hne, -⟩ | ⟨hne, -⟩)
      · exact absurd h (lt_irrefl _)
      · exact hpre
      · exact absurd hsecond hne
      · exact absurd hyear hne

/-- The text comparison of two instants is right exactly for these. -/
theorem lt_timeString_iff (t u : ℤ) :
    (Str.lt (timeString t) (timeString u) = true ↔ t < u) ↔ ComparesAsText t u := by
  rcases lt_trichotomy t u with h | rfl | h
  · rw [lt_timeString_iff_of_lt h]
    exact ⟨fun hiff => hiff.mpr h, fun htext => iff_of_true htext h⟩
  · exact iff_of_true (by simp) (Or.inl rfl)
  · have htexts : timeString t ≠ timeString u := fun heq => h.ne' (timeString_injective heq)
    have hright : (Str.lt (timeString t) (timeString u) = true ↔ t < u) ↔
        Str.lt (timeString u) (timeString t) = true := by
      rw [← lt_eq_false_iff htexts, Bool.eq_false_iff]
      exact ⟨fun hiff htext => absurd (hiff.mp htext) (not_lt.mpr h.le),
        fun hnot => iff_of_false hnot (not_lt.mpr h.le)⟩
    rw [hright, lt_timeString_iff_of_lt h]
    exact ⟨ComparesAsText.symm, ComparesAsText.symm⟩

end WeighingSync.Go
