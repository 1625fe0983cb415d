import WeighingSync.Go.TimeText

/-!
# Times as RFC 3339 texts

The times of the local cache, and the texts of RFC 3339 in UTC that they are stored as. The library
that prints and reads the texts is a parameter of the cache; here stands what its documentation says of
them. A year has four digits, or a sign and at least four; a fraction of a second has three, six or nine
digits, as many as it needs; a leap second is the second 60 of its minute. Texts with four-digit years
are in the order of the times that they are read as (`lt_text`).
-/

namespace WeighingSync.Engine

open Go

/-- `DateTime<Utc>`: the second since the Unix epoch, and the nanoseconds since it began, which are a
second or more within a leap second. -/
structure DateTime where
  second : ℤ
  nanosecond : ℕ
  nanosecond_lt : nanosecond < 2 * 10 ^ 9
  deriving DecidableEq, Repr

/-- No fraction of a second. -/
theorem DateTime.zero_lt : 0 < 2 * 10 ^ 9 := by decide

/-- The order of times: by second, and by nanosecond within a second. -/
instance : LinearOrder DateTime := by
  apply LinearOrder.lift' fun t : DateTime => toLex (t.second, t.nanosecond)
  rintro ⟨s, n, hn⟩ ⟨s', n', hn'⟩ h
  cases h
  rfl

theorem DateTime.lt_iff {t u : DateTime} :
    t < u ↔ t.second < u.second ∨ t.second = u.second ∧ t.nanosecond < u.nanosecond :=
  Prod.Lex.toLex_lt_toLex

/-! ## Dates -/

/-- The days of a month. -/
def monthLength (leap : Bool) (month : ℕ) : ℕ :=
  if leap ∧ month = 2 then 29 else daysBefore.getD month 0 - daysBefore.getD (month - 1) 0

/-- The day of the year of a date, from zero on. -/
def dayOfYear (leap : Bool) (month day : ℕ) : ℕ :=
  daysBefore.getD (month - 1) 0 + (if leap ∧ 2 < month then 1 else 0) + (day - 1)

/-- The day of a date, since the Unix epoch. -/
def dayOf (year : ℤ) (month day : ℕ) : ℤ := yearStart year + dayOfYear (isLeap year) month day

theorem yearStart_succ (year : ℤ) :
    yearStart (year + 1) = yearStart year + 365 + if isLeap year then 1 else 0 := by
  unfold yearStart isLeap
  by_cases h4 : year % 4 = 0 <;> by_cases h100 : year % 100 = 0 <;> by_cases h400 : year % 400 = 0 <;>
    simp [h4, h100, h400] <;> omega

/-- A day of a year as a date. -/
theorem monthDay_spec (leap : Bool) {yday : ℕ} (h : yday < 365 + if leap then 1 else 0) :
    (1 ≤ (monthDay leap yday).1 ∧ (monthDay leap yday).1 ≤ 12) ∧
      (1 ≤ (monthDay leap yday).2 ∧ (monthDay leap yday).2 ≤ monthLength leap (monthDay leap yday).1) ∧
      dayOfYear leap (monthDay leap yday).1 (monthDay leap yday).2 = yday := by
  have hall : ∀ leap : Bool, ∀ n < 365 + if leap then 1 else 0,
      (1 ≤ (monthDay leap n).1 ∧ (monthDay leap n).1 ≤ 12) ∧
      (1 ≤ (monthDay leap n).2 ∧ (monthDay leap n).2 ≤ monthLength leap (monthDay leap n).1) ∧
      dayOfYear leap (monthDay leap n).1 (monthDay leap n).2 = n := by decide +kernel
  exact hall leap yday h

/-- The day of the year is one of its days. -/
theorem absDate_lt_length (day : ℤ) :
    (absDate day).2 < 365 + if isLeap (absDate day).1 then 1 else 0 := by
  obtain ⟨hstart, hnext, -⟩ := absDate_spec day
  rw [yearStart_succ] at hnext
  split_ifs at hnext ⊢ <;> omega

/-! ## Texts -/

/-- What an RFC 3339 text in UTC says. -/
structure Civil where
  year : ℤ
  month : ℕ
  day : ℕ
  hour : ℕ
  minute : ℕ
  second : ℕ
  nanosecond : ℕ
  month_mem : 1 ≤ month ∧ month ≤ 12
  day_mem : 1 ≤ day ∧ day ≤ monthLength (isLeap year) month
  hour_lt : hour < 24
  minute_lt : minute < 60
  second_le : second ≤ 60
  nanosecond_lt : nanosecond < 10 ^ 9

/-- The digits of a fraction of a second that has so many of them. -/
def places (count nanosecond : ℕ) : Str := digits count (nanosecond / 10 ^ (9 - count))

/-- A fraction of a second, with as many groups of three digits as it needs. -/
def fractionGroups (nanosecond : ℕ) : Str :=
  if nanosecond = 0 then []
  else if nanosecond % 10 ^ 6 = 0 then .char '.' :: places 3 nanosecond
  else if nanosecond % 10 ^ 3 = 0 then .char '.' :: places 6 nanosecond
  else .char '.' :: places 9 nanosecond

namespace Civil

/-- The year has four digits. -/
def FourDigits (c : Civil) : Prop := 0 ≤ c.year ∧ c.year < 10000

instance (c : Civil) : Decidable c.FourDigits := inferInstanceAs (Decidable (_ ∧ _))

/-- The year: four digits, or a sign and four digits or more. -/
def yearPart (c : Civil) : Str :=
  if c.FourDigits then digits 4 c.year.natAbs
  else .char (if c.year < 0 then '-' else '+') :: yearDigits c.year.natAbs

/-- The RFC 3339 text. -/
def text (c : Civil) : Str :=
  c.yearPart ++ .char '-' :: (digits 2 c.month ++ .char '-' :: (digits 2 c.day ++
    .char 'T' :: (digits 2 c.hour ++ .char ':' :: (digits 2 c.minute ++
      .char ':' :: (digits 2 c.second ++ (fractionGroups c.nanosecond ++ Str.lit "+00:00"))))))

/-- The minute that a text says, since the Unix epoch. -/
def minutes (c : Civil) : ℤ := 1440 * dayOf c.year c.month c.day + (60 * c.hour + c.minute : ℕ)

theorem nanosecond_add_lt (c : Civil) : c.nanosecond + 10 ^ 9 * (c.second / 60) < 2 * 10 ^ 9 := by
  have hsecond := c.second_le
  have hnanosecond := c.nanosecond_lt
  omega

/-- The time that a text says: the second 60 is the leap second after the second 59. -/
def dateTime (c : Civil) : DateTime where
  second := 60 * c.minutes + (min c.second 59 : ℕ)
  nanosecond := c.nanosecond + 10 ^ 9 * (c.second / 60)
  nanosecond_lt := c.nanosecond_add_lt

end Civil

/-! ## The text of a time -/

namespace DateTime

/-- The day of a time, since the Unix epoch. -/
def day (t : DateTime) : ℤ := t.second / 86400

/-- The second of the day. -/
def clock (t : DateTime) : ℕ := (t.second % 86400).toNat

theorem clock_lt (t : DateTime) : t.clock < 86400 := by
  rw [clock]
  omega

theorem second_le (t : DateTime) : t.clock % 60 + t.nanosecond / 10 ^ 9 ≤ 60 := by
  have hnanosecond := t.nanosecond_lt
  omega

/-- What the text of a time says: a leap second adds one to the second. -/
def civil (t : DateTime) : Civil where
  year := (absDate t.day).1
  month := (monthDay (isLeap (absDate t.day).1) (absDate t.day).2).1
  day := (monthDay (isLeap (absDate t.day).1) (absDate t.day).2).2
  hour := t.clock / 3600
  minute := t.clock / 60 % 60
  second := t.clock % 60 + t.nanosecond / 10 ^ 9
  nanosecond := t.nanosecond % 10 ^ 9
  month_mem := (monthDay_spec _ (absDate_lt_length t.day)).1
  day_mem := (monthDay_spec _ (absDate_lt_length t.day)).2.1
  hour_lt := by
    have hclock := t.clock_lt
    omega
  minute_lt := Nat.mod_lt _ (by decide)
  second_le := t.second_le
  nanosecond_lt := Nat.mod_lt _ (by decide)

example : (DateTime.mk 1709208000 120000000 (by decide)).civil.text =
    Str.lit "2024-02-29T12:00:00.120+00:00" := by decide +kernel

example : (DateTime.mk 253402300800 0 (by decide)).civil.text =
    Str.lit "+10000-01-01T00:00:00+00:00" := by decide +kernel

/-- The minute of a time is the minute that its text says. -/
theorem minutes_civil (t : DateTime) : t.civil.minutes = t.second / 60 := by
  obtain ⟨hday, -, -⟩ := absDate_spec t.day
  have hdate : dayOf t.civil.year t.civil.month t.civil.day = t.day := by
    rw [dayOf]
    exact (congrArg (fun yday : ℕ => yearStart (absDate t.day).1 + (yday : ℤ))
      (monthDay_spec _ (absDate_lt_length t.day)).2.2).trans hday
  have hclock : 60 * t.civil.hour + t.civil.minute = t.clock / 60 := by
    have hlt := t.clock_lt
    show 60 * (t.clock / 3600) + t.clock / 60 % 60 = t.clock / 60
    omega
  rw [Civil.minutes, hdate, hclock, day, clock]
  omega

/-- A time that has no leap second, or has it at the end of a minute. -/
def Settled (t : DateTime) : Prop := t.nanosecond < 10 ^ 9 ∨ t.second % 60 = 59

instance (t : DateTime) : Decidable t.Settled := inferInstanceAs (Decidable (_ ∨ _))

/-- The text of a time says that time unless it has a leap second within a minute. -/
theorem dateTime_civil_iff (t : DateTime) : t.civil.dateTime = t ↔ t.Settled := by
  have hlt := t.nanosecond_lt
  have hclock : t.clock % 60 = t.second % 60 := by
    rw [clock]
    omega
  have hsecond : t.civil.dateTime.second =
      60 * (t.second / 60) + (min (t.clock % 60 + t.nanosecond / 10 ^ 9) 59 : ℕ) := by
    rw [← minutes_civil]
    rfl
  have hnanosecond : t.civil.dateTime.nanosecond =
      t.nanosecond % 10 ^ 9 + 10 ^ 9 * ((t.clock % 60 + t.nanosecond / 10 ^ 9) / 60) := rfl
  rw [Settled]
  constructor
  · intro h
    rw [h] at hnanosecond
    omega
  · intro h
    have hsame : t.civil.dateTime.second = t.second ∧ t.civil.dateTime.nanosecond = t.nanosecond := by
      omega
    cases t with
    | mk second nanosecond _ =>
        generalize DateTime.civil _ = c at hsame ⊢
        cases hc : c.dateTime with
        | mk second' nanosecond' _ =>
            rw [hc] at hsame
            obtain ⟨rfl, rfl⟩ := hsame
            rfl

end DateTime

/-! ## Order of texts -/

/-- The digits of a number begin with those of its quotient. -/
theorem digits_add (a b n : ℕ) : digits (a + b) n = digits a (n / 10 ^ b) ++ digits b n := by
  induction a with
  | zero => simp [digits]
  | succ a ih =>
      rw [Nat.succ_add, digits, digits, ih, List.cons_append, Nat.div_div_eq_div_mul, ← pow_add,
        Nat.add_comm b a]

/-- A plus sign comes before every digit. -/
theorem lt_plus_digits {count : ℕ} (hcount : 0 < count) (n : ℕ) (s t : Str) :
    Str.lt (.char '+' :: s) (digits count n ++ t) = true := by
  obtain ⟨count, rfl⟩ := Nat.exists_eq_succ_of_ne_zero hcount.ne'
  have hplus : (Rune.char '+').code = 43 := rfl
  have hcode : ∀ r ∈ digits (count + 1) n, 48 ≤ r.code := fun r hr => (code_of_mem_digits hr).1
  rw [digits] at hcode
  have hhead := hcode _ List.mem_cons_self
  rw [digits, List.cons_append, Str.lt_cons]
  exact Or.inl (by omega)

/-- Fractions with as many digits as they need are in the order of their nanoseconds. -/
theorem lt_places {p q m n : ℕ} (hp : p ≤ 9) (hq : q ≤ 9) (hn : 10 ^ (9 - q) ∣ n) (h : m < n)
    (hlt : n < 10 ^ 9) (s t : Str) :
    Str.lt (places p m ++ .char '+' :: s) (places q n ++ .char '+' :: t) = true := by
  have hbound : ∀ k ≤ 9, n / 10 ^ (9 - k) < 10 ^ k := by
    intro k hk
    rw [Nat.div_lt_iff_lt_mul (by positivity), ← pow_add, Nat.add_sub_cancel' hk]
    exact hlt
  -- as many leading digits of each as the shorter one has
  have hlead : ∀ k ≤ 9, ∀ v w : Str, m / 10 ^ (9 - k) < n / 10 ^ (9 - k) →
      Str.lt (digits k (m / 10 ^ (9 - k)) ++ v) (digits k (n / 10 ^ (9 - k)) ++ w) = true :=
    fun k hk v w hquot => Str.lt_append_right (by simp) (lt_digits hquot (hbound k hk)) v w
  rcases Nat.lt_trichotomy p q with hpq | rfl | hpq
  · have hdigits : places q n =
        digits p (n / 10 ^ (9 - p)) ++ digits (q - p) (n / 10 ^ (9 - q)) := by
      rw [places, ← Nat.add_sub_cancel' hpq.le, digits_add, Nat.div_div_eq_div_mul, ← pow_add]
      congr 4 <;> omega
    rw [hdigits, List.append_assoc, places]
    rcases (Nat.div_le_div_right (c := 10 ^ (9 - p)) h.le).lt_or_eq with hquot | hquot
    · exact hlead p hp _ _ hquot
    · rw [hquot, Str.lt_append_left]
      exact lt_plus_digits (by omega) _ _ _
  · exact hlead p hp _ _ (Nat.div_lt_div_of_lt_of_dvd hn h)
  · have hdigits : places p m =
        digits q (m / 10 ^ (9 - q)) ++ digits (p - q) (m / 10 ^ (9 - p)) := by
      rw [places, ← Nat.add_sub_cancel' hpq.le, digits_add, Nat.div_div_eq_div_mul, ← pow_add]
      congr 4 <;> omega
    rw [hdigits, List.append_assoc]
    exact hlead q hq _ _ (Nat.div_lt_div_of_lt_of_dvd hn h)

/-- A fraction that is not zero, as the digits that it needs. -/
theorem fractionGroups_eq {n : ℕ} (hn : n ≠ 0) :
    ∃ p ≤ 9, 10 ^ (9 - p) ∣ n ∧ fractionGroups n = .char '.' :: places p n := by
  rw [fractionGroups, if_neg hn]
  split_ifs with hmilli hmicro
  · exact ⟨3, by omega, Nat.dvd_of_mod_eq_zero hmilli, rfl⟩
  · exact ⟨6, by omega, Nat.dvd_of_mod_eq_zero hmicro, rfl⟩
  · exact ⟨9, le_rfl, by simp, rfl⟩

theorem lt_fractionGroups {m n : ℕ} (h : m < n) (hlt : n < 10 ^ 9) (s t : Str) :
    Str.lt (fractionGroups m ++ .char '+' :: s) (fractionGroups n ++ .char '+' :: t) = true := by
  obtain ⟨q, hq, hn, hgroups⟩ := fractionGroups_eq (Nat.ne_zero_of_lt h)
  rw [hgroups]
  by_cases hm : m = 0
  · subst hm
    have hpoint : (Rune.char '+').code < (Rune.char '.').code := by decide
    rw [fractionGroups, if_pos rfl, List.nil_append, List.cons_append, Str.lt_cons]
    exact Or.inl hpoint
  · obtain ⟨p, hp, -, hgroups⟩ := fractionGroups_eq hm
    rw [hgroups, List.cons_append, List.cons_append, lt_cons_self]
    exact lt_places hp hq hn h hlt s t

/-- The date and the time of day of one minute are before those of another. -/
def Civil.MinuteBefore (c c' : Civil) : Prop :=
  c.year < c'.year ∨ c.year = c'.year ∧ (c.month < c'.month ∨ c.month = c'.month ∧
    (c.day < c'.day ∨ c.day = c'.day ∧ (c.hour < c'.hour ∨ c.hour = c'.hour ∧
      c.minute < c'.minute)))

/-- The minutes that two texts say are the same. -/
def Civil.SameMinute (c c' : Civil) : Prop :=
  c.year = c'.year ∧ c.month = c'.month ∧ c.day = c'.day ∧ c.hour = c'.hour ∧ c.minute = c'.minute

/-- Of the texts of two times, the one of the earlier minute says an earlier date or time of day. -/
theorem minuteBefore_civil {t u : DateTime} (h : t.second / 60 < u.second / 60) :
    t.civil.MinuteBefore u.civil := by
  have htclock := t.clock_lt
  have huclock := u.clock_lt
  have hdays : t.day ≤ u.day := by
    rw [DateTime.day, DateTime.day]
    omega
  rw [Civil.MinuteBefore]
  rcases hdays.lt_or_eq with hday | hday
  · rcases absDate_lt hday with hyear | ⟨hyear, hyday⟩
    · exact Or.inl hyear
    · have hlength := (absDate_spec u.day).2.2
      have hdate := monthDay_lt (isLeap (absDate t.day).1) hyday hlength
      refine Or.inr ⟨hyear, ?_⟩
      simp only [DateTime.civil, ← hyear]
      exact hdate.imp_right (And.imp_right Or.inl)
  · have hclocks : t.clock / 60 < u.clock / 60 := by
      rw [DateTime.clock, DateTime.clock]
      rw [DateTime.day, DateTime.day] at hday
      omega
    have htimes : t.clock / 3600 < u.clock / 3600 ∨ t.clock / 3600 = u.clock / 3600 ∧
        t.clock / 60 % 60 < u.clock / 60 % 60 := by omega
    simpa only [DateTime.civil, hday, lt_irrefl, false_or, true_and] using htimes

theorem sameMinute_civil {t u : DateTime} (h : t.second / 60 = u.second / 60) :
    t.civil.SameMinute u.civil := by
  have hday : t.day = u.day := by
    rw [DateTime.day, DateTime.day]
    omega
  have hclock : t.clock / 60 = u.clock / 60 := by
    rw [DateTime.clock, DateTime.clock]
    omega
  have hhour : t.clock / 3600 = u.clock / 3600 := by omega
  simp only [Civil.SameMinute, DateTime.civil, hday, hclock, hhour, and_self]

theorem Civil.month_lt (c : Civil) : c.month < 10 ^ 2 := lt_of_le_of_lt c.month_mem.2 (by decide)

theorem Civil.day_lt (c : Civil) : c.day < 10 ^ 2 := by
  have hall : ∀ leap, ∀ month ≤ 12, monthLength leap month < 10 ^ 2 := by decide
  exact lt_of_le_of_lt c.day_mem.2 (hall _ _ c.month_mem.2)

theorem Civil.yearPart_of_fourDigits {c : Civil} (h : c.FourDigits) :
    c.yearPart = digits 4 c.year.toNat := by
  have hyear := h.1
  rw [yearPart, if_pos h]
  congr 1
  omega

/-- With four-digit years, the text of an earlier minute is before the text of a later one. -/
theorem Civil.lt_text_of_minuteBefore {c c' : Civil} (hc : c.FourDigits) (hc' : c'.FourDigits)
    (h : c.MinuteBefore c') : Str.lt c.text c'.text = true := by
  have hhour : c'.hour < 10 ^ 2 := c'.hour_lt.trans (by decide)
  have hminute : c'.minute < 10 ^ 2 := c'.minute_lt.trans (by decide)
  have hpos := hc.1
  have hyear := hc'.1
  have hyearLt := hc'.2
  rw [text, text, yearPart_of_fourDigits hc, yearPart_of_fourDigits hc']
  refine lt_digits_append (by omega) ?_
  rw [lt_cons_self]
  refine h.imp (by omega) (And.imp (congrArg Int.toNat) fun h => lt_digits_append c'.month_lt ?_)
  rw [lt_cons_self]
  refine h.imp_right (And.imp_right fun h => lt_digits_append c'.day_lt ?_)
  rw [lt_cons_self]
  refine h.imp_right (And.imp_right fun h => lt_digits_append hhour ?_)
  rw [lt_cons_self]
  refine h.imp_right (And.imp_right fun h => lt_digits_append hminute ?_)
  exact Or.inl h

/-- Within a minute, the text of an earlier second or fraction is before that of a later one. -/
theorem Civil.lt_text_of_sameMinute {c c' : Civil} (hc : c.FourDigits) (hsame : c.SameMinute c')
    (h : c.second < c'.second ∨ c.second = c'.second ∧ c.nanosecond < c'.nanosecond) :
    Str.lt c.text c'.text = true := by
  obtain ⟨hyear, hmonth, hday, hhour, hminute⟩ := hsame
  have hc' : c'.FourDigits := by
    rw [FourDigits, ← hyear]
    exact hc
  have hyears : c.yearPart = c'.yearPart := by
    rw [yearPart_of_fourDigits hc, yearPart_of_fourDigits hc', hyear]
  have hsecond : c'.second < 10 ^ 2 := lt_of_le_of_lt c'.second_le (by decide)
  rw [text, text, hyears, hmonth, hday, hhour, hminute, Str.lt_append_left, lt_cons_self,
    Str.lt_append_left, lt_cons_self, Str.lt_append_left, lt_cons_self, Str.lt_append_left,
    lt_cons_self, Str.lt_append_left, lt_cons_self]
  exact lt_digits_append hsecond
    (h.imp_right (And.imp_right fun h => lt_fractionGroups h c'.nanosecond_lt _ _))

/-- Texts with four-digit years are in the order of the times that they say. -/
theorem lt_text {t u : DateTime} (ht : t.civil.FourDigits) (hu : u.civil.FourDigits)
    (h : t.civil.dateTime < u.civil.dateTime) : Str.lt t.civil.text u.civil.text = true := by
  have htsecond : t.civil.dateTime.second = 60 * (t.second / 60) + (min t.civil.second 59 : ℕ) := by
    rw [← DateTime.minutes_civil]
    rfl
  have husecond : u.civil.dateTime.second = 60 * (u.second / 60) + (min u.civil.second 59 : ℕ) := by
    rw [← DateTime.minutes_civil]
    rfl
  have htnanosecond : t.civil.dateTime.nanosecond =
      t.civil.nanosecond + 10 ^ 9 * (t.civil.second / 60) := rfl
  have hunanosecond : u.civil.dateTime.nanosecond =
      u.civil.nanosecond + 10 ^ 9 * (u.civil.second / 60) := rfl
  have htle := t.civil.second_le
  have hule := u.civil.second_le
  have htlt := t.civil.nanosecond_lt
  have hult := u.civil.nanosecond_lt
  rw [DateTime.lt_iff] at h
  rcases lt_trichotomy (t.second / 60) (u.second / 60) with hminute | hminute | hminute
  · exact Civil.lt_text_of_minuteBefore ht hu (minuteBefore_civil hminute)
  · exact Civil.lt_text_of_sameMinute ht (sameMinute_civil hminute) (by omega)
  · omega

/-! ## A reader -/

/-- Reads a number of so many digits. -/
def readDigits (width : ℕ) (s : Str) : Option (ℕ × Str) :=
  (digitsValue (s.take width)).map fun n => (n, s.drop width)

theorem readDigits_append {width n : ℕ} (hwidth : 0 < width) (hn : n < 10 ^ width) (s : Str) :
    readDigits width (digits width n ++ s) = some (n, s) := by
  rw [readDigits, List.take_left' (length_digits width n), List.drop_left' (length_digits width n),
    digitsValue_digits hwidth hn]
  rfl

/-- Reads one rune. -/
def readRune (r : Rune) (s : Str) : Option Str := if s.head? = some r then some s.tail else none

theorem readRune_cons (r : Rune) (s : Str) : readRune r (r :: s) = some s := if_pos rfl

/-- Reads a fraction of a second, if there is one. -/
def readSubsecond (s : Str) : Option (ℕ × Str) :=
  match readRune (.char '.') s with
  | none => some (0, s)
  | some s =>
      let fraction := s.takeWhile Rune.isDigit
      (digitsValue fraction).map fun n => (n * 10 ^ (9 - fraction.length), s.dropWhile Rune.isDigit)

theorem readSubsecond_places {count n : ℕ} (hcount : 0 < count) (hle : count ≤ 9) (hn : n < 10 ^ 9)
    (hdvd : 10 ^ (9 - count) ∣ n) :
    readSubsecond (.char '.' :: (places count n ++ Str.lit "+00:00")) = some (n, Str.lit "+00:00") := by
  have hquot : n / 10 ^ (9 - count) < 10 ^ count := by
    rw [Nat.div_lt_iff_lt_mul (by positivity), ← pow_add, Nat.add_sub_cancel' hle]
    exact hn
  have hdigits : ∀ r ∈ places count n, r.isDigit = true := fun r => isDigit_of_mem_digits
  have hzone : ∀ r ∈ (Str.lit "+00:00").head?, r.isDigit = false := by decide
  rw [readSubsecond, readRune_cons]
  simp only [takeWhile_digits_append hdigits hzone, dropWhile_digits_append hdigits hzone]
  rw [places, digitsValue_digits hcount hquot, Option.map_some, length_digits,
    Nat.div_mul_cancel hdvd]

theorem readSubsecond_groups {n : ℕ} (hn : n < 10 ^ 9) :
    readSubsecond (fractionGroups n ++ Str.lit "+00:00") = some (n, Str.lit "+00:00") := by
  by_cases hzero : n = 0
  · subst hzero
    decide
  · rw [fractionGroups, if_neg hzero]
    split_ifs with hmilli hmicro
    · exact readSubsecond_places (by decide) (by decide) hn (Nat.dvd_of_mod_eq_zero hmilli)
    · exact readSubsecond_places (by decide) (by decide) hn (Nat.dvd_of_mod_eq_zero hmicro)
    · exact readSubsecond_places (by decide) (by decide) hn (by simp)

/-- The time of these fields, if they are in their ranges. -/
def timeOfFields (year : ℤ) (month day hour minute second nanosecond : ℕ) : Option DateTime :=
  if h : (1 ≤ month ∧ month ≤ 12) ∧ (1 ≤ day ∧ day ≤ monthLength (isLeap year) month) ∧ hour < 24 ∧
      minute < 60 ∧ second ≤ 60 ∧ nanosecond < 10 ^ 9 then
    some (Civil.dateTime ⟨year, month, day, hour, minute, second, nanosecond, h.1, h.2.1, h.2.2.1,
      h.2.2.2.1, h.2.2.2.2.1, h.2.2.2.2.2⟩)
  else none

/-- Reads an RFC 3339 text in UTC with a four-digit year. -/
def readRfc3339 (s : Str) : Option DateTime := do
  let (year, s) ← readDigits 4 s
  let s ← readRune (.char '-') s
  let (month, s) ← readDigits 2 s
  let s ← readRune (.char '-') s
  let (day, s) ← readDigits 2 s
  let s ← readRune (.char 'T') s
  let (hour, s) ← readDigits 2 s
  let s ← readRune (.char ':') s
  let (minute, s) ← readDigits 2 s
  let s ← readRune (.char ':') s
  let (second, s) ← readDigits 2 s
  let (nanosecond, s) ← readSubsecond s
  if s = Str.lit "+00:00" then timeOfFields year month day hour minute second nanosecond else none

/-- It reads what a text says. -/
theorem readRfc3339_text {c : Civil} (h : c.FourDigits) : readRfc3339 c.text = some c.dateTime := by
  have hyear : c.year.toNat < 10 ^ 4 := by
    have hlt := h.2
    omega
  have hhour : c.hour < 10 ^ 2 := c.hour_lt.trans (by decide)
  have hminute : c.minute < 10 ^ 2 := c.minute_lt.trans (by decide)
  have hsecond : c.second < 10 ^ 2 := lt_of_le_of_lt c.second_le (by decide)
  have hpos : (c.year.toNat : ℤ) = c.year := Int.toNat_of_nonneg h.1
  rw [readRfc3339, Civil.text, Civil.yearPart_of_fourDigits h]
  simp only [readDigits_append (by decide : 0 < 4) hyear,
    readDigits_append (by decide : 0 < 2) c.month_lt, readDigits_append (by decide : 0 < 2) c.day_lt,
    readDigits_append (by decide : 0 < 2) hhour, readDigits_append (by decide : 0 < 2) hminute,
    readDigits_append (by decide : 0 < 2) hsecond, readRune_cons,
    readSubsecond_groups c.nanosecond_lt, Option.bind_eq_bind, Option.bind_some, if_true, hpos]
  exact dif_pos ⟨c.month_mem, c.day_mem, c.hour_lt, c.minute_lt, c.second_le, c.nanosecond_lt⟩

/-- It reads no text that does not begin with a digit. -/
theorem readRfc3339_eq_none {s : Str} (h : ∀ r ∈ s.head?, r.isDigit = false) :
    readRfc3339 s = none := by
  have hvalue : digitsValue (s.take 4) = none := by
    cases s with
    | nil => rfl
    | cons r s =>
        have hr := h r rfl
        rw [digitsValue, if_neg]
        rintro ⟨-, hall⟩
        rw [List.take_succ_cons, List.all_cons, hr] at hall
        cases hall
  rw [readRfc3339, readDigits, hvalue]
  rfl

end WeighingSync.Engine
