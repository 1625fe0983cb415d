import WeighingSync.Engine.Source

/-!
# Exact decimals

`format_numeric` of `src/source/sqlserver.rs` with its 128-bit arithmetic, and a reader of decimal
texts. Every value of every scale that the driver admits is printed without an overflow and read back
exactly (`formatNumeric_exact`).
-/

namespace WeighingSync.Engine

open Go

/-! ## Printing -/

/-- `tiberius::numeric::Numeric`: a 128-bit integer of at most 38 digits, and how many of them are
decimals. -/
structure Numeric where
  value : ℤ
  scale : ℕ
  value_lt : value.natAbs < 10 ^ 38
  scale_le : scale ≤ 37

/-- A result of the arithmetic of `i128`, unless it overflows. -/
def checkedI128 (n : ℤ) : Option ℤ := if -2 ^ 127 ≤ n ∧ n < 2 ^ 127 then some n else none

/-- `format_numeric`, none where an operation overflows. -/
def Numeric.format (n : Numeric) : Option Str :=
  if n.scale = 0 then some (itoa n.value)
  else do
    let abs ← checkedI128 |n.value|
    let factor ← checkedI128 (10 ^ n.scale)
    let integer := abs / factor
    let fraction := abs % factor
    let sign := if n.value < 0 then Str.lit "-" else []
    return sign ++ itoa integer ++ Str.lit "." ++ (itoa fraction).leftpad n.scale (.char '0')

/-- Nothing overflows. -/
theorem Numeric.format_eq (n : Numeric) : n.format = some (formatNumeric n.value n.scale) := by
  have habs : checkedI128 |n.value| = some (n.value.natAbs : ℤ) := by
    have hlt := n.value_lt
    rw [checkedI128, Int.abs_eq_natAbs, if_pos]
    omega
  have hfactor : checkedI128 (10 ^ n.scale) = some ((10 ^ n.scale : ℕ) : ℤ) := by
    have hle : (10 : ℤ) ^ n.scale ≤ 10 ^ 37 := pow_le_pow_right₀ (by decide) n.scale_le
    have hpos : (0 : ℤ) < 10 ^ n.scale := pow_pos (by decide) _
    rw [checkedI128, Nat.cast_pow, Nat.cast_ofNat, if_pos]
    omega
  rw [Numeric.format, formatNumeric]
  split_ifs with hscale
  · rfl
  · rw [habs, hfactor, Option.bind_eq_bind, Option.bind_some, Option.bind_some, ← Int.natCast_ediv,
      ← Int.natCast_emod]
    rfl
  · rw [habs, hfactor, Option.bind_eq_bind, Option.bind_some, Option.bind_some, ← Int.natCast_ediv,
      ← Int.natCast_emod]
    rfl

/-! ## Reading -/

/-- A decimal text as it is read: a sign, an integer part, and the digits of a fraction. -/
structure Decimal where
  negative : Bool
  integer : ℕ
  fraction : ℕ
  deriving DecidableEq, Repr

/-- The number of a decimal text whose fraction has so many digits. -/
def Decimal.value (d : Decimal) (scale : ℕ) : ℚ :=
  (if d.negative then -1 else 1) * (d.integer + d.fraction / 10 ^ scale)

/-- Reads a point and exactly so many digits after an integer part, or nothing if there are no
decimals. -/
def readFraction (scale integer : ℕ) : Str → Option (ℕ × ℕ)
  | [] => if scale = 0 then some (integer, 0) else none
  | point :: fraction =>
      if point = .char '.' ∧ 0 < scale ∧ fraction.length = scale then
        (digitsValue fraction).map fun fraction => (integer, fraction)
      else none

/-- Reads an integer part without superfluous zeros in front, and the fraction. -/
def readUnsigned (scale : ℕ) (text : Str) : Option (ℕ × ℕ) :=
  let digits := text.takeWhile Rune.isDigit
  if digits.head? = some (.char '0') ∧ digits.length ≠ 1 then none
  else do
    let integer ← digitsValue digits
    readFraction scale integer (text.dropWhile Rune.isDigit)

/-- Reads a decimal text. -/
def readDecimal (scale : ℕ) (text : Str) : Option Decimal :=
  if text.head? = some (.char '-') then
    (readUnsigned scale text.tail).map fun (integer, fraction) => ⟨true, integer, fraction⟩
  else (readUnsigned scale text).map fun (integer, fraction) => ⟨false, integer, fraction⟩

/-- The decimal text of a number is read as the integer part, whatever follows it that is no digit. -/
theorem readUnsigned_natText (scale n : ℕ) {rest : Str} (hrest : ∀ r ∈ rest.head?, r.isDigit = false) :
    readUnsigned scale (natText n ++ rest) = readFraction scale n rest := by
  have hzero : ¬ ((natText n).head? = some (.char '0') ∧ (natText n).length ≠ 1) := by
    rintro ⟨hhead, hlength⟩
    rcases Nat.eq_zero_or_pos n with rfl | hpos
    · exact hlength rfl
    · exact natText_head hpos hhead
  rw [readUnsigned]
  simp only [takeWhile_digits_append isDigit_of_natText hrest,
    dropWhile_digits_append isDigit_of_natText hrest, if_neg hzero, digitsValue_natText,
    Option.bind_eq_bind, Option.bind_some]

/-- Digits with zeros in front are read as the number they stand for. -/
theorem digitsValue_leftpad (width n : ℕ) :
    digitsValue ((natText n).leftpad width (.char '0')) = some n := by
  have hpad : (natText n).leftpad width (.char '0') =
      (List.replicate (width - (natText n).length) '0' ++ Nat.toDigits 10 n).map .char := by
    rw [List.map_append, List.map_replicate]
    rfl
  have hdigits : ∀ r ∈ (natText n).leftpad width (.char '0'), r.isDigit = true := by
    intro r hr
    rcases List.mem_append.mp hr with hzero | hr
    · rw [(List.mem_replicate.mp hzero).2]
      rfl
    · exact isDigit_of_natText r hr
  have hnil : (natText n).leftpad width (.char '0') ≠ [] := by
    intro hnil
    exact natText_ne_nil n (List.append_eq_nil_iff.mp hnil).2
  rw [digitsValue, if_pos ⟨hnil, List.all_eq_true.mpr hdigits⟩, hpad, List.filterMap_map]
  simp [Nat.ofDigitChars_append, Nat.ofDigitChars_replicate_zero, Nat.ofDigitChars_ten_toDigits]

theorem length_leftpad_natText {width n : ℕ} (hwidth : 0 < width) (h : n < 10 ^ width) :
    ((natText n).leftpad width (.char '0')).length = width := by
  have hle : (natText n).length ≤ width := by
    rw [natText, List.length_map, Nat.length_toDigits_le_iff (by decide) hwidth]
    exact h
  rw [List.length_leftpad, max_eq_left hle]

/-- The sign of a number, in front of a text that begins with a digit. -/
theorem readDecimal_sign (scale : ℕ) (negative : Bool) {n : ℕ} {rest : Str} :
    readDecimal scale ((if negative then Str.lit "-" else []) ++ (natText n ++ rest)) =
      (readUnsigned scale (natText n ++ rest)).map fun (integer, fraction) =>
        ⟨negative, integer, fraction⟩ := by
  rw [readDecimal]
  cases negative with
  | true => exact if_pos rfl
  | false =>
      have hhead : (natText n ++ rest).head? ≠ some (.char '-') := by
        rw [List.head?_append_of_ne_nil _ (natText_ne_nil n)]
        intro hminus
        exact absurd (isDigit_of_natText _ (List.mem_of_mem_head? hminus)) (by decide)
      exact if_neg hhead

theorem itoa_eq (v : ℤ) :
    itoa v = (if decide (v < 0) then Str.lit "-" else []) ++ (natText v.natAbs ++ []) := by
  rw [List.append_nil]
  cases v with
  | ofNat n => rfl
  | negSucc n =>
      rw [decide_eq_true (Int.negSucc_lt_zero n)]
      rfl

/-- What is printed is read as the digits of the value, before the point and after it. -/
theorem readDecimal_formatNumeric (v : ℤ) (scale : ℕ) :
    readDecimal scale (formatNumeric v scale) =
      some ⟨decide (v < 0), v.natAbs / 10 ^ scale, v.natAbs % 10 ^ scale⟩ := by
  rw [formatNumeric]
  by_cases hscale : scale = 0
  · rw [if_pos hscale, itoa_eq, readDecimal_sign, readUnsigned_natText scale _ (by simp), hscale,
      pow_zero, Nat.div_one, Nat.mod_one]
    rfl
  · have hpos : 0 < scale := Nat.pos_of_ne_zero hscale
    have hlt : v.natAbs % 10 ^ scale < 10 ^ scale := Nat.mod_lt _ (Nat.pow_pos (by decide))
    have hpoint : ∀ r ∈ (Str.lit "." ++ (natText (v.natAbs % 10 ^ scale)).leftpad scale
        (.char '0')).head?, r.isDigit = false := by
      rintro r ⟨⟩
      rfl
    have hsign : (if v < 0 then Str.lit "-" else []) =
        if decide (v < 0) then Str.lit "-" else [] := by simp
    simp only [if_neg hscale]
    rw [hsign, List.append_assoc, List.append_assoc, readDecimal_sign,
      readUnsigned_natText scale _ hpoint, show ∀ t, Str.lit "." ++ t = .char '.' :: t from fun _ => rfl,
      readFraction,
      if_pos ⟨rfl, hpos, length_leftpad_natText hpos hlt⟩, digitsValue_leftpad]
    rfl

/-- The number that is read is the value. -/
theorem value_digits (v : ℤ) (scale : ℕ) :
    (Decimal.mk (decide (v < 0)) (v.natAbs / 10 ^ scale) (v.natAbs % 10 ^ scale)).value scale =
      v / 10 ^ scale := by
  have hpow : (10 : ℚ) ^ scale ≠ 0 := pow_ne_zero _ (by norm_num)
  have hdigits : (v.natAbs : ℚ) =
      10 ^ scale * ((v.natAbs / 10 ^ scale : ℕ) : ℚ) + ((v.natAbs % 10 ^ scale : ℕ) : ℚ) := by
    exact_mod_cast (Nat.div_add_mod v.natAbs (10 ^ scale)).symm
  have habs : ((v.natAbs / 10 ^ scale : ℕ) : ℚ) + ((v.natAbs % 10 ^ scale : ℕ) : ℚ) / 10 ^ scale =
      v.natAbs / 10 ^ scale := by
    rw [hdigits]
    field_simp
  rw [Decimal.value, habs]
  by_cases hneg : v < 0
  · have hcast : (v.natAbs : ℚ) = -v := by
      rw [Nat.cast_natAbs, abs_of_neg hneg, Int.cast_neg]
    rw [decide_eq_true hneg, if_pos rfl, hcast]
    ring
  · have hcast : (v.natAbs : ℚ) = v := by
      rw [Nat.cast_natAbs, abs_of_nonneg (not_lt.mp hneg)]
    rw [decide_eq_false hneg, hcast]
    simp

/-- A value of a scale that the driver admits is printed, and what is printed is read back: the number
exactly, its sign also where the integer part is zero. No other value of the scale is printed so. -/
theorem format_exact (n : Numeric) : ∃ text d, n.format = some text ∧
    readDecimal n.scale text = some d ∧ d.value n.scale = n.value / 10 ^ n.scale ∧
    d.negative = decide (n.value < 0) ∧
    ∀ m : Numeric, m.scale = n.scale → m.format = some text → m = n := by
  refine ⟨_, _, n.format_eq, readDecimal_formatNumeric n.value n.scale, value_digits _ _, rfl, ?_⟩
  intro m hscale hformat
  rw [m.format_eq, Option.some_inj, hscale] at hformat
  have hread := readDecimal_formatNumeric m.value n.scale
  rw [hformat, readDecimal_formatNumeric, Option.some_inj] at hread
  have hvalue := congrArg (fun d => d.value n.scale) hread
  simp only [value_digits] at hvalue
  have hpow : (10 : ℚ) ^ n.scale ≠ 0 := pow_ne_zero _ (by norm_num)
  have hsame : (n.value : ℚ) = m.value := (div_left_inj' hpow).mp hvalue
  cases m
  cases n
  simp only [Numeric.mk.injEq] at *
  exact ⟨(Int.cast_inj.mp hsame).symm, hscale⟩

end WeighingSync.Engine
