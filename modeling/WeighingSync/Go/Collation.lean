import WeighingSync.Go.TimeText

/-!
# Collations

A database compares the texts of a column by their sort keys. Whatever a collation does not tell
apart, it puts the texts of instants in the order of their bytes (`Collation.times`); one that folds
the case of letters does so, because the texts of instants are made of few runes
(`timeString_subset`).
-/

namespace WeighingSync.Go

/-- A collation, which orders the texts of instants as their bytes do: it puts the punctuation before
the digits and the digits before the letters. -/
structure Collation where
  sortKey : Str → Str
  times : ∀ i j, Str.lt (sortKey (timeString i)) (sortKey (timeString j)) =
    Str.lt (timeString i) (timeString j)

/-! ## The runes of instants -/

/-- The runes of the texts of instants. -/
def timeRunes : Str := Str.lit "-.0123456789:TZ"

theorem digit_mem_timeRunes {r : Rune} (h : 48 ≤ r.code ∧ r.code < 58) : r ∈ timeRunes := by
  have hdigit : r = .char (Nat.digitChar (r.code - 48)) := by
    apply Rune.code_injective
    rw [code_digitChar (by omega)]
    omega
  have hall : ∀ d < 10, Rune.char (Nat.digitChar d) ∈ timeRunes := by decide
  rw [hdigit]
  exact hall _ (by omega)

theorem digits_subset (width n : ℕ) : digits width n ⊆ timeRunes := fun _ hr =>
  digit_mem_timeRunes (code_of_mem_digits hr)

theorem yearText_subset (year : ℤ) : yearText year ⊆ timeRunes := by
  rw [yearText_eq]
  intro r hr
  rcases List.mem_append.mp hr with hr | hr
  · split_ifs at hr
    · rw [List.mem_singleton.mp hr]
      decide
    · cases hr
  · exact digit_mem_timeRunes (digit_of_mem_yearDigits hr)

theorem secondText_subset (second : ℤ) : secondText second ⊆ timeRunes := by
  have hdash : Rune.char '-' ∈ timeRunes ∧ Rune.char 'T' ∈ timeRunes ∧ Rune.char ':' ∈ timeRunes := by
    decide
  simp only [secondText, dateText, List.append_subset, List.cons_subset, digits_subset, hdash, and_true]

theorem fractionText_subset (nanosecond : ℕ) : fractionText nanosecond ⊆ timeRunes := by
  rw [fractionText]
  split_ifs
  · exact List.nil_subset _
  · refine List.cons_subset.mpr ⟨by decide, fun r hr => digits_subset 9 nanosecond ?_⟩
    exact (List.rdropWhile_prefix _ _).subset hr

theorem timeString_subset (t : Instant) : timeString t ⊆ timeRunes := by
  have hmarks : Rune.char '-' ∈ timeRunes ∧ Rune.char 'Z' ∈ timeRunes := by decide
  simp only [timeString, List.append_subset, List.cons_subset, yearText_subset, secondText_subset,
    fractionText_subset, hmarks, true_and, List.nil_subset]

/-! ## Folding case -/

/-- Texts over an alphabet keep their order when their runes do. -/
theorem lt_map {f : Rune → Rune} {alphabet s t : Str} (hs : s ⊆ alphabet) (ht : t ⊆ alphabet)
    (hf : ∀ a ∈ alphabet, ∀ b ∈ alphabet, (f a).code < (f b).code ↔ a.code < b.code) :
    Str.lt (s.map f) (t.map f) = Str.lt s t := by
  induction s generalizing t with
  | nil => cases t <;> rfl
  | cons a s ih =>
      cases t with
      | nil => rfl
      | cons b t =>
          rw [List.cons_subset] at hs ht
          have hab := hf a hs.1 b ht.1
          have hba := hf b ht.1 a hs.1
          rw [List.map_cons, List.map_cons, Str.lt, Str.lt, ih hs.2 ht.2, Bool.eq_iff_iff]
          simp only [Bool.or_eq_true, Bool.and_eq_true, decide_eq_true_eq, beq_iff_eq]
          rw [hab]
          have heq : (f a).code = (f b).code ↔ a.code = b.code := by omega
          rw [heq]

theorem lt_toLower_timeString (i j : Instant) :
    Str.lt (timeString i).toLower (timeString j).toLower = Str.lt (timeString i) (timeString j) :=
  lt_map (timeString_subset i) (timeString_subset j) (by decide)

/-- The collation that folds the case of ASCII letters. -/
def foldCase : Collation := ⟨Str.toLower, lt_toLower_timeString⟩

end WeighingSync.Go
