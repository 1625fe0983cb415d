import WeighingSync.Go.Http
import WeighingSync.Go.Utf8

/-!
# Texts cut to a number of bytes

A slice `s[:max]` counts bytes, and so does `io.LimitReader`: what is left of a valid text is valid exactly
if the cut falls between two characters (`valid_limitReader_iff`).
-/

namespace WeighingSync.Go

/-- `truncate` of `cmd/replicator/main.go`. -/
def truncate (s : Str) (max : ℕ) : Str := if s.size ≤ max then s else limitReader max s

/-- The first bytes of a text, so many of them or all, are whole characters. -/
def WholeRunes (n : ℕ) (s : Str) : Prop :=
  ∃ p : Str, p <+: s ∧ p.Valid ∧ (p.size = n ∨ p = s ∧ s.size ≤ n)

variable {n m : ℕ} {s t : Str}

@[simp] theorem truncate_eq (s : Str) (max : ℕ) : truncate s max = limitReader max s := by
  rw [truncate]
  split_ifs with h
  · exact (limitReader_of_size_le h).symm
  · rfl

theorem bytes_cons (r : Rune) (s : Str) : Str.bytes (r :: s) = r.bytes ++ s.bytes := List.flatMap_cons

/-- A slice is a slice of the bytes. -/
theorem bytes_limitReader (n : ℕ) (s : Str) : (limitReader n s).bytes = s.bytes.take n := by
  induction s generalizing n with
  | nil =>
      rw [limitReader]
      exact List.take_nil.symm
  | cons r s ih =>
      have hlength := r.length_bytes
      rw [limitReader, bytes_cons, List.take_append, hlength]
      split_ifs with h
      · rw [bytes_cons, ih, List.take_of_length_le (l := r.bytes) (by omega)]
      · rw [bytes_map_byte, Nat.sub_eq_zero_of_le (by omega), List.take_zero, List.append_nil]

theorem size_limitReader_le (n : ℕ) (s : Str) : (limitReader n s).size ≤ n := by
  rw [← length_bytes, bytes_limitReader, List.length_take]
  exact min_le_left _ _

@[simp] theorem limitReader_zero (s : Str) : limitReader 0 s = [] := by
  cases s with
  | nil => rfl
  | cons r s =>
      have hpos := r.size_pos
      rw [limitReader, if_neg (by omega), List.take_zero, List.map_nil]

theorem limitReader_map_byte (n : ℕ) (bytes : List UInt8) :
    limitReader n (bytes.map .byte) = (bytes.take n).map .byte := by
  induction bytes generalizing n with
  | nil => rw [List.map_nil, limitReader, List.take_nil, List.map_nil]
  | cons b bytes ih =>
      cases n with
      | zero => rw [limitReader_zero, List.take_zero, List.map_nil]
      | succ n =>
          have hfits : (Rune.byte b).size ≤ n + 1 := Nat.le_add_left 1 n
          rw [List.map_cons, limitReader, if_pos hfits, List.take_succ_cons, List.map_cons, ← ih]
          rfl

/-- Of two limits the smaller one counts. -/
theorem limitReader_limitReader (n m : ℕ) (s : Str) :
    limitReader n (limitReader m s) = limitReader (min n m) s := by
  induction s generalizing n m with
  | nil => rfl
  | cons r s ih =>
      by_cases hm : r.size ≤ m
      · rw [limitReader, if_pos hm, limitReader, limitReader]
        by_cases hn : r.size ≤ n
        · rw [if_pos hn, if_pos (le_min hn hm), ih, Nat.sub_min_sub_right]
        · rw [if_neg hn, if_neg (by omega), min_eq_left (by omega)]
      · rw [limitReader, if_neg hm, limitReader_map_byte, List.take_take, limitReader, if_neg (by omega)]

/-- What does not fit before a text is not followed by it. -/
theorem limitReader_append_of_size_ge (h : n ≤ s.size) (t : Str) :
    limitReader n (s ++ t) = limitReader n s := by
  induction s generalizing n with
  | nil =>
      rw [Str.size_nil, Nat.le_zero] at h
      rw [h, limitReader_zero, limitReader_zero]
  | cons r s ih =>
      rw [Str.size_cons] at h
      rw [List.cons_append, limitReader, limitReader]
      split_ifs with hr
      · rw [ih (by omega)]
      · rfl

theorem wholeRunes_cons_of_le {r : Rune} (h : r.size ≤ n) :
    WholeRunes n (r :: s) ↔ r.repair = r ∧ WholeRunes (n - r.size) s := by
  have hpos := r.size_pos
  constructor
  · rintro ⟨p, hprefix, hvalid, hcut⟩
    cases p with
    | nil =>
        rcases hcut with hsize | ⟨hnil, -⟩
        · rw [Str.size_nil] at hsize
          omega
        · cases hnil
    | cons r' p =>
        obtain ⟨rfl, hrest⟩ := List.cons_prefix_cons.mp hprefix
        obtain ⟨hr, hvalid⟩ := List.forall_mem_cons.mp hvalid
        rw [Str.size_cons, Str.size_cons, List.cons.injEq] at hcut
        refine ⟨hr, p, hrest, hvalid, ?_⟩
        rcases hcut with hsize | ⟨⟨-, hall⟩, hsize⟩
        · exact Or.inl (by omega)
        · exact Or.inr ⟨hall, by omega⟩
  · rintro ⟨hr, p, hprefix, hvalid, hcut⟩
    refine ⟨r :: p, List.cons_prefix_cons.mpr ⟨rfl, hprefix⟩, List.forall_mem_cons.mpr ⟨hr, hvalid⟩, ?_⟩
    rw [Str.size_cons, Str.size_cons, List.cons.injEq]
    rcases hcut with hsize | ⟨hall, hsize⟩
    · exact Or.inl (by omega)
    · exact Or.inr ⟨⟨rfl, hall⟩, by omega⟩

theorem wholeRunes_cons_of_lt {r : Rune} (h : n < r.size) : WholeRunes n (r :: s) ↔ n = 0 := by
  constructor
  · rintro ⟨p, hprefix, -, hcut⟩
    cases p with
    | nil =>
        rcases hcut with hsize | ⟨hnil, -⟩
        · exact hsize.symm
        · cases hnil
    | cons r' p =>
        obtain ⟨rfl, -⟩ := List.cons_prefix_cons.mp hprefix
        rw [Str.size_cons, Str.size_cons] at hcut
        rcases hcut with hsize | ⟨-, hsize⟩ <;> omega
  · rintro rfl
    exact ⟨[], List.nil_prefix, by simp [Str.Valid], Or.inl rfl⟩

/-- What is left is valid exactly if no character is cut. -/
theorem valid_limitReader_iff : (limitReader n s).Valid ↔ WholeRunes n s := by
  induction s generalizing n with
  | nil =>
      have hvalid : Str.Valid [] := by simp [Str.Valid]
      rw [limitReader]
      exact iff_of_true hvalid ⟨[], List.prefix_rfl, hvalid, Or.inr ⟨rfl, Nat.zero_le n⟩⟩
  | cons r s ih =>
      rw [limitReader]
      split_ifs with h
      · rw [wholeRunes_cons_of_le h, ← ih, Str.Valid, List.forall_mem_cons]
        rfl
      · rw [wholeRunes_cons_of_lt (not_le.mp h)]
        constructor
        · intro hvalid
          by_contra hpos
          have hlength := r.length_bytes
          obtain ⟨b, bytes, hbytes⟩ := List.exists_cons_of_length_pos (l := r.bytes.take n)
            (by rw [List.length_take]; omega)
          rw [hbytes] at hvalid
          cases hvalid _ List.mem_cons_self
        · rintro rfl
          simp [Str.Valid]

end WeighingSync.Go
