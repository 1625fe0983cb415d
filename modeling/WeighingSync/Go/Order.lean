import WeighingSync.Go.Strings

/-!
# The order of texts

Texts compare rune by rune, a prefix before its extensions. Where two texts first differ decides, so
equal beginnings can be dropped (`lt_append_left`) and, after texts of one length that differ,
anything may follow (`lt_append_right`). Decimal texts of one width are in the order of their values
(`lt_digits`).
-/

namespace WeighingSync.Go

private theorem char_toNat_lt (c : Char) : c.toNat < 0x110000 := by
  rcases c.valid with h | ⟨-, h⟩
  · exact h.trans (by decide)
  · exact h

theorem Rune.code_injective : Function.Injective Rune.code := by
  intro r r' h
  cases r with
  | char c =>
      cases r' with
      | char d => rw [Rune.char.injEq, ← Char.toNat_inj]; exact h
      | byte b =>
          have hlt := char_toNat_lt c
          simp only [Rune.code] at h
          omega
  | byte b =>
      cases r' with
      | char d =>
          have hlt := char_toNat_lt d
          simp only [Rune.code] at h
          omega
      | byte b' =>
          simp only [Rune.code, Nat.add_left_cancel_iff] at h
          rw [UInt8.toNat_inj.mp h]

namespace Str

theorem lt_cons (a b : Rune) (s t : Str) :
    lt (a :: s) (b :: t) = true ↔ a.code < b.code ∨ (a = b ∧ lt s t = true) := by
  rw [lt, Bool.or_eq_true, Bool.and_eq_true, decide_eq_true_eq, beq_iff_eq,
    Rune.code_injective.eq_iff]

@[simp] theorem lt_self (s : Str) : lt s s = false := by
  induction s with
  | nil => rfl
  | cons a s ih =>
      rw [Bool.eq_false_iff, Ne, lt_cons, ih]
      simp

/-- Of two texts one is before the other, or they are the same. -/
theorem lt_trichotomy (s t : Str) : lt s t = true ∨ s = t ∨ lt t s = true := by
  induction s generalizing t with
  | nil =>
      cases t with
      | nil => exact Or.inr (Or.inl rfl)
      | cons b t => exact Or.inl rfl
  | cons a s ih =>
      cases t with
      | nil => exact Or.inr (Or.inr rfl)
      | cons b t =>
          rw [lt_cons, lt_cons]
          rcases Nat.lt_trichotomy a.code b.code with h | h | h
          · exact Or.inl (Or.inl h)
          · obtain rfl := Rune.code_injective h
            rcases ih t with hst | rfl | hts
            · exact Or.inl (Or.inr ⟨rfl, hst⟩)
            · exact Or.inr (Or.inl rfl)
            · exact Or.inr (Or.inr (Or.inr ⟨rfl, hts⟩))
          · exact Or.inr (Or.inr (Or.inl h))

theorem lt_trans {s t u : Str} (hst : lt s t = true) (htu : lt t u = true) : lt s u = true := by
  induction s generalizing t u with
  | nil =>
      cases u with
      | nil => cases t <;> cases htu
      | cons c u => rfl
  | cons a s ih =>
      cases t with
      | nil => cases hst
      | cons b t =>
          cases u with
          | nil => cases htu
          | cons c u =>
              rw [lt_cons] at hst htu ⊢
              rcases hst with hab | ⟨rfl, hst⟩
              · rcases htu with hbc | ⟨rfl, -⟩
                · exact Or.inl (hab.trans hbc)
                · exact Or.inl hab
              · rcases htu with hbc | ⟨rfl, htu⟩
                · exact Or.inl hbc
                · exact Or.inr ⟨rfl, ih hst htu⟩

theorem lt_asymm {s t : Str} (h : lt s t = true) : lt t s = false := by
  by_contra hts
  have hss := lt_trans h (by simpa using hts)
  rw [lt_self] at hss
  cases hss

/-- What two texts have in common at the beginning does not count. -/
@[simp] theorem lt_append_left (p s t : Str) : lt (p ++ s) (p ++ t) = lt s t := by
  induction p with
  | nil => rfl
  | cons a p ih => rw [List.cons_append, List.cons_append, lt, ih]; simp

/-- What follows two texts of one length that differ does not count. -/
theorem lt_append_right {s t : Str} (hlen : s.length = t.length) (h : lt s t = true) (u v : Str) :
    lt (s ++ u) (t ++ v) = true := by
  induction s generalizing t with
  | nil =>
      cases List.length_eq_zero_iff.mp hlen.symm
      cases h
  | cons a s ih =>
      cases t with
      | nil => cases h
      | cons b t =>
          rw [List.cons_append, List.cons_append, lt_cons]
          rw [lt_cons] at h
          exact h.imp_right fun hst => ⟨hst.1, ih (by simpa using hlen) hst.2⟩

end Str

/-! ## Decimal texts of a fixed width -/

/-- The last decimal digits of a number, as many as the width. -/
def digits : ℕ → ℕ → Str
  | 0, _ => []
  | width + 1, n => .char (Nat.digitChar (n / 10 ^ width % 10)) :: digits width n

@[simp] theorem length_digits (width n : ℕ) : (digits width n).length = width := by
  induction width with
  | zero => rfl
  | succ width ih => rw [digits, List.length_cons, ih]

theorem code_digitChar {d : ℕ} (h : d < 10) : (Rune.char (Nat.digitChar d)).code = 48 + d := by
  have hall : ∀ d < 10, (Rune.char (Nat.digitChar d)).code = 48 + d := by decide
  exact hall d h

theorem code_of_mem_digits {width n : ℕ} {r : Rune} (h : r ∈ digits width n) :
    48 ≤ r.code ∧ r.code < 58 := by
  induction width with
  | zero => cases h
  | succ width ih =>
      rcases List.mem_cons.mp h with rfl | h
      · have hlt : n / 10 ^ width % 10 < 10 := Nat.mod_lt _ (by decide)
        rw [code_digitChar hlt]
        omega
      · exact ih h

theorem digits_mod (width n : ℕ) : ∀ k, width ≤ k → digits width (n % 10 ^ k) = digits width n := by
  induction width with
  | zero => exact fun _ _ => rfl
  | succ width ih =>
      intro k hk
      have hdigit : n % 10 ^ k / 10 ^ width % 10 = n / 10 ^ width % 10 := by
        obtain ⟨m, rfl⟩ : ∃ m, k = width + 1 + m := ⟨k - (width + 1), by omega⟩
        rw [pow_add, pow_succ, mul_assoc, Nat.mod_mul_right_div_self, Nat.mod_mul_right_mod]
      rw [digits, digits, hdigit, ih k (by omega)]

/-- Of two numbers of one width, the smaller one has the smaller text. -/
theorem lt_digits {width m n : ℕ} (h : m < n) (hn : n < 10 ^ width) :
    Str.lt (digits width m) (digits width n) = true := by
  induction width generalizing m n with
  | zero =>
      rw [pow_zero] at hn
      omega
  | succ width ih =>
      have hpos : 0 < 10 ^ width := Nat.pow_pos (by decide)
      have hnq : n / 10 ^ width < 10 := (Nat.div_lt_iff_lt_mul hpos).mpr (by rwa [← pow_succ'])
      have hmq : m / 10 ^ width ≤ n / 10 ^ width := Nat.div_le_div_right h.le
      rw [digits, digits, Str.lt_cons, Nat.mod_eq_of_lt hnq, Nat.mod_eq_of_lt (by omega),
        code_digitChar hnq, code_digitChar (by omega)]
      rcases hmq.lt_or_eq with hlt | heq
      · exact Or.inl (by omega)
      · -- the leading digits are equal, so the rest decides
        refine Or.inr ⟨by rw [heq], ?_⟩
        rw [← digits_mod width m width le_rfl, ← digits_mod width n width le_rfl]
        refine ih ?_ (Nat.mod_lt n hpos)
        have hm := Nat.div_add_mod m (10 ^ width)
        have hnn := Nat.div_add_mod n (10 ^ width)
        rw [heq] at hm
        omega

theorem isDigit_of_mem_digits {width n : ℕ} {r : Rune} (h : r ∈ digits width n) : r.isDigit = true := by
  have hall : ∀ d < 10, (Nat.digitChar d).isDigit = true := by decide
  induction width with
  | zero => cases h
  | succ width ih =>
      rw [digits, List.mem_cons] at h
      rcases h with rfl | h
      · exact hall _ (Nat.mod_lt _ (by decide))
      · exact ih h

theorem ofDigitChars_digits {char : Rune → Option Char} (hchar : ∀ c, char (.char c) = some c)
    (n width init : ℕ) : Nat.ofDigitChars 10 ((digits width n).filterMap char) init =
      init * 10 ^ width + n % 10 ^ width := by
  induction width generalizing init with
  | zero => simp [digits, Nat.mod_one]
  | succ width ih =>
      rw [digits, List.filterMap_cons_some (hchar _),
        Nat.ofDigitChars_cons_digitChar_of_lt_ten (Nat.mod_lt _ (by decide)), ih, Nat.mod_pow_succ]
      ring

/-- Digits of a fixed width are read as the number. -/
theorem digitsValue_digits {width n : ℕ} (hwidth : 0 < width) (hn : n < 10 ^ width) :
    digitsValue (digits width n) = some n := by
  have hnil : digits width n ≠ [] := by
    rw [← List.length_pos_iff, length_digits]
    exact hwidth
  rw [digitsValue, if_pos ⟨hnil, List.all_eq_true.mpr fun r => isDigit_of_mem_digits⟩,
    ofDigitChars_digits fun _ => rfl, zero_mul, zero_add, Nat.mod_eq_of_lt hn]

/-- A number, and after it the digits of a number of that width. -/
theorem digitsValue_append_digits (a : ℕ) {width b : ℕ} (hb : b < 10 ^ width) :
    digitsValue (natText a ++ digits width b) = some (a * 10 ^ width + b) := by
  have hall : ∀ r ∈ natText a ++ digits width b, r.isDigit = true := by
    intro r hr
    rcases List.mem_append.mp hr with hr | hr
    · exact isDigit_of_natText r hr
    · exact isDigit_of_mem_digits hr
  have hnil : natText a ++ digits width b ≠ [] := by
    intro hnil
    exact natText_ne_nil a (List.append_eq_nil_iff.mp hnil).1
  rw [digitsValue, if_pos ⟨hnil, List.all_eq_true.mpr hall⟩, List.filterMap_append,
    Nat.ofDigitChars_append, ofDigitChars_digits fun _ => rfl, Nat.mod_eq_of_lt hb, natText,
    List.filterMap_map]
  simp [Nat.ofDigitChars_ten_toDigits]

end WeighingSync.Go
