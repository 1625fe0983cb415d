import WeighingSync.Go.Json
import WeighingSync.Go.Order

/-!
# Numbers as 64-bit floats

`strconv.ParseFloat` and `strconv.FormatFloat` with precision -1, and the numbers that
`encoding/json` writes of floats. A literal is read as the float that is nearest to its value, and a
float is written with the fewest digits that are read as that float. The value of a literal survives
this exactly when it is the value of those digits (`literalValue_jsonFloat_iff`).
-/

namespace WeighingSync.Go

/-! ## Floats -/

/-- The integer nearest to a number, the even one of two. -/
def roundHalfEven (x : ℚ) : ℤ :=
  if x - ⌊x⌋ < 1 / 2 ∨ (x - ⌊x⌋ = 1 / 2 ∧ ⌊x⌋ % 2 = 0) then ⌊x⌋ else ⌊x⌋ + 1

/-- The number of 53 binary digits that is nearest to a number, with as few digits as there are left
where it is tiny. -/
def nearest (x : ℚ) : ℚ :=
  let ulp := max (Int.log 2 x - 52) (-1074)
  roundHalfEven (x / 2 ^ ulp) * 2 ^ ulp

/-- A finite `float64`. -/
structure Float64 where
  negative : Bool
  magnitude : ℚ
  deriving DecidableEq, Repr

/-- A decimal number, its digits and the exponent of the last: that digit is no zero. -/
structure DecimalSlice where
  digits : ℕ
  exponent : ℤ
  trimmed : 10 ∣ digits → exponent = 0 ∧ digits = 0
  deriving DecidableEq, Repr

/-- The number that a decimal stands for. -/
def DecimalSlice.value (x : DecimalSlice) : ℚ := x.digits * 10 ^ x.exponent

theorem not_dvd_trimmed {n : ℕ} (h : n ≠ 0) {p : Prop} (hdvd : 10 ∣ n.divMaxPow 10) : p :=
  absurd hdvd (Nat.not_dvd_divMaxPow (by decide) h)

/-- A multiple of a power of ten as a decimal. -/
def decimalSlice (n : ℕ) (exponent : ℤ) : DecimalSlice :=
  if h : n = 0 then ⟨0, 0, fun _ => ⟨rfl, rfl⟩⟩
  else ⟨n.divMaxPow 10, exponent + padicValNat 10 n, not_dvd_trimmed h⟩

/-- The integers next to a number in units of the digit that comes so many digits after its first, the
nearer one first. -/
def neighbours (v : ℚ) (digit : ℕ) : List ℕ :=
  let scaled := v / 10 ^ (Int.log 10 v - digit)
  let near := (roundHalfEven scaled).toNat
  [near, ⌊scaled⌋₊ + ⌈scaled⌉₊ - near]

/-- The decimal that ends with that digit, nearest to a float among those that are read as the float. -/
def readAs (v : ℚ) (digit : ℕ) : Option DecimalSlice :=
  let exponent := Int.log 10 v - digit
  ((neighbours v digit).find? fun n : ℕ => nearest (n * 10 ^ exponent) = v).map
    fun n => decimalSlice n exponent

/-- The shortest decimal that is read as a float. Seventeen digits are always enough. -/
def shortest (v : ℚ) : DecimalSlice :=
  ((List.range 16).findSome? (readAs v)).getD
    (decimalSlice ((neighbours v 16).headD 0) (Int.log 10 v - 16))

/-! ## Texts -/

/-- Format `f`: no exponent. -/
def DecimalSlice.fixed (x : DecimalSlice) : Str :=
  match x.exponent with
  | .ofNat zeros => natText (x.digits * 10 ^ zeros)
  | .negSucc places =>
      natText (x.digits / 10 ^ (places + 1)) ++
        .char '.' :: Go.digits (places + 1) (x.digits % 10 ^ (places + 1))

/-- Format `e`, as `encoding/json` cleans its exponent up: one digit before the point. -/
def DecimalSlice.scientific (x : DecimalSlice) : Str :=
  let text := natText x.digits
  let exponent := x.exponent + text.tail.length
  text.take 1 ++ (if text.tail = [] then [] else .char '.' :: text.tail) ++
    .char 'e' :: .char (if exponent < 0 then '-' else '+') :: natText exponent.natAbs

/-- The sign of a number. -/
def signText (negative : Bool) : Str := if negative then [.char '-'] else []

/-- `strconv.FormatFloat(f, 'f', -1, 64)`. -/
def formatFloat (f : Float64) : Str := signText f.negative ++ (shortest f.magnitude).fixed

/-- The float encoder of `encoding/json`, with a millionth itself for the float next to it. -/
def encodeFloat (f : Float64) : Str :=
  signText f.negative ++
    if f.magnitude ≠ 0 ∧ (f.magnitude < 1 / 10 ^ 6 ∨ 10 ^ 21 ≤ f.magnitude) then
      (shortest f.magnitude).scientific
    else (shortest f.magnitude).fixed

/-! ## Literals -/

/-- What the exponent of a literal says, the `e` included. -/
def exponentValue (s : Str) : ℤ :=
  let digits := s.tail
  if digits.head? = some (.char '-') then -((digitsValue digits.tail).getD 0 : ℤ)
  else if digits.head? = some (.char '+') then (digitsValue digits.tail).getD 0
  else (digitsValue digits).getD 0

/-- The magnitude of a literal that has no sign. -/
def unsignedValue (s : Str) : ℚ :=
  let integer := s.takeWhile Rune.isDigit
  let rest := s.dropWhile Rune.isDigit
  let point := rest.head? = some (.char '.')
  let fraction := if point then rest.tail.takeWhile Rune.isDigit else []
  let exponent := if point then rest.tail.dropWhile Rune.isDigit else rest
  (digitsValue (integer ++ fraction)).getD 0 * 10 ^ (exponentValue exponent - fraction.length)

/-- The literal has a minus sign. -/
def isNegative (literal : Str) : Bool := literal.head? = some (.char '-')

/-- The magnitude of a JSON number literal. -/
def literalMagnitude (literal : Str) : ℚ :=
  unsignedValue (if isNegative literal then literal.tail else literal)

/-- A number of that sign. -/
def signed (negative : Bool) (x : ℚ) : ℚ := if negative then -x else x

/-- The number that a JSON number literal denotes. -/
def literalValue (literal : Str) : ℚ := signed (isNegative literal) (literalMagnitude literal)

/-- `strconv.ParseFloat` of a JSON number literal; an error out of range. -/
def parseFloat (literal : Str) : Option Float64 :=
  let magnitude := nearest (literalMagnitude literal)
  if magnitude < 2 ^ 1024 then some ⟨isNegative literal, magnitude⟩ else none

/-- A literal after a trip through a `float64` of `encoding/json`. -/
def jsonFloat (literal : Str) : Option Str := (parseFloat literal).map encodeFloat

/-- A literal that is read as a float and printed in format `f`. -/
def fixedFloat (literal : Str) : Str := ((parseFloat literal).map formatFloat).getD []

/-- The literal has the value of the shortest decimal that is read as its float. -/
def KeptByFloat (literal : Str) : Prop :=
  (shortest (nearest (literalMagnitude literal))).value = literalMagnitude literal

instance (literal : Str) : Decidable (KeptByFloat literal) := decEq _ _

/-! ## What the texts say -/

theorem value_decimalSlice (n : ℕ) (exponent : ℤ) :
    (decimalSlice n exponent).value = n * 10 ^ exponent := by
  unfold decimalSlice
  split
  · next h => simp [DecimalSlice.value, h]
  · next h =>
      have hn : ((n.divMaxPow 10 * 10 ^ padicValNat 10 n : ℕ) : ℚ) = n := by
        rw [Nat.divMaxPow_mul_pow_padicValNat]
      calc ((n.divMaxPow 10 : ℕ) : ℚ) * 10 ^ (exponent + padicValNat 10 n)
          = ((n.divMaxPow 10 * 10 ^ padicValNat 10 n : ℕ) : ℚ) * 10 ^ exponent := by
            rw [zpow_add₀ (by norm_num), zpow_natCast]
            push_cast
            ring
        _ = n * 10 ^ exponent := by rw [hn]

/-- A decimal that is an integer has no digits after the point. -/
theorem fixed_of_value_eq {x : DecimalSlice} {n : ℕ} (h : x.value = n) : x.fixed = natText n := by
  unfold DecimalSlice.value at h
  unfold DecimalSlice.fixed
  cases hexponent : x.exponent with
  | ofNat zeros =>
      have hn : x.digits * 10 ^ zeros = n := by
        rw [hexponent, Int.ofNat_eq_natCast, zpow_natCast] at h
        exact_mod_cast h
      rw [← hn]
  | negSucc places =>
      have hdigits : x.digits = n * 10 ^ (places + 1) := by
        rw [hexponent, zpow_negSucc, ← div_eq_mul_inv, div_eq_iff (by positivity)] at h
        exact_mod_cast h
      have hdvd : 10 ∣ x.digits := hdigits ▸ Dvd.dvd.mul_left (dvd_pow_self 10 places.succ_ne_zero) n
      rw [(x.trimmed hdvd).1] at hexponent
      cases hexponent

theorem unsignedValue_integer {integer exponent : Str} (hinteger : ∀ r ∈ integer, r.isDigit = true)
    (hexponent : ∀ r ∈ exponent.head?, r.isDigit = false ∧ r ≠ .char '.') :
    unsignedValue (integer ++ exponent) =
      (digitsValue integer).getD 0 * 10 ^ exponentValue exponent := by
  have hpoint : exponent.head? ≠ some (.char '.') := fun h => (hexponent _ h).2 rfl
  unfold unsignedValue
  simp only [takeWhile_digits_append hinteger fun r hr => (hexponent r hr).1,
    dropWhile_digits_append hinteger fun r hr => (hexponent r hr).1, if_neg hpoint, List.append_nil,
    List.length_nil, Nat.cast_zero, sub_zero]

/-- Digits without a sign denote their value. -/
theorem literalValue_of_digitsValue {literal : Str} {n : ℕ} (h : digitsValue literal = some n) :
    literalValue literal = n := by
  have hdigits : literal ≠ [] ∧ literal.all Rune.isDigit = true := by
    unfold digitsValue at h
    split_ifs at h with hdigits
    exact hdigits
  have hall : ∀ r ∈ literal, r.isDigit = true := List.all_eq_true.mp hdigits.2
  have hsign : isNegative literal = false := by
    rw [isNegative, decide_eq_false_iff_not]
    intro hhead
    have hminus := hall _ (List.mem_of_mem_head? hhead)
    cases hminus
  have hvalue : unsignedValue (literal ++ []) = _ := unsignedValue_integer hall (by simp)
  rw [List.append_nil, h, Option.getD_some] at hvalue
  rw [literalValue, literalMagnitude, hsign, signed, if_neg Bool.false_ne_true,
    if_neg Bool.false_ne_true, hvalue, show exponentValue [] = 0 from rfl, zpow_zero, mul_one]

theorem unsignedValue_point {integer fraction exponent : Str}
    (hinteger : ∀ r ∈ integer, r.isDigit = true) (hfraction : ∀ r ∈ fraction, r.isDigit = true)
    (hexponent : ∀ r ∈ exponent.head?, r.isDigit = false) :
    unsignedValue (integer ++ .char '.' :: (fraction ++ exponent)) =
      (digitsValue (integer ++ fraction)).getD 0 *
        10 ^ (exponentValue exponent - fraction.length) := by
  have hpoint : ∀ r ∈ (Rune.char '.' :: (fraction ++ exponent)).head?, r.isDigit = false := by
    rintro r ⟨⟩
    rfl
  unfold unsignedValue
  simp only [takeWhile_digits_append hinteger hpoint, dropWhile_digits_append hinteger hpoint,
    List.head?_cons, if_true, List.tail_cons, takeWhile_digits_append hfraction hexponent,
    dropWhile_digits_append hfraction hexponent]

theorem unsignedValue_fixed (x : DecimalSlice) : unsignedValue x.fixed = x.value := by
  unfold DecimalSlice.fixed DecimalSlice.value
  cases x.exponent with
  | ofNat zeros =>
      have hvalue : unsignedValue (natText (x.digits * 10 ^ zeros) ++ []) = _ :=
        unsignedValue_integer isDigit_of_natText (by simp)
      rw [List.append_nil, digitsValue_natText] at hvalue
      simp only [hvalue, Option.getD_some]
      rw [show exponentValue [] = 0 from rfl, zpow_zero, mul_one, Int.ofNat_eq_natCast, zpow_natCast]
      push_cast
      rfl
  | negSucc places =>
      have hvalue : unsignedValue (natText (x.digits / 10 ^ (places + 1)) ++
          .char '.' :: (Go.digits (places + 1) (x.digits % 10 ^ (places + 1)) ++ [])) = _ :=
        unsignedValue_point isDigit_of_natText (fun r => isDigit_of_mem_digits) (by simp)
      rw [List.append_nil, digitsValue_append_digits _ (Nat.mod_lt _ (by positivity)),
        Nat.div_add_mod'] at hvalue
      simp only [hvalue, Option.getD_some, length_digits]
      rw [show exponentValue [] = 0 from rfl, zero_sub, Int.negSucc_eq]
      push_cast
      rfl

theorem exponentValue_text (exponent : ℤ) : exponentValue
    (.char 'e' :: .char (if exponent < 0 then '-' else '+') :: natText exponent.natAbs) =
      exponent := by
  unfold exponentValue
  by_cases h : exponent < 0
  · simp only [List.tail_cons, List.head?_cons, if_pos h, if_true, digitsValue_natText,
      Option.getD_some]
    omega
  · simp only [List.tail_cons, List.head?_cons, if_neg h, if_true, digitsValue_natText,
      Option.getD_some]
    rw [if_neg (by decide)]
    omega

theorem unsignedValue_scientific (x : DecimalSlice) : unsignedValue x.scientific = x.value := by
  have hall : ∀ r ∈ natText x.digits, r.isDigit = true := isDigit_of_natText
  have hvalue := digitsValue_natText x.digits
  obtain ⟨first, rest, htext⟩ := List.exists_cons_of_ne_nil (natText_ne_nil x.digits)
  unfold DecimalSlice.scientific DecimalSlice.value
  simp only [htext, List.tail_cons, List.take_succ_cons, List.take_zero]
  rw [htext] at hall hvalue
  obtain ⟨hfirst, hrest⟩ := List.forall_mem_cons.mp hall
  set exponent := x.exponent + rest.length with hexponent
  have hmark : ∀ r ∈ (Rune.char 'e' ::
      .char (if exponent < 0 then '-' else '+') :: natText exponent.natAbs).head?,
      r.isDigit = false ∧ r ≠ .char '.' := by
    rintro r ⟨⟩
    exact ⟨rfl, by decide⟩
  by_cases hnil : rest = []
  · subst hnil
    rw [if_pos rfl, List.append_nil, unsignedValue_integer hall hmark, hvalue, exponentValue_text,
      hexponent]
    simp
  · have hpoint := unsignedValue_point (List.forall_mem_singleton.mpr hfirst) hrest
      fun r hr => (hmark r hr).1
    have hdigits : digitsValue ([first] ++ rest) = some x.digits := hvalue
    rw [exponentValue_text, hdigits, hexponent, add_sub_cancel_right] at hpoint
    rw [if_neg hnil]
    exact hpoint

/-! ## What the texts are made of -/

/-- A text of digits, with what may follow the integer part of a number. -/
structure UnsignedText (s : Str) : Prop where
  valid : validUnsigned s = true
  runes : ∀ r ∈ s, isNumberRune r = true

theorem validUnsigned_cons {first : Rune} {rest : Str} (hfirst : first.isDigit = true)
    (hrest : ∀ r ∈ rest.head?, r.isDigit = false) :
    validUnsigned (first :: rest) = validFraction rest := by
  have hdrop : rest.dropWhile Rune.isDigit = rest := dropWhile_digits_append (s := []) (by simp) hrest
  rw [validUnsigned, hfirst, hdrop, Bool.true_and, ite_self]

theorem validExponent_text (exponent : ℤ) : validExponent
    (.char 'e' :: .char (if exponent < 0 then '-' else '+') :: natText exponent.natAbs) = true := by
  have hdigits : (natText exponent.natAbs).all Rune.isDigit = true :=
    List.all_eq_true.mpr isDigit_of_natText
  have hnil : (natText exponent.natAbs).isEmpty = false :=
    List.isEmpty_eq_false_iff.mpr (natText_ne_nil _)
  split_ifs <;> simp [validExponent, hdigits, hnil]

theorem unsignedText_fixed (x : DecimalSlice) : UnsignedText x.fixed := by
  have hdigits : ∀ n, ∀ r ∈ natText n, isNumberRune r = true :=
    fun n r hr => isNumberRune_of_isDigit (isDigit_of_natText r hr)
  unfold DecimalSlice.fixed
  cases x.exponent with
  | ofNat zeros => exact ⟨validUnsigned_natText _, hdigits _⟩
  | negSucc places =>
      constructor
      · rw [validUnsigned_natText_append _ (by rintro r ⟨⟩; rfl), validFraction, if_pos rfl]
        have hdrop : (Go.digits (places + 1) (x.digits % 10 ^ (places + 1))).dropWhile Rune.isDigit = [] :=
          List.dropWhile_eq_nil_iff.mpr fun r => isDigit_of_mem_digits
        rw [hdrop, validExponent, Bool.and_true, Go.digits, List.head?_cons, Option.any_some]
        have hmem : Rune.char (Nat.digitChar (x.digits % 10 ^ (places + 1) / 10 ^ places % 10)) ∈
            Go.digits (places + 1) (x.digits % 10 ^ (places + 1)) := List.mem_cons_self
        exact isDigit_of_mem_digits hmem
      · intro r hr
        rcases List.mem_append.mp hr with hr | hr
        · exact hdigits _ r hr
        · rcases List.mem_cons.mp hr with rfl | hr
          · rfl
          · exact isNumberRune_of_isDigit (isDigit_of_mem_digits hr)

theorem unsignedText_scientific (x : DecimalSlice) : UnsignedText x.scientific := by
  have hall : ∀ r ∈ natText x.digits, r.isDigit = true := isDigit_of_natText
  obtain ⟨first, rest, htext⟩ := List.exists_cons_of_ne_nil (natText_ne_nil x.digits)
  unfold DecimalSlice.scientific
  simp only [htext, List.tail_cons, List.take_succ_cons, List.take_zero]
  rw [htext] at hall
  obtain ⟨hfirst, hrest⟩ := List.forall_mem_cons.mp hall
  have hexponent := validExponent_text (x.exponent + rest.length)
  set exponent := Rune.char 'e' :: .char (if x.exponent + rest.length < 0 then '-' else '+') ::
    natText (x.exponent + rest.length).natAbs with htail
  have hrunes : ∀ r ∈ exponent, isNumberRune r = true := by
    rw [htail]
    refine List.forall_mem_cons.mpr ⟨rfl, List.forall_mem_cons.mpr ⟨?_, fun r hr =>
      isNumberRune_of_isDigit (isDigit_of_natText r hr)⟩⟩
    split_ifs <;> rfl
  by_cases hnil : rest = []
  · rw [if_pos hnil, List.append_nil]
    constructor
    · rw [List.singleton_append, validUnsigned_cons hfirst (by rw [htail]; rintro r ⟨⟩; rfl)]
      rw [htail] at hexponent ⊢
      rw [validFraction, if_neg (by decide), hexponent]
    · exact List.forall_mem_cons.mpr ⟨isNumberRune_of_isDigit hfirst, hrunes⟩
  · obtain ⟨second, digits, rfl⟩ := List.exists_cons_of_ne_nil hnil
    rw [if_neg hnil]
    constructor
    · show validUnsigned (first :: .char '.' :: (second :: digits ++ exponent)) = true
      rw [validUnsigned_cons hfirst (by rintro r ⟨⟩; rfl), validFraction, if_pos rfl,
        dropWhile_digits_append hrest (by rw [htail]; rintro r ⟨⟩; rfl), hexponent, Bool.and_true]
      exact hrest second List.mem_cons_self
    · show ∀ r ∈ first :: .char '.' :: (second :: digits ++ exponent), isNumberRune r = true
      refine List.forall_mem_cons.mpr ⟨isNumberRune_of_isDigit hfirst, List.forall_mem_cons.mpr ⟨rfl, ?_⟩⟩
      intro r hr
      rcases List.mem_append.mp hr with hr | hr
      · exact isNumberRune_of_isDigit (hrest r hr)
      · exact hrunes r hr

/-! ## Literals that come back -/

theorem UnsignedText.isNegative_sign {s : Str} (h : UnsignedText s) (negative : Bool) :
    isNegative (signText negative ++ s) = negative := by
  cases negative with
  | true => rfl
  | false =>
      have hvalid := h.valid
      cases s with
      | nil => rfl
      | cons r s =>
          refine decide_eq_false ?_
          intro hminus
          cases hminus
          cases hvalid

theorem UnsignedText.literalMagnitude_sign {s : Str} (h : UnsignedText s) (negative : Bool) :
    literalMagnitude (signText negative ++ s) = unsignedValue s := by
  rw [literalMagnitude, h.isNegative_sign]
  cases negative <;> rfl

theorem UnsignedText.wellFormed_sign {s : Str} (h : UnsignedText s) (negative : Bool) :
    (Json.num (signText negative ++ s)).WellFormed := by
  have hunsigned := h.isNegative_sign false
  cases negative with
  | true => exact ⟨h.valid, List.forall_mem_cons.mpr ⟨rfl, h.runes⟩⟩
  | false =>
      refine ⟨?_, h.runes⟩
      cases s with
      | nil => exact h.valid
      | cons r s =>
          have hminus : r ≠ .char '-' := by
            rintro rfl
            cases hunsigned
          exact (if_neg hminus).trans h.valid

/-- A float is written as its sign and a text of its shortest decimal. -/
theorem exists_unsignedText (f : Float64) : ∃ s, encodeFloat f = signText f.negative ++ s ∧
    UnsignedText s ∧ unsignedValue s = (shortest f.magnitude).value := by
  unfold encodeFloat
  split_ifs
  · exact ⟨_, rfl, unsignedText_scientific _, unsignedValue_scientific _⟩
  · exact ⟨_, rfl, unsignedText_fixed _, unsignedValue_fixed _⟩

/-- `encoding/json` writes a float as a JSON number. -/
theorem wellFormed_jsonFloat {literal t : Str} (h : jsonFloat literal = some t) :
    (Json.num t).WellFormed := by
  obtain ⟨f, -, rfl⟩ := Option.map_eq_some_iff.mp h
  obtain ⟨s, hs, htext, -⟩ := exists_unsignedText f
  rw [hs]
  exact htext.wellFormed_sign _

theorem parseFloat_eq_some {literal : Str} {f : Float64} (h : parseFloat literal = some f) :
    f = ⟨isNegative literal, nearest (literalMagnitude literal)⟩ := by
  simp only [parseFloat] at h
  split_ifs at h
  exact (Option.some.inj h).symm

/-- What a literal is written as has the sign of the literal and the value of the shortest decimal. -/
theorem literalMagnitude_jsonFloat {literal t : Str} (h : jsonFloat literal = some t) :
    isNegative t = isNegative literal ∧
      literalMagnitude t = (shortest (nearest (literalMagnitude literal))).value := by
  obtain ⟨f, hf, rfl⟩ := Option.map_eq_some_iff.mp h
  obtain ⟨s, hs, htext, hvalue⟩ := exists_unsignedText f
  rw [parseFloat_eq_some hf] at hs hvalue ⊢
  rw [hs, htext.isNegative_sign, htext.literalMagnitude_sign, hvalue]
  exact ⟨rfl, rfl⟩

theorem signed_inj {negative : Bool} {x y : ℚ} : signed negative x = signed negative y ↔ x = y := by
  cases negative with
  | true => exact neg_inj
  | false => exact Iff.rfl

/-- The value of a literal survives a float exactly when it is that of the shortest decimal. -/
theorem literalValue_jsonFloat_iff {literal t : Str} (h : jsonFloat literal = some t) :
    literalValue t = literalValue literal ↔ KeptByFloat literal := by
  obtain ⟨hsign, hmagnitude⟩ := literalMagnitude_jsonFloat h
  rw [literalValue, literalValue, hsign, signed_inj, hmagnitude]
  rfl

/-- The digits of an integer, after its sign. -/
def integerText (negative : Bool) (n : ℕ) : Str := signText negative ++ natText n

/-- An integer that a float keeps is printed with its own digits, also from what it was written as. -/
theorem fixedFloat_jsonFloat {literal t : Str} (h : jsonFloat literal = some t)
    (hkept : KeptByFloat literal) {n : ℕ} (hn : literalMagnitude literal = n) :
    fixedFloat t = integerText (isNegative literal) n := by
  obtain ⟨hsign, hmagnitude⟩ := literalMagnitude_jsonFloat h
  obtain ⟨f, hf, -⟩ := Option.map_eq_some_iff.mp h
  have hsame : parseFloat t = parseFloat literal := by
    rw [parseFloat, parseFloat, hsign, hmagnitude.trans hkept]
  have hvalue : (shortest f.magnitude).value = n := by
    rw [parseFloat_eq_some hf]
    exact hkept.trans hn
  rw [fixedFloat, hsame, hf, Option.map_some, Option.getD_some, formatFloat,
    fixed_of_value_eq hvalue, parseFloat_eq_some hf]
  rfl

/-! ## Integers that a float keeps -/

theorem roundHalfEven_intCast (n : ℤ) : roundHalfEven n = n := by
  rw [roundHalfEven, Int.floor_intCast, sub_self, if_pos (Or.inl (by norm_num))]

theorem floor_le_roundHalfEven (x : ℚ) : ⌊x⌋ ≤ roundHalfEven x := by
  unfold roundHalfEven
  split_ifs <;> omega

/-- An integer below 2^53 is a float. -/
theorem nearest_natCast {n : ℕ} (h : n < 2 ^ 53) : nearest n = n := by
  have hlog : Int.log 2 (n : ℚ) ≤ 52 := by
    rw [Int.log_natCast]
    have hlt := Nat.log_lt_of_lt_pow' (b := 2) (by decide) h
    omega
  simp only [nearest]
  obtain ⟨zeros, hzeros⟩ : ∃ zeros : ℕ, max (Int.log 2 (n : ℚ) - 52) (-1074) = -zeros :=
    ⟨(-max (Int.log 2 (n : ℚ) - 52) (-1074)).toNat, by omega⟩
  have hscaled : (n : ℚ) / 2 ^ (-zeros : ℤ) = ((n * 2 ^ zeros : ℕ) : ℤ) := by
    rw [zpow_neg, div_inv_eq_mul, zpow_natCast]
    push_cast
    rfl
  rw [hzeros, hscaled, roundHalfEven_intCast, ← hscaled, div_mul_cancel₀ _ (by positivity)]

/-- A number from 2^53 on is read as such a float. -/
theorem le_nearest {x : ℚ} (h : 2 ^ 53 ≤ x) : 2 ^ 53 ≤ nearest x := by
  have hpos : 0 < x := lt_of_lt_of_le (by norm_num) h
  have hlog : 53 ≤ Int.log 2 x := by
    rw [← Int.zpow_le_iff_le_log (by decide) hpos]
    exact_mod_cast h
  have hulp : max (Int.log 2 x - 52) (-1074) = Int.log 2 x - 52 := max_eq_left (by omega)
  have hdigits : (2 : ℚ) ^ 52 ≤ x / 2 ^ (Int.log 2 x - 52) := by
    rw [le_div_iff₀ (by positivity), ← zpow_natCast, ← zpow_add₀ (by norm_num)]
    refine le_trans (le_of_eq ?_) (Int.zpow_log_le_self (b := 2) (by decide) hpos)
    congr 1
    push_cast
    omega
  have hround : ((2 ^ 52 : ℤ) : ℚ) ≤ roundHalfEven (x / 2 ^ (Int.log 2 x - 52)) := by
    refine Int.cast_le.mpr (le_trans (Int.le_floor.mpr ?_) (floor_le_roundHalfEven _))
    exact_mod_cast hdigits
  simp only [nearest, hulp]
  calc (2 : ℚ) ^ 53 ≤ 2 ^ (Int.log 2 x) := by
        rw [← zpow_natCast]
        exact zpow_le_zpow_right₀ (by norm_num) hlog
    _ = ((2 ^ 52 : ℤ) : ℚ) * 2 ^ (Int.log 2 x - 52) := by
        rw [zpow_sub₀ (by norm_num)]
        norm_num
        ring
    _ ≤ _ := mul_le_mul_of_nonneg_right hround (by positivity)

theorem neighbours_of_natCast {v : ℚ} {digit k : ℕ} (h : v / 10 ^ (Int.log 10 v - digit) = k) :
    neighbours v digit = [k, k] := by
  have hround : roundHalfEven (k : ℚ) = k := by exact_mod_cast roundHalfEven_intCast (k : ℤ)
  simp only [neighbours, h, hround, Int.toNat_natCast, Nat.floor_natCast, Nat.ceil_natCast,
    Nat.add_sub_cancel]

/-- The last digit is that of the units or comes after it, so that an integer is its own neighbour. -/
theorem eq_of_mem_neighbours {n digit m : ℕ} (h : Int.log 10 (n : ℚ) ≤ digit)
    (hm : m ∈ neighbours n digit) : (m : ℚ) * 10 ^ (Int.log 10 (n : ℚ) - digit) = n := by
  obtain ⟨zeros, hzeros⟩ : ∃ zeros : ℕ, Int.log 10 (n : ℚ) - digit = -zeros :=
    ⟨(digit - Int.log 10 (n : ℚ)).toNat, by omega⟩
  have hscaled : (n : ℚ) / 10 ^ (Int.log 10 (n : ℚ) - digit) = (n * 10 ^ zeros : ℕ) := by
    rw [hzeros, zpow_neg, div_inv_eq_mul, zpow_natCast]
    push_cast
    rfl
  have hmem : m = n * 10 ^ zeros := by simpa [neighbours_of_natCast hscaled] using hm
  rw [hmem, ← hscaled, div_mul_cancel₀ _ (by positivity)]

theorem value_shortest {n : ℕ} (h : n < 2 ^ 53) : (shortest n).value = n := by
  cases hfound : (List.range 16).findSome? (readAs n) with
  | none =>
      have hlog : Int.log 10 (n : ℚ) ≤ 16 := by
        rw [Int.log_natCast]
        have hlt := Nat.log_lt_of_lt_pow' (b := 10) (by decide) (show n < 10 ^ 16 by omega)
        omega
      rw [shortest, hfound, Option.getD_none, value_decimalSlice]
      exact eq_of_mem_neighbours hlog List.mem_cons_self
  | some x =>
      rw [shortest, hfound, Option.getD_some]
      obtain ⟨digit, -, hread⟩ := List.exists_of_findSome?_eq_some hfound
      obtain ⟨m, hm, rfl⟩ := Option.map_eq_some_iff.mp hread
      have hnearest : nearest (m * 10 ^ (Int.log 10 (n : ℚ) - digit)) = n := by
        simpa using List.find?_some hm
      rw [value_decimalSlice]
      rcases le_or_gt (Int.log 10 (n : ℚ)) digit with hlog | hlog
      · exact eq_of_mem_neighbours hlog (List.mem_of_find?_eq_some hm)
      · -- a multiple of ten that is read as the integer is the integer
        obtain ⟨zeros, hzeros⟩ : ∃ zeros : ℕ, Int.log 10 (n : ℚ) - digit = zeros :=
          ⟨(Int.log 10 (n : ℚ) - digit).toNat, by omega⟩
        have hcast : (m : ℚ) * 10 ^ (Int.log 10 (n : ℚ) - digit) = (m * 10 ^ zeros : ℕ) := by
          rw [hzeros, zpow_natCast]
          push_cast
          rfl
        rw [hcast] at hnearest ⊢
        by_cases hlt : m * 10 ^ zeros < 2 ^ 53
        · rwa [nearest_natCast hlt] at hnearest
        · have hle := le_nearest (x := (m * 10 ^ zeros : ℕ)) (by exact_mod_cast not_lt.mp hlt)
          rw [hnearest] at hle
          exact absurd h (not_lt.mpr (by exact_mod_cast hle))

/-- A float keeps every integer below 2^53. -/
theorem keptByFloat_of_lt {literal : Str} {n : ℕ} (hn : literalMagnitude literal = n)
    (h : n < 2 ^ 53) : KeptByFloat literal := by
  rw [KeptByFloat, hn, nearest_natCast h, value_shortest h]

end WeighingSync.Go
