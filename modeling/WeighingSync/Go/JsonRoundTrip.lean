import WeighingSync.Go.JsonDecode

/-!
# What the decoder reads of what the encoder wrote

Decoding an encoded value gives the value back with its text repaired: `parseFirst_encode` for a
decoder that reads one value of a stream, `parse_encode_append` for one that wants the whole text.
-/

namespace WeighingSync.Go

/-! ## Strings -/

/-- The scanner has taken one rune into its result. -/
private def consResult (r : Rune) (p : Str × Str) : Str × Str := (r :: p.1, p.2)

theorem hexValue_hexDigit {d : ℕ} (h : d < 16) :
    Scan.hexValue (.char (hexDigit d)) = some d := by
  have hall : ∀ d < 16, Scan.hexValue (.char (hexDigit d)) = some d := by decide
  exact hall d h

/-- A unicode escape of a code outside the surrogates reads as its character. -/
theorem unquote_unicodeEscape {n : ℕ} (h : n < 0xD800 ∨ 0xE000 ≤ n) (hlt : n < 0x10000) (s : Str) :
    unquote (.plain none) (unicodeEscape n ++ s) =
      (unquote (.plain none) s).map (consResult (.char (Char.ofNat n))) := by
  have hacc : 16 * (16 * (16 * (n / 4096 % 16) + n / 256 % 16) + n / 16 % 16) + n % 16 = n := by
    omega
  have hemit : Scan.emit none n = ([.char (Char.ofNat n)], .plain none) := by
    rw [Scan.emit, if_neg (by omega), if_neg (by omega)]
    rfl
  have hdigit : ∀ m, Scan.hexValue (.char (hexDigit (m % 16))) = some (m % 16) := fun m =>
    hexValue_hexDigit (Nat.mod_lt m (by omega))
  simp [unicodeEscape, unquote, Scan.step, hdigit, hacc, hemit]
  rfl

/-- A one-rune escape reads as what it stands for. -/
theorem unquote_escape {r c : Rune} (h : Scan.unescape r = some c) (s : Str) :
    unquote (.plain none) (.char '\\' :: r :: s) =
      (unquote (.plain none) s).map (consResult c) := by
  have hu : r ≠ .char 'u' := by
    rintro rfl
    cases h
  simp [unquote, Scan.step, h, hu, Scan.flush]
  rfl

theorem unquote_escapeChar (c : Char) (s : Str) :
    unquote (.plain none) (escapeChar c ++ s) =
      (unquote (.plain none) s).map (consResult (.char c)) := by
  unfold escapeChar
  split_ifs with h1 h2 h3 h4 h5 h6 h7
  · rcases h1 with rfl | rfl
    · exact unquote_escape rfl s
    · exact unquote_escape rfl s
  · subst h2
    exact unquote_escape rfl s
  · subst h3
    exact unquote_escape rfl s
  · subst h4
    exact unquote_escape rfl s
  · subst h5
    exact unquote_escape rfl s
  · subst h6
    exact unquote_escape rfl s
  · have hlt : c.toNat < 0xD800 := by
      rcases h7 with h | h
      · omega
      · simp only [List.mem_cons, List.not_mem_nil, or_false] at h
        rcases h with rfl | rfl | rfl | rfl | rfl <;> decide
    rw [unquote_unicodeEscape (Or.inl hlt) (by omega), Char.ofNat_toNat]
  · have hquote : c ≠ '"' := fun h => h1 (Or.inl h)
    have hslash : c ≠ '\\' := fun h => h1 (Or.inr h)
    have hcontrol : ¬ c.toNat < 0x20 := fun h => h7 (Or.inl h)
    simp [unquote, Scan.step, hquote, hslash, Scan.isControl, hcontrol, Rune.repair, Scan.flush]
    rfl

/-- The scanner reads an escaped rune as the rune it stands for. -/
theorem unquote_escapeRune (r : Rune) (s : Str) :
    unquote (.plain none) (escapeRune r ++ s) =
      (unquote (.plain none) s).map (consResult r.repair) := by
  cases r with
  | char c => exact unquote_escapeChar c s
  | byte b => exact unquote_unicodeEscape (Or.inr (by omega)) (by omega) s

/-- A quoted string reads as its repaired text. -/
theorem unquote_quote (s rest : Str) :
    unquote (.plain none) (s.flatMap escapeRune ++ .char '"' :: rest) = some (s.repair, rest) := by
  induction s with
  | nil => rfl
  | cons r s ih =>
      rw [List.flatMap_cons, List.append_assoc, unquote_escapeRune, ih]
      rfl

/-! ## Tokens -/

/-- The text goes on with something that no number can contain. -/
def EndsNumber (rest : Str) : Prop := ∀ r ∈ rest.head?, isNumberRune r = false

theorem skipSpace_cons {r : Rune} (h : isJSONSpace r = false) (s : Str) :
    skipSpace (r :: s) = r :: s := by
  rw [skipSpace, List.dropWhile_cons_of_neg (by simp [h])]

theorem expect_self {r : Rune} (h : isJSONSpace r = false) (s : Str) :
    expect r (r :: s) = some s := by
  rw [expect, skipSpace_cons h]
  exact if_pos rfl

theorem expect_ne {r token : Rune} (h : isJSONSpace r = false) (hne : r ≠ token) (s : Str) :
    expect token (r :: s) = none := by
  rw [expect, skipSpace_cons h]
  exact if_neg hne

/-- A rune of a number begins no other token. -/
private theorem ne_of_isNumberRune {r : Rune} (h : isNumberRune r = true) :
    isJSONSpace r = false ∧ r ∉ [.char '\x7b', .char '\x7d', .char '[', .char ']', .char '"',
      .char 't', .char 'f', .char 'n', .char ','] := by
  constructor
  · cases r with
    | byte b => rfl
    | char c =>
        by_contra hspace
        simp only [isJSONSpace, List.mem_cons, List.not_mem_nil, or_false, Bool.not_eq_false,
          decide_eq_true_eq] at hspace
        rcases hspace with rfl | rfl | rfl | rfl <;> exact absurd h (by decide)
  · intro hmem
    simp only [List.mem_cons, List.not_mem_nil, or_false] at hmem
    rcases hmem with rfl | rfl | rfl | rfl | rfl | rfl | rfl | rfl | rfl <;>
      exact absurd h (by decide)

/-! ## Decoding an encoded value -/

namespace Json

/-- The text of a value begins with a rune that closes nothing. -/
theorem encode_head {j : Json} (h : j.WellFormed) :
    ∃ r t, j.encode = r :: t ∧ isJSONSpace r = false ∧ r ≠ .char ']' ∧ r ≠ .char '\x7d' := by
  cases j with
  | null => exact ⟨_, _, rfl, rfl, by decide, by decide⟩
  | bool b => cases b <;> exact ⟨_, _, rfl, rfl, by decide, by decide⟩
  | num literal =>
      obtain ⟨hvalid, hrunes⟩ := h
      cases literal with
      | nil => cases hvalid
      | cons r t =>
          obtain ⟨hspace, hmem⟩ := ne_of_isNumberRune (hrunes r List.mem_cons_self)
          simp only [List.mem_cons, List.not_mem_nil, or_false, not_or] at hmem
          exact ⟨r, t, rfl, hspace, hmem.2.2.2.1, hmem.2.1⟩
  | str s => exact ⟨_, _, rfl, rfl, by decide, by decide⟩
  | arr xs => exact ⟨_, _, rfl, rfl, by decide, by decide⟩
  | obj fields => exact ⟨_, _, rfl, rfl, by decide, by decide⟩

end Json

theorem value_num {literal rest : Str} {n : ℕ} (hvalid : validNumber literal = true)
    (hrunes : ∀ r ∈ literal, isNumberRune r = true) (hrest : EndsNumber rest) :
    value (n + 1) (literal ++ rest) = some (.num literal, rest) := by
  have htake : (literal ++ rest).takeWhile isNumberRune = literal := by
    rw [List.takeWhile_append_of_pos hrunes]
    cases rest with
    | nil => simp
    | cons r t => rw [List.takeWhile_cons_of_neg (by simp [hrest r rfl]), List.append_nil]
  have hdrop : (literal ++ rest).dropWhile isNumberRune = rest := by
    rw [List.dropWhile_append_of_pos hrunes]
    cases rest with
    | nil => simp
    | cons r t => rw [List.dropWhile_cons_of_neg (by simp [hrest r rfl])]
  cases literal with
  | nil => cases hvalid
  | cons r t =>
      obtain ⟨hspace, hmem⟩ := ne_of_isNumberRune (hrunes r List.mem_cons_self)
      simp only [List.mem_cons, List.not_mem_nil, or_false, not_or] at hmem
      rw [List.cons_append] at htake hdrop ⊢
      simp only [value, skipSpace_cons hspace, hmem, if_false, number, htake, hdrop, hvalid, if_true]

mutual

/-- The decoder reads an encoded value as the value it encodes, repaired. -/
theorem value_encode : ∀ (j : Json) (n : ℕ) (rest : Str), j.WellFormed → j.encode.length ≤ n →
    EndsNumber rest → value n (j.encode ++ rest) = some (j.repair, rest)
  | .null, n + 1, rest, _, _, _ => by
      simp [Json.encode, Str.lit, value, skipSpace, isJSONSpace, word, Json.repair]
  | .bool true, n + 1, rest, _, _, _ => by
      simp [Json.encode, formatBool, Str.lit, value, skipSpace, isJSONSpace, word, Json.repair]
  | .bool false, n + 1, rest, _, _, _ => by
      simp [Json.encode, formatBool, Str.lit, value, skipSpace, isJSONSpace, word, Json.repair]
  | .num literal, 0, rest, hwf, hn, _ => by
      have hnil : literal = [] := List.eq_nil_of_length_eq_zero (Nat.le_zero.mp hn)
      subst hnil
      exact absurd hwf.1 (by decide)
  | .num literal, n + 1, rest, hwf, _, hrest => value_num hwf.1 hwf.2 hrest
  | .str s, n + 1, rest, _, _, _ => by
      simp [Json.encode, quote, value, skipSpace, isJSONSpace, unquote_quote, Json.repair]
  | .arr [], n + 1, rest, _, _, _ => by
      simp [Json.encode, Json.encodeElements, value, skipSpace, isJSONSpace, expect]
  | .arr (x :: xs), n + 1, rest, hwf, hn, _ => by
      rw [Json.wellFormed_arr] at hwf
      obtain ⟨r, t, hxs, hspace, hclose, -⟩ := Json.encode_head (hwf x List.mem_cons_self)
      have hlen : (Json.encodeElements (x :: xs)).length < n := by
        simp only [Json.encode, List.length_cons, List.length_append, List.length_nil] at hn
        omega
      have helems := elements_encode x xs n rest hwf hlen
      have hnone : expect (.char ']') (Json.encodeElements (x :: xs) ++ .char ']' :: rest) = none := by
        rw [Json.encodeElements, hxs]
        exact expect_ne hspace hclose _
      simp [Json.encode, value, skipSpace, isJSONSpace, hnone, helems]
  | .obj [], n + 1, rest, _, _, _ => by
      simp [Json.encode, Json.encodeFields, value, skipSpace, isJSONSpace, expect]
  | .obj (f :: fields), n + 1, rest, hwf, hn, _ => by
      rw [Json.wellFormed_obj] at hwf
      have hlen : (Json.encodeFields (f :: fields)).length < n := by
        simp only [Json.encode, List.length_cons, List.length_append, List.length_nil] at hn
        omega
      have hfields := members_encode f fields n rest hwf hlen
      have hnone :
          expect (.char '\x7d') (Json.encodeFields (f :: fields) ++ .char '\x7d' :: rest) = none :=
        expect_ne rfl (by decide) _
      simp [Json.encode, value, skipSpace, isJSONSpace, hnone, hfields]

theorem elements_encode : ∀ (x : Json) (xs : List Json) (n : ℕ) (rest : Str),
    (∀ y ∈ x :: xs, y.WellFormed) → (Json.encodeElements (x :: xs)).length < n →
    elements n (Json.encodeElements (x :: xs) ++ .char ']' :: rest) =
      some ((x :: xs).map Json.repair, rest)
  | x, [], n + 1, rest, hwf, hn => by
      have hx := value_encode x n (.char ']' :: rest) (hwf x List.mem_cons_self)
        (by simp [Json.encodeElements] at hn; omega) (by rintro r ⟨⟩; rfl)
      simp [elements, Json.encodeElements, hx, expect_self, isJSONSpace]
  | x, y :: ys, n + 1, rest, hwf, hn => by
      have hlen : x.encode.length + (Json.encodeElements (y :: ys)).length < n := by
        rw [Json.encodeElements] at hn
        simp at hn
        omega
      have hx := value_encode x n (.char ',' :: (Json.encodeElements (y :: ys) ++ .char ']' :: rest))
        (hwf x List.mem_cons_self) (by omega) (by rintro r ⟨⟩; rfl)
      have hys := elements_encode y ys n rest (fun z hz => hwf z (List.mem_cons_of_mem x hz)) (by omega)
      rw [Json.encodeElements]
      simp [elements, hx, hys, expect_self, expect_ne, isJSONSpace]

theorem members_encode : ∀ (f : Str × Json) (fields : List (Str × Json)) (n : ℕ) (rest : Str),
    (∀ g ∈ f :: fields, g.2.WellFormed) → (Json.encodeFields (f :: fields)).length < n →
    members n (Json.encodeFields (f :: fields) ++ .char '\x7d' :: rest) =
      some ((f :: fields).map fun g => (g.1.repair, g.2.repair), rest)
  | (k, x), [], n + 1, rest, hwf, hn => by
      have hx := value_encode x n (.char '\x7d' :: rest) (hwf (k, x) List.mem_cons_self)
        (by simp [Json.encodeFields] at hn; omega) (by rintro r ⟨⟩; rfl)
      simp [members, Json.encodeFields, quote, unquote_quote, hx, expect_self, isJSONSpace]
  | (k, x), g :: gs, n + 1, rest, hwf, hn => by
      have hlen : x.encode.length + (Json.encodeFields (g :: gs)).length < n := by
        rw [Json.encodeFields] at hn
        simp at hn
        omega
      have hx := value_encode x n (.char ',' :: (Json.encodeFields (g :: gs) ++ .char '\x7d' :: rest))
        (hwf (k, x) List.mem_cons_self) (by omega) (by rintro r ⟨⟩; rfl)
      have hgs := members_encode g gs n rest (fun h hh => hwf h (List.mem_cons_of_mem _ hh)) (by omega)
      rw [Json.encodeFields]
      simp [members, quote, unquote_quote, hx, hgs, expect_self, expect_ne, isJSONSpace]

end

/-- Decoding the first value of a text that begins with an encoded value. -/
theorem parseFirst_encode_append {j : Json} (h : j.WellFormed) {rest : Str} (hrest : EndsNumber rest) :
    parseFirst (j.encode ++ rest) = some j.repair := by
  rw [parseFirst, value_encode j _ rest h (by simp; omega) hrest]
  rfl

/-- Decoding an encoded value and nothing else. -/
theorem parseFirst_encode {j : Json} (h : j.WellFormed) : parseFirst j.encode = some j.repair := by
  have hnil : EndsNumber [] := by simp [EndsNumber]
  simpa using parseFirst_encode_append h hnil

/-- Decoding an encoded value that white space may follow. -/
theorem parse_encode_append {j : Json} (h : j.WellFormed) {rest : Str}
    (hrest : skipSpace rest = []) : parse (j.encode ++ rest) = some j.repair := by
  have hends : EndsNumber rest := by
    intro r hr
    cases rest with
    | nil => cases hr
    | cons r' t =>
        cases hr
        by_contra hnum
        obtain ⟨hspace, -⟩ := ne_of_isNumberRune (by simpa using hnum)
        rw [skipSpace_cons hspace] at hrest
        cases hrest
  rw [parse, value_encode j _ rest h (by simp; omega) hends]
  exact if_pos hrest

/-- Decoding an encoded value that nothing follows. -/
theorem parse_encode {j : Json} (h : j.WellFormed) : parse j.encode = some j.repair := by
  have hend : skipSpace [] = [] := rfl
  simpa using parse_encode_append h hend

/-! ## Encoded text is valid UTF-8 -/

theorem valid_quote (s : Str) : (quote s).Valid := by
  have hescape : ∀ r, (escapeRune r).Valid := by
    intro r
    have hunicode : ∀ n, (unicodeEscape n).Valid := fun n => by
      simp [Str.Valid, unicodeEscape, Rune.repair]
    cases r with
    | char c =>
        rw [escapeRune, escapeChar]
        split_ifs <;> first | exact hunicode _ | simp [Str.Valid, Rune.repair]
    | byte b => exact hunicode _
  intro r hr
  simp only [quote, List.mem_cons, List.mem_append, List.mem_flatMap, List.not_mem_nil, or_false] at hr
  rcases hr with rfl | ⟨c, -, hr⟩ | rfl
  · rfl
  · exact hescape c r hr
  · rfl

mutual

theorem valid_encode : ∀ j : Json, j.WellFormed → j.encode.Valid
  | .null, _ => Str.valid_lit _
  | .bool b, _ => valid_formatBool b
  | .num literal, hwf => by
      intro r hr
      cases r with
      | char c => rfl
      | byte b => exact absurd (hwf.2 _ hr) (by simp [isNumberRune, Rune.isDigit])
  | .str s, _ => valid_quote s
  | .arr xs, hwf => by
      have helements := valid_encodeElements xs (Json.wellFormed_arr.mp hwf)
      rw [Json.encode, ← List.singleton_append, Str.valid_append, Str.valid_append]
      exact ⟨Str.valid_lit "[", helements, Str.valid_lit "]"⟩
  | .obj fields, hwf => by
      have hfields := valid_encodeFields fields (Json.wellFormed_obj.mp hwf)
      rw [Json.encode, ← List.singleton_append, Str.valid_append, Str.valid_append]
      exact ⟨Str.valid_lit "\x7b", hfields, Str.valid_lit "\x7d"⟩

theorem valid_encodeElements : ∀ xs : List Json, (∀ x ∈ xs, x.WellFormed) →
    (Json.encodeElements xs).Valid
  | [], _ => fun _ hr => absurd hr List.not_mem_nil
  | x :: xs, hwf => by
      have hx := valid_encode x (hwf x List.mem_cons_self)
      have hxs := valid_encodeElements xs fun y hy => hwf y (List.mem_cons_of_mem x hy)
      rw [Json.encodeElements, Str.valid_append]
      refine ⟨hx, ?_⟩
      split_ifs
      · exact fun _ hr => absurd hr List.not_mem_nil
      · exact List.forall_mem_cons.mpr ⟨rfl, hxs⟩

theorem valid_encodeFields : ∀ fields : List (Str × Json), (∀ f ∈ fields, f.2.WellFormed) →
    (Json.encodeFields fields).Valid
  | [], _ => fun _ hr => absurd hr List.not_mem_nil
  | (k, x) :: fields, hwf => by
      have hx := valid_encode x (hwf (k, x) List.mem_cons_self)
      have hfields := valid_encodeFields fields fun g hg => hwf g (List.mem_cons_of_mem _ hg)
      rw [Json.encodeFields, Str.valid_append]
      refine ⟨valid_quote k, List.forall_mem_cons.mpr ⟨rfl, Str.valid_append.mpr ⟨hx, ?_⟩⟩⟩
      split_ifs
      · exact fun _ hr => absurd hr List.not_mem_nil
      · exact List.forall_mem_cons.mpr ⟨rfl, hfields⟩

end

end WeighingSync.Go
