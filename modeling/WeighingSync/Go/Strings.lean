import Mathlib

/-!
# Go strings

A Go string is a byte sequence that `range` reads as runes. A `Str` is what that reading gives: the
decoded characters, with a byte that starts no valid UTF-8 sequence kept as itself. The functions
here follow the `strings`, `strconv` and `unicode` packages.
-/

namespace WeighingSync.Go

/-- One step of reading a string: a decoded character, or a byte that decodes to none. -/
inductive Rune
  | char (c : Char)
  | byte (b : UInt8)
  deriving DecidableEq, Repr

/-- A Go string, rune by rune. -/
abbrev Str := List Rune

instance : LawfulBEq Str := inferInstance

namespace Rune

/-- U+FFFD, which stands for a byte that decodes to no character. -/
def replacement : Rune := .char '\uFFFD'

/-- What a decoder that repairs its input makes of a rune. -/
def repair : Rune → Rune
  | .char c => .char c
  | .byte _ => replacement

/-- The bytes a rune occupies. -/
def size : Rune → ℕ
  | .char c => c.utf8Size
  | .byte _ => 1

theorem size_pos (r : Rune) : 0 < r.size := by
  cases r with
  | char c => exact c.utf8Size_pos
  | byte b => exact Nat.one_pos

/-- `unicode.IsSpace`. -/
def isSpace : Rune → Bool
  | .char c =>
      c ∈ ['\t', '\n', '\x0b', '\x0c', '\r', ' ', '\u0085', '\u00a0', '\u1680', '\u2028', '\u2029',
        '\u202f', '\u205f', '\u3000'] || ('\u2000' ≤ c && c ≤ '\u200a')
  | .byte _ => false

/-- An ASCII decimal digit. -/
def isDigit : Rune → Bool
  | .char c => c.isDigit
  | .byte _ => false

/-- Order of code points, which is the byte order of valid UTF-8 text. -/
def code : Rune → ℕ
  | .char c => c.toNat
  | .byte b => 0x110000 + b.toNat

end Rune

namespace Str

/-- The string a literal denotes. -/
def lit (s : String) : Str := s.toList.map .char

/-- Valid UTF-8: every byte belongs to a character. -/
def Valid (s : Str) : Prop := ∀ r ∈ s, r.repair = r

instance (s : Str) : Decidable s.Valid := inferInstanceAs (Decidable (∀ r ∈ s, r.repair = r))

/-- The text with every undecodable byte replaced by U+FFFD. -/
def repair (s : Str) : Str := s.map Rune.repair

/-- `len(s)`: the number of bytes. -/
def size (s : Str) : ℕ := (s.map Rune.size).sum

/-- `strings.TrimSpace`. -/
def trimSpace (s : Str) : Str := (s.dropWhile Rune.isSpace).rdropWhile Rune.isSpace

/-- `strings.Contains`. -/
def contains (s sub : Str) : Bool := s.tails.any sub.isPrefixOf

/-- `strings.ToUpper`, on ASCII letters. -/
def toUpper (s : Str) : Str := s.map fun
  | .char c => .char c.toUpper
  | .byte b => .byte b

/-- `strings.ToLower`, on ASCII letters. -/
def toLower (s : Str) : Str := s.map fun
  | .char c => .char c.toLower
  | .byte b => .byte b

/-- Byte order of text, as the BINARY collation of SQLite and Go's `<` compare it. -/
def lt : Str → Str → Bool
  | _, [] => false
  | [], _ :: _ => true
  | a :: as, b :: bs => a.code < b.code || (a.code == b.code && lt as bs)

@[simp] theorem lit_append (s t : String) : lit (s ++ t) = lit s ++ lit t := by
  simp [lit]

theorem lit_injective : Function.Injective lit := by
  intro s t h
  have hchars := List.map_injective_iff.mpr (fun _ _ => Rune.char.inj) h
  exact String.toList_inj.mp hchars

theorem valid_lit (s : String) : (lit s).Valid := by
  simp [Valid, lit, Rune.repair]

theorem valid_append {s t : Str} : (s ++ t).Valid ↔ s.Valid ∧ t.Valid := by
  simp [Valid, or_imp, forall_and]

@[simp] theorem repair_append (s t : Str) : (s ++ t).repair = s.repair ++ t.repair :=
  List.map_append

/-- Repair leaves valid text, and only valid text, as it is. -/
theorem repair_eq_self_iff {s : Str} : s.repair = s ↔ s.Valid := by
  induction s with
  | nil => simp [repair, Valid]
  | cons r s ih =>
      simp only [repair, Valid, List.map_cons, List.cons.injEq, List.forall_mem_cons] at ih ⊢
      rw [ih]

@[simp] theorem repair_repair (s : Str) : s.repair.repair = s.repair := by
  rw [repair_eq_self_iff, Valid, repair]
  simp only [List.mem_map, forall_exists_index, and_imp]
  rintro _ r - rfl
  cases r <;> rfl

@[simp] theorem size_nil : size [] = 0 := rfl

@[simp] theorem size_cons (r : Rune) (s : Str) : size (r :: s) = r.size + size s := by
  simp [size]

@[simp] theorem size_append (s t : Str) : size (s ++ t) = size s + size t := by
  simp [size]

/-- Trimming drops runes at the ends only. -/
theorem trimSpace_sublist (s : Str) : s.trimSpace.Sublist s :=
  ((List.rdropWhile_prefix _ _).sublist).trans (List.dropWhile_suffix _).sublist

/-- A prefix of a list whose head fails `p` has nothing to drop either. -/
private theorem dropWhile_of_prefix {p : Rune → Bool} {s t : Str} (h : s <+: t)
    (ht : t.dropWhile p = t) : s.dropWhile p = s := by
  cases s with
  | nil => rfl
  | cons r s =>
      obtain ⟨u, rfl⟩ := h
      have hr : p r = false := by
        by_contra hp
        have hlen := (List.dropWhile_suffix p (l := s ++ u)).length_le
        rw [List.cons_append, List.dropWhile_cons_of_pos (by simpa using hp)] at ht
        rw [ht, List.length_cons] at hlen
        omega
      rw [List.dropWhile_cons_of_neg (by simp [hr])]

/-- Trimming twice is trimming once. -/
@[simp] theorem trimSpace_trimSpace (s : Str) : s.trimSpace.trimSpace = s.trimSpace := by
  have hright : (s.trimSpace).rdropWhile Rune.isSpace = s.trimSpace :=
    List.rdropWhile_idempotent _ _
  have hleft : (s.trimSpace).dropWhile Rune.isSpace = s.trimSpace :=
    dropWhile_of_prefix (List.rdropWhile_prefix _ _) (List.dropWhile_idempotent _ _)
  rw [trimSpace, hleft, hright]

/-- U+FFFD is no white space, so trimming and repairing go together. -/
theorem trimSpace_repair (s : Str) : s.repair.trimSpace = s.trimSpace.repair := by
  have hspace : Rune.isSpace ∘ Rune.repair = Rune.isSpace := by
    funext r
    cases r with
    | char c => rfl
    | byte b =>
        show Rune.isSpace Rune.replacement = false
        decide
  have hright : ∀ t : Str, (t.map Rune.repair).rdropWhile Rune.isSpace =
      (t.rdropWhile Rune.isSpace).map Rune.repair := by
    intro t
    rw [List.rdropWhile, List.rdropWhile, ← List.map_reverse, List.dropWhile_map, hspace,
      List.map_reverse]
  rw [trimSpace, trimSpace, repair, repair, List.dropWhile_map, hspace, hright]

/-- A text with something other than white space in it is not trimmed away. -/
theorem trimSpace_ne_nil {s : Str} {r : Rune} (hr : r ∈ s) (hspace : r.isSpace = false) :
    s.trimSpace ≠ [] := by
  intro hnil
  rw [trimSpace, List.rdropWhile_eq_nil_iff] at hnil
  have hsplit := List.takeWhile_append_dropWhile (p := Rune.isSpace) (l := s)
  rw [← hsplit, List.mem_append] at hr
  rcases hr with hr | hr
  · rw [List.mem_takeWhile_imp hr] at hspace
    cases hspace
  · rw [hnil r hr] at hspace
    cases hspace

/-- Valid text stays valid when trimmed. -/
theorem valid_trimSpace {s : Str} (h : s.Valid) : s.trimSpace.Valid :=
  fun r hr => h r ((trimSpace_sublist s).subset hr)

end Str

/-! ## Decimal integers -/

/-- The decimal digits of a natural number. -/
def natText (n : ℕ) : Str := (Nat.toDigits 10 n).map .char

/-- `strconv.Itoa`, and `fmt.Sprint` of an integer. -/
def itoa : ℤ → Str
  | .ofNat n => natText n
  | .negSucc n => .char '-' :: natText (n + 1)

/-- The value of a non-empty run of decimal digits. -/
def digitsValue (s : Str) : Option ℕ :=
  if s ≠ [] ∧ s.all Rune.isDigit then
    some (Nat.ofDigitChars 10 (s.filterMap fun | .char c => some c | .byte _ => none) 0)
  else none

/-- `strconv.Atoi`: an optional sign and digits, within the range of a 64-bit integer. -/
def atoi (s : Str) : Option ℤ :=
  let value : Option ℤ := match s with
    | .char '-' :: t => (digitsValue t).map fun n => -(n : ℤ)
    | .char '+' :: t => (digitsValue t).map fun n => (n : ℤ)
    | t => (digitsValue t).map fun n => (n : ℤ)
  value.filter fun n => -2 ^ 63 ≤ n ∧ n < 2 ^ 63

/-- `strconv.FormatBool`. -/
def formatBool (b : Bool) : Str := if b then Str.lit "true" else Str.lit "false"

theorem valid_formatBool (b : Bool) : (formatBool b).Valid := by
  cases b <;> exact Str.valid_lit _

theorem natText_ne_nil (n : ℕ) : natText n ≠ [] := by
  simp [natText]

/-- Every rune of a decimal text is a digit. -/
theorem isDigit_of_mem_natText {n : ℕ} {r : Rune} (h : r ∈ natText n) :
    ∃ c : Char, r = .char c ∧ c.isDigit := by
  obtain ⟨c, hc, rfl⟩ := List.mem_map.mp h
  exact ⟨c, rfl, Nat.isDigit_of_mem_toDigits (by decide) (by decide) hc⟩

theorem isDigit_of_natText {n : ℕ} : ∀ r ∈ natText n, r.isDigit = true := by
  intro r hr
  obtain ⟨c, rfl, hc⟩ := isDigit_of_mem_natText hr
  exact hc

/-- The digits at the head of a text. -/
theorem takeWhile_digits_append {s rest : Str} (hs : ∀ r ∈ s, r.isDigit = true)
    (hrest : ∀ r ∈ rest.head?, r.isDigit = false) : (s ++ rest).takeWhile Rune.isDigit = s := by
  rw [List.takeWhile_append_of_pos hs]
  cases rest with
  | nil => simp
  | cons r rest => rw [List.takeWhile_cons_of_neg (by simp [hrest r rfl]), List.append_nil]

/-- What comes after the digits at the head of a text. -/
theorem dropWhile_digits_append {s rest : Str} (hs : ∀ r ∈ s, r.isDigit = true)
    (hrest : ∀ r ∈ rest.head?, r.isDigit = false) : (s ++ rest).dropWhile Rune.isDigit = rest := by
  rw [List.dropWhile_append_of_pos hs]
  cases rest with
  | nil => rfl
  | cons r rest => exact List.dropWhile_cons_of_neg (by simp [hrest r rfl])

theorem valid_itoa (n : ℤ) : (itoa n).Valid := by
  have hdigits : ∀ m, (natText m).Valid := by
    intro m r hr
    obtain ⟨c, rfl, -⟩ := isDigit_of_mem_natText hr
    rfl
  cases n with
  | ofNat m => exact hdigits m
  | negSucc m => exact List.forall_mem_cons.mpr ⟨rfl, hdigits (m + 1)⟩

theorem digitsValue_natText (n : ℕ) : digitsValue (natText n) = some n := by
  rw [digitsValue, if_pos ⟨natText_ne_nil n, List.all_eq_true.mpr isDigit_of_natText⟩, natText, List.filterMap_map]
  simp [Nat.ofDigitChars_ten_toDigits]

/-- `Atoi` reads back what `Itoa` prints of a non-negative 64-bit integer. -/
theorem atoi_natText {n : ℕ} (h : n < 2 ^ 63) : atoi (natText n) = some (n : ℤ) := by
  obtain ⟨r, t, hrt⟩ := List.exists_cons_of_ne_nil (natText_ne_nil n)
  obtain ⟨c, rfl, hc⟩ := isDigit_of_mem_natText (n := n) (r := r) (by rw [hrt]; exact List.mem_cons_self)
  have hminus : c ≠ '-' := by rintro rfl; exact absurd hc (by decide)
  have hplus : c ≠ '+' := by rintro rfl; exact absurd hc (by decide)
  have hvalue := digitsValue_natText n
  rw [hrt] at hvalue ⊢
  have hlt : (n : ℤ) < 2 ^ 63 := by exact_mod_cast h
  have hge : (-2 ^ 63 : ℤ) ≤ n := by omega
  unfold atoi
  split
  · next heq => simp only [List.cons.injEq, Rune.char.injEq] at heq; exact absurd heq.1 hminus
  · next heq => simp only [List.cons.injEq, Rune.char.injEq] at heq; exact absurd heq.1 hplus
  · rw [hvalue]
    simpa [Option.filter, hge] using hlt

end WeighingSync.Go
