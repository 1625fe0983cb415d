import Mathlib
import WeighingSync.Go.Strings

/-!
# JSON values and the encoder of `encoding/json`

A JSON value keeps its numbers as literals, as `UseNumber` does. `encode` is `json.Marshal` of such
a value: no white space, the HTML escapes on, and U+FFFD in place of bytes that are no UTF-8.
-/

namespace WeighingSync.Go

/-- A JSON value. -/
inductive Json
  | null
  | bool (b : Bool)
  | num (literal : Str)
  | str (s : Str)
  | arr (elements : List Json)
  | obj (fields : List (Str × Json))
  deriving Repr

/-! ## Number literals -/

/-- A JSON exponent, or nothing. -/
def validExponent : Str → Bool
  | [] => true
  | r :: t =>
      let digits : Str := match t with
        | [] => []
        | sign :: u => if sign = .char '+' ∨ sign = .char '-' then u else sign :: u
      (r = .char 'e' ∨ r = .char 'E') && !digits.isEmpty && digits.all Rune.isDigit

/-- What may follow the integer part of a JSON number: a fraction and an exponent. -/
def validFraction : Str → Bool
  | [] => true
  | r :: t =>
      if r = .char '.' then
        (t.head?.any Rune.isDigit) && validExponent (t.dropWhile Rune.isDigit)
      else validExponent (r :: t)

/-- A JSON number without its sign. -/
def validUnsigned : Str → Bool
  | [] => false
  | r :: t =>
      if r = .char '0' then validFraction t
      else r.isDigit && validFraction (t.dropWhile Rune.isDigit)

/-- A JSON number. -/
def validNumber : Str → Bool
  | [] => false
  | r :: t => if r = .char '-' then validUnsigned t else validUnsigned (r :: t)

/-- The runes a number literal is made of. -/
def isNumberRune (r : Rune) : Bool :=
  r.isDigit || r ∈ [.char '-', .char '+', .char '.', .char 'e', .char 'E']

/-- A decimal text has no leading zero. -/
theorem natText_head {n : ℕ} (hn : 0 < n) : (natText n).head? ≠ some (.char '0') := by
  induction n using Nat.strong_induction_on with
  | _ n ih =>
      by_cases hlt : n < 10
      · have hsmall : ∀ m < 10, 0 < m → (natText m).head? ≠ some (.char '0') := by decide
        exact hsmall n hlt hn
      · have hdiv : 0 < n / 10 := by omega
        have hhead := ih (n / 10) (by omega) hdiv
        have happend : natText n = natText (n / 10) ++ [.char (Nat.digitChar (n % 10))] := by
          rw [natText, natText, Nat.toDigits_of_base_le (by decide) (by omega), List.map_append]
          rfl
        rwa [happend, List.head?_append_of_ne_nil _ (natText_ne_nil _)]

theorem isNumberRune_of_isDigit {r : Rune} (h : r.isDigit = true) : isNumberRune r = true := by
  rw [isNumberRune, h, Bool.true_or]

/-- A decimal text, and what may follow the integer part of a number. -/
theorem validUnsigned_natText_append (n : ℕ) {rest : Str}
    (hrest : ∀ r ∈ rest.head?, r.isDigit = false) :
    validUnsigned (natText n ++ rest) = validFraction rest := by
  obtain ⟨first, digits, htext⟩ := List.exists_cons_of_ne_nil (natText_ne_nil n)
  have hdigits := isDigit_of_natText (n := n)
  have hone : first = .char '0' → digits = [] := by
    intro hfirst
    rcases Nat.eq_zero_or_pos n with rfl | hpos
    · exact (List.cons.inj htext).2.symm
    · have hhead := natText_head hpos
      rw [htext, List.head?_cons] at hhead
      exact absurd (congrArg some hfirst) hhead
  rw [htext] at hdigits ⊢
  obtain ⟨hfirst, hdigits⟩ := List.forall_mem_cons.mp hdigits
  rw [List.cons_append, validUnsigned, dropWhile_digits_append hdigits hrest, hfirst, Bool.true_and]
  split_ifs with hzero
  · rw [hone hzero, List.nil_append]
  · rfl

theorem validUnsigned_natText (n : ℕ) : validUnsigned (natText n) = true := by
  have happend : validUnsigned (natText n ++ []) = true := validUnsigned_natText_append n (by simp)
  rwa [List.append_nil] at happend

/-- The decimal text of an integer is a JSON number. -/
theorem wellFormed_itoa (n : ℤ) :
    validNumber (itoa n) = true ∧ ∀ r ∈ itoa n, isNumberRune r = true := by
  have hdigits : ∀ m, ∀ r ∈ natText m, isNumberRune r = true :=
    fun m r hr => isNumberRune_of_isDigit (isDigit_of_natText r hr)
  cases n with
  | ofNat m =>
      refine ⟨?_, hdigits m⟩
      obtain ⟨r, t, hrt⟩ := List.exists_cons_of_ne_nil (natText_ne_nil m)
      have hminus : r ≠ .char '-' := by
        obtain ⟨c, rfl, hc⟩ := isDigit_of_mem_natText (n := m) (r := r) (by rw [hrt]; exact List.mem_cons_self)
        intro heq
        cases heq
        exact absurd hc (by decide)
      have hvalid := validUnsigned_natText m
      rw [itoa, hrt] at *
      rw [validNumber, if_neg hminus, hvalid]
  | negSucc m =>
      refine ⟨?_, List.forall_mem_cons.mpr ⟨rfl, hdigits (m + 1)⟩⟩
      rw [itoa, validNumber, if_pos rfl, validUnsigned_natText]

/-! ## Strings -/

/-- A lower-case hexadecimal digit. -/
def hexDigit (n : ℕ) : Char := (Nat.digitChar n)

/-- The six runes of a unicode escape. -/
def unicodeEscape (n : ℕ) : Str :=
  [.char '\\', .char 'u', .char (hexDigit (n / 4096 % 16)), .char (hexDigit (n / 256 % 16)),
    .char (hexDigit (n / 16 % 16)), .char (hexDigit (n % 16))]

/-- How `encoding/json` writes a character inside a string. -/
def escapeChar (c : Char) : Str :=
  if c = '"' ∨ c = '\\' then [.char '\\', .char c]
  else if c = '\x08' then [.char '\\', .char 'b']
  else if c = '\x0c' then [.char '\\', .char 'f']
  else if c = '\n' then [.char '\\', .char 'n']
  else if c = '\r' then [.char '\\', .char 'r']
  else if c = '\t' then [.char '\\', .char 't']
  else if c.toNat < 0x20 ∨ c ∈ ['<', '>', '&', '\u2028', '\u2029'] then unicodeEscape c.toNat
  else [.char c]

/-- How `encoding/json` writes a rune inside a string. -/
def escapeRune : Rune → Str
  | .char c => escapeChar c
  | .byte _ => unicodeEscape 0xFFFD

/-- A JSON string. -/
def quote (s : Str) : Str := .char '"' :: (s.flatMap escapeRune ++ [.char '"'])

/-! ## Values -/

namespace Json

mutual

/-- `json.Marshal`. -/
def encode : Json → Str
  | .null => Str.lit "null"
  | .bool b => formatBool b
  | .num literal => literal
  | .str s => quote s
  | .arr xs => .char '[' :: (encodeElements xs ++ [.char ']'])
  | .obj fields => .char '\x7b' :: (encodeFields fields ++ [.char '\x7d'])

/-- The elements of an array, with commas between them. -/
def encodeElements : List Json → Str
  | [] => []
  | x :: xs => encode x ++ (if xs.isEmpty then [] else .char ',' :: encodeElements xs)

/-- The fields of an object, with commas between them. -/
def encodeFields : List (Str × Json) → Str
  | [] => []
  | (k, x) :: fields =>
      quote k ++ .char ':' :: (encode x ++ (if fields.isEmpty then [] else .char ',' :: encodeFields fields))

end

mutual

/-- The value with undecodable bytes replaced in every string and every field name. -/
def repair : Json → Json
  | .null => .null
  | .bool b => .bool b
  | .num literal => .num literal
  | .str s => .str s.repair
  | .arr xs => .arr (repairElements xs)
  | .obj fields => .obj (repairFields fields)

def repairElements : List Json → List Json
  | [] => []
  | x :: xs => repair x :: repairElements xs

def repairFields : List (Str × Json) → List (Str × Json)
  | [] => []
  | (k, x) :: fields => (k.repair, repair x) :: repairFields fields

end

mutual

/-- Every number in the value is a JSON number literal. -/
def WellFormed : Json → Prop
  | .null => True
  | .bool _ => True
  | .num literal => validNumber literal = true ∧ ∀ r ∈ literal, isNumberRune r = true
  | .str _ => True
  | .arr xs => WellFormedElements xs
  | .obj fields => WellFormedFields fields

def WellFormedElements : List Json → Prop
  | [] => True
  | x :: xs => WellFormed x ∧ WellFormedElements xs

def WellFormedFields : List (Str × Json) → Prop
  | [] => True
  | (_, x) :: fields => WellFormed x ∧ WellFormedFields fields

end

theorem repairElements_eq (xs : List Json) : repairElements xs = xs.map repair := by
  induction xs with
  | nil => rfl
  | cons x xs ih => rw [repairElements, ih, List.map_cons]

theorem repairFields_eq (fields : List (Str × Json)) :
    repairFields fields = fields.map fun f => (f.1.repair, f.2.repair) := by
  induction fields with
  | nil => rfl
  | cons f fields ih => rw [repairFields, ih, List.map_cons]

theorem wellFormedElements_iff {xs : List Json} : WellFormedElements xs ↔ ∀ x ∈ xs, x.WellFormed := by
  induction xs with
  | nil => simp [WellFormedElements]
  | cons x xs ih => rw [WellFormedElements, ih, List.forall_mem_cons]

theorem wellFormedFields_iff {fields : List (Str × Json)} :
    WellFormedFields fields ↔ ∀ f ∈ fields, f.2.WellFormed := by
  induction fields with
  | nil => simp [WellFormedFields]
  | cons f fields ih => rw [WellFormedFields, ih, List.forall_mem_cons]

@[simp] theorem repair_arr (xs : List Json) : repair (.arr xs) = .arr (xs.map repair) := by
  rw [repair, repairElements_eq]

@[simp] theorem repair_obj (fields : List (Str × Json)) :
    repair (.obj fields) = .obj (fields.map fun f => (f.1.repair, f.2.repair)) := by
  rw [repair, repairFields_eq]

@[simp] theorem wellFormed_arr {xs : List Json} :
    (arr xs).WellFormed ↔ ∀ x ∈ xs, x.WellFormed := by
  rw [WellFormed, wellFormedElements_iff]

@[simp] theorem wellFormed_obj {fields : List (Str × Json)} :
    (obj fields).WellFormed ↔ ∀ f ∈ fields, f.2.WellFormed := by
  rw [WellFormed, wellFormedFields_iff]

/-! ## Objects as maps -/

/-- The value of a field. Go's decoder overwrites a field that is repeated, so the last one counts. -/
def lookup (fields : List (Str × Json)) (key : Str) : Option Json :=
  (fields.findRev? fun f => f.1 = key).map Prod.snd

/-- The fields as a Go map holds them: of fields with one name, the last. -/
def toMap : List (Str × Json) → List (Str × Json)
  | [] => []
  | f :: fields => if fields.any fun g => g.1 = f.1 then toMap fields else f :: toMap fields

/-- Of fields with distinct names none is overwritten. -/
theorem toMap_of_nodup {fields : List (Str × Json)} (h : (fields.map Prod.fst).Nodup) :
    toMap fields = fields := by
  induction fields with
  | nil => rfl
  | cons f fields ih =>
      rw [List.map_cons, List.nodup_cons] at h
      have hnew : (fields.any fun g => g.1 = f.1) = false := by
        rw [List.any_eq_false]
        intro g hg heq
        exact h.1 (List.mem_map.mpr ⟨g, hg, of_decide_eq_true heq⟩)
      rw [toMap, hnew, ih h.2]
      rfl

/-- Looking up a name among distinct names finds the one field that has it. -/
theorem lookup_eq_some_iff {fields : List (Str × Json)} (h : (fields.map Prod.fst).Nodup) {key : Str}
    {x : Json} : lookup fields key = some x ↔ (key, x) ∈ fields := by
  rw [lookup, List.findRev?_eq_find?_reverse, Option.map_eq_some_iff]
  constructor
  · rintro ⟨f, hf, hx⟩
    have hname : f.1 = key := by simpa using List.find?_some hf
    rw [← hname, ← hx]
    exact List.mem_reverse.mp (List.mem_of_find?_eq_some hf)
  · intro hmem
    cases hfind : fields.reverse.find? fun f => f.1 = key with
    | none =>
        have hnone := List.find?_eq_none.mp hfind (key, x) (List.mem_reverse.mpr hmem)
        simp at hnone
    | some f =>
        have hname : f.1 = key := by simpa using List.find?_some hfind
        have hf : f ∈ fields := List.mem_reverse.mp (List.mem_of_find?_eq_some hfind)
        exact ⟨f, rfl, by rw [List.inj_on_of_nodup_map h hf hmem hname]⟩

/-- The order in which `json.Marshal` writes the fields of a map. -/
def fieldLE (f g : Str × Json) : Prop := Str.lt g.1 f.1 = false

instance : DecidableRel fieldLE := fun f g => inferInstanceAs (Decidable (Str.lt g.1 f.1 = false))

/-- The JSON value of a Go map: its fields in order of their names. -/
def ofMap (fields : List (Str × Json)) : Json := .obj (fields.insertionSort fieldLE)

mutual

/-- The value after a trip through Go's `any`, which holds objects as maps. -/
def canonical : Json → Json
  | .null => .null
  | .bool b => .bool b
  | .num literal => .num literal
  | .str s => .str s
  | .arr xs => .arr (canonicalElements xs)
  | .obj fields => ofMap (toMap (canonicalFields fields))

def canonicalElements : List Json → List Json
  | [] => []
  | x :: xs => canonical x :: canonicalElements xs

def canonicalFields : List (Str × Json) → List (Str × Json)
  | [] => []
  | (k, x) :: fields => (k, canonical x) :: canonicalFields fields

end

mutual

/-- The value with every number literal passed through `f`; an error where `f` gives none. -/
def mapNumbers (f : Str → Option Str) : Json → Option Json
  | .null => some .null
  | .bool b => some (.bool b)
  | .num literal => (f literal).map .num
  | .str s => some (.str s)
  | .arr xs => (mapElements f xs).map .arr
  | .obj fields => (mapFields f fields).map .obj

def mapElements (f : Str → Option Str) : List Json → Option (List Json)
  | [] => some []
  | x :: xs => (mapNumbers f x).bind fun y => (mapElements f xs).map (y :: ·)

def mapFields (f : Str → Option Str) : List (Str × Json) → Option (List (Str × Json))
  | [] => some []
  | (k, x) :: fields => (mapNumbers f x).bind fun y => (mapFields f fields).map ((k, y) :: ·)

end

end Json

end WeighingSync.Go
