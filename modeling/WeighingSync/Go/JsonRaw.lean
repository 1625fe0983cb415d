import WeighingSync.Go.JsonRoundTrip
import WeighingSync.Go.JsonStruct

/-!
# Raw messages

A `json.RawMessage` is the text of a value as it stands in the text around it. `fieldTexts` and
`elementTexts` are the fields of an object and the elements of an array with the texts of their values;
of an encoded object these are the encoded values (`fieldTexts_encode`).
-/

namespace WeighingSync.Go

/-- The text of the value at the start of a text, and the text after it. -/
def valueText (n : ℕ) (s : Str) : Option (Str × Str) :=
  (value n s).map fun (_, rest) => ((skipSpace s).take ((skipSpace s).length - rest.length), rest)

/-- The fields of an object with the texts of their values, up to its closing brace. -/
def memberTexts : ℕ → Str → Option (List (Str × Str))
  | 0, _ => none
  | n + 1, s => do
      let (key, s) ← (expect (.char '"') s).bind (unquote (.plain none))
      let (text, s) ← (expect (.char ':') s).bind (valueText n)
      match expect (.char '\x7d') s with
      | some _ => some [(key, text)]
      | none =>
          let fields ← (expect (.char ',') s).bind (memberTexts n)
          some ((key, text) :: fields)

/-- The texts of the elements of an array, up to its closing bracket. -/
def itemTexts : ℕ → Str → Option (List Str)
  | 0, _ => none
  | n + 1, s => do
      let (text, s) ← valueText n s
      match expect (.char ']') s with
      | some _ => some [text]
      | none =>
          let texts ← (expect (.char ',') s).bind (itemTexts n)
          some (text :: texts)

/-- The fields of the object that a JSON text is, with the texts of their values; `null` has none, and
any other value is an error. -/
def fieldTexts (s : Str) : Option (List (Str × Str)) :=
  match expect (.char '\x7b') s with
  | some t =>
      match expect (.char '\x7d') t with
      | some _ => some []
      | none => memberTexts t.length t
  | none => if skipSpace s = Str.lit "null" then some [] else none

/-- The texts of the elements of the array that a JSON text is; `null` has none, and any other value is
an error. -/
def elementTexts (s : Str) : Option (List Str) :=
  match expect (.char '[') s with
  | some t =>
      match expect (.char ']') t with
      | some _ => some []
      | none => itemTexts t.length t
  | none => if skipSpace s = Str.lit "null" then some [] else none

/-- The text of the value that an object gives for the field of a struct. -/
def textField (fields : List (Str × Str)) (name : Str) : Option Str :=
  (fields.findRev? fun f => Json.namesField name f.1).map Prod.snd

@[simp] theorem textField_nil (name : Str) : textField [] name = none := rfl

@[simp] theorem textField_append (fields fields' : List (Str × Str)) (name : Str) :
    textField (fields ++ fields') name = (textField fields' name).or (textField fields name) := by
  rw [textField, textField, textField, List.findRev?_eq_find?_reverse, List.findRev?_eq_find?_reverse,
    List.findRev?_eq_find?_reverse, List.reverse_append, List.find?_append, Option.map_or]

@[simp] theorem textField_cons (f : Str × Str) (fields : List (Str × Str)) (name : Str) :
    textField (f :: fields) name =
      (textField fields name).or (if Json.namesField name f.1 then some f.2 else none) := by
  have hone : textField [f] name = if Json.namesField name f.1 then some f.2 else none := by
    rw [textField, List.findRev?_eq_find?_reverse, List.reverse_singleton, List.find?_singleton]
    split_ifs <;> rfl
  rw [← List.singleton_append, textField_append, hone]

/-- A field that an object may have. -/
@[simp] theorem textField_toList {α : Type*} (o : Option α) (key : Str) (text : α → Str) (name : Str) :
    textField (o.toList.map fun x => (key, text x)) name =
      if Json.namesField name key then o.map text else none := by
  cases o with
  | none => simp
  | some x => simp

/-! ## Raw messages in an encoded value -/

theorem valueText_encode {j : Json} (hwf : j.WellFormed) {n : ℕ} (hn : j.encode.length ≤ n)
    {rest : Str} (hrest : EndsNumber rest) :
    valueText n (j.encode ++ rest) = some (j.encode, rest) := by
  obtain ⟨r, t, hj, hspace, -⟩ := Json.encode_head hwf
  have hskip : skipSpace (j.encode ++ rest) = j.encode ++ rest := by
    rw [hj, List.cons_append, skipSpace_cons hspace]
  have htake : (j.encode ++ rest).take ((j.encode ++ rest).length - rest.length) = j.encode := by
    rw [List.length_append, Nat.add_sub_cancel, List.take_left]
  rw [valueText, value_encode j n rest hwf hn hrest, hskip]
  exact congrArg (fun text => some (text, rest)) htake

/-- A rune that goes on after a value ends the value before it. -/
theorem endsNumber_cons {r : Rune} (h : isNumberRune r = false) (s : Str) : EndsNumber (r :: s) := by
  intro r' hr'
  cases hr'
  exact h

theorem memberTexts_encode (fields : List (Str × Json)) : ∀ (f : Str × Json) (n : ℕ) (rest : Str),
    (∀ g ∈ f :: fields, g.2.WellFormed) → (Json.encodeFields (f :: fields)).length < n →
    memberTexts n (Json.encodeFields (f :: fields) ++ .char '\x7d' :: rest) =
      some ((f :: fields).map fun g => (g.1.repair, g.2.encode)) := by
  induction fields with
  | nil =>
      rintro ⟨k, x⟩ n rest hwf hn
      obtain ⟨n, rfl⟩ := Nat.exists_eq_add_one_of_ne_zero (Nat.ne_zero_of_lt hn)
      have hx : valueText n (x.encode ++ .char '\x7d' :: rest) = some (x.encode, .char '\x7d' :: rest) := by
        apply valueText_encode (j := x) (hwf (k, x) List.mem_cons_self)
        · simp [Json.encodeFields] at hn
          omega
        · exact endsNumber_cons rfl rest
      simp [memberTexts, Json.encodeFields, quote, unquote_quote, hx, expect_self, isJSONSpace]
  | cons g gs ih =>
      rintro ⟨k, x⟩ n rest hwf hn
      obtain ⟨n, rfl⟩ := Nat.exists_eq_add_one_of_ne_zero (Nat.ne_zero_of_lt hn)
      have hlen : x.encode.length + (Json.encodeFields (g :: gs)).length < n := by
        rw [Json.encodeFields] at hn
        simp at hn
        omega
      have hx : valueText n
          (x.encode ++ .char ',' :: (Json.encodeFields (g :: gs) ++ .char '\x7d' :: rest)) =
            some (x.encode, .char ',' :: (Json.encodeFields (g :: gs) ++ .char '\x7d' :: rest)) := by
        apply valueText_encode (j := x) (hwf (k, x) List.mem_cons_self)
        · omega
        · exact endsNumber_cons rfl _
      have hgs := ih g n rest (fun h hh => hwf h (List.mem_cons_of_mem _ hh)) (by omega)
      rw [Json.encodeFields]
      simp [memberTexts, quote, unquote_quote, hx, hgs, expect_self, expect_ne, isJSONSpace]

theorem itemTexts_encode (xs : List Json) : ∀ (x : Json) (n : ℕ) (rest : Str),
    (∀ y ∈ x :: xs, y.WellFormed) → (Json.encodeElements (x :: xs)).length < n →
    itemTexts n (Json.encodeElements (x :: xs) ++ .char ']' :: rest) =
      some ((x :: xs).map Json.encode) := by
  induction xs with
  | nil =>
      intro x n rest hwf hn
      obtain ⟨n, rfl⟩ := Nat.exists_eq_add_one_of_ne_zero (Nat.ne_zero_of_lt hn)
      have hx : valueText n (x.encode ++ .char ']' :: rest) = some (x.encode, .char ']' :: rest) := by
        apply valueText_encode (hwf x List.mem_cons_self)
        · simp [Json.encodeElements] at hn
          omega
        · exact endsNumber_cons rfl rest
      simp [itemTexts, Json.encodeElements, hx, expect_self, isJSONSpace]
  | cons y ys ih =>
      intro x n rest hwf hn
      obtain ⟨n, rfl⟩ := Nat.exists_eq_add_one_of_ne_zero (Nat.ne_zero_of_lt hn)
      have hlen : x.encode.length + (Json.encodeElements (y :: ys)).length < n := by
        rw [Json.encodeElements] at hn
        simp at hn
        omega
      have hx : valueText n
          (x.encode ++ .char ',' :: (Json.encodeElements (y :: ys) ++ .char ']' :: rest)) =
            some (x.encode, .char ',' :: (Json.encodeElements (y :: ys) ++ .char ']' :: rest)) := by
        apply valueText_encode (hwf x List.mem_cons_self)
        · omega
        · exact endsNumber_cons rfl _
      have hys := ih y n rest (fun z hz => hwf z (List.mem_cons_of_mem x hz)) (by omega)
      rw [Json.encodeElements]
      simp [itemTexts, hx, hys, expect_self, expect_ne, isJSONSpace]

/-- The fields of an encoded object, whatever follows it. -/
theorem fieldTexts_encode {fields : List (Str × Json)} (hwf : (Json.obj fields).WellFormed)
    (rest : Str) :
    fieldTexts ((Json.obj fields).encode ++ rest) =
      some (fields.map fun f => (f.1.repair, f.2.encode)) := by
  rw [Json.wellFormed_obj] at hwf
  have hopen : (Json.obj fields).encode ++ rest =
      .char '\x7b' :: (Json.encodeFields fields ++ .char '\x7d' :: rest) := by
    simp [Json.encode]
  rw [hopen, fieldTexts, expect_self rfl]
  cases fields with
  | nil => rfl
  | cons f fields =>
      have hnone : expect (.char '\x7d')
          (Json.encodeFields (f :: fields) ++ .char '\x7d' :: rest) = none :=
        expect_ne rfl (by decide) _
      simp only [hnone]
      exact memberTexts_encode fields f _ rest hwf (by simp)

/-- The elements of an encoded array. -/
theorem elementTexts_encode {xs : List Json} (hwf : (Json.arr xs).WellFormed) :
    elementTexts (Json.arr xs).encode = some (xs.map Json.encode) := by
  rw [Json.wellFormed_arr] at hwf
  rw [Json.encode, elementTexts, expect_self rfl]
  cases xs with
  | nil => rfl
  | cons x xs =>
      obtain ⟨r, t, hx, hspace, hclose, -⟩ := Json.encode_head (hwf x List.mem_cons_self)
      have hnone : expect (.char ']') (Json.encodeElements (x :: xs) ++ [.char ']']) = none := by
        rw [Json.encodeElements, hx]
        exact expect_ne hspace hclose _
      simp only [hnone]
      exact itemTexts_encode xs x _ [] hwf (by simp)

end WeighingSync.Go
