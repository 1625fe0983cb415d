import WeighingSync.Go.JsonCut

/-!
# Torn texts in a stream of values

A stream of JSON values in which one was torn off and others follow. `Resumes s` says that the text
`s` does not complete what was torn off: neither as the rest of a string nor as a value does it lead
to punctuation. So an object of strings that is torn off and goes on with such a text is rejected
(`value_torn`), and the decoder never comes to the values after it.
-/

namespace WeighingSync.Go

/-- No punctuation of an object comes next. -/
def Blocked (s : Str) : Prop := ∀ token ∈ [':', ',', '\x7d'], expect (.char token) s = none

/-- A text that completes nothing that was torn off before it. -/
structure Resumes (s : Str) : Prop where
  head : ∀ r ∈ s.head?, r = .char '\x7b'
  string : ∀ text rest, unquote (.plain none) s = some (text, rest) → Blocked rest
  value : ∀ n j rest, value n s = some (j, rest) → Blocked rest

/-- A text whose first rune is no space and no punctuation is blocked. -/
theorem blocked_of_head {s : Str}
    (h : ∀ r ∈ s.head?, isJSONSpace r = false ∧ r ∉ [.char ':', .char ',', .char '\x7d']) :
    Blocked s := by
  cases s with
  | nil => exact fun _ _ => rfl
  | cons r s =>
      obtain ⟨hspace, hr⟩ := h r rfl
      intro token htoken
      refine expect_ne hspace (fun heq => hr ?_) s
      rw [heq]
      exact List.mem_map_of_mem (f := Rune.char) htoken

/-- The bytes that are left of a character, and then a text that resumes. -/
theorem head_bytes_append {s : Str} (h : Resumes s) (bytes : List UInt8) :
    ∀ r ∈ (bytes.map Rune.byte ++ s).head?, (∃ b, r = .byte b) ∨ r = .char '\x7b' := by
  cases bytes with
  | nil => exact fun r hr => Or.inr (h.head r hr)
  | cons b bytes =>
      intro r hr
      cases hr
      exact Or.inl ⟨b, rfl⟩

theorem blocked_bytes_append {s : Str} (h : Resumes s) (bytes : List UInt8) :
    Blocked (bytes.map .byte ++ s) := by
  refine blocked_of_head fun r hr => ?_
  rcases head_bytes_append h bytes r hr with ⟨b, rfl⟩ | rfl
  · exact ⟨rfl, by simp⟩
  · exact ⟨rfl, by decide⟩

theorem expect_quote_bytes_append {s : Str} (h : Resumes s) (bytes : List UInt8) :
    expect (.char '"') (bytes.map .byte ++ s) = none := by
  cases hs : bytes.map Rune.byte ++ s with
  | nil => rfl
  | cons r t =>
      have hr := head_bytes_append h bytes r (by rw [hs]; rfl)
      rcases hr with ⟨b, rfl⟩ | rfl
      · exact expect_ne rfl (by simp) t
      · exact expect_ne rfl (by decide) t

/-! ## Inside a string -/

/-- Undecodable bytes stand in a string like characters. -/
theorem unquote_bytes_append (bytes : List UInt8) {s text rest : Str}
    (h : unquote (.plain none) (bytes.map .byte ++ s) = some (text, rest)) :
    ∃ text', unquote (.plain none) s = some (text', rest) := by
  induction bytes generalizing text with
  | nil => exact ⟨text, h⟩
  | cons b bytes ih =>
      have hnext : unquote (.plain none) ((b :: bytes).map .byte ++ s) =
          (unquote (.plain none) (bytes.map .byte ++ s)).map fun p => (Rune.replacement :: p.1, p.2) := by
        simp [unquote, Scan.step, Scan.isControl, Scan.flush, Rune.repair]
      rw [hnext, Option.map_eq_some_iff] at h
      obtain ⟨⟨text', rest'⟩, htext, heq⟩ := h
      cases heq
      exact ih htext

/-- An escape that was torn off is never completed. -/
theorem unquote_escape_torn {s : Str} (h : Resumes s) (bytes : List UInt8) (scan : Scan)
    (hscan : ∀ high, scan ≠ .plain high) : unquote scan (bytes.map .byte ++ s) = none := by
  cases hs : bytes.map Rune.byte ++ s with
  | nil => cases scan <;> rfl
  | cons r t =>
      have hr := head_bytes_append h bytes r (by rw [hs]; rfl)
      have hstep : Scan.step scan r = none := by
        cases scan with
        | plain high => exact absurd rfl (hscan high)
        | escape high => rcases hr with ⟨b, rfl⟩ | rfl <;> rfl
        | hex high left acc => rcases hr with ⟨b, rfl⟩ | rfl <;> rfl
      cases scan with
      | plain high => exact absurd rfl (hscan high)
      | escape high => rw [unquote, hstep, Option.bind_none]; exact fun _ h => absurd h (by simp)
      | hex high left acc => rw [unquote, hstep, Option.bind_none]; exact fun _ h => absurd h (by simp)

/-- Where two texts that begin alike are cut: within the first part, or after it. -/
theorem append_eq_append_cases {a b p t : Str} (h : a ++ b = p ++ t) :
    (∃ t', t' ≠ [] ∧ a = p ++ t') ∨ ∃ p', p = a ++ p' ∧ b = p' ++ t := by
  rcases List.append_eq_append_iff.mp h with ⟨p', hp, hb⟩ | ⟨t', ha, ht⟩
  · exact Or.inr ⟨p', hp, hb⟩
  · by_cases hnil : t' = []
    · subst hnil
      exact Or.inr ⟨[], by simpa using ha.symm, by simpa using ht.symm⟩
    · exact Or.inl ⟨t', hnil, ha⟩

theorem unicodeEscape_torn {s : Str} (h : Resumes s) (bytes : List UInt8) {n : ℕ} {p t : Str}
    (hp : p ≠ []) (ht : t ≠ []) (heq : unicodeEscape n = p ++ t) :
    unquote (.plain none) (p ++ (bytes.map .byte ++ s)) = none := by
  have hdigit : ∀ m, Scan.hexValue (.char (hexDigit (m % 16))) = some (m % 16) := fun m =>
    hexValue_hexDigit (Nat.mod_lt m (by omega))
  have hescape := unquote_escape_torn h bytes (.escape none) (by simp)
  have hhex := fun left acc => unquote_escape_torn h bytes (.hex none left acc) (by simp)
  rcases p with _ | ⟨a, _ | ⟨b, _ | ⟨c, _ | ⟨d, _ | ⟨e, _ | ⟨f, p⟩⟩⟩⟩⟩⟩
  · exact absurd rfl hp
  all_goals
    simp only [unicodeEscape, List.cons_append, List.nil_append, List.cons.injEq] at heq
  · obtain ⟨rfl, -⟩ := heq
    simp [unquote, Scan.step, hescape]
  · obtain ⟨rfl, rfl, -⟩ := heq
    simp [unquote, Scan.step, hhex]
  · obtain ⟨rfl, rfl, rfl, -⟩ := heq
    simp [unquote, Scan.step, hhex, hdigit]
  · obtain ⟨rfl, rfl, rfl, rfl, -⟩ := heq
    simp [unquote, Scan.step, hhex, hdigit]
  · obtain ⟨rfl, rfl, rfl, rfl, rfl, -⟩ := heq
    simp [unquote, Scan.step, hhex, hdigit]
  · obtain ⟨-, -, -, -, -, -, hnil⟩ := heq
    exact absurd (List.append_eq_nil_iff.mp hnil.symm).2 ht

theorem escapeRune_torn {s : Str} (h : Resumes s) (bytes : List UInt8) {r : Rune} {p t : Str}
    (hp : p ≠ []) (ht : t ≠ []) (heq : escapeRune r = p ++ t) :
    unquote (.plain none) (p ++ (bytes.map .byte ++ s)) = none := by
  have hpair : ∀ c : Char, [Rune.char '\\', .char c] = p ++ t →
      unquote (.plain none) (p ++ (bytes.map .byte ++ s)) = none := by
    intro c hc
    rcases p with _ | ⟨a, _ | ⟨b, p⟩⟩
    · exact absurd rfl hp
    · obtain ⟨rfl, -⟩ := List.cons.inj hc
      simp [unquote, Scan.step, unquote_escape_torn h bytes (.escape none) (by simp)]
    · simp only [List.cons_append, List.cons.injEq] at hc
      exact absurd (List.append_eq_nil_iff.mp hc.2.2.symm).2 ht
  cases r with
  | byte b => exact unicodeEscape_torn h bytes hp ht heq
  | char c =>
      rw [escapeRune, escapeChar] at heq
      split_ifs at heq
      · exact hpair _ heq
      · exact hpair _ heq
      · exact hpair _ heq
      · exact hpair _ heq
      · exact hpair _ heq
      · exact hpair _ heq
      · exact unicodeEscape_torn h bytes hp ht heq
      · rcases p with _ | ⟨a, p⟩
        · exact absurd rfl hp
        · exact absurd (List.append_eq_nil_iff.mp (List.cons.inj heq).2.symm).2 ht

/-- A string that was torn off goes on into the text after it, and ends where no punctuation
follows, if it ends at all. -/
theorem unquote_torn {s : Str} (h : Resumes s) (bytes : List UInt8) {v p t text rest : Str}
    (heq : v.flatMap escapeRune ++ [.char '"'] = p ++ t) (ht : t ≠ [])
    (hread : unquote (.plain none) (p ++ (bytes.map .byte ++ s)) = some (text, rest)) :
    Blocked rest := by
  have hnil : ∀ text, unquote (.plain none) (bytes.map .byte ++ s) = some (text, rest) →
      Blocked rest := by
    intro text hs
    obtain ⟨text', htext'⟩ := unquote_bytes_append bytes hs
    exact h.string text' rest htext'
  induction v generalizing p text with
  | nil =>
      rcases p with _ | ⟨a, p⟩
      · exact hnil text hread
      · exact absurd (List.append_eq_nil_iff.mp (List.cons.inj heq).2.symm).2 ht
  | cons r v ih =>
      rw [List.flatMap_cons, List.append_assoc] at heq
      rcases append_eq_append_cases heq with ⟨t', ht', hr⟩ | ⟨p', rfl, hv⟩
      · by_cases hp : p = []
        · subst hp
          exact hnil text hread
        · rw [escapeRune_torn h bytes hp ht' hr] at hread
          cases hread
      · rw [List.append_assoc, unquote_escapeRune, Option.map_eq_some_iff] at hread
        obtain ⟨⟨text', rest'⟩, htext, hrest⟩ := hread
        cases hrest
        exact ih hv htext

/-! ## Values -/

/-- A string that was torn off, or whose text has not begun. -/
theorem value_quote_torn {s : Str} (h : Resumes s) (bytes : List UInt8) {v p t rest : Str} {n : ℕ}
    {j : Json} (heq : quote v = p ++ t) (ht : t ≠ [])
    (hread : value n (p ++ (bytes.map .byte ++ s)) = some (j, rest)) : Blocked rest := by
  rcases p with _ | ⟨r, p⟩
  · cases bytes with
    | nil => exact h.value n j rest hread
    | cons b bytes =>
        cases n with
        | zero => cases hread
        | succ n =>
            simp [value, skipSpace, isJSONSpace, number, isNumberRune, Rune.isDigit,
              validNumber] at hread
  · obtain ⟨rfl, hv⟩ := List.cons.inj heq
    cases n with
    | zero => cases hread
    | succ n =>
        rw [List.cons_append] at hread
        simp only [value, skipSpace_cons (show isJSONSpace (.char '"') = false from rfl)] at hread
        rw [if_neg (by decide), if_neg (by decide), if_pos trivial, Option.map_eq_some_iff] at hread
        obtain ⟨⟨text, rest'⟩, htext, hrest⟩ := hread
        cases hrest
        exact unquote_torn h bytes hv ht htext

theorem value_quote (n : ℕ) (v rest : Str) :
    value (n + 1) (quote v ++ rest) = some (.str v.repair, rest) := by
  simp [quote, value, skipSpace, isJSONSpace, unquote_quote]

/-- A name that was torn off is not followed by a colon. -/
theorem name_torn {s : Str} (h : Resumes s) (bytes : List UInt8) {k p t s₁ key s₂ s₃ : Str}
    (heq : quote k = p ++ t) (ht : t ≠ [])
    (hs₁ : expect (.char '"') (p ++ (bytes.map .byte ++ s)) = some s₁)
    (hkey : unquote (.plain none) s₁ = some (key, s₂)) (hs₃ : expect (.char ':') s₂ = some s₃) :
    False := by
  rcases p with _ | ⟨r, p⟩
  · rw [List.nil_append, expect_quote_bytes_append h] at hs₁
    cases hs₁
  · obtain ⟨rfl, hk⟩ := List.cons.inj heq
    rw [List.cons_append, expect_self rfl, Option.some_inj] at hs₁
    subst hs₁
    have hblocked := unquote_torn h bytes hk ht hkey
    rw [hblocked ':' (by simp)] at hs₃
    cases hs₃

/-- The fields of an object of strings, torn off before its closing brace, are rejected. -/
theorem members_torn {s : Str} (h : Resumes s) (bytes : List UInt8) (fields : List (Str × Str)) :
    ∀ (n : ℕ) {p t : Str}, t ≠ [] →
      Json.encodeFields (fields.map fun f => (f.1, .str f.2)) ++ [.char '\x7d'] = p ++ t →
      members n (p ++ (bytes.map .byte ++ s)) = none := by
  induction fields with
  | nil =>
      intro n p t ht heq
      rcases p with _ | ⟨r, p⟩
      · cases n with
        | zero => rfl
        | succ n => simp [members, expect_quote_bytes_append h]
      · exact absurd (List.append_eq_nil_iff.mp (List.cons.inj heq).2.symm).2 ht
  | cons f fields ih =>
      obtain ⟨k, v⟩ := f
      intro n p t ht heq
      rw [Option.eq_none_iff_forall_not_mem]
      rintro ⟨read, rest⟩ hread
      cases n with
      | zero => cases hread
      | succ n =>
          obtain ⟨s₁, key, s₂, s₃, x, s₄, hs₁, hkey, hs₃, hx, hend⟩ := members_cases hread
          -- no value is followed by the end of the object or by a comma
          have hstop : ¬ Blocked s₄ := by
            intro hblocked
            rcases hend with ⟨hclose, -⟩ | ⟨s₅, more, -, hs₅, -⟩
            · rw [hblocked '\x7d' (by simp)] at hclose
              cases hclose
            · rw [hblocked ',' (by simp)] at hs₅
              cases hs₅
          rw [List.map_cons, Json.encodeFields, List.append_assoc, List.cons_append,
            List.append_assoc] at heq
          rcases append_eq_append_cases heq with ⟨t', ht', hk⟩ | ⟨p₁, rfl, hk⟩
          · exact name_torn h bytes hk ht' hs₁ hkey hs₃
          rw [quote, List.cons_append, List.cons_append, expect_self rfl, Option.some_inj] at hs₁
          subst hs₁
          rw [List.append_assoc, List.append_assoc, List.singleton_append, unquote_quote] at hkey
          cases hkey
          rcases p₁ with _ | ⟨r, p₂⟩
          · rw [List.nil_append, blocked_bytes_append h bytes ':' (by simp)] at hs₃
            cases hs₃
          obtain ⟨rfl, hv⟩ := List.cons.inj hk
          rw [List.cons_append, expect_self rfl, Option.some_inj] at hs₃
          subst hs₃
          rcases append_eq_append_cases hv with ⟨t', ht', hv⟩ | ⟨p₃, rfl, htail⟩
          · exact hstop (value_quote_torn h bytes hv ht' hx)
          cases n with
          | zero => cases hx
          | succ n =>
              rw [Json.encode, List.append_assoc, value_quote] at hx
              cases hx
              rcases p₃ with _ | ⟨r, p₄⟩
              · exact hstop (blocked_bytes_append h bytes)
              cases fields with
              | nil => exact absurd (List.append_eq_nil_iff.mp (List.cons.inj htail).2.symm).2 ht
              | cons g fields =>
                  obtain ⟨rfl, hmore⟩ := List.cons.inj htail
                  rcases hend with ⟨hclose, -⟩ | ⟨s₅, more, -, hs₅, hmembers, -⟩
                  · rw [List.cons_append, expect_ne rfl (by decide)] at hclose
                    cases hclose
                  · rw [List.cons_append, expect_self rfl, Option.some_inj] at hs₅
                    subst hs₅
                    rw [ih (n + 1) ht hmore] at hmembers
                    cases hmembers

/-- An object of strings that was torn off is rejected, whatever resumes after it. -/
theorem value_torn {s : Str} (h : Resumes s) (bytes : List UInt8) (fields : List (Str × Str)) (n : ℕ)
    {p t : Str} (hp : p ≠ []) (ht : t ≠ [])
    (heq : (Json.obj (fields.map fun f => (f.1, .str f.2))).encode = p ++ t) :
    value n (p ++ (bytes.map .byte ++ s)) = none := by
  rcases p with _ | ⟨r, p⟩
  · exact absurd rfl hp
  obtain ⟨rfl, hfields⟩ := List.cons.inj heq
  cases n with
  | zero => rfl
  | succ n =>
      have hopen : expect (.char '\x7d') (p ++ (bytes.map .byte ++ s)) = none := by
        rcases p with _ | ⟨r, p⟩
        · exact blocked_bytes_append h bytes '\x7d' (by simp)
        · cases fields with
          | nil => exact absurd (List.append_eq_nil_iff.mp (List.cons.inj hfields).2.symm).2 ht
          | cons f fields =>
              obtain ⟨rfl, -⟩ := List.cons.inj hfields
              exact expect_ne rfl (by decide) _
      rw [List.cons_append]
      simp [value, skipSpace, isJSONSpace, hopen, members_torn h bytes fields n ht hfields]

end WeighingSync.Go
