import WeighingSync.Go.JsonRoundTrip

/-!
# JSON texts that are cut short

Whatever the decoder reads at the start of a text, it reads there too when the text goes on
(`read_append`), and an accepted object ends in its closing brace (`closing_of_value`). So no proper
prefix of an encoded object is accepted, wherever a reader with a size limit cut it (`parse_cut`).
-/

namespace WeighingSync.Go

/-! ## Reading a text that goes on -/

theorem unquote_append {scan : Scan} {s text rest : Str} (t : Str)
    (h : unquote scan s = some (text, rest)) : unquote scan (s ++ t) = some (text, rest ++ t) := by
  induction s generalizing scan text with
  | nil => simp [unquote] at h
  | cons r s ih =>
      have hstep : ∀ {scan' : Scan} {text' : Str},
          ((Scan.step scan' r).bind fun p => (unquote p.2 s).map fun u => (p.1 ++ u.1, u.2)) = some (text', rest) →
          ((Scan.step scan' r).bind fun p =>
            (unquote p.2 (s ++ t)).map fun u => (p.1 ++ u.1, u.2)) = some (text', rest ++ t) := by
        intro scan' text' hs
        obtain ⟨⟨out, next⟩, hnext, hrest⟩ := Option.bind_eq_some_iff.mp hs
        obtain ⟨⟨u, rest'⟩, hu, heq⟩ := Option.map_eq_some_iff.mp hrest
        cases heq
        rw [hnext, Option.bind_some]
        change Option.map _ (unquote next (s ++ t)) = _
        rw [ih hu]
        rfl
      cases scan with
      | plain high =>
          rw [List.cons_append]
          simp only [unquote] at h ⊢
          split at h
          · next hq =>
            cases h
            rw [if_pos hq]
          · next hq =>
            rw [if_neg hq]
            exact hstep h
      | escape high => exact hstep h
      | hex high left acc => exact hstep h

theorem skipSpace_append {s : Str} (h : skipSpace s ≠ []) (t : Str) :
    skipSpace (s ++ t) = skipSpace s ++ t := by
  rw [skipSpace, List.dropWhile_append]
  simp only [skipSpace] at h ⊢
  rw [if_neg (by simpa using h)]

theorem expect_append {token : Rune} {s rest : Str} (t : Str) (h : expect token s = some rest) :
    expect token (s ++ t) = some (rest ++ t) := by
  rw [expect] at h ⊢
  split at h
  · cases h
  · next r u hs =>
    rw [skipSpace_append (by rw [hs]; exact List.cons_ne_nil r u), hs, List.cons_append]
    split at h
    · next heq =>
      cases h
      exact if_pos heq
    · cases h

theorem skipSpace_ne_nil_of_expect {token : Rune} {s rest : Str} (h : expect token s = some rest) :
    skipSpace s ≠ [] := by
  intro hnil
  rw [expect, hnil] at h
  cases h

/-- A token that is not next does not become next when more text follows. -/
theorem expect_append_none {token : Rune} {s : Str} (t : Str) (hs : skipSpace s ≠ [])
    (h : expect token s = none) : expect token (s ++ t) = none := by
  rw [expect] at h ⊢
  rw [skipSpace_append hs]
  split at h
  · next hnil => exact absurd hnil hs
  · next r u heq =>
    rw [heq]
    simpa using h

/-- A number, whose end only the text after it can show. -/
def Json.IsNum : Json → Prop
  | .num _ => True
  | _ => False

private theorem word_append {w s rest : Str} {j j' : Json} (t : Str)
    (h : word w j s = some (j', rest)) : word w j (s ++ t) = some (j', rest ++ t) := by
  rw [word] at h ⊢
  split at h
  · next hpre =>
    rw [List.isPrefixOf_iff_prefix] at hpre
    obtain ⟨u, rfl⟩ := hpre
    have hlong : w.isPrefixOf (w ++ u ++ t) = true := by
      rw [List.isPrefixOf_iff_prefix]
      exact ⟨u ++ t, by simp⟩
    rw [if_pos hlong]
    simp only [List.drop_left, Option.some.injEq, Prod.mk.injEq] at h ⊢
    exact ⟨h.1, by rw [List.append_assoc, List.drop_left, h.2]⟩
  · cases h

private theorem number_append {s rest : Str} {j : Json} (t : Str) (h : number s = some (j, rest))
    (hrest : rest ≠ []) : number (s ++ t) = some (j, rest ++ t) := by
  simp only [number] at h ⊢
  split at h
  · next hvalid =>
    simp only [Option.some.injEq, Prod.mk.injEq] at h
    obtain ⟨rfl, rfl⟩ := h
    have hsplit := List.takeWhile_append_dropWhile (p := isNumberRune) (l := s)
    have hdrop : (s ++ t).dropWhile isNumberRune = s.dropWhile isNumberRune ++ t := by
      rw [List.dropWhile_append, if_neg (by simpa using hrest)]
    have htake : (s ++ t).takeWhile isNumberRune = s.takeWhile isNumberRune := by
      have hsplit' := List.takeWhile_append_dropWhile (p := isNumberRune) (l := s ++ t)
      rw [hdrop, ← List.append_assoc] at hsplit'
      have hst := List.append_cancel_right hsplit'
      exact List.append_cancel_right (hst.trans hsplit.symm)
    rw [htake, hdrop, if_pos hvalid]
  · cases h

private theorem ne_nil_of_skipSpace {s : Str} (h : skipSpace s ≠ []) : s ≠ [] := by
  rintro rfl
  exact h rfl

theorem skipSpace_ne_nil_of_value {n : ℕ} {s rest : Str} {j : Json}
    (h : value n s = some (j, rest)) : skipSpace s ≠ [] := by
  intro hnil
  cases n with
  | zero => cases h
  | succ n =>
      rw [value, hnil] at h
      cases h

/-- What a step of `members` has read: a name, a value, and then the end or further fields. -/
theorem members_cases {n : ℕ} {s rest : Str} {fields : List (Str × Json)}
    (h : members (n + 1) s = some (fields, rest)) :
    ∃ s₁ key s₂ s₃ x s₄, expect (.char '"') s = some s₁ ∧ unquote (.plain none) s₁ = some (key, s₂) ∧
      expect (.char ':') s₂ = some s₃ ∧ value n s₃ = some (x, s₄) ∧
      ((expect (.char '\x7d') s₄ = some rest ∧ fields = [(key, x)]) ∨
        ∃ s₅ more, expect (.char '\x7d') s₄ = none ∧ expect (.char ',') s₄ = some s₅ ∧
          members n s₅ = some (more, rest) ∧ fields = (key, x) :: more) := by
  simp only [members, Option.bind_eq_bind, Option.bind_eq_some_iff, Prod.exists] at h
  obtain ⟨key, s₂, ⟨s₁, hs₁, hkey⟩, x, s₄, ⟨s₃, hs₃, hx⟩, h⟩ := h
  refine ⟨s₁, key, s₂, s₃, x, s₄, hs₁, hkey, hs₃, hx, ?_⟩
  split at h
  · next rest' hclose =>
    cases h
    exact Or.inl ⟨hclose, rfl⟩
  · next hopen =>
    simp only [Option.bind_eq_some_iff, Prod.exists, Option.some.injEq, Prod.mk.injEq] at h
    obtain ⟨more, rest', ⟨s₅, hs₅, hmore⟩, hfields, hrest⟩ := h
    exact Or.inr ⟨s₅, more, hopen, hs₅, hrest ▸ hmore, hfields.symm⟩

/-- What a step of `elements` has read: a value, and then the end or further elements. -/
theorem elements_cases {n : ℕ} {s rest : Str} {xs : List Json}
    (h : elements (n + 1) s = some (xs, rest)) :
    ∃ x s₁, value n s = some (x, s₁) ∧
      ((expect (.char ']') s₁ = some rest ∧ xs = [x]) ∨
        ∃ s₂ more, expect (.char ']') s₁ = none ∧ expect (.char ',') s₁ = some s₂ ∧
          elements n s₂ = some (more, rest) ∧ xs = x :: more) := by
  simp only [elements, Option.bind_eq_bind, Option.bind_eq_some_iff, Prod.exists] at h
  obtain ⟨x, s₁, hx, h⟩ := h
  refine ⟨x, s₁, hx, ?_⟩
  split at h
  · next rest' hclose =>
    cases h
    exact Or.inl ⟨hclose, rfl⟩
  · next hopen =>
    simp only [Option.bind_eq_some_iff, Prod.exists, Option.some.injEq, Prod.mk.injEq] at h
    obtain ⟨more, rest', ⟨s₂, hs₂, hmore⟩, hxs, hrest⟩ := h
    exact Or.inr ⟨s₂, more, hopen, hs₂, hrest ▸ hmore, hxs.symm⟩

theorem skipSpace_ne_nil_of_members {n : ℕ} {s rest : Str} {fields : List (Str × Json)}
    (h : members n s = some (fields, rest)) : skipSpace s ≠ [] := by
  cases n with
  | zero => cases h
  | succ n =>
      obtain ⟨s₁, -, -, -, -, -, hs₁, -⟩ := members_cases h
      exact skipSpace_ne_nil_of_expect hs₁

theorem skipSpace_ne_nil_of_elements {n : ℕ} {s rest : Str} {xs : List Json}
    (h : elements n s = some (xs, rest)) : skipSpace s ≠ [] := by
  cases n with
  | zero => cases h
  | succ n =>
      obtain ⟨x, s₁, hx, -⟩ := elements_cases h
      exact skipSpace_ne_nil_of_value hx

private theorem isNum_of_number {s rest : Str} {j : Json} (h : number s = some (j, rest)) :
    ∃ literal, j = .num literal := by
  simp only [number] at h
  split at h
  · cases h
    exact ⟨_, rfl⟩
  · cases h

/-- What the decoder reads at the start of a text, it reads there too when more text follows and it
may go deeper. A number at the very end is the exception: more digits would change it. -/
theorem read_append (n : ℕ) : ∀ m, n ≤ m → ∀ t : Str,
    (∀ s j rest, value n s = some (j, rest) → (rest ≠ [] ∨ ¬ j.IsNum) →
      value m (s ++ t) = some (j, rest ++ t)) ∧
    (∀ s fields rest, members n s = some (fields, rest) →
      members m (s ++ t) = some (fields, rest ++ t)) ∧
    (∀ s xs rest, elements n s = some (xs, rest) → elements m (s ++ t) = some (xs, rest ++ t)) := by
  induction n with
  | zero =>
      intro m _ t
      exact ⟨fun _ _ _ h _ => (nomatch h), fun _ _ _ h => (nomatch h), fun _ _ _ h => (nomatch h)⟩
  | succ n ih =>
      intro m hm t
      obtain ⟨m, rfl⟩ : ∃ k, m = k + 1 := ⟨m - 1, by omega⟩
      obtain ⟨ihvalue, ihmembers, ihelements⟩ := ih m (by omega) t
      refine ⟨?_, ?_, ?_⟩
      · intro s j rest h hend
        have hs := skipSpace_ne_nil_of_value h
        simp only [value] at h ⊢
        rw [skipSpace_append hs]
        split at h
        · next hnil => exact absurd hnil hs
        · next r u hru =>
          rw [hru, List.cons_append]
          simp only at h ⊢
          split_ifs at h ⊢ with hobj harr hstr htrue hfalse hnull
          · split at h
            · next rest' hclose =>
              cases h
              rw [expect_append t hclose]
            · next hopen =>
              obtain ⟨⟨fields, rest'⟩, hfields, heq⟩ := Option.map_eq_some_iff.mp h
              cases heq
              rw [expect_append_none t (skipSpace_ne_nil_of_members hfields) hopen]
              simp [ihmembers _ _ _ hfields]
          · split at h
            · next rest' hclose =>
              cases h
              rw [expect_append t hclose]
            · next hopen =>
              obtain ⟨⟨xs, rest'⟩, hxs, heq⟩ := Option.map_eq_some_iff.mp h
              cases heq
              rw [expect_append_none t (skipSpace_ne_nil_of_elements hxs) hopen]
              simp [ihelements _ _ _ hxs]
          · obtain ⟨⟨text, rest'⟩, htext, heq⟩ := Option.map_eq_some_iff.mp h
            cases heq
            simp [unquote_append t htext]
          · exact word_append t h
          · exact word_append t h
          · exact word_append t h
          · -- a number is not the end of the text, so it ends where it ended
            refine number_append t h (hend.resolve_right ?_)
            obtain ⟨literal, rfl⟩ := isNum_of_number h
            exact fun hnot => hnot trivial
      · intro s fields rest h
        obtain ⟨s₁, key, s₂, s₃, x, s₄, hs₁, hkey, hs₃, hx, hend⟩ := members_cases h
        have hs₁' := expect_append t hs₁
        have hkey' := unquote_append t hkey
        have hs₃' := expect_append t hs₃
        rcases hend with ⟨hclose, rfl⟩ | ⟨s₅, more, hopen, hs₅, hmore, rfl⟩
        · -- a token follows the value, which is therefore not at the end of the text
          have hs₄ := skipSpace_ne_nil_of_expect hclose
          have hx' := ihvalue s₃ x s₄ hx (Or.inl (ne_nil_of_skipSpace hs₄))
          simp [members, hs₁', hkey', hs₃', hx', expect_append t hclose]
        · have hs₄ := skipSpace_ne_nil_of_expect hs₅
          have hx' := ihvalue s₃ x s₄ hx (Or.inl (ne_nil_of_skipSpace hs₄))
          simp [members, hs₁', hkey', hs₃', hx', expect_append_none t hs₄ hopen,
            expect_append t hs₅, ihmembers _ _ _ hmore]
      · intro s xs rest h
        obtain ⟨x, s₁, hx, hend⟩ := elements_cases h
        rcases hend with ⟨hclose, rfl⟩ | ⟨s₂, more, hopen, hs₂, hmore, rfl⟩
        · have hs₁ := skipSpace_ne_nil_of_expect hclose
          have hx' := ihvalue s x s₁ hx (Or.inl (ne_nil_of_skipSpace hs₁))
          simp [elements, hx', expect_append t hclose]
        · have hs₁ := skipSpace_ne_nil_of_expect hs₂
          have hx' := ihvalue s x s₁ hx (Or.inl (ne_nil_of_skipSpace hs₁))
          simp [elements, hx', expect_append_none t hs₁ hopen, expect_append t hs₂,
            ihelements _ _ _ hmore]

/-! ## Texts that are cut short -/

theorem skipSpace_suffix (s : Str) : skipSpace s <:+ s := List.dropWhile_suffix _

/-- A token that is next stands in the text, right before what is left. -/
theorem expect_suffix {token : Rune} {s rest : Str} (h : expect token s = some rest) :
    token :: rest <:+ s := by
  rw [expect] at h
  split at h
  · cases h
  · next r u hs =>
    split at h
    · next heq =>
      cases h
      rw [← heq, ← hs]
      exact skipSpace_suffix s
    · cases h

theorem unquote_suffix {scan : Scan} {s text rest : Str} (h : unquote scan s = some (text, rest)) :
    rest <:+ s := by
  induction s generalizing scan text with
  | nil => simp [unquote] at h
  | cons r s ih =>
      have hstep : ∀ {scan' : Scan} {text' : Str},
          ((Scan.step scan' r).bind fun p => (unquote p.2 s).map fun u => (p.1 ++ u.1, u.2)) = some (text', rest) →
          rest <:+ r :: s := by
        intro scan' text' hs
        obtain ⟨⟨out, next⟩, -, hrest⟩ := Option.bind_eq_some_iff.mp hs
        obtain ⟨⟨u, rest'⟩, hu, heq⟩ := Option.map_eq_some_iff.mp hrest
        cases heq
        exact (ih hu).trans (List.suffix_cons r s)
      cases scan with
      | plain high =>
          simp only [unquote] at h
          split at h
          · cases h
            exact List.suffix_cons r _
          · exact hstep h
      | escape high => exact hstep h
      | hex high left acc => exact hstep h

/-- What is left after a value is the end of the text; after the fields of an object a closing brace
stands before it. -/
theorem read_suffix (n : ℕ) :
    (∀ s j rest, value n s = some (j, rest) → rest <:+ s) ∧
    (∀ s fields rest, members n s = some (fields, rest) → .char '\x7d' :: rest <:+ s) ∧
    (∀ s xs rest, elements n s = some (xs, rest) → rest <:+ s) := by
  induction n with
  | zero => exact ⟨fun _ _ _ h => (nomatch h), fun _ _ _ h => (nomatch h), fun _ _ _ h => (nomatch h)⟩
  | succ n ih =>
      obtain ⟨ihvalue, ihmembers, ihelements⟩ := ih
      refine ⟨?_, ?_, ?_⟩
      · intro s j rest h
        simp only [value] at h
        split at h
        · cases h
        · next r u hru =>
          have hu : u <:+ s := (List.suffix_cons r u).trans (hru ▸ skipSpace_suffix s)
          split_ifs at h with hobj harr hstr htrue hfalse hnull
          · split at h
            · next rest' hclose =>
              cases h
              exact (List.suffix_cons _ _).trans ((expect_suffix hclose).trans hu)
            · obtain ⟨⟨fields, rest'⟩, hfields, heq⟩ := Option.map_eq_some_iff.mp h
              cases heq
              exact (List.suffix_cons _ _).trans ((ihmembers _ _ _ hfields).trans hu)
          · split at h
            · next rest' hclose =>
              cases h
              exact (List.suffix_cons _ _).trans ((expect_suffix hclose).trans hu)
            · obtain ⟨⟨xs, rest'⟩, hxs, heq⟩ := Option.map_eq_some_iff.mp h
              cases heq
              exact (ihelements _ _ _ hxs).trans hu
          · obtain ⟨⟨text, rest'⟩, htext, heq⟩ := Option.map_eq_some_iff.mp h
            cases heq
            exact (unquote_suffix htext).trans hu
          all_goals
            -- a word or a number is dropped from the front
            refine List.IsSuffix.trans ?_ (hru ▸ skipSpace_suffix s)
            simp only [word, number] at h
            split at h
            · cases h
              first | exact List.drop_suffix _ _ | exact List.dropWhile_suffix _
            · cases h
      · intro s fields rest h
        obtain ⟨s₁, key, s₂, s₃, x, s₄, hs₁, hkey, hs₃, hx, hend⟩ := members_cases h
        have hs₄ : s₄ <:+ s :=
          (ihvalue _ _ _ hx).trans <| (List.suffix_cons _ _).trans <| (expect_suffix hs₃).trans <|
            (unquote_suffix hkey).trans <| (List.suffix_cons _ _).trans (expect_suffix hs₁)
        rcases hend with ⟨hclose, -⟩ | ⟨s₅, more, -, hs₅, hmore, -⟩
        · exact (expect_suffix hclose).trans hs₄
        · exact (ihmembers _ _ _ hmore).trans <| (List.suffix_cons _ _).trans <|
            (expect_suffix hs₅).trans hs₄
      · intro s xs rest h
        obtain ⟨x, s₁, hx, hend⟩ := elements_cases h
        rcases hend with ⟨hclose, -⟩ | ⟨s₂, more, -, hs₂, hmore, -⟩
        · exact (List.suffix_cons _ _).trans <| (expect_suffix hclose).trans (ihvalue _ _ _ hx)
        · exact (ihelements _ _ _ hmore).trans <| (List.suffix_cons _ _).trans <|
            (expect_suffix hs₂).trans (ihvalue _ _ _ hx)

/-- A text that begins with a brace and is accepted is an object, and ends with a closing brace. -/
theorem closing_of_value {n : ℕ} {s rest : Str} {j : Json}
    (h : value n (.char '\x7b' :: s) = some (j, rest)) :
    (∃ fields, j = .obj fields) ∧ .char '\x7d' :: rest <:+ s := by
  cases n with
  | zero => cases h
  | succ n =>
      have hbrace : skipSpace (.char '\x7b' :: s) = .char '\x7b' :: s := skipSpace_cons rfl s
      simp only [value, hbrace, if_true] at h
      split at h
      · next rest' hclose =>
        cases h
        exact ⟨⟨_, rfl⟩, expect_suffix hclose⟩
      · obtain ⟨⟨fields, rest'⟩, hfields, heq⟩ := Option.map_eq_some_iff.mp h
        cases heq
        exact ⟨⟨_, rfl⟩, (read_suffix n).2.1 _ _ _ hfields⟩

theorem skipSpace_eq_nil_iff {s : Str} : skipSpace s = [] ↔ ∀ r ∈ s, isJSONSpace r = true := by
  rw [skipSpace, List.dropWhile_eq_nil_iff]

/-- The last rune of an accepted object text closes the object or is a space, so no stray byte
follows it. -/
private theorem no_stray_bytes {n : ℕ} {s rest : Str} {j : Json} {bytes : List UInt8}
    (h : value n (.char '\x7b' :: (s ++ bytes.map .byte)) = some (j, rest))
    (hspace : ∀ r ∈ rest, isJSONSpace r = true) : bytes = [] := by
  by_contra hne
  obtain ⟨-, q, hq⟩ := closing_of_value h
  have hlast : (s ++ bytes.map Rune.byte).getLast? = some (.byte (bytes.getLast hne)) := by
    rw [List.getLast?_append_of_ne_nil _ (by simpa using hne), List.getLast?_map,
      List.getLast?_eq_some_getLast hne]
    rfl
  rw [← hq, List.getLast?_append_of_ne_nil _ (List.cons_ne_nil _ _), List.getLast?_cons] at hlast
  cases hrest : rest.getLast? with
  | none =>
      rw [hrest] at hlast
      cases hlast
  | some r =>
      rw [hrest] at hlast
      cases hlast
      exact absurd (hspace _ (List.mem_of_getLast? hrest)) (by simp [isJSONSpace])

/-- An encoded object that is cut short, even within a character, is no JSON text. -/
theorem parse_cut {fields : List (Str × Json)} (hwf : (Json.obj fields).WellFormed) {p t : Str}
    (hcut : (Json.obj fields).encode = p ++ t) (ht : t ≠ []) (bytes : List UInt8) :
    parse (p ++ bytes.map .byte) = none := by
  rw [parse, Option.bind_eq_none_iff]
  rintro ⟨j, rest⟩ hvalue
  refine if_neg fun hspace => ?_
  rw [skipSpace_eq_nil_iff] at hspace
  cases p with
  | nil =>
      cases bytes with
      | nil => cases hvalue
      | cons b bytes =>
          simp [value, skipSpace, isJSONSpace, number, isNumberRune, Rune.isDigit, validNumber] at hvalue
  | cons r p =>
      have hr : r = .char '\x7b' := by
        rw [Json.encode, List.cons_append] at hcut
        exact (List.cons.inj hcut).1.symm
      subst hr
      have hbytes := no_stray_bytes hvalue hspace
      subst hbytes
      obtain ⟨⟨fields', rfl⟩, -⟩ := closing_of_value hvalue
      -- the whole text would be read to the same end, although the encoder wrote more after it
      rw [List.map_nil, List.append_nil] at hvalue
      have hlong := (read_append _ ((Json.obj fields).encode.length + 1)
        (by rw [hcut, List.length_append]; omega) t).1 _ _ _ hvalue (Or.inr id)
      rw [← hcut] at hlong
      have hwhole := value_encode (Json.obj fields) ((Json.obj fields).encode.length + 1) [] hwf
        (Nat.le_succ _) (by simp [EndsNumber])
      rw [List.append_nil, hlong] at hwhole
      simp only [Option.some.injEq, Prod.mk.injEq, List.append_eq_nil_iff] at hwhole
      exact ht hwhole.2.2

end WeighingSync.Go
