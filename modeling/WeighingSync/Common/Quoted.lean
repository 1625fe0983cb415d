import Mathlib

/-!
# Quoted names

A name between an opening and a closing symbol, in which the closing symbol is written twice. A lexer
reads it back, whatever its symbols, up to a text that does not begin with the closing symbol
(`lexQuoted_quoted`), and it reads back a list of such names (`lexNames_append`).
-/

namespace WeighingSync

variable {α : Type*} [DecidableEq α]

/-- The name with every closing symbol written twice. -/
def doubled (closing : α) (s : List α) : List α :=
  s.flatMap fun c => if c = closing then [closing, closing] else [c]

/-- The name between its symbols. -/
def quoted (opening closing : α) (s : List α) : List α := opening :: (doubled closing s ++ [closing])

/-- Reads up to a single closing symbol: the name, and the text that is left. -/
def lexName (closing : α) : List α → Option (List α × List α)
  | [] => none
  | c :: text =>
      if c = closing then
        match text with
        | [] => some ([], [])
        | d :: rest =>
            if d = closing then (lexName closing rest).map fun (s, rest) => (closing :: s, rest)
            else some ([], d :: rest)
      else (lexName closing text).map fun (s, rest) => (c :: s, rest)

/-- Reads a quoted name. -/
def lexQuoted (opening closing : α) : List α → Option (List α × List α)
  | [] => none
  | c :: text => if c = opening then lexName closing text else none

/-- Reads quoted names with separators between them, and blanks around these. -/
def lexNames (opening closing separator : α) (blank : α → Bool) :
    ℕ → List α → Option (List (List α) × List α)
  | 0, _ => none
  | fuel + 1, text => do
      let (name, rest) ← lexQuoted opening closing text
      match rest.dropWhile blank with
      | c :: rest' =>
          if c = separator then
            (lexNames opening closing separator blank fuel (rest'.dropWhile blank)).map
              fun (names, rest) => (name :: names, rest)
          else some ([name], rest)
      | [] => some ([name], rest)

section

variable {opening closing separator : α} {blank : α → Bool}

theorem lexName_cons {c : α} (h : c ≠ closing) (text : List α) :
    lexName closing (c :: text) = (lexName closing text).map fun (s, rest) => (c :: s, rest) := by
  rw [lexName.eq_def]
  exact if_neg h

theorem lexName_twice (text : List α) : lexName closing (closing :: closing :: text) =
    (lexName closing text).map fun (s, rest) => (closing :: s, rest) := by
  rw [lexName.eq_def]
  simp only [if_true]

/-- The closing symbol ends a name in front of anything else. -/
theorem lexName_closing {text : List α} (h : ¬ [closing] <+: text) :
    lexName closing (closing :: text) = some ([], text) := by
  rw [lexName.eq_def]
  cases text with
  | nil => simp only [if_true]
  | cons d text =>
      have hne : d ≠ closing := by
        rintro rfl
        exact h (List.prefix_append [d] text)
      simp only [if_true, if_neg hne]

/-- A name is read back up to its closing symbol. -/
theorem lexName_doubled (s : List α) {text : List α} (h : ¬ [closing] <+: text) :
    lexName closing (doubled closing s ++ closing :: text) = some (s, text) := by
  induction s with
  | nil => exact lexName_closing h
  | cons c s ih =>
      rw [doubled, List.flatMap_cons, List.append_assoc]
      rw [doubled] at ih
      split_ifs with hc
      · rw [List.cons_append, List.cons_append, List.nil_append, lexName_twice, ih, hc]
        rfl
      · rw [List.cons_append, List.nil_append, lexName_cons hc, ih]
        rfl

/-- A quoted name is read back, and what follows it is left. -/
theorem lexQuoted_quoted (s : List α) {text : List α} (h : ¬ [closing] <+: text) :
    lexQuoted opening closing (quoted opening closing s ++ text) = some (s, text) := by
  rw [quoted, List.cons_append, lexQuoted, if_pos rfl, List.append_assoc, List.singleton_append]
  exact lexName_doubled s h

/-- The text ends a list of names: nothing in it can be taken for a part of the list. -/
structure EndsNames (closing separator : α) (blank : α → Bool) (text : List α) : Prop where
  closing : ¬ [closing] <+: text
  separator : ¬ [separator] <+: text.dropWhile blank

/-- A name that ends the list. -/
theorem lexNames_last {fuel : ℕ} (s : List α) {text : List α}
    (h : EndsNames closing separator blank text) :
    lexNames opening closing separator blank (fuel + 1) (quoted opening closing s ++ text) =
      some ([s], text) := by
  rw [lexNames, lexQuoted_quoted s h.closing, Option.bind_eq_bind, Option.bind_some]
  have hseparator := h.separator
  simp only
  split
  · next c rest hrest =>
    have hne : c ≠ separator := by
      rintro rfl
      rw [hrest] at hseparator
      exact hseparator (List.prefix_append [c] rest)
    rw [if_neg hne]
  · rfl

/-- The names of a list are read back. Between them stand a separator and blanks, and neither of these
nor the opening symbol is the closing symbol. -/
theorem lexNames_append (between : List α) (hbetween : ∀ c ∈ between, blank c = true)
    (hopening : blank opening = false) (hseparator : blank separator = false)
    (hne : separator ≠ closing) (names : List (List α)) (hnames : names ≠ [])
    {fuel : ℕ} (hfuel : names.length ≤ fuel) {text : List α}
    (h : EndsNames closing separator blank text) :
    lexNames opening closing separator blank fuel
        ((separator :: between).intercalate (names.map (quoted opening closing)) ++ text) =
      some (names, text) := by
  induction names generalizing fuel with
  | nil => exact absurd rfl hnames
  | cons s names ih =>
      obtain ⟨fuel, rfl⟩ := Nat.exists_eq_add_one_of_ne_zero
        (show fuel ≠ 0 by rw [List.length_cons] at hfuel; omega)
      cases names with
      | nil =>
          rw [List.map_singleton, List.intercalate_singleton]
          exact lexNames_last s h
      | cons s' names =>
          have hrest := @ih (List.cons_ne_nil _ _) fuel (by rw [List.length_cons] at hfuel; omega)
          have hstop : ¬ [closing] <+: separator :: between ++
              ((separator :: between).intercalate ((s' :: names).map (quoted opening closing)) ++
                text) := by
            rintro ⟨t, ht⟩
            exact hne (List.cons.inj ht).1.symm
          have hblank : ∀ t, (between ++ opening :: t).dropWhile blank = opening :: t := by
            intro t
            rw [List.dropWhile_append_of_pos hbetween, List.dropWhile_cons_of_neg (by simp [hopening])]
          have hhead : ∃ t, (separator :: between).intercalate
              ((s' :: names).map (quoted opening closing)) ++ text = opening :: t := by
            cases names with
            | nil => exact ⟨_, rfl⟩
            | cons s'' names => exact ⟨_, rfl⟩
          obtain ⟨t, ht⟩ := hhead
          rw [List.map_cons, List.map_cons, List.intercalate_cons_cons, ← List.map_cons,
            List.append_assoc, List.append_assoc, lexNames, lexQuoted_quoted s hstop,
            Option.bind_eq_bind, Option.bind_some]
          rw [ht] at hrest ⊢
          simp only [List.cons_append]
          rw [List.dropWhile_cons_of_neg (by simp [hseparator])]
          simp only [if_pos, hblank, hrest, Option.map_some]

end

end WeighingSync
