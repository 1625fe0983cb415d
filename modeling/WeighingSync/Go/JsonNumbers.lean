import WeighingSync.Go.Json

/-!
# Numbers within JSON values

`Json.induct` is the induction over JSON values. What `mapNumbers` makes of a value is the value with
other numbers in it, element by element (`mapElements_eq_some_iff`) and field by field
(`mapFields_eq_some_iff`). If these are JSON numbers, it is well formed.
-/

namespace WeighingSync.Go

/-- What holds of a value if it holds of its elements, or of the values of its fields, holds of every
value. -/
@[elab_as_elim]
theorem Json.induct {P : Json → Prop} (null : P .null) (bool : ∀ b, P (.bool b))
    (num : ∀ literal, P (.num literal)) (str : ∀ s, P (.str s))
    (arr : ∀ xs, (∀ x ∈ xs, P x) → P (.arr xs))
    (obj : ∀ fields, (∀ f ∈ fields, P f.2) → P (.obj fields)) (j : Json) : P j :=
  @Json.rec P (fun xs => ∀ x ∈ xs, P x) (fun fields => ∀ f ∈ fields, P f.2) (fun f => P f.2)
    null bool num str (fun xs hxs => arr xs hxs)
    (fun fields hfields => obj fields hfields) (List.forall_mem_nil _)
    (fun _ _ hx hxs => List.forall_mem_cons.mpr ⟨hx, hxs⟩) (List.forall_mem_nil _)
    (fun _ _ hf hfields => List.forall_mem_cons.mpr ⟨hf, hfields⟩) (fun _ _ hx => hx) j

namespace Json

/-- Each element of the second list has its partner in the first. -/
theorem exists_mem_of_forall₂ {α β : Type*} {R : α → β → Prop} {xs : List α} {ys : List β}
    (h : List.Forall₂ R xs ys) {y : β} (hy : y ∈ ys) : ∃ x ∈ xs, R x y := by
  induction h with
  | nil => exact absurd hy List.not_mem_nil
  | cons hxy hrest ih =>
      rcases List.mem_cons.mp hy with rfl | hy
      · exact ⟨_, List.mem_cons_self, hxy⟩
      · obtain ⟨x, hx, hR⟩ := ih hy
        exact ⟨x, List.mem_cons_of_mem _ hx, hR⟩

variable {f : Str → Option Str}

theorem mapElements_eq_some_iff {xs ys : List Json} :
    mapElements f xs = some ys ↔ List.Forall₂ (fun x y => mapNumbers f x = some y) xs ys := by
  induction xs generalizing ys with
  | nil => simp [mapElements, eq_comm]
  | cons x xs ih =>
      simp only [mapElements, Option.bind_eq_some_iff, Option.map_eq_some_iff, ih,
        List.forall₂_cons_left_iff, eq_comm (a := ys)]
      exact ⟨fun ⟨y, hy, zs, hzs, h⟩ => ⟨y, zs, hy, hzs, h⟩, fun ⟨y, zs, hy, hzs, h⟩ => ⟨y, hy, zs, hzs, h⟩⟩

theorem mapFields_eq_some_iff {fields fields' : List (Str × Json)} :
    mapFields f fields = some fields' ↔
      List.Forall₂ (fun g g' => g'.1 = g.1 ∧ mapNumbers f g.2 = some g'.2) fields fields' := by
  induction fields generalizing fields' with
  | nil => simp [mapFields, eq_comm]
  | cons g fields ih =>
      simp only [mapFields, Option.bind_eq_some_iff, Option.map_eq_some_iff, ih,
        List.forall₂_cons_left_iff, eq_comm (a := fields')]
      constructor
      · rintro ⟨y, hy, rest, hrest, rfl⟩
        exact ⟨(g.1, y), rest, ⟨rfl, hy⟩, hrest, rfl⟩
      · rintro ⟨⟨k, y⟩, rest, ⟨hk, hy⟩, hrest, rfl⟩
        exact ⟨y, hy, rest, hrest, by rw [← hk]⟩

/-- Numbers that are replaced by JSON numbers leave a well-formed value. -/
theorem wellFormed_of_mapNumbers (hf : ∀ literal t, f literal = some t → (num t).WellFormed)
    {j j' : Json} (h : mapNumbers f j = some j') : j'.WellFormed := by
  induction j using Json.induct generalizing j' with
  | null => cases h; trivial
  | bool b => cases h; trivial
  | num literal =>
      obtain ⟨t, ht, rfl⟩ := Option.map_eq_some_iff.mp h
      exact hf literal t ht
  | str s => cases h; trivial
  | arr xs ih =>
      obtain ⟨ys, hys, rfl⟩ := Option.map_eq_some_iff.mp h
      rw [wellFormed_arr]
      intro y hy
      obtain ⟨x, hx, hxy⟩ := exists_mem_of_forall₂ (mapElements_eq_some_iff.mp hys) hy
      exact ih x hx hxy
  | obj fields ih =>
      obtain ⟨fields', hfields, rfl⟩ := Option.map_eq_some_iff.mp h
      rw [wellFormed_obj]
      intro g' hg'
      obtain ⟨g, hg, -, hgg'⟩ := exists_mem_of_forall₂ (mapFields_eq_some_iff.mp hfields) hg'
      exact ih g hg hgg'

end Json

end WeighingSync.Go
