import Mathlib

/-!
# All or nothing

A list that is decoded element by element, and only if every element can be; a computation that goes
through if each of its steps does.
-/

namespace WeighingSync

variable {α β : Type*} {f : α → Option β} {xs : List α}

/-- A list is decoded if all its elements are. -/
theorem isSome_mapM_iff : (xs.mapM f).isSome = true ↔ ∀ x ∈ xs, (f x).isSome = true := by
  induction xs with
  | nil => simp
  | cons x xs ih =>
      rw [List.mapM_cons, List.forall_mem_cons, ← ih]
      cases f x <;> cases xs.mapM f <;> simp

/-- Elements that are decoded one by one are decoded as a list. -/
theorem mapM_some_of_forall {g : α → β} (h : ∀ x ∈ xs, f x = some (g x)) :
    xs.mapM f = some (xs.map g) := by
  induction xs with
  | nil => rfl
  | cons x xs ih =>
      rw [List.mapM_cons, h x List.mem_cons_self, ih fun y hy => h y (List.mem_cons_of_mem x hy)]
      rfl

/-- The list that is decoded holds what each element is decoded as. -/
theorem forall₂_of_mapM {ys : List β} (h : xs.mapM f = some ys) :
    List.Forall₂ (fun x y => f x = some y) xs ys := by
  induction xs generalizing ys with
  | nil =>
      cases h
      exact .nil
  | cons x xs ih =>
      rw [List.mapM_cons] at h
      obtain ⟨y, hy, hrest⟩ := Option.bind_eq_some_iff.mp h
      obtain ⟨zs, hzs, hys⟩ := Option.bind_eq_some_iff.mp hrest
      cases hys
      exact .cons hy (ih hzs)

theorem length_of_mapM {ys : List β} (h : xs.mapM f = some ys) : ys.length = xs.length :=
  (forall₂_of_mapM h).length_eq.symm

theorem exists_of_mem_mapM {ys : List β} {y : β} (h : xs.mapM f = some ys) (hy : y ∈ ys) :
    ∃ x ∈ xs, f x = some y := by
  have hread := forall₂_of_mapM h
  clear h
  induction hread with
  | nil => cases hy
  | cons hxy _ ih =>
      rcases List.mem_cons.mp hy with rfl | hy
      · exact ⟨_, List.mem_cons_self, hxy⟩
      · obtain ⟨x, hx, hxy⟩ := ih hy
        exact ⟨x, List.mem_cons_of_mem _ hx, hxy⟩

/-- A computation that goes through has gone through step by step. -/
theorem bind_eq_ok_iff {ε α β : Type} {x : Except ε α} {f : α → Except ε β} {b : β} :
    (x >>= f) = .ok b ↔ ∃ a, x = .ok a ∧ f a = .ok b := by
  cases x <;> simp [bind, Except.bind]

end WeighingSync
