import Mathlib

/-!
# Sorted windows

`SELECT TOP (n) … ORDER BY` and `… ORDER BY … LIMIT n` read a prefix of the sorted rows. `window` is
that prefix and `beyond` the rest, for any order relation; a row is in exactly one of the two.
-/

namespace WeighingSync

variable {α : Type*} (r : α → α → Prop) [DecidableRel r]

/-- The first `n` rows in the order `r`. -/
def window (n : ℕ) (rows : List α) : List α := (rows.insertionSort r).take n

/-- The rows that the first `n` leave out. -/
def beyond (n : ℕ) (rows : List α) : List α := (rows.insertionSort r).drop n

variable {r} {n : ℕ} {rows : List α} {x : α}

/-- Every row is in the window or beyond it. -/
theorem mem_iff_window_or_beyond : x ∈ rows ↔ x ∈ window r n rows ∨ x ∈ beyond r n rows := by
  rw [← List.mem_append, window, beyond, List.take_append_drop]
  exact (List.mem_insertionSort r).symm

theorem mem_of_mem_window (h : x ∈ window r n rows) : x ∈ rows :=
  mem_iff_window_or_beyond.mpr (Or.inl h)

/-- Nothing lies beyond the window exactly when all rows fit in it. -/
theorem beyond_eq_nil_iff : beyond r n rows = [] ↔ rows.length ≤ n := by
  rw [beyond, List.drop_eq_nil_iff, List.length_insertionSort]

/-- A window holds no two rows with one image if the table holds none. -/
theorem nodup_map_window {β : Type*} {f : α → β} (h : (rows.map f).Nodup) :
    ((window r n rows).map f).Nodup := by
  have hsorted : ((rows.insertionSort r).map f).Nodup :=
    ((List.perm_insertionSort r rows).map f).nodup_iff.mpr h
  exact hsorted.sublist ((List.take_sublist n _).map f)

end WeighingSync
