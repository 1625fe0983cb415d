import Mathlib

/-!
# Chunks

The loops that send a long list to the database in parts: the parts, put together, are the list, and
none is longer than the limit.
-/

namespace WeighingSync

/-- Slices of `n` elements, side by side from the first element on, make up a prefix. -/
theorem flatten_slices {α : Type*} (n m : ℕ) (xs : List α) :
    ((List.range m).map fun k => (xs.drop (n * k)).take n).flatten = xs.take (n * m) := by
  induction m with
  | zero => simp
  | succ m ih =>
      rw [List.range_succ, List.map_append, List.flatten_append, ih, Nat.mul_succ, List.take_add]
      simp

/-- The slices `xs[start:end]` of a loop over `start`, in steps of `n`. -/
def chunks {α : Type*} (n : ℕ) (xs : List α) : List (List α) :=
  (List.range ((xs.length + n - 1) / n)).map fun k => (xs.drop (n * k)).take n

/-- The chunks of a list make up the list. -/
theorem flatten_chunks {α : Type*} {n : ℕ} (hn : 0 < n) (xs : List α) : (chunks n xs).flatten = xs := by
  rw [chunks, flatten_slices]
  apply List.take_of_length_le
  have hdiv := Nat.div_add_mod (xs.length + n - 1) n
  have hmod := Nat.mod_lt (xs.length + n - 1) hn
  omega

theorem chunk_length_le {α : Type*} {n : ℕ} {xs c : List α} (h : c ∈ chunks n xs) : c.length ≤ n := by
  obtain ⟨k, -, rfl⟩ := List.mem_map.mp h
  rw [List.length_take]
  exact Nat.min_le_left _ _

end WeighingSync
