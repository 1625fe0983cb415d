import WeighingSync.Common.AllOrNothing
import WeighingSync.Common.Window

/-!
# Decoded windows

A query reads a window of sorted rows and decodes them all or nothing. If every row can be decoded, and
the order of the rows carries over to what they are decoded as, the query gives the first of the decoded
rows in that order.
-/

namespace WeighingSync

variable {α β : Type*}

/-- The first `n` of some values in the order `q`: these are taken, and those are left. -/
structure FirstOf (q : β → β → Prop) (n : ℕ) (values taken left : List β) : Prop where
  perm : (taken ++ left).Perm values
  length : taken.length = min n values.length
  sorted : taken.Pairwise q
  before : ∀ x ∈ taken, ∀ y ∈ left, q x y

variable {r : α → α → Prop} [DecidableRel r] [Std.Total r] [IsTrans α r] {q : β → β → Prop} {n : ℕ}
  {rows : List α} {decode : α → Option β}

/-- The rows of a window are decoded as the first of the decoded rows. -/
theorem firstOf_window [Nonempty β] (hdecode : ∀ a ∈ rows, (decode a).isSome = true)
    (horder : ∀ a ∈ rows, ∀ b ∈ rows, ∀ x ∈ decode a, ∀ y ∈ decode b, r a b → q x y) :
    ∃ values taken left, rows.mapM decode = some values ∧ (window r n rows).mapM decode = some taken ∧
      FirstOf q n values taken left := by
  have hvalue : ∀ a ∈ rows, ∃ x, decode a = some x := fun a ha =>
    Option.isSome_iff_exists.mp (hdecode a ha)
  choose! g hg using hvalue
  have hsorted : (window r n rows ++ beyond r n rows).Pairwise r := by
    rw [window, beyond, List.take_append_drop]
    exact List.pairwise_insertionSort r rows
  have hperm : (window r n rows ++ beyond r n rows).Perm rows := by
    rw [window, beyond, List.take_append_drop]
    exact List.perm_insertionSort r rows
  have hdecoded : ((window r n rows).map g ++ (beyond r n rows).map g).Pairwise q := by
    rw [← List.map_append, List.pairwise_map]
    refine hsorted.imp_of_mem fun {a b} ha hb hab => ?_
    have ha := hperm.subset ha
    have hb := hperm.subset hb
    exact horder a ha b hb _ (hg a ha) _ (hg b hb) hab
  obtain ⟨htaken, -, hbefore⟩ := List.pairwise_append.mp hdecoded
  refine ⟨rows.map g, (window r n rows).map g, (beyond r n rows).map g, mapM_some_of_forall hg,
    mapM_some_of_forall fun a ha => hg a (mem_of_mem_window ha), ?_, ?_, htaken, hbefore⟩
  · rw [← List.map_append]
    exact hperm.map g
  · rw [List.length_map, List.length_map, window, List.length_take, List.length_insertionSort]

end WeighingSync
