import Mathlib

/-!
# Frames of row updates

An `UPDATE` changes the rows of a table in place. `KeepsOutside batch view` says that one leaves
alone what `view` reads of the rows outside `batch`.
-/

namespace WeighingSync

variable {α β : Type*}

/-- Row by row, what `view` reads of a row outside the batch stays. -/
def KeepsOutside (batch : List α) (view : α → β) (rows rows' : List α) : Prop :=
  List.Forall₂ (fun row row' => row ∉ batch → view row' = view row) rows rows'

variable {batch : List α} {view : α → β} {rows : List α}

theorem keepsOutside_cons_iff {row row' : α} {rows' : List α} :
    KeepsOutside batch view (row :: rows) (row' :: rows') ↔
      (row ∉ batch → view row' = view row) ∧ KeepsOutside batch view rows rows' :=
  List.forall₂_cons

instance KeepsOutside.decidable [DecidableEq α] [DecidableEq β] :
    ∀ rows rows' : List α, Decidable (KeepsOutside batch view rows rows')
  | [], [] => isTrue .nil
  | [], _ :: _ => isFalse nofun
  | _ :: _, [] => isFalse nofun
  | _ :: rows, _ :: rows' =>
      have := KeepsOutside.decidable rows rows'
      decidable_of_iff _ keepsOutside_cons_iff.symm

theorem keepsOutside_refl : KeepsOutside batch view rows rows :=
  List.forall₂_same.mpr fun _ _ _ => rfl

theorem keepsOutside_map_iff {f : α → α} : KeepsOutside batch view rows (rows.map f) ↔
    ∀ row ∈ rows, row ∉ batch → view (f row) = view row := by
  rw [KeepsOutside, List.forall₂_map_right_iff, List.forall₂_same]

/-- An update of some rows keeps the rows outside the batch exactly when each of these that it
selects looks the same afterwards. -/
theorem keepsOutside_update_iff {p : α → Prop} [DecidablePred p] {f : α → α} :
    KeepsOutside batch view rows (rows.map fun row => if p row then f row else row) ↔
      ∀ row ∈ rows, row ∉ batch → p row → view (f row) = view row := by
  rw [keepsOutside_map_iff]
  constructor
  · intro h row hrow hout hp
    have hview := h row hrow hout
    rwa [if_pos hp] at hview
  · intro h row hrow hout
    split_ifs with hp
    · exact h row hrow hout hp
    · rfl

end WeighingSync
