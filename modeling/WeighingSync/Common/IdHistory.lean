import WeighingSync.Common.KeyedTable

/-!
# The ids that a table has handed out

A table with an auto-increment id hands out an id once. `Follows` is what any statement does to such a
table, and `History` collects the keys that ids were handed out to: an id has one key for good
(`History.follow`).
-/

namespace WeighingSync.KeyedTable

variable {κ α : Type*}

/-- The ids of the rows, with their keys. -/
def pairs (t : KeyedTable κ α) : List (ℕ × κ) := t.rows.map fun r => (r.id, r.key)

theorem mem_pairs {t : KeyedTable κ α} {p : ℕ × κ} :
    p ∈ t.pairs ↔ ∃ r ∈ t.rows, r.id = p.1 ∧ r.key = p.2 := by
  simp only [pairs, List.mem_map, Prod.ext_iff]

/-- A row keeps its id and its key, or it is new and has an id that was not handed out before. -/
structure Follows (t t' : KeyedTable κ α) : Prop where
  nextId_le : t.nextId ≤ t'.nextId
  rows : ∀ r' ∈ t'.rows, (∃ r ∈ t.rows, r.id = r'.id ∧ r.key = r'.key) ∨ t.nextId ≤ r'.id

theorem Follows.refl (t : KeyedTable κ α) : Follows t t :=
  ⟨Nat.le_refl _, fun r hr => Or.inl ⟨r, hr, rfl, rfl⟩⟩

theorem follows_deleteWhere (t : KeyedTable κ α) (p : Entry κ α → Bool) :
    Follows t (t.deleteWhere p) :=
  ⟨Nat.le_refl _, fun r hr => Or.inl ⟨r, (mem_deleteWhere.mp hr).1, rfl, rfl⟩⟩

/-- The keys that the ids of a table were handed out to, one for each id. -/
structure History (t : KeyedTable κ α) (assigned : List (ℕ × κ)) : Prop where
  lt : ∀ p ∈ assigned, p.1 < t.nextId
  live : ∀ r ∈ t.rows, (r.id, r.key) ∈ assigned
  functional : ∀ p ∈ assigned, ∀ p' ∈ assigned, p.1 = p'.1 → p.2 = p'.2

theorem history_empty : History (empty : KeyedTable κ α) [] :=
  ⟨List.forall_mem_nil _, List.forall_mem_nil _, List.forall_mem_nil _⟩

/-- Whatever follows, an id keeps its one key. -/
theorem History.follow {t t' : KeyedTable κ α} {assigned : List (ℕ × κ)} (h : History t assigned)
    (hf : Follows t t') : History t' (t'.pairs ++ assigned) where
  lt := by
    intro p hp
    rcases List.mem_append.mp hp with hp | hp
    · obtain ⟨r, hr, hid, -⟩ := mem_pairs.mp hp
      exact hid ▸ t'.id_lt r hr
    · exact (h.lt p hp).trans_le hf.nextId_le
  live := by
    intro r hr
    exact List.mem_append_left _ (mem_pairs.mpr ⟨r, hr, rfl, rfl⟩)
  functional := by
    -- the id of a row was handed out to the key of the row, or is newer than any of before
    have hnew : ∀ r ∈ t'.rows, ∀ p ∈ assigned, r.id = p.1 → r.key = p.2 := by
      intro r hr p hp hid
      rcases hf.rows r hr with ⟨r₀, hr₀, hid₀, hkey₀⟩ | hfresh
      · rw [← hkey₀]
        exact h.functional _ (h.live r₀ hr₀) p hp (hid₀.trans hid)
      · have hlt := h.lt p hp
        omega
    intro p hp p' hp' hid
    rcases List.mem_append.mp hp with hp | hp <;> rcases List.mem_append.mp hp' with hp' | hp'
    · obtain ⟨r, hr, hrid, hrkey⟩ := mem_pairs.mp hp
      obtain ⟨r', hr', hrid', hrkey'⟩ := mem_pairs.mp hp'
      rw [← hrkey, ← hrkey', eq_of_id_eq hr hr' (by rw [hrid, hrid', hid])]
    · obtain ⟨r, hr, hrid, hrkey⟩ := mem_pairs.mp hp
      rw [← hrkey]
      exact hnew r hr p' hp' (hrid.trans hid)
    · obtain ⟨r, hr, hrid, hrkey⟩ := mem_pairs.mp hp'
      rw [← hrkey]
      exact (hnew r hr p hp (hrid.trans hid.symm)).symm
    · exact h.functional p hp p' hp' hid

end WeighingSync.KeyedTable
