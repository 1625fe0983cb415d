import Mathlib

/-!
# Tables with a surrogate id and a unique key

A SQL table with an auto-increment primary key and one unique key column. The invariants are fields:
ids are positive and below the next one to be handed out, and neither an id nor a key occurs twice.
`upsert` is `INSERT … ON CONFLICT (key) DO UPDATE`: it keeps the id of a row that exists and hands
out a fresh id otherwise.
-/

namespace WeighingSync

/-- One row: its surrogate id, its unique key and the other columns. -/
structure Entry (κ α : Type*) where
  id : ℕ
  key : κ
  val : α
  deriving DecidableEq, Repr

/-- A table whose rows have distinct ids, all handed out before `nextId`, and distinct keys. -/
structure KeyedTable (κ α : Type*) where
  rows : List (Entry κ α)
  nextId : ℕ
  nextId_pos : 0 < nextId
  id_pos : ∀ r ∈ rows, 0 < r.id
  id_lt : ∀ r ∈ rows, r.id < nextId
  id_nodup : (rows.map Entry.id).Nodup
  key_nodup : (rows.map Entry.key).Nodup

namespace KeyedTable

variable {κ α : Type*}

/-- The table just created: ids start at one. -/
def empty : KeyedTable κ α where
  rows := []
  nextId := 1
  nextId_pos := Nat.one_pos
  id_pos := by simp
  id_lt := by simp
  id_nodup := List.nodup_nil
  key_nodup := List.nodup_nil

@[simp] theorem rows_empty : (empty : KeyedTable κ α).rows = [] := rfl

/-- The keys present. -/
def keys (t : KeyedTable κ α) : List κ := t.rows.map Entry.key

theorem mem_keys {t : KeyedTable κ α} {k : κ} : k ∈ t.keys ↔ ∃ r ∈ t.rows, r.key = k := by
  simp [keys]

/-- Two rows with one key are the same row. -/
theorem eq_of_key_eq {t : KeyedTable κ α} {r r' : Entry κ α} (hr : r ∈ t.rows) (hr' : r' ∈ t.rows)
    (h : r.key = r'.key) : r = r' :=
  List.inj_on_of_nodup_map t.key_nodup hr hr' h

/-- Two rows with one id are the same row. -/
theorem eq_of_id_eq {t : KeyedTable κ α} {r r' : Entry κ α} (hr : r ∈ t.rows) (hr' : r' ∈ t.rows)
    (h : r.id = r'.id) : r = r' :=
  List.inj_on_of_nodup_map t.id_nodup hr hr' h

/-- No row has the id that the next insert will use. -/
theorem ne_nextId {t : KeyedTable κ α} {r : Entry κ α} (hr : r ∈ t.rows) : r.id ≠ t.nextId :=
  Nat.ne_of_lt (t.id_lt r hr)

/-! ## Updates in place -/

/-- Change the value columns of every row by `f`; ids and keys stay. -/
def mapVal (t : KeyedTable κ α) (f : Entry κ α → α) : KeyedTable κ α where
  rows := t.rows.map fun r => { r with val := f r }
  nextId := t.nextId
  nextId_pos := t.nextId_pos
  id_pos := by simpa using t.id_pos
  id_lt := by simpa using t.id_lt
  id_nodup := by
    rw [List.map_map]
    exact t.id_nodup
  key_nodup := by
    rw [List.map_map]
    exact t.key_nodup

@[simp] theorem keys_mapVal (t : KeyedTable κ α) (f : Entry κ α → α) :
    (t.mapVal f).keys = t.keys := by
  rw [keys, mapVal, List.map_map]
  rfl

@[simp] theorem nextId_mapVal (t : KeyedTable κ α) (f : Entry κ α → α) :
    (t.mapVal f).nextId = t.nextId := rfl

theorem mem_mapVal {t : KeyedTable κ α} {f : Entry κ α → α} {r : Entry κ α} :
    r ∈ (t.mapVal f).rows ↔ ∃ r₀ ∈ t.rows, { r₀ with val := f r₀ } = r := by
  simp [mapVal]

/-- `UPDATE … SET … WHERE p`: change the value columns of the rows that satisfy `p`. -/
def updateWhere (t : KeyedTable κ α) (p : Entry κ α → Bool) (f : α → α) : KeyedTable κ α :=
  t.mapVal fun r => if p r then f r.val else r.val

@[simp] theorem keys_updateWhere (t : KeyedTable κ α) (p : Entry κ α → Bool) (f : α → α) :
    (t.updateWhere p f).keys = t.keys := keys_mapVal t _

@[simp] theorem nextId_updateWhere (t : KeyedTable κ α) (p : Entry κ α → Bool) (f : α → α) :
    (t.updateWhere p f).nextId = t.nextId := rfl

/-- A row after an update is a row it left alone or the changed image of one it matched. -/
theorem mem_updateWhere {t : KeyedTable κ α} {p : Entry κ α → Bool} {f : α → α} {r : Entry κ α} :
    r ∈ (t.updateWhere p f).rows ↔
      (r ∈ t.rows ∧ p r = false) ∨ ∃ r₀ ∈ t.rows, p r₀ = true ∧ { r₀ with val := f r₀.val } = r := by
  rw [updateWhere, mem_mapVal]
  constructor
  · rintro ⟨r₀, hr₀, rfl⟩
    by_cases hp : p r₀ = true
    · exact Or.inr ⟨r₀, hr₀, hp, by simp [hp]⟩
    · have hp' : p r₀ = false := by simpa using hp
      refine Or.inl ?_
      have hrow : ({ r₀ with val := if p r₀ then f r₀.val else r₀.val } : Entry κ α) = r₀ := by
        simp [hp']
      rw [hrow]
      exact ⟨hr₀, hp'⟩
  · rintro (⟨hr, hp⟩ | ⟨r₀, hr₀, hp, rfl⟩)
    · exact ⟨r, hr, by simp [hp]⟩
    · exact ⟨r₀, hr₀, by simp [hp]⟩

/-! ## Deletion -/

/-- `DELETE … WHERE p`. -/
def deleteWhere (t : KeyedTable κ α) (p : Entry κ α → Bool) : KeyedTable κ α where
  rows := t.rows.filter fun r => !p r
  nextId := t.nextId
  nextId_pos := t.nextId_pos
  id_pos := fun r hr => t.id_pos r (List.mem_of_mem_filter hr)
  id_lt := fun r hr => t.id_lt r (List.mem_of_mem_filter hr)
  id_nodup := t.id_nodup.sublist (List.filter_sublist.map _)
  key_nodup := t.key_nodup.sublist (List.filter_sublist.map _)

@[simp] theorem nextId_deleteWhere (t : KeyedTable κ α) (p : Entry κ α → Bool) :
    (t.deleteWhere p).nextId = t.nextId := rfl

/-- Deletions that match the same rows of a table come to the same. -/
theorem deleteWhere_congr {t : KeyedTable κ α} {p q : Entry κ α → Bool}
    (h : ∀ r ∈ t.rows, p r = q r) : t.deleteWhere p = t.deleteWhere q := by
  have hrows : (t.rows.filter fun r => !p r) = t.rows.filter fun r => !q r :=
    List.filter_congr fun r hr => by rw [h r hr]
  simp only [deleteWhere, hrows]

@[simp] theorem mem_deleteWhere {t : KeyedTable κ α} {p : Entry κ α → Bool} {r : Entry κ α} :
    r ∈ (t.deleteWhere p).rows ↔ r ∈ t.rows ∧ p r = false := by
  simp [deleteWhere]

/-! ## Upserts -/

variable [DecidableEq κ]

/-- The row with a given key. -/
def find? (t : KeyedTable κ α) (k : κ) : Option (Entry κ α) := t.rows.find? fun r => r.key = k

theorem find?_eq_some_iff {t : KeyedTable κ α} {k : κ} {r : Entry κ α} :
    t.find? k = some r ↔ r ∈ t.rows ∧ r.key = k := by
  constructor
  · intro h
    exact ⟨List.mem_of_find?_eq_some h, by simpa using List.find?_some h⟩
  · rintro ⟨hr, rfl⟩
    rcases hfind : t.find? r.key with _ | r'
    · have hnone := List.find?_eq_none.mp hfind r hr
      simp at hnone
    · have hr' := List.mem_of_find?_eq_some hfind
      have hkey : r'.key = r.key := by simpa using List.find?_some hfind
      rw [eq_of_key_eq hr' hr hkey]

theorem find?_eq_none_iff {t : KeyedTable κ α} {k : κ} : t.find? k = none ↔ k ∉ t.keys := by
  simp [find?, mem_keys]

/-- Insert a row under a key that is not present, with the next id. -/
def insertNew (t : KeyedTable κ α) (k : κ) (v : α) (hk : k ∉ t.keys) : KeyedTable κ α where
  rows := t.rows ++ [⟨t.nextId, k, v⟩]
  nextId := t.nextId + 1
  nextId_pos := Nat.succ_pos _
  id_pos := by
    simp only [List.mem_append, List.mem_singleton]
    rintro r (hr | rfl)
    · exact t.id_pos r hr
    · exact t.nextId_pos
  id_lt := by
    simp only [List.mem_append, List.mem_singleton]
    rintro r (hr | rfl)
    · exact Nat.lt_succ_of_lt (t.id_lt r hr)
    · exact Nat.lt_succ_self _
  id_nodup := by
    rw [List.map_append, List.nodup_append']
    refine ⟨t.id_nodup, List.nodup_singleton _, ?_⟩
    simp only [List.disjoint_left, List.mem_map, List.map_cons, List.map_nil, List.mem_singleton]
    rintro _ ⟨r, hr, rfl⟩
    exact ne_nextId hr
  key_nodup := by
    rw [List.map_append, List.nodup_append']
    refine ⟨t.key_nodup, List.nodup_singleton _, ?_⟩
    simp only [List.disjoint_left, List.map_cons, List.map_nil, List.mem_singleton]
    rintro _ hmem rfl
    exact hk hmem

/-- `INSERT … ON CONFLICT (key) DO UPDATE`: a row that exists keeps its id and gets the columns
`upd`, a new one gets the next id and the columns `ins`. SQLite and MySQL use up an id in the first case
too, so ids are unique and increase as they do there, but need not be the numbers of the database. -/
def upsert (t : KeyedTable κ α) (k : κ) (ins : α) (upd : α → α) : KeyedTable κ α :=
  if hk : k ∈ t.keys then t.updateWhere (fun r => r.key = k) upd else t.insertNew k ins hk

variable {t : KeyedTable κ α} {k : κ} {ins : α} {upd : α → α} {r : Entry κ α}

/-- The rows after an upsert: the rows of other keys, the updated row, or the new row. -/
theorem mem_upsert : r ∈ (t.upsert k ins upd).rows ↔
    (r ∈ t.rows ∧ r.key ≠ k) ∨ (∃ r₀ ∈ t.rows, r₀.key = k ∧ { r₀ with val := upd r₀.val } = r) ∨
      (k ∉ t.keys ∧ r = ⟨t.nextId, k, ins⟩) := by
  rw [upsert]
  split
  · next hk =>
    rw [mem_updateWhere]
    simp [hk]
  · next hk =>
    have hne : ∀ r₀ ∈ t.rows, r₀.key ≠ k := fun r₀ hr₀ heq => hk (mem_keys.mpr ⟨r₀, hr₀, heq⟩)
    simp only [insertNew, List.mem_append, List.mem_singleton]
    constructor
    · rintro (hr | rfl)
      · exact Or.inl ⟨hr, hne r hr⟩
      · exact Or.inr (Or.inr ⟨hk, rfl⟩)
    · rintro (⟨hr, -⟩ | ⟨r₀, hr₀, heq, -⟩ | ⟨-, rfl⟩)
      · exact Or.inl hr
      · exact absurd heq (hne r₀ hr₀)
      · exact Or.inr rfl

/-- Where an upsert says of the row the same whether it is new or not, this is what the row of the key
has. -/
theorem view_of_mem_upsert {β : Type*} (view : α → β) {b : β} (hins : view ins = b)
    (hupd : ∀ a, view (upd a) = b) (h : r ∈ (t.upsert k ins upd).rows) (hk : r.key = k) :
    view r.val = b := by
  rcases mem_upsert.mp h with ⟨-, hne⟩ | ⟨r₀, -, -, rfl⟩ | ⟨-, rfl⟩
  · exact absurd hk hne
  · exact hupd r₀.val
  · exact hins

/-- An upsert leaves the rows of other keys as they are. -/
theorem mem_upsert_of_ne (h : r.key ≠ k) : r ∈ (t.upsert k ins upd).rows ↔ r ∈ t.rows := by
  rw [mem_upsert]
  constructor
  · rintro (⟨hr, -⟩ | ⟨r₀, -, rfl, rfl⟩ | ⟨-, rfl⟩)
    · exact hr
    · exact absurd rfl h
    · exact absurd rfl h
  · exact fun hr => Or.inl ⟨hr, h⟩

/-- After an upsert the key is present, with every key that was. -/
theorem mem_keys_upsert {k' : κ} : k' ∈ (t.upsert k ins upd).keys ↔ k' ∈ t.keys ∨ k' = k := by
  rw [upsert]
  split
  · next hk =>
    rw [keys_updateWhere]
    exact ⟨Or.inl, fun h => h.elim id fun heq => heq ▸ hk⟩
  · next hk => simp [keys, insertNew]

/-- An id is handed out once: ids never shrink below the next one. -/
theorem nextId_le_upsert : t.nextId ≤ (t.upsert k ins upd).nextId := by
  rw [upsert]
  split
  · exact Nat.le_refl t.nextId
  · exact Nat.le_succ _

end KeyedTable

end WeighingSync
