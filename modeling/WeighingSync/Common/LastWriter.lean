import WeighingSync.Common.KeyedTable

/-!
# The last writer of a row

A list of upserts, one after another. A row of a key that is written has what the last upsert of its
key says of it (`view_of_mem_upsertAll`), and upserts of keys that are all present only update
(`rows_upsertAll`).
-/

namespace WeighingSync

variable {ι κ α β : Type*} [DecidableEq κ]

/-- The last element of a key. -/
def lastOf (key : ι → κ) (xs : List ι) (k : κ) : Option ι := xs.reverse.find? fun x => key x = k

section

variable {key : ι → κ} {x : ι} {xs : List ι} {k : κ}

theorem lastOf_cons : lastOf key (x :: xs) k = (lastOf key xs k).or (if key x = k then some x else none) := by
  rw [lastOf, List.reverse_cons, List.find?_append, lastOf]
  by_cases hx : key x = k <;> simp [hx]

theorem lastOf_eq_none_iff : lastOf key xs k = none ↔ ∀ x ∈ xs, key x ≠ k := by
  simp [lastOf]

theorem mem_of_lastOf (h : lastOf key xs k = some x) : x ∈ xs ∧ key x = k := by
  refine ⟨List.mem_reverse.mp (List.mem_of_find?_eq_some h), ?_⟩
  simpa using List.find?_some h

theorem exists_lastOf (h : k ∈ xs.map key) : ∃ x, lastOf key xs k = some x := by
  rw [← Option.isSome_iff_exists, Option.isSome_iff_ne_none, Ne, lastOf_eq_none_iff]
  obtain ⟨x, hx, hkey⟩ := List.mem_map.mp h
  exact fun hall => hall x hx hkey

/-- What is said of the last element of a key depends on what is said of each element only. -/
theorem map_lastOf_congr {ι' : Type*} {key' : ι' → κ} {ys : List ι'} {f : ι → β} {g : ι' → β}
    (h : xs.map (fun x => (key x, f x)) = ys.map fun y => (key' y, g y)) (k : κ) :
    (lastOf key xs k).map f = (lastOf key' ys k).map g := by
  induction xs generalizing ys with
  | nil => rw [List.map_eq_nil_iff.mp (h.symm.trans List.map_nil)]; rfl
  | cons x xs ih =>
      cases ys with
      | nil => cases h
      | cons y ys =>
          rw [List.map_cons, List.map_cons, List.cons.injEq, Prod.mk.injEq] at h
          obtain ⟨⟨hkey, hval⟩, hrest⟩ := h
          rw [lastOf_cons, lastOf_cons, Option.map_or, Option.map_or, ih hrest, hkey]
          split_ifs
          · rw [Option.map_some, Option.map_some, hval]
          · rfl

end

namespace KeyedTable

variable {key : ι → κ} {ins : ι → α} {upd : ι → α → α} {view : α → β} {new : ι → β}
  {t : KeyedTable κ α} {xs : List ι} {r : Entry κ α}

/-- The upserts of a list, one after another. -/
def upsertAll (key : ι → κ) (ins : ι → α) (upd : ι → α → α) (t : KeyedTable κ α) (xs : List ι) :
    KeyedTable κ α :=
  xs.foldl (fun t x => t.upsert (key x) (ins x) (upd x)) t

/-- A row whose key no upsert has is left alone. -/
theorem mem_upsertAll_of_ne (h : ∀ x ∈ xs, key x ≠ r.key) :
    r ∈ (t.upsertAll key ins upd xs).rows ↔ r ∈ t.rows := by
  induction xs generalizing t with
  | nil => exact Iff.rfl
  | cons x xs ih =>
      rw [List.forall_mem_cons] at h
      exact (ih (t := t.upsert (key x) (ins x) (upd x)) h.2).trans (mem_upsert_of_ne h.1.symm)

variable (view new) in
/-- Where an upsert says of a row the same whether it is new or not, the last one has the last
word. -/
theorem view_of_mem_upsertAll (hins : ∀ x, view (ins x) = new x) (hupd : ∀ x a, view (upd x a) = new x)
    (h : r ∈ (t.upsertAll key ins upd xs).rows) {x : ι} (hx : lastOf key xs r.key = some x) :
    view r.val = new x := by
  induction xs generalizing t with
  | nil => cases hx
  | cons y xs ih =>
      cases hrest : lastOf key xs r.key with
      | some z =>
          rw [lastOf_cons, hrest, Option.some_or] at hx
          exact ih (t := t.upsert (key y) (ins y) (upd y)) h (hrest.trans hx)
      | none =>
          -- the first upsert is the last of its key: what follows leaves the row alone
          rw [lastOf_cons, hrest, Option.none_or] at hx
          split_ifs at hx with hkey
          cases hx
          have hmem := (mem_upsertAll_of_ne (lastOf_eq_none_iff.mp hrest)).mp h
          rcases mem_upsert.mp hmem with ⟨-, hne⟩ | ⟨r₀, -, -, rfl⟩ | ⟨-, rfl⟩
          · exact absurd hkey.symm hne
          · exact hupd x r₀.val
          · exact hins x

/-- Upserts of keys that are present update each row by the upserts of its key, in order. -/
theorem rows_upsertAll (h : ∀ x ∈ xs, key x ∈ t.keys) :
    (t.upsertAll key ins upd xs).rows = t.rows.map fun r =>
      { r with val := (xs.filter fun x => key x = r.key).foldl (fun a x => upd x a) r.val } := by
  induction xs generalizing t with
  | nil => exact (List.map_id' _).symm
  | cons x xs ih =>
      rw [List.forall_mem_cons] at h
      have hupsert : t.upsert (key x) (ins x) (upd x) = t.updateWhere (fun r => r.key = key x) (upd x) :=
        dif_pos h.1
      have hkeys : ∀ y ∈ xs, key y ∈ (t.upsert (key x) (ins x) (upd x)).keys := fun y hy =>
        mem_keys_upsert.mpr (Or.inl (h.2 y hy))
      show ((t.upsert (key x) (ins x) (upd x)).upsertAll key ins upd xs).rows = _
      rw [ih hkeys, hupsert, updateWhere, mapVal, List.map_map]
      apply List.map_congr_left
      intro r _
      by_cases hr : key x = r.key
      · simp [hr]
      · simp [hr, Ne.symm hr]

variable (key upd view new xs) in
/-- Updates of a row leave what the last of them says, or what was there. -/
theorem view_foldl_upd (hupd : ∀ x a, view (upd x a) = new x) (k : κ) (a : α) :
    view ((xs.filter fun x => key x = k).foldl (fun a x => upd x a) a) =
      ((lastOf key xs k).map new).getD (view a) := by
  induction xs generalizing a with
  | nil => rfl
  | cons x xs ih =>
      rw [lastOf_cons]
      by_cases hx : key x = k
      · rw [List.filter_cons, if_pos (by simpa using hx), List.foldl_cons, ih, if_pos hx, hupd]
        cases lastOf key xs k <;> rfl
      · rw [List.filter_cons, if_neg (by simpa using hx), ih, if_neg hx, Option.or_none]

variable (upd view xs) in
/-- What no update touches stays. -/
theorem keep_foldl_upd (hupd : ∀ x a, view (upd x a) = view a) (a : α) :
    view (xs.foldl (fun a x => upd x a) a) = view a := by
  induction xs generalizing a with
  | nil => rfl
  | cons x xs ih => rw [List.foldl_cons, ih, hupd]

end KeyedTable

end WeighingSync
