import WeighingSync.Common.LastWriter

/-!
# Replaying upserts

A list of upserts that set every column but some that they keep. Applying such a list to a table a
second time changes nothing (`upsertAll_twice`), and its parts may be applied one after the other.
-/

namespace WeighingSync.KeyedTable

variable {ι κ α γ : Type*}

/-- Tables with the same rows and the same next id are the same. -/
theorem eq_of_rows_eq {t t' : KeyedTable κ α} (hrows : t.rows = t'.rows)
    (hnext : t.nextId = t'.nextId) : t = t' := by
  cases t
  cases t'
  simp only [mk.injEq]
  exact ⟨hrows, hnext⟩

variable [DecidableEq κ] {key : ι → κ} {ins : ι → α} {upd : ι → α → α} {t : KeyedTable κ α}
  {xs : List ι} {x : ι} {r : Entry κ α}

theorem upsertAll_append (t : KeyedTable κ α) (xs ys : List ι) :
    t.upsertAll key ins upd (xs ++ ys) = (t.upsertAll key ins upd xs).upsertAll key ins upd ys :=
  List.foldl_append

theorem mem_keys_upsertAll {k : κ} :
    k ∈ (t.upsertAll key ins upd xs).keys ↔ k ∈ t.keys ∨ ∃ x ∈ xs, key x = k := by
  induction xs generalizing t with
  | nil => simp [upsertAll]
  | cons x xs ih =>
      refine (ih (t := t.upsert (key x) (ins x) (upd x))).trans ?_
      rw [mem_keys_upsert, List.exists_mem_cons_iff, or_assoc, eq_comm (a := k)]

/-- Upserts of new keys, each of another one, add their rows at the end. -/
theorem map_rows_upsertAll_new {f : Entry κ α → γ} {g : ι → γ} (hf : ∀ x i, f ⟨i, key x, ins x⟩ = g x)
    (hnew : ∀ x ∈ xs, key x ∉ t.keys) (hxs : (xs.map key).Nodup) :
    (t.upsertAll key ins upd xs).rows.map f = t.rows.map f ++ xs.map g := by
  induction xs generalizing t with
  | nil => exact (List.append_nil _).symm
  | cons x xs ih =>
      rw [List.forall_mem_cons] at hnew
      rw [List.map_cons, List.nodup_cons] at hxs
      have hinsert : t.upsert (key x) (ins x) (upd x) = t.insertNew (key x) (ins x) hnew.1 := dif_neg hnew.1
      have hrest : ∀ y ∈ xs, key y ∉ (t.upsert (key x) (ins x) (upd x)).keys := by
        intro y hy hkey
        rcases mem_keys_upsert.mp hkey with hkey | hkey
        · exact hnew.2 y hy hkey
        · exact hxs.1 (List.mem_map.mpr ⟨y, hy, hkey⟩)
      refine (ih (t := t.upsert (key x) (ins x) (upd x)) hrest hxs.2).trans ?_
      rw [hinsert, insertNew, List.map_append, List.map_singleton, hf, List.append_assoc, List.map_cons,
        List.singleton_append]

/-- Updates of keys that are present hand out no id. -/
theorem nextId_upsertAll (h : ∀ x ∈ xs, key x ∈ t.keys) :
    (t.upsertAll key ins upd xs).nextId = t.nextId := by
  induction xs generalizing t with
  | nil => rfl
  | cons x xs ih =>
      rw [List.forall_mem_cons] at h
      have hupsert : t.upsert (key x) (ins x) (upd x) = t.updateWhere (fun r => r.key = key x) (upd x) :=
        dif_pos h.1
      refine (ih (t := t.upsert (key x) (ins x) (upd x)) fun y hy => ?_).trans ?_
      · exact mem_keys_upsert.mpr (Or.inl (h.2 y hy))
      · rw [hupsert, nextId_updateWhere]

/-- An upsert overwrites a row: what it leaves depends on the columns only that it keeps, and it says
the same of a row that it inserts. -/
structure Overwrites (ins : ι → α) (upd : ι → α → α) (keep : α → γ) : Prop where
  congr : ∀ x a b, keep a = keep b → upd x a = upd x b
  keep_upd : ∀ x a, keep (upd x a) = keep a
  upd_ins : ∀ x, upd x (ins x) = ins x

/-- Whatever other upserts follow, the last upsert of a key would leave its row as it is. -/
theorem Overwrites.settled {keep : α → γ} (h : Overwrites ins upd keep)
    (hr : r ∈ (t.upsertAll key ins upd xs).rows) (hx : lastOf key xs r.key = some x) :
    upd x r.val = r.val := by
  induction xs generalizing t with
  | nil => cases hx
  | cons y xs ih =>
      cases hrest : lastOf key xs r.key with
      | some z =>
          rw [lastOf_cons, hrest, Option.some_or] at hx
          exact ih (t := t.upsert (key y) (ins y) (upd y)) hr (hrest.trans hx)
      | none =>
          rw [lastOf_cons, hrest, Option.none_or] at hx
          split_ifs at hx with hkey
          cases hx
          have hmem := (mem_upsertAll_of_ne (lastOf_eq_none_iff.mp hrest)).mp hr
          rcases mem_upsert.mp hmem with ⟨-, hne⟩ | ⟨r₀, -, -, rfl⟩ | ⟨-, rfl⟩
          · exact absurd hkey.symm hne
          · exact h.congr x _ _ (h.keep_upd x r₀.val)
          · exact h.upd_ins x

/-- Updates of a row that its last update would leave as it is leave it as it is. -/
theorem Overwrites.foldl_settled {keep : α → γ} (h : Overwrites ins upd keep) {a : α} {k : κ}
    (hx : ∀ x, lastOf key xs k = some x → upd x a = a) :
    (xs.filter fun x => key x = k).foldl (fun a x => upd x a) a = a := by
  cases hlast : lastOf key xs k with
  | none =>
      have hnone : (xs.filter fun x => key x = k) = [] := by
        rw [List.filter_eq_nil_iff]
        exact fun x hmem => by simpa using lastOf_eq_none_iff.mp hlast x hmem
      rw [hnone, List.foldl_nil]
  | some x =>
      have hsplit : ∃ zs, (xs.filter fun x => key x = k) = zs ++ [x] := by
        rw [lastOf, ← List.head?_filter, List.filter_reverse, List.head?_reverse] at hlast
        exact List.getLast?_eq_some_iff.mp hlast
      obtain ⟨zs, hzs⟩ := hsplit
      -- what is kept never changes, so the last update leaves the row as it was
      have hkeep : keep (zs.foldl (fun a x => upd x a) a) = keep a :=
        keep_foldl_upd upd keep zs h.keep_upd a
      rw [hzs, List.foldl_append, List.foldl_cons, List.foldl_nil, h.congr x _ a hkeep]
      exact hx x hlast

/-- The last element of a key is the last of those that pass a filter, if it passes. -/
theorem lastOf_filter {k : κ} {p : ι → Bool} (h : lastOf key xs k = some x) (hp : p x = true) :
    lastOf key (xs.filter p) k = some x := by
  induction xs with
  | nil => cases h
  | cons y xs ih =>
      rw [lastOf_cons] at h
      cases hrest : lastOf key xs k with
      | some z =>
          rw [hrest, Option.some_or] at h
          rw [List.filter_cons]
          split_ifs
          · rw [lastOf_cons, ih (hrest.trans h), Option.some_or]
          · exact ih (hrest.trans h)
      | none =>
          rw [hrest, Option.none_or] at h
          split_ifs at h with hkey
          cases h
          have hnone : lastOf key (xs.filter p) k = none :=
            lastOf_eq_none_iff.mpr fun y hy => lastOf_eq_none_iff.mp hrest y (List.mem_of_mem_filter hy)
          rw [List.filter_cons_of_pos hp, lastOf_cons, hnone, Option.none_or, if_pos hkey]

/-- A list of upserts has nothing to do on the table that it has left. -/
theorem Overwrites.upsertAll_twice {keep : α → γ} (h : Overwrites ins upd keep) (t : KeyedTable κ α)
    (xs : List ι) : (t.upsertAll key ins upd xs).upsertAll key ins upd xs = t.upsertAll key ins upd xs := by
  have hkeys : ∀ x ∈ xs, key x ∈ (t.upsertAll key ins upd xs).keys := fun x hx =>
    mem_keys_upsertAll.mpr (Or.inr ⟨x, hx, rfl⟩)
  refine eq_of_rows_eq ?_ (nextId_upsertAll hkeys)
  rw [rows_upsertAll hkeys]
  conv_rhs => rw [← List.map_id (t.upsertAll key ins upd xs).rows]
  refine List.map_congr_left fun r hr => ?_
  rw [h.foldl_settled fun x hx => h.settled hr hx]
  rfl

end WeighingSync.KeyedTable
