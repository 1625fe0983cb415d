import WeighingSync.Common.Window

/-!
# Working off a backlog

Rows that are due are worked off in passes, each over the first so many of them in some order, and a
row that is worked off is due no more. A pass then leaves of the sorted backlog what its window does
not hold (`insertionSort_cleared`), and as many passes as the backlog has windows leave nothing, with
every row worked off once and in order (`backlog_cleared`).
-/

namespace WeighingSync

variable {α β σ : Type*}

/-! ## The backlog after a pass -/

section

variable {r : α → α → Prop} [DecidableRel r] [IsTrans α r] {n : ℕ} {p : α → Bool} {rows : List α}

/-- In a sorted list, an insertion goes in front of the elements that it precedes. -/
theorem filter_orderedInsert (hsorted : rows.Pairwise r) (x : α) :
    (rows.orderedInsert r x).filter p =
      if p x then (rows.filter p).orderedInsert r x else rows.filter p := by
  induction rows with
  | nil => cases h : p x <;> simp [h]
  | cons y rows ih =>
      obtain ⟨hy, hrows⟩ := List.pairwise_cons.mp hsorted
      have hrest := ih hrows
      by_cases hxy : r x y
      · rw [List.orderedInsert_cons_of_le r rows hxy, List.filter_cons]
        split_ifs with hx
        · -- what follows `y` follows `x` too
          have hall : ∀ z ∈ (y :: rows).filter p, r x z := by
            intro z hz
            rcases List.mem_cons.mp (List.mem_of_mem_filter hz) with rfl | hz
            · exact hxy
            · exact Trans.trans hxy (hy z hz)
          cases hfilter : (y :: rows).filter p with
          | nil => rfl
          | cons z zs =>
              rw [List.orderedInsert_cons_of_le r zs (hall z (hfilter ▸ List.mem_cons_self))]
        · rfl
      · rw [List.orderedInsert_of_not_le r rows hxy, List.filter_cons, hrest, List.filter_cons]
        split_ifs with hpy hx
        · rw [List.orderedInsert_of_not_le r _ hxy]
        · rfl
        · rfl
        · rfl

variable [Std.Total r]

/-- Sorting keeps the order of what a filter lets through. -/
theorem filter_insertionSort (p : α → Bool) (rows : List α) :
    (rows.insertionSort r).filter p = (rows.filter p).insertionSort r := by
  induction rows with
  | nil => rfl
  | cons x rows ih =>
      rw [List.insertionSort_cons, filter_orderedInsert (List.pairwise_insertionSort r rows) x, ih,
        List.filter_cons]
      split_ifs <;> rfl

/-- Without its window, a list is sorted to what lies beyond the window. -/
theorem insertionSort_filter_notMem [DecidableEq α] (hnodup : rows.Nodup) :
    (rows.filter fun x => x ∉ window r n rows).insertionSort r = beyond r n rows := by
  rw [← filter_insertionSort, ← List.take_append_drop n (rows.insertionSort r), List.filter_append]
  have hsorted : (rows.insertionSort r).Nodup := (List.perm_insertionSort r rows).nodup_iff.mpr hnodup
  rw [← List.take_append_drop n (rows.insertionSort r), List.nodup_append'] at hsorted
  have hwindow : ((rows.insertionSort r).take n).filter (fun x => x ∉ window r n rows) = [] :=
    List.filter_eq_nil_iff.mpr fun x hx => by simpa using (show x ∈ window r n rows from hx)
  have hbeyond : ((rows.insertionSort r).drop n).filter (fun x => x ∉ window r n rows) =
      (rows.insertionSort r).drop n :=
    List.filter_eq_self.mpr fun x hx => decide_eq_true fun hmem => hsorted.2.2 hmem hx
  rw [hwindow, hbeyond, List.nil_append]
  rfl

/-- An update that makes the rows of the window pass no more, and leaves the other rows alone, leaves
the sorted rest. -/
theorem insertionSort_cleared [DecidableEq α] (hnodup : rows.Nodup) {f : α → α}
    (hcleared : ∀ x ∈ window r n (rows.filter p), p (f x) = false)
    (hkept : ∀ x ∈ rows, x ∉ window r n (rows.filter p) → f x = x) :
    ((rows.map f).filter p).insertionSort r = beyond r n (rows.filter p) := by
  -- what is due afterwards is what was due and is not in the window
  have hrest : (rows.map f).filter p =
      (rows.filter p).filter fun x => x ∉ window r n (rows.filter p) := by
    rw [List.filter_map, List.filter_filter]
    have hsame : rows.filter (p ∘ f) =
        rows.filter fun x => decide (x ∉ window r n (rows.filter p)) && p x := by
      refine List.filter_congr fun x hx => ?_
      by_cases hmem : x ∈ window r n (rows.filter p)
      · simp [hmem, hcleared x hmem]
      · simp [hmem, hkept x hx hmem]
    rw [hsame]
    refine (List.map_congr_left fun x hx => ?_).trans (List.map_id _)
    obtain ⟨hx, hout⟩ := List.mem_filter.mp hx
    rw [Bool.and_eq_true] at hout
    exact hkept x hx (of_decide_eq_true hout.1)
  rw [hrest]
  exact insertionSort_filter_notMem (hnodup.filter p)

end

/-! ## Passes -/

section

variable {ι : Type*} {I : σ → Prop} (pass : ι → σ → σ) (work : σ → List α) (done : σ → List β)
  (f : α → β) {n : ℕ}

/-- What passes leave of a backlog, and what they have done of it. -/
theorem backlog_foldl (passes : List ι)
    (hpass : ∀ i ∈ passes, ∀ s, I s → I (pass i s) ∧ work (pass i s) = (work s).drop n ∧
      done (pass i s) = done s ++ ((work s).take n).map f) {s : σ} (hs : I s) :
    I (passes.foldl (fun s i => pass i s) s) ∧
      work (passes.foldl (fun s i => pass i s) s) = (work s).drop (passes.length * n) ∧
      done (passes.foldl (fun s i => pass i s) s) =
        done s ++ ((work s).take (passes.length * n)).map f := by
  induction passes generalizing s with
  | nil => exact ⟨hs, by simp, by simp⟩
  | cons i passes ih =>
      rw [List.forall_mem_cons] at hpass
      obtain ⟨hI, hwork, hdone⟩ := hpass.1 s hs
      obtain ⟨hI', hwork', hdone'⟩ := ih hpass.2 hI
      have hlength : (i :: passes).length * n = n + passes.length * n := by
        rw [List.length_cons, Nat.succ_mul, Nat.add_comm]
      rw [List.foldl_cons, hlength]
      refine ⟨hI', ?_, ?_⟩
      · rw [hwork', hwork, List.drop_drop]
      · rw [hdone', hdone, hwork, List.append_assoc, ← List.map_append, List.take_add]

/-- As many passes as the backlog has windows work it off, each of its rows once and in order. -/
theorem backlog_cleared (passes : List ι)
    (hpass : ∀ i ∈ passes, ∀ s, I s → I (pass i s) ∧ work (pass i s) = (work s).drop n ∧
      done (pass i s) = done s ++ ((work s).take n).map f) {s : σ} (hs : I s)
    (hlong : (work s).length ≤ passes.length * n) :
    I (passes.foldl (fun s i => pass i s) s) ∧ work (passes.foldl (fun s i => pass i s) s) = [] ∧
      done (passes.foldl (fun s i => pass i s) s) = done s ++ (work s).map f := by
  obtain ⟨hI, hwork, hdone⟩ := backlog_foldl pass work done f passes hpass hs
  rw [List.drop_eq_nil_of_le hlong] at hwork
  rw [List.take_of_length_le hlong] at hdone
  exact ⟨hI, hwork, hdone⟩

end

end WeighingSync
