import WeighingSync.Common.Chunks

/-!
# Paging

A client that reads a list page by page, until one is not full. The server cuts each page out of the
same list, but may move the offset that is asked for: then the pages cover the list once exactly if no
offset that the client needs is moved (`covers_iff`).
-/

namespace WeighingSync

variable {α : Type*}

/-- The pages from the `k`th to the first that is not full, put together; none if the fuel runs out
before. -/
def readPages (page : ℕ → List α) (limit : ℕ) : ℕ → ℕ → Option (List α)
  | 0, _ => none
  | fuel + 1, k =>
      if (page k).length < limit then some (page k)
      else (readPages page limit fuel (k + 1)).map (page k ++ ·)

/-- The `m`th page from the `k`th on is the first that is not full. -/
structure StopsAfter (page : ℕ → List α) (limit k m : ℕ) : Prop where
  full : ∀ j < m, limit ≤ (page (k + j)).length
  last : (page (k + m)).length < limit

variable {page : ℕ → List α} {limit : ℕ}

theorem stopsAfter_succ_iff {k m : ℕ} (hfull : limit ≤ (page k).length) :
    StopsAfter page limit k (m + 1) ↔ StopsAfter page limit (k + 1) m := by
  have hshift : ∀ j, k + 1 + j = k + (j + 1) := fun j => by omega
  constructor
  · intro h
    refine ⟨fun j hj => ?_, ?_⟩
    · rw [hshift]
      exact h.full (j + 1) (Nat.succ_lt_succ hj)
    · rw [hshift]
      exact h.last
  · intro h
    refine ⟨fun j hj => ?_, ?_⟩
    · cases j with
      | zero => exact hfull
      | succ j =>
          rw [← hshift]
          exact h.full j (Nat.lt_of_succ_lt_succ hj)
    · rw [← hshift]
      exact h.last

theorem flatten_pages_succ (page : ℕ → List α) (k m : ℕ) :
    ((List.range (m + 1)).map fun j => page (k + j)).flatten =
      page k ++ ((List.range m).map fun j => page (k + 1 + j)).flatten := by
  rw [List.range_succ_eq_map, List.map_cons, List.map_map, List.flatten_cons]
  congr 3
  funext j
  exact congrArg page (by omega)

/-- What the client has read when it stops. -/
theorem readPages_eq_some_iff {fuel : ℕ} {listed : List α} {k : ℕ} :
    readPages page limit fuel k = some listed ↔ ∃ m < fuel, StopsAfter page limit k m ∧
      listed = ((List.range (m + 1)).map fun j => page (k + j)).flatten := by
  induction fuel generalizing k listed with
  | zero => simp [readPages]
  | succ fuel ih =>
      rw [readPages]
      split_ifs with hlast
      · constructor
        · intro h
          cases h
          exact ⟨0, Nat.succ_pos _, ⟨fun j hj => absurd hj (Nat.not_lt_zero j), hlast⟩, by simp⟩
        · rintro ⟨m, -, hstops, rfl⟩
          have hm : m = 0 := by
            by_contra hm
            exact absurd (hstops.full 0 (Nat.pos_of_ne_zero hm)) (not_le.mpr hlast)
          subst hm
          simp
      · rw [Option.map_eq_some_iff]
        constructor
        · rintro ⟨rest, hrest, rfl⟩
          obtain ⟨m, hm, hstops, rfl⟩ := ih.mp hrest
          exact ⟨m + 1, Nat.succ_lt_succ hm, (stopsAfter_succ_iff (not_lt.mp hlast)).mpr hstops,
            (flatten_pages_succ page k (m + 1)).symm⟩
        · rintro ⟨m, hm, hstops, rfl⟩
          cases m with
          | zero => exact absurd hstops.last hlast
          | succ m =>
              have hnext := (stopsAfter_succ_iff (not_lt.mp hlast)).mp hstops
              exact ⟨_, ih.mpr ⟨m, Nat.lt_of_succ_lt_succ hm, hnext, rfl⟩,
                (flatten_pages_succ page k (m + 1)).symm⟩

/-- The client stops, and has read a list once. -/
def Covers (page : ℕ → List α) (limit : ℕ) (rows : List α) : Prop :=
  ∃ fuel listed, readPages page limit fuel 0 = some listed ∧ listed.Perm rows

theorem covers_iff_stopsAfter {rows : List α} : Covers page limit rows ↔
    ∃ m, StopsAfter page limit 0 m ∧ ((List.range (m + 1)).map page).flatten.Perm rows := by
  constructor
  · rintro ⟨fuel, listed, hread, hperm⟩
    obtain ⟨m, -, hstops, rfl⟩ := readPages_eq_some_iff.mp hread
    exact ⟨m, hstops, by simpa using hperm⟩
  · rintro ⟨m, hstops, hperm⟩
    exact ⟨m + 1, _, readPages_eq_some_iff.mpr ⟨m, Nat.lt_succ_self m, hstops, rfl⟩,
      by simpa using hperm⟩

theorem covers_congr_perm {rows rows' : List α} (h : rows.Perm rows') :
    Covers page limit rows ↔ Covers page limit rows' := by
  constructor
  · rintro ⟨fuel, listed, hread, hperm⟩
    exact ⟨fuel, listed, hread, hperm.trans h⟩
  · rintro ⟨fuel, listed, hread, hperm⟩
    exact ⟨fuel, listed, hread, hperm.trans h.symm⟩

/-! ## Pages of one list -/

variable {rows : List α} {offset : ℕ → ℕ} {bound : ℕ}

/-- Pages at the offsets that are asked for cover the list. -/
theorem covers_of_offset (hlimit : 1 ≤ limit)
    (hoffset : ∀ k ≤ rows.length / limit, offset k = limit * k) :
    Covers (fun k => (rows.drop (offset k)).take limit) limit rows := by
  rw [covers_iff_stopsAfter]
  have hdiv := Nat.div_add_mod rows.length limit
  have hmod := Nat.mod_lt rows.length hlimit
  refine ⟨rows.length / limit, ⟨?_, ?_⟩, ?_⟩
  · intro j hj
    have hnext : limit * j + limit ≤ limit * (rows.length / limit) := by
      rw [← Nat.mul_succ]
      exact Nat.mul_le_mul_left limit hj
    rw [zero_add, hoffset j hj.le, List.length_take, List.length_drop]
    omega
  · rw [zero_add, hoffset _ le_rfl, List.length_take, List.length_drop]
    omega
  · have hslices : (List.range (rows.length / limit + 1)).map
        (fun k => (rows.drop (offset k)).take limit) =
        (List.range (rows.length / limit + 1)).map fun k => (rows.drop (limit * k)).take limit := by
      apply List.map_congr_left
      intro k hk
      rw [hoffset k (Nat.lt_succ_iff.mp (List.mem_range.mp hk))]
    rw [hslices, flatten_slices, List.take_of_length_le]
    rw [Nat.mul_succ]
    omega

variable (limit offset) in
/-- A row of the list is on the page at its offset. -/
theorem getElem_mem_page {o k : ℕ} (ho : o < rows.length) (hlow : offset k ≤ o)
    (hhigh : o < offset k + limit) : rows[o] ∈ (rows.drop (offset k)).take limit := by
  rw [List.mem_take_iff_getElem]
  refine ⟨o - offset k, ?_, ?_⟩
  · rw [List.length_drop]
    omega
  · rw [List.getElem_drop]
    congr 1
    omega

/-- Pages whose offsets are held at a bound cover the list once if, and only if, the last offset that
the client needs is within that bound. -/
theorem covers_iff (hrows : rows.Nodup) (hlimit : 1 ≤ limit)
    (hasked : ∀ k, limit * k ≤ bound → offset k = limit * k) (hheld : ∀ k, offset k ≤ bound) :
    Covers (fun k => (rows.drop (offset k)).take limit) limit rows ↔
      limit * (rows.length / limit) ≤ bound := by
  constructor
  · intro hcovers
    obtain ⟨m, hstops, hperm⟩ := covers_iff_stopsAfter.mp hcovers
    by_contra hbeyond
    rw [not_le] at hbeyond
    have hlength : limit * (rows.length / limit) ≤ rows.length := Nat.mul_div_le _ _
    -- the client goes on to an offset beyond the bound
    have hm : bound < limit * m := by
      by_contra hwithin
      rw [not_lt] at hwithin
      have hlast := hstops.last
      rw [zero_add, hasked m hwithin, List.length_take, List.length_drop] at hlast
      have hdiv : rows.length / limit ≤ m := by
        rw [Nat.div_le_iff_le_mul_add_pred hlimit]
        omega
      have := Nat.mul_le_mul_left limit hdiv
      omega
    -- the row at which it is held has been read before, on its own page
    have hearlier : offset m / limit < m := by
      rw [Nat.div_lt_iff_lt_mul hlimit, mul_comm]
      exact lt_of_le_of_lt (hheld m) hm
    have hown : offset (offset m / limit) = limit * (offset m / limit) :=
      hasked _ ((Nat.mul_div_le _ _).trans (hheld m))
    have hheldRow : offset m < rows.length := lt_of_le_of_lt (hheld m) (by omega)
    have hagain := getElem_mem_page limit offset hheldRow le_rfl (by omega)
    have hbefore : rows[offset m] ∈ (rows.drop (offset (offset m / limit))).take limit := by
      have hdiv := Nat.div_add_mod (offset m) limit
      have hmod := Nat.mod_lt (offset m) hlimit
      exact getElem_mem_page limit offset hheldRow (by omega) (by omega)
    have hdisjoint := (List.nodup_flatten.mp (hperm.nodup_iff.mpr hrows)).2
    rw [List.pairwise_map] at hdisjoint
    have htwice := List.pairwise_iff_getElem.mp hdisjoint (offset m / limit) m (by simp; omega)
      (by simp) hearlier
    simp only [List.getElem_range] at htwice
    exact htwice hbefore hagain
  · intro hbound
    apply covers_of_offset hlimit
    intro k hk
    exact hasked k ((Nat.mul_le_mul_left limit hk).trans hbound)

end WeighingSync
