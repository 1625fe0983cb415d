import WeighingSync.Signing

/-!
# The canonical query

`canonicalQuery` of the three programs, which is the text of the query that a request is signed with.
Two sets of parameters have one canonical query exactly when the signed parameters have the same
values, in whatever order they came (`canonicalQuery_eq_iff`).
-/

namespace WeighingSync

open Go

namespace Go.Url.Values

/-! ## Sorted parameters -/

/-- The order in which the parameters of a canonical query are written. -/
def Before (p q : Bytes × Bytes) : Prop := p.1 ≤ q.1 ∧ (p.1 = q.1 → p.2 ≤ q.2)

theorem before_antisymm {p q : Bytes × Bytes} (hpq : Before p q) (hqp : Before q p) : p = q := by
  have hkey : p.1 = q.1 := List.le_antisymm hpq.1 hqp.1
  exact Prod.ext hkey (List.le_antisymm (hpq.2 hkey) (hqp.2 hkey.symm))

/-- Entries with sorted values are written in this order. -/
theorem pairwise_pairs {entries : List (Bytes × List Bytes)} (hnodup : (entries.map Prod.fst).Nodup)
    (hsorted : ∀ e ∈ entries, e.2.Pairwise (· ≤ ·)) :
    (pairs (entries.insertionSort fun e e' => e.1 ≤ e'.1)).Pairwise Before := by
  have hperm := List.perm_insertionSort (fun e e' : Bytes × List Bytes => e.1 ≤ e'.1) entries
  have hle := List.pairwise_insertionSort (fun e e' : Bytes × List Bytes => e.1 ≤ e'.1) entries
  have hne := List.pairwise_map.mp ((hperm.map Prod.fst).nodup_iff.mpr hnodup)
  rw [pairs, List.pairwise_flatMap]
  constructor
  · intro e he
    rw [List.pairwise_map]
    exact (hsorted e (hperm.mem_iff.mp he)).imp fun hvalues => ⟨List.le_refl _, fun _ => hvalues⟩
  · refine (hle.and hne).imp fun h p hp q hq => ?_
    obtain ⟨_, _, rfl⟩ := List.mem_map.mp hp
    obtain ⟨_, _, rfl⟩ := List.mem_map.mp hq
    exact ⟨h.1, fun heq => absurd heq h.2⟩

/-- The parameters of a list, counted through the values of their keys. -/
theorem count_pairs {entries : List (Bytes × List Bytes)} (hnodup : (entries.map Prod.fst).Nodup)
    (p : Bytes × Bytes) : (pairs entries).count p = ((entries.lookup p.1).getD []).count p.2 := by
  have hfilter : ∀ l : List (Bytes × Bytes),
      l.count p = ((l.filter fun q => q.1 = p.1).map Prod.snd).count p.2 := by
    intro l
    induction l with
    | nil => rfl
    | cons q l ih =>
        by_cases hkey : q.1 = p.1
        · rw [List.filter_cons_of_pos (by simpa using hkey), List.map_cons, List.count_cons,
            List.count_cons, ih]
          have hsame : (q == p) = (q.2 == p.2) := by
            rw [Bool.eq_iff_iff, beq_iff_eq, beq_iff_eq, Prod.ext_iff]
            exact and_iff_right hkey
          rw [hsame]
        · have hne : q ≠ p := fun heq => hkey (by rw [heq])
          rw [List.filter_cons_of_neg (by simpa using hkey), List.count_cons_of_ne hne, ih]
  rw [hfilter, map_snd_filter_pairs hnodup]

/-- Entries with sorted values are written alike if the keys have the same values. -/
theorem encode_eq_of_perm {entries entries' : List (Bytes × List Bytes)}
    (hnodup : (entries.map Prod.fst).Nodup) (hnodup' : (entries'.map Prod.fst).Nodup)
    (hsorted : ∀ e ∈ entries, e.2.Pairwise (· ≤ ·)) (hsorted' : ∀ e ∈ entries', e.2.Pairwise (· ≤ ·))
    (h : ∀ key, ((entries.lookup key).getD []).Perm ((entries'.lookup key).getD [])) :
    encode entries = encode entries' := by
  have hperm : (pairs entries).Perm (pairs entries') := by
    rw [List.perm_iff_count]
    intro p
    rw [count_pairs hnodup, count_pairs hnodup']
    exact (h p.1).count_eq p.2
  have hpairs : ∀ es : List (Bytes × List Bytes),
      (pairs (es.insertionSort fun e e' => e.1 ≤ e'.1)).Perm (pairs es) := fun es =>
    (List.perm_insertionSort _ es).flatMap_right _
  have heq := List.Perm.eq_of_pairwise (fun p q _ _ => before_antisymm)
    (pairwise_pairs hnodup hsorted) (pairwise_pairs hnodup' hsorted')
    ((hpairs entries).trans (hperm.trans (hpairs entries').symm))
  rw [encode, encode, heq]

end Go.Url.Values

/-! ## Signed parameters -/

/-- The signed parameters have the same values in both, as often each; a key without values counts as
absent. -/
def SameSigned (v w : Url.Values) : Prop :=
  ∀ key, key ≠ bytesOf "signature" → key ≠ bytesOf "sign" → (v.all key).Perm (w.all key)

/-- The entries that a canonical query is written of. -/
def signedEntries (v : Url.Values) : List (Bytes × List Bytes) :=
  (v.entries.filter fun e => Receiver.isSigned e.1).map fun e => (e.1, e.2.insertionSort (· ≤ ·))

theorem nodup_signedEntries (v : Url.Values) : ((signedEntries v).map Prod.fst).Nodup := by
  rw [signedEntries, List.map_map]
  exact v.nodup.sublist (List.filter_sublist.map _)

theorem pairwise_signedEntries (v : Url.Values) : ∀ e ∈ signedEntries v, e.2.Pairwise (· ≤ ·) := by
  intro e he
  obtain ⟨e', -, rfl⟩ := List.mem_map.mp he
  exact List.pairwise_insertionSort _ _

/-- An unsigned key has no values left, and a signed one has its values. -/
theorem perm_lookup_signedEntries (v : Url.Values) (key : Bytes) :
    (((signedEntries v).lookup key).getD []).Perm (if Receiver.isSigned key then v.all key else []) := by
  split_ifs with hkey
  · rw [signedEntries, Receiver.lookup_signed hkey, Url.Values.all]
    cases v.entries.lookup key with
    | none => exact List.Perm.refl _
    | some values => exact List.perm_insertionSort _ values
  · have hnone : (signedEntries v).lookup key = none := by
      rw [List.lookup_eq_none_iff]
      intro e he
      obtain ⟨e', he', rfl⟩ := List.mem_map.mp he
      have hsigned := (List.mem_filter.mp he').2
      rw [bne_iff_ne]
      rintro rfl
      exact hkey hsigned
    rw [hnone]
    exact List.Perm.refl _

/-- Two sets of parameters have one canonical query exactly when their signed parameters have the same
values; that holds of all three programs. -/
theorem canonicalQuery_eq_iff (v w : Url.Values) :
    (Receiver.canonicalQuery v = Receiver.canonicalQuery w ↔ SameSigned v w) ∧
      (Uploader.canonicalQuery v = Uploader.canonicalQuery w ↔ SameSigned v w) ∧
      (Replicator.canonicalQuery v = Replicator.canonicalQuery w ↔ SameSigned v w) := by
  have hsigned : ∀ key, Receiver.isSigned key = true ↔
      key ≠ bytesOf "signature" ∧ key ≠ bytesOf "sign" := fun key => by simp [Receiver.isSigned]
  have hiff : Receiver.canonicalQuery v = Receiver.canonicalQuery w ↔ SameSigned v w := by
    constructor
    · exact fun h key hsignature hsign =>
        Receiver.perm_all_of_canonicalQuery_eq h ((hsigned key).mpr ⟨hsignature, hsign⟩)
    · intro h
      refine Url.Values.encode_eq_of_perm (nodup_signedEntries v) (nodup_signedEntries w)
        (pairwise_signedEntries v) (pairwise_signedEntries w) fun key => ?_
      refine (perm_lookup_signedEntries v key).trans (.trans ?_ (perm_lookup_signedEntries w key).symm)
      split_ifs with hkey
      · obtain ⟨hsignature, hsign⟩ := (hsigned key).mp hkey
        exact h key hsignature hsign
      · exact List.Perm.refl _
  exact ⟨hiff, hiff, hiff⟩

/-- The query of the replicator's test. -/
example : Replicator.canonicalQuery
    ⟨[(bytesOf "b", [bytesOf "2", bytesOf "1"]), (bytesOf "signature", [bytesOf "skip"]),
      (bytesOf "a", [bytesOf "x y"])], by decide +kernel⟩ = bytesOf "a=x+y&b=1&b=2" := by
  decide +kernel

end WeighingSync
