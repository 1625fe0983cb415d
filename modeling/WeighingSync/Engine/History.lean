import WeighingSync.Common.Runs
import WeighingSync.Engine.OwnBatch
import WeighingSync.Engine.SyncEngine

/-!
# The history of a cached record

Records are stored in the local cache, and cycles of the engine run over it, with any attempts, replies
and failing statements. A record that is stored stays, with its data as it was; its retries are counted
one by one up to 2^63, and it is synced only by a reply that names it (`row_history`).
-/

namespace WeighingSync.Engine.SyncEngine

open Go

/-- What happens to the cache: a record is stored, or a cycle runs. -/
inductive CacheEvent
  | insert (record : WeighingRecord)
  | cycle (run : Run)

/-- The cache, from its creation on. -/
def station (lib : Lib) (cfg : SyncConfig) : System Cache CacheEvent where
  init cache := cache = .empty
  step cache
    | .insert record => cache.insertRecord lib.toRecordLib record
    | .cycle run => some (syncOnce lib cfg run cache).1

/-- A cycle whose upload came to an end: its batch and what became of the upload. -/
structure Cycle where
  run : Run
  records : List WeighingRecord
  outcome : Except Str (TwoLists Uuid)

/-- The marks of a cycle that are executed. -/
def Cycle.verdict (c : Cycle) : WriteBack := (writeBackOf c.records c.outcome).executed c.run

/-- The cycles that an event adds to the history. -/
def cyclesOf (lib : Lib) (cfg : SyncConfig) (cache : Cache) (event : CacheEvent) (_ : Cache) : List Cycle :=
  match event with
  | .insert _ => []
  | .cycle run =>
      match fetch lib cfg run cache with
      | none | some [] => []
      | some (record :: records) =>
          match upload lib cfg run (record :: records) with
          | none => []
          | some outcome => [⟨run, record :: records, outcome⟩]

/-- The record is the one that was stored. -/
def SameData (row row' : CacheRow) : Prop :=
  row' = { row with
    status := row'.status
    retryCount := row'.retryCount
    lastError := row'.lastError
    updatedAt := row'.updatedAt }

/-- A reply to the batch of the cycle that the engine reads as a success names the record. -/
def Cycle.Acknowledges (lib : Lib) (c : Cycle) (id : Str) : Prop :=
  ∃ response, c.outcome = .ok response ∧
    id ∈ (response.acceptedFrom (c.records.map WeighingRecord.id)).map lib.uuidText ∧
    ∃ attempt ∈ c.run.attempts, uploadBatch lib c.records attempt = .ok response

/-- What a history makes of a row. -/
structure Traced (lib : Lib) (row row' : CacheRow) (history : List Cycle) : Prop where
  data : SameData row row'
  retries : row'.retryCount.value = min (row.retryCount.value +
    (history.countP fun c => row.id ∈ c.verdict.failed.map lib.uuidText : ℕ)) (2 ^ 63)
  synced : row.status ≠ .synced → row'.status = .synced → ∃ c ∈ history, c.Acknowledges lib row.id
  pending : row'.status = .pending → row' = row

section

variable {lib : Lib} {cfg : SyncConfig} {cache cache' : Cache} {row row' row'' : CacheRow}
  {event : CacheEvent} {history more : List Cycle}

theorem traced_refl (row : CacheRow) : Traced lib row row [] where
  data := rfl
  retries := ((congrArg (min · _) (add_zero _)).trans (min_eq_left row.retryCount.value_le)).symm
  synced := fun hne heq => absurd heq hne
  pending := fun _ => rfl

theorem SameData.id_eq (h : SameData row row') : row'.id = row.id := by
  rw [h]

theorem Traced.trans (h : Traced lib row row' history) (h' : Traced lib row' row'' more) :
    Traced lib row row'' (history ++ more) where
  data := by
    rw [SameData, h'.data, h.data]
  retries := by
    rw [h'.retries, h.retries, h.data.id_eq, List.countP_append]
    push_cast
    omega
  synced hne heq := by
    -- it was synced in the first part already, or only in the second
    by_cases hmid : row'.status = .synced
    · obtain ⟨c, hc, hack⟩ := h.synced hne hmid
      exact ⟨c, List.mem_append_left _ hc, hack⟩
    · obtain ⟨c, hc, hack⟩ := h'.synced hmid heq
      exact ⟨c, List.mem_append_right _ hc, h.data.id_eq ▸ hack⟩
  pending heq := by
    have hsame := h'.pending heq
    rw [hsame] at heq ⊢
    exact h.pending heq

/-- What is marked as synced was acknowledged. -/
theorem acknowledges_of_upload {run : Run} {records : List WeighingRecord}
    {outcome : Except Str (TwoLists Uuid)} (hupload : upload lib cfg run records = some outcome)
    {id : Str} (hid : id ∈ (Cycle.verdict ⟨run, records, outcome⟩).synced.map lib.uuidText) :
    (Cycle.mk run records outcome).Acknowledges lib id := by
  have hnamed : id ∈ (writeBackOf records outcome).synced.map lib.uuidText := by
    -- marks that were not executed are none of the verdict
    unfold Cycle.verdict WriteBack.executed at hid
    split_ifs at hid
    · cases hid
    · exact hid
    · exact hid
  cases outcome with
  | error error => cases hnamed
  | ok response =>
      obtain ⟨attempt, hattempt, hvalue⟩ := mem_of_retryTransient hupload
      obtain ⟨attempt', hattempt', rfl⟩ := List.mem_map.mp hattempt
      exact ⟨response, rfl, hnamed, attempt', hattempt', hvalue⟩

/-- What the marks of a cycle make of a row. -/
theorem traced_mark {c : Cycle}
    (hack : ∀ id ∈ c.verdict.synced.map lib.uuidText, c.Acknowledges lib id) (row : CacheRow) :
    Traced lib row (c.verdict.mark lib c.run row) [c] := by
  have hfailed : row.id ∈ c.verdict.failed.map lib.uuidText →
      row.retryCount.succ.value = min (row.retryCount.value +
        (List.countP (fun c : Cycle => row.id ∈ c.verdict.failed.map lib.uuidText) [c] : ℕ)) (2 ^ 63) := by
    intro hf
    rw [RetryCount.value_succ, List.countP_singleton, if_pos (decide_eq_true hf), Nat.cast_one]
  have hspared : row.id ∉ c.verdict.failed.map lib.uuidText →
      row.retryCount.value = min (row.retryCount.value +
        (List.countP (fun c : Cycle => row.id ∈ c.verdict.failed.map lib.uuidText) [c] : ℕ)) (2 ^ 63) := by
    intro hf
    rw [List.countP_singleton, if_neg (by simpa using hf), Nat.cast_zero, add_zero,
      min_eq_left row.retryCount.value_le]
  unfold WriteBack.mark
  by_cases hs : row.id ∈ c.verdict.synced.map lib.uuidText
  · have hid : (Cache.setSynced (c.run.stamp .markSynced) row).id = row.id := rfl
    simp only [if_pos hs, hid]
    -- a reply may name an id twice: it is then marked as failed after it was marked as synced
    by_cases hf : row.id ∈ c.verdict.failed.map lib.uuidText
    · simp only [if_pos hf]
      exact ⟨rfl, hfailed hf, fun _ heq => (by cases heq), fun heq => (by cases heq)⟩
    · simp only [if_neg hf]
      exact ⟨rfl, hspared hf, fun _ _ => ⟨c, List.mem_cons_self, hack _ hs⟩, fun heq => (by cases heq)⟩
  · simp only [if_neg hs]
    by_cases hf : row.id ∈ c.verdict.failed.map lib.uuidText
    · simp only [if_pos hf]
      exact ⟨rfl, hfailed hf, fun _ heq => (by cases heq), fun heq => (by cases heq)⟩
    · simp only [if_neg hf]
      exact ⟨rfl, hspared hf, fun hne heq => absurd heq hne, fun _ => rfl⟩

/-- A cycle is added to the history if its upload comes to an end. -/
theorem cyclesOf_cycle (lib : Lib) (cfg : SyncConfig) (run : Run) (cache cache' : Cache) :
    (∃ records outcome, Uploaded lib cfg run cache records outcome ∧
      cyclesOf lib cfg cache (.cycle run) cache' = [⟨run, records, outcome⟩]) ∨
    ((∀ records outcome, ¬ Uploaded lib cfg run cache records outcome) ∧
      cyclesOf lib cfg cache (.cycle run) cache' = []) := by
  simp only [cyclesOf]
  split
  · next hnone =>
    refine Or.inr ⟨fun records outcome h => ?_, rfl⟩
    have hfetched := h.fetched
    rw [hnone] at hfetched
    cases hfetched
  · next hempty =>
    exact Or.inr ⟨fun _ _ h => h.nonempty (Option.some_inj.mp (hempty.symm.trans h.fetched)).symm, rfl⟩
  · next record records hfetched =>
    cases hupload : upload lib cfg run (record :: records) with
    | none =>
        refine Or.inr ⟨fun records' outcome h => ?_, rfl⟩
        have hsame : record :: records = records' := Option.some_inj.mp (hfetched.symm.trans h.fetched)
        rw [hsame, h.uploaded] at hupload
        cases hupload
    | some outcome =>
        exact Or.inl ⟨_, outcome, ⟨hfetched, List.cons_ne_nil _ _, hupload⟩, rfl⟩

/-- What an event makes of a row that is there. -/
theorem traced_step (hstep : (station lib cfg).step cache event = some cache') (hrow : row ∈ cache.rows) :
    ∃ row' ∈ cache'.rows, Traced lib row row' (cyclesOf lib cfg cache event cache') := by
  cases event with
  | insert record =>
      simp only [station, Cache.insertRecord] at hstep
      split_ifs at hstep
      cases hstep
      exact ⟨row, List.mem_append_left _ hrow, traced_refl row⟩
  | cycle run =>
      cases hstep
      rcases cyclesOf_cycle lib cfg run cache (syncOnce lib cfg run cache).1 with
        ⟨records, outcome, huploaded, hcycles⟩ | ⟨hnone, hcycles⟩
      · rw [hcycles, syncOnce_of_uploaded huploaded, rows_applyWriteBack]
        exact ⟨_, List.mem_map_of_mem hrow,
          traced_mark (fun _ => acknowledges_of_upload huploaded.uploaded) row⟩
      · rw [hcycles, syncOnce_of_not_uploaded hnone]
        exact ⟨row, hrow, traced_refl row⟩

end

/-- In every run a record that is in the cache stays there: with its data, with a retry counted for every
cycle that marked it as failed (up to 2^63), synced only after a reply that names it, and as it was while
it is pending. -/
theorem row_history {lib : Lib} {cfg : SyncConfig} {p p' : Cache × List Cycle}
    (hrun : ((station lib cfg).logged (cyclesOf lib cfg)).Leads (fun _ _ => True) p p') :
    ∃ more, p'.2 = p.2 ++ more ∧
      ∀ row ∈ p.1.rows, ∃ row' ∈ p'.1.rows, Traced lib row row' more := by
  induction hrun with
  | refl => exact ⟨[], (List.append_nil _).symm, fun row hrow => ⟨row, hrow, traced_refl row⟩⟩
  | next _ hstep _ ih =>
      obtain ⟨more, hlog, hrows⟩ := ih
      obtain ⟨hstep', hlog'⟩ := System.logged_step.mp hstep
      refine ⟨more ++ cyclesOf lib cfg _ _ _, by rw [hlog', hlog, List.append_assoc], fun row hrow => ?_⟩
      obtain ⟨row', hrow', htraced⟩ := hrows row hrow
      obtain ⟨row'', hrow'', htraced'⟩ := traced_step hstep' hrow'
      exact ⟨row'', hrow'', htraced.trans htraced'⟩

/-- The replies of two cycles: the first fails the record that is measured first, and the second accepts
it. -/
def failsFirst : String :=
  "\x7b\"accepted_ids\":[],\"failed_ids\":[\"00000000-0000-0000-0000-000000000001\"]\x7d"
def acceptsFirst : String :=
  "\x7b\"accepted_ids\":[\"00000000-0000-0000-0000-000000000001\"],\"failed_ids\":[]\x7d"

theorem row_history_twice : ∃ p', ((station exampleLib oneRecordConfig).logged
      (cyclesOf exampleLib oneRecordConfig)).Leads (fun _ _ => True) (twoRowCache, []) p' ∧
    (∃ more, p'.2 = [] ++ more ∧
      ∀ row ∈ twoRowCache.rows, ∃ row' ∈ p'.1.rows, Traced exampleLib row row' more) ∧
    p'.1.rows.map (fun row => (row.status, row.retryCount)) = [(.synced, .integer 1), (.pending, .integer 0)] := by
  obtain ⟨p', hrun, hP⟩ := System.exists_end_of_exec
    (S := (station exampleLib oneRecordConfig).logged (cyclesOf exampleLib oneRecordConfig))
    (K := fun _ _ => True) (s := (twoRowCache, []))
    (l := [.cycle (answeredBy failsFirst), .cycle (answeredBy acceptsFirst)])
    (P := fun p => decide (p.1.rows.map (fun row => (row.status, row.retryCount)) =
      [(.synced, .integer 1), (.pending, .integer 0)])) (by decide +kernel)
  exact ⟨p', hrun, row_history hrun, of_decide_eq_true hP⟩

end WeighingSync.Engine.SyncEngine
