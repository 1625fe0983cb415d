import Mathlib
import WeighingSync.Common.Transition
import WeighingSync.Engine.OwnBatch

/-!
# Edits during a cycle

Rows of `tbl_weightInfo` may be edited at any time, also between the steps of a cycle: after the
batch is read, between two attempts to upload it, and between two statements of `mark_uploaded`. The
engine keeps no version of a row, and its marks go by serial number alone. So a mark hides an edit,
unless the rows to be marked still are what was fetched when the batch is acknowledged, and are not
edited from then on until their statement (`hidesNothing`).
-/

namespace WeighingSync.Engine

open Go

/-! ## Cycles in steps -/

/-- Where the engine is in a cycle. The records are what it uploads; the rows that they were read from
are kept for the proofs alone, and no step looks at them. -/
inductive Phase
  | idle
  | uploading (fetched : List WeightRow) (records : List SqlServerWeightRecord)
  | marking (fetched : List WeightRow) (records : List SqlServerWeightRecord)
      (remaining : List (List Str))

/-- The table and the engine. -/
structure State where
  rows : List WeightRow
  phase : Phase

/-- What may happen: an edit of a row, or the next step of the engine. -/
inductive Action
  | edit (i : ℕ) (row : WeightRow)
  | fetch
  | attempt (attempt : Attempt)
  | giveUp
  | mark
  | fail

/-- The engine with its libraries, its database and its settings. -/
structure Setup where
  lib : SqlServerEngine.Lib
  server : Server
  source : SqlServerConfig
  cfg : SyncConfig

namespace Setup

variable (S : Setup)

/-- The statements of `mark_uploaded`. -/
def toMark (records : List SqlServerWeightRecord) (response : TwoLists Str) : List (List Str) :=
  if S.source.markUploaded then
    chunks markUploadChunkSize (SqlServerEngine.acceptedSerialNos records response)
  else []

/-- Marking what remains, or nothing left to do. -/
def marking (fetched : List WeightRow) (records : List SqlServerWeightRecord) :
    List (List Str) → Phase
  | [] => .idle
  | chunk :: remaining => .marking fetched records (chunk :: remaining)

/-- An edit changes the other columns of a row, and leaves its flag. -/
def edited (rows : List WeightRow) (i : ℕ) (row : WeightRow) : List WeightRow :=
  rows.modify i fun old => { row with isUploadCloud := old.isUploadCloud }

/-- One step. The time that retries take is left open, so that the engine may give up whenever it
retries. -/
def step (s : State) : Action → Option State
  | .edit i row => some { s with rows := edited s.rows i row }
  | .fetch =>
      match s.phase, S.server.fetchPending S.lib.toFloatLib S.cfg.batchSize s.rows with
      | .idle, .ok (record :: records) =>
          let fetched := S.server.pendingRows S.cfg.batchSize s.rows
          some { s with phase := .uploading fetched (record :: records) }
      -- a query that fails or finds nothing ends the cycle where it began
      | _, _ => none
  | .attempt attempt =>
      match s.phase with
      | .uploading fetched records =>
          match SqlServerEngine.uploadBatch S.lib S.source records attempt with
          | .ok response => some { s with phase := marking fetched records (S.toMark records response) }
          | .error (.transient _) => some s
          | .error (.permanent _) => some { s with phase := .idle }
      | _ => none
  | .giveUp =>
      match s.phase with
      | .uploading _ _ => some { s with phase := .idle }
      | _ => none
  | .mark =>
      match s.phase with
      | .marking fetched records (chunk :: remaining) =>
          some ⟨S.server.markChunk chunk s.rows, marking fetched records remaining⟩
      | _ => none
  | .fail =>
      match s.phase with
      | .marking _ _ _ => some { s with phase := .idle }
      | _ => none

/-- The runs of the engine on any table. -/
def cycles : System State Action where
  init s := s.phase = .idle
  step := S.step

end Setup

/-- The records of the upload that is under way or acknowledged. -/
def Phase.records : Phase → List SqlServerWeightRecord
  | .idle => []
  | .uploading _ records => records
  | .marking _ records _ => records

/-! ## Marks that hide nothing -/

/-- Whatever row the next step sets the flag of, the record of this row is among those uploaded. -/
def HidesNothing (S : Setup) (s : State) : Prop :=
  ∀ a s', S.step s a = some s' → ∀ (i : ℕ) (row row' : WeightRow), s.rows[i]? = some row →
    s'.rows[i]? = some row' → row.isUploadCloud ≠ some 1 → row'.isUploadCloud = some 1 →
    ∃ record ∈ s.phase.records, rowToRecord S.lib.toFloatLib row = .ok record

/-- The rows that are to be marked, and are not yet, are rows as they were fetched. -/
def Unedited (server : Server) (fetched : List WeightRow) (remaining : List (List Str))
    (rows : List WeightRow) : Prop :=
  ∀ row ∈ rows, server.named remaining.flatten row = true → row.isUploadCloud ≠ some 1 → row ∈ fetched

instance (server : Server) (fetched : List WeightRow) (remaining : List (List Str))
    (rows : List WeightRow) : Decidable (Unedited server fetched remaining rows) :=
  inferInstanceAs (Decidable (∀ row ∈ rows, _ → _ → _))

/-- The rows that a reply makes the engine mark still are as they were fetched when it arrives, and
no edit changes that while statements remain. -/
def KeepsUnedited (S : Setup) (s : State) : Action → Prop
  | .attempt attempt =>
      match s.phase with
      | .uploading fetched records => ∀ response ∈
          (SqlServerEngine.uploadBatch S.lib S.source records attempt).toOption,
            Unedited S.server fetched (S.toMark records response) s.rows
      | _ => True
  | .edit i row =>
      match s.phase with
      | .marking fetched _ remaining =>
          Unedited S.server fetched remaining (Setup.edited s.rows i row)
      | _ => True
  | _ => True

instance (S : Setup) : ∀ s, DecidablePred (KeepsUnedited S s)
  | ⟨rows, .uploading fetched records⟩, .attempt attempt => inferInstanceAs (Decidable
      (∀ response ∈ (SqlServerEngine.uploadBatch S.lib S.source records attempt).toOption,
        Unedited S.server fetched (S.toMark records response) rows))
  | ⟨rows, .marking fetched _ remaining⟩, .edit i row => inferInstanceAs (Decidable
      (Unedited S.server fetched remaining (Setup.edited rows i row)))
  | ⟨_, .idle⟩, .attempt _ | ⟨_, .marking _ _ _⟩, .attempt _ => isTrue trivial
  | ⟨_, .idle⟩, .edit _ _ | ⟨_, .uploading _ _⟩, .edit _ _ => isTrue trivial
  | _, .fetch | _, .giveUp | _, .mark | _, .fail => isTrue trivial

variable {S : Setup} {s s' : State} {a : Action}

/-- The invariant of a cycle: the records are those of the rows that were fetched, and the rows that
remain to be marked are as they were fetched. -/
def InStep (S : Setup) (s : State) : Prop :=
  match s.phase with
  | .idle => True
  | .uploading fetched records => fetched.mapM (rowToRecord S.lib.toFloatLib) = .ok records
  | .marking fetched records remaining =>
      fetched.mapM (rowToRecord S.lib.toFloatLib) = .ok records ∧
        Unedited S.server fetched remaining s.rows

theorem inStep_marking {fetched : List WeightRow} {records : List SqlServerWeightRecord}
    {remaining : List (List Str)} {rows : List WeightRow}
    (hread : fetched.mapM (rowToRecord S.lib.toFloatLib) = .ok records)
    (hunedited : Unedited S.server fetched remaining rows) :
    InStep S ⟨rows, Setup.marking fetched records remaining⟩ := by
  cases remaining with
  | nil => trivial
  | cons chunk remaining => exact ⟨hread, hunedited⟩

/-- Marking a chunk leaves the other rows that remain to be marked as they are. -/
theorem Unedited.markChunk {server : Server} {fetched : List WeightRow} {chunk : List Str}
    {remaining : List (List Str)} {rows : List WeightRow}
    (h : Unedited server fetched (chunk :: remaining) rows) :
    Unedited server fetched remaining (server.markChunk chunk rows) := by
  intro row' hrow' hnamed hflag
  obtain ⟨row, hrow, rfl⟩ := List.mem_map.mp hrow'
  by_cases hchunk : server.named chunk row
  · rw [if_pos hchunk] at hflag
    exact absurd rfl hflag
  · rw [if_neg hchunk] at hnamed hflag ⊢
    refine h row hrow ?_ hflag
    rw [List.flatten_cons, Server.named_append, hnamed, Bool.or_true]

/-- Steps that keep the rows to be marked unedited keep the invariant. -/
theorem inStep_step (hs : InStep S s) (hstep : S.step s a = some s') (hok : KeepsUnedited S s a) :
    InStep S s' := by
  obtain ⟨rows, phase⟩ := s
  cases a with
  | edit i row =>
      cases hstep
      cases phase with
      | idle => trivial
      | uploading fetched records => exact hs
      | marking fetched records remaining => exact ⟨hs.1, hok⟩
  | fetch =>
      simp only [Setup.step] at hstep
      split at hstep
      · next hfetched =>
        cases hstep
        exact hfetched
      · cases hstep
  | attempt attempt =>
      cases phase with
      | uploading fetched records =>
          simp only [Setup.step] at hstep
          split at hstep
          · next response hresponse =>
            cases hstep
            -- the statements of the answer begin here, with the rows as the step leaves them
            refine inStep_marking hs (hok response ?_)
            rw [hresponse]
            rfl
          · cases hstep
            exact hs
          · cases hstep
            trivial
      | idle => cases hstep
      | marking fetched records remaining => cases hstep
  | giveUp =>
      cases phase with
      | uploading fetched records =>
          cases hstep
          trivial
      | idle => cases hstep
      | marking fetched records remaining => cases hstep
  | mark =>
      cases phase with
      | marking fetched records remaining =>
          cases remaining with
          | nil => cases hstep
          | cons chunk remaining =>
              cases hstep
              exact inStep_marking hs.1 hs.2.markChunk
      | idle => cases hstep
      | uploading fetched records => cases hstep
  | fail =>
      cases phase with
      | marking fetched records remaining =>
          cases hstep
          trivial
      | idle => cases hstep
      | uploading fetched records => cases hstep

/-- What a step does to the table: nothing, an edit, or the next statement of `mark_uploaded`. -/
theorem rows_step (hstep : S.step s a = some s') :
    s'.rows = s.rows ∨ (∃ i row, s'.rows = Setup.edited s.rows i row) ∨
      ∃ fetched records chunk remaining, s.phase = .marking fetched records (chunk :: remaining) ∧
        s'.rows = S.server.markChunk chunk s.rows := by
  obtain ⟨rows, phase⟩ := s
  cases a with
  | edit i row =>
      cases hstep
      exact Or.inr (Or.inl ⟨i, row, rfl⟩)
  | mark =>
      cases phase with
      | marking fetched records remaining =>
          cases remaining with
          | nil => cases hstep
          | cons chunk remaining =>
              cases hstep
              exact Or.inr (Or.inr ⟨fetched, records, chunk, remaining, rfl, rfl⟩)
      | idle => cases hstep
      | uploading fetched records => cases hstep
  | fetch =>
      simp only [Setup.step] at hstep
      split at hstep <;> cases hstep
      exact Or.inl rfl
  | attempt attempt =>
      simp only [Setup.step] at hstep
      split at hstep
      · split at hstep <;> cases hstep <;> exact Or.inl rfl
      · cases hstep
  | giveUp =>
      simp only [Setup.step] at hstep
      split at hstep <;> cases hstep
      exact Or.inl rfl
  | fail =>
      simp only [Setup.step] at hstep
      split at hstep <;> cases hstep
      exact Or.inl rfl

/-- An edit sets no flag. -/
theorem isUploadCloud_edited {rows : List WeightRow} {i j : ℕ} {edit row row' : WeightRow}
    (hrow : rows[j]? = some row) (hrow' : (Setup.edited rows i edit)[j]? = some row') :
    row'.isUploadCloud = row.isUploadCloud := by
  rw [Setup.edited, List.getElem?_modify, hrow, Option.map_eq_map, Option.map_some,
    Option.some_inj] at hrow'
  rw [← hrow']
  split_ifs <;> rfl

theorem hidesNothing_of_inStep (hs : InStep S s) : HidesNothing S s := by
  intro a s' hstep i row row' hrow hrow' hflag hflag'
  rcases rows_step hstep with hsame | ⟨j, edit, hedit⟩ | ⟨fetched, records, chunk, remaining, hphase, hmark⟩
  · rw [hsame, hrow, Option.some_inj] at hrow'
    exact absurd (hrow' ▸ hflag') hflag
  · rw [hedit] at hrow'
    exact absurd (isUploadCloud_edited hrow hrow' ▸ hflag') hflag
  · rw [hmark, Server.markChunk, List.getElem?_map, hrow, Option.map_some, Option.some_inj] at hrow'
    rw [InStep, hphase] at hs
    by_cases hchunk : S.server.named chunk row
    · have hnamed : S.server.named (chunk :: remaining).flatten row = true := by
        rw [List.flatten_cons, Server.named_append, hchunk, Bool.true_or]
      have hfetched : row ∈ fetched := hs.2 row (List.mem_of_getElem? hrow) hnamed hflag
      rw [hphase]
      exact exists_record_of_mapM hs.1 hfetched
    · rw [if_neg hchunk] at hrow'
      exact absurd (hrow' ▸ hflag') hflag

/-- In every run in which the rows that a reply makes the engine mark still are as they were fetched,
and stay so until their statement, a flag is set only on a row whose content is in the upload that
was acknowledged. -/
theorem hidesNothing (S : Setup) {s : State} (h : S.cycles.ReachedBy (KeepsUnedited S) s) :
    HidesNothing S s := by
  apply hidesNothing_of_inStep
  apply h.invariant
  · intro s hinit
    rw [InStep, show s.phase = .idle from hinit]
    trivial
  · intro s a s' hs hstep hok
    exact inStep_step hs hstep hok

/-! ## Two runs -/

/-- The documented source, read in batches of one record. -/
def plainSetup : Setup := ⟨plainLib, plainServer, plainSource, oneRecordConfig⟩

/-- An attempt after which the row `A` is accepted. -/
def acceptsA : Attempt := answered "\x7b\"accepted_serial_nos\":[\"A\"]\x7d"

/-- A row whose plate has been filled in. -/
def editedWeight (serialNo : String) : WeightRow :=
  { pendingWeight serialNo with
    others := (Vector.replicate _ .null).set 3 (.text (Str.lit "P1")) }

/-- The row `A` is uploaded and about to be marked, while the row `B` is edited. -/
theorem hidesNothing_twoWeights : ∃ s, plainSetup.cycles.ReachedBy (KeepsUnedited plainSetup) s ∧
    ((plainSetup.step s .mark).any fun s' => s.rows.map WeightRow.isUploadCloud = [some 0, some 0] &&
      s'.rows.map WeightRow.isUploadCloud = [some 1, some 0]) = true ∧ HidesNothing plainSetup s := by
  obtain ⟨s, hs, hmark⟩ := System.exists_of_exec (S := plainSetup.cycles)
    (P := fun s => (plainSetup.step s .mark).any fun s' =>
      s.rows.map WeightRow.isUploadCloud = [some 0, some 0] &&
        s'.rows.map WeightRow.isUploadCloud = [some 1, some 0])
    (s := ⟨twoWeights, .idle⟩) rfl
    (show (plainSetup.cycles.exec (KeepsUnedited plainSetup) ⟨twoWeights, .idle⟩
      [.fetch, .edit 1 (editedWeight "B"), .attempt acceptsA, .edit 1 (pendingWeight "B")]).any _ = true
      by decide +kernel)
  exact ⟨s, hs, hmark, hidesNothing plainSetup hs⟩

/-- The number of columns of a record that are not NULL. -/
def SqlServerWeightRecord.filled (record : SqlServerWeightRecord) : ℕ :=
  record.data.countP fun f => match f.2 with
    | .null => false
    | _ => true

/-- The row `A` is edited after it was fetched, and flagged once the upload is acknowledged. -/
theorem not_hidesNothing_edited : ∃ s, plainSetup.cycles.Reachable s ∧ ¬ HidesNothing plainSetup s := by
  obtain ⟨s, hs, hmark⟩ := System.exists_of_exec (S := plainSetup.cycles)
    (P := fun s => (plainSetup.step s .mark).any fun s' =>
      s.rows[0]?.any (fun row => row.isUploadCloud ≠ some 1 &&
        (rowToRecord plainLib.toFloatLib row).toOption.any fun record => record.filled = 4) &&
      s'.rows[0]?.any (fun row => row.isUploadCloud = some 1) &&
      s.phase.records.all fun record => record.filled = 3)
    (s := ⟨twoWeights, .idle⟩) rfl
    (show (plainSetup.cycles.exec (fun _ _ => True) ⟨twoWeights, .idle⟩
      [.fetch, .edit 0 (editedWeight "A"), .attempt acceptsA]).any _ = true by decide +kernel)
  refine ⟨s, hs, fun h => ?_⟩
  obtain ⟨s', hstep, hchecks⟩ := (Option.any_eq_true _ _).mp hmark
  simp only [Bool.and_eq_true] at hchecks
  obtain ⟨⟨hbefore, hafter⟩, huploads⟩ := hchecks
  obtain ⟨row, hrow, hedited⟩ := (Option.any_eq_true _ _).mp hbefore
  obtain ⟨row', hrow', hflag'⟩ := (Option.any_eq_true _ _).mp hafter
  rw [Bool.and_eq_true] at hedited
  obtain ⟨record, hrecord, hread⟩ := h .mark s' hstep 0 row row' hrow hrow'
    (of_decide_eq_true hedited.1) (of_decide_eq_true hflag')
  have huploaded := of_decide_eq_true (List.all_eq_true.mp huploads record hrecord)
  have hread' := hedited.2
  rw [show plainLib.toFloatLib = plainSetup.lib.toFloatLib from rfl, hread] at hread'
  have hfilled : record.filled = 4 := of_decide_eq_true hread'
  omega

/-! ## Cycles without edits -/

/-- A step of the engine itself. -/
def Action.ofEngine : Action → Bool
  | .edit _ _ => false
  | _ => true

/-- The engine, by its own steps, goes from one state to another. -/
def Setup.Goes (S : Setup) : State → State → Prop :=
  Relation.ReflTransGen fun s s' => ∃ a : Action, a.ofEngine = true ∧ S.step s a = some s'

theorem Setup.Goes.head {s'' : State} (hengine : a.ofEngine = true) (hstep : S.step s a = some s')
    (h : S.Goes s' s'') : S.Goes s s'' :=
  Relation.ReflTransGen.head ⟨a, hengine, hstep⟩ h

/-- Retries that end with a response lead to its marks. -/
theorem goes_upload {fetched : List WeightRow} {records : List SqlServerWeightRecord}
    {response : TwoLists Str} {rows : List WeightRow} {maxDelay maxElapsed : ℕ}
    {attempts : List Attempt} {delay : ℕ}
    (h : (retryLoop maxDelay maxElapsed delay (attempts.map fun attempt =>
      (SqlServerEngine.uploadBatch S.lib S.source records attempt, attempt.elapsed))).result =
        some (.ok response)) :
    S.Goes ⟨rows, .uploading fetched records⟩
      ⟨rows, Setup.marking fetched records (S.toMark records response)⟩ := by
  induction attempts generalizing delay with
  | nil => cases h
  | cons attempt attempts ih =>
      rcases houtcome : SqlServerEngine.uploadBatch S.lib S.source records attempt with e | response'
      · cases e with
        | permanent error =>
            simp only [List.map_cons, retryLoop, houtcome] at h
            cases h
        | transient error =>
            simp only [List.map_cons, retryLoop, houtcome] at h
            split_ifs at h
            · cases h
            · refine Setup.Goes.head (a := .attempt attempt) rfl ?_ (ih h)
              simp only [Setup.step, houtcome]
      · simp only [List.map_cons, retryLoop, houtcome] at h
        cases h
        refine Setup.Goes.head (a := .attempt attempt) rfl ?_ .refl
        simp only [Setup.step, houtcome]

/-- The statements of `mark_uploaded`, one by one, up to the one that fails. -/
theorem goes_markChunks (fetched : List WeightRow) (records : List SqlServerWeightRecord)
    (failsAt : Option ℕ) (remaining : List (List Str)) (rows : List WeightRow) :
    ∃ phase, S.Goes ⟨rows, Setup.marking fetched records remaining⟩
      ⟨(S.server.markChunks failsAt remaining rows).1, phase⟩ := by
  induction remaining generalizing failsAt rows with
  | nil =>
      cases failsAt <;> exact ⟨_, .refl⟩
  | cons chunk remaining ih =>
      rcases failsAt with _ | _ | k
      · obtain ⟨phase, hgoes⟩ := ih none (S.server.markChunk chunk rows)
        exact ⟨phase, Setup.Goes.head (a := .mark) rfl rfl hgoes⟩
      · exact ⟨.idle, Setup.Goes.head (a := .fail) rfl rfl .refl⟩
      · obtain ⟨phase, hgoes⟩ := ih (some k) (S.server.markChunk chunk rows)
        exact ⟨phase, Setup.Goes.head (a := .mark) rfl rfl hgoes⟩

theorem markUploaded_fst_eq (records : List SqlServerWeightRecord) (response : TwoLists Str)
    (failsAt : Option ℕ) (rows : List WeightRow) :
    (S.server.markUploaded S.source failsAt (SqlServerEngine.acceptedSerialNos records response)
      rows).1 = (S.server.markChunks failsAt (S.toMark records response) rows).1 := by
  unfold Server.markUploaded Setup.toMark
  by_cases hmark : S.source.markUploaded = true
  · rw [if_pos hmark, hmark]
    by_cases hnil : SqlServerEngine.acceptedSerialNos records response = []
    · rw [if_pos (Or.inl hnil), hnil]
      cases failsAt <;> rfl
    · rw [if_neg (by simp [hnil])]
  · rw [if_neg hmark, if_pos (Or.inr (Bool.eq_false_iff.mpr hmark))]
    cases failsAt <;> rfl

/-- A cycle that nothing interferes with is a run of steps. -/
theorem goes_syncOnce (run : SqlServerEngine.Run) (rows : List WeightRow) :
    ∃ phase, S.Goes ⟨rows, .idle⟩
      ⟨(SqlServerEngine.syncOnce S.lib S.server S.source S.cfg run rows).1, phase⟩ := by
  by_cases h : ∃ records response,
      SqlServerEngine.Acknowledged S.lib S.server S.source S.cfg run rows records response
  · obtain ⟨records, response, h⟩ := h
    have hfetched := h.fetched
    rw [SqlServerEngine.fetch] at hfetched
    split_ifs at hfetched
    obtain ⟨record, records, rfl⟩ := List.exists_cons_of_ne_nil h.nonempty
    have hfetch : S.step ⟨rows, .idle⟩ .fetch = some
        ⟨rows, .uploading (S.server.pendingRows S.cfg.batchSize rows) (record :: records)⟩ := by
      simp only [Setup.step, hfetched]
    obtain ⟨phase, hmarks⟩ := goes_markChunks (S := S)
      (S.server.pendingRows S.cfg.batchSize rows) (record :: records) run.markFailsAt
      (S.toMark (record :: records) response) rows
    rw [SqlServerEngine.syncOnce_of_acknowledged h, markUploaded_fst_eq]
    exact ⟨phase, Setup.Goes.head rfl hfetch ((goes_upload h.uploaded).trans hmarks)⟩
  · push Not at h
    rw [SqlServerEngine.syncOnce_of_not_acknowledged h]
    exact ⟨_, .refl⟩

end WeighingSync.Engine
