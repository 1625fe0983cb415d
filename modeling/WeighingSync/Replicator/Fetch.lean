import WeighingSync.Replicator.Store

/-!
# What the replicator can reach

`fetchAndStore` asks C for its newest records, as many as a batch holds, and never for the ones after
them (`fetchedPage_eq`). What it stores of the page are rows for the keys on it (`mem_keys_storePage`).
-/

namespace WeighingSync.Replicator

open Go Receiver

/-- The query parameters of `fetchAndStore`. -/
def fetchQuery (cfg : Config) (name : String) : Str :=
  if name = "include_raw" then Str.lit "true"
  else if name = "limit" then natText cfg.batchSize
  else []

/-- What B receives of a row of C. -/
def received (floatText : Str → Option Str) (r : Entry Str StoredRecord) : CRecord :=
  cRecordOf (pageItem floatText true r)

/-- The size of a page: what B asks for, cut down to what C allows. -/
def pageSize (cfg : Config) (ccfg : Receiver.Config) : ℕ :=
  (min (cfg.batchSize : ℤ) ccfg.maxLimit).toNat

section

variable (timeText floatText : Str → Option Str) (ccfg : Receiver.Config) (cfg : Config)

/-- The records of a fetch that C answers. -/
def fetchedPage (t : RecordTable) : List CRecord :=
  ((queryPage floatText ccfg timeText (fetchQuery cfg) t).getD []).map cRecordOf

/-- The filter of B's query: it names no column and no offset. -/
def fetchFilter : QueryFilter :=
  ⟨0, [], [], [], [], none, none, min (cfg.batchSize : ℤ) ccfg.maxLimit, 0⟩

theorem queryFilter_fetchQuery :
    queryFilter ccfg timeText (fetchQuery cfg) = some (fetchFilter ccfg cfg) := by
  have hlimit : parseBoundedInt (fetchQuery cfg "limit") ccfg.defaultLimit 1 ccfg.maxLimit =
      min (cfg.batchSize : ℤ) ccfg.maxLimit :=
    parseBoundedInt_natText cfg.batchSize_pos cfg.batchSize_lt _ _
  rw [queryFilter, hlimit]
  rfl

theorem shouldReturnRaw_fetchQuery :
    shouldReturnRaw (fetchQuery cfg "include_raw") ccfg.returnRawRecords = true := by
  have htrue : ∀ b, shouldReturnRaw (Str.lit "true") b = true := by decide
  exact htrue ccfg.returnRawRecords

/-- It selects the first page of the whole table. -/
theorem queryRecords_fetchFilter (t : RecordTable) :
    queryRecords t (fetchFilter ccfg cfg) = window newestFirst (pageSize cfg ccfg) t.rows := by
  have hall : t.rows.filter (fetchFilter ccfg cfg).selects = t.rows := by
    rw [List.filter_eq_self]
    intro r _
    simp [QueryFilter.selects, fetchFilter]
  rw [queryRecords, hall]
  rfl

/-- B fetches the first page of the whole table. -/
theorem fetchedPage_eq (t : RecordTable) :
    fetchedPage timeText floatText ccfg cfg t =
      (window newestFirst (pageSize cfg ccfg) t.rows).map (received floatText) := by
  rw [fetchedPage, queryPage, queryFilter_fetchQuery, shouldReturnRaw_fetchQuery, Option.map_some,
    Option.getD_some, List.map_map, queryRecords_fetchFilter]
  rfl

end

/-! ## Storing a page -/

/-- A record that B stores when MySQL takes every statement: it passes the checks of `fetchAndStore`
and its raw record is a JSON object. -/
def Storable (r : CRecord) : Prop :=
  r.acceptable = true ∧ ((parse r.record).bind Json.decodeObject).isSome = true

instance (r : CRecord) : Decidable (Storable r) := inferInstanceAs (Decidable (_ ∧ _))

variable {env : StoreEnv} {cfg : Config} {now : ℤ}

/-- A storable record is stored. -/
theorem storeRecord_isSome {r : CRecord} (h : Storable r) (db : ReplicatorDb) :
    ∃ db', storeRecord env cfg now r db = some db' := by
  obtain ⟨values, hvalues⟩ := Option.isSome_iff_exists.mp h.2
  exact ⟨_, by rw [storeRecord, upsertBusinessRecord, hvalues]; rfl⟩

/-- After a page of storable records B holds what it held and the page. -/
theorem mem_keys_storePage {page : List CRecord} (h : ∀ r ∈ page, Storable r) (db : ReplicatorDb)
    {k : Str} : k ∈ (storePage env cfg now page db).replicated.keys ↔
      k ∈ db.replicated.keys ∨ ∃ r ∈ page, env.collate r.recordKey = k := by
  induction page generalizing db with
  | nil => simp [storePage]
  | cons r page ih =>
      obtain ⟨hr, hpage⟩ := List.forall_mem_cons.mp h
      obtain ⟨db', hdb'⟩ : ∃ db', storeRecord env cfg now r db = some db' := storeRecord_isSome hr db
      obtain ⟨_, hstored⟩ := exists_stored env hdb'
      rw [storePage, if_pos hr.1, hdb', ih hpage, hstored.replicated, upsertReplicated,
        KeyedTable.mem_keys_upsert, List.exists_mem_cons_iff, or_assoc, eq_comm (a := k)]

/-! ## Two records -/

/-- An upload of a weighing record with a serial number, as C stores it. -/
def serialUpload (serial time : String) : UpsertRow where
  key := Str.lit "weight_info:" ++ Str.lit serial
  content := {
    entityType := Str.lit "weight_info"
    keyType := Str.lit "serialNo"
    serialNo := some (Str.lit serial)
    plateNo := none
    sourceTime := some (Str.lit time)
    source := Str.lit "scale"
    sourceDatabase := Str.lit "scale"
    sourceTable := Str.lit "tbl_weightInfo"
    uploadedAt := none
    rawRecord := some (Json.obj [(Str.lit "serialNo", .str (Str.lit serial))]).encode }
  now := Str.lit time

/-- Two records of C, `b` newer than `a`. -/
def twoRecords : RecordTable :=
  RecordTable.upsertRows KeyedTable.empty
    [serialUpload "a" "2026-01-01T00:00:00Z", serialUpload "b" "2026-01-02T00:00:00Z"]

/-- Texts compare exactly, and numbers print as they are written. -/
def exactEnv : StoreEnv where
  collate := id
  numberText := id
  goText := Json.encode

/-- A replicator without records that fetches one record at a time. -/
def emptyDb : ReplicatorDb := ⟨.empty, .empty, .empty, .empty⟩
def oneRecordConfig : Config := ⟨1, false, by decide, by decide⟩

/-- The default limits of C. -/
def defaultLimits : Receiver.Config where
  maxBodyBytes := 16777216
  defaultLimit := 100
  maxLimit := 1000
  storeRawRecords := true
  storeRawPayload := false
  returnRawRecords := false
  minDeleteAgeHours := 168
  limits := Receiver.limits_default
  min_age := Receiver.min_age_default

end WeighingSync.Replicator
