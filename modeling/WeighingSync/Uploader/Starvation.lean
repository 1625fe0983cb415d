import WeighingSync.Common.Transition
import WeighingSync.Uploader.Sync

/-!
# Rows that the uploader never reaches

`fetchEntity` reads the first rows of each table in key order, and only then does `syncOnce` leave
out the confirmed ones. The uploader never changes the source, so the window stays where it is: what
lies beyond it is confirmed by no pass (`mem_done_of_reachable`), and a pass that finds its windows
confirmed reports that nothing is left (`noStarvation_iff`).
-/

namespace WeighingSync.Uploader

open Go

/-- The records of the two windows. -/
def windowRecords (cfg : Config) (db : SourceDb) : List SourceRecord :=
  (db.info.top cfg.batchSize.toNat).map cfg.infoRecord ++
    (db.photo.top cfg.batchSize.toNat).map cfg.photoRecord

/-- The pending records that the two windows leave out. -/
def restRecords (cfg : Config) (db : SourceDb) : List SourceRecord :=
  (db.info.rest cfg.batchSize.toNat).map cfg.infoRecord ++
    (db.photo.rest cfg.batchSize.toNat).map cfg.photoRecord

/-- The records of all rows that satisfy the pending predicate of their table. -/
def pendingRecords (cfg : Config) (db : SourceDb) : List SourceRecord :=
  db.info.pendingRows.map cfg.infoRecord ++ db.photo.pendingRows.map cfg.photoRecord

/-- Reading the two windows succeeds. -/
def Readable (cfg : Config) (db : SourceDb) : Prop :=
  db.info.fails = false ∧ db.photo.fails = false ∧
    ∀ r ∈ windowRecords cfg db, r.identified = true

theorem fetchAll_eq_ok_iff_readable {cfg : Config} {db : SourceDb} {records : List SourceRecord} :
    fetchAll cfg db = .ok records ↔ Readable cfg db ∧ records = windowRecords cfg db := by
  rw [fetchAll_eq_ok_iff, Readable]
  constructor
  · rintro ⟨hinfo, hphoto, rfl, hall⟩
    exact ⟨⟨hinfo, hphoto, hall⟩, rfl⟩
  · rintro ⟨⟨hinfo, hphoto, hall⟩, rfl⟩
    exact ⟨hinfo, hphoto, rfl, hall⟩

/-- Every pending record is in a window or beyond it. -/
theorem mem_pendingRecords_iff {cfg : Config} {db : SourceDb} {r : SourceRecord} :
    r ∈ pendingRecords cfg db ↔ r ∈ windowRecords cfg db ∨ r ∈ restRecords cfg db := by
  simp only [pendingRecords, windowRecords, restRecords, List.mem_append, List.mem_map,
    SourceTable.mem_pendingRows_iff _ cfg.batchSize.toNat, or_and_right, exists_or]
  exact or_or_or_comm

/-- A pass is idle exactly when it can read its windows and finds them confirmed. -/
theorem outcome_eq_idle_iff {cfg : Config} {db : SourceDb} {store : StateStore} {x : Exchange} :
    (syncOnce cfg db store x).outcome = .idle ↔
      Readable cfg db ∧ ∀ r ∈ windowRecords cfg db, r.confirmedIn store = true := by
  have hnone : ∀ records, pendingOf store records = [] ↔
      ∀ r ∈ records, r.confirmedIn store = true := by
    intro records
    simp [pendingOf, List.filter_eq_nil_iff]
  rcases syncOnce_cases cfg db store x with ⟨e, hfetch, hpass⟩ | ⟨records, hfetch, h⟩
  · have hnot : ¬ Readable cfg db := fun hread => by
      rw [fetchAll_eq_ok_iff_readable.mpr ⟨hread, rfl⟩] at hfetch
      cases hfetch
    rw [hpass]
    exact ⟨fun h => (nomatch h), fun h => absurd h.1 hnot⟩
  · obtain ⟨hread, rfl⟩ := fetchAll_eq_ok_iff_readable.mp hfetch
    rcases h with ⟨hempty, hpass⟩ | ⟨hpending, hbusy, -⟩
    · rw [hpass]
      exact ⟨fun _ => ⟨hread, (hnone _).mp hempty⟩, fun _ => rfl⟩
    · exact ⟨fun h => absurd h hbusy, fun h => absurd ((hnone _).mpr h.2) hpending⟩

/-- A pass that reports nothing left has left nothing: every pending row is confirmed. -/
def NoStarvation (cfg : Config) (db : SourceDb) (store : StateStore) (x : Exchange) : Prop :=
  (syncOnce cfg db store x).outcome = .idle →
    ∀ r ∈ pendingRecords cfg db, r.confirmedIn store = true

/-- A pass starves no row exactly when its windows cannot be read, or hold an unconfirmed record, or
every pending record beyond them is confirmed. -/
theorem noStarvation_iff (cfg : Config) (db : SourceDb) (store : StateStore) (x : Exchange) :
    NoStarvation cfg db store x ↔
      ¬ Readable cfg db ∨ (∃ r ∈ windowRecords cfg db, r.confirmedIn store = false) ∨
        ∀ r ∈ restRecords cfg db, r.confirmedIn store = true := by
  rw [NoStarvation, outcome_eq_idle_iff]
  constructor
  · intro h
    by_cases hread : Readable cfg db
    · by_cases hwindow : ∀ r ∈ windowRecords cfg db, r.confirmedIn store = true
      · exact Or.inr <| Or.inr fun r hr =>
          h ⟨hread, hwindow⟩ r (mem_pendingRecords_iff.mpr (Or.inr hr))
      · push Not at hwindow
        obtain ⟨r, hr, hnot⟩ := hwindow
        exact Or.inr (Or.inl ⟨r, hr, by simpa using hnot⟩)
    · exact Or.inl hread
  · rintro (hnot | ⟨r, hr, hnot⟩ | hrest) ⟨hread, hwindow⟩ r' hr'
    · exact absurd hread hnot
    · rw [hwindow r hr] at hnot
      cases hnot
    · exact (mem_pendingRecords_iff.mp hr').elim (hwindow r') (hrest r')

/-- An environment with batches of one row. -/
def oneRowEnv (key : Str) : Str :=
  if key = Str.lit "INGEST_API_TOKEN" then Str.lit "token"
  else if key = Str.lit "INGEST_SIGN_SECRET" then Str.lit "secret"
  else if key = Str.lit "SQLSERVER_DATABASE" then Str.lit "scale"
  else if key = Str.lit "BATCH_SIZE" then Str.lit "1"
  else []

/-- The default endpoint, parsed. -/
def defaultEndpoint (_ : Str) : Option Endpoint :=
  some ⟨Str.lit "http", Str.lit "127.0.0.1:18081", Str.lit "/weighing-data-sync/put", []⟩

/-- The configuration that it gives. -/
def oneRowConfig : Config where
  endpoint := ⟨Str.lit "http", Str.lit "127.0.0.1:18081", Str.lit "/weighing-data-sync/put", []⟩
  token := Str.lit "token"
  secret := Str.lit "secret"
  database := Str.lit "scale"
  schema := Str.lit "dbo"
  infoTable := Str.lit "tbl_weightInfo"
  photoTable := Str.lit "tbl_weightPhoto"
  infoPrimaryKey := Str.lit "serialNo"
  photoPrimaryKey := Str.lit "id"
  infoSerialColumn := Str.lit "serialNo"
  photoSerialColumn := Str.lit "serialNo"
  infoPendingWhere := defaultPendingWhere
  photoPendingWhere := defaultPhotoPendingWhere
  stateFile := Str.lit "data/a-uploader-state.jsonl"
  source := Str.lit "sqlserver-scale"
  batchSize := 1
  poll := 30 * second
  timeout := 30 * second
  runOnce := false
  endpoint_absolute := by decide
  credentials := by decide
  database_ne := by decide
  identifiers := by decide
  bounds := by decide
  info_where := by decide +kernel
  photo_where := by decide +kernel

theorem loadConfig_oneRowEnv : loadConfig oneRowEnv defaultEndpoint = .ok oneRowConfig := by
  decide +kernel

/-- A weighing row with nothing but its serial number. -/
def serialRow (serial : String) : Row where
  cells := [⟨Str.lit "serialNo", Str.lit "NVARCHAR", .text (Str.lit serial)⟩]
  columns_valid := by
    simp only [List.mem_singleton, forall_eq]
    exact Str.valid_lit _
  columns_nodup := List.nodup_singleton _

/-- Two pending weighing rows, `a` before `b`, and no photos. -/
def twoRowDb : SourceDb where
  info := {
    rows := [serialRow "a", serialRow "b"]
    pending := fun _ => true
    le := fun r r' => !Str.lt (stringValue (column r'.data (Str.lit "serialNo")))
      (stringValue (column r.data (Str.lit "serialNo")))
    fails := false }
  photo := { rows := [], pending := fun _ => true, le := fun _ _ => true, fails := false }

/-- A state file that records row `a`. -/
def stateFileOfA : Str :=
  StateEntry.line ⟨weightInfo, Str.lit "a", Str.lit "weight_info:a", Str.lit "a",
    Str.lit "2026-01-01T00:00:00Z"⟩

/-- An exchange in which nothing would be answered. -/
def silentExchange : Exchange := ⟨[], [], fun _ => none, none⟩

/-- With `a` confirmed and batches of one row, a pass reports nothing left although `b` is. -/
theorem not_noStarvation_twoRows : ∃ cfg store,
    loadConfig oneRowEnv defaultEndpoint = .ok cfg ∧ loadState stateFileOfA = .ok store ∧
      ¬ NoStarvation cfg twoRowDb store silentExchange := by
  have hrun : ((loadState stateFileOfA).toOption.any fun store =>
      decide ((syncOnce oneRowConfig twoRowDb store silentExchange).outcome = .idle) &&
        (pendingRecords oneRowConfig twoRowDb).any fun r => !r.confirmedIn store) = true := by
    decide +kernel
  cases hstore : loadState stateFileOfA with
  | error e =>
      rw [hstore] at hrun
      cases hrun
  | ok store =>
      rw [hstore, Except.toOption, Option.any_some] at hrun
      simp only [Bool.and_eq_true, decide_eq_true_eq, List.any_eq_true, Bool.not_eq_true'] at hrun
      obtain ⟨hidle, r, hr, hnot⟩ := hrun
      refine ⟨oneRowConfig, store, loadConfig_oneRowEnv, rfl, fun h => ?_⟩
      rw [h hidle r hr] at hnot
      cases hnot

/-! ## Runs -/

/-- Passes over an unchanging source, from a given state file on. -/
def passes (cfg : Config) (db : SourceDb) (start : StateStore) : System StateStore Exchange where
  init s := s = start
  step s x := some (syncOnce cfg db s x).store

/-- A pass makes known only keys of records in its windows. -/
theorem mem_done_syncOnce {cfg : Config} {db : SourceDb} {store : StateStore} {x : Exchange} {key : Str}
    (h : key ∈ (syncOnce cfg db store x).store.done) :
    key ∈ store.done ∨ ∃ r ∈ windowRecords cfg db, stateKey r.entityType r.pk = key := by
  rcases syncOnce_cases cfg db store x with ⟨e, -, hpass⟩ | ⟨records, hfetch, ⟨-, hpass⟩ | ⟨-, -, -, hstore, hconf⟩⟩
  · rw [hpass] at h
    exact Or.inl h
  · rw [hpass] at h
    exact Or.inl h
  · rw [hstore] at h
    refine (StateStore.mem_done_append h).imp_right ?_
    rintro ⟨e, he, rfl⟩
    obtain ⟨r, hr, rfl⟩ := List.mem_map.mp he
    obtain ⟨-, rfl⟩ := fetchAll_eq_ok_iff_readable.mp hfetch
    refine ⟨r, ?_, rfl⟩
    rw [hconf] at hr
    split at hr
    · exact List.mem_of_mem_filter (acknowledged_subset _ _ hr)
    · cases hr

/-- However many passes run, a key becomes known only if a record in the windows has it. -/
theorem mem_done_of_reachable {cfg : Config} {db : SourceDb} {start store : StateStore}
    (h : (passes cfg db start).Reachable store) {key : Str} (hkey : key ∈ store.done) :
    key ∈ start.done ∨ ∃ r ∈ windowRecords cfg db, stateKey r.entityType r.pk = key := by
  refine h.invariant (I := fun s => ∀ key ∈ s.done,
    key ∈ start.done ∨ ∃ r ∈ windowRecords cfg db, stateKey r.entityType r.pk = key) ?_ ?_ key hkey
  · rintro s rfl key hkey
    exact Or.inl hkey
  · rintro s x s' ih hstep - key hkey
    cases hstep
    exact (mem_done_syncOnce hkey).elim (ih key) Or.inr

end WeighingSync.Uploader
