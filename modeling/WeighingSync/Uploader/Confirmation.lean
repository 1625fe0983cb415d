import WeighingSync.Uploader.Delivery

/-!
# What a confirmation of the uploader says

A matches the keys that C has accepted against its own keys of the records, and the two programs
derive these from different columns. So a record that C could not store is confirmed if another
record of the request has, at C, the key that it has at A (`confirmsOnlyStored_iff`).
-/

namespace WeighingSync.Uploader

open Go

/-! ## A pass against the receiver -/

/-- What a pass meets when it is connected to C: the settings and the tables of C and the course of
the request there, whether the reply is lost, and the clock and the disk of A. -/
structure Link where
  ccfg : Receiver.Config
  env : Receiver.PostEnv
  refusal : Str → Option Str
  db : Receiver.ReceiverDb
  replyLost : Bool
  uploadedAt : Str
  acceptedAt : Str
  room : Option ℕ

/-- What C does with a request. -/
def Link.answer (l : Link) (body : Str) : Reply × Receiver.ReceiverDb :=
  Receiver.handlePost l.ccfg l.env (l.refusal body) body l.db

/-- The exchange of A. -/
def Link.exchange (l : Link) : Exchange where
  uploadedAt := l.uploadedAt
  acceptedAt := l.acceptedAt
  send body := if l.replyLost then none else some (l.answer body).1
  room := l.room

/-- The records that a pass submits. -/
def submitted (cfg : Config) (db : SourceDb) (store : StateStore) : List SourceRecord :=
  match fetchAll cfg db with
  | .ok records => pendingOf store records
  | .error _ => []

theorem ofRow_of_mem_submitted {cfg : Config} {db : SourceDb} {store : StateStore} {r : SourceRecord}
    (h : r ∈ submitted cfg db store) : r.OfRow := by
  rw [submitted] at h
  split at h
  · next records hfetch =>
    obtain ⟨-, rfl⟩ := fetchAll_eq_ok_iff_readable.mp hfetch
    exact ofRow_of_mem_windowRecords (List.mem_of_mem_filter h)
  · cases h

/-- A pass that submits nothing changes nothing; any other one posts what it submits, and appends
what the response acknowledges. -/
theorem syncOnce_submitted (cfg : Config) (db : SourceDb) (store : StateStore) (x : Exchange) :
    (submitted cfg db store = [] ∧ (syncOnce cfg db store x).confirmed = [] ∧
      (syncOnce cfg db store x).store = store) ∨
    (submitted cfg db store ≠ [] ∧
      (syncOnce cfg db store x).store = (store.append ((syncOnce cfg db store x).confirmed.map
        (SourceRecord.entry x.acceptedAt)) x.room).1 ∧
      (syncOnce cfg db store x).confirmed =
        match post x.send (requestBody cfg x (submitted cfg db store)) with
        | .ok response => acknowledged (submitted cfg db store) response
        | .error _ => []) := by
  rcases syncOnce_cases cfg db store x with ⟨e, hfetch, hpass⟩ | ⟨records, hfetch, h⟩
  · rw [submitted, hfetch, hpass]
    exact Or.inl ⟨rfl, rfl, rfl⟩
  · rw [submitted, hfetch]
    rcases h with ⟨hempty, hpass⟩ | ⟨hpending, -, -, hstore, hconfirmed⟩
    · rw [hpass]
      exact Or.inl ⟨hempty, rfl, rfl⟩
    · exact Or.inr ⟨hpending, hstore, hconfirmed⟩

namespace Link

variable (l : Link) (cfg : Config) (pending : List SourceRecord)

/-- The payload of a request, at C. -/
def payload : Receiver.UploadPayload := payloadOf cfg l.exchange pending

/-- C commits the request. -/
def Commits : Prop := (l.answer (requestBody cfg l.exchange pending)).1.success = true

/-- The bytes of the JSON text that confirms the request. -/
def confirmationSize : ℕ :=
  let payload := l.payload cfg pending
  let accepted := Receiver.acceptedOf payload
  Receiver.replySize l.env accepted (Receiver.acceptedWeightInfoSerials payload accepted)
    (Receiver.unkeyedOf payload) payload.normalizedWeightInfo.length
    payload.weightPhotoRecords.length

/-- C commits the request, and its confirmation reaches A whole. -/
def Confirms : Prop :=
  l.Commits cfg pending ∧ l.replyLost = false ∧ l.confirmationSize cfg pending ≤ maxReply

instance : Decidable (l.Commits cfg pending) := inferInstanceAs (Decidable (_ = _))

instance : Decidable (l.Confirms cfg pending) := inferInstanceAs (Decidable (_ ∧ _))

variable {l cfg pending}

/-- What it means that C commits a request. -/
theorem answer_of_commits (h : l.Commits cfg pending) : ∃ db',
    Receiver.insertPayload l.ccfg l.env (l.payload cfg pending) l.db =
      (db', .ok (Receiver.acceptedOf (l.payload cfg pending),
        Receiver.unkeyedOf (l.payload cfg pending))) ∧
    Receiver.total (l.payload cfg pending).entityRecords ≠ 0 ∧
    l.answer (requestBody cfg l.exchange pending) =
      (.json 200 (Receiver.postJSON l.env (l.payload cfg pending)
        (Receiver.acceptedOf (l.payload cfg pending)) (Receiver.unkeyedOf (l.payload cfg pending))),
        db') := by
  rcases Receiver.handlePost_cases l.ccfg l.env (l.refusal (requestBody cfg l.exchange pending))
    (requestBody cfg l.exchange pending) l.db with ⟨hfail, -⟩ | ⟨payload, db', hbody, htotal, hinsert, hanswer⟩
  · rw [Commits, answer, hfail] at h
    cases h
  · rw [decodeBody_requestBody] at hbody
    cases hbody
    exact ⟨db', hinsert, htotal, hanswer⟩

/-- C commits a request that is small enough and authorised, if no statement fails. -/
theorem commits_of_small
    (hsize : ((requestBody cfg l.exchange pending).size : ℤ) ≤ l.ccfg.maxBodyBytes)
    (hrefusal : l.refusal (requestBody cfg l.exchange pending) = none)
    (hfails : ∀ statement, l.env.fails statement = false) (hne : pending ≠ []) :
    l.Commits cfg pending := by
  have htotal : Receiver.total (payloadOf cfg l.exchange pending).entityRecords ≠ 0 := by
    obtain ⟨r, hr⟩ := List.exists_mem_of_ne_nil _ hne
    rw [total_payloadOf]
    exact Nat.ne_of_gt (List.length_pos_of_mem (mem_inOrder.mpr hr))
  have hstatus := Receiver.status_of_no_failure l.db hsize hfails
    (decodeBody_requestBody cfg l.exchange pending) htotal
  rw [Commits, answer, hrefusal, Reply.success, hstatus]
  rfl

/-- The response that A decodes of the confirmation. -/
def confirmation (l : Link) (cfg : Config) (pending : List SourceRecord) : UploadResponse :=
  let payload := l.payload cfg pending
  let accepted := Receiver.acceptedOf payload
  { acceptedRecordKeys := accepted.map Str.repair
    failedRecordKeys := (Receiver.unkeyedOf payload).map Str.repair
    accepted := (Receiver.acceptedWeightInfoSerials payload accepted).map Str.repair
    failed := [] }

/-- A acknowledges the records whose key in A is among the keys that C has accepted. -/
theorem acknowledged_confirmation (hrows : ∀ r ∈ pending, r.OfRow)
    (htotal : Receiver.total (l.payload cfg pending).entityRecords ≠ 0) :
    acknowledged pending (l.confirmation cfg pending) =
    pending.filter fun r => r.recordKey ∈ Receiver.acceptedOf (l.payload cfg pending) := by
  have hvalid : ∀ key ∈ Receiver.acceptedOf (l.payload cfg pending), key.repair = key := by
    intro key hkey
    obtain ⟨r, hr, -, rfl⟩ := (mem_acceptedOf_payloadOf hrows).mp hkey
    exact Str.repair_eq_self_iff.mpr (valid_cKey (hrows r hr))
  have hkeys : (Receiver.acceptedOf (l.payload cfg pending)).map Str.repair =
      Receiver.acceptedOf (l.payload cfg pending) := by
    rw [List.map_congr_left hvalid, List.map_id']
  have hlength := Receiver.length_accepted_add_unkeyed (l.payload cfg pending)
  rw [acknowledged, if_neg]
  · refine List.filter_congr fun r hr => ?_
    have hlookup : r.lookupKey = r.recordKey := by
      have hne : r.recordKey ≠ [] := by
        rw [(hrows r hr).recordKey]
        simp [Str.lit]
      rw [SourceRecord.lookupKey, if_neg hne]
    rw [hlookup, decide_eq_decide, UploadResponse.acceptedSet, confirmation, hkeys, List.mem_append,
      or_iff_left_of_imp]
    -- a serial number that C reports names a key that C reports as well
    intro hmem
    simp only [List.map_map, List.mem_map, Function.comp_apply] at hmem
    obtain ⟨serial, hserial, hkey⟩ := hmem
    have haccepted := Receiver.serial_mem_accepted hserial
    have hrepair := hvalid _ haccepted
    have hname : (Receiver.weightInfo ++ Str.lit ":").repair = Str.lit "weight_info:" := by decide
    rw [Str.repair_append, hname] at hrepair
    rw [← hkey, hrepair]
    exact haccepted
  · intro hempty
    simp only [confirmation, UploadResponse.empty, UploadResponse.mk.injEq, List.map_eq_nil_iff] at hempty
    rw [hempty.1, hempty.2.1] at hlength
    exact htotal hlength.symm

/-- What A acknowledges of the records it has posted. -/
theorem acknowledged_post (hrows : ∀ r ∈ pending, r.OfRow) :
    (match post l.exchange.send (requestBody cfg l.exchange pending) with
      | .ok response => acknowledged pending response
      | .error _ => []) =
    if l.Confirms cfg pending then
      pending.filter fun r => r.recordKey ∈ Receiver.acceptedOf (l.payload cfg pending)
    else [] := by
  have hsend : l.exchange.send (requestBody cfg l.exchange pending) =
      if l.replyLost then none else some (l.answer (requestBody cfg l.exchange pending)).1 := rfl
  rw [post, hsend]
  by_cases hlost : l.replyLost = true
  · rw [if_pos hlost, if_neg fun h : l.Confirms cfg pending => by rw [h.2.1] at hlost; cases hlost]
  · rw [if_neg hlost]
    by_cases hcommits : l.Commits cfg pending
    · obtain ⟨db', -, htotal, hanswer⟩ := answer_of_commits hcommits
      have hread : readResponse (l.answer (requestBody cfg l.exchange pending)).1 =
          if l.confirmationSize cfg pending ≤ maxReply then .ok (l.confirmation cfg pending)
          else .error .decode := by
        rw [hanswer]
        exact readResponse_postJSON _ _ _ _
      simp only [hread]
      by_cases hfits : l.confirmationSize cfg pending ≤ maxReply
      · rw [if_pos hfits, if_pos ⟨hcommits, by simpa using hlost, hfits⟩]
        exact acknowledged_confirmation hrows htotal
      · rw [if_neg hfits, if_neg fun h : l.Confirms cfg pending => hfits h.2.2]
    · rw [if_neg fun h : l.Confirms cfg pending => hcommits h.1]
      have hfail : (l.answer (requestBody cfg l.exchange pending)).1.success = false := by
        simpa [Commits] using hcommits
      simp only [readResponse, hfail, if_true]

end Link

/-- The records that a pass against C confirms. -/
theorem confirmed_syncOnce (l : Link) (cfg : Config) (db : SourceDb) (store : StateStore) :
    (syncOnce cfg db store l.exchange).confirmed =
      if l.Confirms cfg (submitted cfg db store) then
        (submitted cfg db store).filter fun r =>
          r.recordKey ∈ Receiver.acceptedOf (l.payload cfg (submitted cfg db store))
      else [] := by
  rcases syncOnce_submitted cfg db store l.exchange with ⟨hnone, hconfirmed, -⟩ | ⟨-, -, hconfirmed⟩
  · rw [hconfirmed, hnone]
    exact (ite_self _).symm
  · rw [hconfirmed]
    exact Link.acknowledged_post fun r hr => ofRow_of_mem_submitted hr

/-! ## Confirmed without being stored -/

/-- C has stored the record in the request: it derived a key for it, upserted the row of that key,
committed the table with all rows of the request, and reported the key as accepted and not as
failed. -/
structure StoredAtC (l : Link) (cfg : Config) (pending : List SourceRecord) (r : SourceRecord) : Prop where
  keyed : r.keyedAtC = true
  upserted : ∃ batch ∈ (l.payload cfg pending).entityRecords, batch.entityType = r.entityType ∧
    ∃ now, (r.received, now) ∈ Receiver.stamped l.env batch ∧
      ∃ row, Receiver.upsertRowOf l.ccfg l.env (Receiver.originOf l.env (l.payload cfg pending)) batch
        r.received now = some row ∧ row.key = r.cKey
  committed : (l.answer (requestBody cfg l.exchange pending)).2.records =
    l.db.records.upsertRows (Receiver.rowsOf l.ccfg l.env (l.payload cfg pending))
  stored : r.cKey ∈ (l.answer (requestBody cfg l.exchange pending)).2.records.keys
  reported : ∃ accepted failed,
    (Receiver.insertPayload l.ccfg l.env (l.payload cfg pending) l.db).2 = .ok (accepted, failed) ∧
      r.cKey ∈ accepted ∧ r.cKey ∉ failed

/-- Of a request that C commits, C has stored the records it derives keys for. -/
theorem storedAtC_of_keyed {l : Link} {cfg : Config} {pending : List SourceRecord}
    (hrows : ∀ r ∈ pending, r.OfRow) (hcommits : l.Commits cfg pending) {r : SourceRecord}
    (hr : r ∈ pending) (hkeyed : r.keyedAtC = true) : StoredAtC l cfg pending r := by
  obtain ⟨db', hinsert, -, hanswer⟩ := Link.answer_of_commits hcommits
  have haccepted : r.cKey ∈ Receiver.acceptedOf (l.payload cfg pending) :=
    (mem_acceptedOf_payloadOf hrows).mpr ⟨r, hr, hkeyed, rfl⟩
  have hrecords : (l.answer (requestBody cfg l.exchange pending)).2.records =
      l.db.records.upsertRows (Receiver.rowsOf l.ccfg l.env (l.payload cfg pending)) := by
    rw [hanswer]
    exact (Receiver.insertPayload_ok hinsert).1
  refine ⟨hkeyed, ?_, hrecords, ?_, _, _, by rw [hinsert], haccepted, ?_⟩
  · obtain ⟨batch, hbatch, htype, hmem⟩ := exists_batch cfg l.exchange hrows hr
    rw [← Receiver.map_fst_stamped l.env batch] at hmem
    obtain ⟨⟨record, now⟩, hstamped, hrecord⟩ := List.mem_map.mp hmem
    have hrecord' : record = r.received := hrecord
    subst hrecord'
    refine ⟨batch, hbatch, htype, now, hstamped, ?_⟩
    rw [SourceRecord.keyedAtC] at hkeyed
    rw [Receiver.upsertRowOf, htype, if_pos hkeyed]
    exact ⟨_, rfl, rfl⟩
  · rw [hrecords, Receiver.mem_keys_upsertRows, Receiver.map_key_rowsOf]
    exact Or.inr haccepted
  · intro hfailed
    exact Receiver.recordKey_ne_nil _ _ (Receiver.eq_nil_of_mem_unkeyedOf hfailed)

/-- Every record that a pass confirms has been stored by C in the request. -/
def ConfirmsOnlyStored (l : Link) (cfg : Config) (db : SourceDb) (store : StateStore) : Prop :=
  ∀ r ∈ (syncOnce cfg db store l.exchange).confirmed, StoredAtC l cfg (submitted cfg db store) r

/-- A pass confirms only what C has stored exactly when no confirmation comes back, or no record
without a key at C has, as its key in A, the key of another record at C. -/
theorem confirmsOnlyStored_iff (l : Link) (cfg : Config) (db : SourceDb) (store : StateStore) :
    ConfirmsOnlyStored l cfg db store ↔
      (l.Confirms cfg (submitted cfg db store) →
        ∀ r ∈ submitted cfg db store, r.keyedAtC = false →
          ∀ r' ∈ submitted cfg db store, r'.keyedAtC = true → r'.cKey ≠ r.recordKey) := by
  have hrows : ∀ r ∈ submitted cfg db store, r.OfRow := fun r hr => ofRow_of_mem_submitted hr
  rw [ConfirmsOnlyStored, confirmed_syncOnce]
  by_cases hconfirms : l.Confirms cfg (submitted cfg db store)
  · rw [if_pos hconfirms]
    simp only [hconfirms, true_imp_iff, List.mem_filter, decide_eq_true_eq, and_imp]
    constructor
    · intro h r hr hunkeyed r' hr' hkeyed hkey
      have hstored := h r hr ((mem_acceptedOf_payloadOf hrows).mpr ⟨r', hr', hkeyed, hkey⟩)
      rw [hstored.keyed] at hunkeyed
      cases hunkeyed
    · intro h r hr hmem
      obtain ⟨r', hr', hkeyed', hkey⟩ := (mem_acceptedOf_payloadOf hrows).mp hmem
      refine storedAtC_of_keyed hrows hconfirms.1 hr ?_
      by_contra hunkeyed
      exact h r hr (by simpa using hunkeyed) r' hr' hkeyed' hkey
  · rw [if_neg hconfirms]
    exact ⟨fun _ h => absurd h hconfirms, fun _ r hr => (nomatch hr)⟩

/-- An environment in which weighing records are identified by the column `code`. -/
def codeEnv (key : Str) : Str :=
  if key = Str.lit "SQLSERVER_INFO_PRIMARY_KEY" then Str.lit "code"
  else if key = Str.lit "SQLSERVER_INFO_SERIAL_COLUMN" then Str.lit "code"
  else if key = Str.lit "BATCH_SIZE" then Str.lit "100"
  else oneRowEnv key

/-- The configuration that it gives. -/
def codeConfig : Config :=
  { oneRowConfig with
    infoPrimaryKey := Str.lit "code"
    infoSerialColumn := Str.lit "code"
    batchSize := 100
    identifiers := by decide
    bounds := by decide }

theorem loadConfig_codeEnv : loadConfig codeEnv defaultEndpoint = .ok codeConfig := by
  decide +kernel

/-- A weighing row with a code, and with a serial number or NULL. -/
def codeRow (code : String) (serial : SqlValue) : Row where
  cells := [⟨Str.lit "code", Str.lit "NVARCHAR", .text (Str.lit code)⟩,
    ⟨Str.lit "serialNo", Str.lit "NVARCHAR", serial⟩]
  columns_valid := by
    simp only [List.forall_mem_cons]
    exact ⟨Str.valid_lit _, Str.valid_lit _, fun _ h => (nomatch h)⟩
  columns_nodup := by
    show [Str.lit "code", Str.lit "serialNo"].Nodup
    decide

/-- A row of code `k` without a serial number, and a row of code `m` whose serial number is `k`. -/
def codeDb : SourceDb where
  info := {
    rows := [codeRow "k" .null, codeRow "m" (.text (Str.lit "k"))]
    pending := fun _ => true
    le := fun r r' => !Str.lt (stringValue (column r'.data (Str.lit "code")))
      (stringValue (column r.data (Str.lit "code")))
    fails := false }
  photo := { rows := [], pending := fun _ => true, le := fun _ _ => true, fails := false }

/-- C with its default limits and empty tables, and an exchange in which nothing goes wrong. -/
def goodLink : Link where
  ccfg := ⟨16777216, 100, 1000, true, false, false, 168, Receiver.limits_default, Receiver.min_age_default⟩
  env := {
    timeText := some
    requestID := Str.lit "6f1e8a52-33c1-4b0e-9d2a-5a3f0c8b7e11"
    receivedAt := Str.lit "2026-01-01T00:00:00Z"
    stamp := fun _ _ => Str.lit "2026-01-01T00:00:00Z"
    repliedAt := Str.lit "2026-01-01T00:00:00Z"
    fails := fun _ => false }
  refusal := fun _ => none
  db := ⟨.empty, .empty⟩
  replyLost := false
  uploadedAt := Str.lit "2026-01-01T00:00:00Z"
  acceptedAt := Str.lit "2026-01-01T00:00:00Z"
  room := none

/-- The row of code `k` is confirmed because C stores the other row under serial number `k`. -/
theorem not_confirmsOnlyStored_codes : loadConfig codeEnv defaultEndpoint = .ok codeConfig ∧
    ¬ ConfirmsOnlyStored goodLink codeConfig codeDb ⟨[], []⟩ := by
  refine ⟨loadConfig_codeEnv, fun h => ?_⟩
  have hbody : ((requestBody codeConfig goodLink.exchange
      (submitted codeConfig codeDb ⟨[], []⟩)).size : ℤ) ≤ 16777216 := by decide +kernel
  have hconfirms : goodLink.Confirms codeConfig (submitted codeConfig codeDb ⟨[], []⟩) :=
    ⟨Link.commits_of_small hbody rfl (fun _ => rfl) (by decide +kernel), rfl, by decide +kernel⟩
  have hrun : ((submitted codeConfig codeDb ⟨[], []⟩).filter fun r => r.recordKey ∈
      Receiver.acceptedOf (goodLink.payload codeConfig (submitted codeConfig codeDb ⟨[], []⟩))).any
        (fun r => !r.keyedAtC) = true := by decide +kernel
  rw [ConfirmsOnlyStored, confirmed_syncOnce, if_pos hconfirms] at h
  obtain ⟨r, hr, hunkeyed⟩ := List.any_eq_true.mp hrun
  rw [(h r hr).keyed] at hunkeyed
  cases hunkeyed

end WeighingSync.Uploader
