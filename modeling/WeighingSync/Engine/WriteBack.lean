import Mathlib
import WeighingSync.Engine.OwnBatch
import WeighingSync.Receiver.Accounting

/-!
# What is marked of a batch that C has stored

The engine keeps the serial number of a row as it is. C trims it, stores the record under the trimmed
text and answers with that, and the engine compares the answer with the column. So exactly the rows
that C has stored are marked if and only if no serial number of the batch has white space around it
and no other row bears one of them (`writesBackExactly_iff`).
-/

namespace WeighingSync.Engine

open Go

/-! ## What C reads of a batch -/

/-- A record as C decodes it. -/
def SqlServerWeightRecord.received (r : SqlServerWeightRecord) : Receiver.Record :=
  Json.toMap (r.data.insertionSort Json.fieldLE)

/-- What C decodes of an upload. -/
def payloadOf (source : SqlServerConfig) (uploadedAt : Str) (records : List SqlServerWeightRecord) :
    Receiver.UploadPayload where
  source := Str.lit "sqlserver-yunfu-tbl_weightInfo"
  database := source.database
  table := source.table
  uploadedAt := .str uploadedAt
  records := records.map SqlServerWeightRecord.received
  weightInfoRecords := []
  weightPhotoRecords := []

theorem decodePayload_uploadRequest (source : SqlServerConfig) (uploadedAt : Str)
    (records : List SqlServerWeightRecord) :
    Receiver.decodePayload (SqlServerEngine.uploadRequest source uploadedAt records) =
      some (payloadOf source uploadedAt records) := by
  have hmaps : Receiver.decodeRecords (some (.arr (records.map fun record => .ofMap record.data))) =
      some (records.map SqlServerWeightRecord.received) := by
    have hobjects : (records.map fun record => Json.ofMap record.data) =
        (records.map fun record => record.data.insertionSort Json.fieldLE).map .obj := by
      rw [List.map_map]
      rfl
    rw [hobjects, Receiver.decodeRecords, Json.decodeMaps_arr, Option.map_some, List.map_map]
    rfl
  rw [SqlServerEngine.uploadRequest, Receiver.decodePayload, Json.decodeObject, Option.bind_eq_bind,
    Option.bind_some]
  generalize records.map (fun record => Json.ofMap record.data) = elements at hmaps
  show (do
    let records ← Receiver.decodeRecords (some (.arr elements))
    return Receiver.UploadPayload.mk (Str.lit "sqlserver-yunfu-tbl_weightInfo") source.database
      source.table (.str uploadedAt) records [] []) = _
  rw [hmaps]
  rfl

/-- No two columns have one name. -/
theorem names_nodup (row : WeightRow) : (row.cells.map fun cell => Str.lit cell.1).Nodup := by
  have hzip : (otherColumns.zip row.others.toList).map Prod.fst = otherColumns :=
    List.map_fst_zip (by simp)
  have hnames : row.cells.map Prod.fst =
      "serialNo" :: "isUploadCloud" :: "del_flag" :: otherColumns := by
    rw [WeightRow.cells, List.map_cons, List.map_cons, List.map_cons, hzip]
  have hlit : row.cells.map (fun cell => Str.lit cell.1) = (row.cells.map Prod.fst).map Str.lit := by
    rw [List.map_map]
    rfl
  have hnodup : ("serialNo" :: "isUploadCloud" :: "del_flag" :: otherColumns).Nodup := by
    decide +kernel
  rw [hlit, hnames]
  exact hnodup.map Str.lit_injective

/-- The data of a record: one field for each column, and the serial number among them. -/
theorem data_of_rowToRecord {lib : FloatLib} {row : WeightRow} {record : SqlServerWeightRecord}
    (h : rowToRecord lib row = .ok record) : (record.data.map Prod.fst).Nodup ∧
      (Str.lit "serialNo", .str record.serialNo) ∈ record.data ∧ record.serialNo.trimSpace ≠ [] := by
  have hnames : ∀ {cells : List (String × ColumnData)} {data : List (Str × Json)},
      (cells.mapM fun cell => (do
        let json ← columnValueToJson lib cell.2
        return (Str.lit cell.1, json) : Except Str (Str × Json))) = .ok data →
      data.map Prod.fst = cells.map fun cell => Str.lit cell.1 := by
    intro cells data
    induction cells generalizing data with
    | nil =>
        intro h
        cases h
        rfl
    | cons cell cells ih =>
        intro h
        rw [List.mapM_cons] at h
        obtain ⟨field, hfield, h⟩ := bind_eq_ok_iff.mp h
        obtain ⟨json, -, hfield⟩ := bind_eq_ok_iff.mp hfield
        obtain ⟨fields, hfields, h⟩ := bind_eq_ok_iff.mp h
        cases hfield
        cases h
        rw [List.map_cons, ih hfields, List.map_cons]
  -- a row without a serial number gives no record, so its first cell has one
  have hserial := serialNo_of_rowToRecord h
  unfold rowToRecord at h
  rcases hfilter : row.serialNo.filter fun value => value.trimSpace ≠ [] with _ | serialNo
  · rw [hfilter] at h
    cases h
  · rcases hdata : row.cells.mapM fun cell => (do
      let json ← columnValueToJson lib cell.2
      return (Str.lit cell.1, json) : Except Str (Str × Json)) with e | data
    · simp only [hfilter, hdata] at h
      cases h
    · simp only [hfilter, hdata] at h
      cases h
      refine ⟨?_, ?_, by simpa using (Option.filter_eq_some_iff.mp hfilter).2⟩
      · rw [hnames hdata]
        exact names_nodup row
      · rw [WeightRow.cells, hserial, List.mapM_cons] at hdata
        obtain ⟨field, hfield, hdata⟩ := bind_eq_ok_iff.mp hdata
        obtain ⟨fields, -, hdata⟩ := bind_eq_ok_iff.mp hdata
        cases hfield
        have hcons := Except.ok.inj hdata
        rw [← hcons]
        exact List.mem_cons_self

/-- C reads the serial number of a record trimmed, and so has a key for it. -/
theorem extractString_received {lib : FloatLib} {row : WeightRow} {record : SqlServerWeightRecord}
    (h : rowToRecord lib row = .ok record) :
    Receiver.extractString record.received ["serialNo", "serial_no"] = record.serialNo.trimSpace ∧
      Receiver.keyed Receiver.weightInfo record.received = true := by
  obtain ⟨hnodup, hmem, hne⟩ := data_of_rowToRecord h
  have hperm := List.perm_insertionSort Json.fieldLE record.data
  have hsorted : ((record.data.insertionSort Json.fieldLE).map Prod.fst).Nodup :=
    (hperm.map Prod.fst).nodup_iff.mpr hnodup
  have hlookup : Json.lookup record.received (Str.lit "serialNo") = some (.str record.serialNo) := by
    rw [SqlServerWeightRecord.received, Json.toMap_of_nodup hsorted, Json.lookup_eq_some_iff hsorted]
    exact hperm.mem_iff.mpr hmem
  have hserial : Receiver.extractString record.received ["serialNo", "serial_no"] =
      record.serialNo.trimSpace := by
    rw [Receiver.extractString, hlookup]
    rfl
  refine ⟨hserial, Receiver.keyed_iff.mpr ⟨("serialNo", ["serialNo", "serial_no"]), by decide, ?_⟩⟩
  rw [hserial]
  exact hne

/-! ## What the engine reads of the answer -/

/-- The serial numbers of a batch as C reads them. -/
def trimmedSerials (records : List SqlServerWeightRecord) : List Str :=
  records.map fun record => record.serialNo.trimSpace

/-- The serial numbers that C reports are those of the batch, trimmed. -/
theorem serials_payloadOf {lib : FloatLib} (source : SqlServerConfig) (uploadedAt : Str)
    {records : List SqlServerWeightRecord}
    (h : ∀ record ∈ records, ∃ row, rowToRecord lib row = .ok record) :
    Receiver.acceptedWeightInfoSerials (payloadOf source uploadedAt records)
        (Receiver.acceptedOf (payloadOf source uploadedAt records)) =
      trimmedSerials records := by
  have hinfo : (payloadOf source uploadedAt records).normalizedWeightInfo =
      records.map SqlServerWeightRecord.received := rfl
  rw [Receiver.acceptedWeightInfoSerials, hinfo, List.filterMap_map, trimmedSerials,
    ← List.filterMap_eq_map]
  refine List.filterMap_congr fun record hrecord => ?_
  obtain ⟨row, hrow⟩ := h record hrecord
  obtain ⟨hserial, hkeyed⟩ := extractString_received hrow
  have hne := (data_of_rowToRecord hrow).2.2
  have haccepted : Receiver.recordKey Receiver.weightInfo record.received ∈
      Receiver.acceptedOf (payloadOf source uploadedAt records) := by
    refine Receiver.mem_acceptedOf.mpr ⟨_, List.mem_cons_self, record.received, ?_, hkeyed, rfl⟩
    rw [hinfo]
    exact List.mem_map_of_mem hrecord
  simp only [Function.comp_apply]
  rw [if_pos haccepted, hserial, if_pos hne]

/-- The engine decodes the serial numbers of a reply of C. -/
theorem decodeResponse_postJSON (env : Receiver.PostEnv) (payload : Receiver.UploadPayload)
    (accepted failed : List Str) :
    SqlServerEngine.decodeResponse (Receiver.postJSON env payload accepted failed).repair =
      some ⟨(Receiver.acceptedWeightInfoSerials payload accepted).map Str.repair, []⟩ := by
  have hserials : ∀ xs : List Str, (xs.map Json.str).mapM SqlServerEngine.decodeSerialNo = some xs := by
    intro xs
    rw [List.mapM_map]
    have hread := mapM_some_of_forall (f := SqlServerEngine.decodeSerialNo ∘ Json.str) (g := id)
      fun x (_ : x ∈ xs) => rfl
    rwa [List.map_id] at hread
  have hstrings : (Receiver.stringsJSON (Receiver.acceptedWeightInfoSerials payload accepted)).repair =
      .arr (((Receiver.acceptedWeightInfoSerials payload accepted).map Str.repair).map .str) := by
    rw [Receiver.stringsJSON, Json.repair_arr, List.map_map, List.map_map]
    rfl
  have hname : ∀ name : String, (Str.lit name).repair = Str.lit name := fun name =>
    Str.repair_eq_self_iff.mpr (Str.valid_lit name)
  rw [Receiver.postJSON, Json.repair_obj, Receiver.postFields]
  simp only [List.map_cons, List.map_nil, hstrings, hname]
  show (do
    let accepted ← (((Receiver.acceptedWeightInfoSerials payload accepted).map Str.repair).map
      Json.str).mapM SqlServerEngine.decodeSerialNo
    let failed ← ([].map Json.str).mapM SqlServerEngine.decodeSerialNo
    return TwoLists.mk accepted failed) = _
  simp only [hserials]
  rfl

/-! ## The rows that C has stored, and the rows that are marked -/

/-- A request of the engine at C: the clock of the engine, and the settings, the course and the tables
of C. -/
structure Visit where
  uploadedAt : Str
  ccfg : Receiver.Config
  env : Receiver.PostEnv
  refusal : Option Str
  db : Receiver.ReceiverDb
  elapsed : ℕ

namespace Visit

/-- What C does with a request; `toText` is what `serde_json` writes. -/
def answer (toText : Json → Str) (v : Visit) (request : Json) : Reply × Receiver.ReceiverDb :=
  Receiver.handlePost v.ccfg v.env v.refusal (toText request) v.db

/-- The attempt of the engine. -/
def attempt (toText : Json → Str) (v : Visit) : Attempt where
  uploadedAt := v.uploadedAt
  respond request := some ⟨(v.answer toText request).1.status, some (v.answer toText request).1.body⟩
  elapsed := v.elapsed

/-- C has stored a row of a batch: what it makes of the record of the row is among the rows that it
has upserted. -/
def Stored (lib : FloatLib) (source : SqlServerConfig) (toText : Json → Str) (v : Visit)
    (records : List SqlServerWeightRecord) (row : WeightRow) : Prop :=
  let request := SqlServerEngine.uploadRequest source v.uploadedAt records
  ∃ payload record, Receiver.decodeBody (toText request) = some payload ∧
    rowToRecord lib row = .ok record ∧
    (v.answer toText request).2.records =
      v.db.records.upsertRows (Receiver.rowsOf v.ccfg v.env payload) ∧
    ∃ u ∈ Receiver.rowsOf v.ccfg v.env payload,
      u.OfElement v.ccfg v.env payload (Receiver.weightInfo, record.received)

end Visit

/-- The row bears one of the serial numbers, text for text. -/
def WeightRow.bears (serialNos : List Str) (row : WeightRow) : Bool :=
  row.serialNo.any fun serialNo => serialNo ∈ serialNos

open Classical in
/-- The engine reads the answer of C, and the rows of the table that bear a serial number that it
takes as accepted are the rows of the batch that C has stored. -/
def WritesBackExactly (lib : SqlServerEngine.Lib) (server : Server) (source : SqlServerConfig)
    (cfg : SyncConfig) (toText : Json → Str) (v : Visit) (rows : List WeightRow) : Prop :=
  ∃ records response, server.fetchPending lib.toFloatLib cfg.batchSize rows = .ok records ∧
    SqlServerEngine.uploadBatch lib source records (v.attempt toText) = .ok response ∧
    (rows.filter (WeightRow.bears (SqlServerEngine.acceptedSerialNos records response))).Perm
      ((server.pendingRows cfg.batchSize rows).filter
        (v.Stored lib.toFloatLib source toText records))

/-- The rows that are not in the batch. -/
def Server.otherRows (server : Server) (limit : ℕ) (rows : List WeightRow) : List WeightRow :=
  beyond (fun a b => server.le a b = true) limit (rows.filter WeightRow.pending) ++
    rows.filter fun row => !row.pending

theorem Server.perm_rows (server : Server) (limit : ℕ) (rows : List WeightRow) :
    rows.Perm (server.pendingRows limit rows ++ server.otherRows limit rows) := by
  have hsplit : rows.Perm (rows.filter WeightRow.pending ++ rows.filter fun row => !row.pending) :=
    (List.filter_append_perm WeightRow.pending rows).symm
  have hpending := List.perm_insertionSort (fun a b => server.le a b = true)
    (rows.filter WeightRow.pending)
  rw [pendingRows, otherRows, ← List.append_assoc, window, beyond, List.take_append_drop]
  exact hsplit.trans (hpending.symm.append_right _)

/-- The serial numbers of the batch have no white space around them, and no other row bears one of
them. -/
structure PlainSerials (server : Server) (cfg : SyncConfig) (rows : List WeightRow) : Prop where
  trimmed : ∀ row ∈ server.pendingRows cfg.batchSize rows, ∀ s ∈ row.serialNo, s.trimSpace = s
  own : ∀ row ∈ server.otherRows cfg.batchSize rows,
    ∀ row' ∈ server.pendingRows cfg.batchSize rows, ∀ s ∈ row'.serialNo, row.serialNo ≠ some s

section

variable {lib : SqlServerEngine.Lib} {server : Server} {source : SqlServerConfig} {cfg : SyncConfig}
  {toText : Json → Str} {v : Visit} {rows : List WeightRow} {records : List SqlServerWeightRecord}

/-- What holds of a batch that C has answered with status 200: it was read from the table, C decodes
its request as it was written, and the engine parses the answer as it was written. -/
structure Answered (lib : SqlServerEngine.Lib) (server : Server) (source : SqlServerConfig)
    (cfg : SyncConfig) (toText : Json → Str) (v : Visit) (rows : List WeightRow)
    (records : List SqlServerWeightRecord) : Prop where
  fetched : server.fetchPending lib.toFloatLib cfg.batchSize rows = .ok records
  valid : ∀ row ∈ server.pendingRows cfg.batchSize rows, ∀ s ∈ row.serialNo, s.Valid
  request : parseFirst (toText (SqlServerEngine.uploadRequest source v.uploadedAt records)) =
    some (SqlServerEngine.uploadRequest source v.uploadedAt records)
  reply : ∀ payload accepted failed,
    lib.parseJson ((Receiver.postJSON v.env payload accepted failed).encode ++ [.char '\n']) =
      some (Receiver.postJSON v.env payload accepted failed).repair
  status : (v.answer toText (SqlServerEngine.uploadRequest source v.uploadedAt records)).1.status = 200

theorem Answered.decodeBody (h : Answered lib server source cfg toText v rows records) :
    Receiver.decodeBody (toText (SqlServerEngine.uploadRequest source v.uploadedAt records)) =
      some (payloadOf source v.uploadedAt records) := by
  rw [Receiver.decodeBody, h.request, Option.bind_some, decodePayload_uploadRequest]

/-- The records are those of the rows of the batch, in order. -/
theorem Answered.forall₂ (h : Answered lib server source cfg toText v rows records) :
    List.Forall₂ (fun row record => rowToRecord lib.toFloatLib row = .ok record)
      (server.pendingRows cfg.batchSize rows) records := by
  have hfetched := h.fetched
  rw [Server.fetchPending] at hfetched
  generalize server.pendingRows cfg.batchSize rows = batch at hfetched ⊢
  clear h
  induction batch generalizing records with
  | nil =>
      cases hfetched
      exact .nil
  | cons row batch ih =>
      rw [List.mapM_cons] at hfetched
      obtain ⟨record, hrecord, hfetched⟩ := bind_eq_ok_iff.mp hfetched
      obtain ⟨rest, hrest, hfetched⟩ := bind_eq_ok_iff.mp hfetched
      cases hfetched
      exact .cons hrecord (ih hrest)

theorem Answered.exists_row (h : Answered lib server source cfg toText v rows records)
    {record : SqlServerWeightRecord} (hrecord : record ∈ records) :
    ∃ row ∈ server.pendingRows cfg.batchSize rows, rowToRecord lib.toFloatLib row = .ok record := by
  obtain ⟨i, hi, hget⟩ := List.getElem_of_mem hrecord
  have hlength := h.forall₂.length_eq
  refine ⟨_, List.getElem_mem (hlength ▸ hi), ?_⟩
  rw [← hget]
  exact h.forall₂.get (hlength ▸ hi) hi

/-- Every row of the batch is stored. -/
theorem Answered.stored (h : Answered lib server source cfg toText v rows records) {row : WeightRow}
    (hrow : row ∈ server.pendingRows cfg.batchSize rows) :
    v.Stored lib.toFloatLib source toText records row := by
  obtain ⟨record, hrecord, hread⟩ := exists_record_of_mapM h.fetched hrow
  obtain ⟨db', hinsert, hanswer⟩ := Receiver.stored_of_status h.decodeBody h.status
  refine ⟨_, record, h.decodeBody, hread, ?_, ?_⟩
  · rw [Visit.answer, hanswer]
    exact (Receiver.insertPayload_ok hinsert).1
  · apply Receiver.exists_row_ofElement
    · refine List.mem_flatMap.mpr ⟨_, List.mem_cons_self, ?_⟩
      exact List.mem_map_of_mem (List.mem_map_of_mem hrecord)
    · exact (extractString_received hread).2

/-- The engine reads the serial numbers of its records, trimmed. -/
theorem Answered.uploadBatch (h : Answered lib server source cfg toText v rows records) :
    SqlServerEngine.uploadBatch lib source records (v.attempt toText) =
      .ok ⟨trimmedSerials records, []⟩ := by
  obtain ⟨db', -, hanswer⟩ := Receiver.stored_of_status h.decodeBody h.status
  have hserials : (trimmedSerials records).map Str.repair = trimmedSerials records := by
    rw [trimmedSerials, List.map_map]
    refine List.map_congr_left fun record hrecord => ?_
    obtain ⟨row, hrow, hread⟩ := h.exists_row hrecord
    have hvalid := h.valid row hrow _ (serialNo_of_rowToRecord hread)
    exact Str.repair_eq_self_iff.mpr (Str.valid_trimSpace hvalid)
  have hread := serials_payloadOf source v.uploadedAt fun record hrecord =>
    (h.exists_row hrecord).imp fun _ hrow => hrow.2
  generalize payloadOf source v.uploadedAt records = payload at hanswer hread
  have hbody : (v.answer toText (SqlServerEngine.uploadRequest source v.uploadedAt records)).1 =
      .json 200 (Receiver.postJSON v.env payload (Receiver.acceptedOf payload)
        (Receiver.unkeyedOf payload)) := by
    rw [Visit.answer, hanswer]
  generalize hjson : Receiver.postJSON v.env payload (Receiver.acceptedOf payload)
    (Receiver.unkeyedOf payload) = json at hbody
  have hvalid : (json.encode ++ [Rune.char '\n']).repair = json.encode ++ [Rune.char '\n'] := by
    rw [Str.repair_eq_self_iff, Str.valid_append, ← hjson]
    exact ⟨valid_encode _ (Receiver.wellFormed_postJSON _ _ _ _), Str.valid_lit "\n"⟩
  have hblank : Str.trimSpace (json.encode ++ [Rune.char '\n']) ≠ [] := by
    have hopen : Rune.char '\x7b' ∈ json.encode ++ [.char '\n'] := by
      rw [← hjson, Receiver.postJSON, Json.encode]
      exact List.mem_cons_self
    exact Str.trimSpace_ne_nil hopen (by decide)
  have hparse := h.reply payload (Receiver.acceptedOf payload) (Receiver.unkeyedOf payload)
  rw [hjson] at hparse
  rw [SqlServerEngine.uploadBatch, Visit.attempt]
  simp only [hbody, Reply.json]
  rw [if_neg (by decide), if_neg Bool.noConfusion]
  simp only [hvalid]
  rw [if_neg hblank, hparse, Option.bind_some, ← hjson, decodeResponse_postJSON, hread, hserials]

theorem acceptedSerialNos_trimmed (records : List SqlServerWeightRecord) :
    SqlServerEngine.acceptedSerialNos records
        ⟨trimmedSerials records, []⟩ =
      trimmedSerials records := by
  rw [SqlServerEngine.acceptedSerialNos, TwoLists.acceptedFrom]
  split_ifs with hsilent
  · have hnil : records = [] := by simpa [TwoLists.silent, trimmedSerials] using hsilent
    rw [hnil]
    rfl
  · rfl

/-- The rows that bear a trimmed serial number of the batch are the ones that matter. -/
theorem Answered.writesBackExactly_iff_perm
    (h : Answered lib server source cfg toText v rows records) :
    WritesBackExactly lib server source cfg toText v rows ↔
      (rows.filter (WeightRow.bears (trimmedSerials records))).Perm
        (server.pendingRows cfg.batchSize rows) := by
  classical
  have hstored : (server.pendingRows cfg.batchSize rows).filter
      (v.Stored lib.toFloatLib source toText records) = server.pendingRows cfg.batchSize rows :=
    List.filter_eq_self.mpr fun row hrow => by simpa using h.stored hrow
  constructor
  · rintro ⟨records', response, hfetched, huploaded, hperm⟩
    have hrecords : records' = records := Except.ok.inj (hfetched.symm.trans h.fetched)
    subst hrecords
    have hresponse := Except.ok.inj (huploaded.symm.trans h.uploadBatch)
    rw [hresponse, acceptedSerialNos_trimmed] at hperm
    refine hperm.trans (List.Perm.of_eq ?_)
    convert hstored
  · intro hperm
    refine ⟨records, _, h.fetched, h.uploadBatch, ?_⟩
    rw [acceptedSerialNos_trimmed]
    refine hperm.trans (List.Perm.of_eq ?_)
    convert hstored.symm

/-- When C has answered a batch with status 200, the engine marks exactly the rows that C has stored
if and only if the serial numbers of the batch have no white space around them and no other row bears
one of them. -/
theorem writesBackExactly_iff (h : Answered lib server source cfg toText v rows records) :
    WritesBackExactly lib server source cfg toText v rows ↔ PlainSerials server cfg rows := by
  rw [h.writesBackExactly_iff_perm]
  have hsplit := (server.perm_rows cfg.batchSize rows).filter
    (WeightRow.bears (trimmedSerials records))
  rw [List.filter_append] at hsplit
  have hserial : ∀ {row : WeightRow}, row ∈ server.pendingRows cfg.batchSize rows →
      ∃ record ∈ records, row.serialNo = some record.serialNo := fun hrow =>
    (exists_record_of_mapM h.fetched hrow).imp fun _ hrecord =>
      ⟨hrecord.1, serialNo_of_rowToRecord hrecord.2⟩
  constructor
  · intro hperm
    have hbears : ∀ row ∈ server.pendingRows cfg.batchSize rows,
        row.bears (trimmedSerials records) = true := fun row hrow =>
      (List.mem_filter.mp (hperm.mem_iff.mpr hrow)).2
    have htrimmed : ∀ row ∈ server.pendingRows cfg.batchSize rows, ∀ s ∈ row.serialNo,
        s.trimSpace = s := by
      intro row hrow s hs
      have hmem := hbears row hrow
      rw [WeightRow.bears, Option.mem_def.mp hs] at hmem
      obtain ⟨record, -, rfl⟩ := List.mem_map.mp (of_decide_eq_true hmem)
      exact Str.trimSpace_trimSpace _
    refine ⟨htrimmed, fun row hrow row' hrow' s hs hsame => ?_⟩
    -- all rows of the batch are marked, so there is no room for another one
    have hlength := (hsplit.symm.trans hperm).length_eq
    rw [List.length_append, List.filter_eq_self.mpr hbears] at hlength
    have hnone : (server.otherRows cfg.batchSize rows).filter
        (WeightRow.bears (trimmedSerials records)) = [] :=
      List.eq_nil_of_length_eq_zero (by omega)
    obtain ⟨record, hrecord, hrow'⟩ := hserial hrow'
    have hs' : s = record.serialNo := Option.some_inj.mp ((Option.mem_def.mp hs).symm.trans hrow')
    have hplain := htrimmed row' ‹_› s hs
    refine List.filter_eq_nil_iff.mp hnone row hrow ?_
    rw [WeightRow.bears, hsame]
    exact decide_eq_true (List.mem_map.mpr ⟨record, hrecord, by rw [← hs', hplain]⟩)
  · rintro ⟨htrimmed, hown⟩
    have hbatch : (server.pendingRows cfg.batchSize rows).filter
        (WeightRow.bears (trimmedSerials records)) =
          server.pendingRows cfg.batchSize rows := by
      refine List.filter_eq_self.mpr fun row hrow => ?_
      obtain ⟨record, hrecord, hserialNo⟩ := hserial hrow
      rw [WeightRow.bears, hserialNo]
      refine decide_eq_true (List.mem_map.mpr ⟨record, hrecord, ?_⟩)
      exact htrimmed row hrow _ hserialNo
    have hothers : (server.otherRows cfg.batchSize rows).filter
        (WeightRow.bears (trimmedSerials records)) = [] := by
      refine List.filter_eq_nil_iff.mpr fun row hrow hbears => ?_
      obtain ⟨s, hs, hmem⟩ := (Option.any_eq_true _ _).mp hbears
      obtain ⟨record, hrecord, htrim⟩ := List.mem_map.mp (of_decide_eq_true hmem)
      obtain ⟨row', hrow', hread⟩ := h.exists_row hrecord
      have hserialNo := serialNo_of_rowToRecord hread
      have hplain := htrimmed row' hrow' _ hserialNo
      exact hown row hrow row' hrow' _ hserialNo (by rw [hs, ← htrim, hplain])
    rw [hbatch, hothers, List.append_nil] at hsplit
    exact hsplit

end

/-! ## A serial number with a space before it -/

/-- The record of a pending row. -/
def weightRecord (serialNo : String) : SqlServerWeightRecord where
  serialNo := Str.lit serialNo
  data := (Str.lit "serialNo", .str (Str.lit serialNo)) :: (Str.lit "isUploadCloud", .num (itoa 0)) ::
    (Str.lit "del_flag", .num (itoa 0)) :: otherColumns.map fun name => (Str.lit name, .null)

/-- A first upload to an empty C. -/
def firstVisit : Visit := ⟨firstTime, Receiver.plainConfig, Receiver.plainEnv, none, ⟨.empty, .empty⟩, 0⟩

/-- What the engine sends for a row. -/
abbrev firstRequest (serialNo : String) : Json :=
  SqlServerEngine.uploadRequest plainSource firstVisit.uploadedAt [weightRecord serialNo]

theorem wellFormed_firstRequest (serialNo : String) : (firstRequest serialNo).WellFormed := by
  have hdata : (Json.ofMap (weightRecord serialNo).data).WellFormed := by
    rw [Json.ofMap, Json.wellFormed_obj]
    intro f hf
    rw [List.mem_insertionSort, weightRecord] at hf
    simp only [List.mem_cons, List.mem_map] at hf
    rcases hf with rfl | rfl | rfl | ⟨name, -, rfl⟩
    · trivial
    · exact wellFormed_itoa 0
    · exact wellFormed_itoa 0
    · trivial
  rw [firstRequest, SqlServerEngine.uploadRequest, Json.wellFormed_obj]
  simp only [List.map_cons, List.map_nil, List.forall_mem_cons, Json.wellFormed_arr, hdata]
  exact ⟨trivial, trivial, trivial, trivial, ⟨trivial, List.forall_mem_nil _⟩, List.forall_mem_nil _⟩

theorem repair_firstRequest (serialNo : String) : (firstRequest serialNo).repair = firstRequest serialNo := by
  have hname : ∀ name : String, (Str.lit name).repair = Str.lit name := fun name =>
    Str.repair_eq_self_iff.mpr (Str.valid_lit name)
  have hdata : (Json.ofMap (weightRecord serialNo).data).repair =
      Json.ofMap (weightRecord serialNo).data := by
    rw [Json.ofMap, Json.repair_obj]
    refine congrArg Json.obj ((List.map_congr_left fun f hf => ?_).trans (List.map_id _))
    rw [List.mem_insertionSort, weightRecord] at hf
    simp only [List.mem_cons, List.mem_map] at hf
    rcases hf with rfl | rfl | rfl | ⟨name, -, rfl⟩ <;> simp [Json.repair, hname]
  rw [firstRequest, SqlServerEngine.uploadRequest, Json.repair_obj]
  have hplain : plainSource.database.repair = plainSource.database ∧
      plainSource.table.repair = plainSource.table ∧
      firstVisit.uploadedAt.repair = firstVisit.uploadedAt :=
    ⟨hname _, hname _, hname _⟩
  simp only [List.map_cons, List.map_nil, hname, hdata, Json.repair, Json.repairElements, hplain]

theorem answered_first (serialNo : String) {rows : List WeightRow}
    (hpending : plainServer.pendingRows 1 rows = [pendingWeight serialNo])
    (hread : rowToRecord plainLib.toFloatLib (pendingWeight serialNo) = .ok (weightRecord serialNo))
    (hsize : (firstRequest serialNo).encode.size ≤ 16777216) :
    Answered plainLib plainServer plainSource oneRecordConfig Json.encode firstVisit rows
      [weightRecord serialNo] := by
  have hrequest : parseFirst (firstRequest serialNo).encode = some (firstRequest serialNo) := by
    rw [parseFirst_encode (wellFormed_firstRequest serialNo), repair_firstRequest]
  have hbody : Receiver.decodeBody (firstRequest serialNo).encode =
      some (payloadOf plainSource firstVisit.uploadedAt [weightRecord serialNo]) := by
    rw [Receiver.decodeBody, hrequest, Option.bind_some, firstRequest, decodePayload_uploadRequest]
  refine ⟨?_, ?_, hrequest, ?_, ?_⟩
  · show (plainServer.pendingRows 1 rows).mapM _ = _
    rw [hpending, List.mapM_cons, hread]
    rfl
  · show ∀ row ∈ plainServer.pendingRows 1 rows, _
    rw [hpending]
    intro row hrow s hs
    rw [List.mem_singleton.mp hrow] at hs
    cases hs
    exact Str.valid_lit serialNo
  · intro payload accepted failed
    have hend : skipSpace [.char '\n'] = [] := by decide
    exact parse_encode_append (Receiver.wellFormed_postJSON firstVisit.env payload accepted failed) hend
  · have hlimit : firstVisit.ccfg.maxBodyBytes = ((16777216 : ℕ) : ℤ) := rfl
    have htotal : Receiver.total (payloadOf plainSource firstVisit.uploadedAt
        [weightRecord serialNo]).entityRecords ≠ 0 := by
      simp [Receiver.total, Receiver.UploadPayload.entityRecords,
        Receiver.UploadPayload.normalizedWeightInfo, payloadOf]
    have hsmall : ((firstRequest serialNo).encode.size : ℤ) ≤ firstVisit.ccfg.maxBodyBytes := by
      rw [hlimit]
      exact Int.ofNat_le.mpr hsize
    have hfails : ∀ statement, firstVisit.env.fails statement = false := fun _ => rfl
    have hrefusal : firstVisit.refusal = none := rfl
    rw [Visit.answer, hrefusal]
    exact Receiver.status_of_no_failure firstVisit.db hsmall hfails hbody htotal

theorem writesBackExactly_iff_twoWeights :
    WritesBackExactly plainLib plainServer plainSource oneRecordConfig Json.encode firstVisit
      twoWeights ↔ PlainSerials plainServer oneRecordConfig twoWeights :=
  writesBackExactly_iff (answered_first "A" (by decide +kernel) rfl (by decide +kernel))

/-- C stores the row and answers with its trimmed serial number, which no row of the table bears: the
row stays pending. -/
theorem not_writesBackExactly_spaced :
    (firstVisit.answer Json.encode (SqlServerEngine.uploadRequest plainSource firstVisit.uploadedAt
        [weightRecord " A"])).1.status = 200 ∧
      firstVisit.Stored plainLib.toFloatLib plainSource Json.encode [weightRecord " A"]
        (pendingWeight " A") ∧
      SqlServerEngine.uploadBatch plainLib plainSource [weightRecord " A"]
        (firstVisit.attempt Json.encode) = .ok ⟨[Str.lit "A"], []⟩ ∧
      ¬ WritesBackExactly plainLib plainServer plainSource oneRecordConfig Json.encode firstVisit
        [pendingWeight " A"] := by
  have hbatch : plainServer.pendingRows 1 [pendingWeight " A"] = [pendingWeight " A"] := by
    decide +kernel
  have h := answered_first " A" hbatch rfl (by decide +kernel)
  have hmem : pendingWeight " A" ∈ plainServer.pendingRows 1 [pendingWeight " A"] := by
    rw [hbatch]
    exact List.mem_cons_self
  refine ⟨h.status, h.stored hmem, ?_, ?_⟩
  · have hserials : trimmedSerials [weightRecord " A"] = [Str.lit "A"] := by decide +kernel
    rw [h.uploadBatch, hserials]
  rw [h.writesBackExactly_iff_perm]
  intro hperm
  have hmarked := (List.mem_filter.mp (hperm.mem_iff.mpr hmem)).2
  have hpending : (pendingWeight " A").bears (trimmedSerials [weightRecord " A"]) = false := by
    decide +kernel
  rw [hpending] at hmarked
  cases hmarked

end WeighingSync.Engine
