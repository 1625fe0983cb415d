import WeighingSync.Common.Replay
import WeighingSync.Go.JsonParsed
import WeighingSync.Receiver.Credentials
import WeighingSync.Receiver.Redelivery

/-!
# Raw records

With `STORE_RAW_RECORDS` on, `upsertRecords` keeps the text of each record beside the columns that it
takes from it. The columns of a row are always those of one record, whatever was uploaded before, and
its raw record is that record: filed again, it makes the row again (`filed_again`). So a table is
rebuilt from its raw records (`rebuilt`); what they do not tell is where the records came from, and
when they came.
-/

namespace WeighingSync.Receiver

open Go

/-! ## A record and its text -/

/-- The object that a raw record holds. -/
def recordOf (raw : Str) : Option Record :=
  match parse raw with
  | some (.obj fields) => some fields
  | _ => none

section

variable {record : Record}

theorem scalarText_canonical (j : Json) : scalarText j.canonical = scalarText j := by
  cases j <;> rfl

theorem extractString_canonicalMembers (fields : List String) :
    extractString (Json.canonicalMembers record) fields = extractString record fields := by
  induction fields with
  | nil => rfl
  | cons key keys ih =>
      have hscalar : (Json.lookup (Json.canonicalMembers record) (Str.lit key)).bind scalarText =
          (Json.lookup record (Str.lit key)).bind scalarText := by
        rw [Json.lookup_canonicalMembers]
        cases Json.lookup record (Str.lit key) with
        | none => rfl
        | some j => exact scalarText_canonical j
      rw [extractString, extractString, hscalar, ih]

theorem extractRecordKey_canonicalMembers (entityType : Str) :
    extractRecordKey entityType (Json.canonicalMembers record) = extractRecordKey entityType record := by
  have hfirst : ∀ candidates, firstKey (Json.canonicalMembers record) candidates =
      firstKey record candidates := by
    intro candidates
    induction candidates with
    | nil => rfl
    | cons c candidates ih => rw [firstKey, firstKey, extractString_canonicalMembers, ih]
  exact hfirst _

theorem sourceTime_canonicalMembers (timeText : Str → Option Str) :
    sourceTime timeText (Json.canonicalMembers record) = sourceTime timeText record := by
  have hfield : ∀ key, parseAnyTime timeText (Json.lookup (Json.canonicalMembers record) key) =
      parseAnyTime timeText (Json.lookup record key) := by
    intro key
    rw [Json.lookup_canonicalMembers]
    cases Json.lookup record key with
    | none => rfl
    | some j => cases j <;> rfl
  rw [sourceTime, sourceTime]
  congr 1
  funext key
  exact hfield _

/-- A record as a map is stored as the record is. -/
theorem upsertRowOf_canonicalMembers (cfg : Config) (env : PostEnv) (origin : UploadOrigin)
    (batch : EntityBatch) (now : Str) :
    upsertRowOf cfg env origin batch (Json.canonicalMembers record) now =
      upsertRowOf cfg env origin batch record now := by
  have hkeyed : keyed batch.entityType (Json.canonicalMembers record) = keyed batch.entityType record := by
    rw [keyed, keyed, extractRecordKey_canonicalMembers]
  have htext : Json.canonical (.obj (Json.canonicalMembers record)) = Json.canonical (.obj record) := by
    rw [← Json.canonical_obj, Json.canonical_canonical]
  rw [upsertRowOf, upsertRowOf, hkeyed, recordKey, recordKey, extractRecordKey_canonicalMembers,
    extractString_canonicalMembers, extractString_canonicalMembers, sourceTime_canonicalMembers, htext]

/-- The text of a record that was decoded holds the record as a map. -/
theorem recordOf_encode (h : (Json.obj record).Parsed) :
    recordOf (Json.canonical (.obj record)).encode = some (Json.canonicalMembers record) := by
  rw [recordOf, h.canonical.parse_encode, Json.canonical_obj]

end

/-! ## Records of an upload -/

theorem parsed_toMap {fields : List (Str × Json)} (h : (Json.obj fields).Parsed) :
    (Json.obj (Json.toMap fields)).Parsed :=
  Json.parsed_obj_iff.mpr fun f hf => Json.parsed_obj_iff.mp h f ((Json.toMap_sublist fields).subset hf)

theorem parsed_structField {fields : List (Str × Json)} (h : (Json.obj fields).Parsed) {name : Str}
    {j : Json} (hj : Json.structField fields name = some j) : j.Parsed := by
  rw [Json.structField, List.findRev?_eq_find?_reverse, Option.map_eq_some_iff] at hj
  obtain ⟨f, hf, rfl⟩ := hj
  exact (Json.parsed_obj_iff.mp h f (List.mem_reverse.mp (List.mem_of_find?_eq_some hf))).2

theorem parsed_decodeRecords {fields : List (Str × Json)} (h : (Json.obj fields).Parsed) {name : Str}
    {records : List Record} (hrecords : decodeRecords (Json.structField fields name) = some records) :
    ∀ record ∈ records, (Json.obj record).Parsed := by
  obtain ⟨maps, hmaps, rfl⟩ := Option.map_eq_some_iff.mp hrecords
  intro record hrecord
  obtain ⟨members, hmembers, rfl⟩ := List.mem_map.mp hrecord
  refine parsed_toMap ?_
  rw [Json.decodeMaps] at hmaps
  cases hfield : Json.structField fields name with
  | none =>
      rw [hfield] at hmaps
      cases hmaps
      cases hmembers
  | some j =>
      have hj := parsed_structField h hfield
      rw [hfield] at hmaps
      cases j with
      | null =>
          cases hmaps
          cases hmembers
      | arr xs =>
          obtain ⟨x, hx, hdecoded⟩ := exists_of_mem_mapM hmaps hmembers
          have hparsed : x.Parsed := ⟨Json.wellFormed_arr.mp hj.wellFormed x hx,
            Json.repair_arr_eq_self_iff.mp hj.valid x hx⟩
          cases x with
          | null =>
              cases hdecoded
              exact ⟨trivial, rfl⟩
          | obj _ =>
              cases hdecoded
              exact hparsed
          | bool | num | str | arr => cases hdecoded
      | bool | num | str | obj => cases hmaps

/-- The records of an upload are as the decoder reads them. -/
theorem parsed_of_decodeBody {body : Str} {payload : UploadPayload}
    (h : decodeBody body = some payload) :
    ∀ batch ∈ payload.entityRecords, ∀ record ∈ batch.records, (Json.obj record).Parsed := by
  obtain ⟨j, hj, hpayload⟩ := Option.bind_eq_some_iff.mp h
  simp only [decodePayload, Option.bind_eq_bind, Option.bind_eq_some_iff] at hpayload
  obtain ⟨fields, hfields, _, -, _, -, _, -, records, hrecords, infos, hinfos, photos, hphotos, heq⟩ :=
    hpayload
  cases heq
  have hparsed : (Json.obj fields).Parsed := by
    have hparsed := Json.parsed_of_parseFirst hj
    cases j with
    | null =>
        cases hfields
        exact ⟨trivial, rfl⟩
    | obj _ =>
        cases hfields
        exact hparsed
    | bool | num | str | arr => cases hfields
  intro batch hbatch record hrecord
  rcases List.mem_cons.mp hbatch with rfl | hbatch
  · -- the weighings are the list of the old name where the new one is empty
    simp only [UploadPayload.normalizedWeightInfo] at hrecord
    split_ifs at hrecord
    · exact parsed_decodeRecords hparsed hinfos record hrecord
    · exact parsed_decodeRecords hparsed hrecords record hrecord
  · rw [List.mem_singleton.mp hbatch] at hrecord
    exact parsed_decodeRecords hparsed hphotos record hrecord

/-! ## What a request leaves in the table -/

/-- A request does nothing to the tables, or what is asked for on its route. -/
theorem db_serve_asked (crypto : Crypto) (S : ServerConfig) (visit : Visit) (r : Request) (s : ServerState) :
    (serve crypto S visit r s).2.db = s.db ∨
      ∃ route, (serve crypto S visit r s).2.db = (perform S visit s.db (asked S visit r route)).2 := by
  rcases serve_cases crypto S visit r s with h | ⟨message, h⟩ | ⟨route, -, ⟨-, h⟩ | ⟨auth, -, h⟩⟩
  · exact Or.inl (by rw [h])
  · exact Or.inl (by rw [h])
  · exact Or.inr ⟨route, by rw [h]; rfl⟩
  · rcases h with ⟨message, nonces, h⟩ | ⟨nonces, -, h⟩
    · exact Or.inl (by rw [h])
    · exact Or.inr ⟨route, by rw [h]; rfl⟩

/-- Rows come into the table with the payload of an upload only. -/
theorem records_perform (S : ServerConfig) (visit : Visit) (db : ReceiverDb) (a : Action) :
    (∀ e ∈ (perform S visit db a).2.records.rows, e ∈ db.records.rows) ∨
      ∃ payload, a = .store (some payload) ∧ (perform S visit db a).2.records =
        db.records.upsertRows (rowsOf S.cfg visit.times.env payload) := by
  cases a with
  | report => exact Or.inl fun e he => he
  | store payload =>
      cases payload with
      | none => exact Or.inl fun e he => he
      | some payload =>
          have hinsert := records_insertPayload S.cfg visit.times.env payload db
          rw [perform]
          split_ifs
          · exact Or.inl fun e he => he
          · cases hresult : insertPayload S.cfg visit.times.env payload db with
            | mk db' result =>
                rw [hresult] at hinsert
                rcases hinsert with hsame | hrows
                · refine Or.inl fun e he => ?_
                  rw [← hsame]
                  cases result <;> exact he
                · refine Or.inr ⟨payload, rfl, ?_⟩
                  cases result <;> exact hrows
  | query filter includeRaw =>
      cases filter with
      | none => exact Or.inl fun e he => he
      | some f =>
          rw [perform]
          split_ifs <;> exact Or.inl fun e he => he
  | deleteID id =>
      rw [perform]
      split_ifs
      · exact Or.inl fun e he => he
      · exact Or.inl fun e he => (KeyedTable.mem_deleteWhere.mp he).1
  | deleteKey key =>
      rw [perform]
      split_ifs
      · exact Or.inl fun e he => he
      · exact Or.inl fun e he => (KeyedTable.mem_deleteWhere.mp he).1
  | refuse message => exact Or.inl fun e he => he

/-- What is asked for is to store a payload only if the body holds it. -/
theorem decodeBody_of_asked {S : ServerConfig} {visit : Visit} {r : Request} {route : Route}
    {payload : UploadPayload} (h : asked S visit r route = .store (some payload)) :
    decodeBody (Str.ofBytes r.body) = some payload := by
  cases route with
  | post => exact Action.store.inj h
  | health | query => cases h
  | delete =>
      simp only [asked, action, deleteAction] at h
      split at h
      · split at h <;> cases h
      · split at h <;> cases h
  | deleteByID id =>
      simp only [asked, action, deleteByIDAction] at h
      split at h
      · split at h <;> cases h
      · cases h
  | deleteByKey key =>
      rw [asked, action, deleteByKeyAction] at h
      split_ifs at h

/-- What holds of the keys and the columns of a table and of new rows holds of them after an upload. -/
theorem forall_content_upsertRows {P : Str → RecordContent → Prop} {t : RecordTable}
    {rows : List UpsertRow} (ht : ∀ e ∈ t.rows, P e.key e.val.content)
    (hrows : ∀ u ∈ rows, P u.key u.content) :
    ∀ e ∈ (t.upsertRows rows).rows, P e.key e.val.content := by
  induction rows generalizing t with
  | nil => exact ht
  | cons u rows ih =>
      rw [List.forall_mem_cons] at hrows
      refine ih (t := t.upsertRow u) (fun e he => ?_) hrows.2
      rcases KeyedTable.mem_upsert.mp he with ⟨he, -⟩ | ⟨e₀, he₀, hkey, rfl⟩ | ⟨-, rfl⟩
      · exact ht e he
      · show P e₀.key u.content
        rw [hkey]
        exact hrows.1
      · exact hrows.1

/-! ## Rows of one record -/

/-- The kinds of records, each with the one table it comes from. -/
def kinds : { l : List (Str × Str) // (l.map Prod.fst).Nodup } :=
  ⟨[(weightInfo, Str.lit "tbl_weightInfo"), (weightPhoto, Str.lit "tbl_weightPhoto")], by decide +kernel⟩

/-- One record is stored under the key with these columns. -/
def Filed (cfg : Config) (timeText : Str → Option Str) (key : Str) (content : RecordContent) : Prop :=
  ∃ env origin batch record now, env.timeText = timeText ∧ (batch.entityType, batch.sourceTable) ∈ kinds.1 ∧
    (Json.obj record).Parsed ∧ upsertRowOf cfg env origin batch record now = some ⟨key, content, now⟩

/-- The stored text of a time text. -/
def storedTime (parse : Str → Option Instant) (text : Str) : Option Str := (parse text).map timeString

/-- The rows of an upload are each of one record. -/
theorem filed_rowsOf {cfg : Config} {times : PostTimes} {body : Str} {payload : UploadPayload}
    (h : decodeBody body = some payload) :
    ∀ u ∈ rowsOf cfg times.env payload, Filed cfg (storedTime times.parse) u.key u.content := by
  intro u hu
  obtain ⟨batch, hbatch, hu⟩ := List.mem_flatMap.mp hu
  obtain ⟨⟨record, now⟩, hrecord, hrow⟩ := List.mem_filterMap.mp hu
  have hmem : record ∈ batch.records := by
    rw [← map_fst_stamped times.env batch]
    exact List.mem_map_of_mem hrecord
  have hnow : u.now = now := by
    simp only [upsertRowOf] at hrow
    split_ifs at hrow <;> cases hrow <;> rfl
  refine ⟨times.env, originOf times.env payload, batch, record, now, rfl, ?_,
    parsed_of_decodeBody h batch hbatch record hmem, hrow.trans ?_⟩
  · rcases List.mem_cons.mp hbatch with rfl | hbatch
    · exact List.mem_cons_self
    · rw [List.mem_singleton.mp hbatch]
      exact List.mem_cons_of_mem _ List.mem_cons_self
  · rw [← hnow]

/-- In every run in which time texts are read in one way, each row is of one record. -/
theorem filed_of_reachedBy {crypto : Crypto} {S : ServerConfig} {parse : Str → Option Instant}
    {s : ServerState} (h : (receiver crypto S).ReachedBy (fun _ a => a.1.times.parse = parse) s) :
    ∀ e ∈ s.db.records.rows, Filed S.cfg (storedTime parse) e.key e.val.content := by
  refine h.invariant (I := fun s => ∀ e ∈ s.db.records.rows, Filed S.cfg (storedTime parse) e.key
    e.val.content) (fun s hs => ?_) fun s a s' hs hstep hparse => ?_
  · rw [hs.1]
    exact fun e he => absurd he List.not_mem_nil
  · cases hstep
    rcases db_serve_asked crypto S a.1 a.2 s with hdb | ⟨route, hdb⟩
    · rw [hdb]
      exact hs
    · rw [hdb]
      rcases records_perform S a.1 s.db (asked S a.1 a.2 route) with hsub | ⟨payload, hasked, hrows⟩
      · exact fun e he => hs e (hsub e he)
      · rw [hrows]
        refine forall_content_upsertRows hs ?_
        rw [← hparse]
        exact filed_rowsOf (decodeBody_of_asked hasked)

/-! ## Filing a raw record again -/

/-- The columns of a record that comes from elsewhere. -/
def RecordContent.movedTo (origin : UploadOrigin) (content : RecordContent) : RecordContent :=
  { content with
    source := origin.source
    sourceDatabase := origin.database
    uploadedAt := origin.uploadedAt }

/-- The batch of its kind in which a row is filed. -/
def RecordContent.batch (content : RecordContent) (records : List Record) : EntityBatch :=
  ⟨content.entityType, content.sourceTable, records⟩

section

variable {cfg : Config} {timeText : Str → Option Str} {key : Str} {content : RecordContent}

/-- A record that is stored is stored from elsewhere too, with the same key and columns. -/
theorem upsertRowOf_elsewhere {env env' : PostEnv} {origin : UploadOrigin} {batch batch' : EntityBatch}
    {record : Record} {now : Str} {u : UpsertRow} (h : upsertRowOf cfg env origin batch record now = some u)
    (htime : env'.timeText = env.timeText) (htype : batch'.entityType = batch.entityType)
    (htable : batch'.sourceTable = batch.sourceTable) (origin' : UploadOrigin) (now' : Str) :
    upsertRowOf cfg env' origin' batch' record now' = some ⟨u.key, u.content.movedTo origin', now'⟩ := by
  by_cases hkeyed : keyed batch.entityType record = true
  · rw [upsertRowOf, if_pos hkeyed] at h
    cases h
    rw [upsertRowOf, htype, htable, htime, if_pos hkeyed]
    rfl
  · rw [upsertRowOf, if_neg hkeyed] at h
    cases h

/-- The kind and the raw record of a record that is stored. -/
theorem columns_of_upsertRowOf {env : PostEnv} {origin : UploadOrigin} {batch : EntityBatch}
    {record : Record} {now : Str} {u : UpsertRow}
    (h : upsertRowOf cfg env origin batch record now = some u) :
    u.content.entityType = batch.entityType ∧ u.content.sourceTable = batch.sourceTable ∧
      u.content.rawRecord =
        if cfg.storeRawRecords then some (Json.canonical (.obj record)).encode else none := by
  rw [upsertRowOf] at h
  split at h
  · cases h
    exact ⟨rfl, rfl, rfl⟩
  · cases h

theorem Filed.kind (h : Filed cfg timeText key content) :
    (content.entityType, content.sourceTable) ∈ kinds.1 := by
  obtain ⟨env, origin, batch, record, now, -, hkind, -, hrow⟩ := h
  obtain ⟨htype, htable, -⟩ := columns_of_upsertRowOf hrow
  exact htype ▸ htable ▸ hkind

/-- The raw record of a row is kept if the server keeps raw records. -/
theorem Filed.exists_rawRecord (h : Filed cfg timeText key content) (hstore : cfg.storeRawRecords = true) :
    ∃ raw, content.rawRecord = some raw := by
  obtain ⟨env, origin, batch, record, now, -, -, -, hrow⟩ := h
  exact ⟨_, (columns_of_upsertRowOf hrow).2.2.trans (if_pos hstore)⟩

/-- The record of a raw record makes the key and the columns again that it was stored with. -/
theorem Filed.again (h : Filed cfg timeText key content) {raw : Str}
    (hraw : content.rawRecord = some raw) :
    ∃ record, recordOf raw = some record ∧ ∀ env origin records now, env.timeText = timeText →
      upsertRowOf cfg env origin (content.batch records) record now =
        some ⟨key, content.movedTo origin, now⟩ := by
  obtain ⟨env, origin, batch, record, now, rfl, -, hparsed, hrow⟩ := h
  obtain ⟨htype, htable, hkept⟩ := columns_of_upsertRowOf hrow
  refine ⟨Json.canonicalMembers record, ?_, fun env' origin' records now' htime => ?_⟩
  · have htext := hraw.symm.trans hkept
    split_ifs at htext
    cases htext
    exact recordOf_encode hparsed
  · rw [upsertRowOf_canonicalMembers]
    exact upsertRowOf_elsewhere hrow htime htype htable origin' now'

end

/-! ## Filing a table again -/

/-- The raw records of a kind. -/
def rawRecords (entityType : Str) (t : RecordTable) : List Record :=
  (t.rows.filter fun e => e.val.content.entityType = entityType).filterMap fun e =>
    e.val.content.rawRecord.bind recordOf

/-- The key and the columns that a record is stored with. -/
def filedAs (cfg : Config) (env : PostEnv) (origin : UploadOrigin) (batch : EntityBatch)
    (record : Record) : Option (Str × RecordContent) :=
  (upsertRowOf cfg env origin batch record []).map fun u => (u.key, u.content)

theorem map_content_rowsOf (cfg : Config) (env : PostEnv) (payload : UploadPayload) :
    (rowsOf cfg env payload).map (fun u => (u.key, u.content)) =
      payload.entityRecords.flatMap fun batch =>
        batch.records.filterMap (filedAs cfg env (originOf env payload) batch) := by
  rw [rowsOf, List.map_flatMap]
  refine List.flatMap_congr fun batch _ => ?_
  rw [List.map_filterMap, ← map_fst_stamped env batch, List.filterMap_map]
  refine List.filterMap_congr fun r _ => ?_
  simp only [Function.comp_apply, filedAs, upsertRowOf]
  split_ifs <;> rfl

/-- The raw records of a kind are stored with the keys and the columns of their rows. -/
theorem filterMap_rawRecords {cfg : Config} {env : PostEnv} {t : RecordTable}
    (hfiled : ∀ e ∈ t.rows, Filed cfg env.timeText e.key e.val.content)
    (hstore : cfg.storeRawRecords = true) (origin : UploadOrigin) (kind : Str × Str) (hkind : kind ∈ kinds.1)
    (records : List Record) :
    (rawRecords kind.1 t).filterMap (filedAs cfg env origin ⟨kind.1, kind.2, records⟩) =
      (t.rows.filter fun e => e.val.content.entityType = kind.1).map fun e =>
        (e.key, e.val.content.movedTo origin) := by
  rw [rawRecords, List.filterMap_filterMap, ← List.filterMap_eq_map]
  refine List.filterMap_congr fun e he => ?_
  obtain ⟨he, htype⟩ := List.mem_filter.mp he
  have htype := of_decide_eq_true htype
  -- the table that a kind comes from goes with the kind
  have htable : e.val.content.sourceTable = kind.2 :=
    congrArg Prod.snd (List.inj_on_of_nodup_map kinds.2 (hfiled e he).kind hkind htype)
  obtain ⟨raw, hraw⟩ := (hfiled e he).exists_rawRecord hstore
  obtain ⟨record, hrecord, hagain⟩ := (hfiled e he).again hraw
  have hrow := hagain env origin records [] rfl
  rw [RecordContent.batch, htype, htable] at hrow
  rw [hraw, Option.bind_some, hrecord, Option.bind_some, filedAs, hrow]
  rfl

/-- Rows of the two kinds are the rows of a table. -/
theorem perm_of_kinds {cfg : Config} {timeText : Str → Option Str} {t : RecordTable}
    (hfiled : ∀ e ∈ t.rows, Filed cfg timeText e.key e.val.content) :
    ((t.rows.filter fun e => e.val.content.entityType = weightInfo) ++
      t.rows.filter fun e => e.val.content.entityType = weightPhoto).Perm t.rows := by
  have hphoto : (t.rows.filter fun e => e.val.content.entityType = weightPhoto) =
      t.rows.filter fun e => !decide (e.val.content.entityType = weightInfo) := by
    refine List.filter_congr fun e he => ?_
    rcases List.mem_pair.mp (hfiled e he).kind with heq | heq
    · rw [(Prod.mk.inj heq).1]
      decide
    · rw [(Prod.mk.inj heq).1]
      decide
  rw [hphoto]
  exact List.filter_append_perm _ _

/-- The payload of the raw records of a table is stored as the table. -/
theorem perm_content_rowsOf {cfg : Config} {env : PostEnv} {t : RecordTable} {payload : UploadPayload}
    (hfiled : ∀ e ∈ t.rows, Filed cfg env.timeText e.key e.val.content)
    (hstore : cfg.storeRawRecords = true)
    (hinfos : payload.normalizedWeightInfo = rawRecords weightInfo t)
    (hphotos : payload.weightPhotoRecords = rawRecords weightPhoto t) :
    ((rowsOf cfg env payload).map fun u => (u.key, u.content)).Perm
      (t.rows.map fun e => (e.key, e.val.content.movedTo (originOf env payload))) := by
  have hall := filterMap_rawRecords hfiled hstore (originOf env payload)
  rw [map_content_rowsOf, UploadPayload.entityRecords, hinfos, hphotos, List.flatMap_cons,
    List.flatMap_singleton, hall (weightInfo, Str.lit "tbl_weightInfo") List.mem_cons_self,
    hall (weightPhoto, Str.lit "tbl_weightPhoto") (List.mem_cons_of_mem _ List.mem_cons_self),
    ← List.map_append]
  exact (perm_of_kinds hfiled).map _

/-- Every record of such a payload has a key. -/
theorem unkeyedOf_rawRecords {cfg : Config} {timeText : Str → Option Str} {t : RecordTable}
    {payload : UploadPayload} (hfiled : ∀ e ∈ t.rows, Filed cfg timeText e.key e.val.content)
    (hinfos : payload.normalizedWeightInfo = rawRecords weightInfo t)
    (hphotos : payload.weightPhotoRecords = rawRecords weightPhoto t) : unkeyedOf payload = [] := by
  have hkeyed : ∀ entityType, ∀ record ∈ rawRecords entityType t, keyed entityType record = true := by
    intro entityType record hrecord
    obtain ⟨e, he, hrecord⟩ := List.mem_filterMap.mp hrecord
    obtain ⟨he, htype⟩ := List.mem_filter.mp he
    obtain ⟨raw, hraw, hrecord⟩ := Option.bind_eq_some_iff.mp hrecord
    obtain ⟨record', hrecord', hagain⟩ := (hfiled e he).again hraw
    obtain rfl : record' = record := Option.some.inj (hrecord'.symm.trans hrecord)
    by_contra hnone
    have hrow := hagain ⟨timeText, [], [], fun _ _ => [], [], fun _ => false⟩ ⟨[], [], none⟩ [] [] rfl
    rw [upsertRowOf, RecordContent.batch, of_decide_eq_true htype, if_neg hnone] at hrow
    cases hrow
  rw [unkeyedOf, List.flatMap_eq_nil_iff]
  intro batch hbatch
  rw [List.map_eq_nil_iff, List.filter_eq_nil_iff]
  intro record hrecord
  rw [UploadPayload.entityRecords, hinfos, hphotos] at hbatch
  rcases List.mem_pair.mp hbatch with rfl | rfl
  · rw [hkeyed _ record hrecord]
    decide
  · rw [hkeyed _ record hrecord]
    decide

/-! ## What raw records are good for -/

variable {crypto : Crypto} {S : ServerConfig} {parse : Str → Option Instant} {s : ServerState}

/-- In every run, the raw record of a row is an object that is stored under the key of the row and with
its columns, whenever it is uploaded again as a record of its kind. -/
theorem filed_again (h : (receiver crypto S).ReachedBy (fun _ a => a.1.times.parse = parse) s)
    {e : Entry Str StoredRecord} (he : e ∈ s.db.records.rows) {raw : Str}
    (hraw : e.val.content.rawRecord = some raw) :
    ∃ record, recordOf raw = some record ∧ ∀ env origin records now, env.timeText = storedTime parse →
      upsertRowOf S.cfg env origin (e.val.content.batch records) record now =
        some ⟨e.key, e.val.content.movedTo origin, now⟩ :=
  (filed_of_reachedBy h e he).again hraw

/-- The server after the upload of a weighing of this time. -/
def afterUpload : ServerState :=
  (serve sampleCrypto sampleServer (visitAt sampleSecond) (uploadOf "2026-08-20T16:00:00Z")
    ⟨⟨.empty, .empty⟩, []⟩).2

theorem reachedBy_afterUpload : (receiver sampleCrypto sampleServer).ReachedBy
    (fun _ a => a.1.times.parse = sampleTimes) afterUpload := by
  have hempty : (receiver sampleCrypto sampleServer).ReachedBy (fun _ a => a.1.times.parse = sampleTimes)
      ⟨⟨.empty, .empty⟩, []⟩ := .start ⟨rfl, rfl⟩
  unfold afterUpload
  exact hempty.next (a := (visitAt sampleSecond, uploadOf "2026-08-20T16:00:00Z")) rfl rfl

/-- The one row after an upload, and its raw record. -/
theorem filed_again_upload : ∃ e ∈ afterUpload.db.records.rows, ∃ raw,
    e.val.content.rawRecord = some raw ∧ ∃ record, recordOf raw = some record ∧
      ∀ env origin records now, env.timeText = storedTime sampleTimes →
        upsertRowOf sampleServer.cfg env origin (e.val.content.batch records) record now =
          some ⟨e.key, e.val.content.movedTo origin, now⟩ := by
  have hrow : (afterUpload.db.records.rows.any fun e => e.val.content.rawRecord.isSome) = true := by
    decide +kernel
  obtain ⟨e, he, hraw⟩ := List.any_eq_true.mp hrow
  obtain ⟨raw, hraw⟩ := Option.isSome_iff_exists.mp hraw
  exact ⟨e, he, raw, hraw, filed_again reachedBy_afterUpload he hraw⟩

/-- A server that keeps raw records keeps the whole table in them: an upload of the raw records that goes
through on an empty table refuses none of them, and leaves the same keys with the same columns, but for
where the upload comes from. -/
theorem rebuilt (h : (receiver crypto S).ReachedBy (fun _ a => a.1.times.parse = parse) s)
    (hstore : S.cfg.storeRawRecords = true) {env : PostEnv} (htime : env.timeText = storedTime parse)
    {payload : UploadPayload} (hinfos : payload.normalizedWeightInfo = rawRecords weightInfo s.db.records)
    (hphotos : payload.weightPhotoRecords = rawRecords weightPhoto s.db.records)
    {batches : KeyedTable Str BatchRow} {db' : ReceiverDb} {accepted failed : List Str}
    (hinsert : insertPayload S.cfg env payload ⟨.empty, batches⟩ = (db', .ok (accepted, failed))) :
    failed = [] ∧ (db'.records.rows.map fun e => (e.key, e.val.content)).Perm
      (s.db.records.rows.map fun e => (e.key, e.val.content.movedTo (originOf env payload))) := by
  have hfiled := filed_of_reachedBy h
  rw [← htime] at hfiled
  obtain ⟨hrecords, -, -, hfailed⟩ := insertPayload_ok hinsert
  refine ⟨hfailed.trans (unkeyedOf_rawRecords hfiled hinfos hphotos), ?_⟩
  have hperm := perm_content_rowsOf hfiled hstore hinfos hphotos
  -- no two rows of the table have one key, so no record is stored over another one
  have hnodup : ((rowsOf S.cfg env payload).map UpsertRow.key).Nodup := by
    have hkeys := hperm.map Prod.fst
    rw [List.map_map, List.map_map] at hkeys
    exact hkeys.nodup_iff.mpr s.db.records.key_nodup
  rw [hrecords, upsertRows_eq, KeyedTable.map_rows_upsertAll_new
    (g := fun u : UpsertRow => (u.key, u.content)) (fun _ _ => rfl) (fun _ _ => List.not_mem_nil) hnodup,
    KeyedTable.rows_empty, List.map_nil, List.nil_append]
  exact hperm

/-- The upload of the raw records of a table, with the weighings under the old name of their list. -/
def rawPayload (t : RecordTable) : UploadPayload :=
  ⟨[], [], [], .null, rawRecords weightInfo t, [], rawRecords weightPhoto t⟩

theorem normalizedWeightInfo_rawPayload (t : RecordTable) :
    (rawPayload t).normalizedWeightInfo = rawRecords weightInfo t := rfl

theorem weightPhotoRecords_rawPayload (t : RecordTable) :
    (rawPayload t).weightPhotoRecords = rawRecords weightPhoto t := rfl

/-- An upload of the one raw record to an empty table. -/
theorem rebuilt_upload : ∃ db' accepted failed,
    insertPayload sampleServer.cfg (visitAt sampleSecond).times.env (rawPayload afterUpload.db.records)
        ⟨.empty, .empty⟩ = (db', .ok (accepted, failed)) ∧ afterUpload.db.records.rows.length = 1 ∧
      failed = [] ∧ (db'.records.rows.map fun e => (e.key, e.val.content)).Perm
        (afterUpload.db.records.rows.map fun e => (e.key, e.val.content.movedTo
          (originOf (visitAt sampleSecond).times.env (rawPayload afterUpload.db.records)))) := by
  have hfails : ∀ statement, (visitAt sampleSecond).times.env.fails statement = false := fun _ => rfl
  have htime : (visitAt sampleSecond).times.env.timeText = storedTime sampleTimes := rfl
  have hone : afterUpload.db.records.rows.length = 1 := by decide +kernel
  obtain ⟨db', ⟨accepted, failed⟩, hinsert⟩ := insertPayload_of_no_failure hfails sampleServer.cfg
    (rawPayload afterUpload.db.records) ⟨.empty, .empty⟩
  refine ⟨db', accepted, failed, hinsert, hone, ?_⟩
  exact rebuilt reachedBy_afterUpload rfl htime (normalizedWeightInfo_rawPayload _)
    (weightPhotoRecords_rawPayload _) hinsert

end WeighingSync.Receiver
