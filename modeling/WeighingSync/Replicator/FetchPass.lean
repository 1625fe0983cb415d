import WeighingSync.Go.JsonNumbers
import WeighingSync.Go.JsonRaw
import WeighingSync.Receiver.Retention
import WeighingSync.Replicator.Outbox

/-!
# A fetch pass

`fetchAndStore` and `doJSON` of `cmd/replicator/main.go` on the reply of C: B reads at most 1 MiB of
it, decodes the records, their raw records as text, and stores them one by one until one is refused.
`fst_fetchAndStore` says what a pass stores of a page: its records up to the first that is refused if
the reply fits, and nothing of it otherwise. Every pass over an unchanging table reads the same page, so a
record is reached if it is so stored or B had it before (`replicatesAll_iff`).
-/

namespace WeighingSync.Replicator

open Go Receiver

/-! ## What B decodes -/

/-- The record with undecodable bytes replaced in its fields, as JSON carries them. -/
def CRecord.repair (r : CRecord) : CRecord where
  id := r.id
  recordKey := r.recordKey.repair
  entityType := r.entityType.repair
  keyType := r.keyType.repair
  serialNo := r.serialNo.repair
  plateNo := r.plateNo.repair
  sourceTime := r.sourceTime.repair
  source := r.source.repair
  database := r.database.repair
  table := r.table.repair
  uploadedAt := r.uploadedAt.repair
  ingestedAt := r.ingestedAt.repair
  record := r.record

/-- The fields of a `cRecord`; its raw record is the text as it stands. -/
def decodeFields (field : String → Option Str) : Option CRecord := do
  let id ← Json.decodeInt64 ((field "id").bind parse)
  let recordKey ← Json.decodeString ((field "record_key").bind parse)
  let entityType ← Json.decodeString ((field "entity_type").bind parse)
  let keyType ← Json.decodeString ((field "key_type").bind parse)
  let serialNo ← Json.decodeString ((field "serialNo").bind parse)
  let plateNo ← Json.decodeString ((field "plateNo").bind parse)
  let sourceTime ← Json.decodeString ((field "source_time").bind parse)
  let source ← Json.decodeString ((field "source").bind parse)
  let database ← Json.decodeString ((field "database").bind parse)
  let table ← Json.decodeString ((field "table").bind parse)
  let uploadedAt ← Json.decodeString ((field "uploaded_at").bind parse)
  let ingestedAt ← Json.decodeString ((field "ingested_at").bind parse)
  some ⟨id, recordKey, entityType, keyType, serialNo, plateNo, sourceTime, source, database, table,
    uploadedAt, ingestedAt, (field "record").getD []⟩

/-- A `cRecord`. -/
def decodeCRecord (text : Str) : Option CRecord :=
  (fieldTexts text).bind fun fields => decodeFields fun name => textField fields (Str.lit name)

/-- The names of the fields of an entry. -/
def itemNames : List String :=
  ["database", "entity_type", "id", "ingested_at", "key_type", "plateNo", "record", "record_key",
    "serialNo", "source", "source_time", "table", "uploaded_at"]

theorem namesField_itemNames : ∀ a ∈ itemNames, ∀ b ∈ itemNames,
    Json.namesField (Str.lit a) (Str.lit b) = decide (a = b) := by
  decide

theorem decodeString_text (s : Str) :
    Json.decodeString ((some (Json.str s).encode).bind parse) = some s.repair := by
  have hparse : parse (Json.str s).encode = some (.str s.repair) := parse_encode trivial
  rw [Option.bind_some, hparse]
  rfl

theorem decodeString_optional (o : Option Str) :
    Json.decodeString ((o.map fun s => (Json.str s).encode).bind parse) = some (o.getD []).repair := by
  cases o with
  | none => rfl
  | some s => exact decodeString_text s

theorem decodeInt64_natText {n : ℕ} (h : n < 2 ^ 63) :
    Json.decodeInt64 ((some (Json.num (natText n)).encode).bind parse) = some (n : ℤ) := by
  have hparse : parse (Json.num (natText n)).encode = some (.num (natText n)) :=
    parse_encode (j := .num (natText n)) (wellFormed_itoa (Int.ofNat n))
  rw [Option.bind_some, hparse]
  exact atoi_natText h

/-- What B decodes of an entry of the reply. -/
theorem decodeCRecord_json {i : PageItem} (hid : i.id < 2 ^ 63) (hwf : i.json.WellFormed) :
    decodeCRecord i.json.encode = some (cRecordOf i).repair := by
  have hfields := fieldTexts_encode hwf []
  rw [List.append_nil] at hfields
  have hnames := namesField_itemNames
  simp only [itemNames, List.forall_mem_cons, List.not_mem_nil, false_implies, implies_true, and_true] at hnames
  rw [decodeCRecord, PageItem.json, hfields, Option.bind_some]
  simp only [optionalField, List.map_append, List.map_cons, List.map_nil, List.map_map,
    Function.comp_def, Str.repair_eq_self_iff.mpr (Str.valid_lit _)]
  rw [decodeFields]
  simp only [textField_append, textField_cons, textField_nil, textField_toList, hnames, decide_true,
    decide_false, if_true, String.reduceEq, Bool.false_eq_true, if_false, Option.none_or,
    Option.or_none, Option.or_some, Option.getD_none, decodeInt64_natText hid, decodeString_text,
    decodeString_optional]
  rfl

/-- A `queryResponse`. -/
def decodeResponse (body : Str) : Option (List CRecord) :=
  (parse body).bind fun _ => (fieldTexts body).bind fun fields =>
    match textField fields (Str.lit "records") with
    | none => some []
    | some text => (elementTexts text).bind fun texts => texts.mapM decodeCRecord

/-! ## The pass -/

/-- Why a pass ends early. -/
inductive FetchError
  | status (cause : Str)
  | decode
  | identity (id : ℤ) (recordKey : Str)
  | noRaw (recordKey : Str)
  | store (recordKey : Str)
  deriving DecidableEq, Repr

/-- `doJSON` with a destination, on the reply that arrives; a reply without a body leaves the
destination as it was. -/
def doJSON {α : Type} (decode : Str → Option α) (destination : α) (reply : Reply) :
    Except FetchError α :=
  if !reply.success then .error (.status (limitReader 1000 reply.received.trimSpace))
  else if reply.received = [] then .ok destination
  else
    match decode reply.received with
    | none => .error .decode
    | some decoded => .ok decoded

section

variable (env : StoreEnv) (cfg : Config) (now : ℤ)

/-- The loop of `fetchAndStore`, with its errors. -/
def storeRecords : List CRecord → ReplicatorDb → ReplicatorDb × Option FetchError
  | [], db => (db, none)
  | r :: rs, db =>
      if r.id ≤ 0 ∨ r.recordKey.trimSpace = [] then (db, some (.identity r.id r.recordKey))
      else if r.record = [] ∨ r.record = Str.lit "null" ∨ parse r.record = none then
        (db, some (.noRaw r.recordKey))
      else
        match storeRecord env cfg now r db with
        | some db' => storeRecords rs db'
        | none => (db, some (.store r.recordKey))

/-- `fetchAndStore`, on the reply of C. -/
def fetchAndStore (reply : Reply) (db : ReplicatorDb) : ReplicatorDb × Option FetchError :=
  match doJSON decodeResponse [] reply with
  | .error e => (db, some e)
  | .ok records => storeRecords env cfg now records db

/-- What the loop stores does not depend on how its errors are told apart. -/
theorem fst_storeRecords (records : List CRecord) (db : ReplicatorDb) :
    (storeRecords env cfg now records db).1 = storePage env cfg now records db := by
  induction records generalizing db with
  | nil => rfl
  | cons r rs ih =>
      rw [storeRecords, storePage]
      by_cases hidentity : r.id ≤ 0 ∨ r.recordKey.trimSpace = []
      · have hrefused : r.acceptable = false := by
          rw [CRecord.acceptable]
          rcases hidentity with hid | hkey
          · simp [hid]
          · simp [hkey]
        rw [if_pos hidentity, if_neg (by simp [hrefused])]
      · rw [if_neg hidentity]
        by_cases hraw : r.record = [] ∨ r.record = Str.lit "null" ∨ parse r.record = none
        · have hrefused : r.acceptable = false := by
            rw [CRecord.acceptable]
            rcases hraw with hraw | hraw | hraw <;> simp [hraw]
          rw [if_pos hraw, if_neg (by simp [hrefused])]
        · push Not at hidentity hraw
          have haccepted : r.acceptable = true := by
            rw [CRecord.acceptable]
            simp [hidentity, hraw, Option.isSome_iff_ne_none]
          rw [if_neg (by simp [hraw]), if_pos haccepted]
          cases storeRecord env cfg now r db with
          | none => rfl
          | some db' => exact ih db'

/-- The loop stores the records up to the first that is refused. -/
theorem storePage_takeWhile (records : List CRecord) (db : ReplicatorDb) :
    storePage env cfg now records db =
      storePage env cfg now (records.takeWhile fun r => Storable r) db := by
  induction records generalizing db with
  | nil => rfl
  | cons r rs ih =>
      by_cases hr : Storable r
      · obtain ⟨db', hdb'⟩ : ∃ db', storeRecord env cfg now r db = some db' := storeRecord_isSome hr db
        rw [List.takeWhile_cons_of_pos (by simpa using hr), storePage, if_pos hr.1, storePage, if_pos hr.1,
          hdb']
        exact ih db'
      · rw [List.takeWhile_cons_of_neg (by simpa using hr), storePage, storePage]
        split_ifs with haccepted
        · have hnone : storeRecord env cfg now r db = none := by
            have hobject : (parse r.record).bind Json.decodeObject = none := by
              rw [← Option.not_isSome_iff_eq_none]
              exact fun hsome => hr ⟨haccepted, hsome⟩
            rw [storeRecord, upsertBusinessRecord, hobject]
            rfl
          rw [hnone]
        · rfl

end

/-! ## Records that are present -/

/-- B has a row for a record among the replicated records and in the business table of its entity
type. -/
def Present (env : StoreEnv) (b : ReplicatorDb) (r : CRecord) : Prop :=
  env.collate r.recordKey ∈ b.replicated.keys ∧ env.collate r.recordKey ∈ (b.business r.entity).keys

instance (env : StoreEnv) (b : ReplicatorDb) (r : CRecord) : Decidable (Present env b r) :=
  inferInstanceAs (Decidable (_ ∧ _))

section

variable {env : StoreEnv} {cfg : Config} {now : ℤ} {r : CRecord} {b b' : ReplicatorDb}

/-- A record that is stored is present. -/
theorem present_storeRecord (h : storeRecord env cfg now r b = some b') : Present env b' r := by
  obtain ⟨values, -, hreplicated, hbusiness, -⟩ := exists_stored env h
  rw [Present, hreplicated, hbusiness, if_pos Iff.rfl]
  exact ⟨KeyedTable.mem_keys_upsert.mpr (Or.inr rfl), KeyedTable.mem_keys_upsert.mpr (Or.inr rfl)⟩

/-- Storing a record takes no other away. -/
theorem Present.mono_storeRecord {r₀ : CRecord} (hpresent : Present env b r₀)
    (h : storeRecord env cfg now r b = some b') : Present env b' r₀ := by
  obtain ⟨values, -, hreplicated, hbusiness, -⟩ := exists_stored env h
  rw [Present, hreplicated, hbusiness]
  refine ⟨KeyedTable.mem_keys_upsert.mpr (Or.inl hpresent.1), ?_⟩
  by_cases htable : r₀.entity = Str.lit "weight_photo" ↔ r.entity = Str.lit "weight_photo"
  · rw [if_pos htable]
    exact KeyedTable.mem_keys_upsert.mpr (Or.inl hpresent.2)
  · rw [if_neg htable]
    exact hpresent.2

theorem Present.mono_storePage {r₀ : CRecord} (page : List CRecord) (hpresent : Present env b r₀) :
    Present env (storePage env cfg now page b) r₀ := by
  induction page generalizing b with
  | nil => exact hpresent
  | cons r page ih =>
      rw [storePage]
      split_ifs
      · cases hstore : storeRecord env cfg now r b with
        | none => exact hpresent
        | some b' => exact ih (hpresent.mono_storeRecord hstore)
      · exact hpresent

/-- After a page of records that are not refused all of them are present. -/
theorem present_storePage {page : List CRecord} (hpage : ∀ r ∈ page, Storable r) (hr : r ∈ page) :
    Present env (storePage env cfg now page b) r := by
  induction page generalizing b with
  | nil => exact absurd hr List.not_mem_nil
  | cons r' page ih =>
      obtain ⟨hstorable, hpage⟩ := List.forall_mem_cons.mp hpage
      obtain ⟨b', hstore⟩ : ∃ b', storeRecord env cfg now r' b = some b' := storeRecord_isSome hstorable b
      rw [storePage, if_pos hstorable.1, hstore]
      rcases List.mem_cons.mp hr with rfl | hr
      · exact (present_storeRecord hstore).mono_storePage page
      · exact ih hpage hr

end

/-! ## The reply -/

/-- C's answer to B's query. -/
def answer (S : ServerConfig) (visit : Visit) (cfg : Config) (db : ReceiverDb) : Reply :=
  (perform S visit db (.query
    (queryFilter S.cfg (fun text => (visit.times.parse text).map timeString) (fetchQuery cfg))
    (shouldReturnRaw (fetchQuery cfg "include_raw") S.cfg.returnRawRecords))).1

/-- The rows that B's query selects. -/
def pageRows (S : ServerConfig) (cfg : Config) (db : ReceiverDb) : List (Entry Str StoredRecord) :=
  window newestFirst (pageSize cfg S.cfg) db.records.rows

/-- The records of the reply, as JSON carries them. -/
def pageRecords (S : ServerConfig) (visit : Visit) (cfg : Config) (db : ReceiverDb) : List CRecord :=
  (pageRows S cfg db).map fun e => (received visit.floatText e).repair

/-- The JSON of the reply. -/
def pageJSON (S : ServerConfig) (visit : Visit) (cfg : Config) (db : ReceiverDb) : Json :=
  queryJSON ((pageRows S cfg db).map (pageItem visit.floatText true)) (fetchFilter S.cfg cfg).limit 0

/-- What a pass stores of the reply: the records before the first that B refuses, and none of a reply that
is too long for B. -/
def passRecords (S : ServerConfig) (visit : Visit) (cfg : Config) (db : ReceiverDb) : List CRecord :=
  if (pageJSON S visit cfg db).encode.size ≤ maxReply then
    (pageRecords S visit cfg db).takeWhile fun r => Storable r
  else []

section

variable {S : ServerConfig} {visit : Visit} {cfg : Config} {db : ReceiverDb}

/-- A query that succeeds is answered with the page. -/
theorem answer_eq (h : (answer S visit cfg db).status = 200) :
    answer S visit cfg db = .json 200 (pageJSON S visit cfg db) := by
  rw [answer, queryFilter_fetchQuery, shouldReturnRaw_fetchQuery, perform] at h ⊢
  split_ifs at h ⊢
  · cases h
  · rw [pageJSON, pageRows, pageOf, queryRecords_fetchFilter]
    rfl

/-- Numbers that are printed as JSON numbers make a raw record well formed. -/
theorem wellFormed_rawJSON {floatText : Str → Option Str}
    (hfloat : ∀ literal t, floatText literal = some t → (Json.num t).WellFormed) (text : Str) :
    (rawJSON floatText text).WellFormed := by
  unfold rawJSON
  split
  · next j hj =>
    obtain ⟨value, -, hmap⟩ := Option.bind_eq_some_iff.mp hj
    exact Json.wellFormed_of_mapNumbers hfloat hmap
  · trivial

theorem wellFormed_natText (n : ℕ) : (Json.num (natText n)).WellFormed := wellFormed_itoa (Int.ofNat n)

theorem wellFormed_optionalField (name : String) (s : Option Str) :
    ∀ f ∈ optionalField name s, f.2.WellFormed := by
  intro f hf
  obtain ⟨t, -, rfl⟩ := List.mem_map.mp hf
  trivial

theorem wellFormed_pageItem
    (hfloat : ∀ literal t, visit.floatText literal = some t → (Json.num t).WellFormed)
    (e : Entry Str StoredRecord) : (pageItem visit.floatText true e).json.WellFormed := by
  rw [PageItem.json, Json.wellFormed_obj]
  have hrecord : ∀ f ∈ (pageItem visit.floatText true e).record.toList.map
      fun j => (Str.lit "record", j), f.2.WellFormed := by
    intro f hf
    obtain ⟨j, hj, rfl⟩ := List.mem_map.mp hf
    obtain ⟨text, -, rfl⟩ := Option.map_eq_some_iff.mp (Option.mem_toList.mp hj)
    exact wellFormed_rawJSON hfloat text
  simp only [List.forall_mem_append, List.forall_mem_cons, List.not_mem_nil, false_implies, implies_true,
    and_true]
  exact ⟨⟨⟨⟨⟨⟨⟨⟨⟨trivial, trivial, wellFormed_natText _, trivial, trivial⟩,
    wellFormed_optionalField _ _⟩, hrecord⟩, trivial⟩, wellFormed_optionalField _ _⟩, trivial⟩,
    wellFormed_optionalField _ _⟩, trivial⟩, wellFormed_optionalField _ _⟩

theorem wellFormed_queryJSON {page : List PageItem} (h : ∀ i ∈ page, i.json.WellFormed)
    (limit offset : ℤ) : (queryJSON page limit offset).WellFormed := by
  rw [queryJSON, Json.wellFormed_obj]
  simp only [List.forall_mem_cons, List.not_mem_nil, false_implies, implies_true, and_true]
  refine ⟨wellFormed_natText _, wellFormed_itoa limit, wellFormed_itoa offset, ?_⟩
  rw [Json.wellFormed_arr]
  intro j hj
  obtain ⟨i, hi, rfl⟩ := List.mem_map.mp hj
  exact h i hi

/-- B decodes a page whose JSON is within its limit, and nothing of a longer one. -/
theorem decodeResponse_received {page : List PageItem} {limit offset : ℤ}
    (hwf : ∀ i ∈ page, i.json.WellFormed) (hid : ∀ i ∈ page, i.id < 2 ^ 63) :
    decodeResponse (Reply.json 200 (queryJSON page limit offset)).received =
      if (queryJSON page limit offset).encode.size ≤ maxReply then
        some (page.map fun i => (cRecordOf i).repair)
      else none := by
  have hall := wellFormed_queryJSON hwf limit offset
  rw [queryJSON] at hall ⊢
  have hparse := parse_received_json 200 hall
  rw [decodeResponse]
  split_ifs with hfits
  · rw [if_pos hfits] at hparse
    have hreceived := limitReader_append hfits [.char '\n']
    have hrecords : (Json.arr (page.map PageItem.json)).WellFormed := by
      rw [Json.wellFormed_arr]
      intro j hj
      obtain ⟨i, hi, rfl⟩ := List.mem_map.mp hj
      exact hwf i hi
    have hitems : ((page.map PageItem.json).map Json.encode).mapM decodeCRecord =
        some (page.map fun i => (cRecordOf i).repair) := by
      rw [List.map_map, List.mapM_map]
      exact mapM_some_of_forall fun i hi => decodeCRecord_json (hid i hi) (hwf i hi)
    have hname : Json.namesField (Str.lit "records") (Str.lit "records") = true := by decide
    rw [hparse, Option.bind_some, Reply.received, Reply.json, hreceived,
      fieldTexts_encode hall, Option.bind_some]
    simp only [List.map_cons, List.map_nil, Str.repair_eq_self_iff.mpr (Str.valid_lit _),
      textField_cons, textField_nil, hname, if_true, Option.or_some, Option.getD_none,
      Option.some_or, elementTexts_encode hrecords, Option.bind_some]
    exact hitems
  · rw [hparse, if_neg hfits, Option.bind_none]

/-- A JSON object is a reply that is not empty. -/
theorem doJSON_json {α : Type} (decode : Str → Option α) (destination : α) (fields : List (Str × Json)) :
    doJSON decode destination (.json 200 (.obj fields)) =
      match decode (Reply.json 200 (.obj fields)).received with
      | none => .error .decode
      | some decoded => .ok decoded := by
  have hsuccess : (Reply.json 200 (.obj fields)).success = true := rfl
  have hbody : (Reply.json 200 (.obj fields)).received ≠ [] := by
    have hbrace : (Rune.char '\x7b').size ≤ maxReply := by decide
    rw [Reply.received, Reply.json, Json.encode, List.cons_append, limitReader, if_pos hbrace]
    exact List.cons_ne_nil _ _
  rw [doJSON, hsuccess, if_neg (by decide), if_neg hbody]

/-- A pass stores these records. -/
theorem fst_fetchAndStore (env : StoreEnv) (now : ℤ) (b : ReplicatorDb)
    (hfloat : ∀ literal t, visit.floatText literal = some t → (Json.num t).WellFormed)
    (hid : ∀ e ∈ db.records.rows, e.id < 2 ^ 63) (hok : (answer S visit cfg db).status = 200) :
    (fetchAndStore env cfg now (answer S visit cfg db) b).1 =
      storePage env cfg now (passRecords S visit cfg db) b := by
  have hdecode : decodeResponse (Reply.json 200 (pageJSON S visit cfg db)).received =
      if (pageJSON S visit cfg db).encode.size ≤ maxReply then
        some (pageRecords S visit cfg db)
      else none := by
    rw [pageJSON, decodeResponse_received, List.map_map]
    · rfl
    · intro i hi
      obtain ⟨e, -, rfl⟩ := List.mem_map.mp hi
      exact wellFormed_pageItem hfloat e
    · intro i hi
      obtain ⟨e, he, rfl⟩ := List.mem_map.mp hi
      exact hid e (mem_of_mem_window he)
  rw [answer_eq hok, fetchAndStore, passRecords, pageJSON, queryJSON, doJSON_json, ← queryJSON, ← pageJSON,
    hdecode]
  split_ifs
  · exact (fst_storeRecords env cfg now _ b).trans (storePage_takeWhile env cfg now _ b)
  · rfl

/-- A record with a positive id, a key that is not blank and a raw JSON object. -/
def Usable (r : CRecord) : Prop :=
  0 < r.id ∧ r.recordKey.trimSpace ≠ [] ∧ ∃ fields, parse r.record = some (.obj fields)

/-- B refuses no such record. -/
theorem Usable.storable {r : CRecord} (h : Usable r) : Storable r := by
  obtain ⟨hid, hkey, fields, hfields⟩ := h
  have hempty : r.record ≠ [] := by
    intro hnil
    rw [hnil] at hfields
    cases hfields
  have hnull : r.record ≠ Str.lit "null" := by
    intro hlit
    have hparse : parse (Str.lit "null") = some .null := parse_encode (j := .null) trivial
    rw [hlit, hparse] at hfields
    cases hfields
  refine ⟨?_, ?_⟩
  · simp [CRecord.acceptable, hid, hkey, hempty, hnull, hfields]
  · rw [hfields]
    rfl

/-- A fetch pass over a page that B can read stores its page up to the first record that B refuses:
every record with a positive id, a key that is not blank and a raw JSON object is present after it,
where the records before it on the page are such records too. -/
theorem present_of_fetchAndStore (env : StoreEnv) (now : ℤ) (b : ReplicatorDb)
    (hfloat : ∀ literal t, visit.floatText literal = some t → (Json.num t).WellFormed)
    (hid : ∀ e ∈ db.records.rows, e.id < 2 ^ 63) (hok : (answer S visit cfg db).status = 200)
    (hfits : (pageJSON S visit cfg db).encode.size ≤ maxReply) {before after : List CRecord}
    {r : CRecord} (hpage : pageRecords S visit cfg db = before ++ r :: after)
    (hbefore : ∀ r' ∈ before, Usable r') (hr : Usable r) :
    Present env (fetchAndStore env cfg now (answer S visit cfg db) b).1 r := by
  rw [fst_fetchAndStore env now b hfloat hid hok, passRecords, if_pos hfits]
  apply present_storePage
  · intro r' hr'
    have hstorable := List.mem_takeWhile_imp hr'
    exact of_decide_eq_true hstorable
  · have hprefix : ∀ r' ∈ before, decide (Storable r') = true := fun r' hr' =>
      decide_eq_true (hbefore r' hr').storable
    rw [hpage, List.takeWhile_append_of_pos hprefix, List.takeWhile_cons_of_pos (by simpa using hr.storable)]
    exact List.mem_append_right _ List.mem_cons_self

/-! ## Passes over an unchanging table -/

theorem storable_passRecords {r : CRecord} (hr : r ∈ passRecords S visit cfg db) : Storable r := by
  rw [passRecords] at hr
  split_ifs at hr
  · have hstorable := List.mem_takeWhile_imp hr
    exact of_decide_eq_true hstorable
  · cases hr

/-- The records depend on nothing of a request but how numbers are printed. -/
theorem passRecords_congr {visit' : Visit} (h : visit'.floatText = visit.floatText) :
    passRecords S visit' cfg db = passRecords S visit cfg db := by
  have hjson : pageJSON S visit' cfg db = pageJSON S visit cfg db := by
    rw [pageJSON, h, ← pageJSON]
  have hrecords : pageRecords S visit' cfg db = pageRecords S visit cfg db := by
    rw [pageRecords, h, ← pageRecords]
  rw [passRecords, hjson, hrecords, ← passRecords]

/-- Fetch passes over one content of C, each with what its request meets and the clock reading of B. -/
def fetchPasses (S : ServerConfig) (env : StoreEnv) (cfg : Config) (db : ReceiverDb)
    (passes : List (Visit × ℤ)) (b : ReplicatorDb) : ReplicatorDb :=
  passes.foldl (fun b p => (fetchAndStore env cfg p.2 (answer S p.1 cfg db) b).1) b

/-- However many passes run, and at least one does, B holds what it held and the records of one pass. -/
theorem mem_keys_fetchPasses {env : StoreEnv}
    (hfloat : ∀ literal t, visit.floatText literal = some t → (Json.num t).WellFormed)
    (hid : ∀ e ∈ db.records.rows, e.id < 2 ^ 63) {passes : List (Visit × ℤ)}
    (hpasses : ∀ p ∈ passes, p.1.floatText = visit.floatText ∧ (answer S p.1 cfg db).status = 200)
    (hne : passes ≠ []) (b : ReplicatorDb) {k : Str} :
    k ∈ (fetchPasses S env cfg db passes b).replicated.keys ↔
      k ∈ b.replicated.keys ∨ ∃ r ∈ passRecords S visit cfg db, env.collate r.recordKey = k := by
  induction passes generalizing b with
  | nil => exact absurd rfl hne
  | cons p passes ih =>
      obtain ⟨⟨hsame, hok⟩, hrest⟩ := List.forall_mem_cons.mp hpasses
      have hpass : k ∈ (fetchAndStore env cfg p.2 (answer S p.1 cfg db) b).1.replicated.keys ↔
          k ∈ b.replicated.keys ∨ ∃ r ∈ passRecords S visit cfg db, env.collate r.recordKey = k := by
        rw [fst_fetchAndStore env p.2 b (by rwa [hsame]) hid hok, passRecords_congr hsame]
        exact mem_keys_storePage (fun r => storable_passRecords) b
      cases passes with
      | nil => exact hpass
      | cons p' passes =>
          refine (ih hrest (List.cons_ne_nil _ _) _).trans ?_
          rw [hpass, or_assoc, or_self]

/-- With C unchanging, and every request answered with 200, at least as many passes as C has records bring
every record to B exactly when the key of each was in B before, or MySQL takes it for one of the records
that a pass stores: those of the first page before the first that B refuses, if the reply is within
1 MiB. -/
theorem replicatesAll_iff (env : StoreEnv) (b : ReplicatorDb)
    (hfloat : ∀ literal t, visit.floatText literal = some t → (Json.num t).WellFormed)
    (hid : ∀ e ∈ db.records.rows, e.id < 2 ^ 63) {passes : List (Visit × ℤ)}
    (hpasses : ∀ p ∈ passes, p.1.floatText = visit.floatText ∧ (answer S p.1 cfg db).status = 200)
    (hn : db.records.rows.length ≤ passes.length) :
    (∀ e ∈ db.records.rows, env.collate e.key ∈ (fetchPasses S env cfg db passes b).replicated.keys) ↔
      ∀ e ∈ db.records.rows, env.collate e.key ∈ b.replicated.keys ∨
        ∃ r ∈ passRecords S visit cfg db, env.collate r.recordKey = env.collate e.key := by
  refine forall₂_congr fun e he => ?_
  have hne : passes ≠ [] := by
    rintro rfl
    exact absurd he (List.eq_nil_of_length_eq_zero (Nat.le_zero.mp hn) ▸ List.not_mem_nil)
  exact mem_keys_fetchPasses hfloat hid hpasses hne b

end

/-! ## A page with a record that B refuses -/

instance (o : Option Json) : Decidable (∃ fields, o = some (.obj fields)) :=
  match o with
  | some (.obj fields) => isTrue ⟨fields, rfl⟩
  | none | some .null | some (.bool _) | some (.num _) | some (.str _) | some (.arr _) =>
      isFalse (by simp)

instance (r : CRecord) : Decidable (Usable r) := inferInstanceAs (Decidable (_ ∧ _ ∧ _))

/-- A replicator that fetches two records at a time. -/
def twoRecordConfig : Config := ⟨2, false, by decide, by decide⟩

/-- Numbers that print as they are written. -/
def literalText (literal : Str) : Option Str :=
  if validNumber literal = true ∧ ∀ r ∈ literal, isNumberRune r = true then some literal else none

theorem wellFormed_literalText (literal t : Str) (h : literalText literal = some t) :
    (Json.num t).WellFormed := by
  unfold literalText at h
  split_ifs at h with hwf
  cases h
  exact hwf

def pageVisit : Visit := { visitAt sampleSecond with floatText := literalText }

theorem present_of_fetchAndStore_twoRecords :
    ∃ r₁ r₂, pageRecords sampleServer pageVisit twoRecordConfig ⟨twoRecords, .empty⟩ = [r₁, r₂] ∧
      Present exactEnv (fetchAndStore exactEnv twoRecordConfig 0
        (answer sampleServer pageVisit twoRecordConfig ⟨twoRecords, .empty⟩) emptyDb).1 r₂ := by
  obtain ⟨r₁, r₂, hpage⟩ := List.length_eq_two.mp (show (pageRecords sampleServer pageVisit
    twoRecordConfig ⟨twoRecords, .empty⟩).length = 2 by decide +kernel)
  have husable : ∀ r ∈ pageRecords sampleServer pageVisit twoRecordConfig ⟨twoRecords, .empty⟩,
      Usable r := by decide +kernel
  have hid : ∀ e ∈ twoRecords.rows, e.id < 2 ^ 63 := by decide +kernel
  rw [hpage, List.forall_mem_cons, List.forall_mem_singleton] at husable
  have hsplit : pageRecords sampleServer pageVisit twoRecordConfig ⟨twoRecords, .empty⟩ =
      [r₁] ++ r₂ :: [] := hpage
  exact ⟨r₁, r₂, hpage, present_of_fetchAndStore exactEnv 0 emptyDb wellFormed_literalText hid
    (by decide +kernel) (by decide +kernel) hsplit (List.forall_mem_singleton.mpr husable.1)
    husable.2⟩

/-- C with the two records. -/
def twoRecordsAtC : ReceiverDb := ⟨twoRecords, .empty⟩

theorem replicatesAll_iff_twoRecords :
    (∀ e ∈ twoRecordsAtC.records.rows, exactEnv.collate e.key ∈ (fetchPasses sampleServer exactEnv
        oneRecordConfig twoRecordsAtC [(pageVisit, 0), (pageVisit, 0)] emptyDb).replicated.keys) ↔
      ∀ e ∈ twoRecordsAtC.records.rows, exactEnv.collate e.key ∈ emptyDb.replicated.keys ∨
        ∃ r ∈ passRecords sampleServer pageVisit oneRecordConfig twoRecordsAtC,
          exactEnv.collate r.recordKey = exactEnv.collate e.key := by
  have hok : (answer sampleServer pageVisit oneRecordConfig twoRecordsAtC).status = 200 := by
    decide +kernel
  have hpasses : ∀ p ∈ [(pageVisit, (0 : ℤ)), (pageVisit, 0)], p.1.floatText = pageVisit.floatText ∧
      (answer sampleServer p.1 oneRecordConfig twoRecordsAtC).status = 200 := by
    intro p hp
    simp only [List.mem_cons, List.not_mem_nil, or_false, or_self] at hp
    subst hp
    exact ⟨rfl, hok⟩
  exact replicatesAll_iff exactEnv emptyDb wellFormed_literalText (by decide +kernel) hpasses
    (by decide +kernel)

/-- Two passes of one record each over two records, both with raw records, leave the older one out. -/
theorem not_replicatesAll_twoRecords :
    (∀ e ∈ twoRecordsAtC.records.rows, e.val.content.rawRecord.isSome = true) ∧
      twoRecordsAtC.records.rows.length ≤ 2 ∧
      (answer sampleServer pageVisit oneRecordConfig twoRecordsAtC).status = 200 ∧
      ¬ ∀ e ∈ twoRecordsAtC.records.rows, exactEnv.collate e.key ∈ (fetchPasses sampleServer exactEnv
        oneRecordConfig twoRecordsAtC [(pageVisit, 0), (pageVisit, 0)] emptyDb).replicated.keys := by
  decide +kernel

/-- Two records of C, the newer one without its raw record. -/
def mixedRecords : RecordTable :=
  let bare := serialUpload "b" "2026-01-02T00:00:00Z"
  RecordTable.upsertRows KeyedTable.empty [serialUpload "a" "2026-01-01T00:00:00Z",
    { bare with content := { bare.content with rawRecord := none } }]

/-- The older record does not get past the newer one, which has no raw record. -/
theorem not_present_mixedRecords :
    (answer sampleServer pageVisit twoRecordConfig ⟨mixedRecords, .empty⟩).status = 200 ∧
      ∃ r ∈ pageRecords sampleServer pageVisit twoRecordConfig ⟨mixedRecords, .empty⟩, Usable r ∧
        ¬ Present exactEnv (fetchAndStore exactEnv twoRecordConfig 0
          (answer sampleServer pageVisit twoRecordConfig ⟨mixedRecords, .empty⟩) emptyDb).1 r := by
  decide +kernel

end WeighingSync.Replicator
