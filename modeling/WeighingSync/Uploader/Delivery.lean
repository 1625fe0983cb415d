import WeighingSync.Receiver.Post
import WeighingSync.Uploader.Starvation

/-!
# Uploads of the uploader at the receiver

What C decodes of a request of A, and what A decodes of the reply of C: a column that holds a text is
read by C as A reads it, up to bytes that are no UTF-8 (`extractString_received`), and a reply is
read if and only if its JSON text is within the limit of A (`readResponse_postJSON`). A record is
confirmed by a pass when its key in A is one of the keys that C has accepted (`confirmed_syncOnce`).
-/

namespace WeighingSync.Uploader

open Go

/-! ## The records that C decodes -/

/-- What C decodes of a record. -/
def SourceRecord.received (r : SourceRecord) : Receiver.Record :=
  Json.toMap <| ((r.data.map fun f => (f.1, f.2.json)).insertionSort Json.fieldLE).map fun f =>
    (f.1.repair, f.2.repair)

/-- The record is what `fetchEntity` makes of a row under one of the two entity types. -/
structure SourceRecord.OfRow (r : SourceRecord) : Prop where
  data : ∃ row : Row, r.data = row.data
  entityType : r.entityType = weightInfo ∨ r.entityType = weightPhoto
  recordKey : r.recordKey = r.entityType ++ Str.lit ":" ++ r.pk

theorem ofRow_of_mem_windowRecords {cfg : Config} {db : SourceDb} {r : SourceRecord}
    (h : r ∈ windowRecords cfg db) : r.OfRow := by
  rcases List.mem_append.mp h with h | h
  · obtain ⟨row, -, rfl⟩ := List.mem_map.mp h
    exact ⟨⟨row, rfl⟩, Or.inl rfl, rfl⟩
  · obtain ⟨row, -, rfl⟩ := List.mem_map.mp h
    exact ⟨⟨row, rfl⟩, Or.inr rfl, rfl⟩

/-- The first of the columns that is not NULL decides, as in `extractString`. -/
def firstText (data : List (Str × Scalar)) : List String → Str
  | [] => []
  | name :: names =>
      if column data (Str.lit name) = .null then firstText data names
      else stringValue (column data (Str.lit name))

theorem wellFormed_json (v : Scalar) : v.json.WellFormed := by
  cases v with
  | int n => exact wellFormed_itoa n
  | _ => trivial

/-- C takes the text that A takes from a column, up to bytes that are no UTF-8. -/
theorem scalarText_json (v : Scalar) : Receiver.scalarText v.json.repair =
    if v = .null then none else some (stringValue v).repair := by
  cases v with
  | null => rfl
  | text s =>
      show some s.repair.trimSpace = some s.trimSpace.repair
      rw [Str.trimSpace_repair]
  | int n =>
      show some (itoa n) = some (itoa n).repair
      rw [Str.repair_eq_self_iff.mpr (valid_itoa n)]
  | bool b =>
      show some (formatBool b) = some (formatBool b).repair
      rw [Str.repair_eq_self_iff.mpr (valid_formatBool b)]

theorem column_eq_of_mem {row : Row} {name : Str} {v : Scalar} (h : (name, v) ∈ row.data) :
    column row.data name = v := by
  have hnodup : (row.data.map Prod.fst).Nodup := by
    rw [Row.data, List.map_map]
    exact row.columns_nodup
  rw [column]
  cases hfind : row.data.find? fun f => f.1 = name with
  | none =>
      have hnone := List.find?_eq_none.mp hfind (name, v) h
      simp at hnone
  | some f =>
      have hname : f.1 = name := by simpa using List.find?_some hfind
      have hf : f = (name, v) := List.inj_on_of_nodup_map hnodup (List.mem_of_find?_eq_some hfind) h hname
      rw [hf]
      rfl

theorem column_eq_null {data : List (Str × Scalar)} {name : Str} (h : ∀ v, (name, v) ∉ data) :
    column data name = .null := by
  rw [column]
  cases hfind : data.find? fun f => f.1 = name with
  | none => rfl
  | some f =>
      have hname : f.1 = name := by simpa using List.find?_some hfind
      subst hname
      exact absurd (List.mem_of_find?_eq_some hfind) (h f.2)

/-- The fields that C decodes are the columns of the row. -/
theorem lookup_received {r : SourceRecord} (hr : r.OfRow) {name : Str} {x : Json} :
    Json.lookup r.received name = some x ↔ ∃ v, (name, v) ∈ r.data ∧ v.json.repair = x := by
  obtain ⟨row, hdata⟩ := hr.data
  have hvalid : ∀ f ∈ r.data, f.1.repair = f.1 := by
    intro f hf
    rw [hdata] at hf
    obtain ⟨c, hc, rfl⟩ := List.mem_map.mp hf
    exact Str.repair_eq_self_iff.mpr (row.columns_valid c hc)
  have hnames : (r.data.map fun f => f.1.repair) = r.data.map Prod.fst :=
    List.map_congr_left hvalid
  have hnodup : (((r.data.map fun f => (f.1, f.2.json)).insertionSort Json.fieldLE).map fun f =>
      (f.1.repair, f.2.repair)).map Prod.fst |>.Nodup := by
    rw [List.map_map]
    refine (((List.perm_insertionSort Json.fieldLE _).map _).nodup_iff).mpr ?_
    rw [List.map_map]
    show (r.data.map fun f => f.1.repair).Nodup
    rw [hnames, hdata, Row.data, List.map_map]
    exact row.columns_nodup
  rw [SourceRecord.received, Json.toMap_of_nodup hnodup, Json.lookup_eq_some_iff hnodup,
    List.mem_map]
  simp only [List.mem_insertionSort, List.mem_map, exists_exists_and_eq_and, Prod.mk.injEq]
  constructor
  · rintro ⟨f, hf, hname, hx⟩
    rw [hvalid f hf] at hname
    exact ⟨f.2, hname ▸ hf, hx⟩
  · rintro ⟨v, hv, hx⟩
    exact ⟨(name, v), hv, hvalid _ hv, hx⟩

/-- C reads a text where A reads one, and the same one up to bytes that are no UTF-8. -/
theorem extractString_received {r : SourceRecord} (hr : r.OfRow) (names : List String) :
    Receiver.extractString r.received names = (firstText r.data names).repair := by
  obtain ⟨row, hdata⟩ := hr.data
  induction names with
  | nil => rfl
  | cons name names ih =>
      have htext : (Json.lookup r.received (Str.lit name)).bind Receiver.scalarText =
          if column r.data (Str.lit name) = .null then none
          else some (stringValue (column r.data (Str.lit name))).repair := by
        cases hlookup : Json.lookup r.received (Str.lit name) with
        | none =>
            have hnull : column r.data (Str.lit name) = .null := by
              apply column_eq_null
              intro v hv
              rw [(lookup_received hr).mpr ⟨v, hv, rfl⟩] at hlookup
              cases hlookup
            rw [hnull]
            rfl
        | some x =>
            obtain ⟨v, hv, rfl⟩ := (lookup_received hr).mp hlookup
            have hcolumn : column r.data (Str.lit name) = v := by
              rw [hdata] at hv ⊢
              exact column_eq_of_mem hv
            rw [hcolumn, ← scalarText_json]
            rfl
      rw [Receiver.extractString, htext, firstText]
      split_ifs with hnull
      · exact ih
      · rfl

/-! ## The payload that C decodes -/

/-- What C decodes of the request of a pass. -/
def payloadOf (cfg : Config) (x : Exchange) (pending : List SourceRecord) :
    Receiver.UploadPayload where
  source := cfg.source.repair
  database := cfg.database.repair
  table := []
  uploadedAt := .str x.uploadedAt.repair
  records := []
  weightInfoRecords :=
    (pending.filter fun r => r.entityType ≠ weightPhoto).map SourceRecord.received
  weightPhotoRecords :=
    (pending.filter fun r => r.entityType = weightPhoto).map SourceRecord.received

theorem wellFormed_dataJSON (data : List (Str × Scalar)) : (dataJSON data).WellFormed := by
  rw [dataJSON, Json.ofMap, Json.wellFormed_obj]
  intro f hf
  rw [List.mem_insertionSort, List.mem_map] at hf
  obtain ⟨g, -, rfl⟩ := hf
  exact wellFormed_json g.2

theorem wellFormed_uploadPayload (cfg : Config) (uploadedAt : Str) (pending : List SourceRecord) :
    (uploadPayload cfg uploadedAt pending).WellFormed := by
  have hrecords : ∀ name records, ∀ f ∈ omitEmptyRecords name records, f.2.WellFormed := by
    intro name records f hf
    rw [omitEmptyRecords] at hf
    split_ifs at hf
    · cases hf
    · rw [List.mem_singleton.mp hf, Json.wellFormed_arr]
      intro x hx
      obtain ⟨r, -, rfl⟩ := List.mem_map.mp hx
      exact wellFormed_dataJSON r.data
  rw [uploadPayload, Json.wellFormed_obj]
  intro f hf
  rcases List.mem_append.mp hf with hf | hf
  · rcases List.mem_append.mp hf with hf | hf
    · simp only [List.mem_cons, List.not_mem_nil, or_false] at hf
      rcases hf with rfl | rfl | rfl <;> trivial
    · exact hrecords _ _ f hf
  · exact hrecords _ _ f hf

/-- The records of a list, as C decodes them from a field that may have been left out. -/
theorem decodeRecords_omitEmpty (records : List SourceRecord) :
    Receiver.decodeRecords (if records = [] then none
      else some (Json.arr (records.map fun r => dataJSON r.data)).repair) =
      some (records.map SourceRecord.received) := by
  split_ifs with hempty
  · rw [hempty]
    rfl
  · have hobjects : (records.map fun r => dataJSON r.data).map Json.repair =
        (records.map fun r => ((r.data.map fun f => (f.1, f.2.json)).insertionSort
          Json.fieldLE).map fun f => (f.1.repair, f.2.repair)).map .obj := by
      rw [List.map_map, List.map_map]
      exact List.map_congr_left fun r _ => Json.repair_obj _
    rw [Json.repair_arr, hobjects, Receiver.decodeRecords, Json.decodeMaps_arr, Option.map_some,
      List.map_map]
    rfl

/-- A payload is decoded field by field. -/
theorem decodePayload_obj {fields : List (Str × Json)} {source database uploadedAt : Str}
    {infos photos : List Receiver.Record}
    (hsource : Json.structField fields (Str.lit "source") = some (.str source))
    (hdatabase : Json.structField fields (Str.lit "database") = some (.str database))
    (huploaded : Json.structField fields (Str.lit "uploaded_at") = some (.str uploadedAt))
    (htable : Json.structField fields (Str.lit "table") = none)
    (hrecords : Json.structField fields (Str.lit "records") = none)
    (hinfos : Receiver.decodeRecords (Json.structField fields (Str.lit "weight_info_records")) =
      some infos)
    (hphotos : Receiver.decodeRecords (Json.structField fields (Str.lit "weight_photo_records")) =
      some photos) :
    Receiver.decodePayload (.obj fields) =
      some ⟨source, database, [], .str uploadedAt, [], infos, photos⟩ := by
  rw [Receiver.decodePayload, Json.decodeObject, Option.bind_eq_bind, Option.bind_some, hsource,
    hdatabase, huploaded, htable, hrecords, hinfos, hphotos]
  rfl

/-- C decodes the request of a pass to the records of the pass. -/
theorem decodeBody_requestBody (cfg : Config) (x : Exchange) (pending : List SourceRecord) :
    Receiver.decodeBody (requestBody cfg x pending) = some (payloadOf cfg x pending) := by
  rw [Receiver.decodeBody, requestBody, parseFirst_encode (wellFormed_uploadPayload _ _ _),
    Option.bind_some, uploadPayload, payloadOf]
  generalize pending.filter (fun r => r.entityType ≠ weightPhoto) = infos
  generalize pending.filter (fun r => r.entityType = weightPhoto) = photos
  have hinfos := decodeRecords_omitEmpty infos
  have hphotos := decodeRecords_omitEmpty photos
  have hname : ∀ name : String, (Str.lit name).repair = Str.lit name := fun name =>
    Str.repair_eq_self_iff.mpr (Str.valid_lit name)
  rw [omitEmptyRecords, omitEmptyRecords, Json.repair_obj]
  by_cases hi : infos = []
  · by_cases hp : photos = []
    · simp only [hi, hp, if_true, List.map_nil, List.map_cons, List.append_nil, hname]
        at hinfos hphotos ⊢
      exact decodePayload_obj rfl rfl rfl rfl rfl hinfos hphotos
    · simp only [hi, hp, if_true, if_false, List.map_nil, List.map_cons, List.append_nil,
        List.cons_append, List.nil_append, hname] at hinfos hphotos ⊢
      exact decodePayload_obj rfl rfl rfl rfl rfl hinfos hphotos
  · by_cases hp : photos = []
    · simp only [hi, hp, if_true, if_false, List.map_nil, List.map_cons, List.append_nil,
        List.cons_append, List.nil_append, hname] at hinfos hphotos ⊢
      exact decodePayload_obj rfl rfl rfl rfl rfl hinfos hphotos
    · simp only [hi, hp, if_false, List.map_nil, List.map_cons, List.cons_append, List.nil_append,
        hname] at hinfos hphotos ⊢
      exact decodePayload_obj rfl rfl rfl rfl rfl hinfos hphotos

/-! ## The keys that C derives -/

/-- C derives a key for the record. -/
def SourceRecord.keyedAtC (r : SourceRecord) : Bool := Receiver.keyed r.entityType r.received

/-- The key under which C stores the record. -/
def SourceRecord.cKey (r : SourceRecord) : Str := Receiver.recordKey r.entityType r.received

/-- The records of a pass in the order in which C handles them. -/
def inOrder (pending : List SourceRecord) : List SourceRecord :=
  (pending.filter fun r => r.entityType ≠ weightPhoto) ++
    pending.filter fun r => r.entityType = weightPhoto

theorem mem_inOrder {pending : List SourceRecord} {r : SourceRecord} :
    r ∈ inOrder pending ↔ r ∈ pending := by
  simp only [inOrder, List.mem_append, List.mem_filter, decide_not, Bool.not_eq_true',
    decide_eq_false_iff_not, decide_eq_true_eq, ← and_or_left]
  exact and_iff_left (em' _)

theorem normalizedWeightInfo_payloadOf (cfg : Config) (x : Exchange) (pending : List SourceRecord) :
    (payloadOf cfg x pending).normalizedWeightInfo =
      (pending.filter fun r => r.entityType ≠ weightPhoto).map SourceRecord.received := by
  rw [Receiver.UploadPayload.normalizedWeightInfo]
  split_ifs with hlength
  · rfl
  · exact (List.eq_nil_of_length_eq_zero (Nat.eq_zero_of_not_pos hlength)).symm

/-- C files the records of a pass under the entity types they have in A. -/
theorem entityRecords_payloadOf (cfg : Config) (x : Exchange) (pending : List SourceRecord) :
    (payloadOf cfg x pending).entityRecords =
      [⟨weightInfo, Str.lit "tbl_weightInfo",
          (pending.filter fun r => r.entityType ≠ weightPhoto).map SourceRecord.received⟩,
        ⟨weightPhoto, Str.lit "tbl_weightPhoto",
          (pending.filter fun r => r.entityType = weightPhoto).map SourceRecord.received⟩] := by
  rw [Receiver.UploadPayload.entityRecords, normalizedWeightInfo_payloadOf]
  rfl

theorem total_payloadOf (cfg : Config) (x : Exchange) (pending : List SourceRecord) :
    Receiver.total (payloadOf cfg x pending).entityRecords = (inOrder pending).length := by
  rw [entityRecords_payloadOf, inOrder]
  simp [Receiver.total]

/-- Every record of a pass is in the batch of its entity type. -/
theorem exists_batch (cfg : Config) (x : Exchange) {pending : List SourceRecord}
    (h : ∀ r ∈ pending, r.OfRow) {r : SourceRecord} (hr : r ∈ pending) :
    ∃ batch ∈ (payloadOf cfg x pending).entityRecords, batch.entityType = r.entityType ∧
      r.received ∈ batch.records := by
  rw [entityRecords_payloadOf]
  by_cases hphoto : r.entityType = weightPhoto
  · refine ⟨_, List.mem_cons_of_mem _ List.mem_cons_self, hphoto.symm, ?_⟩
    exact List.mem_map_of_mem (List.mem_filter.mpr ⟨hr, decide_eq_true hphoto⟩)
  · refine ⟨_, List.mem_cons_self, ((h r hr).entityType.resolve_right hphoto).symm, ?_⟩
    exact List.mem_map_of_mem (List.mem_filter.mpr ⟨hr, decide_eq_true hphoto⟩)

theorem acceptedOf_payloadOf (cfg : Config) (x : Exchange) {pending : List SourceRecord}
    (h : ∀ r ∈ pending, r.OfRow) : Receiver.acceptedOf (payloadOf cfg x pending) =
      ((inOrder pending).filter SourceRecord.keyedAtC).map SourceRecord.cKey := by
  have hpart : ∀ entityType (part : List SourceRecord), (∀ r ∈ part, r.entityType = entityType) →
      ((part.map SourceRecord.received).filter (Receiver.keyed entityType)).map
        (Receiver.recordKey entityType) =
      (part.filter SourceRecord.keyedAtC).map SourceRecord.cKey := by
    intro entityType part hpart
    rw [List.filter_map, List.map_map]
    have hkeyed : part.filter (Receiver.keyed entityType ∘ SourceRecord.received) =
        part.filter SourceRecord.keyedAtC := by
      refine List.filter_congr fun r hr => ?_
      rw [SourceRecord.keyedAtC, hpart r hr]
      rfl
    rw [hkeyed]
    refine List.map_congr_left fun r hr => ?_
    rw [SourceRecord.cKey, hpart r (List.mem_of_mem_filter hr)]
    rfl
  rw [Receiver.acceptedOf, entityRecords_payloadOf, List.flatMap_cons, List.flatMap_cons,
    List.flatMap_nil, List.append_nil, inOrder, List.filter_append, List.map_append]
  refine congrArg₂ _ (hpart _ _ fun r hr => ?_) (hpart _ _ fun r hr => ?_)
  · obtain ⟨hr, hne⟩ := List.mem_filter.mp hr
    exact (h r hr).entityType.resolve_right (by simpa using hne)
  · simpa using (List.mem_filter.mp hr).2

theorem mem_acceptedOf_payloadOf {cfg : Config} {x : Exchange} {pending : List SourceRecord}
    (h : ∀ r ∈ pending, r.OfRow) {key : Str} :
    key ∈ Receiver.acceptedOf (payloadOf cfg x pending) ↔
      ∃ r ∈ pending, r.keyedAtC = true ∧ r.cKey = key := by
  rw [acceptedOf_payloadOf cfg x h]
  simp only [List.mem_map, List.mem_filter, mem_inOrder, and_assoc]

/-- The keys of C are valid UTF-8. -/
theorem valid_cKey {r : SourceRecord} (hr : r.OfRow) : r.cKey.Valid := by
  have hfirst : ∀ candidates, (Receiver.firstKey r.received candidates).2.Valid := by
    intro candidates
    induction candidates with
    | nil => exact fun _ h => (nomatch h)
    | cons c candidates ih =>
        rw [Receiver.firstKey]
        split_ifs
        · show (Receiver.extractString r.received c.2).Valid
          rw [extractString_received hr, ← Str.repair_eq_self_iff, Str.repair_repair]
        · exact ih
  have htype : r.entityType.Valid := by
    rcases hr.entityType with h | h <;> rw [h] <;> exact Str.valid_lit _
  rw [SourceRecord.cKey, Receiver.recordKey, Str.valid_append, Str.valid_append]
  exact ⟨⟨htype, Str.valid_lit _⟩, hfirst _⟩

/-! ## The reply that A decodes -/

/-- A decodes the keys and serial numbers of a reply of C. -/
theorem decodeResponse_postJSON (env : Receiver.PostEnv) (payload : Receiver.UploadPayload)
    (accepted failed : List Str) :
    decodeResponse (Receiver.postJSON env payload accepted failed).repair = some {
      acceptedRecordKeys := accepted.map Str.repair
      failedRecordKeys := failed.map Str.repair
      accepted := (Receiver.acceptedWeightInfoSerials payload accepted).map Str.repair
      failed := [] } := by
  have hstrings : ∀ xs : List Str,
      (Receiver.stringsJSON xs).repair = .arr ((xs.map Str.repair).map .str) := by
    intro xs
    rw [Receiver.stringsJSON, Json.repair_arr, List.map_map, List.map_map]
    rfl
  have hname : ∀ name : String, (Str.lit name).repair = Str.lit name := fun name =>
    Str.repair_eq_self_iff.mpr (Str.valid_lit name)
  rw [Receiver.postJSON, Json.repair_obj, Receiver.postFields]
  simp only [List.map_cons, List.map_nil, hstrings, hname]
  show (do
    let acceptedRecordKeys ← Json.decodeStrings (some (.arr ((accepted.map Str.repair).map .str)))
    let failedRecordKeys ← Json.decodeStrings (some (.arr ((failed.map Str.repair).map .str)))
    let acceptedSerials ← Json.decodeStrings (some (.arr
      (((Receiver.acceptedWeightInfoSerials payload accepted).map Str.repair).map .str)))
    let failedSerials ← Json.decodeStrings (some (.arr ([].map .str)))
    return UploadResponse.mk acceptedRecordKeys failedRecordKeys acceptedSerials failedSerials) = _
  simp only [Json.decodeStrings_arr]
  rfl

/-- What a client receives of a JSON object is not blank. -/
theorem trimSpace_received_ne_nil (status : ℕ) (fields : List (Str × Json)) :
    (Reply.json status (.obj fields)).received.trimSpace ≠ [] := by
  have hopen : (Rune.char '\x7b') ∈ (Reply.json status (.obj fields)).received := by
    rw [Reply.received, Reply.json, Json.encode, List.cons_append, limitReader, if_pos (by decide)]
    exact List.mem_cons_self
  exact Str.trimSpace_ne_nil hopen (by decide)

/-- A reads a confirmation of C whose JSON text is within its limit, and no other. -/
theorem readResponse_postJSON (env : Receiver.PostEnv) (payload : Receiver.UploadPayload)
    (accepted failed : List Str) :
    readResponse (.json 200 (Receiver.postJSON env payload accepted failed)) =
      if Receiver.replySize env accepted (Receiver.acceptedWeightInfoSerials payload accepted) failed
          payload.normalizedWeightInfo.length payload.weightPhotoRecords.length ≤ maxReply then
        .ok {
          acceptedRecordKeys := accepted.map Str.repair
          failedRecordKeys := failed.map Str.repair
          accepted := (Receiver.acceptedWeightInfoSerials payload accepted).map Str.repair
          failed := [] }
      else .error .decode := by
  have hparse : parse (Reply.json 200 (Receiver.postJSON env payload accepted failed)).received =
      if (Receiver.postJSON env payload accepted failed).encode.size ≤ maxReply then
        some (Receiver.postJSON env payload accepted failed).repair
      else none :=
    parse_received_json 200 (Receiver.wellFormed_postJSON env payload accepted failed)
  rw [Receiver.size_postJSON] at hparse
  have hblank : (Reply.json 200 (Receiver.postJSON env payload accepted failed)).received.trimSpace ≠ [] :=
    trimSpace_received_ne_nil 200 _
  have hstatus : ¬ ((Reply.json 200 (Receiver.postJSON env payload accepted failed)).status = 204 ∨
      (Reply.json 200 (Receiver.postJSON env payload accepted failed)).received.trimSpace = []) :=
    fun h => h.elim (fun h => absurd h (show ¬ 200 = 204 by decide)) hblank
  rw [readResponse, if_neg (show ¬ (Reply.json 200 _).success = false from Bool.noConfusion),
    if_neg hstatus, hparse]
  split_ifs with hfits
  · rw [Option.bind_some, decodeResponse_postJSON]
  · rfl

end WeighingSync.Uploader
