import WeighingSync.Receiver.Post

/-!
# What becomes of the records of an upload

A payload has three arrays: `records`, which older clients send, `weight_info_records` and
`weight_photo_records`. C is to store or to report every element of all three. It takes the elements
of `records` into account only when there are none in `weight_info_records`
(`accountedFor_iff`).
-/

namespace WeighingSync.Receiver

open Go

/-- The elements of the three arrays of a payload, each with the kind of record its array holds. -/
def UploadPayload.elements (p : UploadPayload) : List (Str × Record) :=
  p.records.map (Prod.mk weightInfo) ++ p.weightInfoRecords.map (Prod.mk weightInfo) ++
    p.weightPhotoRecords.map (Prod.mk weightPhoto)

/-- The key that an element is upserted under. -/
def elementKey (e : Str × Record) : Str := recordKey e.1 e.2

/-- The elements of a payload that have a key, and those that have none. -/
def UploadPayload.keyedElements (p : UploadPayload) : List (Str × Record) :=
  p.elements.filter fun e => keyed e.1 e.2
def UploadPayload.unkeyedElements (p : UploadPayload) : List (Str × Record) :=
  p.elements.filter fun e => !keyed e.1 e.2

/-- The row is what C makes of an element. -/
def UpsertRow.OfElement (cfg : Config) (env : PostEnv) (p : UploadPayload) (u : UpsertRow)
    (e : Str × Record) : Prop :=
  ∃ sourceTable records now, upsertRowOf cfg env (originOf env p) ⟨e.1, sourceTable, records⟩ e.2 now =
    some u

/-- The elements of a payload are accounted for, one by one: those with a key are upserted under it
and their keys are listed as accepted; for each of the others an entry is listed as failed; and if
none is, every element is stored. -/
structure AccountedFor (cfg : Config) (env : PostEnv) (p : UploadPayload) (t t' : RecordTable)
    (accepted failed : List Str) : Prop where
  upserted : ∃ rows, t' = t.upsertRows rows ∧
    (rows.map UpsertRow.key).Perm (p.keyedElements.map elementKey) ∧
    ∀ e ∈ p.keyedElements, ∃ u ∈ rows, u.OfElement cfg env p e
  listed : accepted.Perm (p.keyedElements.map elementKey)
  reported : failed.Perm (p.unkeyedElements.map fun _ => [])
  complete : failed.isEmpty = true → ∀ e ∈ p.elements, elementKey e ∈ t'.keys

/-- C accounts for every record of a request that it has answered: what its reply lists accounts for
the elements of the payload. -/
def AccountsForAll (cfg : Config) (env : PostEnv) (refusal : Option Str) (body : Str) (db : ReceiverDb)
    (p : UploadPayload) : Prop :=
  ∃ accepted failed,
    (handlePost cfg env refusal body db).1 = .json 200 (postJSON env p accepted failed) ∧
    insertPayload cfg env p db = ((handlePost cfg env refusal body db).2, .ok (accepted, failed)) ∧
    AccountedFor cfg env p db.records (handlePost cfg env refusal body db).2.records accepted failed

/-! ## The elements that reach the tables -/

/-- The elements of the batches that C stores. -/
def batchElements (p : UploadPayload) : List (Str × Record) :=
  p.entityRecords.flatMap fun batch => batch.records.map (Prod.mk batch.entityType)

/-- No element is left out exactly when one of the two arrays of weighing records is empty. -/
theorem length_elements_eq_iff {p : UploadPayload} :
    p.elements.length = total p.entityRecords ↔ p.records = [] ∨ p.weightInfoRecords = [] := by
  have htotal : total p.entityRecords =
      p.normalizedWeightInfo.length + p.weightPhotoRecords.length := by
    simp [total, UploadPayload.entityRecords]
  have helements : p.elements.length =
      p.records.length + p.weightInfoRecords.length + p.weightPhotoRecords.length := by
    simp [UploadPayload.elements, Nat.add_assoc]
  rw [htotal, helements, UploadPayload.normalizedWeightInfo, ← List.length_eq_zero_iff,
    ← List.length_eq_zero_iff]
  split_ifs <;> omega

/-- Where one of these arrays is empty, the elements are those of the batches. -/
theorem batchElements_eq {p : UploadPayload} (h : p.records = [] ∨ p.weightInfoRecords = []) :
    batchElements p = p.elements := by
  have hinfo : p.normalizedWeightInfo = p.records ++ p.weightInfoRecords := by
    rw [UploadPayload.normalizedWeightInfo]
    rcases h with h | h
    · rw [h, List.nil_append]
      split_ifs with hlen
      · rfl
      · exact (List.eq_nil_of_length_eq_zero (by omega)).symm
    · rw [h, List.append_nil]
      rfl
  simp [batchElements, UploadPayload.elements, UploadPayload.entityRecords, hinfo]

theorem acceptedOf_eq (p : UploadPayload) :
    acceptedOf p = ((batchElements p).filter fun e => keyed e.1 e.2).map elementKey := by
  rw [acceptedOf, batchElements, List.filter_flatMap, List.map_flatMap]
  refine List.flatMap_congr fun batch _ => ?_
  rw [List.filter_map, List.map_map]
  rfl

theorem unkeyedOf_eq (p : UploadPayload) :
    unkeyedOf p = ((batchElements p).filter fun e => !keyed e.1 e.2).map fun _ => [] := by
  rw [unkeyedOf, batchElements, List.filter_flatMap, List.map_flatMap]
  refine List.flatMap_congr fun batch _ => ?_
  rw [List.filter_map, List.map_map]
  rfl

/-- Every keyed element of the batches is stored as a row. -/
theorem exists_row_ofElement (cfg : Config) (env : PostEnv) {p : UploadPayload} {e : Str × Record}
    (he : e ∈ batchElements p) (hkeyed : keyed e.1 e.2 = true) :
    ∃ u ∈ rowsOf cfg env p, u.OfElement cfg env p e := by
  obtain ⟨batch, hbatch, helement⟩ := List.mem_flatMap.mp he
  obtain ⟨record, hrecord, rfl⟩ := List.mem_map.mp helement
  rw [← map_fst_stamped env batch] at hrecord
  obtain ⟨⟨record, now⟩, hstamped, rfl⟩ := List.mem_map.mp hrecord
  have hrow : ∃ u, upsertRowOf cfg env (originOf env p) batch record now = some u := by
    rw [upsertRowOf, if_pos hkeyed]
    exact ⟨_, rfl⟩
  obtain ⟨u, hu⟩ := hrow
  refine ⟨u, ?_, batch.sourceTable, batch.records, now, hu⟩
  exact List.mem_flatMap.mpr ⟨batch, hbatch, List.mem_filterMap.mpr ⟨_, hstamped, hu⟩⟩

/-! ## When every element is accounted for -/

/-- What is listed counts the elements. -/
theorem AccountedFor.length_elements {cfg : Config} {env : PostEnv} {p : UploadPayload}
    {t t' : RecordTable} {accepted failed : List Str}
    (h : AccountedFor cfg env p t t' accepted failed) :
    accepted.length + failed.length = p.elements.length := by
  have hsplit := List.length_eq_length_filter_add (l := p.elements) fun e => keyed e.1 e.2
  rw [h.listed.length_eq, h.reported.length_eq, List.length_map, List.length_map,
    UploadPayload.keyedElements, UploadPayload.unkeyedElements, hsplit]

/-- A request that is answered 200 is stored, and the reply lists its keys. -/
theorem stored_of_status {cfg : Config} {env : PostEnv} {refusal : Option Str} {body : Str}
    {db : ReceiverDb} {p : UploadPayload} (hbody : decodeBody body = some p)
    (hok : (handlePost cfg env refusal body db).1.status = 200) :
    ∃ db', insertPayload cfg env p db = (db', .ok (acceptedOf p, unkeyedOf p)) ∧
      handlePost cfg env refusal body db =
        (.json 200 (postJSON env p (acceptedOf p) (unkeyedOf p)), db') := by
  rcases handlePost_cases cfg env refusal body db with ⟨hfail, -⟩ | ⟨p', db', hbody', -, hinsert, hreply⟩
  · rw [Reply.success, hok] at hfail
    cases hfail
  · rw [hbody] at hbody'
    cases hbody'
    exact ⟨db', hinsert, hreply⟩

/-- What the reply lists accounts for the elements of the batches only. -/
theorem length_elements_of_accountsForAll {cfg : Config} {env : PostEnv} {refusal : Option Str}
    {body : Str} {db : ReceiverDb} {p : UploadPayload} (hbody : decodeBody body = some p)
    (hok : (handlePost cfg env refusal body db).1.status = 200)
    (h : AccountsForAll cfg env refusal body db p) : p.elements.length = total p.entityRecords := by
  obtain ⟨accepted, failed, -, hinsert, haccounted⟩ := h
  obtain ⟨db', hstored, -⟩ := stored_of_status hbody hok
  rw [hinsert] at hstored
  cases hstored
  rw [← haccounted.length_elements, length_accepted_add_unkeyed]

/-- The elements of a payload without one of the arrays of weighing records are accounted for. -/
theorem accountedFor_of_stored {cfg : Config} {env : PostEnv} {p : UploadPayload} {db db' : ReceiverDb}
    (hinsert : insertPayload cfg env p db = (db', .ok (acceptedOf p, unkeyedOf p)))
    (h : p.records = [] ∨ p.weightInfoRecords = []) :
    AccountedFor cfg env p db.records db'.records (acceptedOf p) (unkeyedOf p) := by
  obtain ⟨htable, -, -, -⟩ := insertPayload_ok hinsert
  have haccepted : acceptedOf p = p.keyedElements.map elementKey := by
    rw [acceptedOf_eq, batchElements_eq h, UploadPayload.keyedElements]
  have hfailed : unkeyedOf p = p.unkeyedElements.map fun _ => [] := by
    rw [unkeyedOf_eq, batchElements_eq h, UploadPayload.unkeyedElements]
  refine ⟨⟨rowsOf cfg env p, htable, ?_, ?_⟩, ?_, ?_, ?_⟩
  · rw [map_key_rowsOf, haccepted]
  · intro e he
    obtain ⟨helement, hkeyed⟩ := List.mem_filter.mp he
    rw [← batchElements_eq h] at helement
    exact exists_row_ofElement cfg env helement hkeyed
  · rw [haccepted]
  · rw [hfailed]
  · -- nothing is listed as failed, so every element has a key
    intro hnone e he
    rw [hfailed, List.isEmpty_map, List.isEmpty_iff, UploadPayload.unkeyedElements,
      List.filter_eq_nil_iff] at hnone
    have hkeyed : keyed e.1 e.2 = true := by simpa using hnone e he
    rw [htable, mem_keys_upsertRows, map_key_rowsOf, haccepted]
    exact Or.inr (List.mem_map_of_mem (List.mem_filter.mpr ⟨he, hkeyed⟩))

/-- C accounts for all records of a request that it answers 200 if and only if the request does not
fill both arrays of weighing records. -/
theorem accountsForAll_iff {cfg : Config} {env : PostEnv} {refusal : Option Str} {body : Str}
    {db : ReceiverDb} {p : UploadPayload} (hbody : decodeBody body = some p)
    (hok : (handlePost cfg env refusal body db).1.status = 200) :
    AccountsForAll cfg env refusal body db p ↔ p.records = [] ∨ p.weightInfoRecords = [] := by
  constructor
  · intro h
    exact length_elements_eq_iff.mp (length_elements_of_accountsForAll hbody hok h)
  · intro h
    obtain ⟨db', hinsert, hreply⟩ := stored_of_status hbody hok
    refine ⟨acceptedOf p, unkeyedOf p, by rw [hreply], by rw [hreply]; exact hinsert, ?_⟩
    rw [hreply]
    exact accountedFor_of_stored hinsert h

/-! ## A request that fills both arrays -/

/-- A weighing record that has a serial number only. -/
def serialRecord (serial : String) : Json := .obj [(Str.lit "serialNo", .str (Str.lit serial))]

/-- A request that fills both arrays of weighing records. -/
def bothArrays : Str :=
  (Json.obj [(Str.lit "records", .arr [serialRecord "a"]),
    (Str.lit "weight_info_records", .arr [serialRecord "b"])]).encode

/-- A request that fills one of them. -/
def oneArray : Str := (Json.obj [(Str.lit "records", .arr [serialRecord "a"])]).encode

/-- C with its default limits. -/
def plainConfig : Config := ⟨16777216, 100, 1000, true, false, false, 168, limits_default, min_age_default⟩

/-- A request that meets no failure. -/
def plainEnv : PostEnv where
  timeText := some
  requestID := Str.lit "6f1e8a52-33c1-4b0e-9d2a-5a3f0c8b7e11"
  receivedAt := Str.lit "2026-01-01T00:00:00Z"
  stamp := fun _ _ => Str.lit "2026-01-01T00:00:00Z"
  repliedAt := Str.lit "2026-01-01T00:00:00Z"
  fails := fun _ => false

theorem accountsForAll_iff_oneArray : ∃ p, decodeBody oneArray = some p ∧
    (AccountsForAll plainConfig plainEnv none oneArray ⟨.empty, .empty⟩ p ↔
      p.records = [] ∨ p.weightInfoRecords = []) := by
  have hsome : (decodeBody oneArray).isSome = true := by decide +kernel
  obtain ⟨p, hp⟩ := Option.isSome_iff_exists.mp hsome
  exact ⟨p, hp, accountsForAll_iff hp (by decide +kernel)⟩

/-- The reply says that every record was accepted, and the record in `records` is not stored. -/
theorem not_accountsForAll_bothArrays :
    (handlePost plainConfig plainEnv none bothArrays ⟨.empty, .empty⟩).1.status = 200 ∧
      ∃ p, decodeBody bothArrays = some p ∧ p.records.length = 1 ∧ unkeyedOf p = [] ∧
        (handlePost plainConfig plainEnv none bothArrays ⟨.empty, .empty⟩).2.records.keys =
          [Str.lit "weight_info:b"] ∧
        ¬ AccountsForAll plainConfig plainEnv none bothArrays ⟨.empty, .empty⟩ p := by
  have hok : (handlePost plainConfig plainEnv none bothArrays ⟨.empty, .empty⟩).1.status = 200 := by
    decide +kernel
  have hsizes : (decodeBody bothArrays).map (fun p =>
      (p.records.length, p.weightInfoRecords.length, unkeyedOf p)) = some (1, 1, []) := by
    decide +kernel
  obtain ⟨p, hp, hlengths⟩ := Option.map_eq_some_iff.mp hsizes
  obtain ⟨hrecords, hinfo, hunkeyed⟩ : p.records.length = 1 ∧ p.weightInfoRecords.length = 1 ∧
      unkeyedOf p = [] := by simpa using hlengths
  refine ⟨hok, p, hp, hrecords, hunkeyed, by decide +kernel, fun h => ?_⟩
  have hempty := length_elements_eq_iff.mp (length_elements_of_accountsForAll hp hok h)
  rw [← List.length_eq_zero_iff, ← List.length_eq_zero_iff] at hempty
  omega

end WeighingSync.Receiver
