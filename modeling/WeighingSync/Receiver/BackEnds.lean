import WeighingSync.Common.Lockstep
import WeighingSync.Receiver.Drivers
import WeighingSync.Receiver.Retention

/-!
# The two back ends of the receiver

The same uploads and deletions by `record_key` on SQLite and on MySQL, each from empty tables. The back
ends answer alike and hold the same rows exactly as long as the columns of both take the uploaded texts or
those of neither do, the collation of MySQL tells the keys of a store and an upload apart, and no deletion
names an old record by another spelling of its key (`agree_iff`).
-/

namespace WeighingSync.Receiver

open Go

/-! ## Requests -/

/-- An upload, or a deletion by `record_key`. -/
inductive StoreRequest
  | upload (times : PostTimes) (payload : UploadPayload)
  | delete (now : Instant) (key : Str)

/-- What an upload meets on a database that fails no statement by itself. -/
def undisturbed (times : PostTimes) : PostTimes := { times with fails := fun _ => false }

theorem fails_undisturbed (times : PostTimes) (statement : TxStatement) :
    (undisturbed times).env.fails statement = false := rfl

/-- The server on a request, once it is authorised and decoded. -/
def answerOn (D : Driver) (S : ServerConfig) (db : ReceiverDb) : StoreRequest → Reply × ReceiverDb
  | .upload times payload =>
      if total payload.entityRecords = 0 then
        (.error 400 (Str.lit "records is missing or empty"), db)
      else
        match insertPayloadOn D S.cfg (undisturbed times).env payload db with
        | (db', .error _) => (.error 500 (Str.lit "database write failed"), db')
        | (db', .ok (accepted, failed)) =>
            (.json 200 (postJSON (undisturbed times).env payload accepted failed), db')
  | .delete now key =>
      let (reply, records) := deleteByKeyOn D S.cfg db.records (timeString (cutoff S now)) key
      (reply, { db with records })

/-- On SQLite these are the actions of the server, as long as it stores JSON. -/
theorem answerOn_sqlite_upload {jsonValid : Str → Bool} {S : ServerConfig} {visit : Visit}
    {payload : UploadPayload}
    (htakes : takes (sqlite jsonValid) S.cfg (undisturbed visit.times).env payload = true)
    (db : ReceiverDb) : answerOn (sqlite jsonValid) S db (.upload visit.times payload) =
      perform S { visit with times := undisturbed visit.times } db (.store (some payload)) := by
  rw [answerOn, perform]
  split_ifs
  · rfl
  · generalize hresult :
      insertPayloadOn (sqlite jsonValid) S.cfg (undisturbed visit.times).env payload db = result
    rw [insertPayloadOn_sqlite jsonValid htakes] at hresult
    subst hresult
    cases insertPayload S.cfg (undisturbed visit.times).env payload db with
    | mk db' result => cases result <;> rfl

theorem answerOn_sqlite_delete (jsonValid : Str → Bool) (S : ServerConfig) {visit : Visit}
    (hfails : visit.fails = false) (key : Str) (db : ReceiverDb) :
    answerOn (sqlite jsonValid) S db (.delete visit.now key) = perform S visit db (.deleteKey key) := by
  rw [answerOn, perform, hfails, if_neg (by decide), deleteByKeyOn_sqlite]

/-! ## Agreement -/

/-- The rows of a table, without what a back end chooses: `record_key` and the uploaded columns. -/
def held (t : RecordTable) : List (Str × RecordContent) := t.rows.map fun e => (e.key, e.val.content)

/-- Two answers are both successes or both failures, and the tables hold the same rows after them. -/
def Alike (a b : Reply × ReceiverDb) : Prop :=
  a.1.success = b.1.success ∧ held a.2.records ⊆ held b.2.records ∧
    held b.2.records ⊆ held a.2.records

instance (a b : Reply × ReceiverDb) : Decidable (Alike a b) :=
  inferInstanceAs (Decidable (_ ∧ (∀ x ∈ _, x ∈ _) ∧ ∀ x ∈ _, x ∈ _))

/-- What a back end answers to a sequence of requests, and holds after each. -/
def history (D : Driver) (S : ServerConfig) (requests : List StoreRequest) : List (Reply × ReceiverDb) :=
  trace (answerOn D S) ⟨.empty, .empty⟩ requests

/-- The back ends agree on a sequence of requests. -/
def Agree (jsonValid : Str → Bool) (collation : Collation) (S : ServerConfig)
    (requests : List StoreRequest) : Prop :=
  List.Forall₂ Alike (history (sqlite jsonValid) S requests) (history (mysql collation) S requests)

/-- A request that the columns of the back ends and the collation make no difference to. -/
def Portable (jsonValid : Str → Bool) (collation : Collation) (S : ServerConfig) (db : ReceiverDb) :
    StoreRequest → Prop
  | .upload times payload => total payload.entityRecords = 0 ∨
      (takes (sqlite jsonValid) S.cfg times.env payload = takes (mysql collation) S.cfg times.env payload ∧
        (takes (sqlite jsonValid) S.cfg times.env payload = true →
          Set.InjOn collation.sortKey {key | key ∈ db.records.keys ∨ key ∈ acceptedOf payload}))
  | .delete now key => ∀ e ∈ db.records.rows, collation.sortKey e.key = collation.sortKey key →
      Str.lt e.val.effectiveTime (timeString (cutoff S now)) = true → e.key = key

/-! ## Tables under a collation -/

variable {jsonValid : Str → Bool} {collation : Collation} {S : ServerConfig}

/-- A unique key finds a key of the table, or there is none that the collation does not tell from
it. -/
theorem storedKey_cases (D : Driver) (t : RecordTable) (key : Str) :
    (storedKey D t key ∈ t.keys ∧ D.sortKey (storedKey D t key) = D.sortKey key) ∨
      (storedKey D t key = key ∧ ∀ k ∈ t.keys, D.sortKey k ≠ D.sortKey key) := by
  rw [storedKey]
  cases hfind : t.rows.find? fun r => D.sortKey r.key = D.sortKey key with
  | none =>
      refine Or.inr ⟨rfl, fun k hk => ?_⟩
      obtain ⟨r, hr, rfl⟩ := KeyedTable.mem_keys.mp hk
      simpa using List.find?_eq_none.mp hfind r hr
  | some r =>
      refine Or.inl ⟨KeyedTable.mem_keys.mpr ⟨r, List.mem_of_find?_eq_some hfind, rfl⟩, ?_⟩
      simpa using List.find?_some hfind

/-- No two keys of a table are the same to its collation. -/
theorem injOn_upsertRowsOn {D : Driver} {t : RecordTable}
    (h : Set.InjOn D.sortKey {key | key ∈ t.keys}) (rows : List UpsertRow) :
    Set.InjOn D.sortKey {key | key ∈ (upsertRowsOn D t rows).keys} := by
  induction rows generalizing t with
  | nil => exact h
  | cons u rows ih =>
      refine ih (t := upsertRowOn D t u) ?_
      have hkeys : ∀ k, k ∈ (upsertRowOn D t u).keys ↔ k ∈ t.keys ∨ k = storedKey D t u.key :=
        fun k => KeyedTable.mem_keys_upsert
      simp only [hkeys]
      rcases storedKey_cases D t u.key with ⟨hmem, -⟩ | ⟨hsame, hother⟩
      · intro k hk k' hk' heq
        exact h (hk.elim id fun hk => hk ▸ hmem) (hk'.elim id fun hk' => hk' ▸ hmem) heq
      · rw [hsame]
        rintro k (hk | rfl) k' (hk' | rfl) heq
        · exact h hk hk' heq
        · exact absurd heq (hother k hk)
        · exact absurd heq.symm (hother k' hk')
        · rfl

/-- Keys that the collation tells apart are upserted as on SQLite. -/
theorem upsertRowsOn_of_injOn {D : Driver} {t : RecordTable} {rows : List UpsertRow}
    (h : Set.InjOn D.sortKey {key | key ∈ t.keys ∨ key ∈ rows.map UpsertRow.key}) :
    upsertRowsOn D t rows = t.upsertRows rows := by
  induction rows generalizing t with
  | nil => rfl
  | cons u rows ih =>
      have hu : u.key ∈ (u :: rows).map UpsertRow.key := List.mem_cons_self
      have hrow : upsertRowOn D t u = t.upsertRow u := by
        rw [upsertRowOn]
        rcases storedKey_cases D t u.key with ⟨hmem, hsame⟩ | ⟨hsame, -⟩
        · rw [h (Or.inl hmem) (Or.inr hu) hsame]
        · rw [hsame]
      show upsertRowsOn D (upsertRowOn D t u) rows = (t.upsertRow u).upsertRows rows
      rw [hrow]
      refine ih (h.mono fun k hk => ?_)
      rcases hk with hk | hk
      · rcases KeyedTable.mem_keys_upsert.mp hk with hk | rfl
        · exact Or.inl hk
        · exact Or.inr hu
      · exact Or.inr (List.mem_cons_of_mem _ hk)

theorem mem_held {t : RecordTable} {x : Str × RecordContent} :
    x ∈ held t ↔ ∃ e ∈ t.rows, (e.key, e.val.content) = x := List.mem_map

/-- Tables that hold the same rows have the same keys. -/
theorem keys_subset_of_held {t t' : RecordTable} (h : held t ⊆ held t') {k : Str} (hk : k ∈ t.keys) :
    k ∈ t'.keys := by
  obtain ⟨e, he, rfl⟩ := KeyedTable.mem_keys.mp hk
  obtain ⟨e', he', heq⟩ := mem_held.mp (h (mem_held.mpr ⟨e, he, rfl⟩))
  exact KeyedTable.mem_keys.mpr ⟨e', he', congrArg Prod.fst heq⟩

theorem Alike.refl (a : Reply × ReceiverDb) : Alike a a :=
  ⟨rfl, List.Subset.refl _, List.Subset.refl _⟩

/-! ## One request -/

/-- Stores of the two back ends that hold the same records: their times are texts of instants, and the
collation tells their keys apart. -/
structure Comparable (collation : Collation) (db db' : ReceiverDb) : Prop where
  same : db'.records = db.records
  timed : Timed db.records
  distinct : Set.InjOn collation.sortKey {key | key ∈ db.records.keys}

variable (S) in
/-- An upload that has records is stored if the columns take it, and fails without an effect otherwise. -/
theorem answerOn_of_total (D : Driver) (times : PostTimes) {payload : UploadPayload} (db : ReceiverDb)
    (htotal : total payload.entityRecords ≠ 0) :
    (takes D S.cfg times.env payload = true ∧
      (answerOn D S db (.upload times payload)).1.success = true ∧
      (answerOn D S db (.upload times payload)).2.records =
        upsertRowsOn D db.records (rowsOf S.cfg times.env payload)) ∨
    (takes D S.cfg times.env payload = false ∧
      (answerOn D S db (.upload times payload)).1.success = false ∧
      (answerOn D S db (.upload times payload)).2.records = db.records) := by
  rw [answerOn, if_neg htotal]
  rcases insertPayloadOn_cases D (fails_undisturbed times) S.cfg payload db with
    ⟨htakes, batches, heq⟩ | ⟨hrefused, e, heq⟩
  · rw [heq]
    exact Or.inl ⟨htakes, rfl, rfl⟩
  · rw [heq]
    exact Or.inr ⟨hrefused, rfl, rfl⟩

/-- An upload without a record is refused by both back ends. -/
theorem answerOn_of_total_eq_zero {D : Driver} {times : PostTimes} {payload : UploadPayload}
    {db : ReceiverDb} (htotal : total payload.entityRecords = 0) :
    answerOn D S db (.upload times payload) =
      (.error 400 (Str.lit "records is missing or empty"), db) := by
  rw [answerOn, if_pos htotal]

/-- Alike are the uploads that are refused by both, or that every column takes, with keys that the
collation tells apart, also from those of the store. -/
theorem alike_upload_iff {db db' : ReceiverDb} (h : Comparable collation db db') (times : PostTimes)
    (payload : UploadPayload) :
    Alike (answerOn (sqlite jsonValid) S db (.upload times payload))
        (answerOn (mysql collation) S db' (.upload times payload)) ↔
      Portable jsonValid collation S db (.upload times payload) := by
  by_cases htotal : total payload.entityRecords = 0
  · rw [answerOn_of_total_eq_zero htotal, answerOn_of_total_eq_zero htotal]
    refine ⟨fun _ => Or.inl htotal, fun _ => ⟨rfl, ?_, ?_⟩⟩ <;> rw [h.same] <;>
      exact List.Subset.refl _
  rcases answerOn_of_total S (sqlite jsonValid) times db htotal with
    ⟨htakes, hsuccess, hrecords⟩ | ⟨hrefused, hfailure, hrecords⟩ <;>
  rcases answerOn_of_total S (mysql collation) times db' htotal with
    ⟨htakes', hsuccess', hrecords'⟩ | ⟨hrefused', hfailure', hrecords'⟩
  · -- both take it
    rw [upsertRowsOn_sqlite] at hrecords
    have hkeys : ∀ key, key ∈ (answerOn (sqlite jsonValid) S db (.upload times payload)).2.records.keys ↔
        key ∈ db.records.keys ∨ key ∈ acceptedOf payload := by
      intro key
      rw [hrecords, mem_keys_upsertRows, map_key_rowsOf]
    constructor
    · -- no two keys of a table of MySQL are the same to the collation, so no two keys of either
      rintro ⟨-, hheld, -⟩
      refine Or.inr ⟨htakes.trans htakes'.symm, fun _ key hkey key' hkey' heq => ?_⟩
      have hinj := injOn_upsertRowsOn (D := mysql collation) (h.same ▸ h.distinct)
        (rowsOf S.cfg times.env payload)
      rw [← hrecords'] at hinj
      exact hinj (keys_subset_of_held hheld ((hkeys key).mpr hkey))
        (keys_subset_of_held hheld ((hkeys key').mpr hkey')) heq
    · intro hportable
      have hinj := (hportable.resolve_left htotal).2 htakes
      have hsame : (answerOn (mysql collation) S db' (.upload times payload)).2.records =
          (answerOn (sqlite jsonValid) S db (.upload times payload)).2.records := by
        rw [← map_key_rowsOf S.cfg times.env] at hinj
        rw [hrecords', hrecords, h.same]
        exact upsertRowsOn_of_injOn hinj
      refine ⟨hsuccess.trans hsuccess'.symm, ?_, ?_⟩ <;> rw [hsame] <;> exact List.Subset.refl _
  · -- one refuses what the other takes, and the replies differ
    refine ⟨fun halike => ?_, fun hportable => ?_⟩
    · have hsame := halike.1
      rw [hsuccess, hfailure'] at hsame
      cases hsame
    · have hsame := (hportable.resolve_left htotal).1
      rw [htakes, hrefused'] at hsame
      cases hsame
  · refine ⟨fun halike => ?_, fun hportable => ?_⟩
    · have hsame := halike.1
      rw [hfailure, hsuccess'] at hsame
      cases hsame
    · have hsame := (hportable.resolve_left htotal).1
      rw [hrefused, htakes'] at hsame
      cases hsame
  · -- both refuse it
    constructor
    · refine fun _ => Or.inr ⟨hrefused.trans hrefused'.symm, fun htakes => ?_⟩
      rw [hrefused] at htakes
      cases htakes
    · refine fun _ => ⟨hfailure.trans hfailure'.symm, ?_, ?_⟩ <;> rw [hrecords, hrecords', h.same] <;>
        exact List.Subset.refl _

/-- And they leave the same records. -/
theorem comparable_upload {db db' : ReceiverDb} (h : Comparable collation db db') {times : PostTimes}
    {payload : UploadPayload} (hportable : Portable jsonValid collation S db (.upload times payload)) :
    Comparable collation (answerOn (sqlite jsonValid) S db (.upload times payload)).2
      (answerOn (mysql collation) S db' (.upload times payload)).2 := by
  by_cases htotal : total payload.entityRecords = 0
  · rw [answerOn_of_total_eq_zero htotal, answerOn_of_total_eq_zero htotal]
    exact h
  obtain ⟨hsame, hinj⟩ := hportable.resolve_left htotal
  rcases answerOn_of_total S (sqlite jsonValid) times db htotal with
    ⟨htakes, -, hrecords⟩ | ⟨hrefused, -, hrecords⟩ <;>
  rcases answerOn_of_total S (mysql collation) times db' htotal with
    ⟨htakes', -, hrecords'⟩ | ⟨hrefused', -, hrecords'⟩
  · have hinj := hinj htakes
    rw [← map_key_rowsOf S.cfg times.env] at hinj
    rw [upsertRowsOn_sqlite] at hrecords
    refine ⟨?_, ?_, ?_⟩
    · rw [hrecords', hrecords, h.same]
      exact upsertRowsOn_of_injOn hinj
    · rw [hrecords]
      exact timed_upsertRows h.timed
    · simp only [hrecords, mem_keys_upsertRows]
      exact hinj
  · rw [htakes, hrefused'] at hsame
    cases hsame
  · rw [hrefused, htakes'] at hsame
    cases hsame
  · exact ⟨by rw [hrecords', hrecords, h.same], hrecords ▸ h.timed, by simpa only [hrecords] using h.distinct⟩

/-- The rows that MySQL removes are those that SQLite removes, and those that a collation does not tell
from them. -/
theorem deletableOn_mysql {t : RecordTable} (h : Timed t) {e : Entry Str StoredRecord} (he : e ∈ t.rows)
    (now : Instant) (key : Str) :
    deletableOn (mysql collation) (timeString (cutoff S now)) key e = true ↔
      collation.sortKey e.key = collation.sortKey key ∧
        Str.lt e.val.effectiveTime (timeString (cutoff S now)) = true := by
  obtain ⟨i, hi⟩ := h.effectiveTime he
  rw [deletableOn, Bool.and_eq_true, decide_eq_true_eq, hi]
  exact and_congr_right fun _ => by rw [← collation.times]; rfl

theorem deletableOn_sqlite (e : Entry Str StoredRecord) (cutoff key : Str) :
    deletableOn (sqlite jsonValid) cutoff key e = true ↔
      e.key = key ∧ Str.lt e.val.effectiveTime cutoff = true := by
  rw [deletableOn, Bool.and_eq_true, decide_eq_true_eq]
  rfl

/-- Where no row is removed under another spelling of the key, both remove the same rows. -/
theorem deleteWhere_of_portable {db db' : ReceiverDb} (h : Comparable collation db db')
    {now : Instant} {key : Str} (hportable : Portable jsonValid collation S db (.delete now key)) :
    db'.records.deleteWhere (deletableOn (mysql collation) (timeString (cutoff S now)) key) =
      db.records.deleteWhere (deletableOn (sqlite jsonValid) (timeString (cutoff S now)) key) := by
  rw [h.same]
  refine KeyedTable.deleteWhere_congr fun e he => ?_
  rw [Bool.eq_iff_iff, deletableOn_mysql h.timed he, deletableOn_sqlite]
  constructor
  · exact fun hdelete => ⟨hportable e he hdelete.1 hdelete.2, hdelete.2⟩
  · exact fun hdelete => ⟨congrArg collation.sortKey hdelete.1, hdelete.2⟩

/-- A deletion is alike if and only if it removes no row under another spelling of its key. -/
theorem alike_delete_iff {db db' : ReceiverDb} (h : Comparable collation db db') (now : Instant)
    (key : Str) :
    Alike (answerOn (sqlite jsonValid) S db (.delete now key))
        (answerOn (mysql collation) S db' (.delete now key)) ↔
      Portable jsonValid collation S db (.delete now key) := by
  constructor
  · rintro ⟨-, hheld, -⟩ e he hsort hold
    by_contra hne
    -- SQLite keeps the row, and so MySQL holds its key
    have hkept : e ∈ (answerOn (sqlite jsonValid) S db (.delete now key)).2.records.rows := by
      refine KeyedTable.mem_deleteWhere.mpr ⟨he, ?_⟩
      rw [Bool.eq_false_iff, Ne, deletableOn_sqlite]
      exact fun hdelete => hne hdelete.1
    obtain ⟨e', he', hkey⟩ := KeyedTable.mem_keys.mp
      (keys_subset_of_held hheld (KeyedTable.mem_keys.mpr ⟨e, hkept, rfl⟩))
    obtain ⟨hmem, hstays⟩ := KeyedTable.mem_deleteWhere.mp he'
    rw [h.same] at hmem
    obtain rfl := KeyedTable.eq_of_key_eq hmem he hkey
    rw [(deletableOn_mysql h.timed he now key).mpr ⟨hsort, hold⟩] at hstays
    cases hstays
  · intro hportable
    have hsame := deleteWhere_of_portable h hportable
    refine ⟨rfl, ?_, ?_⟩
    · show held (db.records.deleteWhere _) ⊆ held (db'.records.deleteWhere _)
      rw [hsame]
      exact List.Subset.refl _
    · show held (db'.records.deleteWhere _) ⊆ held (db.records.deleteWhere _)
      rw [hsame]
      exact List.Subset.refl _

theorem comparable_delete {db db' : ReceiverDb} (h : Comparable collation db db') {now : Instant}
    {key : Str} (hportable : Portable jsonValid collation S db (.delete now key)) :
    Comparable collation (answerOn (sqlite jsonValid) S db (.delete now key)).2
      (answerOn (mysql collation) S db' (.delete now key)).2 where
  same := deleteWhere_of_portable h hportable
  timed := timed_deleteWhere h.timed _
  distinct := by
    refine h.distinct.mono fun k hk => ?_
    obtain ⟨e, he, rfl⟩ := KeyedTable.mem_keys.mp hk
    exact KeyedTable.mem_keys.mpr ⟨e, (KeyedTable.mem_deleteWhere.mp he).1, rfl⟩

/-! ## Sequences of requests -/

/-- A request is taken alike exactly if it is portable, and then leaves the same records. -/
theorem alike_iff {db db' : ReceiverDb} (h : Comparable collation db db') (request : StoreRequest) :
    Alike (answerOn (sqlite jsonValid) S db request) (answerOn (mysql collation) S db' request) ↔
      Portable jsonValid collation S db request := by
  cases request with
  | upload times payload => exact alike_upload_iff h times payload
  | delete now key => exact alike_delete_iff h now key

theorem Comparable.answer {db db' : ReceiverDb} (h : Comparable collation db db')
    {request : StoreRequest} (hportable : Portable jsonValid collation S db request) :
    Comparable collation (answerOn (sqlite jsonValid) S db request).2
      (answerOn (mysql collation) S db' request).2 := by
  cases request with
  | upload times payload => exact comparable_upload h hportable
  | delete now key => exact comparable_delete h hportable

/-- The back ends agree on a sequence of requests if and only if each of them is portable in the store
in which it comes. -/
theorem agree_iff (jsonValid : Str → Bool) (collation : Collation) (S : ServerConfig)
    (requests : List StoreRequest) :
    Agree jsonValid collation S requests ↔
      Along (Portable jsonValid collation S) (answerOn (sqlite jsonValid) S) ⟨.empty, .empty⟩ requests := by
  have hempty : Comparable collation ⟨.empty, .empty⟩ ⟨.empty, .empty⟩ :=
    ⟨rfl, fun r hr => absurd hr List.not_mem_nil, fun k hk => absurd hk List.not_mem_nil⟩
  exact forall₂_trace_iff (I := Comparable collation) (fun _ _ request h => alike_iff h request)
    (fun _ _ _ h hportable => h.answer hportable) hempty requests

/-! ## Spellings -/

/-- The upload of a weighing record with this serial number. -/
def serialUpload (serial : Str) : UploadPayload where
  source := []
  database := []
  table := []
  uploadedAt := .null
  records := []
  weightInfoRecords := [[(Str.lit "serialNo", .str serial)]]
  weightPhotoRecords := []

/-- A text is JSON, for any that is not nested deeper than SQLite reads. -/
def isJSON (text : Str) : Bool := (parse text).isSome

/-- Two serial numbers that differ in case are two rows of SQLite and one row of MySQL; and a serial
number of 200 letters is stored by SQLite and refused by MySQL. -/
theorem not_agree_spelling :
    ¬ Agree isJSON foldCase sampleServer [.upload plainTimes (serialUpload (Str.lit "a1")),
      .upload plainTimes (serialUpload (Str.lit "A1"))] ∧
    ¬ Agree isJSON foldCase sampleServer
      [.upload plainTimes (serialUpload (List.replicate 200 (.char 'a')))] := by
  unfold Agree
  decide +kernel

end WeighingSync.Receiver
