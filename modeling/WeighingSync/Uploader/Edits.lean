import Mathlib
import WeighingSync.Receiver.Delete
import WeighingSync.Uploader.Agreement

/-!
# Edits after the confirmation

The state store of A knows rows by their keys, not by their content. A row that is edited once its
key is confirmed, or while it is on its way, is left out of every later pass, and a pass that has
nothing else to do reports that nothing is left. So C mirrors what such a pass has read as long as no
edit gives new data to a key that is confirmed or on its way (`reachesC`).
-/

namespace WeighingSync.Uploader

open Go

/-! ## Passes in steps -/

/-- Where A is in a pass: it reads the weighing records and then the photos, posts the pending ones,
and appends to the state file what is acknowledged; or it has reported that nothing is unconfirmed
of what it has read. -/
inductive Phase
  | idle
  | reading (infos : List SourceRecord)
  | posting (pending : List SourceRecord)
  | confirming (accepted : List SourceRecord)
  | reported (fetched : List SourceRecord)

/-- The source, A and C. -/
structure Deployment where
  source : SourceDb
  store : StateStore
  receiver : Receiver.ReceiverDb
  phase : Phase

/-- What may happen: an edit of a row, or the next step of A. -/
inductive Action
  | edit (photo : Bool) (i : ℕ) (row : Row)
  | readInfos
  | readPhotos
  | post (link : Link)
  | append (acceptedAt : Str) (room : Option ℕ)

/-- The settings of A, and those of C that decide what it stores. -/
structure Setup where
  cfg : Config
  ccfg : Receiver.Config
  timeText : Str → Option Str

/-- A row is replaced by another one; both satisfy the pending predicate. -/
def SourceTable.edit (t : SourceTable) (i : ℕ) (row : Row) : Option SourceTable :=
  match t.rows[i]? with
  | none => none
  | some old => if t.pending old && t.pending row then some { t with rows := t.rows.set i row } else none

namespace Setup

variable (S : Setup)

/-- The connection to C as it is. -/
def connect (s : Deployment) (l : Link) : Link :=
  { l with
    ccfg := S.ccfg
    env := { l.env with timeText := S.timeText }
    db := s.receiver }

/-- The two queries of `fetchAll`. -/
def fetchInfos (t : SourceTable) : Except FetchError (List SourceRecord) :=
  fetchEntity S.cfg.batchSize t weightInfo S.cfg.infoTable S.cfg.infoPrimaryKey S.cfg.infoSerialColumn
def fetchPhotos (t : SourceTable) : Except FetchError (List SourceRecord) :=
  fetchEntity S.cfg.batchSize t weightPhoto S.cfg.photoTable S.cfg.photoPrimaryKey
    S.cfg.photoSerialColumn

/-- A begins a pass. -/
def readInfos (s : Deployment) : Deployment :=
  match S.fetchInfos s.source.info with
  | .error _ => { s with phase := .idle }
  | .ok infos => { s with phase := .reading infos }

/-- A has read both tables. -/
def afterReading (store : StateStore) (fetched : List SourceRecord) : Phase :=
  if pendingOf store fetched = [] then .reported fetched else .posting (pendingOf store fetched)

/-- What A makes of the reply to its request. -/
def afterPost (l : Link) (pending : List SourceRecord) : Phase :=
  match post l.exchange.send (requestBody S.cfg l.exchange pending) with
  | .error _ => .idle
  | .ok response => .confirming (acknowledged pending response)

/-- One step. C commits every request. -/
def step (s : Deployment) : Action → Option Deployment
  | .edit false i row =>
      (s.source.info.edit i row).map fun t => { s with source := { s.source with info := t } }
  | .edit true i row =>
      (s.source.photo.edit i row).map fun t => { s with source := { s.source with photo := t } }
  | .readInfos =>
      match s.phase with
      | .idle | .reported _ => some (S.readInfos s)
      | _ => none
  | .readPhotos =>
      match s.phase with
      | .reading infos =>
          match S.fetchPhotos s.source.photo with
          | .error _ => some { s with phase := .idle }
          | .ok photos => some { s with phase := afterReading s.store (infos ++ photos) }
      | _ => none
  | .post link =>
      match s.phase with
      | .posting pending =>
          let l := S.connect s link
          if l.Commits S.cfg pending then
            some { s with
              receiver := (l.answer (requestBody S.cfg l.exchange pending)).2
              phase := S.afterPost l pending }
          else none
      | _ => none
  | .append acceptedAt room =>
      match s.phase with
      | .confirming accepted =>
          some { s with
            store := (s.store.append (accepted.map (SourceRecord.entry acceptedAt)) room).1
            phase := .idle }
      | _ => none

/-- The runs from an empty state file, with any source and whatever C holds. -/
def passes : System Deployment Action where
  init s := s.store = ⟨[], []⟩ ∧ s.phase = .idle
  step := S.step

end Setup

/-! ## What C mirrors -/

/-- The columns that C has stored for a record are those that it makes of its data. -/
def StoredAs (S : Setup) (content : Receiver.RecordContent) (r : SourceRecord) : Prop :=
  ∃ (env : Receiver.PostEnv) (origin : Receiver.UploadOrigin) (batch : Receiver.EntityBatch)
    (now : Str) (u : Receiver.UpsertRow), env.timeText = S.timeText ∧ batch.entityType = r.entityType ∧
      Receiver.upsertRowOf S.ccfg env origin batch r.received now = some u ∧ u.content = content

/-- C holds a record under its key, with its data. -/
def Mirrored (S : Setup) (t : Receiver.RecordTable) (r : SourceRecord) : Prop :=
  ∃ e ∈ t.rows, e.key = r.cKey ∧ StoredAs S e.val.content r

/-- When A has reported that nothing is unconfirmed, C mirrors every record that it has read. -/
def ReachesC (S : Setup) (s : Deployment) : Prop :=
  ∀ fetched, s.phase = .reported fetched → ∀ r ∈ fetched, Mirrored S s.receiver.records r

/-! ## Edits that leave confirmed keys alone -/

/-- The key of a record in the state store. -/
def SourceRecord.storeKey (r : SourceRecord) : Str := stateKey r.entityType r.pk

/-- The records that are on their way. -/
def Phase.inFlight : Phase → List SourceRecord
  | .idle | .reported _ => []
  | .reading infos => infos
  | .posting pending => pending
  | .confirming accepted => accepted

/-- A and C derive one key from every record, and no two records have one key. -/
def PlainKeys (records : List SourceRecord) : Prop :=
  (∀ r ∈ records, r.keyedAtC = true ∧ r.cKey = r.recordKey) ∧
    ∀ r ∈ records, ∀ r' ∈ records, r.storeKey = r'.storeKey → r = r'

instance (records : List SourceRecord) : Decidable (PlainKeys records) :=
  inferInstanceAs (Decidable (_ ∧ _))

/-- The key of a record is confirmed, or on its way. -/
def Taken (s : Deployment) (r : SourceRecord) : Prop :=
  r.confirmedIn s.store = true ∨ r.storeKey ∈ s.phase.inFlight.map SourceRecord.storeKey

instance (s : Deployment) (r : SourceRecord) : Decidable (Taken s r) :=
  inferInstanceAs (Decidable (_ ∨ _))

/-- An edit gives no new data to a key that is confirmed or on its way, and when A reads a table, its
pending rows have plain keys. -/
def KeepsConfirmed (S : Setup) (s : Deployment) : Action → Prop
  | .edit false _ row => Taken s (S.cfg.infoRecord row) →
      S.cfg.infoRecord row ∈ pendingRecords S.cfg s.source
  | .edit true _ row => Taken s (S.cfg.photoRecord row) →
      S.cfg.photoRecord row ∈ pendingRecords S.cfg s.source
  | .readInfos => PlainKeys (s.source.info.pendingRows.map S.cfg.infoRecord)
  | .readPhotos => PlainKeys (s.source.photo.pendingRows.map S.cfg.photoRecord)
  | .post _ | .append _ _ => True

instance (S : Setup) (s : Deployment) : DecidablePred (KeepsConfirmed S s)
  | .edit false _ row => inferInstanceAs (Decidable (Taken s (S.cfg.infoRecord row) →
      S.cfg.infoRecord row ∈ pendingRecords S.cfg s.source))
  | .edit true _ row => inferInstanceAs (Decidable (Taken s (S.cfg.photoRecord row) →
      S.cfg.photoRecord row ∈ pendingRecords S.cfg s.source))
  | .readInfos => inferInstanceAs (Decidable (PlainKeys _))
  | .readPhotos => inferInstanceAs (Decidable (PlainKeys _))
  | .post _ | .append _ _ => isTrue trivial

/-! ## What C stores of a request -/

section

variable {S : Setup} {l : Link} {cfg : Config} {pending : List SourceRecord}

theorem key_of_upsertRowOf {ccfg : Receiver.Config} {env : Receiver.PostEnv}
    {origin : Receiver.UploadOrigin} {batch : Receiver.EntityBatch} {record : Receiver.Record} {now : Str}
    {u : Receiver.UpsertRow} (h : Receiver.upsertRowOf ccfg env origin batch record now = some u) :
    u.key = Receiver.recordKey batch.entityType record := by
  rw [Receiver.upsertRowOf] at h
  split at h
  · cases h
    rfl
  · cases h

/-- Every row that C stores of a request is what it makes of one of its records. -/
theorem exists_record_of_mem_rowsOf (hrows : ∀ p ∈ pending, p.OfRow) {u : Receiver.UpsertRow}
    (hu : u ∈ Receiver.rowsOf l.ccfg l.env (l.payload cfg pending)) :
    ∃ p ∈ pending, u.key = p.cKey ∧ ∃ batch now, batch.entityType = p.entityType ∧
      Receiver.upsertRowOf l.ccfg l.env (Receiver.originOf l.env (l.payload cfg pending)) batch
        p.received now = some u := by
  obtain ⟨batch, hbatch, hmem⟩ := List.mem_flatMap.mp hu
  obtain ⟨⟨record, now⟩, hstamped, hrow⟩ := List.mem_filterMap.mp hmem
  have hrecord : record ∈ batch.records := by
    rw [← Receiver.map_fst_stamped l.env batch]
    exact List.mem_map_of_mem hstamped
  have hfrom : ∃ p ∈ pending, batch.entityType = p.entityType ∧ record = p.received := by
    rw [Link.payload, entityRecords_payloadOf] at hbatch
    simp only [List.mem_cons, List.not_mem_nil, or_false] at hbatch
    rcases hbatch with rfl | rfl
    · obtain ⟨p, hp, rfl⟩ := List.mem_map.mp hrecord
      obtain ⟨hp, hinfo⟩ := List.mem_filter.mp hp
      exact ⟨p, hp, ((hrows p hp).entityType.resolve_right (by simpa using hinfo)).symm, rfl⟩
    · obtain ⟨p, hp, rfl⟩ := List.mem_map.mp hrecord
      obtain ⟨hp, hphoto⟩ := List.mem_filter.mp hp
      exact ⟨p, hp, (of_decide_eq_true hphoto).symm, rfl⟩
  obtain ⟨p, hp, htype, rfl⟩ := hfrom
  refine ⟨p, hp, ?_, batch, now, htype, hrow⟩
  rw [key_of_upsertRowOf hrow, SourceRecord.cKey, htype]

/-- The two keys of a record: its kind, a separator and its primary key. -/
theorem keys_of_ofRow {r : SourceRecord} (hr : r.OfRow) :
    r.storeKey = r.entityType ++ .char '\x00' :: r.pk ∧ r.recordKey = r.entityType ++ .char ':' :: r.pk := by
  have htype : r.entityType ≠ [] := by
    rcases hr.entityType with h | h <;> rw [h] <;> decide
  rw [SourceRecord.storeKey, stateKey, if_neg htype, hr.recordKey, List.append_assoc, List.append_assoc]
  exact ⟨rfl, rfl⟩

/-- Records whose keys agree are of one kind and have one primary key, whatever the separator. -/
theorem append_pk_eq_iff {r r' : SourceRecord} (hr : r.OfRow) (hr' : r'.OfRow) (sep : Rune)
    (hsep : sep ∉ weightInfo ++ weightPhoto) :
    r.entityType ++ sep :: r.pk = r'.entityType ++ sep :: r'.pk ↔
      r.entityType = r'.entityType ∧ r.pk = r'.pk := by
  have hread : ∀ {r : SourceRecord}, r.OfRow →
      (r.entityType ++ sep :: r.pk).takeWhile (· ≠ sep) = r.entityType := by
    intro r hr
    have hfree : ∀ c ∈ r.entityType, decide (c ≠ sep) = true := by
      intro c hc
      refine decide_eq_true fun heq => hsep ?_
      rw [heq] at hc
      rcases hr.entityType with h | h
      · exact List.mem_append_left _ (h ▸ hc)
      · exact List.mem_append_right _ (h ▸ hc)
    rw [List.takeWhile_append_of_pos hfree, List.takeWhile_cons_of_neg (by simp), List.append_nil]
  constructor
  · intro h
    have htype := congrArg (List.takeWhile (· ≠ sep)) h
    rw [hread hr, hread hr'] at htype
    rw [htype] at h
    exact ⟨htype, List.tail_eq_of_cons_eq (List.append_cancel_left h)⟩
  · rintro ⟨htype, hpk⟩
    rw [htype, hpk]

theorem storeKey_eq_iff {r r' : SourceRecord} (hr : r.OfRow) (hr' : r'.OfRow) :
    r.storeKey = r'.storeKey ↔ r.entityType = r'.entityType ∧ r.pk = r'.pk := by
  rw [(keys_of_ofRow hr).1, (keys_of_ofRow hr').1, append_pk_eq_iff hr hr' _ (by decide)]

theorem recordKey_eq_iff {r r' : SourceRecord} (hr : r.OfRow) (hr' : r'.OfRow) :
    r.recordKey = r'.recordKey ↔ r.entityType = r'.entityType ∧ r.pk = r'.pk := by
  rw [(keys_of_ofRow hr).2, (keys_of_ofRow hr').2, append_pk_eq_iff hr hr' _ (by decide)]

/-- C mirrors the records of a request that it has committed. -/
theorem mirrored_answer (hccfg : l.ccfg = S.ccfg) (htime : l.env.timeText = S.timeText)
    (hrows : ∀ p ∈ pending, p.OfRow) (hplain : PlainKeys pending) (hcommits : l.Commits cfg pending)
    {p : SourceRecord} (hp : p ∈ pending) :
    Mirrored S (l.answer (requestBody cfg l.exchange pending)).2.records p := by
  have hstored := storedAtC_of_keyed hrows hcommits hp (hplain.1 p hp).1
  obtain ⟨e, he, hkey⟩ := KeyedTable.mem_keys.mp hstored.stored
  refine ⟨e, he, hkey, ?_⟩
  have huploaded : e.key ∈ (Receiver.rowsOf l.ccfg l.env (l.payload cfg pending)).map
      Receiver.UpsertRow.key := by
    rw [Receiver.map_key_rowsOf, hkey]
    exact (mem_acceptedOf_payloadOf hrows).mpr ⟨p, hp, (hplain.1 p hp).1, rfl⟩
  rw [hstored.committed] at he
  obtain ⟨u, hu, hukey, hcontent⟩ := Receiver.content_of_mem_upsertRows he huploaded
  obtain ⟨p', hp', hkey', batch, now, htype, hrow⟩ := exists_record_of_mem_rowsOf hrows hu
  -- records of one key are one record
  have hsame : p' = p := by
    refine hplain.2 p' hp' p hp ((storeKey_eq_iff (hrows p' hp') (hrows p hp)).mpr ?_)
    rw [← recordKey_eq_iff (hrows p' hp') (hrows p hp), ← (hplain.1 p' hp').2, ← (hplain.1 p hp).2, ← hkey', hukey, hkey]
  subst hsame
  rw [hccfg] at hrow
  exact ⟨l.env, _, batch, now, u, htime, htype, hrow, hcontent⟩

/-- A request leaves mirrored what has another key than its records. -/
theorem mirrored_answer_of_ne (hrows : ∀ p ∈ pending, p.OfRow) (hcommits : l.Commits cfg pending)
    {r : SourceRecord} (hne : ∀ p ∈ pending, p.cKey ≠ r.cKey) (h : Mirrored S l.db.records r) :
    Mirrored S (l.answer (requestBody cfg l.exchange pending)).2.records r := by
  obtain ⟨db', hinsert, -, hanswer⟩ := Link.answer_of_commits hcommits
  obtain ⟨e, he, hkey, hcontent⟩ := h
  refine ⟨e, ?_, hkey, hcontent⟩
  have hother : e.key ∉ (Receiver.rowsOf l.ccfg l.env (l.payload cfg pending)).map
      Receiver.UpsertRow.key := by
    rw [Receiver.map_key_rowsOf]
    intro hmem
    obtain ⟨p, hp, -, hpkey⟩ := (mem_acceptedOf_payloadOf hrows).mp hmem
    exact hne p hp (hpkey.trans hkey)
  rw [hanswer, (Receiver.insertPayload_ok hinsert).1]
  exact (Receiver.mem_upsertRows_of_notMem hother).mpr he

end

/-! ## The invariant -/

/-- Records that are on their way are what the source holds under their keys. -/
structure InFlight (cfg : Config) (source : SourceDb) (records : List SourceRecord) : Prop where
  ofRow : ∀ p ∈ records, p.OfRow
  plain : PlainKeys records
  unedited : ∀ p ∈ records, ∀ r ∈ pendingRecords cfg source, r.storeKey = p.storeKey → r = p

/-- What the phase says of the records that A has read. -/
def PhaseInSync (S : Setup) (s : Deployment) : Prop :=
  match s.phase with
  | .idle => True
  | .reading infos => (∀ r ∈ infos, r.entityType = weightInfo) ∧
      ∀ r ∈ infos, r.confirmedIn s.store = true → Mirrored S s.receiver.records r
  | .posting pending => ∀ p ∈ pending, p.confirmedIn s.store = false
  | .confirming accepted => ∀ r ∈ accepted, Mirrored S s.receiver.records r
  | .reported fetched => ∀ r ∈ fetched, Mirrored S s.receiver.records r

/-- C mirrors what the source holds under confirmed keys. -/
structure InSync (S : Setup) (s : Deployment) : Prop where
  confirmed : ∀ r ∈ pendingRecords S.cfg s.source, r.confirmedIn s.store = true →
    r.cKey = r.recordKey ∧ Mirrored S s.receiver.records r
  inFlight : InFlight S.cfg s.source s.phase.inFlight
  phase : PhaseInSync S s

section

variable {S : Setup} {s s' : Deployment} {a : Action}

theorem inFlight_nil (cfg : Config) (source : SourceDb) : InFlight cfg source [] :=
  ⟨fun _ h => (by cases h), ⟨fun _ h => (by cases h), fun _ h => (by cases h)⟩, fun _ h => (by cases h)⟩

theorem InFlight.subset {cfg : Config} {source : SourceDb} {records records' : List SourceRecord}
    (h : InFlight cfg source records) (hsub : records' ⊆ records) : InFlight cfg source records' where
  ofRow p hp := h.ofRow p (hsub hp)
  plain := ⟨fun r hr => h.plain.1 r (hsub hr), fun r hr r' hr' => h.plain.2 r (hsub hr) r' (hsub hr')⟩
  unedited p hp := h.unedited p (hsub hp)

theorem ofRow_of_mem_pendingRecords {cfg : Config} {source : SourceDb} {r : SourceRecord}
    (h : r ∈ pendingRecords cfg source) : r.OfRow := by
  rcases List.mem_append.mp h with h | h
  · obtain ⟨row, -, rfl⟩ := List.mem_map.mp h
    exact ⟨⟨row, rfl⟩, Or.inl rfl, rfl⟩
  · obtain ⟨row, -, rfl⟩ := List.mem_map.mp h
    exact ⟨⟨row, rfl⟩, Or.inr rfl, rfl⟩

/-- An edit adds at most the record of the new row to the pending records. -/
theorem pendingRows_edit {t t' : SourceTable} {i : ℕ} {row : Row} (h : t.edit i row = some t') :
    ∀ r ∈ t'.pendingRows, r ∈ t.pendingRows ∨ r = row := by
  rw [SourceTable.edit] at h
  split at h
  · cases h
  · split at h
    · cases h
      intro r hr
      obtain ⟨hmem, hpending⟩ := List.mem_filter.mp hr
      rcases List.mem_or_eq_of_mem_set hmem with hmem | rfl
      · exact Or.inl (List.mem_filter.mpr ⟨hmem, hpending⟩)
      · exact Or.inr rfl
    · cases h

/-- An edit that leaves confirmed keys alone keeps C in sync. -/
theorem inSync_edit {source : SourceDb} {new : SourceRecord} (h : InSync S s)
    (hedit : ∀ r ∈ pendingRecords S.cfg source, r ∈ pendingRecords S.cfg s.source ∨ r = new)
    (hok : Taken s new → new ∈ pendingRecords S.cfg s.source) :
    InSync S { s with source := source } where
  confirmed r hr hconfirmed := by
    rcases hedit r hr with hold | rfl
    · exact h.confirmed r hold hconfirmed
    · exact h.confirmed r (hok (Or.inl hconfirmed)) hconfirmed
  inFlight := by
    refine ⟨h.inFlight.ofRow, h.inFlight.plain, fun p hp r hr hkey => ?_⟩
    rcases hedit r hr with hold | rfl
    · exact h.inFlight.unedited p hp r hold hkey
    · refine h.inFlight.unedited p hp r (hok (Or.inr ?_)) hkey
      exact List.mem_map.mpr ⟨p, hp, hkey.symm⟩
  phase := h.phase

theorem InSync.idle (h : InSync S s) : InSync S { s with phase := .idle } :=
  ⟨h.confirmed, inFlight_nil _ _, trivial⟩

/-- What is read of a table with plain keys is on its way as it is there. -/
theorem inFlight_of_subset {cfg : Config} {source : SourceDb} {table : List SourceRecord}
    {entityType : Str} (hplain : PlainKeys table)
    (htable : ∀ r ∈ pendingRecords cfg source, r ∈ table ∨ r.entityType ≠ entityType)
    (hsource : table ⊆ pendingRecords cfg source) {records : List SourceRecord}
    (hsub : records ⊆ table) (htype : ∀ p ∈ records, p.entityType = entityType) :
    InFlight cfg source records where
  ofRow p hp := ofRow_of_mem_pendingRecords (hsource (hsub hp))
  plain := ⟨fun r hr => hplain.1 r (hsub hr),
    fun r hr r' hr' => hplain.2 r (hsub hr) r' (hsub hr')⟩
  unedited p hp r hr hkey := by
    rcases htable r hr with hmem | hother
    · exact hplain.2 r hmem p (hsub hp) hkey
    · have hp' := ofRow_of_mem_pendingRecords (hsource (hsub hp))
      have hkeys := (storeKey_eq_iff (ofRow_of_mem_pendingRecords hr) hp').mp hkey
      exact absurd (hkeys.1.trans (htype p hp)) hother

/-- Records of two kinds are on their way together. -/
theorem InFlight.append {cfg : Config} {source : SourceDb} {infos photos : List SourceRecord}
    (h : InFlight cfg source infos) (h' : InFlight cfg source photos)
    (hinfo : ∀ r ∈ infos, r.entityType = weightInfo) (hphoto : ∀ r ∈ photos, r.entityType = weightPhoto) :
    InFlight cfg source (infos ++ photos) := by
  have hne : ∀ r ∈ infos, ∀ r' ∈ photos, r.storeKey ≠ r'.storeKey := by
    intro r hr r' hr' hkey
    have htype := ((storeKey_eq_iff (h.ofRow r hr) (h'.ofRow r' hr')).mp hkey).1
    rw [hinfo r hr, hphoto r' hr'] at htype
    exact absurd htype (by decide)
  refine ⟨?_, ⟨?_, ?_⟩, ?_⟩
  · exact fun p hp => (List.mem_append.mp hp).elim (h.ofRow p) (h'.ofRow p)
  · exact fun p hp => (List.mem_append.mp hp).elim (h.plain.1 p) (h'.plain.1 p)
  · intro r hr r' hr' hkey
    rcases List.mem_append.mp hr with hr | hr <;> rcases List.mem_append.mp hr' with hr' | hr'
    · exact h.plain.2 r hr r' hr' hkey
    · exact absurd hkey (hne r hr r' hr')
    · exact absurd hkey.symm (hne r' hr' r hr)
    · exact h'.plain.2 r hr r' hr' hkey
  · exact fun p hp => (List.mem_append.mp hp).elim (h.unedited p) (h'.unedited p)

theorem inSync_readInfos (h : InSync S s)
    (hok : PlainKeys (s.source.info.pendingRows.map S.cfg.infoRecord)) :
    InSync S (S.readInfos s) := by
  rw [Setup.readInfos]
  cases hread : S.fetchInfos s.source.info with
  | error e => exact h.idle
  | ok infos =>
      obtain ⟨-, rfl, -⟩ := fetchEntity_eq_ok_iff.mp hread
      have htype : ∀ r ∈ (s.source.info.top S.cfg.batchSize.toNat).map S.cfg.infoRecord,
          r.entityType = weightInfo := by
        intro r hr
        obtain ⟨row, -, rfl⟩ := List.mem_map.mp hr
        rfl
      have hsub : (s.source.info.top S.cfg.batchSize.toNat).map S.cfg.infoRecord ⊆
          s.source.info.pendingRows.map S.cfg.infoRecord :=
        List.map_subset _ fun row hrow => mem_of_mem_window hrow
      refine ⟨h.confirmed, ?_, htype, fun r hr hconfirmed => ?_⟩
      · refine inFlight_of_subset hok (fun r hr => ?_) (List.subset_append_left _ _) hsub htype
        rcases List.mem_append.mp hr with hr | hr
        · exact Or.inl hr
        · obtain ⟨row, -, rfl⟩ := List.mem_map.mp hr
          exact Or.inr (show weightPhoto ≠ weightInfo by decide)
      · exact (h.confirmed r (List.mem_append_left _ (hsub hr)) hconfirmed).2

theorem inSync_readPhotos {infos : List SourceRecord} (h : InSync S s) (hphase : s.phase = .reading infos)
    (hok : PlainKeys (s.source.photo.pendingRows.map S.cfg.photoRecord)) {photos : List SourceRecord}
    (hread : S.fetchPhotos s.source.photo = .ok photos) :
    InSync S { s with phase := Setup.afterReading s.store (infos ++ photos) } := by
  obtain ⟨-, rfl, -⟩ := fetchEntity_eq_ok_iff.mp hread
  have hinfo : (∀ r ∈ infos, r.entityType = weightInfo) ∧
      ∀ r ∈ infos, r.confirmedIn s.store = true → Mirrored S s.receiver.records r := by
    have hin := h.phase
    rw [PhaseInSync, hphase] at hin
    exact hin
  have hinfos : InFlight S.cfg s.source infos := by
    have hin := h.inFlight
    rw [hphase] at hin
    exact hin
  have htype : ∀ r ∈ (s.source.photo.top S.cfg.batchSize.toNat).map S.cfg.photoRecord,
      r.entityType = weightPhoto := by
    intro r hr
    obtain ⟨row, -, rfl⟩ := List.mem_map.mp hr
    rfl
  have hsub : (s.source.photo.top S.cfg.batchSize.toNat).map S.cfg.photoRecord ⊆
      s.source.photo.pendingRows.map S.cfg.photoRecord :=
    List.map_subset _ fun row hrow => mem_of_mem_window hrow
  have hphotos : InFlight S.cfg s.source
      ((s.source.photo.top S.cfg.batchSize.toNat).map S.cfg.photoRecord) := by
    refine inFlight_of_subset hok (fun r hr => ?_) (List.subset_append_right _ _) hsub htype
    rcases List.mem_append.mp hr with hr | hr
    · obtain ⟨row, -, rfl⟩ := List.mem_map.mp hr
      exact Or.inr (show weightInfo ≠ weightPhoto by decide)
    · exact Or.inl hr
  have hfetched := hinfos.append hphotos hinfo.1 htype
  rw [Setup.afterReading]
  split
  · next hnone =>
    refine ⟨h.confirmed, inFlight_nil _ _, fun r hr => ?_⟩
    have hconfirmed : r.confirmedIn s.store = true := by
      simpa using List.filter_eq_nil_iff.mp hnone r hr
    rcases List.mem_append.mp hr with hr | hr
    · exact hinfo.2 r hr hconfirmed
    · exact (h.confirmed r (List.mem_append_right _ (hsub hr)) hconfirmed).2
  · refine ⟨h.confirmed, hfetched.subset (List.filter_subset_self _), fun p hp => ?_⟩
    simpa using (List.mem_filter.mp hp).2

theorem inSync_post {pending : List SourceRecord} {l : Link} (h : InSync S s)
    (hphase : s.phase = .posting pending) (hccfg : l.ccfg = S.ccfg)
    (htime : l.env.timeText = S.timeText) (hdb : l.db = s.receiver)
    (hcommits : l.Commits S.cfg pending) :
    InSync S { s with
      receiver := (l.answer (requestBody S.cfg l.exchange pending)).2
      phase := S.afterPost l pending } := by
  have hpending : ∀ p ∈ pending, p.confirmedIn s.store = false := by
    have hin := h.phase
    rw [PhaseInSync, hphase] at hin
    exact hin
  have hflight : InFlight S.cfg s.source pending := by
    have hin := h.inFlight
    rw [hphase] at hin
    exact hin
  have hmirrored : ∀ p ∈ pending,
      Mirrored S (l.answer (requestBody S.cfg l.exchange pending)).2.records p := fun p hp =>
    mirrored_answer hccfg htime hflight.ofRow hflight.plain hcommits hp
  refine ⟨fun r hr hconfirmed => ?_, ?_, ?_⟩
  · obtain ⟨hkey, hold⟩ := h.confirmed r hr hconfirmed
    refine ⟨hkey, mirrored_answer_of_ne hflight.ofRow hcommits (fun p hp hsame => ?_) (hdb ▸ hold)⟩
    -- a pending record with the key of a confirmed one would be confirmed
    have hr' := ofRow_of_mem_pendingRecords hr
    have hrecord : p.recordKey = r.recordKey := by rw [← (hflight.plain.1 p hp).2, hsame, hkey]
    have hstore : p.storeKey = r.storeKey :=
      (storeKey_eq_iff (hflight.ofRow p hp) hr').mpr
        ((recordKey_eq_iff (hflight.ofRow p hp) hr').mp hrecord)
    have hnot := hpending p hp
    rw [SourceRecord.confirmedIn, StateStore.contains] at hnot hconfirmed
    rw [SourceRecord.storeKey, SourceRecord.storeKey] at hstore
    rw [hstore, hconfirmed] at hnot
    cases hnot
  · rw [Setup.afterPost]
    split
    · exact inFlight_nil _ _
    · exact hflight.subset (acknowledged_subset _ _)
  · rw [Setup.afterPost]
    split
    · trivial
    · exact fun r hr => hmirrored r (acknowledged_subset _ _ hr)

theorem inSync_append {accepted : List SourceRecord} (h : InSync S s)
    (hphase : s.phase = .confirming accepted) (acceptedAt : Str) (room : Option ℕ) :
    InSync S { s with
      store := (s.store.append (accepted.map (SourceRecord.entry acceptedAt)) room).1
      phase := .idle } := by
  have haccepted : ∀ r ∈ accepted, Mirrored S s.receiver.records r := by
    have hin := h.phase
    rw [PhaseInSync, hphase] at hin
    exact hin
  have hflight : InFlight S.cfg s.source accepted := by
    have hin := h.inFlight
    rw [hphase] at hin
    exact hin
  refine ⟨fun r hr hconfirmed => ?_, inFlight_nil _ _, trivial⟩
  rcases StateStore.mem_done_append (of_decide_eq_true hconfirmed) with hdone | ⟨e, he, hkey⟩
  · exact h.confirmed r hr (decide_eq_true hdone)
  · obtain ⟨p, hp, rfl⟩ := List.mem_map.mp he
    have hsame : r = p := hflight.unedited p hp r hr hkey.symm
    subst hsame
    exact ⟨(hflight.plain.1 r hp).2, haccepted r hp⟩

/-- Every step that leaves confirmed keys alone keeps C in sync. -/
theorem inSync_step (h : InSync S s) (hstep : S.step s a = some s') (hok : KeepsConfirmed S s a) :
    InSync S s' := by
  cases a with
  | edit photo i row =>
      cases photo with
      | false =>
          obtain ⟨t, hedit, rfl⟩ := Option.map_eq_some_iff.mp hstep
          -- only the pending rows of one table are edited
          refine inSync_edit h (fun r hr => ?_) hok
          rcases List.mem_append.mp hr with hr | hr
          · obtain ⟨old, hold, rfl⟩ := List.mem_map.mp hr
            rcases pendingRows_edit hedit old hold with hold | rfl
            · exact Or.inl (List.mem_append_left _ (List.mem_map_of_mem hold))
            · exact Or.inr rfl
          · exact Or.inl (List.mem_append_right _ hr)
      | true =>
          obtain ⟨t, hedit, rfl⟩ := Option.map_eq_some_iff.mp hstep
          refine inSync_edit h (fun r hr => ?_) hok
          rcases List.mem_append.mp hr with hr | hr
          · exact Or.inl (List.mem_append_left _ hr)
          · obtain ⟨old, hold, rfl⟩ := List.mem_map.mp hr
            rcases pendingRows_edit hedit old hold with hold | rfl
            · exact Or.inl (List.mem_append_right _ (List.mem_map_of_mem hold))
            · exact Or.inr rfl
  | readInfos =>
      simp only [Setup.step] at hstep
      split at hstep
      · cases hstep
        exact inSync_readInfos h hok
      · cases hstep
        exact inSync_readInfos h hok
      · cases hstep
  | readPhotos =>
      simp only [Setup.step] at hstep
      split at hstep
      · next infos hphase =>
        split at hstep
        · cases hstep
          exact h.idle
        · next photos hread =>
          cases hstep
          exact inSync_readPhotos h hphase hok hread
      · cases hstep
  | post link =>
      simp only [Setup.step] at hstep
      split at hstep
      · next pending hphase =>
        split at hstep
        · next hcommits =>
          cases hstep
          exact inSync_post h hphase rfl rfl rfl hcommits
        · cases hstep
      · cases hstep
  | append acceptedAt room =>
      simp only [Setup.step] at hstep
      split at hstep
      · next accepted hphase =>
        cases hstep
        exact inSync_append h hphase acceptedAt room
      · cases hstep

/-- In a run in which no edit gives new data to a key that is confirmed or on its way, and A and C
derive plain keys from what is pending, C mirrors whatever a pass has read that reports nothing left
unconfirmed. -/
theorem reachesC (S : Setup) {s : Deployment} (h : S.passes.ReachedBy (KeepsConfirmed S) s) :
    ReachesC S s := by
  have hsync : InSync S s := by
    refine h.invariant (I := InSync S) ?_ fun s a s' hs hstep hok => inSync_step hs hstep hok
    rintro s ⟨hstore, hphase⟩
    refine ⟨fun r hr hconfirmed => ?_, ?_, ?_⟩
    · rw [SourceRecord.confirmedIn, StateStore.contains, hstore] at hconfirmed
      cases of_decide_eq_true hconfirmed
    · rw [hphase]
      exact inFlight_nil _ _
    · rw [PhaseInSync, hphase]
      trivial
  intro fetched hphase
  have hin := hsync.phase
  rw [PhaseInSync, hphase] at hin
  exact hin

end

/-! ## Passes without edits -/

/-- A step of A itself. -/
def Action.ofUploader : Action → Bool
  | .edit _ _ _ => false
  | _ => true

/-- A, by its own steps, goes from one state to another. -/
def Setup.Goes (S : Setup) : Deployment → Deployment → Prop :=
  Relation.ReflTransGen fun s s' => ∃ a : Action, a.ofUploader = true ∧ S.step s a = some s'

theorem Setup.Goes.tail {S : Setup} {s s' s'' : Deployment} {a : Action} (h : S.Goes s s')
    (huploader : a.ofUploader = true) (hstep : S.step s' a = some s'') : S.Goes s s'' :=
  Relation.ReflTransGen.tail h ⟨a, huploader, hstep⟩

/-- A pass that nothing interferes with is a run of steps, and reports what it has read if it finds
nothing unconfirmed. -/
theorem goes_syncOnce (S : Setup) {s : Deployment} (hphase : s.phase = .idle) (link : Link)
    (hcommits : submitted S.cfg s.source s.store ≠ [] →
      (S.connect s link).Commits S.cfg (submitted S.cfg s.source s.store)) :
    let pass := syncOnce S.cfg s.source s.store (S.connect s link).exchange
    ∃ receiver phase, S.Goes s ⟨s.source, pass.store, receiver, phase⟩ ∧
      (pass.outcome = .idle → ∃ fetched, fetchAll S.cfg s.source = .ok fetched ∧
        phase = .reported fetched) := by
  have hfetchAll : fetchAll S.cfg s.source = (do
      let infos ← S.fetchInfos s.source.info
      let photos ← S.fetchPhotos s.source.photo
      return infos ++ photos) := rfl
  -- a pass that cannot read ends where it began
  have hstay : ∀ {e : FetchError}, fetchAll S.cfg s.source = .error e →
      let pass := syncOnce S.cfg s.source s.store (S.connect s link).exchange
      ∃ receiver phase, S.Goes s ⟨s.source, pass.store, receiver, phase⟩ ∧
        (pass.outcome = .idle → ∃ fetched, fetchAll S.cfg s.source = .ok fetched ∧
          phase = .reported fetched) := by
    intro e herror
    have hpass : syncOnce S.cfg s.source s.store (S.connect s link).exchange =
        ⟨.failed (.fetch e), none, [], s.store⟩ := by
      rw [syncOnce, herror]
    simp only [hpass]
    exact ⟨s.receiver, s.phase, .refl, fun h => by cases h⟩
  cases hinfos : S.fetchInfos s.source.info with
  | error e => exact hstay (by rw [hfetchAll, hinfos]; rfl)
  | ok infos =>
      cases hphotos : S.fetchPhotos s.source.photo with
      | error e => exact hstay (by rw [hfetchAll, hinfos, hphotos]; rfl)
      | ok photos =>
          have hfetched : fetchAll S.cfg s.source = .ok (infos ++ photos) := by
            rw [hfetchAll, hinfos, hphotos]
            rfl
          have hsubmitted : submitted S.cfg s.source s.store = pendingOf s.store (infos ++ photos) := by
            rw [submitted, hfetched]
          have hreading : S.Goes s { s with phase := .reading infos } := by
            refine Setup.Goes.tail (a := .readInfos) .refl rfl ?_
            simp only [Setup.step, hphase, Setup.readInfos, hinfos]
          have hread : S.Goes s
              { s with phase := Setup.afterReading s.store (infos ++ photos) } := by
            refine hreading.tail (a := .readPhotos) rfl ?_
            simp only [Setup.step, hphotos]
          rw [Setup.afterReading] at hread
          rcases syncOnce_cases S.cfg s.source s.store (S.connect s link).exchange with
            ⟨e, herror, -⟩ | ⟨records, hrecords, h⟩
          · rw [hfetched] at herror
            cases herror
          · rw [hfetched] at hrecords
            cases hrecords
            rcases h with ⟨hempty, hpass⟩ | ⟨hne, hbusy, -, hstore, hconfirmed⟩
            · rw [if_pos hempty] at hread
              simp only [hpass]
              exact ⟨s.receiver, _, hread, fun _ => ⟨_, hfetched, rfl⟩⟩
            · rw [if_neg hne] at hread
              rw [hsubmitted] at hcommits
              have hposted : S.Goes s { s with
                  receiver := ((S.connect s link).answer (requestBody S.cfg (S.connect s link).exchange
                    (pendingOf s.store (infos ++ photos)))).2
                  phase := S.afterPost (S.connect s link) (pendingOf s.store (infos ++ photos)) } := by
                refine hread.tail (a := .post link) rfl ?_
                simp only [Setup.step]
                exact if_pos (hcommits hne)
              simp only [hstore, hconfirmed]
              rw [Setup.afterPost] at hposted
              cases hpost : post (S.connect s link).exchange.send (requestBody S.cfg
                (S.connect s link).exchange (pendingOf s.store (infos ++ photos))) with
              | error e =>
                  rw [hpost] at hposted
                  exact ⟨_, _, hposted, fun h => absurd h hbusy⟩
              | ok response =>
                  rw [hpost] at hposted
                  exact ⟨_, _, hposted.tail (a := .append link.acceptedAt link.room) rfl rfl,
                    fun h => absurd h hbusy⟩

/-! ## A second weighing -/

/-- A weighing row with its serial number and its net weight. -/
def weighedRow (serial netWeight : String) : Row where
  cells := [⟨Str.lit "serialNo", Str.lit "NVARCHAR", .text (Str.lit serial)⟩,
    ⟨Str.lit "netWeight", Str.lit "NVARCHAR", .text (Str.lit netWeight)⟩]
  columns_valid := by
    simp only [List.forall_mem_cons]
    exact ⟨Str.valid_lit _, Str.valid_lit _, List.forall_mem_nil _⟩
  columns_nodup := by
    show [Str.lit "serialNo", Str.lit "netWeight"].Nodup
    decide

/-- Two weighing rows, in batches of one row, and an empty C. -/
def weighedSetup : Setup := ⟨oneRowConfig, goodLink.ccfg, some⟩
def weighedStart : Deployment where
  source := { twoRowDb with
    info := { twoRowDb.info with rows := [weighedRow "a" "0", weighedRow "b" "0"] } }
  store := ⟨[], []⟩
  receiver := ⟨.empty, .empty⟩
  phase := .idle

/-- The steps of a pass that uploads the first row. -/
def uploadSteps : List Action :=
  [.readInfos, .readPhotos, .post goodLink, .append goodLink.acceptedAt none]

/-- What a pass has read that found nothing unconfirmed. -/
def Phase.fetched : Phase → List SourceRecord
  | .reported fetched => fetched
  | _ => []

/-- The second row is edited while the first one is uploaded. -/
theorem reachesC_second : ∃ s, weighedSetup.passes.ReachedBy (KeepsConfirmed weighedSetup) s ∧
    (s.phase.fetched.map SourceRecord.pk == [Str.lit "a"]) = true ∧ ReachesC weighedSetup s := by
  obtain ⟨s, hs, hread⟩ := System.exists_of_exec (S := weighedSetup.passes)
    (P := fun s => s.phase.fetched.map SourceRecord.pk == [Str.lit "a"]) (s := weighedStart) ⟨rfl, rfl⟩
    (show (weighedSetup.passes.exec (KeepsConfirmed weighedSetup) weighedStart
      ([.readInfos, .edit false 1 (weighedRow "b" "90"), .readPhotos, .post goodLink,
        .append goodLink.acceptedAt none] ++ [.readInfos, .readPhotos])).any _ = true
      by decide +kernel)
  exact ⟨s, hs, hread, reachesC weighedSetup hs⟩

/-- What C holds of a record that it stores with its raw data. -/
theorem rawRecord_of_storedAs {S : Setup} {content : Receiver.RecordContent} {r : SourceRecord}
    (hraw : S.ccfg.storeRawRecords = true) (h : StoredAs S content r) :
    content.rawRecord = some (Json.canonical (.obj r.received)).encode := by
  obtain ⟨env, origin, batch, now, u, -, -, hrow, rfl⟩ := h
  rw [Receiver.upsertRowOf] at hrow
  split at hrow
  · cases hrow
    rfl
  · cases hrow

/-- The first row is uploaded and confirmed, and then its weight is filled in. The next pass reports
that nothing is unconfirmed, and C holds the row without its weight. -/
theorem not_reachesC_first : ∃ s, weighedSetup.passes.Reachable s ∧ ¬ ReachesC weighedSetup s := by
  obtain ⟨s, hs, hread⟩ := System.exists_of_exec (S := weighedSetup.passes) (K := fun _ _ => True)
    (P := fun s => s.phase.fetched.any fun r => s.receiver.records.rows.all fun e =>
      e.val.content.rawRecord ≠ some (Json.canonical (.obj r.received)).encode)
    (s := weighedStart) ⟨rfl, rfl⟩
    (show (weighedSetup.passes.exec (fun _ _ => True) weighedStart
      (uploadSteps ++ [.edit false 0 (weighedRow "a" "90"), .readInfos, .readPhotos])).any _ = true
      by decide +kernel)
  refine ⟨s, hs, fun h => ?_⟩
  obtain ⟨r, hr, hstale⟩ := List.any_eq_true.mp hread
  have hphase : s.phase = .reported s.phase.fetched := by
    cases hphase : s.phase with
    | reported fetched => rfl
    | _ =>
        rw [hphase] at hr
        cases hr
  obtain ⟨e, he, -, hcontent⟩ := h _ hphase r hr
  have hraw := rawRecord_of_storedAs rfl hcontent
  exact of_decide_eq_true (List.all_eq_true.mp hstale e he) hraw

end WeighingSync.Uploader
