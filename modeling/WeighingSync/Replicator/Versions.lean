import WeighingSync.Replicator.Cleanup

/-!
# The version that a cleanup deletes

C keeps the id of a record that is uploaded again, and the `DELETE` of B names nothing but an id. So
what C deletes is what B has stored in the runs in which no upload changes a record that B has read
and not finished cleaning up (`deletes_stored`). The invariant `Versions` says how the ids that B
holds for a record are ordered: no job names a newer one than the replica, no replica a newer one
than the page being stored, and no page a newer one than the row of C.
-/

namespace WeighingSync.Replicator

open Go Receiver

variable {S : Setup} {K : Set Str} {s s' : State} {a : Action}

/-! ## Ids of C over time -/

/-- An id that C has handed out to a key: a row of that id has that key, and a row of that key has
that id or a later one. -/
structure Known (t : RecordTable) (id : ℤ) (key : Str) : Prop where
  lt : id < t.nextId
  key_of_id : ∀ e ∈ t.rows, (e.id : ℤ) = id → e.key = key
  id_le : ∀ e ∈ t.rows, e.key = key → id ≤ e.id

theorem known_of_row {t : RecordTable} {e : Entry Str StoredRecord} (he : e ∈ t.rows) :
    Known t e.id e.key where
  lt := by exact_mod_cast t.id_lt e he
  key_of_id := by
    intro e' he' hid
    rw [KeyedTable.eq_of_id_eq he' he (by exact_mod_cast hid)]
  id_le := by
    intro e' he' hkey
    rw [KeyedTable.eq_of_key_eq he' he hkey]

theorem Known.upsertRows {t : RecordTable} {id : ℤ} {key : Str} (h : Known t id key)
    (rows : List UpsertRow) : Known (t.upsertRows rows) id key := by
  have hle : (t.nextId : ℤ) ≤ (t.upsertRows rows).nextId := by
    exact_mod_cast nextId_le_upsertRows t rows
  have hlt := h.lt
  refine ⟨by omega, ?_, ?_⟩
  · intro e' he' hid
    rcases mem_upsertRows he' with ⟨e, he, hide, hkeye, -⟩ | ⟨hfresh, -⟩
    · rw [← hkeye]
      exact h.key_of_id e he (by rw [hide]; exact hid)
    · have hfresh' : (t.nextId : ℤ) ≤ e'.id := by exact_mod_cast hfresh
      omega
  · intro e' he' hkey
    rcases mem_upsertRows he' with ⟨e, he, hide, hkeye, -⟩ | ⟨hfresh, -⟩
    · rw [← hide]
      exact h.id_le e he (hkeye.trans hkey)
    · have hfresh' : (t.nextId : ℤ) ≤ e'.id := by exact_mod_cast hfresh
      omega

theorem Known.insertPayload {db : ReceiverDb} {id : ℤ} {key : Str} (h : Known db.records id key)
    (cfg : Receiver.Config) (env : PostEnv) (payload : UploadPayload) :
    Known (insertPayload cfg env payload db).1.records id key := by
  rcases records_insertPayload cfg env payload db with hsame | hrows
  · rw [hsame]
    exact h
  · rw [hrows]
    exact h.upsertRows _

theorem Known.deleteByID {t : RecordTable} {id : ℤ} {key : Str} (h : Known t id key)
    (cfg : Receiver.Config) (cutoff : Str) (named : ℤ) :
    Known (deleteByID cfg t cutoff named).2 id key where
  lt := h.lt
  key_of_id := fun e he => h.key_of_id e ((mem_deleteByID cfg).mp he).1
  id_le := fun e he => h.id_le e ((mem_deleteByID cfg).mp he).1

/-! ## The conditions on a run -/

/-- The keys of the records that a step uploads are in `K`. -/
def UploadsIn (S : Setup) (K : Set Str) : Action → Prop
  | .upload env payload => ∀ u ∈ rowsOf S.ccfg env payload, u.key ∈ K
  | _ => True

/-- B has queued the id for cleanup, or loaded a job for it. -/
def Pending (s : State) (id : ℤ) : Prop :=
  (∃ q ∈ s.b.queue.rows, q.val.status ≠ .done ∧ q.val.cRecordId = id) ∨
    ∃ j ∈ s.jobs, j.cRecordId = id

/-- B has read the row of that id and has not finished cleaning it up. -/
def InFlight (s : State) (id : ℤ) : Prop := (∃ r ∈ s.page, r.id = id) ∨ Pending s id

/-- A row with the columns of an upload in place of its own. -/
def withContent (e : Entry Str StoredRecord) (content : RecordContent) : Entry Str StoredRecord :=
  { e with val := { e.val with content } }

/-- An upload changes, of the rows in flight, nothing that B stores. -/
def KeepsInFlight (S : Setup) (s : State) : Action → Prop
  | .upload env payload => ∀ u ∈ rowsOf S.ccfg env payload, ∀ e ∈ s.c.records.rows, e.key = u.key →
      InFlight s e.id →
      received S.floatText (withContent e u.content) = received S.floatText e
  | _ => True

/-- When C removes a row on behalf of a job, B holds just that content for the key of the row. -/
def DeletesOnlyStored (S : Setup) (s : State) : Action → Prop
  | .delete cutoff _ => ∀ job ∈ s.jobs.head?, ∀ e ∈ s.c.records.rows, (e.id : ℤ) = job.cRecordId →
      Str.lt e.val.effectiveTime cutoff = true →
      ∃ x ∈ s.b.replicated.rows, x.key = S.env.collate e.key ∧
        x.val = replicatedOf (received S.floatText e)
  | _ => True

/-! ## The invariant -/

/-- A record of the page: what C holds under its id, if it still does, and no older than the replica. -/
structure PageOk (S : Setup) (K : Set Str) (s : State) (r : CRecord) : Prop where
  known : Known s.c.records r.id r.recordKey
  key_mem : r.recordKey ∈ K
  current : ∀ e ∈ s.c.records.rows, (e.id : ℤ) = r.id → r = received S.floatText e
  newest : ∀ x ∈ s.b.replicated.rows, x.val.recordKey = r.recordKey → x.val.cRecordId ≤ r.id

/-- A replicated row: filed under its collated key, under an id that C has handed out to its key. -/
structure ReplicaOk (S : Setup) (K : Set Str) (s : State) (x : Entry Str ReplicatedRow) : Prop where
  key : x.key = S.env.collate x.val.recordKey
  key_mem : x.val.recordKey ∈ K
  known : Known s.c.records x.val.cRecordId x.val.recordKey

/-- A queue row: filed under its collated key, with the id of the replica. -/
structure QueueOk (S : Setup) (K : Set Str) (s : State) (q : Entry Str QueueRow) : Prop where
  key : q.key = S.env.collate q.val.recordKey
  key_mem : q.val.recordKey ∈ K
  stored : ∃ x ∈ s.b.replicated.rows, x.val.recordKey = q.val.recordKey ∧
    x.val.cRecordId = q.val.cRecordId

/-- A loaded job: no newer than the replica, and its queue row is not done. -/
structure JobOk (s : State) (j : DeleteJob) : Prop where
  known : Known s.c.records j.cRecordId j.recordKey
  stored : ∃ x ∈ s.b.replicated.rows, x.val.recordKey = j.recordKey ∧ j.cRecordId ≤ x.val.cRecordId
  row : ∀ q ∈ s.b.queue.rows, q.id = j.id → q.val.status ≠ .done

/-- The invariant: the replica of a pending row has the content of the row. -/
structure Versions (S : Setup) (K : Set Str) (s : State) : Prop where
  c_keys : ∀ e ∈ s.c.records.rows, e.key ∈ K
  page : ∀ r ∈ s.page, PageOk S K s r
  page_nodup : (s.page.map CRecord.recordKey).Nodup
  replica : ∀ x ∈ s.b.replicated.rows, ReplicaOk S K s x
  queue : ∀ q ∈ s.b.queue.rows, QueueOk S K s q
  queue_off : S.cfg.cleanupEnabled = false → s.b.queue.rows = []
  jobs : ∀ j ∈ s.jobs, JobOk s j
  jobs_nodup : (s.jobs.map DeleteJob.id).Nodup
  content : ∀ e ∈ s.c.records.rows, ∀ x ∈ s.b.replicated.rows, x.val.cRecordId = e.id →
    Pending s e.id → x.val = replicatedOf (received S.floatText e)

theorem versions_fresh (S : Setup) (K : Set Str) : Versions S K freshState where
  c_keys := fun _ he => (nomatch he)
  page := fun _ hr => (nomatch hr)
  page_nodup := List.nodup_nil
  replica := fun _ hx => (nomatch hx)
  queue := fun _ hq => (nomatch hq)
  queue_off := fun _ => rfl
  jobs := fun _ hj => (nomatch hj)
  jobs_nodup := List.nodup_nil
  content := fun _ he => (nomatch he)

/-! ## Uploads -/

/-- What B would receive of a row in flight is the same after an upload as before it. -/
theorem received_upload {env : PostEnv} {payload : UploadPayload}
    (hok : KeepsInFlight S s (.upload env payload)) {e' : Entry Str StoredRecord}
    (he' : e' ∈ (insertPayload S.ccfg env payload s.c).1.records.rows)
    (hlt : (e'.id : ℤ) < s.c.records.nextId) (hflight : InFlight s e'.id) :
    ∃ e ∈ s.c.records.rows, e.id = e'.id ∧
      received S.floatText e' = received S.floatText e := by
  rcases records_insertPayload S.ccfg env payload s.c with hsame | hrows
  · rw [hsame] at he'
    exact ⟨e', he', rfl, rfl⟩
  · rw [hrows] at he'
    rcases mem_upsertRows he' with ⟨e, he, hid, hkey, hing, hcontent⟩ | ⟨hfresh, -⟩
    · refine ⟨e, he, hid, ?_⟩
      have hview : ∀ content, e'.val.content = content →
          received S.floatText e' = received S.floatText (withContent e content) := by
        intro content hc
        simp only [received, pageItem, withContent, cRecordOf, hid, hkey, hing, hc]
      rcases hcontent with hc | ⟨u, hu, hukey, hc⟩
      · exact hview _ hc
      · rw [hview _ hc]
        exact hok u hu e he hukey.symm (by rw [hid]; exact hflight)
    · have hfresh' : (s.c.records.nextId : ℤ) ≤ e'.id := by exact_mod_cast hfresh
      omega

theorem versions_upload {env : PostEnv} {payload : UploadPayload} (hs : Versions S K s)
    (hin : UploadsIn S K (.upload env payload)) (hok : KeepsInFlight S s (.upload env payload)) :
    Versions S K { s with c := (insertPayload S.ccfg env payload s.c).1 } where
  c_keys := by
    intro e' he'
    change e' ∈ (insertPayload S.ccfg env payload s.c).1.records.rows at he'
    rcases records_insertPayload S.ccfg env payload s.c with hsame | hrows
    · rw [hsame] at he'
      exact hs.c_keys e' he'
    · rw [hrows] at he'
      rcases mem_upsertRows he' with ⟨e, he, -, hkey, -⟩ | ⟨-, -, u, hu, hkey⟩
      · exact hkey ▸ hs.c_keys e he
      · exact hkey ▸ hin u hu
  page := by
    intro r hr
    have hpage := hs.page r hr
    refine ⟨hpage.known.insertPayload _ _ _, hpage.key_mem, ?_, hpage.newest⟩
    intro e' he' hid
    obtain ⟨e, he, hide, hview⟩ := received_upload hok he' (by rw [hid]; exact hpage.known.lt)
      (Or.inl ⟨r, hr, hid.symm⟩)
    rw [hview]
    exact hpage.current e he (by rw [hide]; exact hid)
  page_nodup := hs.page_nodup
  replica := fun x hx =>
    ⟨(hs.replica x hx).key, (hs.replica x hx).key_mem, (hs.replica x hx).known.insertPayload _ _ _⟩
  queue := fun q hq => ⟨(hs.queue q hq).key, (hs.queue q hq).key_mem, (hs.queue q hq).stored⟩
  queue_off := hs.queue_off
  jobs := fun j hj =>
    ⟨(hs.jobs j hj).known.insertPayload _ _ _, (hs.jobs j hj).stored, (hs.jobs j hj).row⟩
  jobs_nodup := hs.jobs_nodup
  content := by
    intro e' he' x hx hid hpending
    have hlt : (e'.id : ℤ) < s.c.records.nextId := by
      rw [← hid]
      exact (hs.replica x hx).known.lt
    obtain ⟨e, he, hide, hview⟩ := received_upload hok he' hlt (Or.inr hpending)
    rw [hview]
    exact hs.content e he x hx (by rw [hide]; exact hid) (by rw [hide]; exact hpending)

/-! ## Storing a record -/

/-- The replicated rows after a record is stored: those of other keys, and the row of the record. -/
theorem replica_store (hK : Set.InjOn S.env.collate K) (hs : Versions S K s) {now : ℤ} {r : CRecord}
    {b : ReplicatorDb} (hr : r.recordKey ∈ K) (hstore : storeRecord S.env S.cfg now r s.b = some b) :
    (∀ x ∈ b.replicated.rows, (x ∈ s.b.replicated.rows ∧ x.val.recordKey ≠ r.recordKey) ∨
      (x.key = S.env.collate r.recordKey ∧ x.val = replicatedOf r)) ∧
    (∀ x ∈ s.b.replicated.rows, x.val.recordKey ≠ r.recordKey → x ∈ b.replicated.rows) ∧
    ∃ x ∈ b.replicated.rows, x.val = replicatedOf r := by
  obtain ⟨_, -, htable, -, -⟩ := exists_stored S.env hstore
  have hrows : ∀ x ∈ b.replicated.rows, (x ∈ s.b.replicated.rows ∧ x.val.recordKey ≠ r.recordKey) ∨
      (x.key = S.env.collate r.recordKey ∧ x.val = replicatedOf r) := by
    intro x hx
    rw [htable] at hx
    rcases KeyedTable.mem_upsert.mp hx with ⟨hx, hne⟩ | ⟨x₀, hx₀, hkey, rfl⟩ | ⟨-, rfl⟩
    · refine Or.inl ⟨hx, fun heq => hne ?_⟩
      rw [(hs.replica x hx).key, heq]
    · refine Or.inr ⟨hkey, ?_⟩
      have hsame : x₀.val.recordKey = r.recordKey :=
        hK (hs.replica x₀ hx₀).key_mem hr ((hs.replica x₀ hx₀).key.symm.trans hkey)
      simp only [hsame]
      rfl
    · exact Or.inr ⟨rfl, rfl⟩
  refine ⟨hrows, ?_, ?_⟩
  · intro x hx hne
    rw [htable]
    refine (KeyedTable.mem_upsert_of_ne fun heq => hne ?_).mpr hx
    exact hK (hs.replica x hx).key_mem hr ((hs.replica x hx).key.symm.trans heq)
  · have hmem : S.env.collate r.recordKey ∈ b.replicated.keys := by
      rw [htable]
      exact KeyedTable.mem_keys_upsert.mpr (Or.inr rfl)
    obtain ⟨x, hx, hkey⟩ := KeyedTable.mem_keys.mp hmem
    rcases hrows x hx with ⟨hold, hne⟩ | ⟨-, hval⟩
    · exact absurd (hK (hs.replica x hold).key_mem hr ((hs.replica x hold).key.symm.trans hkey)) hne
    · exact ⟨x, hx, hval⟩

/-- The queue rows after a record is stored: those of other keys, and a pending row for the record. -/
theorem queue_store (hK : Set.InjOn S.env.collate K) (hs : Versions S K s) {now : ℤ} {r : CRecord}
    {b : ReplicatorDb} (hr : r.recordKey ∈ K) (hstore : storeRecord S.env S.cfg now r s.b = some b)
    {q : Entry Str QueueRow} (hq : q ∈ b.queue.rows) :
    (q ∈ s.b.queue.rows ∧ q.val.recordKey ≠ r.recordKey) ∨
      (q.key = S.env.collate r.recordKey ∧ q.val.recordKey = r.recordKey ∧ q.val.cRecordId = r.id ∧
        q.val.status = .pending) := by
  obtain ⟨_, -, -, -, htable⟩ := exists_stored S.env hstore
  rw [htable] at hq
  split_ifs at hq with hon
  · rcases mem_enqueue hq with ⟨hq, hne⟩ | ⟨hkey, hid, hstatus, ⟨q₀, hq₀, -, hkey₀, hrecord⟩ | ⟨-, hrecord⟩⟩
    · refine Or.inl ⟨hq, fun heq => hne ?_⟩
      rw [(hs.queue q hq).key, heq]
    · refine Or.inr ⟨hkey, ?_, hid, hstatus⟩
      rw [hrecord]
      exact hK (hs.queue q₀ hq₀).key_mem hr ((hs.queue q₀ hq₀).key.symm.trans (hkey₀.trans hkey))
    · exact Or.inr ⟨hkey, hrecord, hid, hstatus⟩
  · rw [hs.queue_off (by simpa using hon)] at hq
    cases hq

theorem versions_store (hK : Set.InjOn S.env.collate K) (hs : Versions S K s) {now : ℤ} {r : CRecord}
    {rest : List CRecord} {b : ReplicatorDb} (hpage : s.page = r :: rest)
    (hstore : storeRecord S.env S.cfg now r s.b = some b) :
    Versions S K { s with b, page := rest } := by
  have hr : PageOk S K s r := hs.page r (by rw [hpage]; exact List.mem_cons_self)
  obtain ⟨hrows, hkept, x₁, hx₁, hval₁⟩ := replica_store hK hs hr.key_mem hstore
  have hnodup := hs.page_nodup
  rw [hpage, List.map_cons, List.nodup_cons] at hnodup
  refine ⟨hs.c_keys, ?_, hnodup.2, ?_, ?_, ?_, ?_, hs.jobs_nodup, ?_⟩
  · intro r' hr'
    have hok := hs.page r' (by rw [hpage]; exact List.mem_cons_of_mem r hr')
    refine ⟨hok.known, hok.key_mem, hok.current, ?_⟩
    intro x hx hkey
    rcases hrows x hx with ⟨hold, -⟩ | ⟨-, hval⟩
    · exact hok.newest x hold hkey
    · -- the rest of the page has other keys than the record that was stored
      rw [hval] at hkey
      have hkey' : r.recordKey = r'.recordKey := hkey
      exact absurd (hkey' ▸ List.mem_map_of_mem hr') hnodup.1
  · intro x hx
    rcases hrows x hx with ⟨hold, -⟩ | ⟨hkey, hval⟩
    · exact ⟨(hs.replica x hold).key, (hs.replica x hold).key_mem, (hs.replica x hold).known⟩
    · refine ⟨?_, ?_, ?_⟩
      · rw [hval]
        exact hkey
      · rw [hval]
        exact hr.key_mem
      · rw [hval]
        exact hr.known
  · intro q hq
    rcases queue_store hK hs hr.key_mem hstore hq with ⟨hold, hne⟩ | ⟨hkey, hrecord, hid, -⟩
    · have hok := hs.queue q hold
      obtain ⟨x, hx, hxkey, hxid⟩ := hok.stored
      exact ⟨hok.key, hok.key_mem, x, hkept x hx (by rw [hxkey]; exact hne), hxkey, hxid⟩
    · refine ⟨by rw [hrecord]; exact hkey, by rw [hrecord]; exact hr.key_mem, x₁, hx₁, ?_, ?_⟩
      · rw [hval₁, hrecord]
        rfl
      · rw [hval₁, hid]
        rfl
  · intro hoff
    show b.queue.rows = []
    obtain ⟨_, -, -, -, htable⟩ := exists_stored S.env hstore
    rw [htable, hoff]
    exact hs.queue_off hoff
  · intro j hj
    have hok := hs.jobs j hj
    refine ⟨hok.known, ?_, ?_⟩
    · obtain ⟨x, hx, hxkey, hxid⟩ := hok.stored
      by_cases hsame : x.val.recordKey = r.recordKey
      · refine ⟨x₁, hx₁, ?_, ?_⟩
        · rw [hval₁, ← hxkey, hsame]
          rfl
        · rw [hval₁]
          exact hxid.trans (hr.newest x hx hsame)
      · exact ⟨x, hkept x hx hsame, hxkey, hxid⟩
    · intro q hq hqid
      rcases queue_store hK hs hr.key_mem hstore hq with ⟨hold, -⟩ | ⟨-, -, -, hstatus⟩
      · exact hok.row q hold hqid
      · rw [hstatus]
        exact QueueStatus.noConfusion
  · intro e he x hx hid hpending
    rcases hrows x hx with ⟨hold, hne⟩ | ⟨-, hval⟩
    · refine hs.content e he x hold hid ?_
      rcases hpending with ⟨q, hq, hstatus, hqid⟩ | hjob
      · rcases queue_store hK hs hr.key_mem hstore hq with ⟨hqold, -⟩ | ⟨-, -, hqid', -⟩
        · exact Or.inl ⟨q, hqold, hstatus, hqid⟩
        · -- the row now queued is not the row of `x`, which has another key
          have hkeyx := (hs.replica x hold).known.key_of_id e he hid.symm
          have hkeyr := hr.known.key_of_id e he (hqid.symm.trans hqid')
          exact absurd (hkeyx.symm.trans hkeyr) hne
      · exact Or.inr hjob
    · rw [hval] at hid ⊢
      have hid' : r.id = e.id := hid
      rw [← hr.current e he hid'.symm]

/-! ## The other steps -/

theorem versions_fetch (hs : Versions S K s) :
    Versions S K
      { s with page := fetchedPage S.timeText S.floatText S.ccfg S.cfg s.c.records } := by
  refine ⟨hs.c_keys, ?_, ?_, fun x hx => ⟨(hs.replica x hx).key, (hs.replica x hx).key_mem,
    (hs.replica x hx).known⟩, fun q hq => ⟨(hs.queue q hq).key, (hs.queue q hq).key_mem,
    (hs.queue q hq).stored⟩, hs.queue_off, fun j hj => ⟨(hs.jobs j hj).known, (hs.jobs j hj).stored,
    (hs.jobs j hj).row⟩, hs.jobs_nodup, hs.content⟩
  · intro r hr
    obtain ⟨e, he, rfl⟩ := mem_fetchedPage hr
    refine ⟨known_of_row he, hs.c_keys e he, ?_, ?_⟩
    · intro e' he' hid
      have hid' : (e'.id : ℤ) = e.id := hid
      rw [KeyedTable.eq_of_id_eq he' he (by exact_mod_cast hid')]
    · intro x hx hkey
      exact (hs.replica x hx).known.id_le e he hkey.symm
  · show ((fetchedPage S.timeText S.floatText S.ccfg S.cfg s.c.records).map CRecord.recordKey).Nodup
    rw [fetchedPage_eq, List.map_map]
    exact nodup_map_window s.c.records.key_nodup

theorem versions_load (hs : Versions S K s) (now : ℤ) :
    Versions S K
      { s with jobs := loadDeleteJobs S.cfg now s.b.queue, outcome := none } := by
  refine ⟨hs.c_keys, fun r hr => ⟨(hs.page r hr).known, (hs.page r hr).key_mem, (hs.page r hr).current,
    (hs.page r hr).newest⟩, hs.page_nodup, fun x hx => ⟨(hs.replica x hx).key,
    (hs.replica x hx).key_mem, (hs.replica x hx).known⟩, fun q hq => ⟨(hs.queue q hq).key,
    (hs.queue q hq).key_mem, (hs.queue q hq).stored⟩, hs.queue_off, ?_, ?_, ?_⟩
  · intro j hj
    obtain ⟨q, hq, hstatus, rfl⟩ := mem_loadDeleteJobs hj
    obtain ⟨x, hx, hxkey, hxid⟩ := (hs.queue q hq).stored
    refine ⟨?_, ⟨x, hx, hxkey, le_of_eq hxid.symm⟩, ?_⟩
    · show Known s.c.records q.val.cRecordId q.val.recordKey
      rw [← hxkey, ← hxid]
      exact (hs.replica x hx).known
    · intro q' hq' hid
      rw [KeyedTable.eq_of_id_eq hq' hq hid]
      exact hstatus
  · show ((loadDeleteJobs S.cfg now s.b.queue).map DeleteJob.id).Nodup
    rw [loadDeleteJobs, List.map_map]
    exact nodup_map_window (s.b.queue.id_nodup.sublist (List.filter_sublist.map _))
  · intro e he x hx hid hpending
    refine hs.content e he x hx hid (Or.inl ?_)
    rcases hpending with hqueue | ⟨j, hj, hjid⟩
    · exact hqueue
    · obtain ⟨q, hq, hstatus, rfl⟩ := mem_loadDeleteJobs hj
      exact ⟨q, hq, hstatus, hjid⟩

theorem versions_delete (hs : Versions S K s) {cutoff : Str} {job : DeleteJob}
    {outcome : Option DeleteOutcome} {sent : List ℤ} :
    Versions S K { s with
      c := { s.c with records := (deleteByID S.ccfg s.c.records cutoff job.cRecordId).2 }
      outcome
      sent } := by
  refine ⟨fun e he => hs.c_keys e ((mem_deleteByID S.ccfg).mp he).1, ?_, hs.page_nodup, ?_, ?_, hs.queue_off,
    ?_, hs.jobs_nodup, fun e he => hs.content e ((mem_deleteByID S.ccfg).mp he).1⟩
  · intro r hr
    have hok := hs.page r hr
    exact ⟨hok.known.deleteByID S.ccfg cutoff job.cRecordId, hok.key_mem,
      fun e he => hok.current e ((mem_deleteByID S.ccfg).mp he).1, hok.newest⟩
  · intro x hx
    have hok := hs.replica x hx
    exact ⟨hok.key, hok.key_mem, hok.known.deleteByID S.ccfg cutoff job.cRecordId⟩
  · intro q hq
    have hok := hs.queue q hq
    exact ⟨hok.key, hok.key_mem, hok.stored⟩
  · intro j hj
    have hok := hs.jobs j hj
    exact ⟨hok.known.deleteByID S.ccfg cutoff job.cRecordId, hok.stored, hok.row⟩

theorem versions_mark (hs : Versions S K s) {now : ℤ} {job : DeleteJob} {rest : List DeleteJob}
    {outcome : DeleteOutcome} (hjobs : s.jobs = job :: rest) :
    Versions S K { s with
      b := { s.b with queue := markJob now job outcome s.b.queue }
      jobs := rest
      outcome := none } := by
  have hjob : JobOk s job := hs.jobs job (by rw [hjobs]; exact List.mem_cons_self)
  have hnodup := hs.jobs_nodup
  rw [hjobs, List.map_cons, List.nodup_cons] at hnodup
  refine ⟨hs.c_keys, fun r hr => ⟨(hs.page r hr).known, (hs.page r hr).key_mem, (hs.page r hr).current,
    (hs.page r hr).newest⟩, hs.page_nodup, fun x hx => ⟨(hs.replica x hx).key,
    (hs.replica x hx).key_mem, (hs.replica x hx).known⟩, ?_, ?_, ?_, hnodup.2, ?_⟩
  · intro q hq
    rcases mem_markJob hq with ⟨hq, -⟩ | ⟨q₀, hq₀, -, -, hkey, hrecord, hid⟩
    · exact ⟨(hs.queue q hq).key, (hs.queue q hq).key_mem, (hs.queue q hq).stored⟩
    · have hok := hs.queue q₀ hq₀
      refine ⟨by rw [hkey, hrecord]; exact hok.key, by rw [hrecord]; exact hok.key_mem, ?_⟩
      rw [hrecord, hid]
      exact hok.stored
  · intro hoff
    have hnone := hs.queue_off hoff
    apply List.eq_nil_iff_forall_not_mem.mpr
    intro q hq
    rcases mem_markJob hq with ⟨hq, -⟩ | ⟨q₀, hq₀, -⟩
    · rw [hnone] at hq
      cases hq
    · rw [hnone] at hq₀
      cases hq₀
  · intro j hj
    have hok := hs.jobs j (by rw [hjobs]; exact List.mem_cons_of_mem job hj)
    refine ⟨hok.known, hok.stored, ?_⟩
    intro q hq hid
    rcases mem_markJob hq with ⟨hq, -⟩ | ⟨q₀, hq₀, hidjob, hid₀, -⟩
    · exact hok.row q hq hid
    · -- the marked row is that of the job, and no other job has its id
      have hsame : job.id = j.id := hidjob.symm.trans (hid₀.symm.trans hid)
      exact absurd (hsame ▸ List.mem_map_of_mem hj) hnodup.1
  · intro e he x hx hid hpending
    refine hs.content e he x hx hid ?_
    rcases hpending with ⟨q, hq, hstatus, hqid⟩ | ⟨j, hj, hjid⟩
    · rcases mem_markJob hq with ⟨hq, -⟩ | ⟨q₀, hq₀, hidjob, -, -, -, hid₀⟩
      · exact Or.inl ⟨q, hq, hstatus, hqid⟩
      · exact Or.inl ⟨q₀, hq₀, hjob.row q₀ hq₀ hidjob, hid₀.symm.trans hqid⟩
    · exact Or.inr ⟨j, by rw [hjobs]; exact List.mem_cons_of_mem job hj, hjid⟩

/-- Dropping the page or the jobs leaves fewer things to say. -/
theorem versions_drop (hs : Versions S K s) {page : List CRecord} {jobs : List DeleteJob}
    {outcome : Option DeleteOutcome} {sent : List ℤ} (hpage : page.Sublist s.page)
    (hjobs : jobs.Sublist s.jobs) : Versions S K { s with page, jobs, outcome, sent } := by
  refine ⟨hs.c_keys, ?_, hs.page_nodup.sublist (hpage.map _), fun x hx => ⟨(hs.replica x hx).key,
    (hs.replica x hx).key_mem, (hs.replica x hx).known⟩, fun q hq => ⟨(hs.queue q hq).key,
    (hs.queue q hq).key_mem, (hs.queue q hq).stored⟩, hs.queue_off, ?_,
    hs.jobs_nodup.sublist (hjobs.map _), ?_⟩
  · intro r hr
    have hok := hs.page r (hpage.subset hr)
    exact ⟨hok.known, hok.key_mem, hok.current, hok.newest⟩
  · intro j hj
    have hok := hs.jobs j (hjobs.subset hj)
    exact ⟨hok.known, hok.stored, hok.row⟩
  · intro e he x hx hid hpending
    refine hs.content e he x hx hid (hpending.imp_right ?_)
    rintro ⟨j, hj, hjid⟩
    exact ⟨j, hjobs.subset hj, hjid⟩

theorem versions_step (hK : Set.InjOn S.env.collate K) (hs : Versions S K s) (hin : UploadsIn S K a)
    (hok : KeepsInFlight S s a) (h : Stepped S s a s') : Versions S K s' := by
  cases h with
  | upload env payload => exact versions_upload hs hin hok
  | fetch hpage => exact versions_fetch hs
  | store now r rest b hpage hstore => exact versions_store hK hs hpage hstore
  | abortFetch => exact versions_drop hs (List.nil_sublist _) (List.Sublist.refl _)
  | load now henabled hjobs => exact versions_load hs now
  | delete cutoff lost job rest hjobs houtcome => exact versions_delete hs
  | refuse cause job rest hjobs houtcome =>
      exact versions_drop hs (List.Sublist.refl _) (List.Sublist.refl _)
  | mark now job rest outcome hjobs houtcome => exact versions_mark hs hjobs
  | abortCleanup => exact versions_drop hs (List.Sublist.refl _) (List.nil_sublist _)
  | crash => exact versions_drop hs (List.nil_sublist _) (List.nil_sublist _)

/-! ## Deleting what is stored -/

/-- In a state that satisfies the invariant, what a `DELETE` removes is stored. -/
theorem deletes_of_versions (hs : Versions S K s) : DeletesOnlyStored S s a := by
  cases a with
  | delete cutoff lost =>
      intro job hjob e he hid _
      have hok := hs.jobs job (List.mem_of_mem_head? hjob)
      have hkey := hok.known.key_of_id e he hid
      obtain ⟨x, hx, hxkey, hle⟩ := hok.stored
      have hge := (hs.replica x hx).known.id_le e he (hkey.trans hxkey.symm)
      have hxid : x.val.cRecordId = e.id := by omega
      refine ⟨x, hx, ?_, hs.content e he x hx hxid (Or.inr ⟨job, List.mem_of_mem_head? hjob, hid.symm⟩)⟩
      rw [(hs.replica x hx).key, hxkey, hkey]
  | _ => trivial

/-- In a run in which uploads use keys that MySQL tells apart and change no row in flight, a `DELETE`
only ever removes from C the content that B holds. -/
theorem deletes_stored (S : Setup) (K : Set Str) (hK : Set.InjOn S.env.collate K) {s : State}
    (h : (cluster S).ReachedBy (fun s a => UploadsIn S K a ∧ KeepsInFlight S s a) s) (a : Action) :
    DeletesOnlyStored S s a := by
  refine deletes_of_versions (K := K) (h.invariant ?_ ?_)
  · intro s₀ hs₀
    have hfresh : s₀ = freshState := hs₀
    subst hfresh
    exact versions_fresh S K
  · intro s₀ a₀ s₁ hs hstep₀ hok
    exact versions_step hK hs hok.1 hok.2 (stepped_of_step hstep₀)

instance (s : State) (id : ℤ) : Decidable (InFlight s id) :=
  inferInstanceAs (Decidable ((∃ r ∈ s.page, r.id = id) ∨
    (∃ q ∈ s.b.queue.rows, q.val.status ≠ .done ∧ q.val.cRecordId = id) ∨
    ∃ j ∈ s.jobs, j.cRecordId = id))

instance [DecidablePred (· ∈ K)] : DecidablePred (UploadsIn S K)
  | .upload env payload => inferInstanceAs (Decidable (∀ u ∈ rowsOf S.ccfg env payload, u.key ∈ K))
  | .fetch | .store _ | .abortFetch | .load _ | .delete _ _ | .refuse _ | .mark _ | .abortCleanup
  | .crash => isTrue trivial

instance (s : State) : DecidablePred (KeepsInFlight S s)
  | .upload env payload => inferInstanceAs (Decidable (∀ u ∈ rowsOf S.ccfg env payload,
      ∀ e ∈ s.c.records.rows, e.key = u.key → InFlight s e.id →
        received S.floatText (withContent e u.content) = received S.floatText e))
  | .fetch | .store _ | .abortFetch | .load _ | .delete _ _ | .refuse _ | .mark _ | .abortCleanup
  | .crash => isTrue trivial

instance (s : State) : DecidablePred (DeletesOnlyStored S s)
  | .delete cutoff _ => inferInstanceAs (Decidable (∀ job ∈ s.jobs.head?, ∀ e ∈ s.c.records.rows,
      (e.id : ℤ) = job.cRecordId → Str.lt e.val.effectiveTime cutoff = true →
      ∃ x ∈ s.b.replicated.rows, x.key = S.env.collate e.key ∧
        x.val = replicatedOf (received S.floatText e)))
  | .upload _ _ | .fetch | .store _ | .abortFetch | .load _ | .refuse _ | .mark _ | .abortCleanup
  | .crash => isTrue trivial

/-- The key of the record that `uploadOf "a"` uploads. -/
def keysOfA : Set Str := {Str.lit "weight_info:a"}

instance : DecidablePred (· ∈ keysOfA) := fun k =>
  inferInstanceAs (Decidable (k = Str.lit "weight_info:a"))

/-- A record is uploaded, stored and loaded for cleanup, and then deleted. -/
theorem deletes_stored_oldRecord : ∃ s, (cluster smallSetup).ReachedBy
      (fun s a => UploadsIn smallSetup keysOfA a ∧ KeepsInFlight smallSetup s a) s ∧
    s.jobs ≠ [] ∧ s.c.records.rows ≠ [] ∧
    DeletesOnlyStored smallSetup s (.delete (Str.lit "2026-06-01T00:00:00Z") none) := by
  obtain ⟨s, hs, hrun⟩ := System.exists_of_exec (S := cluster smallSetup) (s := freshState)
    (P := fun s => !s.jobs.isEmpty && !s.c.records.rows.isEmpty) rfl
    (show ((cluster smallSetup).exec
      (fun s a => UploadsIn smallSetup keysOfA a ∧ KeepsInFlight smallSetup s a) freshState
      [uploadOf "a" "2026-01-01T00:00:00Z", .fetch, .store 0, .load 0]).any _ = true by
        decide +kernel)
  have hinj : Set.InjOn smallSetup.env.collate keysOfA := Set.injOn_singleton _ _
  simp only [Bool.and_eq_true, Bool.not_eq_true', List.isEmpty_eq_false_iff] at hrun
  exact ⟨s, hs, hrun.1, hrun.2, deletes_stored smallSetup keysOfA hinj hs _⟩

/-- A record that is uploaded again after B has loaded its job is deleted although B does not hold
the new content. -/
theorem not_deletesOnlyStored_uploadedAgain : ∃ s s', (cluster smallSetup).Reachable s ∧
    (cluster smallSetup).step s (.delete (Str.lit "2026-06-01T00:00:00Z") none) = some s' ∧
    ¬ DeletesOnlyStored smallSetup s (.delete (Str.lit "2026-06-01T00:00:00Z") none) := by
  obtain ⟨s, hs, hrun⟩ := System.exists_of_exec (S := cluster smallSetup) (s := freshState)
    (P := fun s => (step smallSetup s (.delete (Str.lit "2026-06-01T00:00:00Z") none)).isSome &&
      !decide (DeletesOnlyStored smallSetup s (.delete (Str.lit "2026-06-01T00:00:00Z") none))) rfl
    (show ((cluster smallSetup).exec (fun _ _ => True) freshState
      [uploadOf "a" "2026-01-01T00:00:00Z", .fetch, .store 0, .load 0,
        uploadOf "a" "2026-01-02T00:00:00Z"]).any _ = true by decide +kernel)
  rw [Bool.and_eq_true, Bool.not_eq_true', decide_eq_false_iff_not] at hrun
  obtain ⟨s', hs'⟩ := Option.isSome_iff_exists.mp hrun.1
  exact ⟨s, s', hs, hs', hrun.2⟩

end WeighingSync.Replicator
