import WeighingSync.Common.Replay
import WeighingSync.Common.Runs
import WeighingSync.Replicator.Cluster
import WeighingSync.Replicator.FetchPass

/-!
# The replica

What B has of C, without the queue: the tables that result from upserting the first records of each
page that it has read, in the order in which it read them (`replica_of_pages`). A page stored again
changes nothing (`storePage_twice`), and from any state one undisturbed pass over a C that fits on a
page makes B mirror it (`mirrors_after_pass`).
-/

namespace WeighingSync.Replicator

open Go Receiver

/-! ## The tables after a list of records -/

section

variable (env : StoreEnv)

/-- The row of a record in the business table of its entity type. -/
def businessRowOf (r : CRecord) : BusinessRow where
  recordKey := r.recordKey
  cRecordId := r.id
  columns := businessColumns env (businessFields r.entity)
    (((parse r.record).bind Json.decodeObject).getD [])
  rawRecord := r.record

/-- The replicated rows after a list of records. -/
def replicate (t : KeyedTable Str ReplicatedRow) (records : List CRecord) : KeyedTable Str ReplicatedRow :=
  t.upsertAll (fun r => env.collate r.recordKey) replicatedOf
    (fun r old => { replicatedOf r with recordKey := old.recordKey }) records

/-- The rows of a business table after a list of records. -/
def replicateBusiness (t : KeyedTable Str BusinessRow) (records : List CRecord) :
    KeyedTable Str BusinessRow :=
  t.upsertAll (fun r => env.collate r.recordKey) (businessRowOf env)
    (fun r old => { businessRowOf env r with recordKey := old.recordKey }) records

/-- The records that go to the business table of an entity type. -/
def ofTable (entityType : Str) (records : List CRecord) : List CRecord :=
  records.filter fun r => entityType = Str.lit "weight_photo" ↔ r.entity = Str.lit "weight_photo"

/-- The tables of B, but for the queue, are those before with the records upserted. -/
structure Applied (records : List CRecord) (db db' : ReplicatorDb) : Prop where
  replicated : db'.replicated = replicate env db.replicated records
  business : ∀ entityType,
    db'.business entityType = replicateBusiness env (db.business entityType) (ofTable entityType records)

end

section

variable {env : StoreEnv} {cfg : Config} {now : ℤ} {r : CRecord} {records records' : List CRecord}
  {db db' db'' : ReplicatorDb}

theorem Applied.nil : Applied env [] db db := ⟨rfl, fun _ => rfl⟩

theorem Applied.trans (h : Applied env records db db') (h' : Applied env records' db' db'') :
    Applied env (records ++ records') db db'' where
  replicated := by
    rw [h'.replicated, h.replicated]
    exact (KeyedTable.upsertAll_append _ records records').symm
  business entityType := by
    rw [h'.business, h.business, ofTable, ofTable, ofTable, List.filter_append]
    exact (KeyedTable.upsertAll_append _ _ _).symm

theorem applied_storeRecord (h : storeRecord env cfg now r db = some db') : Applied env [r] db db' := by
  obtain ⟨values, hdecoded, hreplicated, hbusiness, -⟩ := exists_stored env h
  refine ⟨hreplicated, fun entityType => ?_⟩
  have hrow : businessRowOf env r = ⟨r.recordKey, r.id,
      businessColumns env (businessFields r.entity) values, r.record⟩ := by
    rw [businessRowOf, hdecoded]
    rfl
  rw [hbusiness, ofTable, List.filter_singleton]
  split_ifs with hsame
  · rw [decide_eq_true hsame, cond_true, replicateBusiness, KeyedTable.upsertAll, List.foldl_cons,
      List.foldl_nil, hrow]
    rfl
  · rw [decide_eq_false hsame]
    rfl

/-- `storePage` upserts the records before the first that cannot be stored. -/
theorem applied_storePage (env : StoreEnv) (cfg : Config) (now : ℤ) (page : List CRecord)
    (db : ReplicatorDb) :
    Applied env (page.takeWhile fun r => Storable r) db (storePage env cfg now page db) := by
  rw [storePage_takeWhile]
  have hall : ∀ r ∈ page.takeWhile fun r => Storable r, Storable r := by
    intro r hr
    have hstorable := List.mem_takeWhile_imp hr
    exact of_decide_eq_true hstorable
  generalize (page.takeWhile fun r => Storable r) = stored at hall
  induction stored generalizing db with
  | nil => exact .nil
  | cons r stored ih =>
      obtain ⟨hr, hstored⟩ := List.forall_mem_cons.mp hall
      obtain ⟨db', hdb'⟩ : ∃ db', storeRecord env cfg now r db = some db' := storeRecord_isSome hr db
      rw [storePage, if_pos hr.1, hdb']
      exact (applied_storeRecord hdb').trans (ih db' hstored)

theorem overwrites_replicated : KeyedTable.Overwrites replicatedOf
    (fun r old => { replicatedOf r with recordKey := old.recordKey }) ReplicatedRow.recordKey where
  congr := fun _ _ _ h => by rw [h]
  keep_upd := fun _ _ => rfl
  upd_ins := fun _ => rfl

theorem overwrites_business (env : StoreEnv) : KeyedTable.Overwrites (businessRowOf env)
    (fun r old => { businessRowOf env r with recordKey := old.recordKey }) BusinessRow.recordKey where
  congr := fun _ _ _ h => by rw [h]
  keep_upd := fun _ _ => rfl
  upd_ins := fun _ => rfl

/-- A page that is stored again leaves the rows of the three tables as they are, ids included, whatever it
holds and wherever storing it stops. The rows are without `replicated_at`, which every upsert sets. -/
theorem storePage_twice (env : StoreEnv) (cfg : Config) (now now' : ℤ) (page : List CRecord)
    (db : ReplicatorDb) :
    let once := storePage env cfg now page db
    let twice := storePage env cfg now' page once
    twice.replicated.rows = once.replicated.rows ∧ twice.weightInfo.rows = once.weightInfo.rows ∧
      twice.weightPhoto.rows = once.weightPhoto.rows := by
  intro once twice
  have honce : Applied env _ db once := applied_storePage env cfg now page db
  have htwice : Applied env _ once twice := applied_storePage env cfg now' page once
  have hbusiness : ∀ entityType, twice.business entityType = once.business entityType := by
    intro entityType
    rw [htwice.business, honce.business]
    exact (overwrites_business env).upsertAll_twice _ _
  have hreplicated : twice.replicated = once.replicated := by
    rw [htwice.replicated, honce.replicated]
    exact overwrites_replicated.upsertAll_twice _ _
  exact ⟨congrArg KeyedTable.rows hreplicated, congrArg KeyedTable.rows (hbusiness (Str.lit "weight_info")),
    congrArg KeyedTable.rows (hbusiness (Str.lit "weight_photo"))⟩

end

/-! ## What the tables hold of the records -/

/-- A replicated row is that of a record, and so is the business row of its key, but for the text of the
key. -/
def Copies (env : StoreEnv) (db : ReplicatorDb) (r : CRecord) (x : Entry Str ReplicatedRow) : Prop :=
  x.val = { replicatedOf r with recordKey := x.val.recordKey } ∧
    ∃ y ∈ (db.business r.entity).rows, y.key = x.key ∧
      y.val = { businessRowOf env r with recordKey := y.val.recordKey }

/-- B mirrors a list of records: it has rows for exactly their keys, each that of the last record of the
key. -/
structure Mirrors (env : StoreEnv) (records : List CRecord) (db : ReplicatorDb) : Prop where
  keys : ∀ key, key ∈ db.replicated.keys ↔ ∃ r ∈ records, env.collate r.recordKey = key
  rows : ∀ x ∈ db.replicated.rows, ∃ r,
    lastOf (fun r => env.collate r.recordKey) records x.key = some r ∧ Copies env db r x

/-- What upserting records leaves under the key of one of them. -/
theorem Applied.copies {env : StoreEnv} {records : List CRecord} {db db' : ReplicatorDb}
    (h : Applied env records db db') {x : Entry Str ReplicatedRow} (hx : x ∈ db'.replicated.rows)
    {r : CRecord} (hr : lastOf (fun r => env.collate r.recordKey) records x.key = some r) :
    Copies env db' r x := by
  have hlast : lastOf (fun r => env.collate r.recordKey) (ofTable r.entity records) x.key = some r :=
    KeyedTable.lastOf_filter hr (decide_eq_true Iff.rfl)
  obtain ⟨hmem, hkey⟩ := mem_of_lastOf hlast
  refine ⟨?_, ?_⟩
  · rw [h.replicated] at hx
    exact (overwrites_replicated.settled hx hr).symm
  · have hwritten : x.key ∈ (db'.business r.entity).keys := by
      rw [h.business]
      exact KeyedTable.mem_keys_upsertAll.mpr (Or.inr ⟨r, hmem, hkey⟩)
    obtain ⟨y, hy, hykey⟩ := KeyedTable.mem_keys.mp hwritten
    refine ⟨y, hy, hykey, ?_⟩
    rw [h.business] at hy
    exact ((overwrites_business env).settled hy (hykey ▸ hlast)).symm

/-- Tables that were empty mirror the records that were upserted. -/
theorem Applied.mirrors {env : StoreEnv} {records : List CRecord} {db : ReplicatorDb}
    (h : Applied env records emptyDb db) : Mirrors env records db := by
  have hkeys : ∀ key, key ∈ db.replicated.keys ↔ ∃ r ∈ records, env.collate r.recordKey = key := by
    intro key
    rw [h.replicated, replicate, KeyedTable.mem_keys_upsertAll]
    exact or_iff_right List.not_mem_nil
  refine ⟨hkeys, fun x hx => ?_⟩
  obtain ⟨r, hr, hkey⟩ := (hkeys x.key).mp (KeyedTable.mem_keys.mpr ⟨x, hx, rfl⟩)
  have hmem : x.key ∈ records.map fun r => env.collate r.recordKey := List.mem_map.mpr ⟨r, hr, hkey⟩
  obtain ⟨r', hr'⟩ := exists_lastOf hmem
  exact ⟨r', hr', h.copies hx hr'⟩

/-! ## The pages that B has read -/

/-- What a step adds to the tables of C that B has read: that of a fetch. -/
def tablesRead (s : State) (a : Action) (_ : State) : List RecordTable :=
  match a with
  | .fetch => [s.c.records]
  | _ => []

/-- The records that B has stored if it has read these tables and stored so many records of the page of
each. -/
def storedRecords (S : Setup) (tables : List RecordTable) (counts : List ℕ) : List CRecord :=
  (List.zipWith (fun t n => (fetchedPage S.timeText S.floatText S.ccfg S.cfg t).take n) tables
    counts).flatten

/-- The invariant: B has applied the first records of the pages, and goes on with the rest of the last
one, or with none. -/
def Reads (S : Setup) (s : State) (tables : List RecordTable) : Prop :=
  ∃ counts : List ℕ, counts.length = tables.length ∧
    Applied S.env (storedRecords S tables counts) emptyDb s.b ∧
    ∀ r rest, s.page = r :: rest → ∃ ts t cs n, tables = ts ++ [t] ∧ counts = cs ++ [n] ∧
      (fetchedPage S.timeText S.floatText S.ccfg S.cfg t).drop n = r :: rest

theorem storedRecords_append {S : Setup} {ts : List RecordTable} {cs : List ℕ}
    (hlength : cs.length = ts.length) (t : RecordTable) (n : ℕ) :
    storedRecords S (ts ++ [t]) (cs ++ [n]) = storedRecords S ts cs ++
      (fetchedPage S.timeText S.floatText S.ccfg S.cfg t).take n := by
  rw [storedRecords, List.zipWith_append hlength.symm, List.flatten_append]
  simp [storedRecords]

theorem reads_step {S : Setup} {s s' : State} {tables : List RecordTable} {a : Action}
    (hs : Reads S s tables) (hstep : step S s a = some s') : Reads S s' (tables ++ tablesRead s a s') := by
  obtain ⟨counts, hlength, happlied, hpage⟩ := hs
  -- a step that reads and stores nothing goes on with the same page, or with none
  have hother : tablesRead s a s' = [] → s'.b.replicated = s.b.replicated →
      (∀ entityType, s'.b.business entityType = s.b.business entityType) →
      (s'.page = s.page ∨ s'.page = []) → Reads S s' (tables ++ tablesRead s a s') := by
    intro hnone hreplicated hbusiness hrest
    rw [hnone, List.append_nil]
    refine ⟨counts, hlength, ⟨hreplicated.trans happlied.replicated,
      fun entityType => (hbusiness entityType).trans (happlied.business entityType)⟩, fun r rest hr => ?_⟩
    rcases hrest with hsame | hempty
    · exact hpage r rest (hsame ▸ hr)
    · rw [hempty] at hr
      cases hr
  cases stepped_of_step hstep with
  | fetch hempty =>
      refine ⟨counts ++ [0], by simp [tablesRead, hlength], ?_, fun r rest hr => ?_⟩
      · rw [tablesRead, storedRecords_append hlength, List.take_zero, List.append_nil]
        exact happlied
      · exact ⟨tables, s.c.records, counts, 0, rfl, rfl, hr⟩
  | store now r rest b hhead hstore =>
      -- the record that is stored is the next one of the last page
      obtain ⟨ts, t, cs, n, rfl, rfl, hdrop⟩ := hpage r rest hhead
      have hlength' : cs.length = ts.length := by simpa using hlength
      have hr : (fetchedPage S.timeText S.floatText S.ccfg S.cfg t)[n]? = some r := by
        rw [← List.head?_drop, hdrop]
        rfl
      have hrest : (fetchedPage S.timeText S.floatText S.ccfg S.cfg t).drop (n + 1) = rest := by
        rw [← List.tail_drop, hdrop]
        rfl
      show Reads S _ (ts ++ [t] ++ [])
      rw [List.append_nil]
      refine ⟨cs ++ [n + 1], by simp [hlength'], ?_, fun r' rest' hr' => ?_⟩
      · rw [storedRecords_append hlength', List.take_add_one, hr, ← List.append_assoc,
          ← storedRecords_append hlength']
        exact happlied.trans (applied_storeRecord hstore)
      · exact ⟨ts, t, cs, n + 1, rfl, rfl, hrest.trans hr'⟩
  | upload | load | delete | refuse | abortCleanup =>
      exact hother rfl rfl (fun _ => rfl) (Or.inl rfl)
  | mark => exact hother rfl rfl (fun _ => rfl) (Or.inl rfl)
  | abortFetch | crash => exact hother rfl rfl (fun _ => rfl) (Or.inr rfl)

/-- In every run B mirrors the records that it has stored: of each page of C that it has read, in the
order in which it read them, some first ones. -/
theorem replica_of_pages {S : Setup} {p : State × List RecordTable}
    (h : ((cluster S).logged tablesRead).Reachable p) : ∃ counts : List ℕ,
      counts.length = p.2.length ∧ Mirrors S.env (storedRecords S p.2 counts) p.1.b := by
  have hreads : Reads S p.1 p.2 := by
    refine System.logged_invariant (I := Reads S) (fun s hs => ?_)
      (fun s tables a s' hI hstep => reads_step hI hstep) h
    have hfresh : s = freshState := hs
    rw [hfresh]
    exact ⟨[], rfl, .nil, fun r rest hr => absurd hr (List.cons_ne_nil r rest).symm⟩
  obtain ⟨counts, hlength, happlied, -⟩ := hreads
  exact ⟨counts, hlength, happlied.mirrors⟩

/-- A record is read and stored, and then a second one. -/
theorem replica_of_pages_two : ∃ p, ((cluster smallSetup).logged tablesRead).Reachable p ∧
    (∃ counts : List ℕ, counts.length = p.2.length ∧
      Mirrors smallSetup.env (storedRecords smallSetup p.2 counts) p.1.b) ∧
    p.2.length = 2 ∧ p.1.b.replicated.rows.length = 2 := by
  obtain ⟨p, hp, hP⟩ := System.exists_of_exec (S := (cluster smallSetup).logged tablesRead)
    (K := fun _ _ => True) (s := (freshState, []))
    (l := [uploadOf "A" "2026-01-01T00:00:00Z", .fetch, .store 0, uploadOf "B" "2026-01-02T00:00:00Z",
      .fetch, .store 0])
    (P := fun p => decide (p.2.length = 2 ∧ p.1.b.replicated.rows.length = 2)) ⟨rfl, rfl⟩
    (by decide +kernel)
  exact ⟨p, hp, replica_of_pages hp, of_decide_eq_true hP⟩

/-! ## Catching up -/

section

variable {S : ServerConfig} {visit : Visit} {cfg : Config} {db : ReceiverDb}

/-- If the records of C fit on a page, they are those of the page. -/
theorem mem_pageRecords (hfits : db.records.rows.length ≤ pageSize cfg S.cfg) {r : CRecord} :
    r ∈ pageRecords S visit cfg db ↔ ∃ e ∈ db.records.rows, (received visit.floatText e).repair = r := by
  have hall : ∀ e, e ∈ pageRows S cfg db ↔ e ∈ db.records.rows := by
    intro e
    have hsplit : e ∈ db.records.rows ↔ e ∈ pageRows S cfg db ∨
      e ∈ beyond newestFirst (pageSize cfg S.cfg) db.records.rows := mem_iff_window_or_beyond
    rw [beyond_eq_nil_iff.mpr hfits] at hsplit
    exact (hsplit.trans (or_iff_left List.not_mem_nil)).symm
  simp only [pageRecords, List.mem_map, hall]

/-- Whatever B holds, one pass makes it mirror C if the reply is within 1 MiB and the records of C fit on a
page, can be stored, and have keys that MySQL tells apart. -/
theorem mirrors_after_pass (env : StoreEnv) (now : ℤ) (b : ReplicatorDb)
    (hfloat : ∀ literal t, visit.floatText literal = some t → (Json.num t).WellFormed)
    (hid : ∀ e ∈ db.records.rows, e.id < 2 ^ 63) (hok : (answer S visit cfg db).status = 200)
    (hsize : (pageJSON S visit cfg db).encode.size ≤ maxReply)
    (hfits : db.records.rows.length ≤ pageSize cfg S.cfg)
    (hraw : ∀ e ∈ db.records.rows, Storable (received visit.floatText e).repair)
    (hkeys : ∀ e ∈ db.records.rows, ∀ e' ∈ db.records.rows,
      env.collate e.key.repair = env.collate e'.key.repair → e = e') :
    let b' := (fetchAndStore env cfg now (answer S visit cfg db) b).1
    ∀ e ∈ db.records.rows, ∃ x ∈ b'.replicated.rows, x.key = env.collate e.key.repair ∧
      Copies env b' (received visit.floatText e).repair x := by
  intro b' e he
  have hstorable : ∀ r ∈ pageRecords S visit cfg db, Storable r := by
    intro r hr
    obtain ⟨e, he, rfl⟩ := (mem_pageRecords hfits).mp hr
    exact hraw e he
  have happlied : Applied env (pageRecords S visit cfg db) b b' := by
    have hpass : b' = storePage env cfg now (pageRecords S visit cfg db) b := by
      rw [storePage_takeWhile]
      exact (fst_fetchAndStore env now b hfloat hid hok).trans (by rw [passRecords, if_pos hsize])
    have h := applied_storePage env cfg now (pageRecords S visit cfg db) b
    rwa [List.takeWhile_eq_self_iff.mpr fun r hr => decide_eq_true (hstorable r hr), ← hpass] at h
  have hpage : (received visit.floatText e).repair ∈ pageRecords S visit cfg db :=
    (mem_pageRecords hfits).mpr ⟨e, he, rfl⟩
  have hwritten : env.collate e.key.repair ∈ b'.replicated.keys := by
    rw [happlied.replicated]
    exact KeyedTable.mem_keys_upsertAll.mpr (Or.inr ⟨_, hpage, rfl⟩)
  obtain ⟨x, hx, hkey⟩ := KeyedTable.mem_keys.mp hwritten
  have hlisted : x.key ∈ (pageRecords S visit cfg db).map fun r => env.collate r.recordKey :=
    List.mem_map.mpr ⟨_, hpage, hkey.symm⟩
  obtain ⟨r, hr⟩ := exists_lastOf hlisted
  -- the last record of the key is that of the only row of C with the key
  obtain ⟨hrpage, hrkey⟩ := mem_of_lastOf hr
  obtain ⟨e', he', rfl⟩ := (mem_pageRecords hfits).mp hrpage
  obtain rfl : e = e' := hkeys e he e' he' (hkey.symm.trans hrkey.symm)
  exact ⟨x, hx, hkey, happlied.copies hx hr⟩

end

/-- B without records, and C with two. -/
theorem mirrors_after_pass_two :
    let b' := (fetchAndStore exactEnv twoRecordConfig 0
      (answer sampleServer pageVisit twoRecordConfig twoRecordsAtC) emptyDb).1
    ∀ e ∈ twoRecordsAtC.records.rows, ∃ x ∈ b'.replicated.rows, x.key = exactEnv.collate e.key.repair ∧
      Copies exactEnv b' (received pageVisit.floatText e).repair x :=
  mirrors_after_pass exactEnv 0 emptyDb wellFormed_literalText (by decide +kernel) (by decide +kernel)
    (by decide +kernel) (by decide +kernel) (by decide +kernel) (by decide +kernel)

end WeighingSync.Replicator
