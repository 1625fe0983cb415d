import WeighingSync.Go.TimeText
import WeighingSync.Receiver.Actions
import WeighingSync.Receiver.Delete
import WeighingSync.Receiver.Nonces

/-!
# The receiver as a server

The handlers of `cmd/receiver/main.go` behind the router: a request is routed, authorised under the
credentials of the role of its route, and then does what its action says. The clock is read as
instants here, and the texts of the tables are those of `timeString`; a run of the server is a
sequence of requests, each of which is one transaction on the tables (`Timed` is what it keeps of
them).
-/

namespace WeighingSync.Receiver

open Go

/-! ## What a request meets -/

/-- What a request to store meets: the instants that time texts denote, the id it is given, its
readings of the clock, and which statements fail. -/
structure PostTimes where
  parse : Str → Option Instant
  requestID : Str
  receivedAt : Instant
  stamp : Str → ℕ → Instant
  repliedAt : Instant
  fails : TxStatement → Bool

/-- The same with its times as texts. -/
def PostTimes.env (times : PostTimes) : PostEnv where
  timeText := fun s => (times.parse s).map timeString
  requestID := times.requestID
  receivedAt := timeString times.receivedAt
  stamp := fun entityType i => timeString (times.stamp entityType i)
  repliedAt := timeString times.repliedAt
  fails := times.fails

/-- What a request meets: the readings of the clock of `verifySignature` and of its handler, how
numbers are printed, whether the statement of a query or of a deletion fails, and what the router
answers a request that no pattern matches. -/
structure Visit where
  sinceNow : Instant
  untilNow : Instant
  addNow : Instant
  now : Instant
  times : PostTimes
  floatText : Str → Option Str
  fails : Bool
  unrouted : Reply

/-! ## Handlers -/

/-- The smallest `minDeleteAge` that `loadConfig` takes: seven days, in nanoseconds. -/
def defaultMinDeleteAge : ℤ := 7 * 24 * 3600 * 10 ^ 9

/-- The settings of the server. -/
structure ServerConfig where
  cfg : Config
  routes : Routes
  writeAuth : AuthConfig
  readAuth : AuthConfig
  deleteAuth : AuthConfig
  signSkew : ℤ
  minDeleteAge : ℤ
  min_age : defaultMinDeleteAge ≤ minDeleteAge

/-- The rows that `record_key = ?` names. -/
def hasKey (key : Str) (r : Entry Str StoredRecord) : Bool := r.key = key

/-- `deleteByKey`, with the text of the cutoff; the table answers without an error. -/
def deleteByKey (cfg : Config) (t : RecordTable) (cutoff : Str) (key : Str) : Reply × RecordTable :=
  let (deleted, t') := deleteRecord t cutoff (hasKey key)
  (Reply.json 200 (.obj [(Str.lit "deleted", .bool deleted),
    (Str.lit "min_delete_age_hours", .num (itoa cfg.minDeleteAgeHours)),
    (Str.lit "record_key", .str key)]), t')

/-- The reply of `health`. -/
def healthJSON (now : Instant) : Json :=
  .obj [(Str.lit "service", .str (Str.lit "weighing-data-go-receiver")),
    (Str.lit "status", .str (Str.lit "ok")), (Str.lit "time", .str (timeString now))]

/-- The reply of `handleQuery`. -/
def queryJSON (page : List PageItem) (limit offset : ℤ) : Json :=
  .obj [(Str.lit "count", .num (natText page.length)), (Str.lit "limit", .num (itoa limit)),
    (Str.lit "offset", .num (itoa offset)), (Str.lit "records", .arr (page.map PageItem.json))]

/-- The cutoff of `deleteRecord`. -/
def cutoff (S : ServerConfig) (now : Instant) : Instant := now - S.minDeleteAge

/-- The entries that `handleQuery` makes of the rows it selects. -/
def pageOf (floatText : Str → Option Str) (t : RecordTable) (f : QueryFilter) (includeRaw : Bool) :
    List PageItem :=
  (queryRecords t f).map (pageItem floatText includeRaw)

/-- What the handler of an authorised request does. -/
def perform (S : ServerConfig) (visit : Visit) (db : ReceiverDb) : Action → Reply × ReceiverDb
  | .report => (.json 200 (healthJSON visit.now), db)
  | .store none => (.error 400 (Str.lit "invalid json body"), db)
  | .store (some payload) =>
      if total payload.entityRecords = 0 then
        (.error 400 (Str.lit "records is missing or empty"), db)
      else
        match insertPayload S.cfg visit.times.env payload db with
        | (db', .error _) => (.error 500 (Str.lit "database write failed"), db')
        | (db', .ok (accepted, failed)) =>
            (.json 200 (postJSON visit.times.env payload accepted failed), db')
  | .query none _ => (.error 400 (Str.lit "invalid id"), db)
  | .query (some f) includeRaw =>
      if visit.fails then (.error 500 (Str.lit "database query failed"), db)
      else
        (.json 200 (queryJSON (pageOf visit.floatText db.records f includeRaw) f.limit f.offset), db)
  | .deleteID id =>
      if visit.fails then (.error 500 (Str.lit "database delete failed"), db)
      else
        let (reply, records) := deleteByID S.cfg db.records (timeString (cutoff S visit.now)) id
        (reply, { db with records })
  | .deleteKey key =>
      if visit.fails then (.error 500 (Str.lit "database delete failed"), db)
      else
        let (reply, records) := deleteByKey S.cfg db.records (timeString (cutoff S visit.now)) key
        (reply, { db with records })
  | .refuse message => (.error 400 message, db)

/-- A request to store that is small enough and authorised is the action of its body. -/
theorem handlePost_eq_perform {S : ServerConfig} {body : Str}
    (hsize : (body.size : ℤ) ≤ S.cfg.maxBodyBytes) (visit : Visit) (db : ReceiverDb) :
    handlePost S.cfg visit.times.env none body db = perform S visit db (.store (decodeBody body)) := by
  rw [handlePost, if_neg (not_lt.mpr hsize)]
  cases hbody : decodeBody body with
  | none => rfl
  | some payload => rfl

/-! ## Requests -/

/-- What the server holds. -/
structure ServerState where
  db : ReceiverDb
  nonces : NonceStore

/-- The credentials of the role of a route; none for `health`. -/
def roleOf (S : ServerConfig) : Route → Option AuthConfig
  | .health => none
  | .post => some S.writeAuth
  | .query => some S.readAuth
  | .delete | .deleteByID _ | .deleteByKey _ => some S.deleteAuth

/-- A body that `readBody` refuses; only `handlePost` reads one. -/
def tooLarge (S : ServerConfig) (r : Request) : Route → Bool
  | .post => S.cfg.maxBodyBytes < r.body.length
  | .health | .query | .delete | .deleteByID _ | .deleteByKey _ => false

/-- What a request asks for. -/
def asked (S : ServerConfig) (visit : Visit) (r : Request) (route : Route) : Action :=
  action S.cfg (fun text => (visit.times.parse text).map timeString) r route

/-- A request that has passed `authorize`, or needs no credentials. -/
def dispatch (S : ServerConfig) (visit : Visit) (r : Request) (route : Route) (s : ServerState) :
    Reply × ServerState :=
  let (reply, db) := perform S visit s.db (asked S visit r route)
  (reply, { s with db })

/-- The server on a request. -/
def serve (crypto : Crypto) (S : ServerConfig) (visit : Visit) (r : Request) (s : ServerState) :
    Reply × ServerState :=
  match serveMux S.routes r.method r.escapedPath with
  | none => (visit.unrouted, s)
  | some route =>
      if tooLarge S r route then
        (.error 413 (Str.lit "body too large, max " ++ itoa S.cfg.maxBodyBytes ++ Str.lit " bytes"), s)
      else
        match roleOf S route with
        | none => dispatch S visit r route s
        | some auth =>
            match authorize crypto S.signSkew auth r (signedBody r route) visit.sinceNow
              visit.untilNow visit.addNow s.nonces with
            | (some message, nonces) => (.error 401 message, { s with nonces })
            | (none, nonces) => dispatch S visit r route { s with nonces }

/-- What a request does to the tables is what its action does, or nothing. -/
theorem db_serve (crypto : Crypto) (S : ServerConfig) (visit : Visit) (r : Request)
    (s : ServerState) : (serve crypto S visit r s).2.db = s.db ∨
      ∃ a, (serve crypto S visit r s).2.db = (perform S visit s.db a).2 := by
  unfold serve
  split
  · exact Or.inl rfl
  · split_ifs
    · exact Or.inl rfl
    · split
      · exact Or.inr ⟨_, rfl⟩
      · split
        · exact Or.inl rfl
        · exact Or.inr ⟨_, rfl⟩

/-- A request that is authorised does what its action says. -/
theorem serve_of_authorised {crypto : Crypto} {S : ServerConfig} {visit : Visit} {r : Request}
    {route : Route} {auth : AuthConfig} {s : ServerState}
    (hroute : serveMux S.routes r.method r.escapedPath = some route)
    (hsize : tooLarge S r route = false) (hrole : roleOf S route = some auth)
    (hauth : (authorize crypto S.signSkew auth r (signedBody r route) visit.sinceNow visit.untilNow
      visit.addNow s.nonces).1 = none) :
    (serve crypto S visit r s).1 = (perform S visit s.db (asked S visit r route)).1 ∧
      (serve crypto S visit r s).2.db = (perform S visit s.db (asked S visit r route)).2 := by
  unfold serve
  rw [hroute]
  simp only [hsize, Bool.false_eq_true, if_false, hrole]
  cases hresult : authorize crypto S.signSkew auth r (signedBody r route) visit.sinceNow visit.untilNow
      visit.addNow s.nonces with
  | mk refusal nonces =>
      rw [hresult] at hauth
      cases hauth
      exact ⟨rfl, rfl⟩

/-- A run of the server, from empty tables; requests come at any time and meet anything. -/
def receiver (crypto : Crypto) (S : ServerConfig) : System ServerState (Visit × Request) where
  init s := s.db = ⟨.empty, .empty⟩ ∧ s.nonces = []
  step s a := some (serve crypto S a.1 a.2 s).2

/-! ## Tables whose times are texts of instants -/

/-- Every time by which the age of a record is measured is the text of an instant. -/
def Timed (t : RecordTable) : Prop :=
  ∀ r ∈ t.rows, (∃ i, r.val.ingestedAt = timeString i) ∧
    ∀ s ∈ r.val.content.sourceTime, ∃ i, s = timeString i

/-- The record is as old as an instant. -/
theorem Timed.effectiveTime {t : RecordTable} (h : Timed t) {r : Entry Str StoredRecord}
    (hr : r ∈ t.rows) : ∃ i, r.val.effectiveTime = timeString i := by
  obtain ⟨hingested, hsource⟩ := h r hr
  rw [StoredRecord.effectiveTime]
  cases hs : r.val.content.sourceTime with
  | none => exact hingested
  | some s => exact hsource s hs

/-- What holds of the rows of a table, of new rows and of rows that are uploaded again holds of the
rows after an upload. -/
theorem forall_upsertRows {P : StoredRecord → Prop} {t : RecordTable} {rows : List UpsertRow}
    (ht : ∀ r ∈ t.rows, P r.val) (hnew : ∀ u ∈ rows, P ⟨u.content, u.now, u.now⟩)
    (hupdate : ∀ u ∈ rows, ∀ old, P old →
      P { old with content := u.content, cloudUpdatedAt := u.now }) :
    ∀ r ∈ (t.upsertRows rows).rows, P r.val := by
  induction rows generalizing t with
  | nil => exact ht
  | cons u rows ih =>
      refine ih (t := t.upsertRow u) ?_ (fun v hv => hnew v (List.mem_cons_of_mem u hv))
        fun v hv => hupdate v (List.mem_cons_of_mem u hv)
      intro r hr
      rcases KeyedTable.mem_upsert.mp hr with ⟨hr, -⟩ | ⟨r₀, hr₀, -, rfl⟩ | ⟨-, rfl⟩
      · exact ht r hr
      · exact hupdate u List.mem_cons_self r₀.val (ht r₀ hr₀)
      · exact hnew u List.mem_cons_self

/-- A `source_time` is the text of an instant. -/
theorem exists_timeString_sourceTime {parse : Str → Option Instant} {record : Record} {s : Str}
    (h : s ∈ sourceTime (fun text => (parse text).map timeString) record) :
    ∃ i, s = timeString i := by
  obtain ⟨key, -, hkey⟩ := List.exists_of_findSome?_eq_some h
  unfold parseAnyTime at hkey
  simp only at hkey
  split_ifs at hkey
  all_goals
    obtain ⟨i, -, rfl⟩ := Option.map_eq_some_iff.mp hkey
    exact ⟨i, rfl⟩

/-- The rows of a payload carry texts of instants. -/
theorem timed_rowsOf (cfg : Config) (times : PostTimes) (payload : UploadPayload) :
    ∀ u ∈ rowsOf cfg times.env payload, (∃ i, u.now = timeString i) ∧
      ∀ s ∈ u.content.sourceTime, ∃ i, s = timeString i := by
  intro u hu
  obtain ⟨batch, -, hu⟩ := List.mem_flatMap.mp hu
  obtain ⟨⟨record, now⟩, hrecord, hrow⟩ := List.mem_filterMap.mp hu
  obtain ⟨⟨record', i⟩, -, heq⟩ := List.mem_map.mp hrecord
  cases heq
  have hrow' : upsertRowOf cfg times.env (originOf times.env payload) batch record _ = some u := hrow
  rw [upsertRowOf] at hrow'
  by_cases hkeyed : keyed batch.entityType record = true
  · rw [if_pos hkeyed] at hrow'
    cases hrow'
    exact ⟨⟨_, rfl⟩, fun s hs => exists_timeString_sourceTime hs⟩
  · rw [if_neg hkeyed] at hrow'
    cases hrow'

theorem timed_upsertRows {cfg : Config} {times : PostTimes} {payload : UploadPayload} {t : RecordTable}
    (h : Timed t) : Timed (t.upsertRows (rowsOf cfg times.env payload)) := by
  have htimed := timed_rowsOf cfg times payload
  refine forall_upsertRows (P := fun r => (∃ i, r.ingestedAt = timeString i) ∧
    ∀ s ∈ r.content.sourceTime, ∃ i, s = timeString i) h htimed fun u hu old hold => ?_
  exact ⟨hold.1, (htimed u hu).2⟩

theorem timed_insertPayload {cfg : Config} {times : PostTimes} {payload : UploadPayload}
    {db : ReceiverDb} (h : Timed db.records) :
    Timed (insertPayload cfg times.env payload db).1.records := by
  rcases records_insertPayload cfg times.env payload db with hsame | hrows
  · rw [hsame]
    exact h
  · rw [hrows]
    exact timed_upsertRows h

theorem timed_deleteWhere {t : RecordTable} (h : Timed t) (p : Entry Str StoredRecord → Bool) :
    Timed (t.deleteWhere p) := fun r hr => h r (KeyedTable.mem_deleteWhere.mp hr).1

/-- No action leaves another kind of text in the records. -/
theorem timed_perform {S : ServerConfig} {visit : Visit} {db : ReceiverDb} (h : Timed db.records)
    (a : Action) : Timed (perform S visit db a).2.records := by
  cases a with
  | report => exact h
  | store payload =>
      cases payload with
      | none => exact h
      | some payload =>
          have hinsert : Timed (insertPayload S.cfg visit.times.env payload db).1.records :=
            timed_insertPayload h
          rw [perform]
          split_ifs
          · exact h
          · cases hresult : insertPayload S.cfg visit.times.env payload db with
            | mk db' result =>
                rw [hresult] at hinsert
                cases result <;> exact hinsert
  | query filter includeRaw =>
      cases filter with
      | none => exact h
      | some f =>
          rw [perform]
          split_ifs <;> exact h
  | deleteID id =>
      rw [perform]
      split_ifs
      · exact h
      · exact timed_deleteWhere h _
  | deleteKey key =>
      rw [perform]
      split_ifs
      · exact h
      · exact timed_deleteWhere h _
  | refuse message => exact h

/-- The times of every store that a run of the server leads to are texts of instants. -/
theorem timed_of_reachable {crypto : Crypto} {S : ServerConfig} {s : ServerState}
    (h : (receiver crypto S).Reachable s) : Timed s.db.records := by
  refine h.invariant (I := fun s => Timed s.db.records) (fun s hs => ?_) fun s a s' hs hstep _ => ?_
  · rw [hs.1]
    exact fun r hr => absurd hr List.not_mem_nil
  · cases hstep
    rcases db_serve crypto S a.1 a.2 s with hdb | ⟨act, hdb⟩
    · rw [hdb]
      exact hs
    · rw [hdb]
      exact timed_perform hs act

end WeighingSync.Receiver
