import WeighingSync.Receiver.Server

/-!
# Retention

A deletion, by id or by key, in any of its three forms. `deleteRecord` compares the time of a record
with the cutoff as texts; it goes by their instants exactly where the two compare as texts
(`retained_iff`). A fraction of a second is written without its trailing zeros, so a whole second
comes after every fraction of it.
-/

namespace WeighingSync.Receiver

open Go

/-! ## Deletions -/

/-- The three forms of a deletion. -/
def Route.deletes : Route → Bool
  | .delete | .deleteByID _ | .deleteByKey _ => true
  | .health | .post | .query => false

/-- The records that an action names for deletion. -/
def Action.names : Action → Entry Str StoredRecord → Bool
  | .deleteID id => hasId id
  | .deleteKey key => hasKey key
  | .report | .store _ | .query _ _ | .refuse _ => fun _ => false

/-- What a deletion owes the records at a reading of the clock: no row is new or changed, the rows
that are gone are one row that was named, and, where the statement goes through, a named row is gone if
and only if the instant of its time is earlier than the cutoff. -/
structure Retained (S : ServerConfig) (visit : Visit) (a : Action) (db db' : ReceiverDb) : Prop where
  batches : db'.batches = db.batches
  kept : db'.records.rows.Sublist db.records.rows
  named : ∀ r ∈ db.records.rows, r ∉ db'.records.rows → a.names r = true
  single : ∀ r ∈ db.records.rows, ∀ r' ∈ db.records.rows, r ∉ db'.records.rows →
    r' ∉ db'.records.rows → r = r'
  exactly : visit.fails = false → ∀ r ∈ db.records.rows, a.names r = true → ∀ i,
    r.val.effectiveTime = timeString i → (r ∉ db'.records.rows ↔ i < cutoff S visit.now)

variable {S : ServerConfig} {visit : Visit} {r : Request} {route : Route} {crypto : Crypto}
  {s : ServerState}

/-- A request that is routed to a deletion asks for one by id or by key, or is refused. -/
theorem asked_of_deletes (h : route.deletes = true) : (∃ id, asked S visit r route = .deleteID id) ∨
    (∃ key, asked S visit r route = .deleteKey key) ∨
      ∃ message, asked S visit r route = .refuse message := by
  rw [asked]
  cases route with
  | health | post | query => cases h
  | delete =>
      rw [action, deleteAction]
      split_ifs
      · split
        · exact Or.inl ⟨_, rfl⟩
        · exact Or.inr (Or.inr ⟨_, rfl⟩)
      · simp only
        split_ifs
        · exact Or.inr (Or.inl ⟨_, rfl⟩)
        · exact Or.inr (Or.inr ⟨_, rfl⟩)
  | deleteByID id =>
      rw [action, deleteByIDAction]
      split
      · split_ifs
        · exact Or.inr (Or.inr ⟨_, rfl⟩)
        · exact Or.inl ⟨_, rfl⟩
      · exact Or.inr (Or.inr ⟨_, rfl⟩)
  | deleteByKey key =>
      rw [action, deleteByKeyAction]
      split_ifs
      · exact Or.inr (Or.inr ⟨_, rfl⟩)
      · exact Or.inr (Or.inl ⟨_, rfl⟩)

/-- The rows of one id, or of one key, are one row. -/
theorem eq_of_names {t : RecordTable} {a : Action} {r r' : Entry Str StoredRecord} (hr : r ∈ t.rows)
    (hr' : r' ∈ t.rows) (h : a.names r = true) (h' : a.names r' = true) : r = r' := by
  cases a with
  | deleteID id =>
      have hid : (r.id : ℤ) = id := of_decide_eq_true h
      have hid' : (r'.id : ℤ) = id := of_decide_eq_true h'
      exact KeyedTable.eq_of_id_eq hr hr' (by omega)
  | deleteKey key =>
      have hkey : r.key = key := of_decide_eq_true h
      have hkey' : r'.key = key := of_decide_eq_true h'
      exact KeyedTable.eq_of_key_eq hr hr' (hkey.trans hkey'.symm)
  | report | store | query | refuse => cases h

/-- What a deletion does: nothing, or it removes the rows that it names and whose text is before that
of the cutoff. -/
theorem db_perform_of_deletes (hdeletes : route.deletes = true) (db : ReceiverDb) :
    (perform S visit db (asked S visit r route)).2 =
      if visit.fails then db
      else { db with
        records := db.records.deleteWhere
          (deletable (timeString (cutoff S visit.now)) (asked S visit r route).names) } := by
  rcases asked_of_deletes hdeletes with ⟨id, ha⟩ | ⟨key, ha⟩ | ⟨message, ha⟩
  · rw [ha, perform]
    split_ifs <;> rfl
  · rw [ha, perform]
    split_ifs <;> rfl
  · -- a request that is refused names no row
    have hnone : db.records.deleteWhere (deletable (timeString (cutoff S visit.now))
        (Action.refuse message).names) = db.records := by
      have hrows : db.records.rows.filter (fun r => !deletable (timeString (cutoff S visit.now))
          (Action.refuse message).names r) = db.records.rows := by
        apply List.filter_eq_self.mpr
        intro r hr
        rfl
      simp only [KeyedTable.deleteWhere, hrows]
    rw [ha, perform, hnone]
    split_ifs <;> rfl

/-- The rows that are gone are the named rows whose text is before that of the cutoff. -/
theorem notMem_deleteWhere_deletable {t : RecordTable} {text : Str}
    {p : Entry Str StoredRecord → Bool} {r : Entry Str StoredRecord} (hr : r ∈ t.rows) :
    r ∉ (t.deleteWhere (deletable text p)).rows ↔
      p r = true ∧ Str.lt r.val.effectiveTime text = true := by
  rw [KeyedTable.mem_deleteWhere, not_and, Bool.not_eq_false, deletable, Bool.and_eq_true]
  exact ⟨fun h => h hr, fun h _ => h⟩

/-! ## When the retention rule is kept -/

/-- A deletion keeps the retention rule exactly when its statement fails, or the time of the record it
names and the cutoff compare as texts. -/
theorem retained_perform_iff (hdeletes : route.deletes = true) (db : ReceiverDb) :
    Retained S visit (asked S visit r route) db (perform S visit db (asked S visit r route)).2 ↔
      (visit.fails = false → ∀ e ∈ db.records.rows, (asked S visit r route).names e = true → ∀ i,
        e.val.effectiveTime = timeString i → ComparesAsText i (cutoff S visit.now)) := by
  rw [db_perform_of_deletes hdeletes]
  generalize asked S visit r route = a
  cases hfails : visit.fails with
  | true =>
      rw [if_pos rfl]
      refine ⟨fun _ h => absurd h (by decide), fun _ => ?_⟩
      exact ⟨rfl, List.Sublist.refl _, fun e he hgone => absurd he hgone,
        fun e he e' he' hgone => absurd he hgone, fun h => absurd (hfails.symm.trans h) (by decide)⟩
  | false =>
      rw [if_neg (by decide)]
      have hgone : ∀ e ∈ db.records.rows, a.names e = true → ∀ i,
          e.val.effectiveTime = timeString i →
          (e ∉ (db.records.deleteWhere (deletable (timeString (cutoff S visit.now)) a.names)).rows ↔
            Str.lt (timeString i) (timeString (cutoff S visit.now)) = true) := by
        intro e he hnames i hi
        rw [notMem_deleteWhere_deletable he, hi]
        exact ⟨fun h => h.2, fun h => ⟨hnames, h⟩⟩
      constructor
      · intro h _ e he hnames i hi
        rw [← lt_timeString_iff, ← hgone e he hnames i hi]
        exact h.exactly hfails e he hnames i hi
      · intro h
        refine ⟨rfl, List.filter_sublist, ?_, ?_, ?_⟩
        · exact fun e he hnot => ((notMem_deleteWhere_deletable he).mp hnot).1
        · intro e he e' he' hnot hnot'
          exact eq_of_names he he' ((notMem_deleteWhere_deletable he).mp hnot).1
            ((notMem_deleteWhere_deletable he').mp hnot').1
        · intro _ e he hnames i hi
          rw [hgone e he hnames i hi]
          exact (lt_timeString_iff i (cutoff S visit.now)).mpr (h rfl e he hnames i hi)

/-- A request that is routed to a deletion and authorised. -/
structure AuthorisedDeletion (crypto : Crypto) (S : ServerConfig) (visit : Visit) (r : Request)
    (route : Route) (s : ServerState) : Prop where
  routed : serveMux S.routes r.method r.escapedPath = some route
  deletes : route.deletes = true
  authorised : (authorize crypto S.signSkew S.deleteAuth r [] visit.sinceNow visit.untilNow
    visit.addNow s.nonces).1 = none

/-- What it does to the tables is its action. -/
theorem AuthorisedDeletion.db_serve (h : AuthorisedDeletion crypto S visit r route s) :
    (serve crypto S visit r s).2.db = (perform S visit s.db (asked S visit r route)).2 := by
  have hfits : tooLarge S r route = false := by
    cases route with
    | post => exact absurd h.deletes (by decide)
    | health | query | delete | deleteByID | deleteByKey => rfl
  have hrole : roleOf S route = some S.deleteAuth ∧ signedBody r route = [] := by
    cases route with
    | health | post | query => exact absurd h.deletes (by decide)
    | delete | deleteByID | deleteByKey => exact ⟨rfl, rfl⟩
  exact (serve_of_authorised h.routed hfits hrole.1 (by rw [hrole.2]; exact h.authorised)).2

/-- In every reachable store, an authorised deletion keeps the retention rule exactly when its
statement fails, or the record that it names is of an instant that compares with the cutoff as
text. -/
theorem retained_iff (hreachable : (receiver crypto S).Reachable s)
    (h : AuthorisedDeletion crypto S visit r route s) :
    Retained S visit (asked S visit r route) s.db (serve crypto S visit r s).2.db ↔
      (visit.fails = false → ∀ e ∈ s.db.records.rows, (asked S visit r route).names e = true →
        ∃ i, e.val.effectiveTime = timeString i ∧ ComparesAsText i (cutoff S visit.now)) := by
  rw [h.db_serve, retained_perform_iff h.deletes]
  refine imp_congr_right fun _ => forall₂_congr fun e he => imp_congr_right fun _ => ?_
  constructor
  · intro hall
    obtain ⟨i, hi⟩ := (timed_of_reachable hreachable).effectiveTime he
    exact ⟨i, hi, hall i hi⟩
  · rintro ⟨i, hi, hcompares⟩ i' hi'
    rwa [← timeString_injective (hi.symm.trans hi')]

/-! ## A whole second and a fraction of it -/

/-- Credentials that the sample request brings. -/
def sampleAuth : AuthConfig where
  apiToken := Str.lit "token"
  signSecret := Str.lit "secret"
  token_trimmed := by decide +kernel
  secret_trimmed := by decide +kernel

/-- A server with the default settings. -/
def sampleServer : ServerConfig where
  cfg := plainConfig
  routes := defaultRoutes
  writeAuth := sampleAuth
  readAuth := sampleAuth
  deleteAuth := sampleAuth
  signSkew := defaultSkew
  minDeleteAge := defaultMinDeleteAge
  min_age := le_refl _

/-- The upload of a weighing record of this time. -/
def uploadOf (updateTime : String) : Request :=
  { sampleRequest with
    method := bytesOf "POST"
    escapedPath := bytesOf "/weighing-data-sync/put"
    path := bytesOf "/weighing-data-sync/put"
    xNonce := bytesOf "first"
    body := bytesOf ("\x7b\"records\":[\x7b\"serialNo\":\"5\",\"updateTime\":\"" ++ updateTime ++
      "\"\x7d]\x7d")
    method_token := by decide +kernel
    denotes := by decide +kernel }

/-- The second that the sample request is signed in, and the second one week earlier. -/
def sampleSecond : Instant := 1787846400 * 10 ^ 9
def weekBefore : Instant := sampleSecond - defaultMinDeleteAge

/-- Time texts of the second one week before the sample request, whole and with a fraction. -/
def sampleTimes (text : Str) : Option Instant :=
  if text = Str.lit "2026-08-20T16:00:00Z" then some weekBefore
  else if text = Str.lit "2026-08-20T16:00:00.5Z" then some (weekBefore + 500000000)
  else none

/-- What a request meets at a reading of the clock. -/
def visitAt (now : Instant) : Visit where
  sinceNow := sampleSecond
  untilNow := sampleSecond
  addNow := sampleSecond
  now := now
  times := ⟨sampleTimes, [], now, fun _ _ => now, now, fun _ => false⟩
  floatText := some
  fails := false
  unrouted := .error 404 []

example : timeString weekBefore = Str.lit "2026-08-20T16:00:00Z" := by decide +kernel

/-- A state in which the request to delete the record of id 1, of this instant, is authorised. -/
def beforeDeletion (i : Instant) (s : ServerState) : Bool :=
  (authorize sampleCrypto sampleServer.signSkew sampleServer.deleteAuth (deletion "id=1") [] sampleSecond
      sampleSecond sampleSecond s.nonces).1 = none &&
    s.db.records.rows.any fun e => e.id = 1 && e.val.effectiveTime = timeString i

theorem authorisedDeletion_of_beforeDeletion {i : Instant} {s : ServerState}
    (h : beforeDeletion i s = true) (now : Instant) :
    AuthorisedDeletion sampleCrypto sampleServer (visitAt now) (deletion "id=1") .delete s :=
  ⟨by decide +kernel, rfl, of_decide_eq_true (Bool.and_eq_true_iff.mp h).1⟩

theorem retained_iff_wholeSecond : ∃ s, (receiver sampleCrypto sampleServer).Reachable s ∧
    beforeDeletion weekBefore s = true ∧
      (Retained sampleServer (visitAt (sampleSecond + 10 ^ 9))
          (asked sampleServer (visitAt (sampleSecond + 10 ^ 9)) (deletion "id=1") .delete) s.db
          (serve sampleCrypto sampleServer (visitAt (sampleSecond + 10 ^ 9)) (deletion "id=1") s).2.db ↔
        ((visitAt (sampleSecond + 10 ^ 9)).fails = false → ∀ e ∈ s.db.records.rows,
          (asked sampleServer (visitAt (sampleSecond + 10 ^ 9)) (deletion "id=1") .delete).names e =
              true →
            ∃ i, e.val.effectiveTime = timeString i ∧
              ComparesAsText i (cutoff sampleServer (visitAt (sampleSecond + 10 ^ 9)).now))) := by
  obtain ⟨s, hs, hbefore⟩ := System.exists_of_exec (S := receiver sampleCrypto sampleServer)
    (K := fun _ _ => True) (P := beforeDeletion weekBefore) (s := ⟨⟨.empty, .empty⟩, []⟩)
    (l := [(visitAt sampleSecond, uploadOf "2026-08-20T16:00:00Z")]) ⟨rfl, rfl⟩ (by decide +kernel)
  exact ⟨s, hs, hbefore, retained_iff hs (authorisedDeletion_of_beforeDeletion hbefore _)⟩

/-- A record of half a second after the cutoff is removed: the cutoff is a whole second, and its text
has a letter where the text of the record has a point. -/
theorem not_retained_halfSecond : ∃ s, (receiver sampleCrypto sampleServer).Reachable s ∧
    AuthorisedDeletion sampleCrypto sampleServer (visitAt sampleSecond) (deletion "id=1") .delete s ∧
      (∃ e ∈ s.db.records.rows, e.val.effectiveTime = Str.lit "2026-08-20T16:00:00.5Z") ∧
      timeString (cutoff sampleServer sampleSecond) = Str.lit "2026-08-20T16:00:00Z" ∧
      (serve sampleCrypto sampleServer (visitAt sampleSecond) (deletion "id=1") s).2.db.records.rows = [] ∧
      ¬ Retained sampleServer (visitAt sampleSecond)
        (asked sampleServer (visitAt sampleSecond) (deletion "id=1") .delete) s.db
        (serve sampleCrypto sampleServer (visitAt sampleSecond) (deletion "id=1") s).2.db := by
  obtain ⟨s, hs, hP⟩ := System.exists_of_exec (S := receiver sampleCrypto sampleServer)
    (K := fun _ _ => True)
    (P := fun s => beforeDeletion (weekBefore + 500000000) s && decide ((serve sampleCrypto sampleServer
      (visitAt sampleSecond) (deletion "id=1") s).2.db.records.rows = []))
    (s := ⟨⟨.empty, .empty⟩, []⟩)
    (l := [(visitAt sampleSecond, uploadOf "2026-08-20T16:00:00.5Z")]) ⟨rfl, rfl⟩ (by decide +kernel)
  obtain ⟨hbefore, hempty⟩ := Bool.and_eq_true_iff.mp hP
  obtain ⟨e, he, hrow⟩ := List.any_eq_true.mp (Bool.and_eq_true_iff.mp hbefore).2
  obtain ⟨hid, htime⟩ := Bool.and_eq_true_iff.mp hrow
  have htext := of_decide_eq_true htime
  have hauthorised := authorisedDeletion_of_beforeDeletion hbefore sampleSecond
  refine ⟨s, hs, hauthorised, ⟨e, he, htext.trans (by decide +kernel)⟩, by decide +kernel,
    of_decide_eq_true hempty, fun hretained => ?_⟩
  have hasked : asked sampleServer (visitAt sampleSecond) (deletion "id=1") .delete = .deleteID 1 := by
    have hparse : parseOptionalInt64 ((deletion "id=1").get "id") = some 1 := by decide +kernel
    rw [asked, action, deleteAction, if_pos (by decide +kernel), hparse]
  have hnames : (asked sampleServer (visitAt sampleSecond) (deletion "id=1") .delete).names e = true := by
    rw [hasked, Action.names, hasId, of_decide_eq_true hid]
    rfl
  rw [hauthorised.db_serve, retained_perform_iff hauthorised.deletes] at hretained
  exact absurd (hretained rfl e he hnames _ htext) (by decide +kernel)

end WeighingSync.Receiver
