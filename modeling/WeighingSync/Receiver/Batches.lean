import WeighingSync.Common.Runs
import WeighingSync.Receiver.Retention

/-!
# The batches of the receiver

`insertPayload` writes a row of `wds_receive_batches` for each upload, first with the number of its
records and then with the numbers of those it accepted and failed. If no id of a request is used twice,
the table is in every run the list of the uploads that were answered 200, in order, with what they were
answered (`batches_exact`), and it accounts for every id that a record was ever given.
-/

namespace WeighingSync.Receiver

open Go

/-! ## Uploads and their rows -/

/-- The row of an upload that is stored. -/
def batchRow (env : PostEnv) (payload : UploadPayload) : BatchRow where
  source := (originOf env payload).source
  sourceDatabase := (originOf env payload).database
  sourceTable := fallback payload.table "multiple"
  recordsCount := total payload.entityRecords
  acceptedCount := (acceptedOf payload).length
  failedCount := (unkeyedOf payload).length
  uploadedAt := (originOf env payload).uploadedAt
  receivedAt := env.receivedAt

/-- A request to the server with its reply. -/
structure Exchange where
  visit : Visit
  request : Request
  reply : Reply

/-- What is answered to a request. -/
def exchanged (crypto : Crypto) (S : ServerConfig) (s : ServerState) (a : Visit × Request)
    (_ : ServerState) : List Exchange :=
  [⟨a.1, a.2, (serve crypto S a.1 a.2 s).1⟩]

/-- The payload of an upload that was answered 200. -/
def Exchange.upload (S : ServerConfig) (e : Exchange) : Option UploadPayload :=
  if serveMux S.routes e.request.method e.request.escapedPath = some .post ∧ e.reply.status = 200 then
    decodeBody (Str.ofBytes e.request.body)
  else none

/-- The row that it is to leave, under the id of the request. -/
def Exchange.batch (S : ServerConfig) (e : Exchange) : Option (Str × BatchRow) :=
  (e.upload S).map fun payload => (e.visit.times.requestID, batchRow e.visit.times.env payload)

/-- An upload is answered with the keys that C derives for its records, and every one of these is counted. -/
structure Exchange.Counted (S : ServerConfig) (e : Exchange) : Prop where
  reply : ∀ payload ∈ e.upload S, e.reply =
    .json 200 (postJSON e.visit.times.env payload (acceptedOf payload) (unkeyedOf payload))
  counts : ∀ b ∈ e.batch S, b.2.recordsCount = b.2.acceptedCount + b.2.failedCount

theorem Exchange.counted_of_none {S : ServerConfig} {e : Exchange} (h : e.upload S = none) :
    e.Counted S where
  reply payload hpayload := by
    rw [h] at hpayload
    cases hpayload
  counts b hb := by
    rw [Exchange.batch, h] at hb
    cases hb

theorem Exchange.counted_of_some {S : ServerConfig} {e : Exchange} {payload : UploadPayload}
    (h : e.upload S = some payload) (hreply : e.reply =
      .json 200 (postJSON e.visit.times.env payload (acceptedOf payload) (unkeyedOf payload))) :
    e.Counted S where
  reply payload' hpayload := by
    obtain rfl := Option.some_inj.mp (h.symm.trans hpayload)
    exact hreply
  counts b hb := by
    rw [Exchange.batch, h] at hb
    cases hb
    exact (length_accepted_add_unkeyed payload).symm

/-! ## What a request does -/

/-- What is stored is answered 200, and what is not leaves the tables as they were. -/
theorem perform_store (S : ServerConfig) (visit : Visit) (db : ReceiverDb) (payload : Option UploadPayload) :
    ((perform S visit db (.store payload)).1.status ≠ 200 ∧ (perform S visit db (.store payload)).2 = db) ∨
      ∃ p ∈ payload, (perform S visit db (.store payload)).1 =
          .json 200 (postJSON visit.times.env p (acceptedOf p) (unkeyedOf p)) ∧
        insertPayload S.cfg visit.times.env p db =
          ((perform S visit db (.store payload)).2, .ok (acceptedOf p, unkeyedOf p)) := by
  cases payload with
  | none => exact Or.inl ⟨(by decide : 400 ≠ 200), rfl⟩
  | some p =>
      rw [perform]
      split_ifs with htotal
      · exact Or.inl ⟨(by decide : 400 ≠ 200), rfl⟩
      · cases hinsert : insertPayload S.cfg visit.times.env p db with
        | mk db' result =>
            cases result with
            | error e =>
                obtain rfl := insertPayload_error hinsert
                exact Or.inl ⟨(by decide : 500 ≠ 200), rfl⟩
            | ok keys =>
                obtain ⟨accepted, failed⟩ := keys
                obtain ⟨-, -, haccepted, hfailed⟩ := insertPayload_ok hinsert
                rw [map_key_rowsOf] at haccepted
                subst haccepted hfailed
                exact Or.inr ⟨p, rfl, rfl, hinsert⟩

/-- No other action touches the batches, or hands out an id. -/
theorem perform_keeps {S : ServerConfig} {visit : Visit} {db : ReceiverDb} {a : Action}
    (h : ∀ payload, a ≠ .store payload) : (perform S visit db a).2.batches = db.batches ∧
      (perform S visit db a).2.records.nextId = db.records.nextId := by
  cases a with
  | report => exact ⟨rfl, rfl⟩
  | store payload => exact absurd rfl (h payload)
  | query filter includeRaw =>
      cases filter with
      | none => exact ⟨rfl, rfl⟩
      | some f =>
          rw [perform]
          split_ifs <;> exact ⟨rfl, rfl⟩
  | deleteID id =>
      rw [perform]
      split_ifs <;> exact ⟨rfl, rfl⟩
  | deleteKey key =>
      rw [perform]
      split_ifs <;> exact ⟨rfl, rfl⟩
  | refuse message => exact ⟨rfl, rfl⟩

theorem asked_ne_store {S : ServerConfig} {visit : Visit} {r : Request} {route : Route}
    (h : route ≠ .post) (payload : Option UploadPayload) : asked S visit r route ≠ .store payload := by
  intro hasked
  cases route with
  | post => exact h rfl
  | health | query => cases hasked
  | delete =>
      simp only [asked, action, deleteAction] at hasked
      split at hasked
      · split at hasked <;> cases hasked
      · split at hasked <;> cases hasked
  | deleteByID id =>
      simp only [asked, action, deleteByIDAction] at hasked
      split at hasked
      · split at hasked <;> cases hasked
      · cases hasked
  | deleteByKey key =>
      simp only [asked, action, deleteByKeyAction] at hasked
      split_ifs at hasked

section

variable {S : ServerConfig} {visit : Visit} {r : Request}

theorem upload_eq_none {reply : Reply} (h : reply.status ≠ 200) :
    Exchange.upload S ⟨visit, r, reply⟩ = none :=
  if_neg fun hboth => h hboth.2

/-- An upload that is authorised is stored and answered 200, or leaves the tables alone. -/
theorem stored_of_dispatch (hroute : serveMux S.routes r.method r.escapedPath = some .post)
    (s : ServerState) :
    (Exchange.upload S ⟨visit, r, (dispatch S visit r .post s).1⟩ = none ∧
      (dispatch S visit r .post s).2.db = s.db) ∨
    ∃ p, Exchange.upload S ⟨visit, r, (dispatch S visit r .post s).1⟩ = some p ∧
      (dispatch S visit r .post s).1 = .json 200 (postJSON visit.times.env p (acceptedOf p) (unkeyedOf p)) ∧
      insertPayload S.cfg visit.times.env p s.db =
        ((dispatch S visit r .post s).2.db, .ok (acceptedOf p, unkeyedOf p)) := by
  have hasked : asked S visit r .post = .store (decodeBody (Str.ofBytes r.body)) := rfl
  have hperform := perform_store S visit s.db (decodeBody (Str.ofBytes r.body))
  rw [dispatch, hasked]
  rcases hperform with ⟨hstatus, hdb⟩ | ⟨p, hp, hreply, hinsert⟩
  · exact Or.inl ⟨upload_eq_none hstatus, hdb⟩
  · refine Or.inr ⟨p, (if_pos ⟨hroute, ?_⟩).trans hp, hreply, hinsert⟩
    show (perform S visit s.db _).1.status = 200
    rw [hreply]
    rfl

end

/-- A request leaves the batches and the ids alone, or is an upload that is stored and answered 200. -/
theorem stored_of_serve (crypto : Crypto) (S : ServerConfig) (visit : Visit) (r : Request) (s : ServerState) :
    (Exchange.upload S ⟨visit, r, (serve crypto S visit r s).1⟩ = none ∧
      (serve crypto S visit r s).2.db.batches = s.db.batches ∧
      (serve crypto S visit r s).2.db.records.nextId = s.db.records.nextId) ∨
    ∃ p, Exchange.upload S ⟨visit, r, (serve crypto S visit r s).1⟩ = some p ∧
      (serve crypto S visit r s).1 =
        .json 200 (postJSON visit.times.env p (acceptedOf p) (unkeyedOf p)) ∧
      insertPayload S.cfg visit.times.env p s.db =
        ((serve crypto S visit r s).2.db, .ok (acceptedOf p, unkeyedOf p)) := by
  cases hroute : serveMux S.routes r.method r.escapedPath with
  | none =>
      have hserve : serve crypto S visit r s = (visit.unrouted, s) := by
        unfold serve
        rw [hroute]
      rw [hserve]
      refine Or.inl ⟨if_neg fun h => ?_, rfl, rfl⟩
      cases hroute.symm.trans h.1
  | some route =>
      by_cases hpost : route = .post
      · subst hpost
        unfold serve
        rw [hroute]
        simp only
        split_ifs
        · exact Or.inl ⟨upload_eq_none (by decide : 413 ≠ 200), rfl, rfl⟩
        · simp only [roleOf]
          split
          · exact Or.inl ⟨upload_eq_none (by decide : 401 ≠ 200), rfl, rfl⟩
          · -- the nonces are no part of the tables
            rcases stored_of_dispatch hroute { s with nonces := _ } with ⟨hupload, hdb⟩ | hstored
            · exact Or.inl ⟨hupload, congrArg ReceiverDb.batches hdb,
                congrArg (fun db : ReceiverDb => db.records.nextId) hdb⟩
            · exact Or.inr hstored
      · -- the other routes do not store anything, whatever they answer
        refine Or.inl ⟨if_neg fun h => hpost (Option.some_inj.mp (hroute.symm.trans h.1)), ?_⟩
        have hkeeps : ∀ s : ServerState, (dispatch S visit r route s).2.db.batches = s.db.batches ∧
            (dispatch S visit r route s).2.db.records.nextId = s.db.records.nextId := fun s =>
          perform_keeps (asked_ne_store hpost)
        unfold serve
        rw [hroute]
        simp only
        split_ifs
        · exact ⟨rfl, rfl⟩
        · split
          · exact hkeeps s
          · split
            · exact ⟨rfl, rfl⟩
            · exact hkeeps _

/-! ## The tables after an upload -/

/-- An upload under a new id adds its row, with its counts. -/
theorem map_rows_setCounts (env : PostEnv) {t : KeyedTable Str BatchRow} (h : env.requestID ∉ t.keys)
    (payload : UploadPayload) :
    ((setCounts env (acceptedOf payload).length (unkeyedOf payload).length
        (upsertBatch env payload t)).rows.map fun b => (b.key, b.val)) =
      (t.rows.map fun b => (b.key, b.val)) ++ [(env.requestID, batchRow env payload)] := by
  have hold : ∀ b ∈ t.rows, ¬ b.key = env.requestID := fun b hb heq =>
    h (KeyedTable.mem_keys.mpr ⟨b, hb, heq⟩)
  rw [upsertBatch, KeyedTable.upsert, dif_neg h, setCounts, KeyedTable.updateWhere, KeyedTable.mapVal,
    List.map_map, KeyedTable.insertNew, List.map_append, List.map_singleton]
  congr 1
  · refine List.map_congr_left fun b hb => ?_
    simp [hold b hb]
  · simp [batchRow]

/-- The records that are accepted with one more row. -/
theorem sum_acceptedCount_concat {t t' : KeyedTable Str BatchRow} {key : Str} {row : BatchRow}
    (h : (t'.rows.map fun b => (b.key, b.val)) = (t.rows.map fun b => (b.key, b.val)) ++ [(key, row)]) :
    (t'.rows.map fun b => b.val.acceptedCount).sum =
      (t.rows.map fun b => b.val.acceptedCount).sum + row.acceptedCount := by
  have hcounts := congrArg (List.map fun b : Str × BatchRow => b.2.acceptedCount) h
  rw [List.map_map, List.map_append, List.map_map, List.map_singleton] at hcounts
  have hsum := congrArg List.sum hcounts
  rwa [List.sum_append, List.sum_singleton] at hsum

/-- No more ids are handed out than rows are upserted. -/
theorem nextId_upsertRows_le (t : RecordTable) (rows : List UpsertRow) :
    (t.upsertRows rows).nextId ≤ t.nextId + rows.length := by
  induction rows generalizing t with
  | nil => exact le_refl _
  | cons u rows ih =>
      have hupsert : (t.upsertRow u).nextId ≤ t.nextId + 1 := by
        rw [RecordTable.upsertRow, KeyedTable.upsert]
        split_ifs
        · exact Nat.le_succ _
        · exact le_refl _
      have hrest := ih (t.upsertRow u)
      show ((t.upsertRow u).upsertRows rows).nextId ≤ _
      rw [List.length_cons]
      omega

/-! ## Runs -/

/-- If no request id is used twice, then in every run the batches are, in order, those of the uploads that
were answered 200: each was answered with the keys of its records, and all of its records are counted. And
no more records were ever given an id than were accepted. -/
theorem batches_exact {crypto : Crypto} {S : ServerConfig} {p : ServerState × List Exchange}
    (h : ((receiver crypto S).logged (exchanged crypto S)).ReachedBy
      (fun p a => a.1.times.requestID ∉ p.1.db.batches.keys) p) :
    (∀ e ∈ p.2, e.Counted S) ∧
      (p.1.db.batches.rows.map fun b => (b.key, b.val)) = p.2.filterMap (Exchange.batch S) ∧
      p.1.db.records.nextId ≤ 1 + (p.1.db.batches.rows.map fun b => b.val.acceptedCount).sum := by
  refine System.logged_invariant_of (S := receiver crypto S)
    (K := fun s a => a.1.times.requestID ∉ s.db.batches.keys) (I := fun s log => (∀ e ∈ log, e.Counted S) ∧
      (s.db.batches.rows.map fun b => (b.key, b.val)) = log.filterMap (Exchange.batch S) ∧
      s.db.records.nextId ≤ 1 + (s.db.batches.rows.map fun b => b.val.acceptedCount).sum)
    (fun s hs => ?_) (fun s log a s' hI hstep hfresh => ?_) h
  · rw [hs.1]
    exact ⟨fun e he => absurd he List.not_mem_nil, rfl, le_refl _⟩
  · cases hstep
    obtain ⟨hcounted, hrows, hids⟩ := hI
    obtain ⟨visit, r⟩ := a
    rcases stored_of_serve crypto S visit r s with ⟨hnone, hbatches, hnext⟩ | ⟨payload, hupload, hreply, hinsert⟩
    · -- a request that stores nothing leaves no row
      have hbatch : Exchange.batch S ⟨visit, r, (serve crypto S visit r s).1⟩ = none := by
        rw [Exchange.batch, hnone, Option.map_none]
      refine ⟨fun e he => ?_, ?_, ?_⟩
      · rcases List.mem_append.mp he with he | he
        · exact hcounted e he
        · obtain rfl := List.mem_singleton.mp he
          exact Exchange.counted_of_none hnone
      · rw [hbatches, hrows, List.filterMap_append, exchanged, List.filterMap_cons_none hbatch,
          List.filterMap_nil, List.append_nil]
      · rw [hbatches, hnext]
        exact hids
    · obtain ⟨hrecords, hbatches, -, -⟩ := insertPayload_ok hinsert
      have hbatch : Exchange.batch S ⟨visit, r, (serve crypto S visit r s).1⟩ =
          some (visit.times.requestID, batchRow visit.times.env payload) := by
        rw [Exchange.batch, hupload, Option.map_some]
      have hadded := map_rows_setCounts visit.times.env hfresh payload
      rw [← hbatches] at hadded
      refine ⟨fun e he => ?_, ?_, ?_⟩
      · rcases List.mem_append.mp he with he | he
        · exact hcounted e he
        · obtain rfl := List.mem_singleton.mp he
          exact Exchange.counted_of_some hupload hreply
      · rw [hadded, hrows, List.filterMap_append, exchanged, List.filterMap_cons_some hbatch,
          List.filterMap_nil]
        rfl
      · -- an id for each of the keyed records at most
        have hlength : (rowsOf S.cfg visit.times.env payload).length = (acceptedOf payload).length := by
          rw [← map_key_rowsOf S.cfg visit.times.env, List.length_map]
        have hsum := sum_acceptedCount_concat hadded
        have hcount : (batchRow visit.times.env payload).acceptedCount = (acceptedOf payload).length := rfl
        have hnext := nextId_upsertRows_le s.db.records (rowsOf S.cfg visit.times.env payload)
        rw [← hrecords] at hnext
        show (serve crypto S visit r s).2.db.records.nextId ≤
          1 + ((serve crypto S visit r s).2.db.batches.rows.map fun b => b.val.acceptedCount).sum
        omega

/-- A run with one upload. -/
theorem batches_exact_upload : ∃ p : ServerState × List Exchange,
    p.1.db.batches.rows.length = 1 ∧ (∀ e ∈ p.2, e.Counted sampleServer) ∧
      (p.1.db.batches.rows.map fun b => (b.key, b.val)) = p.2.filterMap (Exchange.batch sampleServer) ∧
      p.1.db.records.nextId ≤ 1 + (p.1.db.batches.rows.map fun b => b.val.acceptedCount).sum := by
  obtain ⟨p, hp, hone⟩ := System.exists_of_exec
    (S := (receiver sampleCrypto sampleServer).logged (exchanged sampleCrypto sampleServer))
    (K := fun p a => a.1.times.requestID ∉ p.1.db.batches.keys)
    (P := fun p => p.1.db.batches.rows.length = 1) (s := (⟨⟨.empty, .empty⟩, []⟩, []))
    (l := [(visitAt sampleSecond, uploadOf "2026-08-20T16:00:00Z")]) ⟨⟨rfl, rfl⟩, rfl⟩ (by decide +kernel)
  exact ⟨p, of_decide_eq_true hone, batches_exact hp⟩

end WeighingSync.Receiver
