import WeighingSync.Engine.OwnBatch
import WeighingSync.Uploader.Starvation

/-!
# Responses that accept nothing

The three clients read lists of records from a response, each with names of its own, and none of them
reads the flag `accepted`. Where all lists that a client reads are empty or absent, it takes the whole
batch as accepted. So a response that accepts nothing is taken as such only if a list of failed records
says so (`refused_delivers_none`).
-/

namespace WeighingSync

open Go

/-! ## The local cache -/

namespace Engine.SyncEngine

/-- A reply that accepts nothing and lists a failed record, whatever its flag `accepted` is. -/
def Refuses (lib : Lib) (reply : HttpReply) : Prop :=
  reply.status ≠ 204 ∧ ∀ response, (reply.body.bind lib.parseJson).bind (decodeResponse lib) =
    some response → response.accepted = [] ∧ response.failed ≠ []

/-- No record becomes synced in a cycle. -/
def DeliversNone (lib : Lib) (cfg : SyncConfig) (run : Run) (cache : Cache) : Prop :=
  ∀ row ∈ (syncOnce lib cfg run cache).1.rows, row.status = .synced → row ∈ cache.rows

variable {lib : Lib} {cfg : SyncConfig} {run : Run} {cache : Cache} {records : List WeighingRecord}
  {response : TwoLists Uuid}

theorem lists_of_refused
    (h : ∀ attempt ∈ run.attempts, ∀ request, ∀ reply ∈ attempt.respond request, Refuses lib reply)
    (hupload : upload lib cfg run records = some (.ok response)) :
    response.accepted = [] ∧ response.failed ≠ [] := by
  obtain ⟨_, hmem, houtcome⟩ := mem_of_retryTransient hupload
  obtain ⟨attempt, hattempt, rfl⟩ := List.mem_map.mp hmem
  simp only [uploadBatch] at houtcome
  split at houtcome
  · cases houtcome
  · next reply hreply =>
    obtain ⟨hstatus, hlists⟩ := h attempt hattempt _ reply hreply
    rw [if_neg hstatus] at houtcome
    split_ifs at houtcome
    split at houtcome
    · next response' hresponse =>
      cases houtcome
      exact hlists response hresponse
    · cases houtcome

/-- A write-back without accepted ids makes no record synced. -/
theorem deliversNone_of_refused
    (h : ∀ attempt ∈ run.attempts, ∀ request, ∀ reply ∈ attempt.respond request, Refuses lib reply) :
    DeliversNone lib cfg run cache := by
  by_cases huploaded : ∃ records outcome, Uploaded lib cfg run cache records outcome
  · obtain ⟨records, outcome, huploaded⟩ := huploaded
    have hsynced : (writeBackOf records outcome).synced = [] := by
      cases outcome with
      | error error => rfl
      | ok response =>
          obtain ⟨haccepted, hfailed⟩ := lists_of_refused h huploaded.uploaded
          simp [writeBackOf, TwoLists.acceptedFrom, TwoLists.silent, haccepted, hfailed]
    have hexecuted : ((writeBackOf records outcome).executed run).synced = [] := by
      unfold WriteBack.executed
      split_ifs
      · rfl
      · exact hsynced
      · exact hsynced
    intro row' hrow' hstatus
    rw [syncOnce_of_uploaded huploaded, rows_applyWriteBack] at hrow'
    obtain ⟨row, hrow, rfl⟩ := List.mem_map.mp hrow'
    rw [WriteBack.mark, hexecuted] at hstatus ⊢
    simp only [List.map_nil, List.not_mem_nil, if_false] at hstatus ⊢
    split_ifs at hstatus ⊢
    · cases hstatus
    · exact hrow
  · push Not at huploaded
    rw [DeliversNone, syncOnce_of_not_uploaded huploaded]
    exact fun row hrow _ => hrow

end Engine.SyncEngine

/-! ## The SQL Server source -/

namespace Engine.SqlServerEngine

/-- A reply that accepts nothing and lists a failed record, whatever its flag `accepted` is. -/
def Refuses (lib : Lib) (reply : HttpReply) : Prop :=
  reply.status ≠ 204 ∧ ∀ body, reply.body = some body → body.repair.trimSpace ≠ [] ∧
    ∀ response, (lib.parseJson body.repair).bind decodeResponse = some response →
      response.accepted = [] ∧ response.failed ≠ []

/-- No flag is set in a cycle. -/
def DeliversNone (lib : Lib) (server : Server) (source : SqlServerConfig) (cfg : SyncConfig)
    (run : Run) (rows : List WeightRow) : Prop :=
  (syncOnce lib server source cfg run rows).1 = rows

variable {lib : Lib} {server : Server} {source : SqlServerConfig} {cfg : SyncConfig} {run : Run}
  {rows : List WeightRow} {records : List SqlServerWeightRecord} {response : TwoLists Str}

theorem lists_of_refused
    (h : ∀ attempt ∈ run.attempts, ∀ request, ∀ reply ∈ attempt.respond request, Refuses lib reply)
    (hupload : upload lib source cfg run records = some (.ok response)) :
    response.accepted = [] ∧ response.failed ≠ [] := by
  obtain ⟨_, hmem, houtcome⟩ := mem_of_retryTransient hupload
  obtain ⟨attempt, hattempt, rfl⟩ := List.mem_map.mp hmem
  simp only [uploadBatch] at houtcome
  split at houtcome
  · cases houtcome
  · next reply hreply =>
    obtain ⟨hstatus, hbody⟩ := h attempt hattempt _ reply hreply
    rw [if_neg hstatus] at houtcome
    split_ifs at houtcome
    split at houtcome
    · cases houtcome
    · next body hsome =>
      obtain ⟨hblank, hlists⟩ := hbody body hsome
      rw [if_neg hblank] at houtcome
      split at houtcome
      · next response' hresponse =>
        cases houtcome
        exact hlists response hresponse
      · cases houtcome

theorem deliversNone_of_refused
    (h : ∀ attempt ∈ run.attempts, ∀ request, ∀ reply ∈ attempt.respond request, Refuses lib reply) :
    DeliversNone lib server source cfg run rows := by
  by_cases hacknowledged :
      ∃ records response, Acknowledged lib server source cfg run rows records response
  · obtain ⟨records, response, hacknowledged⟩ := hacknowledged
    obtain ⟨haccepted, hfailed⟩ := lists_of_refused h hacknowledged.uploaded
    have hnone : acceptedSerialNos records response = [] := by
      simp [acceptedSerialNos, TwoLists.acceptedFrom, TwoLists.silent, haccepted, hfailed]
    rw [DeliversNone, syncOnce_of_acknowledged hacknowledged, hnone, Server.markUploaded,
      if_pos (Or.inl rfl)]
  · push Not at hacknowledged
    exact syncOnce_of_not_acknowledged hacknowledged

end Engine.SqlServerEngine

/-! ## The uploader -/

namespace Uploader

/-- A reply that accepts nothing and lists a failed record, whatever its flag `accepted` is. -/
def Refuses (reply : Reply) : Prop :=
  reply.status ≠ 204 ∧ reply.received.trimSpace ≠ [] ∧
    ∀ response, (parse reply.received).bind decodeResponse = some response →
      response.acceptedSet = [] ∧ (response.failedRecordKeys ≠ [] ∨ response.failed ≠ [])

/-- No record is confirmed in a pass. -/
def DeliversNone (cfg : Config) (db : SourceDb) (store : StateStore) (x : Exchange) : Prop :=
  (syncOnce cfg db store x).store = store

theorem acknowledged_of_refuses {reply : Reply} (h : Refuses reply) {response : UploadResponse}
    (hread : readResponse reply = .ok response) (records : List SourceRecord) :
    acknowledged records response = [] := by
  obtain ⟨hstatus, hblank, hlists⟩ := h
  rw [readResponse] at hread
  split_ifs at hread with hsuccess hempty
  · exact absurd hempty (not_or.mpr ⟨hstatus, hblank⟩)
  · split at hread
    · next response' hresponse =>
      cases hread
      obtain ⟨haccepted, hfailed⟩ := hlists response hresponse
      have hne : response ≠ .empty := by
        rintro rfl
        rcases hfailed with hkeys | hserials
        · exact hkeys rfl
        · exact hserials rfl
      rw [acknowledged, if_neg hne, haccepted]
      exact List.filter_eq_nil_iff.mpr fun r _ => by simp
    · cases hread

theorem deliversNone_of_refused {cfg : Config} {db : SourceDb} {store : StateStore} {x : Exchange}
    (h : ∀ body, ∀ reply ∈ x.send body, Refuses reply) : DeliversNone cfg db store x := by
  rw [DeliversNone]
  rcases syncOnce_cases cfg db store x with
    ⟨e, -, hpass⟩ | ⟨records, -, ⟨-, hpass⟩ | ⟨-, -, -, hstore, hconfirmed⟩⟩
  · rw [hpass]
  · rw [hpass]
  · have hnone : (syncOnce cfg db store x).confirmed = [] := by
      rw [hconfirmed]
      split
      · next response hpost =>
        rw [post] at hpost
        split at hpost
        · cases hpost
        · next reply hreply => exact acknowledged_of_refuses (h _ reply hreply) hpost _
      · rfl
    rw [hstore, hnone]
    rfl

end Uploader

/-! ## All three clients -/

/-- Whatever its flag `accepted` says, a response that accepts no record and lists a failed one makes
none of the clients mark a record as delivered. -/
theorem refused_delivers_none :
    (∀ (lib : Engine.SyncEngine.Lib) (cfg : Engine.SyncConfig) (run : Engine.SyncEngine.Run)
      (cache : Engine.Cache),
      (∀ attempt ∈ run.attempts, ∀ request, ∀ reply ∈ attempt.respond request,
        Engine.SyncEngine.Refuses lib reply) → Engine.SyncEngine.DeliversNone lib cfg run cache) ∧
    (∀ (lib : Engine.SqlServerEngine.Lib) (server : Engine.Server) (source : Engine.SqlServerConfig)
      (cfg : Engine.SyncConfig) (run : Engine.SqlServerEngine.Run) (rows : List Engine.WeightRow),
      (∀ attempt ∈ run.attempts, ∀ request, ∀ reply ∈ attempt.respond request,
        Engine.SqlServerEngine.Refuses lib reply) →
        Engine.SqlServerEngine.DeliversNone lib server source cfg run rows) ∧
    (∀ (cfg : Uploader.Config) (db : Uploader.SourceDb) (store : Uploader.StateStore)
      (x : Uploader.Exchange), (∀ body, ∀ reply ∈ x.send body, Uploader.Refuses reply) →
        Uploader.DeliversNone cfg db store x) :=
  ⟨fun _ _ _ _ => Engine.SyncEngine.deliversNone_of_refused,
    fun _ _ _ _ _ _ => Engine.SqlServerEngine.deliversNone_of_refused,
    fun _ _ _ _ => Uploader.deliversNone_of_refused⟩

/-- An exchange in which every request is answered with a body. -/
def answeredExchange (body : String) : Uploader.Exchange where
  uploadedAt := Str.lit "2026-01-01T00:00:00Z"
  acceptedAt := Str.lit "2026-01-01T00:00:01Z"
  send := fun _ => some ⟨200, Str.lit body⟩
  room := none

theorem Engine.SyncEngine.refused_answeredBy {lib : Engine.SyncEngine.Lib} {body : String}
    {id : Engine.Uuid} (hread : (lib.parseJson (Str.lit body)).bind
      (Engine.SyncEngine.decodeResponse lib) = some ⟨[], [id]⟩) :
    ∀ attempt ∈ (Engine.SyncEngine.answeredBy body).attempts, ∀ request,
      ∀ reply ∈ attempt.respond request, Engine.SyncEngine.Refuses lib reply := by
  intro attempt hattempt request reply hreply
  rw [List.mem_singleton.mp hattempt] at hreply
  rw [← Option.mem_some.mp hreply]
  refine ⟨show 200 ≠ 204 by decide, fun response hresponse => ?_⟩
  cases hread.symm.trans hresponse
  exact ⟨rfl, List.cons_ne_nil _ _⟩

theorem Engine.SqlServerEngine.refused_answeredBy {lib : Engine.SqlServerEngine.Lib} {body : String}
    {serialNo : Str} (hblank : (Str.lit body).repair.trimSpace ≠ [])
    (hread : (lib.parseJson (Str.lit body).repair).bind Engine.SqlServerEngine.decodeResponse =
      some ⟨[], [serialNo]⟩) :
    ∀ attempt ∈ (Engine.SqlServerEngine.answeredBy body).attempts, ∀ request,
      ∀ reply ∈ attempt.respond request, Engine.SqlServerEngine.Refuses lib reply := by
  intro attempt hattempt request reply hreply
  rw [List.mem_singleton.mp hattempt] at hreply
  rw [← Option.mem_some.mp hreply]
  refine ⟨show 200 ≠ 204 by decide, fun body' hbody => ?_⟩
  rw [← Option.some_inj.mp hbody]
  refine ⟨hblank, fun response hresponse => ?_⟩
  cases hread.symm.trans hresponse
  exact ⟨rfl, List.cons_ne_nil _ _⟩

theorem Uploader.refused_answeredExchange {body : String} {key : Str}
    (hblank : (Reply.received ⟨200, Str.lit body⟩).trimSpace ≠ [])
    (hread : (parse (Reply.received ⟨200, Str.lit body⟩)).bind Uploader.decodeResponse =
      some ⟨[], [key], [], []⟩) :
    ∀ request, ∀ reply ∈ (answeredExchange body).send request, Uploader.Refuses reply := by
  intro request reply hreply
  rw [← Option.mem_some.mp hreply]
  refine ⟨show 200 ≠ 204 by decide, hblank, fun response hresponse => ?_⟩
  cases hread.symm.trans hresponse
  exact ⟨rfl, Or.inl (List.cons_ne_nil _ _)⟩

/-- Responses that refuse the first record, in the words of each client. -/
def refusedId : String :=
  "\x7b\"accepted\":false,\"failed_ids\":[\"00000000-0000-0000-0000-000000000001\"]\x7d"
def refusedSerial : String := "\x7b\"accepted\":false,\"failed_serial_nos\":[\"A\"]\x7d"
def refusedKey : String :=
  "\x7b\"accepted\":false,\"failed_record_keys\":[\"weight_info:a\"]\x7d"

theorem refused_delivers_none_first :
    Engine.SyncEngine.DeliversNone Engine.exampleLib Engine.oneRecordConfig
      (Engine.SyncEngine.answeredBy refusedId) Engine.twoRowCache ∧
    Engine.SqlServerEngine.DeliversNone Engine.plainLib Engine.plainServer Engine.plainSource
      Engine.oneRecordConfig (Engine.SqlServerEngine.answeredBy refusedSerial) Engine.twoWeights ∧
    Uploader.DeliversNone Uploader.oneRowConfig Uploader.twoRowDb ⟨[], []⟩
      (answeredExchange refusedKey) := by
  have hid : (Engine.exampleLib.parseJson (Str.lit refusedId)).bind
      (Engine.SyncEngine.decodeResponse Engine.exampleLib) = some ⟨[], [1]⟩ := by decide +kernel
  have hserial : (Engine.plainLib.parseJson (Str.lit refusedSerial).repair).bind
      Engine.SqlServerEngine.decodeResponse = some ⟨[], [Str.lit "A"]⟩ := by decide +kernel
  have hkey : (parse (Reply.received ⟨200, Str.lit refusedKey⟩)).bind Uploader.decodeResponse =
      some ⟨[], [Str.lit "weight_info:a"], [], []⟩ := by decide +kernel
  exact ⟨refused_delivers_none.1 _ _ _ _ (Engine.SyncEngine.refused_answeredBy hid),
    refused_delivers_none.2.1 _ _ _ _ _ _
      (Engine.SqlServerEngine.refused_answeredBy (by decide +kernel) hserial),
    refused_delivers_none.2.2 _ _ _ _ (Uploader.refused_answeredExchange (by decide +kernel) hkey)⟩

/-- A response that only says that the batch is not accepted. -/
def notAccepted : String := "\x7b\"accepted\":false\x7d"

/-- Each client takes such a response as acceptance of the whole batch. -/
theorem not_deliversNone_notAccepted :
    ¬ Engine.SyncEngine.DeliversNone Engine.exampleLib Engine.oneRecordConfig
      (Engine.SyncEngine.answeredBy notAccepted) Engine.twoRowCache ∧
    ¬ Engine.SqlServerEngine.DeliversNone Engine.plainLib Engine.plainServer Engine.plainSource
      Engine.oneRecordConfig (Engine.SqlServerEngine.answeredBy notAccepted) Engine.twoWeights ∧
    ∃ cfg, Uploader.loadConfig Uploader.oneRowEnv Uploader.defaultEndpoint = .ok cfg ∧
      ¬ Uploader.DeliversNone cfg Uploader.twoRowDb ⟨[], []⟩ (answeredExchange notAccepted) := by
  refine ⟨?_, ?_, Uploader.oneRowConfig, Uploader.loadConfig_oneRowEnv, ?_⟩
  · unfold Engine.SyncEngine.DeliversNone
    decide +kernel
  · unfold Engine.SqlServerEngine.DeliversNone
    decide +kernel
  · have hfile : (Uploader.syncOnce Uploader.oneRowConfig Uploader.twoRowDb ⟨[], []⟩
        (answeredExchange notAccepted)).store.file ≠ [] := by decide +kernel
    intro hnone
    exact hfile (congrArg Uploader.StateStore.file hnone)

end WeighingSync
